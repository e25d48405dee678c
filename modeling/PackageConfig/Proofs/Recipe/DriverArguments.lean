import PackageConfig.Proofs.Recipe.Totality
import Mathlib.Data.List.TakeWhile

/-!
What the build driver reads in the arguments of a resolution.

`readSetting` takes an argument apart as a build driver does, at the first `=` behind `-D`. No
character is kept out of a driver name, so the name that is seen is the driver name up to its
first `=` (`seenName`); a value may hold any character and is read to its end. An argument is read
back as it was meant exactly if the driver name has no `=`, and driver names that have none, being
distinct, are seen as distinct names (`arguments_read_back`).
-/

namespace PackageConfig

namespace VariableRules

variable {v : VariableRules} {config : Configuration} {linkage : Linkage}

/-! ## One argument -/

/-- How the build driver takes an argument apart: behind `-D` a name up to the first `=`, and a
value behind that. -/
def readSetting (argument : String) : Option (String × String) :=
  match argument.toList with
  | '-' :: 'D' :: setting =>
    (Text.cutChars '=' setting).map fun (name, text) => (String.ofList name, String.ofList text)
  | _ => none

/-- The part of a driver name that the build driver takes for the name. -/
def seenName (name : String) : String :=
  String.ofList (name.toList.takeWhile (· ≠ '='))

theorem seenName_eq_self_iff {name : String} : seenName name = name ↔ '=' ∉ name.toList := by
  unfold seenName
  rw [← String.toList_inj, String.toList_ofList, List.takeWhile_eq_self_iff]
  simp only [ne_eq, decide_not, Bool.not_eq_true', decide_eq_false_iff_not]
  exact ⟨fun unmarked mem => unmarked _ mem rfl, fun unmarked c mem same => unmarked (same ▸ mem)⟩

/-- A setting is cut within its name if the name has a mark, and behind the name if not. -/
theorem cutChars_append (name rest : List Char) :
    ∃ text, Text.cutChars '=' (name ++ '=' :: rest) =
        some (name.takeWhile (· ≠ '='), text) ∧ ('=' ∉ name → text = rest) := by
  induction name with
  | nil => exact ⟨rest, by simp [Text.cutChars], fun _ => rfl⟩
  | cons c name ih =>
    obtain ⟨text, cut, whole⟩ := ih
    by_cases marked : c = '='
    · exact ⟨name ++ '=' :: rest, by simp [Text.cutChars, marked],
        fun unmarked => absurd (marked ▸ List.mem_cons_self) unmarked⟩
    · refine ⟨text, by simp [Text.cutChars, marked, cut], fun unmarked => ?_⟩
      exact whole fun mem => unmarked (List.mem_cons_of_mem c mem)

theorem readSetting_argument (name : String) (value : Value) :
    ∃ text, readSetting (argument name value) = some (seenName name, text) ∧
      ('=' ∉ name.toList → text = value.driverText) := by
  obtain ⟨text, cut, whole⟩ := cutChars_append name.toList value.driverText.toList
  have chars : (argument name value).toList =
      '-' :: 'D' :: (name.toList ++ '=' :: value.driverText.toList) := by
    simp [argument]
  refine ⟨String.ofList text, ?_, fun unmarked => ?_⟩
  · rw [readSetting, chars]
    change (Text.cutChars '=' _).map _ = _
    rw [cut]
    rfl
  · rw [whole unmarked, String.ofList_toList]

/-- What a build driver reads in the argument of a rule with a given value. -/
structure Reads (v : VariableRules) (rule : VariableRule) (value : Value) (argument : String) :
    Prop where
  name_seen : ∃ text, readSetting argument = some (seenName (v.driverName rule), text)
  exact_iff : readSetting argument = some (v.driverName rule, value.driverText) ↔
    '=' ∉ (v.driverName rule).toList

theorem Reads.seen {rule : VariableRule} {value : Value} {argument : String}
    (reads : v.Reads rule value argument) :
    (readSetting argument).map Prod.fst = some (seenName (v.driverName rule)) := by
  obtain ⟨text, read⟩ := reads.name_seen
  rw [read, Option.map_some]

theorem reads_argument (v : VariableRules) (rule : VariableRule) (value : Value) :
    v.Reads rule value (argument (v.driverName rule) value) := by
  obtain ⟨text, read, whole⟩ := readSetting_argument (v.driverName rule) value
  refine ⟨⟨text, read⟩, ?_⟩
  rw [read, Option.some.injEq, Prod.mk.injEq, seenName_eq_self_iff]
  exact and_iff_left_of_imp whole

/-! ## The arguments of a table -/

/-- There is one argument for each rule, in the order of the rules. -/
theorem arguments_readings (nodup : (v.rules.map VariableRule.name).Nodup) :
    v.arguments (readings v.rules config linkage) = v.rules.map fun rule =>
      argument (v.driverName rule) (rule.source.reading config linkage) := by
  rw [← List.filterMap_eq_map]
  refine List.filterMap_congr fun rule mem => ?_
  rw [get?_readings nodup mem]
  rfl

end VariableRules

namespace Recipe

variable {recipe : Recipe} {p : Platform} {request : Request} {r : Resolution}

/-- The arguments of a resolution, one for each rule on variables and in the order of the rules.
Each is taken apart into the driver name up to its first `=` and a value; these are the driver
name and the value that the rule has emitted exactly if the driver name has no `=`. No name is
seen twice among the rules of which the driver names have none. -/
theorem arguments_read_back (valid : recipe.Valid) (resolved : recipe.resolve p request = .ok r) :
    let v := recipe.variableRules
    List.Forall₂
        (fun rule argument => ∃ value, rule.source.value r.config r.linkage = .ok value ∧
          r.table.get? rule.name = some value ∧ v.Reads rule value argument)
        v.rules (v.arguments r.table) ∧
      (v.rules.zip (v.arguments r.table)).Pairwise fun first second =>
        '=' ∉ (v.driverName first.1).toList → '=' ∉ (v.driverName second.1).toList →
          (VariableRules.readSetting first.2).map Prod.fst ≠
            (VariableRules.readSetting second.2).map Prod.fst := by
  intro v
  obtain ⟨start, pins, accepted, rfl⟩ := valid.exists_outcome resolved
  have fits : v.Fits recipe.catalog := valid.fits.variableRules
  have described := describes_settle valid accepted p
  simp only [outcome]
  rw [VariableRules.arguments_readings fits.names_nodup]
  constructor
  · refine List.forall₂_map_right_iff.2 (List.forall₂_same.2 fun rule mem => ?_)
    have known : ∀ option ∈ rule.source.options,
        ∃ state, (recipe.settle p start).get? option = some state :=
      fun option read => described.exists_get? (fits.declared rule mem option read)
    have listed := VariableRules.get?_readings fits.names_nodup mem (recipe.settle p start)
    exact ⟨_, VariableSource.value_eq_ok known, listed _, v.reads_argument rule _⟩
  · rw [← List.map_prod_left_eq_zip, List.pairwise_map]
    have distinct := List.pairwise_map.1 fits.driverNames_nodup
    refine distinct.imp fun {first second} other unmarked unmarked' same => other ?_
    rw [(v.reads_argument first _).seen, (v.reads_argument second _).seen, Option.some.injEq,
      VariableRules.seenName_eq_self_iff.2 unmarked,
      VariableRules.seenName_eq_self_iff.2 unmarked'] at same
    exact same

/-- A recipe with a driver name in which another one stands in front of an `=`. -/
def assigned : Recipe where
  catalog := .ofCalls [.flag "shared" false]
  pruneRules := ⟨[], []⟩
  pinRules := []
  variableRules := ⟨"", [⟨"kind", .constant (.text "x"), some "KIND=TYPE"⟩,
    ⟨"sort", .constant (.text "a=b"), some "KIND"⟩, ⟨"shared", .option "shared", some "SHARED"⟩]⟩
  linkageOption := "shared"

theorem assigned_valid : assigned.Valid :=
  .of_check rfl rfl

/-- The resolution of the recipe for a request of nothing. -/
def assignedOutcome : Resolution where
  platform := ⟨.linux, .gcc, .x86_64⟩
  linkage := .static
  config := ⟨.ofList [("shared", .present (.flag false))]⟩
  pins := .empty
  table := .ofList [("kind", .text "x"), ("sort", .text "a=b"), ("shared", .flag false)]

theorem resolve_assigned :
    assigned.resolve ⟨.linux, .gcc, .x86_64⟩ .empty = .ok assignedOutcome := by
  have accepted : assigned.catalog.start .empty = .ok assigned.catalog.defaults := rfl
  have settled : assigned.settle ⟨.linux, .gcc, .x86_64⟩ assigned.catalog.defaults =
      assigned.catalog.defaults := Catalog.close_of_orphans_nil (by decide)
  rw [assigned_valid.resolve_of_accepted accepted, settled]
  rfl

theorem arguments_assigned : assigned.variableRules.arguments assignedOutcome.table =
    ["-DKIND=TYPE=x", "-DKIND=a=b", "-DSHARED=OFF"] := by
  decide

/-- The value with a mark in it is read back; the driver name with one is not. -/
theorem arguments_read_back_assigned :
    assigned.Valid ∧ assigned.resolve ⟨.linux, .gcc, .x86_64⟩ .empty = .ok assignedOutcome ∧
      assigned.variableRules.arguments assignedOutcome.table =
        ["-DKIND=TYPE=x", "-DKIND=a=b", "-DSHARED=OFF"] ∧
      VariableRules.readSetting "-DKIND=TYPE=x" ≠ some ("KIND=TYPE", "x") ∧
      VariableRules.readSetting "-DKIND=a=b" = some ("KIND", "a=b") := by
  obtain ⟨reads, -⟩ := arguments_read_back assigned_valid resolve_assigned
  rw [arguments_assigned] at reads
  cases reads with
  | cons first rest =>
    cases rest with
    | cons second rest =>
      obtain ⟨kind, -, listed, marked⟩ := first
      obtain ⟨sort, -, listed', unmarked⟩ := second
      have kind_eq : assignedOutcome.table.get? "kind" = some (.text "x") := by decide
      have sort_eq : assignedOutcome.table.get? "sort" = some (.text "a=b") := by decide
      cases kind_eq.symm.trans listed
      cases sort_eq.symm.trans listed'
      refine ⟨assigned_valid, resolve_assigned, arguments_assigned, fun read => ?_,
        unmarked.exact_iff.2 (by decide)⟩
      exact absurd (marked.exact_iff.1 read) (by decide)

/-- A recipe may be valid and yet have an argument that is not read back, and a name that is set
twice. -/
theorem not_read_back_assigned :
    assigned.Valid ∧ ∃ r, assigned.resolve ⟨.linux, .gcc, .x86_64⟩ .empty = .ok r ∧
      let v := assigned.variableRules
      ¬ List.Forall₂
          (fun rule argument => ∃ value, r.table.get? rule.name = some value ∧
            VariableRules.readSetting argument = some (v.driverName rule, value.driverText))
          v.rules (v.arguments r.table) ∧
        ¬ ((v.arguments r.table).map fun argument =>
          (VariableRules.readSetting argument).map Prod.fst).Nodup := by
  refine ⟨assigned_valid, assignedOutcome, resolve_assigned, ?_⟩
  intro v
  rw [arguments_assigned]
  refine ⟨fun reads => ?_, by decide⟩
  have seen : VariableRules.readSetting "-DKIND=TYPE=x" = some ("KIND", "TYPE=x") := by decide
  cases reads with
  | cons first rest =>
    obtain ⟨value, -, read⟩ := first
    have names : "KIND" = "KIND=TYPE" :=
      congrArg Prod.fst (Option.some.inj (seen.symm.trans read))
    exact absurd names (by decide)

end Recipe

end PackageConfig
