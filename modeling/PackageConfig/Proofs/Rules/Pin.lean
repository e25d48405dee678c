import PackageConfig.Rules.Pin
import PackageConfig.Proofs.Options.Configuration
import PackageConfig.Proofs.Pin.Set
import PackageConfig.Proofs.Text.ByteOrder
import Mathlib.Data.List.Forall2

/-!
What the rules on pins make of a configuration that knows their options.

Asking whether an option is enabled cannot fail then, so that a rule applies when all its options
are enabled (`holds_eq_ok`), and all rules together add the pins of those that apply, in
their order (`ofRules_eq_insertAll`): the outcome is the set of exactly these pins, or the first
clash among them (`ofRules_union_or_first_clash`). Which pins these are does not depend on the
order of the rules, of their options or of their pins (`Reordered.mem_required_iff`).
-/

namespace PackageConfig

variable {config : Configuration} {rule other : PinRule} {rules others : List PinRule}

namespace PinRule

/-- All options of a rule are enabled. -/
def Applies (rule : PinRule) (config : Configuration) : Prop :=
  ∀ option ∈ rule.options, config.isEnabled option = true

instance : Decidable (rule.Applies config) :=
  inferInstanceAs (Decidable (∀ option ∈ rule.options, config.isEnabled option = true))

/-- A configuration knows every option that a rule asks for. -/
def Known (rule : PinRule) (config : Configuration) : Prop :=
  ∀ option ∈ rule.options, ∃ state, config.get? option = some state

theorem allEnabled_eq_ok {options : List String}
    (known : ∀ option ∈ options, ∃ state, config.get? option = some state) :
    allEnabled config options =
      .ok (decide (∀ option ∈ options, config.isEnabled option = true)) := by
  induction options with
  | nil => rfl
  | cons option rest ih =>
    obtain ⟨here, later⟩ := List.forall_mem_cons.1 known
    rw [allEnabled, Configuration.enabled_eq_ok here]
    cases enabled : config.isEnabled option with
    | true =>
      refine (ih later).trans ?_
      simp [enabled]
    | false => simp [enabled, bind, Except.bind, pure, Except.pure]

theorem holds_eq_ok (known : rule.Known config) :
    rule.holds config = .ok (decide (rule.Applies config)) :=
  allEnabled_eq_ok known

end PinRule

namespace PinSet

/-- The pins of the rules that apply, in the order of the rules. -/
def required (rules : List PinRule) (config : Configuration) : List Pin :=
  (rules.filter fun rule => decide (rule.Applies config)).flatMap PinRule.pins

theorem mem_required_iff {pin : Pin} :
    pin ∈ required rules config ↔ ∃ rule ∈ rules, rule.Applies config ∧ pin ∈ rule.pins := by
  simp [required, and_assoc]

theorem addRules_eq_insertAll (known : ∀ rule ∈ rules, rule.Known config) (set : PinSet) :
    addRules config rules set = set.insertAll (required rules config) := by
  induction rules generalizing set with
  | nil => rfl
  | cons rule rest ih =>
    obtain ⟨here, later⟩ := List.forall_mem_cons.1 known
    rw [addRules, PinRule.holds_eq_ok here]
    by_cases applies : rule.Applies config
    · have front : required (rule :: rest) config = rule.pins ++ required rest config := by
        simp [required, applies]
      rw [front, insertAll_append]
      simp only [applies, decide_true, bind, Except.bind, if_true]
      cases set.insertAll rule.pins with
      | error fault => rfl
      | ok next => exact ih later next
    · have skipped : required (rule :: rest) config = required rest config := by
        simp [required, applies]
      rw [skipped, ← ih later set]
      simp [applies, bind, Except.bind]

theorem ofRules_eq_insertAll (known : ∀ rule ∈ rules, rule.Known config) :
    ofRules rules config = empty.insertAll (required rules config) :=
  addRules_eq_insertAll known empty

/-- In a configuration that knows the options of every rule, the rules make a set exactly when no
two of the pins that they require give one component different versions. The set then lists
exactly the required pins, one for each component, in the order of the bytes of the components.
Otherwise the first required pin that disagrees with one before it is reported, together with the
earliest required pin of its component. -/
theorem ofRules_union_or_first_clash (known : ∀ rule ∈ rules, rule.Known config) :
    ((∃ set, ofRules rules config = .ok set) ↔ Pin.Agree (· ∈ required rules config)) ∧
      (∀ set, ofRules rules config = .ok set →
        (∀ pin, pin ∈ set.toList ↔ pin ∈ required rules config) ∧
        set.toList.Pairwise fun first second => Text.utf8 first.name < Text.utf8 second.name) ∧
      (¬ Pin.Agree (· ∈ required rules config) → ∃ first second,
        ofRules rules config = .error (.pinConflict first second) ∧
        Pin.FirstClash (required rules config) first second) := by
  rw [ofRules_eq_insertAll known]
  rcases insertAll_empty_cases (required rules config) with
    ⟨set, added, agree, has⟩ | ⟨first, second, refused, disagree⟩
  · refine ⟨iff_of_true ⟨set, added⟩ agree, fun other same => ?_, fun differ => absurd agree differ⟩
    cases added.symm.trans same
    refine ⟨fun pin => mem_toList_iff.trans (has pin), ?_⟩
    exact set.toList_ascending.imp Text.utf8_lt_iff.2
  · have never : ∀ set, empty.insertAll (required rules config) ≠ .ok set := by
      intro set added
      cases refused.symm.trans added
    refine ⟨iff_of_false (fun made => made.elim never) disagree,
      fun set added => absurd added (never set), fun _ => ?_⟩
    rcases insertAll_empty_clash_cases (required rules config) with ⟨set, added⟩ | clash
    · exact absurd added (never set)
    · exact clash

/-- Two archives and an image format that agree on one library only. -/
def archiveRules : List PinRule :=
  [⟨["zip"], [⟨"zlib", "1.2"⟩, ⟨"bzip2", "1.0"⟩]⟩, ⟨["tar"], [⟨"zlib", "0.9"⟩]⟩,
    ⟨["zip", "png"], [⟨"bzip2", "1.0"⟩, ⟨"zlib", "1.3"⟩, ⟨"bzip2", "1.1"⟩]⟩]

/-- A configuration in which the second archive was removed. -/
def archiveStates (png : Bool) : Configuration :=
  ⟨.ofList [("png", .present (.flag png)), ("tar", .absent (.parent "zip")),
    ("zip", .present (.flag true))]⟩

/-- With the image format the second version of `zlib` is the first clash, though `bzip2` clashes
too. Without it the pins of the first rule are left, and are listed by component. -/
theorem ofRules_union_or_first_clash_archives :
    ofRules archiveRules (archiveStates true) =
        .error (.pinConflict ⟨"zlib", "1.2"⟩ ⟨"zlib", "1.3"⟩) ∧
      Pin.FirstClash (required archiveRules (archiveStates true)) ⟨"zlib", "1.2"⟩ ⟨"zlib", "1.3"⟩ ∧
      ∃ set, ofRules archiveRules (archiveStates false) = .ok set ∧
        set.toList = [⟨"bzip2", "1.0"⟩, ⟨"zlib", "1.2"⟩] ∧
        ∀ pin, pin ∈ set.toList ↔ pin ∈ required archiveRules (archiveStates false) := by
  have known : ∀ png, ∀ rule ∈ archiveRules, rule.Known (archiveStates png) := by
    have listed : ∀ png, ∀ rule ∈ archiveRules, ∀ option ∈ rule.options,
        ((archiveStates png).get? option).isSome = true := by decide
    intro png rule mem option asked
    exact Option.isSome_iff_exists.1 (listed png rule mem option asked)
  have refused : ofRules archiveRules (archiveStates true) =
      .error (.pinConflict ⟨"zlib", "1.2"⟩ ⟨"zlib", "1.3"⟩) := rfl
  obtain ⟨success, -, clash⟩ := ofRules_union_or_first_clash (known true)
  have disagree : ¬ Pin.Agree (· ∈ required archiveRules (archiveStates true)) := by
    intro agree
    obtain ⟨set, made⟩ := success.2 agree
    cases refused.symm.trans made
  obtain ⟨first, second, reported, firstClash⟩ := clash disagree
  cases refused.symm.trans reported
  obtain ⟨set, made, listed⟩ : ∃ set, ofRules archiveRules (archiveStates false) = .ok set ∧
      set.toList = [⟨"bzip2", "1.0"⟩, ⟨"zlib", "1.2"⟩] := ⟨_, rfl, rfl⟩
  obtain ⟨-, contents, -⟩ := ofRules_union_or_first_clash (known false)
  exact ⟨refused, firstClash, set, made, listed, (contents set made).1⟩

end PinSet

/-- Two rules that apply pin one component to different versions. -/
def PinRules.Clash (rules : List PinRule) (config : Configuration) : Prop :=
  ∃ rule ∈ rules, ∃ other ∈ rules, rule.Applies config ∧ other.Applies config ∧
    ∃ first ∈ rule.pins, ∃ second ∈ other.pins,
      first.name = second.name ∧ first.version ≠ second.version

instance : Decidable (PinRules.Clash rules config) :=
  inferInstanceAs (Decidable (∃ rule ∈ rules, ∃ other ∈ rules,
    rule.Applies config ∧ other.Applies config ∧ ∃ first ∈ rule.pins, ∃ second ∈ other.pins,
      first.name = second.name ∧ first.version ≠ second.version))

theorem PinRules.clash_iff : PinRules.Clash rules config ↔
    ¬ Pin.Agree (· ∈ PinSet.required rules config) := by
  rw [Pin.not_agree_iff]
  simp only [PinSet.mem_required_iff]
  constructor
  · intro clash
    rcases clash with ⟨rule, mem, other, otherMem, applies, otherApplies, first, inRule, second,
      inOther, differ⟩
    exact ⟨first, second, ⟨rule, mem, applies, inRule⟩, ⟨other, otherMem, otherApplies, inOther⟩,
      differ⟩
  · intro differing
    rcases differing with ⟨first, second, ⟨rule, mem, applies, inRule⟩,
      ⟨other, otherMem, otherApplies, inOther⟩, differ⟩
    exact ⟨rule, mem, other, otherMem, applies, otherApplies, first, inRule, second, inOther,
      differ⟩

/-! ## Order -/

/-- Two rules ask for the same options and require the same pins, each in some order. -/
structure PinRule.Reordered (rule other : PinRule) : Prop where
  options_perm : rule.options.Perm other.options
  pins_perm : rule.pins.Perm other.pins

theorem PinRule.Reordered.applies_iff (reordered : rule.Reordered other) :
    rule.Applies config ↔ other.Applies config := by
  unfold PinRule.Applies
  simp only [reordered.options_perm.mem_iff]

/-- Two tables hold the same rules in some order, each of them reordered inside. -/
def PinRules.Reordered (rules others : List PinRule) : Prop :=
  ∃ between, rules.Perm between ∧ List.Forall₂ PinRule.Reordered between others

/-- Tables that differ in order only require the same pins. -/
theorem PinRules.Reordered.mem_required_iff (reordered : PinRules.Reordered rules others)
    (pin : Pin) : pin ∈ PinSet.required rules config ↔ pin ∈ PinSet.required others config := by
  obtain ⟨between, perm, each⟩ := reordered
  have shuffled : pin ∈ PinSet.required rules config ↔ pin ∈ PinSet.required between config := by
    simp only [PinSet.mem_required_iff, perm.mem_iff]
  rw [shuffled]
  clear perm shuffled
  induction each with
  | nil => rfl
  | @cons rule other rest others first _ ih =>
    simp only [PinSet.mem_required_iff, List.exists_mem_cons_iff] at ih ⊢
    refine or_congr ?_ ih
    rw [first.applies_iff, first.pins_perm.mem_iff]

end PackageConfig
