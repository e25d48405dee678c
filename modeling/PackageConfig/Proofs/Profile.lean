import PackageConfig.Profile
import PackageConfig.Proofs.Options.Start
import PackageConfig.Proofs.Recipe.Validity
import PackageConfig.Proofs.Text.Trimming

/-!
What a request says, as an argument and as a text in a profile.

The two are read by different functions. An argument is cut at its first `=`, loses the blanks
around both parts, and is read under the domain of its option at once (`startOf_argument`). A
text in a profile is kept as it is written until the request is laid over the defaults, where a
boolean option reads it and an enumerated one compares it (`startOf_profile`). So the two agree on
every text for a boolean option, and for an enumerated one up to the blanks at the ends, which
only the argument loses (`Domain.parse?_eq_taken?_iff`).
-/

namespace PackageConfig

/-! ## Two ways to read a text -/

namespace Domain

variable {d : Domain} {raw : String}

@[simp]
theorem parse?_trim (d : Domain) (raw : String) : d.parse? (Text.trim raw) = d.parse? raw := by
  unfold parse?
  rw [Text.trim_trim]

/-- A text is read as the value that it is taken for, or it is neither read nor taken: by a switch
always, and by an enumeration where blanks at its ends do not decide whether it is a member. -/
theorem parse?_eq_taken?_iff : d.parse? raw = d.taken? (.text raw) ↔
    d = .boolean ∨ Text.trim raw = raw ∨
      (d.contains (.text raw) = false ∧ d.contains (.text (Text.trim raw)) = false) := by
  cases d with
  | boolean => exact iff_of_true rfl (.inl rfl)
  | enumeration members =>
    have read : parse? (.enumeration members) raw =
        if members.contains (Text.trim raw) then some (.text (Text.trim raw)) else none := rfl
    have taken : taken? (.enumeration members) (.text raw) =
        if members.contains raw then some (.text raw) else none := rfl
    have member : ∀ s, contains (.enumeration members) (.text s) = members.contains s :=
      fun s => rfl
    rw [read, taken, member, member]
    by_cases clean : Text.trim raw = raw
    · rw [clean]
      exact iff_of_true rfl (.inr (.inl rfl))
    · cases members.contains (Text.trim raw) <;> cases members.contains raw <;> simp [clean]

end Domain

/-! ## Requests -/

theorem splitArgument_append {option raw : String} (named : option ≠ "")
    (unmarked : '=' ∉ option.toList) (trimmed : Text.trim option = option) :
    splitArgument (option ++ "=" ++ raw) = .ok (option, Text.trim raw) := by
  have parts : Text.cut '=' (option ++ "=" ++ raw) = some (option, raw) :=
    Text.cut_eq_some_iff.2 ⟨by simp, unmarked⟩
  unfold splitArgument
  rw [parts]
  simp only [trimmed, if_neg named]

namespace Recipe

variable {recipe : Recipe} {option raw : String} {d : Declaration} {start : Configuration}

/-- The configuration that a resolution for a profile and arguments starts from. -/
def startOf (recipe : Recipe) (profile : Option Profile) (arguments : List String) :
    Except Fault Configuration := do
  let request ← recipe.request profile arguments
  recipe.catalog.start request

/-- An argument is read under the domain of its option. -/
theorem startOf_argument (declared : recipe.catalog.find? option = some d) (named : option ≠ "")
    (unmarked : '=' ∉ option.toList) (trimmed : Text.trim option = option) :
    recipe.startOf none [option ++ "=" ++ raw] = .ok start ↔
      (d.domain.parse? raw).map (recipe.catalog.defaultsBut option) = some start := by
  have request : recipe.request none [option ++ "=" ++ raw] =
      (recipe.catalog.read option (Text.trim raw)).map fun value => .ofList [(option, value)] := by
    unfold request readArgument
    simp only [List.mapM_cons, List.mapM_nil, splitArgument_append named unmarked trimmed, bind,
      Except.bind]
    cases recipe.catalog.read option (Text.trim raw) <;> rfl
  unfold startOf
  rw [request, Catalog.read_of_find? declared, Domain.parse?_trim]
  cases parsed : d.domain.parse? raw with
  | none => simp [bind, Except.bind, Except.map]
  | some value =>
    simp only [Option.elim, Except.map, bind, Except.bind, Option.map_some, Option.some.injEq]
    rw [Catalog.start_single, Catalog.accept_of_find? declared, Domain.taken?_of_parse? parsed]
    simp [Except.map]

/-- A text in a profile is taken by the domain of its option. -/
theorem startOf_profile (declared : recipe.catalog.find? option = some d)
    (settings : PlatformNames) :
    recipe.startOf (some ⟨settings, .ofList [(option, .text raw)]⟩) [] = .ok start ↔
      (d.domain.taken? (.text raw)).map (recipe.catalog.defaultsBut option) = some start := by
  have request : recipe.startOf (some ⟨settings, .ofList [(option, .text raw)]⟩) [] =
      recipe.catalog.start (.ofList [(option, .text raw)]) := rfl
  rw [request, Catalog.start_single, Catalog.accept_of_find? declared]
  cases d.domain.taken? (.text raw) <;> simp [Except.map]

/-- A text for one option starts a resolution from the same configuration, or from none both
times, whether the only argument says it or a profile without other options. -/
def ReadsAlike (recipe : Recipe) (option raw : String) : Prop :=
  ∀ settings start, recipe.startOf none [option ++ "=" ++ raw] = .ok start ↔
    recipe.startOf (some ⟨settings, .ofList [(option, .text raw)]⟩) [] = .ok start

/-- For a boolean option an argument and a profile mean the same by every text. For an enumerated
one they do exactly where the text has no blanks at its ends, or neither it nor what is left without
them is a member. -/
theorem readsAlike_iff (declared : recipe.catalog.find? option = some d) (named : option ≠ "")
    (unmarked : '=' ∉ option.toList) (trimmed : Text.trim option = option) :
    recipe.ReadsAlike option raw ↔
      d.domain = .boolean ∨ Text.trim raw = raw ∨
        (d.domain.contains (.text raw) = false ∧
          d.domain.contains (.text (Text.trim raw)) = false) := by
  have injective := Option.map_injective (recipe.catalog.defaultsBut_injective option)
  have agree : recipe.ReadsAlike option raw ↔
      (d.domain.parse? raw).map (recipe.catalog.defaultsBut option) =
        (d.domain.taken? (.text raw)).map (recipe.catalog.defaultsBut option) := by
    unfold ReadsAlike
    simp only [startOf_argument declared named unmarked trimmed, startOf_profile declared,
      forall_const]
    exact Option.ext_iff.symm
  rw [agree, injective.eq_iff, Domain.parse?_eq_taken?_iff]

/-- A recipe with an enumerated option, a boolean one, and one without a name. -/
def rendering : Recipe where
  catalog := .ofCalls [.flag "shared" false,
    ⟨"renderer", .enumeration ["gl", "vulkan"], .text "gl", none⟩, .flag "" false]
  pruneRules := .empty
  pinRules := []
  variableRules := ⟨"", []⟩
  linkageOption := "shared"

theorem rendering_valid : rendering.Valid :=
  .of_check rfl rfl

/-- Blanks make no difference to a boolean option, nor to an enumerated one where they stand
around what is no member. -/
theorem readsAlike_rendering :
    rendering.ReadsAlike "shared" " True " ∧ rendering.ReadsAlike "renderer" "vulkan" ∧
      rendering.ReadsAlike "renderer" " metal " := by
  refine ⟨?_, ?_, ?_⟩
  · exact (readsAlike_iff (d := .flag "shared" false) rfl (by decide) (by decide)
      (by decide)).2 (.inl rfl)
  · exact (readsAlike_iff (d := ⟨"renderer", .enumeration ["gl", "vulkan"], .text "gl", none⟩) rfl
      (by decide) (by decide) (by decide)).2 (.inr (.inl (by decide)))
  · exact (readsAlike_iff (d := ⟨"renderer", .enumeration ["gl", "vulkan"], .text "gl", none⟩) rfl
      (by decide) (by decide) (by decide)).2 (.inr (.inr (by decide)))

/-- An argument names a member with blanks around it, which a profile may not; and a profile gives
a value to an option without a name, which an argument cannot. -/
theorem not_readsAlike_rendering :
    rendering.Valid ∧ rendering.catalog.declares "renderer" = true ∧
      rendering.catalog.declares "" = true ∧
      ¬ rendering.ReadsAlike "renderer" " vulkan " ∧ ¬ rendering.ReadsAlike "" "true" := by
  refine ⟨rendering_valid, rfl, rfl, fun alike => ?_, fun alike => ?_⟩
  · have read : rendering.startOf none ["renderer= vulkan "] =
        .ok (rendering.catalog.defaultsBut "renderer" (.text "vulkan")) := rfl
    have compared : rendering.startOf
        (some ⟨{}, .ofList [("renderer", .text " vulkan ")]⟩) [] =
          .error (.outsideDomain "renderer" " vulkan " (.enumeration ["gl", "vulkan"])) := rfl
    have both := (alike {} _).1 read
    rw [compared] at both
    cases both
  · have refused : rendering.startOf none ["=true"] =
        .error (.invalidManifest (.malformedRequest "=true")) := rfl
    have switched : Domain.boolean.taken? (.text "true") = some (.flag true) := by decide +kernel
    have taken : rendering.startOf (some ⟨{}, .ofList [("", .text "true")]⟩) [] =
        .ok (rendering.catalog.defaultsBut "" (.flag true)) :=
      (startOf_profile (d := .flag "" false) rfl {}).2 (congrArg (Option.map _) switched)
    have both := (alike {} _).2 taken
    cases refused.symm.trans both

end Recipe

end PackageConfig
