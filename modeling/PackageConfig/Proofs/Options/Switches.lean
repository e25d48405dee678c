import PackageConfig.Proofs.Options.Start

/-!
Catalogs of switches.

Where every option is a switch, a requested value is accepted exactly when it says on or off
(`Value.switch?`), and what a resolution starts from is one bit for each option: what the request
says of it, or its default (`wanted`, `Switches.get?_start`).
-/

namespace PackageConfig

/-- What a value says of a switch: a flag says itself, and a text the word that is left of it
without the blanks at its ends, in any letter case. -/
def Value.switch? : Value → Option Bool
  | .flag on => some on
  | .text raw =>
    if Text.sameWord (Text.trim raw) "true" then some true
    else if Text.sameWord (Text.trim raw) "false" then some false
    else none

theorem Domain.taken?_boolean (given : Value) :
    Domain.boolean.taken? given = given.switch?.map .flag := by
  cases given with
  | flag on => rfl
  | text raw =>
    change boolean.parse? raw = _
    simp only [parse?, Value.switch?]
    split
    · rfl
    · split <;> rfl

namespace Catalog

variable {c : Catalog} {start : Configuration} {request : Request} {name : String}
  {given value : Value}

/-- Every option is a switch. -/
def Switches (c : Catalog) : Prop :=
  ∀ d ∈ c.declarations, d.domain = .boolean

/-- Whether a switch is asked to be on, or is on by default where the request does not say. -/
def wanted (c : Catalog) (request : Request) (name : String) : Bool :=
  match request.get? name with
  | some given => given.switch? == some true
  | none => (c.find? name).any fun d => d.default.enabled

namespace Switches

theorem accept_eq_ok_iff (switches : c.Switches) (wf : c.WellFormed) :
    c.accept name given = .ok value ↔
      c.declares name = true ∧ given.switch?.map .flag = some value := by
  cases found : c.find? name with
  | none =>
    have undeclared : ¬c.declares name = true := by
      rw [← wf.exists_find?_iff, found]
      rintro ⟨d, ⟨⟩⟩
    refine iff_of_false (fun accepted => undeclared ?_) fun both => undeclared both.1
    exact wf.declares_of_admits (admits_of_accept accepted)
  | some d =>
    have declared : c.declares name = true := wf.exists_find?_iff.1 ⟨d, found⟩
    rw [accept_of_find? found, switches d (wf.find?_eq_some_iff.1 found).1,
      Domain.taken?_boolean]
    cases given.switch? <;> simp [declared]

/-- A request is accepted exactly when it names only declared options and says of each on or
off. -/
theorem exists_start_iff (switches : c.Switches) (wf : c.WellFormed) :
    (∃ start, c.start request = .ok start) ↔
      ∀ name given, request.get? name = some given →
        c.declares name = true ∧ given.switch?.isSome = true := by
  rw [Catalog.exists_start_iff]
  refine forall₂_congr fun name given => imp_congr_right fun _ => ?_
  simp only [switches.accept_eq_ok_iff wf, exists_and_left]
  cases given.switch? <;> simp

/-- At the start every option is present, and on exactly when it is wanted. -/
theorem get?_start (switches : c.Switches) (wf : c.WellFormed) (fit : c.DefaultsFit)
    (accepted : c.start request = .ok start) (declared : c.declares name = true) :
    start.get? name = some (.present (.flag (c.wanted request name))) := by
  have laid := Catalog.get?_start accepted name
  unfold wanted
  cases asked : request.get? name with
  | some given =>
    rw [asked] at laid
    obtain ⟨value, taken, held⟩ := laid
    obtain ⟨-, said⟩ := (switches.accept_eq_ok_iff wf).1 taken
    obtain ⟨on, meant, rfl⟩ := Option.map_eq_some_iff.1 said
    simp [held, meant]
  | none =>
    rw [asked] at laid
    obtain ⟨d, found⟩ := wf.exists_find?_iff.2 declared
    have mem := (wf.find?_eq_some_iff.1 found).1
    have inside := fit d mem
    rw [switches d mem] at inside
    rw [laid, wf.get?_defaults, found]
    cases default : d.default with
    | flag on => simp [default, Value.enabled]
    | text s =>
      rw [default] at inside
      cases inside

end Switches

end Catalog

end PackageConfig
