import PackageConfig.Proofs.Options.Catalog

/-!
What holds of a catalog after any sequence of declaring calls.

`Call` names the three ways to declare an option. A call is refused for one of three reasons, in
their order (`Refused`), and then changes nothing; or it appends one declaration, in the form in
which it is kept (`KeptAs`). That is one step (`step_offer`). A catalog made by steps is
`Consistent`: its list and its index agree, nothing in it is declared twice or refers forward,
and every default lies in its domain.
-/

namespace PackageConfig.Catalog

variable {c : Catalog} {d : Declaration}

/-! ## Calls -/

/-- A declaring call: of an option with all its parts, of a switch, or of a switch below a
parent. -/
inductive Call where
  | declare (name : String) (domain : Domain) (default : Value) (parent : Option String)
  | flag (name : String) (default : Bool)
  | childFlag (name : String) (default : Bool) (parent : String)
  deriving DecidableEq

/-- What a call declares. -/
def Call.declaration : Call → Declaration
  | declare name domain default parent => ⟨name, domain, default, parent⟩
  | flag name default => .flag name default
  | childFlag name default parent => .flag name default (some parent)

/-- The catalog after a sequence of calls, refused or not, on the empty one. -/
def afterCalls (calls : List Call) : Catalog :=
  ofCalls (calls.map Call.declaration)

theorem afterCalls_concat (calls : List Call) (call : Call) :
    afterCalls (calls ++ [call]) = (afterCalls calls).offer call.declaration := by
  simp only [afterCalls, ofCalls, List.map_append, List.foldl_append, List.map_cons, List.map_nil,
    List.foldl_cons, List.foldl_nil]

/-! ## One call -/

/-- The form in which a declaration is kept: as it was made, but a text for the default of a
switch is kept as the switch that it reads as. -/
inductive KeptAs (d : Declaration) : Declaration → Prop
  | made (plain : d.domain = .boolean → ∀ raw, d.default ≠ .text raw) : KeptAs d d
  | read {raw : String} {on : Bool} (boolean : d.domain = .boolean)
    (written : d.default = .text raw) (reads : Domain.boolean.parse? raw = some (.flag on)) :
    KeptAs d { d with default := .flag on }

theorem contains_boolean_iff {value : Value} :
    Domain.boolean.contains value = true ↔ ∃ on, value = .flag on := by
  cases value <;> simp [Domain.contains]

/-- A default is stored as it is, unless it is a text that reads as a switch where a switch is
declared. -/
theorem readDefault_cases (domain : Domain) (default : Value) :
    (readDefault domain default = default ∧
      (domain = .boolean → ∀ raw, default = .text raw → Domain.boolean.parse? raw = none)) ∨
    ∃ raw on, domain = .boolean ∧ default = .text raw ∧
      Domain.boolean.parse? raw = some (.flag on) ∧ readDefault domain default = .flag on := by
  cases domain with
  | enumeration members => exact .inl ⟨rfl, fun boolean => by cases boolean⟩
  | boolean =>
    cases default with
    | flag on => exact .inl ⟨rfl, fun _ raw same => by cases same⟩
    | text raw =>
      cases reads : Domain.boolean.parse? raw with
      | none =>
        refine .inl ⟨by simp only [readDefault, reads, Option.getD_none], fun _ other same => ?_⟩
        cases same
        exact reads
      | some value =>
        obtain ⟨on, rfl⟩ := contains_boolean_iff.1 (Domain.contains_of_parse? reads)
        exact .inr ⟨raw, on, rfl, rfl, reads, by simp only [readDefault, reads, Option.getD_some]⟩

theorem KeptAs.eq_readDefault {stored : Declaration} (kept : KeptAs d stored) :
    stored = { d with default := readDefault d.domain d.default } := by
  rcases readDefault_cases d.domain d.default with
    ⟨same, unread⟩ | ⟨raw, on, boolean, written, reads, same⟩
  · cases kept with
    | made _ => rw [same]
    | read boolean written reads =>
      rw [unread boolean _ written] at reads
      cases reads
  · cases kept with
    | made plain => exact absurd written (plain boolean raw)
    | read _ written' reads' =>
      cases written.symm.trans written'
      cases reads.symm.trans reads'
      rw [same]

/-- A default that is in the domain as it is stored is one that can be kept. -/
theorem keptAs_readDefault (inside : d.domain.contains (readDefault d.domain d.default) = true) :
    KeptAs d { d with default := readDefault d.domain d.default } := by
  rcases readDefault_cases d.domain d.default with
    ⟨same, -⟩ | ⟨raw, on, boolean, written, reads, same⟩
  · rw [same] at inside ⊢
    refine .made fun boolean raw written => ?_
    rw [boolean, written] at inside
    cases inside
  · rw [same]
    exact .read boolean written reads

theorem readDefault_of_outside
    (outside : d.domain.contains (readDefault d.domain d.default) = false) :
    readDefault d.domain d.default = d.default := by
  rcases readDefault_cases d.domain d.default with ⟨same, -⟩ | ⟨raw, on, boolean, -, -, same⟩
  · exact same
  · rw [same, boolean] at outside
    cases outside

/-- Why a declaration is refused: its name is taken; or its default cannot be kept as a value of
its domain; or its parent is not declared. The first reason that applies is the one that is
given. -/
inductive Refused (c : Catalog) (d : Declaration) : Fault → Prop
  | taken (known : ∃ old ∈ c.declarations, old.name = d.name) :
    Refused c d (.duplicateOption d.name)
  | outside (fresh : ∀ old ∈ c.declarations, old.name ≠ d.name)
    (unfit : ∀ stored, KeptAs d stored → d.domain.contains stored.default = false) :
    Refused c d (.outsideDomain d.name d.default.shown d.domain)
  | orphaned {parent : String} (fresh : ∀ old ∈ c.declarations, old.name ≠ d.name)
    (fit : ∃ stored, KeptAs d stored ∧ d.domain.contains stored.default = true)
    (stated : d.parent = some parent) (unknown : ∀ old ∈ c.declarations, old.name ≠ parent) :
    Refused c d (.unknownOption parent)

/-- What a call leaves behind: the same catalog if it is refused, or one with one more
declaration at the end. -/
inductive Step (c : Catalog) (d : Declaration) : Catalog → Prop
  | refused {fault : Fault} (stopped : c.declare d = .error fault) (reason : Refused c d fault) :
    Step c d c
  | accepted {stored : Declaration} {extended : Catalog} (passed : c.declare d = .ok extended)
    (fresh : ∀ old ∈ c.declarations, old.name ≠ d.name)
    (above : ∀ parent, d.parent = some parent → ∃ old ∈ c.declarations, old.name = parent)
    (kept : KeptAs d stored) (inside : stored.domain.contains stored.default = true)
    (appended : extended.declarations = c.declarations ++ [stored]) : Step c d extended

theorem WellFormed.not_declares_iff (wf : c.WellFormed) {name : String} :
    c.declares name = false ↔ ∀ old ∈ c.declarations, old.name ≠ name := by
  rw [← Bool.not_eq_true, wf.declares_iff]
  simp only [not_exists, not_and, ne_eq]

/-- A declaration that is not accepted is refused for the first of the three reasons. -/
theorem refused_of_declare (wf : c.WellFormed) {fault : Fault}
    (stopped : c.declare d = .error fault) : Refused c d fault := by
  unfold declare at stopped
  rcases Outcome.check_eq_error_iff.1 stopped with ⟨known, rfl⟩ | ⟨unknown, later⟩
  · exact .taken (wf.declares_iff.1 known)
  have fresh := wf.not_declares_iff.1 (Bool.not_eq_true _ ▸ unknown)
  rcases Outcome.check_eq_error_iff.1 later with ⟨outside, rfl⟩ | ⟨inside, later⟩
  · rw [Bool.not_eq_true'] at outside
    rw [readDefault_of_outside outside]
    refine .outside fresh fun stored kept => ?_
    rw [kept.eq_readDefault]
    exact outside
  have fit : d.domain.contains (readDefault d.domain d.default) = true := by simpa using inside
  cases stated : d.parent with
  | none =>
    simp only [stated] at later
    cases later
  | some parent =>
    simp only [stated] at later
    rcases Outcome.check_eq_error_iff.1 later with ⟨above, rfl⟩ | ⟨-, made⟩
    · rw [Bool.not_eq_true'] at above
      exact .orphaned fresh ⟨_, keptAs_readDefault fit, fit⟩ stated (wf.not_declares_iff.1 above)
    · cases made

/-- One call, whatever it declares. -/
theorem step_offer (wf : c.WellFormed) (d : Declaration) : Step c d (c.offer d) := by
  cases outcome : c.declare d with
  | error fault =>
    have kept : c.offer d = c := by rw [offer, outcome]
    rw [kept]
    exact .refused outcome (refused_of_declare wf outcome)
  | ok extended =>
    have made : c.offer d = extended := by rw [offer, outcome]
    obtain ⟨fresh, inside, above, appended⟩ := declare_eq_ok_iff.1 outcome
    rw [made]
    exact .accepted outcome (wf.not_declares_iff.1 fresh)
      (fun parent stated => wf.declares_iff.1 (above parent stated)) (keptAs_readDefault inside)
      inside (congrArg declarations appended)

/-! ## Every call -/

theorem WellFormed.names_nodup (wf : c.WellFormed) :
    (c.declarations.map Declaration.name).Nodup := by
  rw [List.Nodup, List.pairwise_map, List.pairwise_iff_getElem]
  intro i j insideI insideJ before same
  have first := (wf _ i).2 ⟨_, List.getElem?_eq_getElem insideI, rfl⟩
  have second := (wf _ j).2 ⟨_, List.getElem?_eq_getElem insideJ, rfl⟩
  rw [same, second] at first
  exact Nat.ne_of_gt before (Option.some.inj first)

/-- Every ancestor of an option is declared in front of it. -/
theorem HasAncestor.declared_before (front : c.ParentsInFront) {name ancestor : String}
    (above : c.HasAncestor name ancestor) :
    ∃ i j, c.positions.get? name = some i ∧ c.positions.get? ancestor = some j ∧ j < i := by
  have step : ∀ {name parent : String}, c.parent? name = some parent →
      ∃ i j, c.positions.get? name = some i ∧ c.positions.get? parent = some j ∧ j < i := by
    intro name parent stated
    obtain ⟨d, found, stated⟩ := Option.bind_eq_some_iff.1 stated
    obtain ⟨i, listed, atPosition⟩ := Option.bind_eq_some_iff.1 found
    obtain ⟨j, before, listedParent⟩ := front i d parent atPosition stated
    exact ⟨i, j, listed, listedParent, before⟩
  -- The chain is walked upwards; its lower end stays where the option itself is declared.
  induction above with
  | single stated => exact step stated
  | tail _ stated ih =>
    obtain ⟨i, j, listed, listedMiddle, before⟩ := ih
    obtain ⟨j', k, listedMiddle', listedLast, before'⟩ := step stated
    cases listedMiddle.symm.trans listedMiddle'
    exact ⟨i, k, listed, listedLast, Nat.lt_trans before' before⟩

/-- The list of declarations and the index agree, and the list is in order: no name is declared
twice, a parent stands in front of its children, so that no option is its own ancestor, and every
default lies in its domain, that of a switch being on or off. -/
structure Consistent (c : Catalog) : Prop where
  names_nodup : (c.declarations.map Declaration.name).Nodup
  position_iff : ∀ name position, c.positions.get? name = some position ↔
    ∃ d, c.declarations[position]? = some d ∧ d.name = name
  find_iff : ∀ name d, c.find? name = some d ↔ d ∈ c.declarations ∧ d.name = name
  parent_before : ∀ (position : Nat) (d : Declaration) (parent : String),
    c.declarations[position]? = some d → d.parent = some parent →
      ∃ above < position, ∃ p, c.declarations[above]? = some p ∧ p.name = parent
  not_own_ancestor : ∀ name, ¬ c.HasAncestor name name
  default_fits : ∀ d ∈ c.declarations, d.domain.contains d.default = true
  switch_default : ∀ d ∈ c.declarations, d.domain = .boolean → ∃ on, d.default = .flag on

theorem WellFormed.consistent (wf : c.WellFormed) (front : c.ParentsInFront)
    (fit : c.DefaultsFit) : c.Consistent where
  names_nodup := wf.names_nodup
  position_iff := wf
  find_iff _ _ := wf.find?_eq_some_iff
  parent_before position d parent atPosition stated := by
    obtain ⟨above, before, listed⟩ := front position d parent atPosition stated
    exact ⟨above, before, (wf parent above).1 listed⟩
  not_own_ancestor name cycle := by
    obtain ⟨i, j, listed, listed', before⟩ := cycle.declared_before front
    cases listed.symm.trans listed'
    exact Nat.lt_irrefl i before
  default_fits := fit
  switch_default d mem boolean := by
    have inside := fit d mem
    rw [boolean] at inside
    exact contains_boolean_iff.1 inside

/-- After any sequence of declaring calls, of which some may have failed, the catalog is
consistent; and one more call either is refused, for the first reason that there is, and changes
nothing, or appends one declaration, in the form in which it is kept. -/
theorem declaring_consistent (calls : List Call) :
    (afterCalls calls).Consistent ∧
      ∀ call, Step (afterCalls calls) call.declaration (afterCalls (calls ++ [call])) := by
  have wf : (afterCalls calls).WellFormed := wellFormed_ofCalls _
  refine ⟨wf.consistent (parentsInFront_ofCalls _) (defaultsFit_ofCalls _), fun call => ?_⟩
  rw [afterCalls_concat]
  exact step_offer wf call.declaration

/-- A second declaration, a default outside its domain, and a parent that comes too late. -/
example :
    (afterCalls [.flag "gui" true, .flag "gui" false, .childFlag "glfw" true "sdl2",
      .declare "api" (.enumeration ["gl"]) (.text "dx12") none,
      .childFlag "sdl2" true "gui"]).declarations =
    [.flag "gui" true, .flag "sdl2" true (some "gui")] := by
  decide

end PackageConfig.Catalog
