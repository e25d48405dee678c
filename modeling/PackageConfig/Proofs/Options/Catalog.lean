import PackageConfig.Options.Catalog
import PackageConfig.Proofs.Outcome
import Mathlib.Logic.Relation

/-!
Catalogs built by declaring options one after another.

`offer` is one call to `declare` as its caller sees it: a declaration that is refused
leaves the catalog as it was. `ofCalls` is any sequence of such calls. What every
catalog so built satisfies is kept by one accepted declaration and so by all of them
(`ofCalls_induction`): the index is in step with the list (`WellFormed`), so that a look-up
finds exactly the declarations of the list, every default lies in its domain
(`DefaultsFit`), and a parent stands in front of its children (`ParentsInFront`).
-/

namespace PackageConfig

namespace Catalog

/-! ## Sequences of declarations -/

/-- The catalog after a call to `declare`, refused or not. -/
def offer (c : Catalog) (d : Declaration) : Catalog :=
  match c.declare d with
  | .ok extended => extended
  | .error _ => c

/-- The catalog after a sequence of calls to `declare` on the empty one. -/
def ofCalls (calls : List Declaration) : Catalog :=
  calls.foldl offer empty

/-- What a declaration has to satisfy to be accepted, and what it then adds. -/
theorem declare_eq_ok_iff {c extended : Catalog} {d : Declaration} :
    c.declare d = .ok extended ↔
      c.declares d.name = false ∧
      d.domain.contains (readDefault d.domain d.default) = true ∧
      (∀ parent, d.parent = some parent → c.declares parent = true) ∧
      extended = ⟨c.declarations ++ [{ d with default := readDefault d.domain d.default }],
        c.positions.insert d.name c.declarations.length⟩ := by
  obtain ⟨name, domain, default, parent⟩ := d
  rw [@eq_comm _ extended]
  cases known : c.declares name with
  | true => simp [declare, known, bind, Except.bind, throw, throwThe, MonadExceptOf.throw]
  | false =>
    cases inside : domain.contains (readDefault domain default) with
    | false =>
      simp [declare, known, inside, bind, Except.bind, throw, throwThe, MonadExceptOf.throw]
    | true =>
      cases parent with
      | none => simp [declare, known, inside, pure, Except.pure]
      | some parent =>
        cases above : c.declares parent with
        | false =>
          simp [declare, known, inside, above, bind, Except.bind, throw, throwThe,
            MonadExceptOf.throw]
        | true => simp [declare, known, inside, above, pure, Except.pure]

/-- What holds of the empty catalog and is kept by every accepted declaration holds of every
catalog that is built by declaring: a refused one changes nothing. -/
theorem ofCalls_induction {P : Catalog → Prop} (start : P empty)
    (step : ∀ {c extended : Catalog} {d : Declaration}, P c → c.declare d = .ok extended →
      P extended) (calls : List Declaration) : P (ofCalls calls) := by
  have run : ∀ c : Catalog, P c → P (calls.foldl offer c) := by
    induction calls with
    | nil => exact fun c holds => holds
    | cons d rest ih =>
      intro c holds
      refine ih (c.offer d) ?_
      unfold offer
      split
      next accepted => exact step holds accepted
      · exact holds
  exact run empty start

/-! ## The index -/

/-- The index sends a name to a position exactly when the declaration there has
that name. -/
def WellFormed (c : Catalog) : Prop :=
  ∀ name position, c.positions.get? name = some position ↔
    ∃ d, c.declarations[position]? = some d ∧ d.name = name

theorem wellFormed_empty : WellFormed empty := by
  intro name position
  simp [empty]

theorem WellFormed.declares_iff {c : Catalog} (wf : c.WellFormed) {name : String} :
    c.declares name = true ↔ ∃ d ∈ c.declarations, d.name = name := by
  unfold declares NameMap.contains
  rw [Option.isSome_iff_exists]
  constructor
  · intro listed
    rcases listed with ⟨position, found⟩
    obtain ⟨d, atPosition, called⟩ := (wf name position).1 found
    exact ⟨d, List.mem_of_getElem? atPosition, called⟩
  · intro declared
    rcases declared with ⟨d, mem, called⟩
    obtain ⟨position, atPosition⟩ := List.mem_iff_getElem?.1 mem
    exact ⟨position, (wf name position).2 ⟨d, atPosition, called⟩⟩

theorem getElem?_concat_eq_some_iff {α : Type} {items : List α} {last item : α} {position : Nat} :
    (items ++ [last])[position]? = some item ↔
      items[position]? = some item ∨ position = items.length ∧ item = last := by
  rw [List.getElem?_append]
  split
  next inside => simp [Nat.ne_of_lt inside]
  next outside =>
    have none : items[position]? = none := List.getElem?_eq_none (Nat.not_lt.1 outside)
    rw [none, List.getElem?_singleton]
    have same : position - items.length = 0 ↔ position = items.length := by omega
    simp [same, eq_comm]

/-- An accepted declaration keeps the index in step with the list. -/
theorem wellFormed_declare {c extended : Catalog} {d : Declaration} (wf : c.WellFormed)
    (accepted : c.declare d = .ok extended) : extended.WellFormed := by
  obtain ⟨fresh, -, -, rfl⟩ := declare_eq_ok_iff.1 accepted
  have unused : ∀ old ∈ c.declarations, old.name ≠ d.name := by
    intro old mem same
    have known := wf.declares_iff.2 ⟨old, mem, same⟩
    rw [fresh] at known
    cases known
  intro name position
  rw [NameMap.get?_insert]
  split
  next same =>
    subst same
    constructor
    · intro appended
      cases appended
      exact ⟨_, getElem?_concat_eq_some_iff.2 (.inr ⟨rfl, rfl⟩), rfl⟩
    · intro declared
      rcases declared with ⟨found, atPosition, called⟩
      rcases getElem?_concat_eq_some_iff.1 atPosition with old | ⟨atEnd, -⟩
      · exact absurd called (unused found (List.mem_of_getElem? old))
      · rw [atEnd]
  next other =>
    rw [wf name position]
    constructor
    · intro declared
      rcases declared with ⟨found, atPosition, called⟩
      exact ⟨found, getElem?_concat_eq_some_iff.2 (.inl atPosition), called⟩
    · intro declared
      rcases declared with ⟨found, atPosition, called⟩
      rcases getElem?_concat_eq_some_iff.1 atPosition with old | ⟨-, rfl⟩
      · exact ⟨found, old, called⟩
      · exact absurd called other

/-- Every catalog that is built by declaring is well formed. -/
theorem wellFormed_ofCalls (calls : List Declaration) : (ofCalls calls).WellFormed :=
  ofCalls_induction wellFormed_empty wellFormed_declare calls

/-- A look-up finds exactly the declarations of the list. -/
theorem WellFormed.find?_eq_some_iff {c : Catalog} (wf : c.WellFormed) {name : String}
    {d : Declaration} : c.find? name = some d ↔ d ∈ c.declarations ∧ d.name = name := by
  unfold find?
  rw [Option.bind_eq_some_iff]
  constructor
  · intro found
    rcases found with ⟨position, found, atPosition⟩
    obtain ⟨other, same, called⟩ := (wf name position).1 found
    rw [atPosition] at same
    cases same
    exact ⟨List.mem_of_getElem? atPosition, called⟩
  · intro declared
    rcases declared with ⟨mem, called⟩
    obtain ⟨position, atPosition⟩ := List.mem_iff_getElem?.1 mem
    exact ⟨position, (wf name position).2 ⟨d, atPosition, called⟩, atPosition⟩

theorem WellFormed.find?_eq_none_iff {c : Catalog} (wf : c.WellFormed) {name : String} :
    c.find? name = none ↔ ∀ d ∈ c.declarations, d.name ≠ name := by
  rw [Option.eq_none_iff_forall_ne_some]
  simp only [ne_eq, wf.find?_eq_some_iff, not_and]

/-- Well formed catalogs with the same declarations answer every look-up alike, in whatever
order the declarations were made. -/
theorem WellFormed.find?_of_perm {c other : Catalog} (wf : c.WellFormed)
    (otherWf : other.WellFormed) (perm : c.declarations.Perm other.declarations) :
    c.find? = other.find? := by
  funext name
  refine Option.ext fun d => ?_
  rw [wf.find?_eq_some_iff, otherWf.find?_eq_some_iff, perm.mem_iff]

/-! ## Declared options and their domains -/

theorem WellFormed.exists_find?_iff {c : Catalog} (wf : c.WellFormed) {name : String} :
    (∃ d, c.find? name = some d) ↔ c.declares name = true := by
  rw [wf.declares_iff]
  simp only [wf.find?_eq_some_iff]

theorem require_eq_ok_iff {c : Catalog} {name : String} {d : Declaration} :
    c.require name = .ok d ↔ c.find? name = some d := by
  unfold require
  cases c.find? name <;> simp

theorem WellFormed.exists_require_iff {c : Catalog} (wf : c.WellFormed) {name : String} :
    (∃ d, c.require name = .ok d) ↔ c.declares name = true := by
  simp only [require_eq_ok_iff, wf.exists_find?_iff]

/-- An option is declared, and a value lies in its domain. -/
def Admits (c : Catalog) (name : String) (value : Value) : Prop :=
  ∃ d, c.find? name = some d ∧ d.domain.contains value = true

theorem check_eq_ok_iff {c : Catalog} {name : String} {value : Value} :
    c.check name value = .ok () ↔ c.Admits name value := by
  unfold check Admits
  rw [Outcome.bind_eq_ok_iff]
  refine exists_congr fun d => and_congr require_eq_ok_iff ?_
  cases inside : d.domain.contains value <;>
    simp [pure, Except.pure, throw, throwThe, MonadExceptOf.throw]

/-- Every default lies in the domain of its option. -/
def DefaultsFit (c : Catalog) : Prop :=
  ∀ d ∈ c.declarations, d.domain.contains d.default = true

theorem defaultsFit_declare {c extended : Catalog} {d : Declaration} (fit : c.DefaultsFit)
    (accepted : c.declare d = .ok extended) : extended.DefaultsFit := by
  obtain ⟨-, inside, -, rfl⟩ := declare_eq_ok_iff.1 accepted
  intro found mem
  rcases List.mem_append.1 mem with old | new
  · exact fit found old
  · cases List.mem_singleton.1 new
    exact inside

theorem defaultsFit_ofCalls (calls : List Declaration) : (ofCalls calls).DefaultsFit :=
  ofCalls_induction (fun _ mem => absurd mem List.not_mem_nil) defaultsFit_declare calls

/-! ## Parents and ancestors -/

/-- The parent that the declaration of an option states, if it states one. -/
def parent? (c : Catalog) (name : String) : Option String :=
  (c.find? name).bind Declaration.parent

/-- Catalogs that answer every look-up alike state the same parents. -/
theorem parent?_congr {c other : Catalog} (same : c.find? = other.find?) :
    c.parent? = other.parent? := by
  funext name
  unfold parent?
  rw [same]

/-- The second option stands above the first, at any distance, in the declared chain
of parents. -/
def HasAncestor (c : Catalog) : String → String → Prop :=
  Relation.TransGen fun name parent => c.parent? name = some parent

theorem WellFormed.parent?_eq_some_iff {c : Catalog} (wf : c.WellFormed) {name parent : String} :
    c.parent? name = some parent ↔
      ∃ d ∈ c.declarations, d.name = name ∧ d.parent = some parent := by
  unfold parent?
  rw [Option.bind_eq_some_iff]
  constructor
  · intro parent
    rcases parent with ⟨d, found, stated⟩
    obtain ⟨mem, called⟩ := wf.find?_eq_some_iff.1 found
    exact ⟨d, mem, called, stated⟩
  · intro parent
    rcases parent with ⟨d, mem, called, stated⟩
    exact ⟨d, wf.find?_eq_some_iff.2 ⟨mem, called⟩, stated⟩

/-- The parent of a declaration is declared in front of it. -/
def ParentsInFront (c : Catalog) : Prop :=
  ∀ position d parent, c.declarations[position]? = some d → d.parent = some parent →
    ∃ above < position, c.positions.get? parent = some above

theorem parentsInFront_declare {c extended : Catalog} {d : Declaration} (wf : c.WellFormed)
    (front : c.ParentsInFront) (accepted : c.declare d = .ok extended) :
    extended.ParentsInFront := by
  obtain ⟨fresh, -, declared, rfl⟩ := declare_eq_ok_iff.1 accepted
  intro position found parent atPosition stated
  have before : ∃ above < position, c.positions.get? parent = some above := by
    rcases getElem?_concat_eq_some_iff.1 atPosition with old | ⟨rfl, rfl⟩
    · exact front position found parent old stated
    · obtain ⟨above, listed⟩ := Option.isSome_iff_exists.1 (declared parent stated)
      obtain ⟨other, atAbove, -⟩ := (wf parent above).1 listed
      exact ⟨above, (List.getElem?_eq_some_iff.1 atAbove).1, listed⟩
  obtain ⟨above, inFront, listed⟩ := before
  have other : d.name ≠ parent := by
    intro same
    have known : c.declares parent = true := Option.isSome_of_eq_some listed
    rw [← same, fresh] at known
    cases known
  exact ⟨above, inFront, by rw [NameMap.get?_insert, if_neg other, listed]⟩

theorem parentsInFront_ofCalls (calls : List Declaration) : (ofCalls calls).ParentsInFront := by
  have both : (ofCalls calls).WellFormed ∧ (ofCalls calls).ParentsInFront := by
    refine ofCalls_induction (P := fun c => c.WellFormed ∧ c.ParentsInFront) ?_ ?_ calls
    · exact ⟨wellFormed_empty, fun position d parent atPosition => by cases atPosition⟩
    · intro c extended d kept accepted
      exact ⟨wellFormed_declare kept.1 accepted, parentsInFront_declare kept.1 kept.2 accepted⟩
  exact both.2

/-- A parent is itself declared. -/
theorem ParentsInFront.declares {c : Catalog} {name parent : String} (front : c.ParentsInFront)
    (stated : c.parent? name = some parent) : c.declares parent = true := by
  obtain ⟨d, found, stated⟩ := Option.bind_eq_some_iff.1 stated
  obtain ⟨position, -, atPosition⟩ := Option.bind_eq_some_iff.1 found
  obtain ⟨above, -, listed⟩ := front position d parent atPosition stated
  exact Option.isSome_of_eq_some listed

theorem HasAncestor.of_parent {c : Catalog} {name parent : String}
    (stated : c.parent? name = some parent) : c.HasAncestor name parent :=
  .single stated

/-- An option without parent has no ancestor. -/
theorem not_hasAncestor {c : Catalog} {name ancestor : String} (top : c.parent? name = none) :
    ¬ c.HasAncestor name ancestor := by
  intro above
  obtain ⟨parent, stated, -⟩ := Relation.TransGen.head'_iff.1 above
  rw [top] at stated
  cases stated

theorem HasAncestor.above_parent {c : Catalog} {name parent ancestor : String}
    (stated : c.parent? name = some parent) (above : c.HasAncestor parent ancestor) :
    c.HasAncestor name ancestor :=
  .head stated above

end Catalog

end PackageConfig
