import PackageConfig.Pin.Set
import PackageConfig.Proofs.Outcome
import Mathlib.Data.List.Induction

/-!
Sets of pins as sets.

A set has a pin when it holds it under the name of its component (`Has`), and two sets that
have the same pins are the same (`ext_has`). Adding pins adds exactly them, as long as they
agree with each other and with the set on every component; where they do not, some two of
them conflict (`insertAll_cases`). So neither the order of the pins nor how often one is
added matters for what the set has in the end. It matters for which conflict is reported: the
first pin that disagrees with one before it, and the earliest pin of its component
(`Pin.FirstClash`, `insertAll_empty_clash_cases`).
-/

namespace PackageConfig

/-- Of some pins, no two pin one component to two versions. -/
def Pin.Agree (among : Pin → Prop) : Prop :=
  ∀ first second, among first → among second → first.name = second.name → first = second

theorem Pin.eq_of_parts {first second : Pin} (names : first.name = second.name)
    (versions : first.version = second.version) : first = second := by
  cases first
  cases second
  cases names
  cases versions
  rfl

/-- Pins fail to agree when two of them pin one component to different versions. -/
theorem Pin.not_agree_iff {among : Pin → Prop} :
    ¬ Pin.Agree among ↔ ∃ first second, among first ∧ among second ∧
      first.name = second.name ∧ first.version ≠ second.version := by
  constructor
  · intro disagree
    refine Classical.byContradiction fun none => disagree ?_
    intro first second left right names
    refine Classical.byContradiction fun differ => none ?_
    exact ⟨first, second, left, right, names, fun versions => differ (eq_of_parts names versions)⟩
  · intro clash agree
    rcases clash with ⟨first, second, left, right, names, differ⟩
    exact differ (congrArg Pin.version (agree first second left right names))

/-- Going through a list of pins, `second` is the first that disagrees with an earlier pin of its
component, and `first` is the earliest pin of that component. -/
structure Pin.FirstClash (pins : List Pin) (first second : Pin) : Prop where
  exists_split : ∃ front back, pins = front ++ second :: back ∧ Pin.Agree (· ∈ front) ∧
    ∃ earlier ∈ front, earlier.name = second.name ∧ earlier.version ≠ second.version
  earliest : pins.find? (fun pin => pin.name == second.name) = some first

/-- Among pins that agree, a pin is the earliest of its component. -/
theorem Pin.find?_of_agree {pins : List Pin} {pin : Pin} (agree : Pin.Agree (· ∈ pins))
    (mem : pin ∈ pins) : pins.find? (fun other => other.name == pin.name) = some pin := by
  cases earliest : pins.find? fun other => other.name == pin.name with
  | none =>
    have unnamed := List.find?_eq_none.1 earliest pin mem
    exact absurd (beq_self_eq_true pin.name) unnamed
  | some found =>
    have named := List.find?_some earliest
    rw [beq_iff_eq] at named
    rw [agree found pin (List.mem_of_find?_eq_some earliest) mem named]

/-- What comes behind a clash plays no part. -/
theorem Pin.FirstClash.append {pins : List Pin} {first second : Pin}
    (clash : Pin.FirstClash pins first second) (behind : List Pin) :
    Pin.FirstClash (pins ++ behind) first second := by
  obtain ⟨⟨front, back, rfl, agree, disagrees⟩, earliest⟩ := clash
  refine ⟨⟨front, back ++ behind, by simp, agree, disagrees⟩, ?_⟩
  rw [List.find?_append, earliest, Option.some_or]

namespace PinSet

variable {set other : PinSet} {pin : Pin} {name : String}

/-- The set pins the component of a pin to the version of the pin. -/
def Has (set : PinSet) (pin : Pin) : Prop :=
  set.get? pin.name = some pin

theorem name_of_get? (found : set.get? name = some pin) : pin.name = name :=
  set.named _ (NameMap.get?_eq_some_iff.1 found)

theorem has_of_get? (found : set.get? name = some pin) : set.Has pin := by
  unfold Has
  rw [name_of_get? found, found]

theorem not_has_empty (pin : Pin) : ¬ empty.Has pin := by
  intro has
  cases has

/-- Sets that have the same pins are equal. -/
theorem ext_has (same : ∀ pin, set.Has pin ↔ other.Has pin) : set = other := by
  have pins : set.pins = other.pins := by
    refine NameMap.ext_get? fun name => Option.ext fun pin => ?_
    constructor
    · intro found
      have here : set.get? name = some pin := found
      have there := (same pin).1 (has_of_get? here)
      rw [Has, name_of_get? here] at there
      exact there
    · intro found
      have there : other.get? name = some pin := found
      have here := (same pin).2 (has_of_get? there)
      rw [Has, name_of_get? there] at here
      exact here
  obtain ⟨_, _⟩ := set
  cases pins
  rfl

/-! ## The set as a list -/

theorem mem_toList_iff : pin ∈ set.toList ↔ set.Has pin := by
  unfold toList NameMap.values
  rw [List.mem_map]
  constructor
  · intro listed
    rcases listed with ⟨⟨name, held⟩, mem, rfl⟩
    exact has_of_get? (NameMap.get?_eq_some_iff.2 mem)
  · intro has
    exact ⟨(pin.name, pin), NameMap.get?_eq_some_iff.1 has, rfl⟩

/-- The list has the pins in the order of their components, and so one for each component. -/
theorem toList_ascending (set : PinSet) :
    set.toList.Pairwise fun first second => first.name < second.name := by
  unfold toList NameMap.values
  refine List.pairwise_map.2 (set.pins.ascending.imp_of_mem fun left right below => ?_)
  rw [set.named _ left, set.named _ right]
  exact below

/-! ## Adding one pin -/

/-- Adding a pin adds exactly it, unless another version of its component stands already. -/
theorem insert_cases (set : PinSet) (pin : Pin) :
    (∃ next, set.insert pin = .ok next ∧
        (∀ first, set.Has first → first.name = pin.name → first = pin) ∧
        ∀ other, next.Has other ↔ set.Has other ∨ other = pin) ∨
      ∃ first, set.insert pin = .error (.pinConflict first pin) ∧ set.Has first ∧
        first.name = pin.name ∧ first ≠ pin := by
  unfold insert
  cases held : set.get? pin.name with
  | none =>
    have free : ∀ first, set.Has first → first.name ≠ pin.name := by
      intro first has same
      rw [Has, same, held] at has
      cases has
    refine .inl ⟨_, rfl, fun first has same => absurd same (free first has), fun other => ?_⟩
    have laid : (set.pins.insert pin.name pin).get? other.name =
        if pin.name = other.name then some pin else set.get? other.name :=
      NameMap.get?_insert set.pins pin.name other.name pin
    rw [Has, PinSet.get?, laid]
    split
    next same =>
      have absent : ¬ set.Has other := fun has => free other has same.symm
      simp [absent, eq_comm]
    next differs =>
      have distinct : other ≠ pin := fun same => differs (congrArg Pin.name same).symm
      simp [Has, distinct]
  | some first =>
    have has : set.Has first := has_of_get? held
    have named : first.name = pin.name := name_of_get? held
    simp only
    split
    next agree =>
      have same : first = pin := Pin.eq_of_parts named agree
      subst same
      refine .inl ⟨set, rfl, fun other hasOther named => ?_, fun other => ?_⟩
      · rw [Has, named, held] at hasOther
        exact (Option.some.inj hasOther).symm
      · exact ⟨.inl, fun either => either.elim id fun same => same ▸ has⟩
    next differ =>
      refine .inr ⟨first, rfl, has, named, fun same => differ (congrArg Pin.version same)⟩

/-! ## Adding several pins -/

theorem insertAll_append (set : PinSet) (front back : List Pin) :
    set.insertAll (front ++ back) = set.insertAll front >>= fun next => next.insertAll back := by
  induction front generalizing set with
  | nil => rfl
  | cons pin rest ih =>
    rw [List.cons_append, insertAll, insertAll]
    cases set.insert pin with
    | error fault => rfl
    | ok next => exact ih next

theorem insertAll_singleton (set : PinSet) (pin : Pin) : set.insertAll [pin] = set.insert pin := by
  rw [insertAll]
  cases set.insert pin <;> rfl

/-- Adding pins adds exactly them, where they agree with each other and with those of the set,
and is a conflict of two pins where they do not. -/
theorem insertAll_cases (set : PinSet) (pins : List Pin) :
    (∃ result, set.insertAll pins = .ok result ∧
        Pin.Agree (fun pin => set.Has pin ∨ pin ∈ pins) ∧
        ∀ pin, result.Has pin ↔ set.Has pin ∨ pin ∈ pins) ∨
      ∃ first second, set.insertAll pins = .error (.pinConflict first second) ∧
        ¬ Pin.Agree (fun pin => set.Has pin ∨ pin ∈ pins) := by
  induction pins generalizing set with
  | nil =>
    refine .inl ⟨set, rfl, fun first second left right same => ?_, by simp⟩
    have here := left.resolve_right List.not_mem_nil
    have there := right.resolve_right List.not_mem_nil
    rw [Has, same] at here
    exact Option.some.inj (here.symm.trans there)
  | cons pin rest ih =>
    rw [insertAll]
    rcases set.insert_cases pin with ⟨next, added, -, has⟩ | ⟨first, refused, stands, same, differ⟩
    · have among : (fun other => set.Has other ∨ other ∈ pin :: rest) =
          fun other => next.Has other ∨ other ∈ rest := by
        funext other
        rw [has, List.mem_cons, or_assoc]
      rw [added]
      rcases ih next with ⟨result, later, agree, hasResult⟩ | ⟨first, second, later, disagree⟩
      · refine .inl ⟨result, later, among ▸ agree, fun other => ?_⟩
        rw [hasResult, has, List.mem_cons, or_assoc]
      · exact .inr ⟨first, second, later, among ▸ disagree⟩
    · rw [refused]
      exact .inr ⟨first, pin, rfl, fun agree =>
        differ (agree first pin (.inl stands) (.inr List.mem_cons_self) same)⟩

/-- Pins that agree make the set of exactly them, and pins that do not are a conflict. -/
theorem insertAll_empty_cases (pins : List Pin) :
    (∃ result, empty.insertAll pins = .ok result ∧ Pin.Agree (· ∈ pins) ∧
        ∀ pin, result.Has pin ↔ pin ∈ pins) ∨
      ∃ first second, empty.insertAll pins = .error (.pinConflict first second) ∧
        ¬ Pin.Agree (· ∈ pins) := by
  simpa only [not_has_empty, false_or] using empty.insertAll_cases pins

/-- Pins that agree can be added, and of others the first clash is reported. -/
theorem insertAll_empty_clash_cases (pins : List Pin) :
    (∃ set, empty.insertAll pins = .ok set) ∨
      ∃ first second, empty.insertAll pins = .error (.pinConflict first second) ∧
        Pin.FirstClash pins first second := by
  induction pins using List.reverseRecOn with
  | nil => exact .inl ⟨empty, rfl⟩
  | append_singleton front pin ih =>
    rw [insertAll_append]
    simp only [insertAll_singleton]
    rcases ih with ⟨set, added⟩ | ⟨first, second, refused, clash⟩
    · rw [added]
      rcases insertAll_empty_cases front with ⟨result, same, agree, has⟩ | ⟨_, _, refused, -⟩
      · cases added.symm.trans same
        rcases set.insert_cases pin with
          ⟨next, inserted, -⟩ | ⟨first, refused, stands, named, differ⟩
        · exact .inl ⟨next, inserted⟩
        · have mem : first ∈ front := (has first).1 stands
          have versions : first.version ≠ pin.version :=
            fun same => differ (Pin.eq_of_parts named same)
          have disagrees : ∃ earlier ∈ front, earlier.name = pin.name ∧
              earlier.version ≠ pin.version := ⟨first, mem, named, versions⟩
          refine .inr ⟨first, pin, refused, ⟨front, [], rfl, agree, disagrees⟩, ?_⟩
          rw [List.find?_append, ← named, Pin.find?_of_agree agree mem, Option.some_or]
      · cases added.symm.trans refused
    · rw [refused]
      exact .inr ⟨first, second, rfl, clash.append [pin]⟩

/-- Lists of the same pins make the same set, or are both a conflict. -/
theorem insertAll_empty_of_same_pins {pins others : List Pin}
    (same : ∀ pin, pin ∈ pins ↔ pin ∈ others) :
    (∃ set, empty.insertAll pins = .ok set ∧ empty.insertAll others = .ok set) ∨
      ∃ first second otherFirst otherSecond,
        empty.insertAll pins = .error (.pinConflict first second) ∧
        empty.insertAll others = .error (.pinConflict otherFirst otherSecond) := by
  have among : (· ∈ pins) = (· ∈ others) := funext fun pin => propext (same pin)
  rcases insertAll_empty_cases pins with ⟨set, added, agree, has⟩ | ⟨first, second, refused, differ⟩
  · rcases insertAll_empty_cases others with ⟨otherSet, otherAdded, -, otherHas⟩ | ⟨-, -, -, differ⟩
    · have equal : set = otherSet := by
        refine ext_has fun pin => ?_
        rw [has, otherHas, same]
      subst equal
      exact .inl ⟨set, added, otherAdded⟩
    · exact absurd (among ▸ agree) differ
  · rcases insertAll_empty_cases others with ⟨-, -, agree, -⟩ | ⟨otherFirst, otherSecond, again, -⟩
    · exact absurd (among ▸ agree) differ
    · exact .inr ⟨first, second, otherFirst, otherSecond, refused, again⟩

end PinSet

end PackageConfig
