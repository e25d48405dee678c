import PackageConfig.Proofs.Pin.Set
import PackageConfig.Proofs.Text.ByteOrder
import Mathlib.Data.List.Dedup

/-!
What a set of pins holds after any sequence of insertions.

An insertion that fails is passed over, and the next one is tried on the set as it was (`offer`).
One insertion gives a component its pin if the component has none, and changes no look-up
otherwise (`get?_offer`). So after a sequence every component has the first pin that was inserted
for it, whatever came later (`get?_afterInserts`): the set is the map of the first pins in all that
can be asked of it (`KeepsFirst`), and an insertion fails exactly for a version other than the
first (`Insertion`).
-/

namespace PackageConfig

/-- A pin is the first of its component in a list: no pin in front of it has its name. -/
def Pin.IsFirst (pins : List Pin) (pin : Pin) : Prop :=
  ∃ front back, pins = front ++ pin :: back ∧ ∀ earlier ∈ front, earlier.name ≠ pin.name

theorem Pin.find?_eq_some_iff {pins : List Pin} {name : String} {pin : Pin} :
    pins.find? (fun other => other.name == name) = some pin ↔
      Pin.IsFirst pins pin ∧ pin.name = name := by
  rw [List.find?_eq_some_iff_append, beq_iff_eq, and_comm]
  apply and_congr_left
  intro named
  subst named
  simp only [Bool.not_eq_true', beq_eq_false_iff_ne, IsFirst, ne_eq]

namespace PinSet

variable {set next : PinSet} {pin : Pin} {fault : Fault}

/-! ## One insertion -/

/-- An insertion fails exactly when another version stands, and reports the pin that stands and
the one that was to be inserted. -/
theorem insert_eq_error_iff : set.insert pin = .error fault ↔
    ∃ first, set.get? pin.name = some first ∧ first.version ≠ pin.version ∧
      fault = .pinConflict first pin := by
  rcases set.insert_cases pin with
    ⟨next, inserted, alone, -⟩ | ⟨first, refused, stands, named, differ⟩
  · rw [inserted]
    constructor
    · intro failed
      cases failed
    · intro other
      rcases other with ⟨first, held, differ, -⟩
      have same : first = pin := alone first (has_of_get? held) (name_of_get? held)
      exact absurd (congrArg Pin.version same) differ
  · have held : set.get? pin.name = some first := named ▸ stands
    rw [refused, held]
    constructor
    · intro failed
      cases failed
      exact ⟨first, rfl, fun versions => differ (Pin.eq_of_parts named versions), rfl⟩
    · intro other
      rcases other with ⟨_, same, -, rfl⟩
      cases same
      rfl

/-- The set after a pin was offered to it: an insertion that fails leaves it as it was. -/
def offer (set : PinSet) (pin : Pin) : PinSet :=
  match set.insert pin with
  | .ok next => next
  | .error _ => set

theorem offer_of_ok (inserted : set.insert pin = .ok next) : set.offer pin = next := by
  rw [offer, inserted]

theorem offer_of_error (refused : set.insert pin = .error fault) : set.offer pin = set := by
  rw [offer, refused]

/-- An offered pin is found only where nothing was found before. -/
theorem get?_offer (set : PinSet) (pin : Pin) (name : String) :
    (set.offer pin).get? name =
      (set.get? name).or (if pin.name = name then some pin else none) := by
  rcases set.insert_cases pin with
    ⟨next, inserted, -, has⟩ | ⟨first, refused, stands, named, -⟩
  · rw [offer_of_ok inserted]
    cases held : set.get? name with
    | some other =>
      have kept : next.Has other := (has other).2 (.inl (has_of_get? held))
      rw [Has, name_of_get? held] at kept
      rw [kept, Option.some_or]
    | none =>
      rw [Option.none_or]
      split
      next same =>
        have added : next.Has pin := (has pin).2 (.inr rfl)
        rw [Has, same] at added
        exact added
      next differs =>
        apply Option.eq_none_iff_forall_ne_some.2
        intro other found
        rcases (has other).1 (has_of_get? found) with stood | rfl
        · rw [Has, name_of_get? found, held] at stood
          cases stood
        · exact differs (name_of_get? found)
  · rw [offer_of_error refused]
    split
    next same =>
      have held : set.get? name = some first := same ▸ named ▸ stands
      rw [held, Option.some_or]
    next => rw [Option.or_none]

/-! ## Every insertion -/

/-- The set after a sequence of insertions on the empty one, going on after those that fail. -/
def afterInserts (pins : List Pin) : PinSet :=
  pins.foldl offer empty

theorem afterInserts_concat (pins : List Pin) (pin : Pin) :
    afterInserts (pins ++ [pin]) = (afterInserts pins).offer pin := by
  rw [afterInserts, List.foldl_append]
  rfl

/-- Insertions leave what was found before, and find the first of their pins elsewhere. -/
theorem get?_foldl_offer (pins : List Pin) (set : PinSet) (name : String) :
    (pins.foldl offer set).get? name =
      (set.get? name).or (pins.find? fun pin => pin.name == name) := by
  induction pins generalizing set with
  | nil => rw [List.foldl_nil, List.find?_nil, Option.or_none]
  | cons pin rest ih =>
    rw [List.foldl_cons, ih, get?_offer, Option.or_assoc, List.find?_cons]
    cases named : pin.name == name with
    | true => rw [if_pos (beq_iff_eq.1 named), Option.some_or]
    | false => rw [if_neg (beq_eq_false_iff_ne.1 named), Option.none_or]

theorem get?_afterInserts (pins : List Pin) (name : String) :
    (afterInserts pins).get? name = pins.find? fun pin => pin.name == name := by
  rw [afterInserts, get?_foldl_offer]
  exact Option.none_or

theorem get?_afterInserts_eq_some_iff {pins : List Pin} {name : String} :
    (afterInserts pins).get? name = some pin ↔ Pin.IsFirst pins pin ∧ pin.name = name := by
  rw [get?_afterInserts, Pin.find?_eq_some_iff]

theorem contains_afterInserts_iff {pins : List Pin} {name : String} :
    (afterInserts pins).contains name = true ↔ ∃ pin ∈ pins, pin.name = name := by
  have asked : (afterInserts pins).contains name = ((afterInserts pins).get? name).isSome := rfl
  rw [asked, get?_afterInserts, List.find?_isSome]
  simp only [beq_iff_eq]

/-- The set has as many pins as there are different components among those inserted. -/
theorem size_afterInserts (pins : List Pin) :
    (afterInserts pins).size = (pins.map Pin.name).dedup.length := by
  have perm : (afterInserts pins).pins.names.Perm (pins.map Pin.name).dedup := by
    apply (List.perm_ext_iff_of_nodup (NameMap.names_nodup _) (List.nodup_dedup _)).2
    intro name
    rw [NameMap.mem_names_iff, List.mem_dedup, List.mem_map]
    exact contains_afterInserts_iff
  rw [← perm.length_eq, NameMap.names, List.length_map]
  rfl

/-- A set is the map of the first pins of a list: each component of the list has one pin, under its
own name, and that is the first one of it. Looking up, asking, counting and listing agree on
this. -/
structure KeepsFirst (pins : List Pin) (set : PinSet) : Prop where
  stored_iff : ∀ name pin, (name, pin) ∈ set.pins.entries ↔ Pin.IsFirst pins pin ∧ pin.name = name
  one_each : ∀ pin ∈ pins, ∃! held, held ∈ set.toList ∧ held.name = pin.name
  get?_iff : ∀ name pin, set.get? name = some pin ↔ Pin.IsFirst pins pin ∧ pin.name = name
  contains_iff : ∀ name, set.contains name = true ↔ ∃ pin ∈ pins, pin.name = name
  size_eq : set.size = (pins.map Pin.name).dedup.length
  listed_iff : ∀ pin, pin ∈ set.toList ↔ Pin.IsFirst pins pin
  listed_ascending : set.toList.Pairwise fun first second =>
    Text.utf8 first.name < Text.utf8 second.name

theorem keepsFirst_afterInserts (pins : List Pin) : KeepsFirst pins (afterInserts pins) where
  stored_iff name pin := by
    rw [← get?_afterInserts_eq_some_iff]
    exact NameMap.get?_eq_some_iff.symm
  one_each pin mem := by
    have known := contains_afterInserts_iff.2 ⟨pin, mem, rfl⟩
    obtain ⟨held, found⟩ := Option.isSome_iff_exists.1 known
    refine ⟨held, ⟨mem_toList_iff.2 (has_of_get? found), name_of_get? found⟩, ?_⟩
    intro other listed
    rcases listed with ⟨listed, named⟩
    have has : (afterInserts pins).get? other.name = some other := mem_toList_iff.1 listed
    rw [named] at has
    exact Option.some.inj (has.symm.trans found)
  get?_iff _ _ := get?_afterInserts_eq_some_iff
  contains_iff _ := contains_afterInserts_iff
  size_eq := size_afterInserts pins
  listed_iff pin := by
    rw [mem_toList_iff, Has, get?_afterInserts_eq_some_iff]
    exact and_iff_left rfl
  listed_ascending := (afterInserts pins).toList_ascending.imp Text.utf8_lt_iff.2

/-- One more insertion. It fails exactly if the first version of its component, itself included, is
another one; it then reports the pin that stands and the new one, and leaves the set unchanged. -/
structure Insertion (pins : List Pin) (pin : Pin) (before after : PinSet) : Prop where
  fails_iff : (∃ fault, before.insert pin = .error fault) ↔
    ∃ first, Pin.IsFirst (pins ++ [pin]) first ∧ first.name = pin.name ∧
      first.version ≠ pin.version
  reported : ∀ fault, before.insert pin = .error fault →
    ∃ first, before.get? pin.name = some first ∧ fault = .pinConflict first pin
  unchanged : ∀ fault, before.insert pin = .error fault → after = before
  passed : ∀ next, before.insert pin = .ok next → after = next

theorem insertion_offer (pins : List Pin) (pin : Pin) :
    Insertion pins pin (afterInserts pins) (afterInserts (pins ++ [pin])) where
  fails_iff := by
    have first_iff : ∀ first, Pin.IsFirst (pins ++ [pin]) first ∧ first.name = pin.name ↔
        ((afterInserts pins).get? pin.name).or (some pin) = some first := by
      intro first
      rw [← get?_afterInserts_eq_some_iff, afterInserts_concat, get?_offer, if_pos rfl]
    simp only [insert_eq_error_iff, ← and_assoc, first_iff]
    -- Where nothing stands the new pin is itself the first, and agrees with itself.
    cases (afterInserts pins).get? pin.name with
    | none => simp
    | some first => simp
  reported fault refused := by
    obtain ⟨first, held, -, reported⟩ := insert_eq_error_iff.1 refused
    exact ⟨first, held, reported⟩
  unchanged fault refused := by
    rw [afterInserts_concat, offer_of_error refused]
  passed next inserted := by
    rw [afterInserts_concat, offer_of_ok inserted]

/-- After any sequence of insertions, of which some may have failed, the set is the map of the
first pins; and one more insertion fails exactly for a version other than the first of its
component, with the pin that stands and the new one as the conflict, and then changes nothing. -/
theorem inserting_keeps_first (pins : List Pin) :
    KeepsFirst pins (afterInserts pins) ∧
      ∀ pin, Insertion pins pin (afterInserts pins) (afterInserts (pins ++ [pin])) :=
  ⟨keepsFirst_afterInserts pins, insertion_offer pins⟩

/-- A second version is refused, before and after the first is inserted once more. -/
example :
    (afterInserts [⟨"zlib", "1.2"⟩, ⟨"zlib", "1.3"⟩, ⟨"png", "1.6"⟩, ⟨"zlib", "1.2"⟩,
      ⟨"zlib", "1.3"⟩]).toList = [⟨"png", "1.6"⟩, ⟨"zlib", "1.2"⟩] := by
  decide

end PinSet

end PackageConfig
