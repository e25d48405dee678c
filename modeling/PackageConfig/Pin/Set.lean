import PackageConfig.Fault
import PackageConfig.NameMap

/-!
Pins that are read, and sets of pins. A set pins no component to two versions: a
second pin of a component either agrees with the first or is a conflict, and changes
nothing.
-/

namespace PackageConfig

/-- Read the written form of a pin, which has to be well-formed. -/
def Pin.read (text : String) : Except Fault Pin :=
  match Pin.parse? text with
  | some pin => .ok pin
  | none => .error (.invalidManifest (.malformedPin text))

/-- One pin for each component, kept under the name of the component. -/
structure PinSet where
  pins : NameMap Pin
  named : ∀ entry ∈ pins.entries, entry.2.name = entry.1
  deriving DecidableEq

namespace PinSet

/-- The set that pins nothing. -/
def empty : PinSet := ⟨.empty, fun _ mem => absurd mem List.not_mem_nil⟩

instance : Inhabited PinSet := ⟨empty⟩

/-- The pin of a component, if it has one. -/
def get? (set : PinSet) (name : String) : Option Pin :=
  set.pins.get? name

/-- Whether a component is pinned. -/
def contains (set : PinSet) (name : String) : Bool :=
  set.pins.contains name

/-- The pins, ascending by component. -/
def toList (set : PinSet) : List Pin :=
  set.pins.values

/-- How many components are pinned. -/
def size (set : PinSet) : Nat :=
  set.pins.size

/-- Whether nothing is pinned. -/
def isEmpty (set : PinSet) : Bool :=
  set.pins.isEmpty

theorem named_insert {pins : NameMap Pin}
    (named : ∀ entry ∈ pins.entries, entry.2.name = entry.1) (pin : Pin) :
    ∀ entry ∈ (pins.insert pin.name pin).entries, entry.2.name = entry.1 := by
  intro entry mem
  rcases NameMap.mem_place mem with rfl | mem
  · rfl
  · exact named entry mem

/-- Pin a component. Pinning it again to the same version changes nothing; to
another version is a conflict with the pin that stands. -/
def insert (set : PinSet) (pin : Pin) : Except Fault PinSet :=
  match set.get? pin.name with
  | none => .ok ⟨set.pins.insert pin.name pin, named_insert set.named pin⟩
  | some first =>
    if first.version = pin.version then .ok set
    else .error (.pinConflict first pin)

/-- Pin several components, one after another, until two pins conflict. -/
def insertAll (set : PinSet) : List Pin → Except Fault PinSet
  | [] => .ok set
  | pin :: pins => do
    let set ← set.insert pin
    set.insertAll pins

/-- The pins as data, ascending by component. -/
def toData (set : PinSet) : Data :=
  .list (set.toList.map Pin.toData)

end PinSet

end PackageConfig
