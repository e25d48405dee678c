import PackageConfig.Lock.Number
import PackageConfig.Text.Utf8

/-!
Binary formats: a way to write values of a type as bytes, with the way to read
them back from the front of some bytes. Formats are put together from smaller
ones: a text is its length and its bytes, a list its length and its items, a
record its fields one after another, a choice a number and what it chose.
-/

namespace PackageConfig.Lock

/-- How values of a type are written as bytes and read back. -/
structure Format (α : Type) where
  write : α → List UInt8
  read : Reader α

namespace Format

variable {α β : Type}

/-! ## Numbers, switches and texts -/

/-- Read one byte. -/
def readByte : Reader UInt8
  | [] => .error .endOfData
  | byte :: rest => .ok (byte, rest)

/-- One byte, as it is. -/
def byte : Format UInt8 where
  write b := [b]
  read := readByte

/-- A number of 64 bits. -/
def long : Format UInt64 where
  write n := writeNumber n.toNat
  read := do return UInt64.ofNat (← readLong)

/-- A switch is one byte, zero or one. -/
def switch : Format Bool where
  write on := [if on then 1 else 0]
  read := do
    match ← readByte with
    | 0 => return false
    | 1 => return true
    | _ => throw .badSwitch

/-- Take exactly so many bytes. -/
def take (n : Nat) : Reader (List UInt8) := fun bytes =>
  let front := bytes.take n
  if front.length = n then .ok (front, bytes.drop n) else .error .endOfData

/-- A text is the length of its UTF-8 bytes, and the bytes. -/
def text : Format String where
  write s := writeNumber (Text.utf8 s).length ++ Text.utf8 s
  read := do
    let bytes ← take (← readLong)
    match Text.ofUtf8? bytes with
    | some s => return s
    | none => throw .badText

/-! ## Formats from formats -/

/-- Two values, one after the other. -/
def pair (f : Format α) (g : Format β) : Format (α × β) where
  write p := f.write p.1 ++ g.write p.2
  read := do
    let a ← f.read
    let b ← g.read
    return (a, b)

/-- A type whose values are those of another in a different form. -/
def via (f : Format α) (out : β → α) (into : α → β) : Format β where
  write b := f.write (out b)
  read := do return into (← f.read)

/-- Read so many items. -/
def readItems (f : Format α) : Nat → Reader (List α)
  | 0 => return []
  | n + 1 => do
    let item ← f.read
    let items ← readItems f n
    return item :: items

/-- A list is its length, and its items. -/
def list (f : Format α) : Format (List α) where
  write items := writeNumber items.length ++ items.flatMap f.write
  read := do readItems f (← readLong)

end Format

end PackageConfig.Lock
