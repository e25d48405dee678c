import PackageConfig.Lock
import PackageConfig.Text.Utf8

/-!
The checksum of a lock: the 64-bit hash FNV-1a of a stream of bytes that spells
out every field. Texts come with their lengths, so that neighbouring texts
cannot run together. The checksum guards against damage, not against forgery.
-/

namespace PackageConfig.Lock

/-! ## The hash -/

/-- The hash of no bytes at all. -/
def hashStart : UInt64 := 0xcbf29ce484222325

/-- What the hash is multiplied by at every byte. -/
def hashPrime : UInt64 := 0x100000001b3

/-- Take one byte into a hash. -/
def hashByte (hash : UInt64) (byte : UInt8) : UInt64 :=
  (hash ^^^ byte.toUInt64) * hashPrime

/-- The FNV-1a hash of some bytes. -/
def hash (bytes : List UInt8) : UInt64 :=
  bytes.foldl hashByte hashStart

/-! ## The stream -/

/-- A number in eight bytes, the lowest first. -/
def eightBytes (n : UInt64) : List UInt8 :=
  (List.range 8).map fun i => (n >>> (8 * i).toUInt64).toUInt8

/-- The length of a text in bytes, and the text. -/
def streamText (s : String) : List UInt8 :=
  eightBytes (Text.utf8 s).length.toUInt64 ++ Text.utf8 s

/-- A switch as one byte. -/
def streamSwitch (on : Bool) : List UInt8 :=
  [if on then 1 else 0]

/-- The kind of a value, and the value. -/
def streamValue : Value → List UInt8
  | .flag on => 0 :: streamSwitch on
  | .text s => 1 :: streamText s

/-- The kind of a state, and its value or the reason of its removal. -/
def streamState : State → List UInt8
  | .present value => 0 :: streamValue value
  | .absent (.optionRule rule) => 1 :: streamText rule
  | .absent (.platformRule rule) => 2 :: streamText rule
  | .absent (.parent name) => 3 :: streamText name

/-- An option and its state. -/
def streamOption (entry : String × State) : List UInt8 :=
  streamText entry.1 ++ streamState entry.2

/-- A component and its version. -/
def streamPin (pin : Pin) : List UInt8 :=
  streamText pin.name ++ streamText pin.version

/-- A variable and its value. -/
def streamVariable (entry : String × Value) : List UInt8 :=
  streamText entry.1 ++ streamValue entry.2

/-- Every field of a lock in order. The lengths of the lists are not in it. -/
def stream (lock : Lock) : List UInt8 :=
  streamText lock.platform ++ streamSwitch lock.shared ++
    lock.options.flatMap streamOption ++ lock.pins.flatMap streamPin ++
    lock.table.flatMap streamVariable

/-- The checksum of a lock. -/
def checksum (lock : Lock) : UInt64 :=
  hash lock.stream

end PackageConfig.Lock
