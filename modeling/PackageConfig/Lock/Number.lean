import PackageConfig.Fault

/-!
Numbers as bytes of seven bits each, lowest first. Every byte but the last has
its high bit set, so the end of a number is seen without knowing its length.

Writing uses as few bytes as it can; reading also accepts a number that is
padded with empty bytes, as long as it stays within the allowed length.
-/

namespace PackageConfig.Lock

/-- A reader takes what it needs from the front of the bytes and leaves the rest. -/
abbrev Reader := StateT (List UInt8) (Except DecodeFault)

/-- The bytes of a number. -/
def writeNumber (n : Nat) : List UInt8 :=
  if n < 128 then [n.toUInt8]
  else (n % 128 + 128).toUInt8 :: writeNumber (n / 128)
termination_by n
decreasing_by omega

/-- Read a number of at most `more + 1` bytes, the last of which is at most
`top` if all of them are used. -/
def readNumber (top : Nat) : Nat → Reader Nat
  | _, [] => .error .endOfData
  | more, byte :: rest =>
    if byte.toNat < 128 then
      if more = 0 ∧ top < byte.toNat then .error .endlessNumber
      else .ok (byte.toNat, rest)
    else
      match more with
      | 0 => .error .endlessNumber
      | more + 1 =>
        match readNumber top more rest with
        | .ok (high, rest) => .ok (byte.toNat - 128 + 128 * high, rest)
        | .error fault => .error fault

/-- Read a number of 64 bits: at most ten bytes, the tenth at most one. -/
def readLong : Reader Nat :=
  readNumber 1 9

/-- Read a number of 32 bits: at most five bytes, the fifth at most fifteen. -/
def readShort : Reader Nat :=
  readNumber 15 4

end PackageConfig.Lock
