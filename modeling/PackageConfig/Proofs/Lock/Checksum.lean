import PackageConfig.Lock.Checksum

/-!
The checksum tells streams apart that differ in one byte.

Taking a byte into the hash is a permutation of the 64-bit words, since the prime that it
multiplies by is odd. Two different bytes leave two different hashes, and the bytes behind them,
however many, keep these apart.
-/

namespace PackageConfig.Lock

/-! ## Streams that differ in one byte -/

/-- The second stream has another byte at one place, and is the same elsewhere. -/
def DifferOnce (s t : List UInt8) : Prop :=
  ∃ before x y after, x ≠ y ∧ s = before ++ x :: after ∧ t = before ++ y :: after

namespace DifferOnce

variable {s t : List UInt8}

theorem append_left (front : List UInt8) (differ : DifferOnce s t) :
    DifferOnce (front ++ s) (front ++ t) := by
  rcases differ with ⟨before, x, y, after, other, rfl, rfl⟩
  exact ⟨front ++ before, x, y, after, other, (List.append_assoc ..).symm,
    (List.append_assoc ..).symm⟩

theorem append_right (differ : DifferOnce s t) (more : List UInt8) :
    DifferOnce (s ++ more) (t ++ more) := by
  rcases differ with ⟨before, x, y, after, other, rfl, rfl⟩
  exact ⟨before, x, y, after ++ more, other, List.append_assoc .., List.append_assoc ..⟩

theorem length_eq (differ : DifferOnce s t) : s.length = t.length := by
  rcases differ with ⟨before, x, y, after, -, rfl, rfl⟩
  rw [List.length_append, List.length_append, List.length_cons, List.length_cons]

end DifferOnce

/-! ## The hash -/

theorem hashPrime_mul_inverse : hashPrime * 0xce965057aff6957b = 1 := by decide

theorem hashPrime_cancel {g h : UInt64} (same : g * hashPrime = h * hashPrime) : g = h := by
  have undone := congrArg (· * (0xce965057aff6957b : UInt64)) same
  simp only [UInt64.mul_assoc, hashPrime_mul_inverse, UInt64.mul_one] at undone
  exact undone

theorem hashByte_injective {g h : UInt64} {byte : UInt8}
    (same : hashByte g byte = hashByte h byte) : g = h :=
  (UInt64.xor_left_inj _).1 (hashPrime_cancel same)

theorem hashByte_ne {x y : UInt8} (hash : UInt64) (other : x ≠ y) :
    hashByte hash x ≠ hashByte hash y := by
  intro same
  have words := (UInt64.xor_right_inj hash).1 (hashPrime_cancel same)
  exact other (UInt8.toUInt64_inj.1 words)

/-- Different hashes stay different, whatever bytes are taken in. -/
theorem foldl_hashByte_ne {g h : UInt64} (bytes : List UInt8) (other : g ≠ h) :
    bytes.foldl hashByte g ≠ bytes.foldl hashByte h := by
  induction bytes generalizing g h with
  | nil => exact other
  | cons byte rest ih => exact ih fun same => other (hashByte_injective same)

theorem hash_ne_of_differOnce {s t : List UInt8} (differ : DifferOnce s t) : hash s ≠ hash t := by
  rcases differ with ⟨before, x, y, after, other, rfl, rfl⟩
  unfold hash
  rw [List.foldl_append, List.foldl_append, List.foldl_cons, List.foldl_cons]
  exact foldl_hashByte_ne after (hashByte_ne _ other)

end PackageConfig.Lock
