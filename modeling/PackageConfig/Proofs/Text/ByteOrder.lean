import PackageConfig.Text.Utf8
import Mathlib.Tactic.SplitIfs

/-!
The order of texts and the order of their bytes.

Texts are compared character by character, by code point. A larger code point has an encoding
that is larger at the first byte where the two differ, and no encoding is the front of another
(`encodeChar_partsBelow`); so comparing the UTF-8 bytes of two texts gives the same answer
(`utf8_lt_iff`).
-/

namespace PackageConfig.Text

/-- Two lists of bytes differ at some place, and at the first such place the left byte is
smaller. -/
inductive PartsBelow : List UInt8 → List UInt8 → Prop
  | here {a b : UInt8} {left right : List UInt8} (lt : a < b) : PartsBelow (a :: left) (b :: right)
  | later {a : UInt8} {left right : List UInt8} (below : PartsBelow left right) :
    PartsBelow (a :: left) (a :: right)

theorem PartsBelow.append_lt {left right : List UInt8} (below : PartsBelow left right)
    (leftRest rightRest : List UInt8) : left ++ leftRest < right ++ rightRest := by
  induction below with
  | here lt => exact List.cons_lt_cons_iff.2 (.inl lt)
  | later _ ih => exact List.cons_lt_cons_iff.2 (.inr ⟨rfl, ih⟩)

variable {m n : Nat} {left right : List UInt8}

theorem partsBelow_of_lt (small : n < 256) (lt : m < n) :
    PartsBelow (UInt8.ofNat m :: left) (UInt8.ofNat n :: right) := by
  refine .here (UInt8.lt_iff_toNat_lt.2 ?_)
  rw [UInt8.toNat_ofNat', UInt8.toNat_ofNat']
  omega

theorem partsBelow_of_le (small : n < 256) (le : m ≤ n)
    (tied : m = n → PartsBelow left right) :
    PartsBelow (UInt8.ofNat m :: left) (UInt8.ofNat n :: right) := by
  rcases Nat.lt_or_eq_of_le le with lt | rfl
  · exact partsBelow_of_lt small lt
  · exact .later (tied rfl)

/-! ## Bytes behind the first

Each carries six bits of the code point, the highest first. -/

theorem partsBelow_one (lt : m % 64 < n % 64) :
    PartsBelow [UInt8.ofNat (m % 64 + 128)] [UInt8.ofNat (n % 64 + 128)] :=
  partsBelow_of_lt (by omega) (by omega)

theorem partsBelow_two (lt : m % 4096 < n % 4096) :
    PartsBelow [UInt8.ofNat (m / 64 % 64 + 128), UInt8.ofNat (m % 64 + 128)]
      [UInt8.ofNat (n / 64 % 64 + 128), UInt8.ofNat (n % 64 + 128)] :=
  partsBelow_of_le (by omega) (by omega) fun tied => partsBelow_one (by omega)

theorem partsBelow_three (lt : m % 262144 < n % 262144) :
    PartsBelow
      [UInt8.ofNat (m / 4096 % 64 + 128), UInt8.ofNat (m / 64 % 64 + 128),
        UInt8.ofNat (m % 64 + 128)]
      [UInt8.ofNat (n / 4096 % 64 + 128), UInt8.ofNat (n / 64 % 64 + 128),
        UInt8.ofNat (n % 64 + 128)] :=
  partsBelow_of_le (by omega) (by omega) fun tied => partsBelow_two (by omega)

/-- Of two characters, the one with the smaller code point has the smaller encoding, and neither
encoding is the front of the other. -/
theorem encodeChar_partsBelow {c d : Char} (lt : c < d) :
    PartsBelow (String.utf8EncodeChar c) (String.utf8EncodeChar d) := by
  have lt : c.val.toNat < d.val.toNat := UInt32.lt_iff_toNat_lt.1 lt
  have valid : d.val.toNat < 1114112 := by
    rcases d.valid with low | ⟨-, high⟩
    · exact Nat.lt_trans low (by decide)
    · exact high
  unfold String.utf8EncodeChar
  generalize c.val.toNat = m at lt
  generalize d.val.toNat = n at lt valid
  dsimp only
  -- The first byte grows with the number of bytes, and within one number with the code point.
  by_cases one : m ≤ 127
  · rw [if_pos one]
    split_ifs <;> exact partsBelow_of_lt (by omega) (by omega)
  rw [if_neg one, if_neg (by omega : ¬ n ≤ 127)]
  by_cases two : m ≤ 2047
  · rw [if_pos two]
    split_ifs
    · exact partsBelow_of_le (by omega) (by omega) fun tied => partsBelow_one (by omega)
    · exact partsBelow_of_lt (by omega) (by omega)
    · exact partsBelow_of_lt (by omega) (by omega)
  rw [if_neg two, if_neg (by omega : ¬ n ≤ 2047)]
  by_cases three : m ≤ 65535
  · rw [if_pos three]
    split_ifs
    · exact partsBelow_of_le (by omega) (by omega) fun tied => partsBelow_two (by omega)
    · exact partsBelow_of_lt (by omega) (by omega)
  rw [if_neg three, if_neg (by omega : ¬ n ≤ 65535)]
  exact partsBelow_of_le (by omega) (by omega) fun tied => partsBelow_three (by omega)

theorem utf8_eq_flatMap (s : String) : utf8 s = s.toList.flatMap String.utf8EncodeChar := by
  unfold utf8
  rw [← String.utf8Encode_toList, List.utf8Encode, List.toList_data_toByteArray]

theorem flatMap_encodeChar_lt {left right : List Char} (lt : left < right) :
    left.flatMap String.utf8EncodeChar < right.flatMap String.utf8EncodeChar := by
  induction left generalizing right with
  | nil =>
    cases right with
    | nil => exact absurd lt (List.lt_irrefl [])
    | cons d rest =>
      have nonempty : String.utf8EncodeChar d ≠ [] := String.utf8EncodeChar_ne_nil
      obtain ⟨first, others, shape⟩ := List.exists_cons_of_ne_nil nonempty
      rw [List.flatMap_nil, List.flatMap_cons, shape]
      exact List.nil_lt_cons _ _
  | cons c rest ih =>
    cases right with
    | nil => exact absurd lt (List.not_lt_nil _)
    | cons d others =>
      rw [List.flatMap_cons, List.flatMap_cons]
      rcases List.cons_lt_cons_iff.1 lt with smaller | ⟨rfl, later⟩
      · exact (encodeChar_partsBelow smaller).append_lt _ _
      · exact List.append_left_lt (ih later)

/-- Texts and their bytes have one order. -/
theorem utf8_lt_iff {s t : String} : utf8 s < utf8 t ↔ s < t := by
  have mono : ∀ {s t : String}, s < t → utf8 s < utf8 t := by
    intro s t lt
    rw [utf8_eq_flatMap, utf8_eq_flatMap]
    exact flatMap_encodeChar_lt lt
  refine ⟨fun below => String.not_le.1 fun le => ?_, mono⟩
  by_cases less : t < s
  · exact List.lt_asymm below (mono less)
  · have same : s = t := String.le_antisymm (String.not_lt.1 less) le
    subst same
    exact List.lt_irrefl _ below

end PackageConfig.Text
