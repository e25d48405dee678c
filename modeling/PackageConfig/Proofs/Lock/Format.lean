import PackageConfig.Lock.Format
import Mathlib.Algebra.Group.Nat.Defs

/-!
Laws of binary formats.

A format `RoundTrips` on the values of a domain when reading what was written gives the
value back and leaves the bytes that follow it. It is `Unambiguous` when no two written
values can start the same bytes. The domain of a round trip is what the reader can take:
numbers of 64 bits, and so texts and lists of such a length. Writing knows no such limit,
and is unambiguous without it. A way to write that is no format, and that may need such a
limit, is `SelfDelimiting` on the values within it.

The laws are proved once for each way to put parts together, so the format of a record
has them by naming its parts.
-/

namespace PackageConfig

/-- Whether the length of a text in bytes is a number of 64 bits. -/
def Text.Fits (s : String) : Prop :=
  (Text.utf8 s).length < 2 ^ 64

namespace Lock

variable {α β : Type}

/-! ## Readers -/

/-- Where a reader succeeds, the next one goes on with the bytes it left. -/
theorem Reader.bind_of_ok {r : Reader α} {next : α → Reader β} {bytes rest : List UInt8} {a : α}
    (h : r bytes = .ok (a, rest)) : (r >>= next) bytes = next a rest := by
  change (r bytes >>= fun p => next p.1 p.2) = next a rest
  rw [h]
  rfl

/-! ## Numbers -/

/-- A number within the width of the reader is read back. At each further byte seven bits
are gone, so the bound shrinks with the bytes that may still come. -/
theorem readNumber_writeNumber {top : Nat} (small : top < 128) (more : Nat) {n : Nat}
    (bound : n < (top + 1) * 128 ^ more) (rest : List UInt8) :
    readNumber top more (writeNumber n ++ rest) = .ok (n, rest) := by
  induction more generalizing n with
  | zero =>
    have last : n < 128 := by omega
    have byte : n.toUInt8.toNat = n := Nat.mod_eq_of_lt (by omega)
    rw [writeNumber, if_pos last, List.cons_append, List.nil_append, readNumber, byte,
      if_pos last, if_neg (by omega)]
  | succ more ih =>
    by_cases last : n < 128
    · have byte : n.toUInt8.toNat = n := Nat.mod_eq_of_lt (by omega)
      rw [writeNumber, if_pos last, List.cons_append, List.nil_append, readNumber, byte,
        if_pos last, if_neg (by omega)]
    · have byte : (n % 128 + 128).toUInt8.toNat = n % 128 + 128 := Nat.mod_eq_of_lt (by omega)
      have bound' : n < (top + 1) * 128 ^ more * 128 := by
        rwa [Nat.pow_succ, ← Nat.mul_assoc] at bound
      have high : n / 128 < (top + 1) * 128 ^ more := Nat.div_lt_of_lt_mul (by omega)
      rw [writeNumber, if_neg last, List.cons_append, readNumber, byte, if_neg (by omega),
        ih high]
      have whole : n % 128 + 128 - 128 + 128 * (n / 128) = n := by omega
      simp only [whole]

theorem readLong_writeNumber {n : Nat} (bound : n < 2 ^ 64) (rest : List UInt8) :
    readLong (writeNumber n ++ rest) = .ok (n, rest) :=
  readNumber_writeNumber (by decide) 9 (by omega) rest

theorem readShort_writeNumber {n : Nat} (bound : n < 2 ^ 32) (rest : List UInt8) :
    readShort (writeNumber n ++ rest) = .ok (n, rest) :=
  readNumber_writeNumber (by decide) 4 (by omega) rest

/-- A written number shows where it ends, whatever its size. -/
theorem writeNumber_append_inj {m n : Nat} {s t : List UInt8}
    (h : writeNumber m ++ s = writeNumber n ++ t) : m = n ∧ s = t := by
  -- A reader that is wide enough for both numbers tells them apart.
  have wide (k : Nat) (le : k ≤ m + n) : k < (127 + 1) * 128 ^ (m + n) := by
    have : k < 128 ^ (m + n) := Nat.lt_of_le_of_lt le (Nat.lt_pow_self (by decide))
    omega
  have left := readNumber_writeNumber (by decide) (m + n) (wide m (by omega)) s
  have right := readNumber_writeNumber (by decide) (m + n) (wide n (by omega)) t
  rw [h, right] at left
  cases left
  exact ⟨rfl, rfl⟩

/-- A number takes a byte for every seven bits. -/
theorem length_writeNumber_le (more : Nat) {n : Nat} (bound : n < 128 ^ (more + 1)) :
    (writeNumber n).length ≤ more + 1 := by
  induction more generalizing n with
  | zero =>
    rw [writeNumber, if_pos (by omega)]
    exact Nat.le_refl 1
  | succ more ih =>
    rw [writeNumber]
    split
    · simp
    · have : n / 128 < 128 ^ (more + 1) := Nat.div_lt_of_lt_mul (by
        rwa [Nat.pow_succ, Nat.mul_comm] at bound)
      have := ih this
      simp only [List.length_cons]
      omega

/-! ## Writing one value after another -/

/-- Among the values that fit, bytes that start with a written one start with no other one. -/
structure SelfDelimiting (write : α → List UInt8) (fits : α → Prop) : Prop where
  append_inj : ∀ {a b : α}, fits a → fits b → ∀ {s t : List UInt8},
    write a ++ s = write b ++ t → a = b ∧ s = t

namespace SelfDelimiting

variable {write : α → List UInt8} {write' : β → List UInt8} {fits : α → Prop} {fits' : β → Prop}

theorem pair (first : SelfDelimiting write fits) (second : SelfDelimiting write' fits') :
    SelfDelimiting (fun p : α × β => write p.1 ++ write' p.2) fun p => fits p.1 ∧ fits' p.2 := by
  constructor
  intro p q fit other s t h
  rw [List.append_assoc, List.append_assoc] at h
  obtain ⟨heads, h⟩ := first.append_inj fit.1 other.1 h
  obtain ⟨lasts, tails⟩ := second.append_inj fit.2 other.2 h
  exact ⟨Prod.ext heads lasts, tails⟩

theorem comap (law : SelfDelimiting write fits) {out : β → α} (inj : Function.Injective out) :
    SelfDelimiting (fun b => write (out b)) fun b => fits (out b) := by
  constructor
  intro a b fit other s t h
  obtain ⟨same, tails⟩ := law.append_inj fit other h
  exact ⟨inj same, tails⟩

/-- Equally many values can be told apart without their number in front. -/
theorem flatMap_append_inj (law : SelfDelimiting write fits) {as bs : List α} {s t : List UInt8}
    (fit : ∀ a ∈ as, fits a) (other : ∀ b ∈ bs, fits b) (lengths : as.length = bs.length)
    (h : as.flatMap write ++ s = bs.flatMap write ++ t) : as = bs ∧ s = t := by
  induction as generalizing bs with
  | nil =>
    cases List.length_eq_zero_iff.1 lengths.symm
    exact ⟨rfl, h⟩
  | cons a as ih =>
    cases bs with
    | nil => cases lengths
    | cons b bs =>
      rw [List.forall_mem_cons] at fit other
      simp only [List.flatMap_cons, List.append_assoc] at h
      obtain ⟨rfl, rest⟩ := law.append_inj fit.1 other.1 h
      obtain ⟨rfl, tails⟩ := ih fit.2 other.2 (Nat.succ.inj lengths) rest
      exact ⟨rfl, tails⟩

end SelfDelimiting

namespace Format

/-! ## The two laws -/

/-- On the values that fit, reading gives back what was written, whatever follows. -/
structure RoundTrips (f : Format α) (fits : α → Prop) : Prop where
  read_write : ∀ {a : α}, fits a → ∀ rest, f.read (f.write a ++ rest) = .ok (a, rest)

/-- Bytes that start with a written value start with no other one. -/
structure Unambiguous (f : Format α) : Prop where
  append_inj : ∀ {a b : α} {s t : List UInt8},
    f.write a ++ s = f.write b ++ t → a = b ∧ s = t

theorem Unambiguous.selfDelimiting {f : Format α} (law : f.Unambiguous) :
    SelfDelimiting f.write fun _ => True :=
  ⟨fun _ _ => law.append_inj⟩

theorem RoundTrips.mono {f : Format α} {fits fewer : α → Prop} (law : f.RoundTrips fits)
    (h : ∀ a, fewer a → fits a) : f.RoundTrips fewer :=
  ⟨fun fit rest => law.read_write (h _ fit) rest⟩

/-! ## Bytes, numbers, switches and texts -/

theorem byte_roundTrips : byte.RoundTrips fun _ => True :=
  ⟨fun _ _ => rfl⟩

theorem byte_unambiguous : byte.Unambiguous := by
  constructor
  intro a b s t h
  cases h
  exact ⟨rfl, rfl⟩

theorem long_roundTrips : long.RoundTrips fun _ => True := by
  constructor
  intro n _ rest
  refine (Reader.bind_of_ok (readLong_writeNumber n.toNat_lt rest)).trans ?_
  rw [UInt64.ofNat_toNat]
  rfl

theorem long_unambiguous : long.Unambiguous := by
  constructor
  intro m n s t h
  obtain ⟨eq, tails⟩ := writeNumber_append_inj h
  exact ⟨UInt64.toNat_inj.1 eq, tails⟩

theorem switch_roundTrips : switch.RoundTrips fun _ => True := by
  constructor
  intro on _ rest
  cases on <;> rfl

theorem switch_unambiguous : switch.Unambiguous := by
  constructor
  intro a b s t h
  obtain ⟨heads, tails⟩ := List.cons.inj h
  have distinct : ∀ a b : Bool, (if a then (1 : UInt8) else 0) = (if b then 1 else 0) → a = b := by
    decide
  exact ⟨distinct a b heads, tails⟩

theorem take_append (front rest : List UInt8) :
    take front.length (front ++ rest) = .ok (front, rest) := by
  simp [take]

theorem text_roundTrips : text.RoundTrips Text.Fits := by
  constructor
  intro s fits rest
  have bytes : text.write s ++ rest =
      writeNumber (Text.utf8 s).length ++ (Text.utf8 s ++ rest) := List.append_assoc ..
  rw [bytes]
  refine (Reader.bind_of_ok (readLong_writeNumber fits _)).trans ?_
  refine (Reader.bind_of_ok (take_append (Text.utf8 s) rest)).trans ?_
  rw [Text.ofUtf8?_utf8]
  rfl

theorem text_unambiguous : text.Unambiguous := by
  constructor
  intro a b s t h
  simp only [text, List.append_assoc] at h
  obtain ⟨lengths, h⟩ := writeNumber_append_inj h
  obtain ⟨bytes, tails⟩ := List.append_inj h lengths
  exact ⟨Text.utf8_injective bytes, tails⟩

/-! ## Formats from formats -/

section Combined

variable {f : Format α} {g : Format β} {fits : α → Prop} {fits' : β → Prop}

theorem pair_roundTrips (first : f.RoundTrips fits) (second : g.RoundTrips fits') :
    (f.pair g).RoundTrips fun p => fits p.1 ∧ fits' p.2 := by
  constructor
  intro p both rest
  have bytes : (f.pair g).write p ++ rest = f.write p.1 ++ (g.write p.2 ++ rest) :=
    List.append_assoc ..
  rw [bytes]
  refine (Reader.bind_of_ok (first.read_write both.1 _)).trans ?_
  exact Reader.bind_of_ok (second.read_write both.2 rest)

theorem pair_unambiguous (first : f.Unambiguous) (second : g.Unambiguous) :
    (f.pair g).Unambiguous :=
  ⟨(first.selfDelimiting.pair second.selfDelimiting).append_inj ⟨trivial, trivial⟩
    ⟨trivial, trivial⟩⟩

theorem via_roundTrips {out : β → α} {into : α → β} (law : f.RoundTrips fits)
    (inverse : ∀ b, into (out b) = b) : (f.via out into).RoundTrips fun b => fits (out b) := by
  constructor
  intro b fit rest
  refine (Reader.bind_of_ok (law.read_write fit rest)).trans ?_
  rw [inverse]
  rfl

theorem via_unambiguous {out : β → α} {into : α → β} (law : f.Unambiguous)
    (inverse : ∀ b, into (out b) = b) : (f.via out into).Unambiguous :=
  ⟨(law.selfDelimiting.comap (Function.LeftInverse.injective inverse)).append_inj trivial trivial⟩

theorem readItems_flatMap (law : f.RoundTrips fits) (items : List α)
    (all : ∀ a ∈ items, fits a) (rest : List UInt8) :
    readItems f items.length (items.flatMap f.write ++ rest) = .ok (items, rest) := by
  induction items with
  | nil => rfl
  | cons item items ih =>
    have bytes : (item :: items).flatMap f.write ++ rest =
        f.write item ++ (items.flatMap f.write ++ rest) := by simp
    rw [bytes]
    refine (Reader.bind_of_ok (law.read_write (all item List.mem_cons_self) _)).trans ?_
    exact Reader.bind_of_ok (ih fun a mem => all a (List.mem_cons_of_mem _ mem))

theorem list_roundTrips (law : f.RoundTrips fits) :
    (list f).RoundTrips fun items => items.length < 2 ^ 64 ∧ ∀ a ∈ items, fits a := by
  constructor
  intro items fit rest
  have bytes : (list f).write items ++ rest =
      writeNumber items.length ++ (items.flatMap f.write ++ rest) := List.append_assoc ..
  rw [bytes]
  refine (Reader.bind_of_ok (readLong_writeNumber fit.1 _)).trans ?_
  exact readItems_flatMap law items fit.2 rest

theorem list_unambiguous (law : f.Unambiguous) : (list f).Unambiguous := by
  constructor
  intro as bs s t h
  simp only [list, List.append_assoc] at h
  obtain ⟨lengths, h⟩ := writeNumber_append_inj h
  exact law.selfDelimiting.flatMap_append_inj (fun _ _ => trivial) (fun _ _ => trivial) lengths h

end Combined

end Format

end Lock

end PackageConfig
