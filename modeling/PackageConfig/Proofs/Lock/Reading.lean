import PackageConfig.Proofs.Lock.Layout
import PackageConfig.Proofs.Outcome

/-!
What can be read, and what the bytes then were.

Reading takes a front of the bytes that is taken for the same value whatever follows it, and
that is the written form of the value or has more bytes than that, since numbers may be
padded. `Reader.Spelled` says so of one reading. It goes along with `>>=`, so each format is
`Spelled` because its parts are, and the value read satisfies what a round trip asks for.
-/

namespace PackageConfig.Lock

variable {α β : Type}

/-! ## One reading -/

/-- Bytes that are the written ones, or more. -/
def Padded (written bytes : List UInt8) : Prop :=
  bytes = written ∨ written.length < bytes.length

theorem Padded.length_le {written bytes : List UInt8} (padded : Padded written bytes) :
    written.length ≤ bytes.length := by
  rcases padded with rfl | more
  · exact Nat.le_refl _
  · exact Nat.le_of_lt more

theorem Padded.append {written bytes written' bytes' : List UInt8} (first : Padded written bytes)
    (second : Padded written' bytes') : Padded (written ++ written') (bytes ++ bytes') := by
  have least := first.length_le
  have least' := second.length_le
  rcases first with rfl | more
  · rcases second with rfl | more'
    · exact .inl rfl
    · refine .inr ?_
      rw [List.length_append, List.length_append]
      omega
  · refine .inr ?_
    rw [List.length_append, List.length_append]
    omega

namespace Reader

/-- A reader takes these bytes for a value, whatever follows them. -/
def Takes (r : Reader α) (front : List UInt8) (a : α) : Prop :=
  ∀ rest, r (front ++ rest) = .ok (a, rest)

theorem Takes.bind {r : Reader α} {next : α → Reader β} {front more : List UInt8} {a : α} {b : β}
    (first : r.Takes front a) (second : (next a).Takes more b) :
    (r >>= next).Takes (front ++ more) b := by
  intro rest
  rw [List.append_assoc]
  exact (bind_of_ok (first (more ++ rest))).trans (second rest)

theorem takes_pure (a : α) : Takes (pure a) [] a := fun _ => rfl

theorem Takes.map {r : Reader α} {front : List UInt8} {a : α} (takes : r.Takes front a)
    (into : α → β) : Reader.Takes (do return into (← r)) front (into a) :=
  fun rest => bind_of_ok (takes rest)

/-- Reading one thing after another succeeds only if both readings do. -/
theorem of_bind {r : Reader α} {next : α → Reader β} {bytes rest : List UInt8} {b : β}
    (read : (r >>= next) bytes = .ok (b, rest)) :
    ∃ a middle, r bytes = .ok (a, middle) ∧ next a middle = .ok (b, rest) := by
  change (r bytes >>= fun p => next p.1 p.2) = .ok (b, rest) at read
  obtain ⟨⟨a, middle⟩, first, second⟩ := Outcome.bind_eq_ok_iff.1 read
  exact ⟨a, middle, first, second⟩

/-- A reading of a value off the front of some bytes: what it took is taken for that value
whatever follows, and is what would be written for it, or longer. -/
def Spelled (r : Reader α) (written bytes : List UInt8) (a : α) (rest : List UInt8) : Prop :=
  ∃ front, bytes = front ++ rest ∧ r.Takes front a ∧ Padded written front

theorem Spelled.bind {r : Reader α} {next : α → Reader β}
    {written written' bytes middle rest : List UInt8} {a : α} {b : β}
    (first : r.Spelled written bytes a middle) (second : (next a).Spelled written' middle b rest) :
    (r >>= next).Spelled (written ++ written') bytes b rest := by
  rcases first with ⟨front, rfl, takes, padded⟩
  rcases second with ⟨more, rfl, takes', padded'⟩
  exact ⟨front ++ more, (List.append_assoc ..).symm, takes.bind takes', padded.append padded'⟩

/-- A last step that takes no bytes makes no difference to them. -/
theorem Spelled.bind_of_takes_nil {r : Reader α} {next : α → Reader β}
    {written bytes rest : List UInt8} {a : α} {b : β} (read : r.Spelled written bytes a rest)
    (made : (next a).Takes [] b) : (r >>= next).Spelled written bytes b rest := by
  have both := read.bind ⟨[], rfl, made, .inl rfl⟩
  rw [List.append_nil] at both
  exact both

theorem Spelled.length_le {r : Reader α} {written bytes rest : List UInt8} {a : α}
    (read : r.Spelled written bytes a rest) : written.length ≤ bytes.length := by
  rcases read with ⟨front, rfl, -, padded⟩
  have least := padded.length_le
  rw [List.length_append]
  omega

end Reader

/-! ## Numbers -/

theorem readNumber_last {top more : Nat} {byte : UInt8} (last : byte.toNat < 128)
    (kept : ¬(more = 0 ∧ top < byte.toNat)) (tail : List UInt8) :
    Reader.Spelled (readNumber top more) (writeNumber byte.toNat) (byte :: tail) byte.toNat
      tail := by
  refine ⟨[byte], rfl, fun rest => ?_, .inl ?_⟩
  · cases more <;> rw [List.cons_append, List.nil_append, readNumber, if_pos last, if_neg kept]
  · rw [writeNumber, if_pos last]
    exact congrArg (fun b => [b]) UInt8.ofNat_toNat.symm

/-- A byte that goes on with the number is part of its written form, unless all that follows
it is zero. -/
theorem readNumber_more {top more high : Nat} {byte : UInt8} {tail rest : List UInt8}
    (goesOn : ¬byte.toNat < 128)
    (following : Reader.Spelled (readNumber top more) (writeNumber high) tail high rest) :
    Reader.Spelled (readNumber top (more + 1)) (writeNumber (byte.toNat - 128 + 128 * high))
      (byte :: tail) (byte.toNat - 128 + 128 * high) rest := by
  have bound : byte.toNat < 256 := byte.toNat_lt
  rcases following with ⟨front, rfl, takes, padded⟩
  refine ⟨byte :: front, rfl, fun rest => ?_, ?_⟩
  · rw [List.cons_append, readNumber, if_neg goesOn, takes rest]
  · by_cases zero : high = 0
    · subst zero
      have one : (writeNumber 0).length = 1 := by decide +kernel
      have least := padded.length_le
      refine .inr ?_
      rw [writeNumber, if_pos (by omega), List.length_singleton, List.length_cons]
      omega
    · have low : (byte.toNat - 128 + 128 * high) % 128 + 128 = byte.toNat := by omega
      have shifted : (byte.toNat - 128 + 128 * high) / 128 = high := by omega
      have head : Padded [byte.toNat.toUInt8] [byte] :=
        .inl (congrArg (fun b => [b]) UInt8.ofNat_toNat.symm)
      rw [writeNumber, if_neg (by omega), low, shifted]
      exact head.append padded

/-- A number that is read is within the width of the reader. -/
theorem readNumber_spelled {top more n : Nat} {bytes rest : List UInt8}
    (read : readNumber top more bytes = .ok (n, rest)) :
    n < (top + 1) * 128 ^ more ∧
      Reader.Spelled (readNumber top more) (writeNumber n) bytes n rest := by
  induction more generalizing n bytes with
  | zero =>
    cases bytes with
    | nil => cases read
    | cons byte tail =>
      rw [readNumber] at read
      split at read
      next last =>
        split at read
        · cases read
        next kept =>
          cases read
          exact ⟨by omega, readNumber_last last kept _⟩
      · cases read
  | succ more ih =>
    cases bytes with
    | nil => cases read
    | cons byte tail =>
      have one : 0 < (top + 1) * 128 ^ more := Nat.mul_pos (by omega) (Nat.pow_pos (by decide))
      have wider : (top + 1) * 128 ^ (more + 1) = (top + 1) * 128 ^ more * 128 := by
        rw [Nat.pow_succ, Nat.mul_assoc]
      rw [readNumber] at read
      split at read
      next last =>
        rw [if_neg (by omega)] at read
        cases read
        exact ⟨by omega, readNumber_last last (by omega) _⟩
      next goesOn =>
        have bound : byte.toNat < 256 := byte.toNat_lt
        cases following : readNumber top more tail with
        | error fault =>
          rw [following] at read
          cases read
        | ok p =>
          rw [following] at read
          cases read
          obtain ⟨small, spelled⟩ := ih following
          exact ⟨by omega, readNumber_more goesOn spelled⟩

theorem readLong_spelled {n : Nat} {bytes rest : List UInt8}
    (read : readLong bytes = .ok (n, rest)) :
    n < 2 ^ 64 ∧ Reader.Spelled readLong (writeNumber n) bytes n rest := by
  obtain ⟨bound, spelled⟩ := readNumber_spelled read
  exact ⟨by omega, spelled⟩

theorem readShort_spelled {n : Nat} {bytes rest : List UInt8}
    (read : readShort bytes = .ok (n, rest)) :
    Reader.Spelled readShort (writeNumber n) bytes n rest :=
  (readNumber_spelled read).2

namespace Format

theorem RoundTrips.takes {f : Format α} {fits : α → Prop} {a : α} (law : f.RoundTrips fits)
    (fit : fits a) : f.read.Takes (f.write a) a :=
  fun rest => law.read_write fit rest

/-! ## The law -/

/-- Whatever the format reads fits, and was spelled. -/
structure Spelled (f : Format α) (fits : α → Prop) : Prop where
  of_read : ∀ {bytes a rest}, f.read bytes = .ok (a, rest) →
    fits a ∧ f.read.Spelled (f.write a) bytes a rest

/-- What is made of a value that was read has the spelling of that value. -/
theorem Spelled.of_map {f : Format α} {fits : α → Prop} (law : f.Spelled fits) {into : α → β}
    {bytes rest : List UInt8} {b : β}
    (read : (do return into (← f.read) : Reader β) bytes = .ok (b, rest)) :
    ∃ a, b = into a ∧ fits a ∧
      Reader.Spelled (do return into (← f.read)) (f.write a) bytes b rest := by
  obtain ⟨a, middle, first, made⟩ := Reader.of_bind read
  cases made
  obtain ⟨fit, spelled⟩ := law.of_read first
  exact ⟨a, rfl, fit, spelled.bind_of_takes_nil (Reader.takes_pure _)⟩

/-! ## Bytes, numbers, switches and texts -/

theorem byte_spelled : byte.Spelled fun _ => True := by
  refine ⟨fun {bytes a rest} read => ?_⟩
  cases bytes with
  | nil => cases read
  | cons b tail =>
    cases read
    exact ⟨trivial, [a], rfl, fun _ => rfl, .inl rfl⟩

theorem long_spelled : long.Spelled fun _ => True := by
  refine ⟨fun {bytes a rest} read => ⟨trivial, ?_⟩⟩
  obtain ⟨n, middle, number, made⟩ := Reader.of_bind read
  cases made
  obtain ⟨bound, spelled⟩ := readLong_spelled number
  have exact : (UInt64.ofNat n).toNat = n := Nat.mod_eq_of_lt bound
  change Reader.Spelled long.read (writeNumber (UInt64.ofNat n).toNat) bytes _ _
  rw [exact]
  exact spelled.bind_of_takes_nil (Reader.takes_pure _)

theorem switch_spelled : switch.Spelled fun _ => True := by
  refine ⟨fun {bytes a rest} read => ⟨trivial, ?_⟩⟩
  cases bytes with
  | nil => cases read
  | cons b tail =>
    obtain ⟨b, middle, first, made⟩ := Reader.of_bind read
    cases first
    split at made
    · cases made
      exact ⟨[0], rfl, fun _ => rfl, .inl rfl⟩
    · cases made
      exact ⟨[1], rfl, fun _ => rfl, .inl rfl⟩
    · cases made

theorem take_spelled {n : Nat} {bytes front rest : List UInt8}
    (read : take n bytes = .ok (front, rest)) :
    front.length = n ∧ Reader.Spelled (take n) front bytes front rest := by
  rw [take] at read
  split at read
  next length =>
    cases read
    refine ⟨length, bytes.take n, (List.take_append_drop n bytes).symm, fun rest => ?_, .inl rfl⟩
    have taken := take_append (bytes.take n) rest
    rw [length] at taken
    exact taken
  · cases read

theorem text_spelled : text.Spelled Text.Fits := by
  refine ⟨fun {bytes s rest} read => ?_⟩
  obtain ⟨n, middle, number, read⟩ := Reader.of_bind read
  obtain ⟨chars, last, taken, made⟩ := Reader.of_bind read
  obtain ⟨bound, spelledNumber⟩ := readLong_spelled number
  obtain ⟨length, spelledChars⟩ := take_spelled taken
  cases known : Text.ofUtf8? chars with
  | none =>
    simp only [known] at made
    cases made
  | some s =>
    simp only [known] at made
    cases made
    have encoded := Text.ofUtf8?_eq_some_iff.1 known
    subst encoded
    subst length
    refine ⟨bound, spelledNumber.bind (spelledChars.bind_of_takes_nil fun rest => ?_)⟩
    simp only [known]
    rfl

/-! ## Formats from formats -/

section Combined

variable {f : Format α} {g : Format β} {fits : α → Prop} {fits' : β → Prop}

theorem pair_spelled (first : f.Spelled fits) (second : g.Spelled fits') :
    (f.pair g).Spelled fun p => fits p.1 ∧ fits' p.2 := by
  refine ⟨fun {bytes p rest} read => ?_⟩
  obtain ⟨a, middle, readFirst, read⟩ := Reader.of_bind read
  obtain ⟨b, last, readSecond, made⟩ := Reader.of_bind read
  cases made
  obtain ⟨fit, spelled⟩ := first.of_read readFirst
  obtain ⟨fit', spelled'⟩ := second.of_read readSecond
  exact ⟨⟨fit, fit'⟩, spelled.bind (spelled'.bind_of_takes_nil (Reader.takes_pure _))⟩

theorem via_spelled {out : β → α} {into : α → β} (law : f.Spelled fits)
    (inverse : ∀ a, out (into a) = a) : (f.via out into).Spelled fun b => fits (out b) := by
  refine ⟨fun {bytes b rest} read => ?_⟩
  obtain ⟨a, middle, readWhole, made⟩ := Reader.of_bind read
  cases made
  obtain ⟨fit, spelled⟩ := law.of_read readWhole
  refine ⟨(inverse a).symm ▸ fit, ?_⟩
  change Reader.Spelled _ (f.write (out (into a))) _ _ _
  rw [inverse]
  exact spelled.bind_of_takes_nil (Reader.takes_pure _)

theorem readItems_spelled (law : f.Spelled fits) (n : Nat) {bytes rest : List UInt8}
    {items : List α} (read : readItems f n bytes = .ok (items, rest)) :
    items.length = n ∧ (∀ a ∈ items, fits a) ∧
      Reader.Spelled (readItems f n) (items.flatMap f.write) bytes items rest := by
  induction n generalizing bytes items with
  | zero =>
    cases read
    exact ⟨rfl, fun a mem => absurd mem List.not_mem_nil, [], rfl, Reader.takes_pure [], .inl rfl⟩
  | succ n ih =>
    obtain ⟨item, middle, readItem, read⟩ := Reader.of_bind read
    obtain ⟨others, last, readOthers, made⟩ := Reader.of_bind read
    cases made
    obtain ⟨fit, spelled⟩ := law.of_read readItem
    obtain ⟨length, fitOthers, spelledOthers⟩ := ih readOthers
    refine ⟨congrArg Nat.succ length, List.forall_mem_cons.2 ⟨fit, fitOthers⟩, ?_⟩
    rw [List.flatMap_cons]
    exact spelled.bind (spelledOthers.bind_of_takes_nil (Reader.takes_pure _))

theorem list_spelled (law : f.Spelled fits) :
    (list f).Spelled fun items => items.length < 2 ^ 64 ∧ ∀ a ∈ items, fits a := by
  refine ⟨fun {bytes items rest} read => ?_⟩
  obtain ⟨n, middle, number, readAll⟩ := Reader.of_bind read
  obtain ⟨bound, spelledNumber⟩ := readLong_spelled number
  obtain ⟨length, fit, spelledItems⟩ := readItems_spelled law n readAll
  subst length
  exact ⟨⟨bound, fit⟩, spelledNumber.bind spelledItems⟩

end Combined

/-! ## Values, states and pins -/

theorem value_spelled : value.Spelled fun v => ∀ s ∈ v.texts, Text.Fits s := by
  refine ⟨fun {bytes v rest} read => ?_⟩
  obtain ⟨kind, middle, number, read⟩ := Reader.of_bind read
  have spelledKind := readShort_spelled number
  split at read
  · obtain ⟨on, rfl, -, spelled⟩ := switch_spelled.of_map read
    exact ⟨fun s mem => absurd mem List.not_mem_nil, spelledKind.bind spelled⟩
  · obtain ⟨s, rfl, fit, spelled⟩ := text_spelled.of_map read
    exact ⟨List.forall_mem_singleton.2 fit, spelledKind.bind spelled⟩
  · cases read

theorem state_spelled : state.Spelled fun s => ∀ t ∈ s.texts, Text.Fits t := by
  refine ⟨fun {bytes s rest} read => ?_⟩
  obtain ⟨kind, middle, number, read⟩ := Reader.of_bind read
  have spelledKind := readShort_spelled number
  split at read
  · obtain ⟨v, rfl, fit, spelled⟩ := value_spelled.of_map read
    exact ⟨fit, spelledKind.bind spelled⟩
  · obtain ⟨rule, rfl, fit, spelled⟩ := text_spelled.of_map read
    exact ⟨List.forall_mem_singleton.2 fit, spelledKind.bind spelled⟩
  · obtain ⟨rule, rfl, fit, spelled⟩ := text_spelled.of_map read
    exact ⟨List.forall_mem_singleton.2 fit, spelledKind.bind spelled⟩
  · obtain ⟨name, rfl, fit, spelled⟩ := text_spelled.of_map read
    exact ⟨List.forall_mem_singleton.2 fit, spelledKind.bind spelled⟩
  · cases read

theorem pin_spelled : pin.Spelled fun p => Text.Fits p.name ∧ Text.Fits p.version :=
  via_spelled (pair_spelled text_spelled text_spelled) fun _ => rfl

/-! ## Locks and headers -/

/-- A lock that was read can be read back. -/
theorem lock_spelled : lock.Spelled Lock.Fits := by
  have fields : lock.Spelled _ := via_spelled (pair_spelled text_spelled
    (pair_spelled switch_spelled
      (pair_spelled (list_spelled (pair_spelled text_spelled state_spelled))
        (pair_spelled (list_spelled pin_spelled)
          (list_spelled (pair_spelled text_spelled value_spelled)))))) fun _ => rfl
  refine ⟨fun {bytes l rest} read => ?_⟩
  obtain ⟨⟨platform, -, lists⟩, spelled⟩ := fields.of_read read
  exact ⟨fits_iff.2 ⟨platform, lists⟩, spelled⟩

theorem header_spelled : header.Spelled fun _ => True := by
  have fields : header.Spelled _ := via_spelled (pair_spelled (pair_spelled byte_spelled
    (pair_spelled byte_spelled (pair_spelled byte_spelled byte_spelled)))
    (pair_spelled byte_spelled (pair_spelled long_spelled (pair_spelled long_spelled
      (pair_spelled long_spelled long_spelled))))) fun _ => rfl
  exact ⟨fun read => ⟨trivial, (fields.of_read read).2⟩⟩

end Format

end PackageConfig.Lock
