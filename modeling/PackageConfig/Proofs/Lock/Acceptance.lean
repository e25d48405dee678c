import PackageConfig.Proofs.Lock.Reading
import PackageConfig.Proofs.Lock.Injectivity
import PackageConfig.Proofs.Outcome

/-!
Which bytes are a lockfile.

The checks of reading come down to three facts: the first four bytes tell where the header
ends, the header that stands there is the one of the lock that follows it, and no list of that
lock is too long (`ofBytes_eq_ok_iff`). What was read was spelled, so the lockfile that is
written for it is read back too, and no accepted bytes are shorter.
-/

namespace PackageConfig.Lock

/-! ## The frame -/

/-- Four bytes are the written form of the number that they hold. -/
theorem fourBytes_numberOfFour (a b c d : UInt8) :
    ∃ n : UInt32, n.toNat = numberOfFour a b c d ∧ fourBytes n = [a, b, c, d] := by
  have boundA : a.toNat < 256 := a.toNat_lt
  have boundB : b.toNat < 256 := b.toNat_lt
  have boundC : c.toNat < 256 := c.toNat_lt
  have boundD : d.toNat < 256 := d.toNat_lt
  have small : numberOfFour a b c d < 2 ^ 32 := by
    unfold numberOfFour
    omega
  obtain ⟨n, value⟩ : ∃ n : UInt32, n.toNat = numberOfFour a b c d :=
    ⟨UInt32.ofNat _, Nat.mod_eq_of_lt small⟩
  refine ⟨n, value, ?_⟩
  unfold numberOfFour at value
  simp only [fourBytes, List.cons.injEq, ← UInt8.toNat_inj, UInt32.toNat_toUInt8,
    UInt32.toNat_shiftRight, UInt32.reduceToNat, Nat.reduceMod, Nat.shiftRight_eq_div_pow, value,
    and_true]
  omega

theorem eq_toUInt32 {k : UInt32} {n : Nat} (value : k.toNat = n) : k = n.toUInt32 := by
  rw [← value]
  exact UInt32.ofNat_toNat.symm

/-- Bytes are split at the place that the first four of them tell. -/
theorem split_eq_ok_iff {bytes header body : List UInt8} :
    split bytes = .ok (header, body) ↔
      ∃ k : UInt32, k.toNat = header.length ∧ bytes = fourBytes k ++ header ++ body := by
  constructor
  · intro found
    unfold split at found
    split at found
    next a b c d rest =>
      dsimp only at found
      split at found
      next length =>
        cases found
        obtain ⟨k, value, written⟩ := fourBytes_numberOfFour a b c d
        refine ⟨k, value.trans length.symm, ?_⟩
        rw [written, List.append_assoc, List.take_append_drop]
        rfl
      · cases found
    · cases found
  · intro framed
    rcases framed with ⟨k, value, rfl⟩
    rw [eq_toUInt32 value]
    exact split_fourBytes (value ▸ k.toNat_lt) body

theorem decode_eq_ok_iff {α : Type} {format : Format α} {wrap : DecodeFault → LockFault}
    {bytes : List UInt8} {a : α} :
    decode format wrap bytes = .ok a ↔ ∃ ignored, format.read bytes = .ok (a, ignored) := by
  unfold decode
  cases format.read bytes with
  | error fault => simp
  | ok p => simp [Prod.ext_iff]

/-! ## The checks -/

theorem check_eq_ok_iff {h : Header} :
    h.check = .ok () ↔ h.mark = Header.knownMark ∧ h.version = Header.knownVersion ∧
      h.optionCount.toNat ≤ LockList.limit ∧ h.pinCount.toNat ≤ LockList.limit ∧
      h.variableCount.toNat ≤ LockList.limit := by
  have count (list : LockList) (n : UInt64) :
      Header.checkCount list n = .ok () ↔ n.toNat ≤ LockList.limit := by
    unfold Header.checkCount
    split
    next le => simp [le]
    next gt => simp [gt]
  unfold Header.check
  simp only [Outcome.check_eq_ok_iff, Outcome.bind_eq_ok_iff, count, ne_eq, Decidable.not_not,
    exists_const]

theorem counts_eq_true_iff {h : Header} {lock : Lock} :
    h.counts lock = true ↔ lock.options.length.toUInt64 = h.optionCount ∧
      lock.pins.length.toUInt64 = h.pinCount ∧ lock.table.length.toUInt64 = h.variableCount := by
  simp [Header.counts, and_assoc]

/-- A header that passes the checks and announces a lock is the one of that lock, and no list
of the lock is too long. -/
theorem announces_iff {h : Header} {lock : Lock} (fits : lock.Fits) :
    h.check = .ok () ∧ lock.checksum = h.checksum ∧ h.counts lock = true ↔
      h = .ofLock lock ∧ ∀ list, lock.count list ≤ LockList.limit := by
  rw [check_eq_ok_iff, counts_eq_true_iff]
  constructor
  · intro passed
    obtain ⟨mark, version, checksum, options, pins, table⟩ := h
    rcases passed with ⟨⟨rfl, rfl, fewOptions, fewPins, fewVariables⟩, rfl, rfl, rfl, rfl⟩
    refine ⟨rfl, fun list => ?_⟩
    rw [← fits.toNat_count list]
    cases list with
    | options => exact fewOptions
    | pins => exact fewPins
    | table => exact fewVariables
  · intro announced
    rcases announced with ⟨rfl, few⟩
    have short (list : LockList) : (lock.count list).toUInt64.toNat ≤ LockList.limit := by
      rw [fits.toNat_count list]
      exact few list
    refine ⟨⟨rfl, rfl, short .options, short .pins, short .table⟩, ?_⟩
    simp only [Header.ofLock, and_self]

/-! ## Accepted bytes -/

/-- Reading a lockfile succeeds when each of its steps does. -/
theorem ofBytes_eq_ok_iff_steps {bytes : List UInt8} {lock : Lock} :
    ofBytes bytes = .ok lock ↔
      ∃ header body h, split bytes = .ok (header, body) ∧
        decode Format.header .header header = .ok h ∧ decode Format.lock .body body = .ok lock ∧
        h.check = .ok () ∧ lock.checksum = h.checksum ∧ h.counts lock = true := by
  unfold ofBytes
  simp only [Outcome.bind_eq_ok_iff, Outcome.check_eq_ok_iff]
  constructor
  · intro steps
    rcases steps with
      ⟨⟨header, body⟩, framed, h, first, ⟨⟩, passed, found, second, sum, counts, made⟩
    cases made
    exact ⟨header, body, h, framed, first, second, passed, by simpa using sum,
      by simpa using counts⟩
  · intro steps
    rcases steps with ⟨header, body, h, framed, first, second, passed, sum, counts⟩
    exact ⟨⟨header, body⟩, framed, h, first, (), passed, lock, second, by simpa using sum,
      by simpa using counts, rfl⟩

/-- A header with its length in front, and a body. -/
theorem ofBytes_framed_iff {header body : List UInt8} {lock : Lock}
    (short : header.length < UInt32.size) :
    ofBytes (fourBytes header.length.toUInt32 ++ header ++ body) = .ok lock ↔
      (∃ ignored, Format.header.read header = .ok (.ofLock lock, ignored)) ∧
        (∃ ignored, Format.lock.read body = .ok (lock, ignored)) ∧
        ∀ list, lock.count list ≤ LockList.limit := by
  rw [ofBytes_eq_ok_iff_steps, split_fourBytes short]
  constructor
  · intro steps
    rcases steps with ⟨header, body, h, framed, first, second, announced⟩
    cases framed
    obtain ⟨ignored, readBody⟩ := decode_eq_ok_iff.1 second
    obtain ⟨fits, -⟩ := Format.lock_spelled.of_read readBody
    obtain ⟨rfl, few⟩ := (announces_iff fits).1 announced
    exact ⟨decode_eq_ok_iff.1 first, ⟨ignored, readBody⟩, few⟩
  · intro parts
    rcases parts with ⟨readHeader, ⟨ignored, readBody⟩, few⟩
    obtain ⟨fits, -⟩ := Format.lock_spelled.of_read readBody
    exact ⟨header, body, .ofLock lock, rfl, decode_eq_ok_iff.2 readHeader,
      decode_eq_ok_iff.2 ⟨ignored, readBody⟩, (announces_iff fits).2 ⟨rfl, few⟩⟩

/-- Bytes are a lockfile exactly if they are a header with its length in front and a body, the
header reads as the one of a lock without too long a list, and the body as that lock. -/
theorem ofBytes_eq_ok_iff {bytes : List UInt8} {lock : Lock} :
    ofBytes bytes = .ok lock ↔
      ∃ (k : UInt32) (header body ignored ignored' : List UInt8),
        bytes = fourBytes k ++ header ++ body ∧ k.toNat = header.length ∧
        Format.header.read header = .ok (.ofLock lock, ignored) ∧
        Format.lock.read body = .ok (lock, ignored') ∧
        ∀ list, lock.count list ≤ LockList.limit := by
  constructor
  · intro read
    obtain ⟨header, body, -, framed, -⟩ := ofBytes_eq_ok_iff_steps.1 read
    obtain ⟨k, value, rfl⟩ := split_eq_ok_iff.1 framed
    rw [eq_toUInt32 value] at read ⊢
    obtain ⟨⟨ignored, readHeader⟩, ⟨ignored', readBody⟩, few⟩ :=
      (ofBytes_framed_iff (value ▸ k.toNat_lt)).1 read
    exact ⟨_, header, body, ignored, ignored', rfl, eq_toUInt32 value ▸ value, readHeader,
      readBody, few⟩
  · intro parts
    rcases parts with ⟨k, header, body, ignored, ignored', rfl, value, readHeader, readBody, few⟩
    rw [eq_toUInt32 value]
    exact (ofBytes_framed_iff (value ▸ k.toNat_lt)).2
      ⟨⟨ignored, readHeader⟩, ⟨ignored', readBody⟩, few⟩

/-- A lock without too long a list, and with texts of 64-bit lengths, can be read. -/
theorem fits_of_short {lock : Lock} (texts : ∀ s ∈ lock.texts, Text.Fits s)
    (short : ∀ list, lock.count list ≤ LockList.limit) : lock.Fits :=
  ⟨texts, fun list => Nat.lt_of_le_of_lt (short list) (by decide)⟩

/-- Which bytes are accepted as a lock: four bytes that hold the length of the header, a header
that reads as the one of the lock, and a body that reads as the lock, the lists of which are not
too long; what follows the header, within its length, and what follows the lock is ignored.
Then the lockfile that is written for the lock is accepted too, and is not longer. -/
theorem accepted_bytes (bytes : List UInt8) (lock : Lock) :
    (ofBytes bytes = .ok lock ↔
      ∃ (k : UInt32) (header body ignored ignored' : List UInt8),
        bytes = fourBytes k ++ header ++ body ∧ k.toNat = header.length ∧
        Format.header.read header = .ok (.ofLock lock, ignored) ∧
        Format.lock.read body = .ok (lock, ignored') ∧ ∀ list, lock.count list ≤ 100000) ∧
      (ofBytes bytes = .ok lock →
        ofBytes lock.toBytes = .ok lock ∧ lock.toBytes.length ≤ bytes.length) := by
  refine ⟨ofBytes_eq_ok_iff, fun read => ?_⟩
  obtain ⟨k, header, body, ignored, ignored', rfl, value, readHeader, readBody, short⟩ :=
    ofBytes_eq_ok_iff.1 read
  obtain ⟨-, spelledHeader⟩ := Format.header_spelled.of_read readHeader
  obtain ⟨fits, spelledBody⟩ := Format.lock_spelled.of_read readBody
  refine ⟨ofBytes_toBytes_of_le fits.texts short, ?_⟩
  have headerLength := spelledHeader.length_le
  have bodyLength := spelledBody.length_le
  have frame (n : UInt32) : (fourBytes n).length = 4 := rfl
  simp only [toBytes, List.length_append, frame]
  omega

theorem count_sample_le (list : LockList) : (sample 1).count list ≤ 100000 := by
  cases list <;> decide

/-- A lockfile with one number of its header padded, and with bytes behind the header and
behind the lock. -/
theorem accepted_bytes_padded :
    let header := [0x41, 0x45, 0x43, 0x46, 1, 0x82, 0, 1, 1,
      230, 144, 158, 211, 134, 208, 235, 235, 38, 7]
    let bytes := fourBytes 19 ++ header ++ (Format.lock.write (sample 1) ++ [9, 9])
    ofBytes bytes = .ok (sample 1) ∧ ofBytes (sample 1).toBytes = .ok (sample 1) ∧
      (sample 1).toBytes.length ≤ bytes.length := by
  intro header bytes
  have announced : Header.ofLock (sample 1) =
      ⟨Header.knownMark, 1, 2, 1, 1, 2798897559998269542⟩ := by decide +kernel
  have readHeader : Format.header.read header = .ok (.ofLock (sample 1), [7]) := by
    rw [announced]
    rfl
  have readBody : Format.lock.read (Format.lock.write (sample 1) ++ [9, 9]) =
      .ok (sample 1, [9, 9]) :=
    Format.lock_roundTrips.read_write (fits_sample (by decide)) _
  have accepted : ofBytes bytes = .ok (sample 1) :=
    (accepted_bytes bytes (sample 1)).1.2
      ⟨19, header, _, [7], [9, 9], rfl, rfl, readHeader, readBody, count_sample_le⟩
  exact ⟨accepted, (accepted_bytes bytes (sample 1)).2 accepted⟩

/-! ## Cut and extended lockfiles -/

/-- A written value is not read from a part of its bytes: that part would be taken for a value
whatever follows it, and so also in the whole. -/
theorem Format.cut_eq_nil {α : Type} {f : Format α} {fits : α → Prop} {a b : α}
    {part cut rest : List UInt8} (law : f.RoundTrips fits) (spelled : f.Spelled fits)
    (fit : fits a) (whole : part ++ cut = f.write a) (read : f.read part = .ok (b, rest)) :
    cut = [] := by
  obtain ⟨-, front, rfl, takes, -⟩ := spelled.of_read read
  have readWhole := law.read_write fit []
  rw [List.append_nil, ← whole, List.append_assoc, takes] at readWhole
  cases rest with
  | nil => exact congrArg Prod.snd (Except.ok.inj readWhole)
  | cons byte rest => cases readWhole

/-- A part of a lockfile that is split has the whole header, and so lacks bytes of the lock. -/
theorem split_toBytes {lock : Lock} {part cut header body : List UInt8}
    (whole : part ++ cut = lock.toBytes) (framed : split part = .ok (header, body)) :
    body ++ cut = Format.lock.write lock := by
  obtain ⟨k, value, rfl⟩ := split_eq_ok_iff.1 framed
  have extended : split lock.toBytes = .ok (header, body ++ cut) := by
    rw [← whole, List.append_assoc]
    exact split_eq_ok_iff.2 ⟨k, value, rfl⟩
  rw [toBytes, split_fourBytes lock.length_header_lt] at extended
  exact (Prod.mk.inj (Except.ok.inj extended)).2.symm

/-- No part of a lockfile that lacks bytes at its end is accepted, as whatever lock, and bytes
that follow a lockfile make no difference. -/
theorem cut_refused_extended_accepted {lock : Lock} (texts : ∀ s ∈ lock.texts, Text.Fits s)
    (short : ∀ list, lock.count list ≤ 100000) :
    (∀ part, part <+: lock.toBytes → part ≠ lock.toBytes → ∃ fault, ofBytes part = .error fault) ∧
      ∀ more, ofBytes (lock.toBytes ++ more) = .ok lock := by
  have fits := fits_of_short texts short
  refine ⟨fun part within proper => ?_, fun more => ?_⟩
  · refine Outcome.exists_error_of_ne_ok fun other accepted => ?_
    obtain ⟨cut, whole⟩ := within
    obtain ⟨header, body, h, framed, -, second, -⟩ := ofBytes_eq_ok_iff_steps.1 accepted
    obtain ⟨rest, readBody⟩ := decode_eq_ok_iff.1 second
    have wholeBody := split_toBytes whole framed
    have nothing : cut = [] :=
      Format.cut_eq_nil Format.lock_roundTrips Format.lock_spelled fits wholeBody readBody
    rw [nothing, List.append_nil] at whole
    exact proper whole
  · have readHeader := Format.header_roundTrips.read_write (a := .ofLock lock) trivial []
    rw [List.append_nil] at readHeader
    rw [toBytes, List.append_assoc]
    exact (ofBytes_framed_iff lock.length_header_lt).2
      ⟨⟨[], readHeader⟩, ⟨more, Format.lock_roundTrips.read_write fits more⟩, short⟩

theorem cut_refused_extended_accepted_sample :
    (∀ s ∈ (sample 1).texts, Text.Fits s) ∧ (∀ list, (sample 1).count list ≤ 100000) ∧
      (∃ fault, ofBytes ((sample 1).toBytes.take 40) = .error fault) ∧
      ofBytes ((sample 1).toBytes ++ [0x41, 0x45]) = .ok (sample 1) := by
  have fits : (sample 1).Fits := fits_sample (by decide)
  have proper : (sample 1).toBytes.take 40 ≠ (sample 1).toBytes := by decide +kernel
  obtain ⟨refused, accepted⟩ := cut_refused_extended_accepted fits.texts count_sample_le
  exact ⟨fits.texts, count_sample_le, refused _ ⟨_, List.take_append_drop 40 _⟩ proper, accepted _⟩

end PackageConfig.Lock
