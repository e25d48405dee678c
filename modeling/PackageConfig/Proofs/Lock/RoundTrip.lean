import PackageConfig.Lock.File
import PackageConfig.Proofs.Lock.Layout

/-!
What is written as a lockfile is read back.

Every resolution can be written. A lock whose lengths are numbers of 64 bits is read back
exactly if none of its lists is longer than a lockfile may announce; otherwise reading
names the first list that is too long. The limit stands on the reading side only: a lock
beyond it is written all the same.
-/

namespace PackageConfig

namespace Lock

/-! ## The frame -/

theorem numberOfFour_fourBytes (n : UInt32) :
    numberOfFour n.toUInt8 (n >>> 8).toUInt8 (n >>> 16).toUInt8 (n >>> 24).toUInt8 = n.toNat := by
  have bound : n.toNat < 2 ^ 32 := n.toNat_lt
  simp only [numberOfFour, UInt32.toNat_toUInt8, UInt32.toNat_shiftRight, UInt32.reduceToNat,
    Nat.reduceMod, Nat.shiftRight_eq_div_pow]
  omega

/-- A header in front of which its length stands is split off from what follows it. -/
theorem split_fourBytes {header : List UInt8} (short : header.length < UInt32.size)
    (body : List UInt8) :
    split (fourBytes header.length.toUInt32 ++ header ++ body) = .ok (header, body) := by
  have length : header.length.toUInt32.toNat = header.length := Nat.mod_eq_of_lt short
  simp only [fourBytes, List.cons_append, List.nil_append, split, numberOfFour_fourBytes, length,
    List.take_left, List.drop_left, if_true]

/-- The header of a lock is short enough for the four bytes of its length. -/
theorem length_header_lt (lock : Lock) :
    (Format.header.write (.ofLock lock)).length < UInt32.size :=
  Nat.lt_of_le_of_lt (Format.length_header_le _) (by decide)

theorem encode_eq_ok (lock : Lock) : lock.encode = .ok lock.toBytes :=
  if_pos lock.length_header_lt

theorem decode_write {α : Type} {format : Format α} {fits : α → Prop}
    (law : format.RoundTrips fits) {a : α} (fit : fits a) (wrap : DecodeFault → LockFault) :
    decode format wrap (format.write a) = .ok a := by
  have read := law.read_write fit []
  rw [List.append_nil] at read
  rw [decode, read]

/-! ## The limit on the lists -/

/-- The first list of a lock that is longer than a lockfile may announce. -/
def firstTooLong? (lock : Lock) : Option LockList :=
  [LockList.options, .pins, .table].find? fun list => LockList.limit < lock.count list

/-- A length of 64 bits is refused by the header exactly when it exceeds the limit. -/
theorem checkCount_toUInt64 (list : LockList) {n : Nat} (fits : n < 2 ^ 64) :
    Header.checkCount list n.toUInt64 =
      if LockList.limit < n then .error (.tooMany list n.toUInt64) else .ok () := by
  have exact : n.toUInt64.toNat = n := Nat.mod_eq_of_lt fits
  rw [Header.checkCount, exact]
  split
  next le => rw [if_neg (by omega)]
  next gt => rw [if_pos (by omega)]

/-- The check of its header finds the first list of a lock that is too long. -/
theorem check_ofLock {lock : Lock} (fits : lock.Fits) :
    (Header.ofLock lock).check =
      match lock.firstTooLong? with
      | none => .ok ()
      | some list => .error (.tooMany list (lock.count list).toUInt64) := by
  have options := checkCount_toUInt64 .options (fits.lists .options)
  have pins := checkCount_toUInt64 .pins (fits.lists .pins)
  have table := checkCount_toUInt64 .table (fits.lists .table)
  have known : (Header.ofLock lock).check = (do
      Header.checkCount .options (lock.count .options).toUInt64
      Header.checkCount .pins (lock.count .pins).toUInt64
      Header.checkCount .table (lock.count .table).toUInt64) := rfl
  rw [known, options, pins, table]
  simp only [firstTooLong?, List.find?_cons, List.find?_nil]
  by_cases manyOptions : LockList.limit < lock.count .options
  · simp only [manyOptions, if_true, decide_true]
    rfl
  by_cases manyPins : LockList.limit < lock.count .pins
  · simp only [manyOptions, manyPins, if_true, if_false, decide_true, decide_false]
    rfl
  by_cases manyVariables : LockList.limit < lock.count .table
  · simp only [manyOptions, manyPins, manyVariables, if_true, if_false, decide_true, decide_false]
    rfl
  · simp only [manyOptions, manyPins, manyVariables, if_false, decide_false]
    rfl

theorem message_tooMany (list : LockList) {n : Nat} (fits : n < 2 ^ 64) :
    (LockFault.tooMany list n.toUInt64).message =
      s!"{list.shown} count {n} exceeds maximum allowed 100000" := by
  have exact : n.toUInt64.toNat = n := Nat.mod_eq_of_lt fits
  have count : toString n.toUInt64 = toString n := by
    change toString n.toUInt64.toNat = toString n
    rw [exact]
  have limit : " exceeds maximum allowed " ++ toString LockList.limit =
      " exceeds maximum allowed 100000" := by decide
  calc (LockFault.tooMany list n.toUInt64).message
    _ = list.shown ++ " count " ++ toString n.toUInt64 ++
          " exceeds maximum allowed " ++ toString LockList.limit := rfl
    _ = list.shown ++ " count " ++ toString n ++
          (" exceeds maximum allowed " ++ toString LockList.limit) := by
      rw [count, String.append_assoc]
    _ = list.shown ++ " count " ++ toString n ++ " exceeds maximum allowed 100000" := by
      rw [limit]

/-! ## Reading what was written -/

/-- Reading a written lock comes down to the check of its header. -/
theorem ofBytes_toBytes {lock : Lock} (fits : lock.Fits) :
    ofBytes lock.toBytes = (Header.ofLock lock).check.map fun _ => lock := by
  have frame := split_fourBytes lock.length_header_lt (Format.lock.write lock)
  have header := decode_write Format.header_roundTrips (a := .ofLock lock) trivial .header
  have body := decode_write Format.lock_roundTrips fits .body
  have counts : (Header.ofLock lock).counts lock = true := by simp [Header.counts, Header.ofLock]
  have checksum : (Header.ofLock lock).checksum = lock.checksum := by simp only [Header.ofLock]
  simp only [ofBytes, toBytes, frame]
  simp only [bind, Except.bind, header]
  cases (Header.ofLock lock).check with
  | error fault => rfl
  | ok =>
    simp only [body, counts, checksum, ne_eq, not_true_eq_false, if_false, Bool.not_true,
      Bool.false_eq_true]
    rfl

end Lock

theorem Resolution.lockFile_eq_ok (r : Resolution) : r.lockFile = .ok r.lockBytes := by
  rw [lockFile, Lock.encode_eq_ok]
  rfl

namespace Lock

/-- Every resolution is written, and what was written is read back unless a list of it is
too long; then reading names the first such list and its length. -/
theorem lockfile_read_back :
    (∀ r : Resolution, r.lockFile = .ok (Lock.ofResolution r).toBytes) ∧
      ∀ lock : Lock, lock.Fits →
        match lock.firstTooLong? with
        | none => ofBytes lock.toBytes = .ok lock
        | some list => ∃ fault : LockFault, ofBytes lock.toBytes = .error fault ∧
            fault.message =
              s!"{list.shown} count {lock.count list} exceeds maximum allowed 100000" := by
  refine ⟨Resolution.lockFile_eq_ok, fun lock fits => ?_⟩
  have read := ofBytes_toBytes fits
  rw [check_ofLock fits] at read
  cases tooLong : lock.firstTooLong? with
  | none =>
    rw [tooLong] at read
    exact read
  | some list =>
    rw [tooLong] at read
    exact ⟨_, read, message_tooMany list (fits.lists list)⟩

/-- A lock with a value of each kind, and as many pins as asked for. -/
def sample (pins : Nat) : Lock where
  platform := "x86_64-linux-gcc"
  shared := true
  options := [("fPIC", .absent (.optionRule "remove fPIC when shared=true")),
    ("shared", .present (.flag true))]
  pins := List.replicate pins ⟨"zlib", "1.2.13"⟩
  table := [("backend", .text "gl")]

theorem fits_sample {pins : Nat} (fits : pins < 2 ^ 64) : (sample pins).Fits where
  texts := by
    intro s mem
    have known : s ∈ (sample 1).texts := by
      rw [mem_texts] at mem ⊢
      refine mem.imp_right (.imp_right (.imp_left ?_))
      intro inPin
      rcases inPin with ⟨pin, inPins, part⟩
      exact ⟨pin, List.mem_singleton.2 (List.eq_of_mem_replicate inPins), part⟩
    have short : ∀ s ∈ (sample 1).texts, (Text.utf8 s).length < 2 ^ 64 := by decide
    exact short s known
  lists := by
    intro list
    cases list with
    | options => exact (by decide : 2 < 2 ^ 64)
    | pins => simpa [count, sample] using fits
    | table => exact (by decide : 1 < 2 ^ 64)

theorem firstTooLong?_sample {pins : Nat} (many : LockList.limit < pins) :
    (sample pins).firstTooLong? = some .pins := by
  have few : ¬ LockList.limit < 2 := by decide
  simp [firstTooLong?, count, sample, many, few]

theorem lockfile_read_back_sample :
    (sample 1).Fits ∧ ofBytes (sample 1).toBytes = .ok (sample 1) ∧
      (sample 100001).Fits ∧ ∃ fault : LockFault, ofBytes (sample 100001).toBytes = .error fault ∧
        fault.message = s!"Requirement count {100001} exceeds maximum allowed 100000" := by
  have one : (sample 1).firstTooLong? = none := by decide
  have read := lockfile_read_back.2 (sample 1) (fits_sample (by decide))
  rw [one] at read
  have refused {pins : Nat} (many : LockList.limit < pins) (fits : pins < 2 ^ 64) :
      ∃ fault : LockFault, ofBytes (sample pins).toBytes = .error fault ∧
        fault.message = s!"Requirement count {pins} exceeds maximum allowed 100000" := by
    have stops := lockfile_read_back.2 (sample pins) (fits_sample fits)
    have length : (sample pins).count .pins = pins := List.length_replicate
    rw [firstTooLong?_sample many] at stops
    simp only [length] at stops
    exact stops
  exact ⟨fits_sample (by decide), read, fits_sample (by decide), refused (by decide) (by decide)⟩

end Lock

end PackageConfig
