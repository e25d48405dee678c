import PackageConfig.Proofs.Lock.Acceptance

/-!
The checksum stands for the whole lock.

The bytes that are hashed do not tell how long the lists of the lock are, and the number of a
kind means one thing for a state, another for a value, and a third as the length of a text. Yet
they can be read in one way once the three lengths are known, since every entry shows where it
ends. The header of a lockfile has these lengths, so a lock that passes for the one that a header
announces either is that lock or has another stream with the same hash.
-/

namespace PackageConfig.Lock

/-! ## The hash -/

/-- The hash FNV-1a of 64 bits, on numbers: each byte is put into the hash by an exclusive or,
and the result is multiplied by the prime `2 ^ 40 + 2 ^ 8 + 0xb3`. -/
def fnv1a (bytes : List UInt8) : Nat :=
  bytes.foldl (fun hash byte => (hash ^^^ byte.toNat) * 1099511628211 % 2 ^ 64)
    14695981039346656037

theorem toNat_hash (bytes : List UInt8) : (hash bytes).toNat = fnv1a bytes := by
  have step (h : UInt64) (byte : UInt8) :
      (h.toNat ^^^ byte.toNat) * 1099511628211 % 2 ^ 64 = (hashByte h byte).toNat := by
    simp only [hashByte, UInt64.toNat_mul, UInt64.toNat_xor, UInt8.toNat_toUInt64]
    rfl
  exact (List.foldl_hom UInt64.toNat step).symm

example : fnv1a "foobar".toUTF8.toList = 0x85944171f73967e8 := by decide +kernel

/-- Two different streams have the same hash. -/
def Collide (s t : List UInt8) : Prop :=
  s ≠ t ∧ fnv1a s = fnv1a t

/-! ## Where the parts of a stream end -/

theorem eightBytes_eq (n : UInt64) :
    eightBytes n = [n.toUInt8, (n >>> 8).toUInt8, (n >>> 16).toUInt8, (n >>> 24).toUInt8,
      (n >>> 32).toUInt8, (n >>> 40).toUInt8, (n >>> 48).toUInt8, (n >>> 56).toUInt8] :=
  rfl

theorem eightBytes_injective : Function.Injective eightBytes := by
  intro m n same
  have boundM : m.toNat < 2 ^ 64 := m.toNat_lt
  have boundN : n.toNat < 2 ^ 64 := n.toNat_lt
  simp only [eightBytes_eq, List.cons.injEq, ← UInt8.toNat_inj, UInt64.toNat_toUInt8,
    UInt64.toNat_shiftRight, UInt64.reduceToNat, Nat.reduceMod, Nat.shiftRight_eq_div_pow,
    and_true] at same
  rw [← UInt64.toNat_inj]
  omega

theorem streamText_selfDelimiting : SelfDelimiting streamText Text.Fits := by
  constructor
  intro a b fit other s t h
  simp only [streamText, List.append_assoc] at h
  obtain ⟨sizes, h⟩ := List.append_inj h rfl
  have lengths := congrArg UInt64.toNat (eightBytes_injective sizes)
  rw [Nat.toUInt64_eq, Nat.toUInt64_eq, UInt64.toNat_ofNat_of_lt' fit,
    UInt64.toNat_ofNat_of_lt' other] at lengths
  obtain ⟨bytes, tails⟩ := List.append_inj h lengths
  exact ⟨Text.utf8_injective bytes, tails⟩

theorem streamSwitch_selfDelimiting : SelfDelimiting streamSwitch fun _ => True :=
  Format.switch_unambiguous.selfDelimiting

theorem streamValue_selfDelimiting :
    SelfDelimiting streamValue fun v => ∀ s ∈ v.texts, Text.Fits s := by
  constructor
  intro v w fit other s t h
  cases v <;> cases w <;> obtain ⟨kinds, h⟩ := List.cons.inj h
  case flag.flag =>
    obtain ⟨rfl, tails⟩ := streamSwitch_selfDelimiting.append_inj trivial trivial h
    exact ⟨rfl, tails⟩
  case text.text =>
    obtain ⟨rfl, tails⟩ := streamText_selfDelimiting.append_inj (fit _ List.mem_cons_self)
      (other _ List.mem_cons_self) h
    exact ⟨rfl, tails⟩
  all_goals cases kinds

theorem streamState_selfDelimiting :
    SelfDelimiting streamState fun state => ∀ s ∈ state.texts, Text.Fits s := by
  constructor
  intro a b fit other s t h
  have reasons {r r' : String} (mem : r ∈ a.texts) (mem' : r' ∈ b.texts)
      (h : streamText r ++ s = streamText r' ++ t) : r = r' ∧ s = t :=
    streamText_selfDelimiting.append_inj (fit r mem) (other r' mem') h
  rcases a with v | (rule | rule | name) <;> rcases b with w | (rule' | rule' | name') <;>
    obtain ⟨kinds, h⟩ := List.cons.inj h
  case present.present =>
    obtain ⟨rfl, tails⟩ := streamValue_selfDelimiting.append_inj fit other h
    exact ⟨rfl, tails⟩
  case absent.optionRule.absent.optionRule =>
    obtain ⟨rfl, tails⟩ := reasons List.mem_cons_self List.mem_cons_self h
    exact ⟨rfl, tails⟩
  case absent.platformRule.absent.platformRule =>
    obtain ⟨rfl, tails⟩ := reasons List.mem_cons_self List.mem_cons_self h
    exact ⟨rfl, tails⟩
  case absent.parent.absent.parent =>
    obtain ⟨rfl, tails⟩ := reasons List.mem_cons_self List.mem_cons_self h
    exact ⟨rfl, tails⟩
  all_goals cases kinds

theorem streamOption_selfDelimiting :
    SelfDelimiting streamOption fun entry =>
      Text.Fits entry.1 ∧ ∀ s ∈ entry.2.texts, Text.Fits s :=
  streamText_selfDelimiting.pair streamState_selfDelimiting

theorem streamPin_selfDelimiting :
    SelfDelimiting streamPin fun pin => Text.Fits pin.name ∧ Text.Fits pin.version := by
  have fields : Function.Injective fun pin : Pin => (pin.name, pin.version) := by
    rintro ⟨name, version⟩ ⟨name', version'⟩ same
    cases same
    rfl
  have law := (streamText_selfDelimiting.pair streamText_selfDelimiting).comap fields
  exact law

theorem streamVariable_selfDelimiting :
    SelfDelimiting streamVariable fun entry =>
      Text.Fits entry.1 ∧ ∀ s ∈ entry.2.texts, Text.Fits s :=
  streamText_selfDelimiting.pair streamValue_selfDelimiting

/-! ## Whole streams -/

/-- Locks with equally long lists have the same stream only if they are the same. -/
theorem eq_of_stream_eq {a b : Lock} (fits : a.Fits) (fits' : b.Fits)
    (counts : ∀ list, a.count list = b.count list) (same : a.stream = b.stream) : a = b := by
  have ended : a.stream ++ [] = b.stream ++ [] := by rw [same]
  simp only [stream, List.append_assoc] at ended
  obtain ⟨platforms, ended⟩ :=
    streamText_selfDelimiting.append_inj fits.platform fits'.platform ended
  obtain ⟨switches, ended⟩ := streamSwitch_selfDelimiting.append_inj trivial trivial ended
  obtain ⟨options, ended⟩ := streamOption_selfDelimiting.flatMap_append_inj
    (fun _ => fits.option) (fun _ => fits'.option) (counts .options) ended
  obtain ⟨pins, ended⟩ := streamPin_selfDelimiting.flatMap_append_inj
    (fun _ => fits.pin) (fun _ => fits'.pin) (counts .pins) ended
  obtain ⟨tables, -⟩ := streamVariable_selfDelimiting.flatMap_append_inj
    (fun _ => fits.tableEntry) (fun _ => fits'.tableEntry) (counts .table) ended
  cases a
  cases b
  exact (Lock.mk.injEq ..).mpr ⟨platforms, switches, options, pins, tables⟩

/-- The lengths of the lists are needed: a pin can have the bytes of a variable. -/
example :
    (⟨"linux", false, [], [⟨"zlib", "\x00"⟩], []⟩ : Lock).stream =
      (⟨"linux", false, [], [], [("zlib", .text "")]⟩ : Lock).stream := by
  decide +kernel

/-! ## What a header lets through -/

theorem ofLock_eq_ofLock_iff {a b : Lock} (fits : a.Fits) (fits' : b.Fits) :
    Header.ofLock a = Header.ofLock b ↔
      (∀ list, a.count list = b.count list) ∧ a.checksum = b.checksum := by
  have lengths (list : LockList) :
      (a.count list).toUInt64 = (b.count list).toUInt64 ↔ a.count list = b.count list := by
    rw [← UInt64.toNat_inj, fits.toNat_count, fits'.toNat_count]
  simp only [Header.ofLock, Header.mk.injEq, true_and]
  constructor
  · intro announced
    obtain ⟨options, pins, table, sums⟩ := announced
    refine ⟨fun list => (lengths list).1 ?_, sums⟩
    cases list with
    | options => exact options
    | pins => exact pins
    | table => exact table
  · intro announced
    obtain ⟨counts, sums⟩ := announced
    have same (list : LockList) := (lengths list).2 (counts list)
    exact ⟨same .options, same .pins, same .table, sums⟩

theorem checksum_eq_iff {a b : Lock} :
    a.checksum = b.checksum ↔ fnv1a a.stream = fnv1a b.stream := by
  rw [checksum, checksum, ← UInt64.toNat_inj, toNat_hash, toNat_hash]

/-- A header is that of two locks if they are the same, or if their streams collide. -/
theorem ofLock_eq_ofLock_iff_collide {a b : Lock} (fits : a.Fits) (fits' : b.Fits) :
    Header.ofLock a = Header.ofLock b ↔
      a = b ∨ (∀ list, a.count list = b.count list) ∧ Collide a.stream b.stream := by
  rw [ofLock_eq_ofLock_iff fits fits', checksum_eq_iff]
  constructor
  · intro announced
    obtain ⟨counts, sums⟩ := announced
    by_cases same : a.stream = b.stream
    · exact .inl (eq_of_stream_eq fits fits' counts same)
    · exact .inr ⟨counts, same, sums⟩
  · intro either
    rcases either with rfl | ⟨counts, -, sums⟩
    · exact ⟨fun _ => rfl, rfl⟩
    · exact ⟨counts, sums⟩

/-- With the header of a lock in front, a body is accepted as a lock that it reads as and that
has the same header. -/
theorem ofBytes_eq_ok_iff_of_header {locked found : Lock} {bytes header body ignored : List UInt8}
    (framed : split bytes = .ok (header, body))
    (readHeader : Format.header.read header = .ok (.ofLock locked, ignored)) :
    ofBytes bytes = .ok found ↔
      (∃ ignored', Format.lock.read body = .ok (found, ignored')) ∧
        (∀ list, found.count list ≤ LockList.limit) ∧ Header.ofLock found = .ofLock locked := by
  have read : (∃ ignored', Format.header.read header = .ok (.ofLock found, ignored')) ↔
      Header.ofLock found = .ofLock locked := by
    simp [readHeader, eq_comm]
  obtain ⟨k, value, rfl⟩ := split_eq_ok_iff.1 framed
  rw [eq_toUInt32 value, ofBytes_framed_iff (value ▸ k.toNat_lt), read, and_comm, and_assoc]

/-- The checksum is FNV-1a of a stream that is unambiguous up to the lengths of the lists. So
with the header of one lock in front, a body is accepted as another lock exactly if the two have
equally long lists and their streams collide. -/
theorem checksum_unambiguous :
    (∀ lock : Lock, lock.checksum.toNat = fnv1a lock.stream) ∧
      (∀ a b : Lock, a.Fits → b.Fits → (∀ list, a.count list = b.count list) →
        (a.stream = b.stream ↔ a = b)) ∧
      ∀ (locked found : Lock) (bytes header body ignored : List UInt8), locked.Fits →
        split bytes = .ok (header, body) →
        Format.header.read header = .ok (.ofLock locked, ignored) →
        (ofBytes bytes = .ok found ↔
          (∃ ignored', Format.lock.read body = .ok (found, ignored')) ∧
            (∀ list, locked.count list ≤ 100000) ∧
            (found = locked ∨
              (∀ list, found.count list = locked.count list) ∧
                Collide found.stream locked.stream)) := by
  refine ⟨fun lock => toNat_hash _, fun a b fits fits' counts => ?_, ?_⟩
  · exact ⟨eq_of_stream_eq fits fits' counts, fun same => same ▸ rfl⟩
  · intro locked found bytes header body ignored fits framed readHeader
    rw [ofBytes_eq_ok_iff_of_header framed readHeader]
    refine and_congr_right fun reads => ?_
    obtain ⟨ignored', readBody⟩ := reads
    obtain ⟨fits', -⟩ := Format.lock_spelled.of_read readBody
    rw [← ofLock_eq_ofLock_iff_collide fits' fits]
    -- The limit stands for the lengths in the header, which are those of both locks.
    refine and_congr_left fun same => ?_
    have counts := ((ofLock_eq_ofLock_iff fits' fits).1 same).1
    simp only [counts]
    rfl

/-- Platforms of eleven letters for which the streams collide: behind the header of the one
lock, the other one is accepted. -/
theorem checksum_unambiguous_collision :
    let locked : Lock := ⟨"ityfkrQxmmi", false, [], [], []⟩
    let other : Lock := ⟨"FV4xbWZRoCl", false, [], [], []⟩
    let header := Format.header.write (.ofLock locked)
    let body := Format.lock.write other
    let bytes := fourBytes header.length.toUInt32 ++ header ++ body
    locked.Fits ∧ other.Fits ∧ (∀ list, other.count list = locked.count list) ∧
      split bytes = .ok (header, body) ∧
      Format.header.read header = .ok (.ofLock locked, []) ∧
      other.stream ≠ locked.stream ∧ ofBytes bytes = .ok other := by
  intro locked other header body bytes
  have fits : locked.Fits :=
    ⟨by unfold Text.Fits; decide, fun list => by cases list <;> decide⟩
  have fits' : other.Fits :=
    ⟨by unfold Text.Fits; decide, fun list => by cases list <;> decide⟩
  have counts (list : LockList) : other.count list = locked.count list := by
    cases list <;> rfl
  have short (list : LockList) : locked.count list ≤ 100000 := by
    cases list <;> decide
  have framed : split bytes = .ok (header, body) :=
    split_fourBytes locked.length_header_lt body
  have readHeader : Format.header.read header = .ok (.ofLock locked, []) := by
    have read := Format.header_roundTrips.read_write (a := .ofLock locked) trivial []
    rwa [List.append_nil] at read
  have readBody : Format.lock.read body = .ok (other, []) := by
    have read := Format.lock_roundTrips.read_write fits' []
    rwa [List.append_nil] at read
  obtain ⟨-, unambiguous, accepted⟩ := checksum_unambiguous
  have differ : other.stream ≠ locked.stream := by
    rw [ne_eq, unambiguous other locked fits' fits counts]
    decide
  have collide : Collide other.stream locked.stream := ⟨differ, by decide +kernel⟩
  exact ⟨fits, fits', counts, framed, readHeader, differ,
    (accepted locked other bytes header body [] fits framed readHeader).2
      ⟨⟨[], readBody⟩, short, .inr ⟨counts, collide⟩⟩⟩

end PackageConfig.Lock
