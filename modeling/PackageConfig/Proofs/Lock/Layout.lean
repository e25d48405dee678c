import PackageConfig.Lock.Layout
import PackageConfig.Proofs.Lock.Format

/-!
The laws of the formats of locks and headers.

`Lock.Fits` says which locks can be read back: those of which every text and every list
has a length of 64 bits. Headers hold nothing but bytes and numbers of 64 bits, and so
every header can be read back; `length_header_le` says how long one can be.
-/

namespace PackageConfig

/-! ## What has to fit -/

/-- The texts in a value. -/
def Value.texts : Value → List String
  | .flag _ => []
  | .text s => [s]

/-- The texts in a state: those of its value, or the reason of the removal. -/
def State.texts : State → List String
  | .present value => value.texts
  | .absent (.optionRule rule) => [rule]
  | .absent (.platformRule rule) => [rule]
  | .absent (.parent name) => [name]

namespace Lock

/-- The texts in a lock. -/
def texts (lock : Lock) : List String :=
  lock.platform ::
    (lock.options.flatMap (fun entry => entry.1 :: entry.2.texts) ++
      lock.pins.flatMap (fun pin => [pin.name, pin.version]) ++
      lock.table.flatMap fun entry => entry.1 :: entry.2.texts)

/-- The length of one of the lists of a lock. -/
def count (lock : Lock) : LockList → Nat
  | .options => lock.options.length
  | .pins => lock.pins.length
  | .table => lock.table.length

/-- Every text and every list of the lock has a length of 64 bits. -/
structure Fits (lock : Lock) : Prop where
  texts : ∀ s ∈ lock.texts, Text.Fits s
  lists : ∀ list, lock.count list < 2 ^ 64

theorem mem_texts {lock : Lock} {s : String} :
    s ∈ lock.texts ↔ s = lock.platform ∨
      (∃ entry ∈ lock.options, s = entry.1 ∨ s ∈ entry.2.texts) ∨
      (∃ pin ∈ lock.pins, s = pin.name ∨ s = pin.version) ∨
      ∃ entry ∈ lock.table, s = entry.1 ∨ s ∈ entry.2.texts := by
  simp only [texts, List.mem_cons, List.mem_append, List.mem_flatMap, List.not_mem_nil, or_false,
    or_assoc]

namespace Fits

variable {lock : Lock}

theorem toNat_count (fits : lock.Fits) (list : LockList) :
    (lock.count list).toUInt64.toNat = lock.count list :=
  UInt64.toNat_ofNat_of_lt' (fits.lists list)

theorem platform (fits : lock.Fits) : Text.Fits lock.platform :=
  fits.texts _ (mem_texts.2 (.inl rfl))

theorem option (fits : lock.Fits) {entry : String × State} (mem : entry ∈ lock.options) :
    Text.Fits entry.1 ∧ ∀ s ∈ entry.2.texts, Text.Fits s :=
  ⟨fits.texts _ (mem_texts.2 (.inr (.inl ⟨entry, mem, .inl rfl⟩))),
    fun s inState => fits.texts s (mem_texts.2 (.inr (.inl ⟨entry, mem, .inr inState⟩)))⟩

theorem pin (fits : lock.Fits) {pin : Pin} (mem : pin ∈ lock.pins) :
    Text.Fits pin.name ∧ Text.Fits pin.version :=
  ⟨fits.texts _ (mem_texts.2 (.inr (.inr (.inl ⟨pin, mem, .inl rfl⟩)))),
    fits.texts _ (mem_texts.2 (.inr (.inr (.inl ⟨pin, mem, .inr rfl⟩))))⟩

theorem tableEntry (fits : lock.Fits) {entry : String × Value} (mem : entry ∈ lock.table) :
    Text.Fits entry.1 ∧ ∀ s ∈ entry.2.texts, Text.Fits s :=
  ⟨fits.texts _ (mem_texts.2 (.inr (.inr (.inr ⟨entry, mem, .inl rfl⟩)))),
    fun s inValue => fits.texts s (mem_texts.2 (.inr (.inr (.inr ⟨entry, mem, .inr inValue⟩))))⟩

end Fits

/-- A lock fits exactly when its fields do. -/
theorem fits_iff {lock : Lock} :
    lock.Fits ↔ Text.Fits lock.platform ∧
      (lock.options.length < 2 ^ 64 ∧
        ∀ entry ∈ lock.options, Text.Fits entry.1 ∧ ∀ s ∈ entry.2.texts, Text.Fits s) ∧
      (lock.pins.length < 2 ^ 64 ∧
        ∀ pin ∈ lock.pins, Text.Fits pin.name ∧ Text.Fits pin.version) ∧
      lock.table.length < 2 ^ 64 ∧
        ∀ entry ∈ lock.table, Text.Fits entry.1 ∧ ∀ s ∈ entry.2.texts, Text.Fits s := by
  constructor
  · intro fits
    exact ⟨fits.platform, ⟨fits.lists .options, fun _ => fits.option⟩,
      ⟨fits.lists .pins, fun _ => fits.pin⟩, fits.lists .table, fun _ => fits.tableEntry⟩
  · intro fields
    obtain ⟨platform, options, pins, table⟩ := fields
    refine ⟨fun s mem => ?_, fun list => ?_⟩
    · rcases mem_texts.1 mem with rfl | ⟨entry, known, rfl | inState⟩ | ⟨pin, known, rfl | rfl⟩ |
        ⟨entry, known, rfl | inValue⟩
      · exact platform
      · exact (options.2 entry known).1
      · exact (options.2 entry known).2 s inState
      · exact (pins.2 pin known).1
      · exact (pins.2 pin known).2
      · exact (table.2 entry known).1
      · exact (table.2 entry known).2 s inValue
    · cases list with
      | options => exact options.1
      | pins => exact pins.1
      | table => exact table.1

namespace Format

/-! ## Values, states and pins -/

/-- A choice is read by the number of its kind, and then by what that kind holds. -/
theorem read_kind {α : Type} {kind : Nat} (small : kind < 2 ^ 32) (next : Nat → Reader α)
    (payload rest : List UInt8) :
    (readShort >>= next) (writeNumber kind ++ payload ++ rest) = next kind (payload ++ rest) := by
  rw [List.append_assoc]
  exact Reader.bind_of_ok (readShort_writeNumber small _)

theorem value_roundTrips : value.RoundTrips fun v => ∀ s ∈ v.texts, Text.Fits s := by
  constructor
  intro v fits rest
  cases v with
  | flag on =>
    refine (read_kind (by decide : 0 < 2 ^ 32) _ _ rest).trans ?_
    exact Reader.bind_of_ok (switch_roundTrips.read_write trivial rest)
  | text s =>
    refine (read_kind (by decide : 1 < 2 ^ 32) _ _ rest).trans ?_
    exact Reader.bind_of_ok (text_roundTrips.read_write (fits s List.mem_cons_self) rest)

theorem value_unambiguous : value.Unambiguous := by
  constructor
  intro v w s t h
  cases v <;> cases w <;> simp only [value, List.append_assoc] at h <;>
    obtain ⟨kinds, h⟩ := writeNumber_append_inj h
  case flag.flag =>
    obtain ⟨rfl, tails⟩ := switch_unambiguous.append_inj h
    exact ⟨rfl, tails⟩
  case text.text =>
    obtain ⟨rfl, tails⟩ := text_unambiguous.append_inj h
    exact ⟨rfl, tails⟩
  all_goals cases kinds

theorem state_roundTrips : state.RoundTrips fun s => ∀ t ∈ s.texts, Text.Fits t := by
  constructor
  intro s fits rest
  cases s with
  | present v =>
    refine (read_kind (by decide : 0 < 2 ^ 32) _ _ rest).trans ?_
    exact Reader.bind_of_ok (value_roundTrips.read_write fits rest)
  | absent cause =>
    cases cause with
    | optionRule rule =>
      refine (read_kind (by decide : 1 < 2 ^ 32) _ _ rest).trans ?_
      exact Reader.bind_of_ok (text_roundTrips.read_write (fits rule List.mem_cons_self) rest)
    | platformRule rule =>
      refine (read_kind (by decide : 2 < 2 ^ 32) _ _ rest).trans ?_
      exact Reader.bind_of_ok (text_roundTrips.read_write (fits rule List.mem_cons_self) rest)
    | parent name =>
      refine (read_kind (by decide : 3 < 2 ^ 32) _ _ rest).trans ?_
      exact Reader.bind_of_ok (text_roundTrips.read_write (fits name List.mem_cons_self) rest)

theorem state_unambiguous : state.Unambiguous := by
  constructor
  intro a b s t h
  rcases a with v | (rule | rule | name) <;> rcases b with w | (rule' | rule' | name') <;>
    simp only [state, List.append_assoc] at h <;>
    obtain ⟨kinds, h⟩ := writeNumber_append_inj h
  case present.present =>
    obtain ⟨rfl, tails⟩ := value_unambiguous.append_inj h
    exact ⟨rfl, tails⟩
  case absent.optionRule.absent.optionRule =>
    obtain ⟨rfl, tails⟩ := text_unambiguous.append_inj h
    exact ⟨rfl, tails⟩
  case absent.platformRule.absent.platformRule =>
    obtain ⟨rfl, tails⟩ := text_unambiguous.append_inj h
    exact ⟨rfl, tails⟩
  case absent.parent.absent.parent =>
    obtain ⟨rfl, tails⟩ := text_unambiguous.append_inj h
    exact ⟨rfl, tails⟩
  all_goals cases kinds

theorem pin_roundTrips : pin.RoundTrips fun p => Text.Fits p.name ∧ Text.Fits p.version :=
  (via_roundTrips (pair_roundTrips text_roundTrips text_roundTrips) fun _ => rfl).mono
    fun _ fits => fits

theorem pin_unambiguous : pin.Unambiguous :=
  via_unambiguous (pair_unambiguous text_unambiguous text_unambiguous) fun _ => rfl

/-! ## Locks and headers -/

theorem lock_roundTrips : lock.RoundTrips Lock.Fits := by
  refine (via_roundTrips (pair_roundTrips text_roundTrips (pair_roundTrips switch_roundTrips
    (pair_roundTrips (list_roundTrips (pair_roundTrips text_roundTrips state_roundTrips))
      (pair_roundTrips (list_roundTrips pin_roundTrips)
        (list_roundTrips (pair_roundTrips text_roundTrips value_roundTrips))))))
    fun _ => rfl).mono fun l fits => ?_
  obtain ⟨platform, lists⟩ := fits_iff.1 fits
  exact ⟨platform, trivial, lists⟩

theorem lock_unambiguous : lock.Unambiguous :=
  via_unambiguous (pair_unambiguous text_unambiguous (pair_unambiguous switch_unambiguous
    (pair_unambiguous (list_unambiguous (pair_unambiguous text_unambiguous state_unambiguous))
      (pair_unambiguous (list_unambiguous pin_unambiguous)
        (list_unambiguous (pair_unambiguous text_unambiguous value_unambiguous))))))
    fun _ => rfl

theorem header_roundTrips : header.RoundTrips fun _ => True := by
  refine (via_roundTrips (pair_roundTrips (pair_roundTrips byte_roundTrips
    (pair_roundTrips byte_roundTrips (pair_roundTrips byte_roundTrips byte_roundTrips)))
    (pair_roundTrips byte_roundTrips (pair_roundTrips long_roundTrips
      (pair_roundTrips long_roundTrips (pair_roundTrips long_roundTrips
        long_roundTrips))))) fun _ => rfl).mono fun h _ => ?_
  simp

/-- A header takes five bytes, and at most ten for each of its four numbers. -/
theorem length_header_le (h : Header) : (header.write h).length ≤ 45 := by
  have numbers (n : UInt64) : (writeNumber n.toNat).length ≤ 10 := by
    have : n.toNat < 2 ^ 64 := n.toNat_lt
    exact length_writeNumber_le 9 (by omega)
  have options := numbers h.optionCount
  have pins := numbers h.pinCount
  have tableEntries := numbers h.variableCount
  have checksum := numbers h.checksum
  simp only [header, via, pair, byte, long, List.length_append, List.length_cons, List.length_nil]
  omega

theorem header_unambiguous : header.Unambiguous :=
  via_unambiguous (pair_unambiguous (pair_unambiguous byte_unambiguous
    (pair_unambiguous byte_unambiguous (pair_unambiguous byte_unambiguous byte_unambiguous)))
    (pair_unambiguous byte_unambiguous (pair_unambiguous long_unambiguous
      (pair_unambiguous long_unambiguous (pair_unambiguous long_unambiguous
        long_unambiguous))))) fun _ => rfl

end Format

end Lock

end PackageConfig
