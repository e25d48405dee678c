import PackageConfig.Proofs.Lock.Acceptance
import PackageConfig.Proofs.Lock.Checksum

/-!
Damaged lockfiles.

`Mark.lock` says of every byte of a written lock what it is for. A byte of a text, a switch or
the kind of a removal may become another one without any length changing. Bytes so damaged are
either not read at all, or read as a lock with a stream that differs in one byte
(`Format.Guards`), and then the checksum of the header is not the one of the lock.
-/

namespace PackageConfig.Lock

variable {α β : Type}

/-! ## What the bytes of a lock are for -/

/-- What a byte is for: its part in the shape of the lock (a length, or the kind of a value or of
a present option), the content of a text, a switch, or the kind of a removal. -/
inductive Role where
  | shape
  | text
  | switch
  | removal
  deriving DecidableEq

/-- What a byte may be damaged to: anything in a text or a switch, another kind of removal for a
removal. -/
def Role.Allows : Role → UInt8 → Prop
  | .shape, _ => False
  | .text, _ => True
  | .switch, _ => True
  | .removal, new => new = 1 ∨ new = 2 ∨ new = 3

/-- A byte and what it is for. -/
structure Mark where
  byte : UInt8
  role : Role
  deriving DecidableEq

namespace Mark

/-- The bytes without their roles. -/
def bytes (marks : List Mark) : List UInt8 :=
  marks.map Mark.byte

/-- Bytes that all have one role. -/
def all (role : Role) (bytes : List UInt8) : List Mark :=
  bytes.map fun byte => ⟨byte, role⟩

def text (s : String) : List Mark :=
  all .shape (writeNumber (Text.utf8 s).length) ++ all .text (Text.utf8 s)

def switch (on : Bool) : List Mark :=
  all .switch (Format.switch.write on)

def value : Value → List Mark
  | .flag on => all .shape (writeNumber 0) ++ switch on
  | .text s => all .shape (writeNumber 1) ++ text s

def state : State → List Mark
  | .present v => all .shape (writeNumber 0) ++ value v
  | .absent (.optionRule rule) => all .removal (writeNumber 1) ++ text rule
  | .absent (.platformRule rule) => all .removal (writeNumber 2) ++ text rule
  | .absent (.parent name) => all .removal (writeNumber 3) ++ text name

/-- One thing after another. -/
def pair (f : α → List Mark) (g : β → List Mark) (p : α × β) : List Mark :=
  f p.1 ++ g p.2

/-- The length of a list, and its items. -/
def list (f : α → List Mark) (items : List α) : List Mark :=
  all .shape (writeNumber items.length) ++ items.flatMap f

def pin (p : Pin) : List Mark :=
  pair text text (p.name, p.version)

/-- The bytes of a lock with their roles. -/
def lock (l : Lock) : List Mark :=
  pair text (pair switch (pair (list (pair text state)) (pair (list pin) (list (pair text value)))))
    (l.platform, l.shared, l.options, l.pins, l.table)

@[simp]
theorem bytes_all (role : Role) (written : List UInt8) : bytes (all role written) = written := by
  simp [bytes, all, Function.comp_def]

@[simp]
theorem bytes_append (front more : List Mark) : bytes (front ++ more) = bytes front ++ bytes more :=
  List.map_append

end Mark

/-! ## Damage -/

/-- One byte of some marked bytes was replaced by another that its role allows. -/
def Damaged (marks : List Mark) (bytes : List UInt8) : Prop :=
  ∃ before mark new after, marks = before ++ mark :: after ∧ new ≠ mark.byte ∧
    mark.role.Allows new ∧ bytes = Mark.bytes before ++ new :: Mark.bytes after

theorem damaged_set {marks : List Mark} {i : Nat} {mark : Mark} {new : UInt8}
    (here : marks[i]? = some mark) (other : new ≠ mark.byte) (allowed : mark.role.Allows new) :
    Damaged marks ((Mark.bytes marks).set i new) := by
  obtain ⟨inside, found⟩ := List.getElem?_eq_some_iff.1 here
  refine ⟨marks.take i, mark, new, marks.drop (i + 1), ?_, other, allowed, ?_⟩
  · rw [← found, List.getElem_cons_drop, List.take_append_drop]
  · rw [List.set_eq_take_append_cons_drop, if_pos (by simpa [Mark.bytes] using inside)]
    simp only [Mark.bytes, List.map_take, List.map_drop]

theorem damaged_append {front more : List Mark} {bytes : List UInt8}
    (damaged : Damaged (front ++ more) bytes) :
    (∃ w, Damaged front w ∧ bytes = w ++ Mark.bytes more) ∨
      ∃ w, Damaged more w ∧ bytes = Mark.bytes front ++ w := by
  rcases damaged with ⟨before, mark, new, after, whole, other, allowed, rfl⟩
  rcases List.append_eq_append_iff.1 whole with ⟨rest, rfl, inMore⟩ | ⟨rest, rfl, inFront⟩
  · refine .inr ⟨_, ⟨rest, mark, new, after, inMore, other, allowed, rfl⟩, ?_⟩
    rw [Mark.bytes_append, List.append_assoc]
  · cases rest with
    | nil =>
      refine .inr ⟨_, ⟨[], mark, new, after, inFront.symm, other, allowed, rfl⟩, ?_⟩
      simp [Mark.bytes]
    | cons head rest =>
      obtain ⟨rfl, rfl⟩ := List.cons.inj inFront
      refine .inl ⟨_, ⟨before, mark, new, rest, rfl, other, allowed, rfl⟩, ?_⟩
      simp [Mark.bytes]

theorem damaged_all {role : Role} {written bytes : List UInt8}
    (damaged : Damaged (Mark.all role written) bytes) :
    ∃ before old new after, new ≠ old ∧ role.Allows new ∧
      written = before ++ old :: after ∧ bytes = before ++ new :: after := by
  rcases damaged with ⟨before, mark, new, after, whole, other, allowed, rfl⟩
  have uniform : ∀ m ∈ before ++ mark :: after, m.role = role := by
    rw [← whole]
    intro m mem
    obtain ⟨byte, -, rfl⟩ := List.mem_map.1 mem
    rfl
  have same : mark.role = role := uniform mark (List.mem_append_right _ List.mem_cons_self)
  refine ⟨Mark.bytes before, mark.byte, new, Mark.bytes after, other, same ▸ allowed, ?_, rfl⟩
  have unmarked := congrArg Mark.bytes whole
  rw [Mark.bytes_all, Mark.bytes_append] at unmarked
  exact unmarked

theorem not_damaged_shape {written bytes : List UInt8} :
    ¬Damaged (Mark.all .shape written) bytes := by
  intro damaged
  obtain ⟨_, _, _, _, -, allowed, -⟩ := damaged_all damaged
  exact allowed

/-- One byte that was damaged is another that its role allows. -/
theorem damaged_single {role : Role} {byte : UInt8} {bytes : List UInt8}
    (damaged : Damaged (Mark.all role [byte]) bytes) :
    ∃ new, new ≠ byte ∧ role.Allows new ∧ bytes = [new] := by
  obtain ⟨before, old, new, after, other, allowed, whole, rfl⟩ := damaged_all damaged
  cases before with
  | nil =>
    cases whole
    exact ⟨new, other, allowed, rfl⟩
  | cons head rest =>
    have nothing := (List.cons.inj whole).2
    cases rest <;> cases nothing

/-- Damage behind bytes of the shape leaves these as they are. -/
theorem damaged_of_shape {written bytes : List UInt8} {more : List Mark}
    (damaged : Damaged (Mark.all .shape written ++ more) bytes) :
    ∃ w, Damaged more w ∧ bytes = written ++ w := by
  rcases damaged_append damaged with ⟨w, inShape, -⟩ | ⟨w, inMore, rfl⟩
  · exact absurd inShape not_damaged_shape
  · exact ⟨w, inMore, by rw [Mark.bytes_all]⟩

/-! ## Reading damaged bytes -/

namespace Reader

/-- A reader fails on these bytes, whatever follows them. -/
def Fails (r : Reader α) (front : List UInt8) : Prop :=
  ∀ rest, ∃ fault, r (front ++ rest) = .error fault

theorem Fails.bind {r : Reader α} {front : List UInt8} (fails : r.Fails front)
    (next : α → Reader β) (more : List UInt8) : (r >>= next).Fails (front ++ more) := by
  intro rest
  obtain ⟨fault, failed⟩ := fails (more ++ rest)
  refine ⟨fault, ?_⟩
  rw [List.append_assoc]
  change (r (front ++ (more ++ rest)) >>= fun p => next p.1 p.2) = .error fault
  rw [failed]
  rfl

theorem Takes.bind_fails {r : Reader α} {next : α → Reader β} {front more : List UInt8} {a : α}
    (takes : r.Takes front a) (fails : (next a).Fails more) :
    (r >>= next).Fails (front ++ more) := by
  intro rest
  obtain ⟨fault, failed⟩ := fails rest
  refine ⟨fault, ?_⟩
  rw [List.append_assoc]
  exact (bind_of_ok (takes (more ++ rest))).trans failed

/-- Bytes that are not read, or are read as a value whose stream differs in one byte from the
expected one. -/
def Notices (r : Reader α) (stream : α → List UInt8) (expected bytes : List UInt8) : Prop :=
  r.Fails bytes ∨ ∃ a, r.Takes bytes a ∧ DifferOnce expected (stream a)

theorem Notices.behind {r : Reader α} {next : α → Reader β} {stream : β → List UInt8}
    {front bytes expected : List UInt8} {a : α} (first : r.Takes front a)
    (second : (next a).Notices stream expected bytes) :
    (r >>= next).Notices stream expected (front ++ bytes) := by
  rcases second with fails | ⟨b, takes, differ⟩
  · exact .inl (first.bind_fails fails)
  · exact .inr ⟨b, first.bind takes, differ⟩

/-- What follows the damaged bytes is read as it was, and shows in the stream as it did. -/
theorem Notices.before {r : Reader α} {next : α → Reader β} {into : α → β}
    {stream : α → List UInt8} {stream' : β → List UInt8}
    {bytes more expected expected' : List UInt8} (first : r.Notices stream expected bytes)
    (second : ∀ a, (next a).Takes more (into a))
    (differ : ∀ a, DifferOnce expected (stream a) → DifferOnce expected' (stream' (into a))) :
    (r >>= next).Notices stream' expected' (bytes ++ more) := by
  rcases first with fails | ⟨a, takes, differs⟩
  · exact .inl (fails.bind next more)
  · exact .inr ⟨into a, takes.bind (second a), differ a differs⟩

theorem Notices.map {r : Reader α} {into : α → β} {stream : α → List UInt8}
    {stream' : β → List UInt8} {bytes expected expected' : List UInt8}
    (first : r.Notices stream expected bytes)
    (differ : ∀ a, DifferOnce expected (stream a) → DifferOnce expected' (stream' (into a))) :
    Reader.Notices (do return into (← r)) stream' expected' bytes := by
  have both := first.before (fun a => takes_pure (into a)) differ
  rw [List.append_nil] at both
  exact both

end Reader

namespace Format

/-- A format that reads back what it wrote, and notices damage of it. -/
structure Guards (f : Format α) (marks : α → List Mark) (stream : α → List UInt8)
    (fits : α → Prop) : Prop extends f.RoundTrips fits where
  bytes_marks : ∀ a, Mark.bytes (marks a) = f.write a
  notices : ∀ {a bytes}, fits a → Damaged (marks a) bytes →
    f.read.Notices stream (stream a) bytes

theorem Guards.mono {f : Format α} {marks : α → List Mark} {stream : α → List UInt8}
    {fits fewer : α → Prop} (law : f.Guards marks stream fits) (h : ∀ a, fewer a → fits a) :
    f.Guards marks stream fewer :=
  ⟨law.toRoundTrips.mono h, law.bytes_marks, fun fit damaged => law.notices (h _ fit) damaged⟩

theorem switch_guards : switch.Guards Mark.switch streamSwitch fun _ => True := by
  refine ⟨switch_roundTrips, fun on => Mark.bytes_all .., fun {on bytes} _ damaged => ?_⟩
  obtain ⟨new, other, -, rfl⟩ := damaged_single damaged
  by_cases off : new = 0
  · subst off
    exact .inr ⟨false, fun _ => rfl, [], _, _, [], other.symm, rfl, rfl⟩
  by_cases set : new = 1
  · subst set
    exact .inr ⟨true, fun _ => rfl, [], _, _, [], other.symm, rfl, rfl⟩
  refine .inl fun rest => ⟨.badSwitch, ?_⟩
  have first : readByte ([new] ++ rest) = .ok (new, rest) := rfl
  refine (Reader.bind_of_ok first).trans ?_
  split
  · exact absurd rfl off
  · exact absurd rfl set
  · rfl

theorem text_guards : text.Guards Mark.text streamText Text.Fits := by
  refine ⟨text_roundTrips, fun s => ?_, fun {s bytes} fit damaged => ?_⟩
  · rw [Mark.text, Mark.bytes_append, Mark.bytes_all, Mark.bytes_all]
    rfl
  · obtain ⟨w, inChars, rfl⟩ := damaged_of_shape damaged
    obtain ⟨before, old, new, after, other, -, whole, damagedChars⟩ := damaged_all inChars
    have differ : DifferOnce (Text.utf8 s) w :=
      ⟨before, old, new, after, other.symm, whole, damagedChars⟩
    have number : readLong.Takes (writeNumber (Text.utf8 s).length) (Text.utf8 s).length :=
      readLong_writeNumber fit
    have chars : Reader.Takes (take (Text.utf8 s).length) w w := by
      rw [differ.length_eq]
      exact take_append w
    refine Reader.Notices.behind number ?_
    cases known : Text.ofUtf8? w with
    | none =>
      refine .inl fun rest => ⟨.badText, (Reader.bind_of_ok (chars rest)).trans ?_⟩
      simp only [known]
      rfl
    | some t =>
      have encoded := Text.ofUtf8?_eq_some_iff.1 known
      refine .inr ⟨t, fun rest => (Reader.bind_of_ok (chars rest)).trans ?_, ?_⟩
      · simp only [known]
        rfl
      · rw [encoded] at differ
        unfold streamText
        rw [differ.length_eq]
        exact differ.append_left _

/-! ## Formats from formats -/

section Combined

variable {f : Format α} {g : Format β} {fits : α → Prop} {fits' : β → Prop}
  {marks : α → List Mark} {marks' : β → List Mark}
  {stream : α → List UInt8} {stream' : β → List UInt8}

theorem pair_guards (first : f.Guards marks stream fits)
    (second : g.Guards marks' stream' fits') :
    (f.pair g).Guards (Mark.pair marks marks') (fun p => stream p.1 ++ stream' p.2)
      fun p => fits p.1 ∧ fits' p.2 := by
  refine ⟨pair_roundTrips first.toRoundTrips second.toRoundTrips, fun p => ?_,
    fun {p bytes} fit damaged => ?_⟩
  · rw [Mark.pair, Mark.bytes_append, first.bytes_marks, second.bytes_marks]
    rfl
  · rcases damaged_append damaged with ⟨w, inFirst, rfl⟩ | ⟨w, inSecond, rfl⟩
    · rw [second.bytes_marks]
      exact (first.notices fit.1 inFirst).before
        (fun a => (second.takes fit.2).map fun b => (a, b)) fun a differ => differ.append_right _
    · rw [first.bytes_marks]
      refine Reader.Notices.behind (first.takes fit.1) ?_
      exact (second.notices fit.2 inSecond).map fun b differ => differ.append_left _

theorem via_guards {out : β → α} {into : α → β} (law : f.Guards marks stream fits)
    (marked : ∀ b, marks' b = marks (out b)) (streamed : ∀ b, stream' b = stream (out b))
    (inverse : ∀ a, out (into a) = a) (inverse' : ∀ b, into (out b) = b) :
    (f.via out into).Guards marks' stream' fun b => fits (out b) := by
  refine ⟨via_roundTrips law.toRoundTrips inverse', fun b => ?_, fun {b bytes} fit damaged => ?_⟩
  · rw [marked, law.bytes_marks]
    rfl
  · rw [marked] at damaged
    rw [streamed]
    refine (law.notices fit damaged).map fun a differ => ?_
    rw [streamed, inverse]
    exact differ

theorem bytes_flatMap_marks (law : f.Guards marks stream fits) (items : List α) :
    Mark.bytes (items.flatMap marks) = items.flatMap f.write :=
  calc Mark.bytes (items.flatMap marks)
    _ = items.flatMap fun a => Mark.bytes (marks a) := List.map_flatMap
    _ = items.flatMap f.write := by simp only [law.bytes_marks]

/-- Damage among items leaves their number as it is. -/
theorem readItems_notices (law : f.Guards marks stream fits) (items : List α)
    (all : ∀ a ∈ items, fits a) {bytes : List UInt8}
    (damaged : Damaged (items.flatMap marks) bytes) :
    (readItems f items.length).Notices (fun items => items.flatMap stream) (items.flatMap stream)
      bytes := by
  induction items generalizing bytes with
  | nil =>
    rcases damaged with ⟨before, mark, new, after, whole, -⟩
    cases before <;> cases whole
  | cons item rest ih =>
    obtain ⟨fit, fitRest⟩ := List.forall_mem_cons.1 all
    rw [List.flatMap_cons] at damaged ⊢
    rcases damaged_append damaged with ⟨w, inItem, rfl⟩ | ⟨w, inRest, rfl⟩
    · have others : (readItems f rest.length).Takes (rest.flatMap f.write) rest :=
        readItems_flatMap law.toRoundTrips rest fitRest
      rw [bytes_flatMap_marks law]
      exact (law.notices fit inItem).before (fun a => others.map fun others => a :: others)
        fun a differ => differ.append_right _
    · rw [law.bytes_marks]
      refine Reader.Notices.behind (law.takes fit) ?_
      exact (ih fitRest inRest).map fun others differ => differ.append_left _

theorem list_guards (law : f.Guards marks stream fits) :
    (list f).Guards (Mark.list marks) (fun items => items.flatMap stream)
      fun items => items.length < 2 ^ 64 ∧ ∀ a ∈ items, fits a := by
  refine ⟨list_roundTrips law.toRoundTrips, fun items => ?_, fun {items bytes} fit damaged => ?_⟩
  · rw [Mark.list, Mark.bytes_append, Mark.bytes_all, bytes_flatMap_marks law]
    rfl
  · obtain ⟨w, inItems, rfl⟩ := damaged_of_shape damaged
    have number : readLong.Takes (writeNumber items.length) items.length :=
      readLong_writeNumber fit.1
    exact Reader.Notices.behind number (readItems_notices law items fit.2 inItems)

end Combined

/-! ## Values, states and locks -/

theorem value_guards : value.Guards Mark.value streamValue fun v => ∀ s ∈ v.texts, Text.Fits s := by
  refine ⟨value_roundTrips, fun v => ?_, fun {v bytes} fit damaged => ?_⟩
  · cases v with
    | flag on =>
      rw [Mark.value, Mark.bytes_append, Mark.bytes_all, switch_guards.bytes_marks]
      rfl
    | text s =>
      rw [Mark.value, Mark.bytes_append, Mark.bytes_all, text_guards.bytes_marks]
      rfl
  · cases v with
    | flag on =>
      obtain ⟨w, inSwitch, rfl⟩ := damaged_of_shape damaged
      refine Reader.Notices.behind (readShort_writeNumber (by decide)) ?_
      exact (switch_guards.notices trivial inSwitch).map fun on differ => differ.append_left [0]
    | text s =>
      obtain ⟨w, inText, rfl⟩ := damaged_of_shape damaged
      refine Reader.Notices.behind (readShort_writeNumber (by decide)) ?_
      exact (text_guards.notices (fit s List.mem_cons_self) inText).map
        fun s differ => differ.append_left [1]

/-- The removal of a kind, for a reason. -/
def removal : Fin 3 → String → State
  | 0, rule => .absent (.optionRule rule)
  | 1, rule => .absent (.platformRule rule)
  | 2, name => .absent (.parent name)

theorem exists_removal (cause : Cause) :
    ∃ kind reason, State.absent cause = removal kind reason := by
  cases cause with
  | optionRule rule => exact ⟨0, rule, rfl⟩
  | platformRule rule => exact ⟨1, rule, rfl⟩
  | parent name => exact ⟨2, name, rfl⟩

section Removal

variable (kind : Fin 3) (reason : String)

theorem write_removal : state.write (removal kind reason) =
    writeNumber (kind + 1) ++ text.write reason := by
  match kind with
  | 0 | 1 | 2 => rfl

theorem marks_removal : Mark.state (removal kind reason) =
    Mark.all .removal (writeNumber (kind + 1)) ++ Mark.text reason := by
  match kind with
  | 0 | 1 | 2 => rfl

theorem stream_removal : streamState (removal kind reason) =
    [(kind.val + 1).toUInt8] ++ streamText reason := by
  match kind with
  | 0 | 1 | 2 => rfl

theorem texts_removal : (removal kind reason).texts = [reason] := by
  match kind with
  | 0 | 1 | 2 => rfl

theorem writeNumber_removal : writeNumber (kind.val + 1) = [(kind.val + 1).toUInt8] := by
  rw [writeNumber, if_pos (by omega)]

theorem removal_notices {bytes : List UInt8}
    (reading : text.read.Notices streamText (streamText reason) bytes) :
    state.read.Notices streamState (streamState (removal kind reason))
      (writeNumber (kind + 1) ++ bytes) := by
  match kind with
  | 0 | 1 | 2 =>
    refine Reader.Notices.behind (readShort_writeNumber (by decide)) ?_
    exact reading.map fun _ differ => differ.append_left [_]

theorem takes_removal (fit : Text.Fits reason) :
    state.read.Takes (writeNumber (kind + 1) ++ text.write reason) (removal kind reason) := by
  have fits : ∀ t ∈ (removal kind reason).texts, Text.Fits t := by
    rw [texts_removal]
    exact List.forall_mem_singleton.2 fit
  rw [← write_removal]
  exact state_roundTrips.takes fits

end Removal

/-- Another kind of removal is read with the same reason, and shows in the stream. -/
theorem kind_notices {kind : Fin 3} {reason : String} {bytes : List UInt8}
    (fit : Text.Fits reason)
    (damaged : Damaged (Mark.all .removal (writeNumber (kind + 1))) bytes) :
    state.read.Notices streamState (streamState (removal kind reason))
      (bytes ++ text.write reason) := by
  rw [writeNumber_removal] at damaged
  obtain ⟨new, other, allowed, rfl⟩ := damaged_single damaged
  obtain ⟨kind', rfl⟩ : ∃ kind' : Fin 3, new = (kind'.val + 1).toUInt8 := by
    rcases allowed with rfl | rfl | rfl
    · exact ⟨0, rfl⟩
    · exact ⟨1, rfl⟩
    · exact ⟨2, rfl⟩
  rw [← writeNumber_removal]
  refine .inr ⟨_, takes_removal kind' reason fit, ?_⟩
  rw [stream_removal, stream_removal]
  exact ⟨[], _, _, _, other.symm, rfl, rfl⟩

theorem state_guards : state.Guards Mark.state streamState fun s => ∀ t ∈ s.texts, Text.Fits t := by
  refine ⟨state_roundTrips, fun s => ?_, fun {s bytes} fit damaged => ?_⟩
  · cases s with
    | present v =>
      rw [Mark.state, Mark.bytes_append, Mark.bytes_all, value_guards.bytes_marks]
      rfl
    | absent cause =>
      obtain ⟨kind, reason, removed⟩ := exists_removal cause
      rw [removed, marks_removal, write_removal, Mark.bytes_append, Mark.bytes_all,
        text_guards.bytes_marks]
  · cases s with
    | present v =>
      obtain ⟨w, inValue, rfl⟩ := damaged_of_shape damaged
      refine Reader.Notices.behind (readShort_writeNumber (by decide)) ?_
      exact (value_guards.notices fit inValue).map fun v differ => differ.append_left [0]
    | absent cause =>
      obtain ⟨kind, reason, removed⟩ := exists_removal cause
      rw [removed] at fit damaged ⊢
      rw [texts_removal] at fit
      have fits : Text.Fits reason := fit reason List.mem_cons_self
      rw [marks_removal] at damaged
      rcases damaged_append damaged with ⟨w, inKind, rfl⟩ | ⟨w, inReason, rfl⟩
      · rw [text_guards.bytes_marks]
        exact kind_notices fits inKind
      · rw [Mark.bytes_all]
        exact removal_notices kind reason (text_guards.notices fits inReason)

theorem pin_guards :
    pin.Guards Mark.pin streamPin fun p => Text.Fits p.name ∧ Text.Fits p.version :=
  via_guards (pair_guards text_guards text_guards) (fun _ => rfl) (fun _ => rfl) (fun _ => rfl)
    fun _ => rfl

theorem lock_guards : lock.Guards Mark.lock stream Lock.Fits := by
  refine (via_guards (pair_guards text_guards (pair_guards switch_guards
    (pair_guards (list_guards (pair_guards text_guards state_guards))
      (pair_guards (list_guards pin_guards)
        (list_guards (pair_guards text_guards value_guards))))))
    (fun _ => rfl) (fun l => ?_) (fun _ => rfl) fun _ => rfl).mono fun l fits => ?_
  · simp only [stream, List.append_assoc]
    rfl
  · obtain ⟨platform, lists⟩ := fits_iff.1 fits
    exact ⟨platform, trivial, lists⟩

/-- No bytes but the written ones are read as the value and are as few. -/
theorem Spelled.eq_write {f : Format α} {fits : α → Prop} (law : f.Spelled fits) {a : α}
    {bytes ignored : List UInt8} (read : f.read bytes = .ok (a, ignored))
    (length : bytes.length = (f.write a).length) : bytes = f.write a := by
  obtain ⟨-, front, rfl, -, padded⟩ := law.of_read read
  rw [List.length_append] at length
  rcases padded with rfl | more
  · have nothing : ignored = [] := List.length_eq_zero_iff.1 (by omega)
    rw [nothing, List.append_nil]
  · omega

/-- From what was written for a value no other one is read. -/
theorem RoundTrips.eq_of_read {f : Format α} {fits : α → Prop} (law : f.RoundTrips fits) {a b : α}
    (fit : fits a) {ignored : List UInt8} (read : f.read (f.write a) = .ok (b, ignored)) :
    b = a := by
  have written := law.read_write fit []
  rw [List.append_nil, read] at written
  exact congrArg Prod.fst (Except.ok.inj written)

end Format

/-! ## Damaged lockfiles -/

/-- With another header of the same length in front, the body is not announced. -/
theorem header_eq_of_accepted {lock other : Lock} {header : List UInt8} (fits : lock.Fits)
    (length : header.length = (Format.header.write (.ofLock lock)).length)
    (accepted : ofBytes (fourBytes header.length.toUInt32 ++ header ++ Format.lock.write lock) =
      .ok other) : header = Format.header.write (.ofLock lock) := by
  have short : header.length < UInt32.size := length ▸ lock.length_header_lt
  obtain ⟨⟨_, readHeader⟩, ⟨_, readBody⟩, -⟩ := (ofBytes_framed_iff short).1 accepted
  cases Format.lock_roundTrips.eq_of_read fits readBody
  exact Format.header_spelled.eq_write readHeader length

/-- A damaged body is read as a lock with another checksum, if at all. -/
theorem not_accepted_of_damaged {lock other : Lock} {body : List UInt8} (fits : lock.Fits)
    (damaged : Damaged (Mark.lock lock) body) :
    ofBytes (fourBytes (Format.header.write (.ofLock lock)).length.toUInt32 ++
      Format.header.write (.ofLock lock) ++ body) ≠ .ok other := by
  intro accepted
  obtain ⟨⟨_, readHeader⟩, ⟨_, readBody⟩, -⟩ :=
    (ofBytes_framed_iff lock.length_header_lt).1 accepted
  have announced := Format.header_roundTrips.eq_of_read trivial readHeader
  rcases Format.lock_guards.notices fits damaged with fails | ⟨read, takes, differ⟩
  · obtain ⟨fault, failed⟩ := fails []
    rw [List.append_nil, readBody] at failed
    cases failed
  · have same := takes []
    rw [List.append_nil, readBody] at same
    cases same
    have sums : (Header.ofLock other).checksum = (Header.ofLock lock).checksum :=
      congrArg Header.checksum announced
    simp only [Header.ofLock, checksum] at sums
    exact hash_ne_of_differOnce differ sums.symm

/-- A damaged lockfile is refused. Its header, as long as it was, may be any other bytes. Of its
body one byte may be another: a byte of a text or a switch any other, and the kind of a removal
that of another removal; `Mark.lock` tells for each byte of the body which of these it is. -/
theorem damage_refused {lock : Lock} (texts : ∀ s ∈ lock.texts, Text.Fits s)
    (short : ∀ list, lock.count list ≤ 100000) :
    let header := Format.header.write (.ofLock lock)
    let body := Format.lock.write lock
    let length := fourBytes header.length.toUInt32
    lock.toBytes = length ++ header ++ body ∧ (Mark.lock lock).map Mark.byte = body ∧
      (∀ other, other.length = header.length → other ≠ header →
        ∃ fault, ofBytes (length ++ other ++ body) = .error fault) ∧
      ∀ i mark new, (Mark.lock lock)[i]? = some mark → new ≠ mark.byte → mark.role.Allows new →
        ∃ fault, ofBytes (length ++ header ++ body.set i new) = .error fault := by
  have fits := fits_of_short texts short
  refine ⟨rfl, Format.lock_guards.bytes_marks lock, fun other length different => ?_,
    fun i mark new here different allowed => ?_⟩
  · refine Outcome.exists_error_of_ne_ok fun read accepted => different ?_
    rw [← length] at accepted
    exact header_eq_of_accepted fits length accepted
  · have damaged := damaged_set here different allowed
    rw [Format.lock_guards.bytes_marks] at damaged
    exact Outcome.exists_error_of_ne_ok fun read => not_accepted_of_damaged fits damaged

/-- Damage to the checksum in the header, to the shared switch, to the name `fPIC` and to the
kind of its removal. -/
theorem damage_refused_sample :
    let header := Format.header.write (.ofLock (sample 1))
    let body := Format.lock.write (sample 1)
    let length := fourBytes header.length.toUInt32
    (∀ s ∈ (sample 1).texts, Text.Fits s) ∧ (∀ list, (sample 1).count list ≤ 100000) ∧
      (∃ fault, ofBytes (length ++ header.set 9 231 ++ body) = .error fault) ∧
      (∃ fault, ofBytes (length ++ header ++ body.set 17 0) = .error fault) ∧
      (∃ fault, ofBytes (length ++ header ++ body.set 20 0x46) = .error fault) ∧
      ∃ fault, ofBytes (length ++ header ++ body.set 24 2) = .error fault := by
  have fits : (sample 1).Fits := fits_sample (by decide)
  obtain ⟨-, -, otherHeader, otherByte⟩ := damage_refused fits.texts count_sample_le
  exact ⟨fits.texts, count_sample_le, otherHeader _ List.length_set (by decide +kernel),
    otherByte 17 ⟨1, .switch⟩ 0 (by decide +kernel) (by decide) trivial,
    otherByte 20 ⟨0x66, .text⟩ 0x46 (by decide +kernel) (by decide) trivial,
    otherByte 24 ⟨1, .removal⟩ 2 (by decide +kernel) (by decide) (.inr (.inl rfl))⟩

end PackageConfig.Lock
