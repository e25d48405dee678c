import PackageConfig.Volume
import PackageConfig.Proofs.Outcome

/-!
What a written file changes, and what it leaves as it was.

A file is never written over a directory. So every path that led somewhere leads there still
(`locate_put`), and every file that was read at another place is read as before (`read_put`).
A name without a slash, for which a place to write to was found, is a segment of its own behind
the working directory (`outputPlace_of_plain`), and once the file is written the same name
leads to it (`read_written`).
-/

namespace PackageConfig

/-! ## Plain names -/

namespace PathText

variable {name : String}

theorem segmentChars_of_notMem {cs : List Char} (plain : '/' ∉ cs) : segmentChars cs = [cs] := by
  induction cs with
  | nil => rfl
  | cons c cs ih =>
    have rest := ih fun mem => plain (List.mem_cons_of_mem c mem)
    have first : c ≠ '/' := fun same => plain (same ▸ List.mem_cons_self)
    unfold segmentChars
    split
    next same => cases same
    next same =>
      cases same
      exact absurd rfl first
    next c' cs' same =>
      cases same
      rw [rest]

theorem segments_of_plain (plain : '/' ∉ name.toList) : segments name = [name] := by
  rw [segments, segmentChars_of_notMem plain, List.map_singleton, String.ofList_toList]

theorem isAbsolute_of_plain (plain : '/' ∉ name.toList) : isAbsolute name = false := by
  unfold isAbsolute
  cases chars : name.toList with
  | nil => rfl
  | cons c cs =>
    have first : c ≠ '/' := fun same => plain (by simp [chars, same])
    simpa using first

theorem tail_of_plain (plain : '/' ∉ name.toList) :
    tail name = if name = "" then [] else [name] := by
  unfold tail
  rw [segments_of_plain plain, isAbsolute_of_plain plain]
  by_cases empty : name = "" <;> simp [dropIdle, counts, empty]

theorem parent_of_plain (plain : '/' ∉ name.toList) : parent name = "." := by
  unfold parent
  rw [tail_of_plain plain, isAbsolute_of_plain plain]
  by_cases empty : name = ""
  · simp [empty]
  · simp [empty, dropIdle, Text.join]

theorem fileName?_of_plain (plain : '/' ∉ name.toList) :
    fileName? name = if name = "" ∨ name = "." ∨ name = ".." then none else some name := by
  unfold fileName?
  rw [tail_of_plain plain]
  by_cases empty : name = "" <;> simp [empty]

end PathText

namespace Volume

variable {v : Volume} {place found start : Place} {path name segment : String}
  {segments : List String} {limit : Nat} {bytes content : ByteArray}

/-! ## One segment -/

/-- A name can be followed from a place: it is not too long, and something stands behind it. -/
structure Enters (v : Volume) (place : Place) (name : String) : Prop where
  path_short : (shown (place ++ [name])).utf8ByteSize ≤ pathLimit
  directory : v.isDirectory place = true
  name_short : name.utf8ByteSize ≤ nameLimit
  stands : (v.item? (place ++ [name])).isSome = true

theorem walk_idle_eq_ok_iff (idle : segment = "" ∨ segment = ".") :
    v.walk place (segment :: segments) = .ok found ↔
      v.isDirectory place = true ∧ v.walk place segments = .ok found := by
  rw [walk, if_pos idle, Outcome.bind_eq_ok_iff]
  cases v.isDirectory place <;> simp [pure, Except.pure, throw, throwThe, MonadExceptOf.throw]

theorem walk_up_eq_ok_iff : v.walk place (".." :: segments) = .ok found ↔
    v.isDirectory place = true ∧ v.walk place.dropLast segments = .ok found := by
  rw [walk, if_neg (by decide), if_pos rfl]
  cases v.isDirectory place <;> simp

theorem walk_name_eq_ok_iff (moves : ¬(segment = "" ∨ segment = ".")) (down : segment ≠ "..") :
    v.walk place (segment :: segments) = .ok found ↔
      v.Enters place segment ∧ v.walk (place ++ [segment]) segments = .ok found := by
  rw [walk, if_neg moves, if_neg down]
  constructor
  · intro reached
    split at reached
    · cases reached
    next pathShort =>
      split at reached
      · cases reached
      next directory =>
        split at reached
        · cases reached
        next nameShort =>
          split at reached
          · cases reached
          next item stands =>
            refine ⟨⟨by omega, by simpa using directory, by omega, ?_⟩, reached⟩
            rw [stands]
            rfl
  · intro both
    obtain ⟨enters, reached⟩ := both
    obtain ⟨item, stands⟩ := Option.isSome_iff_exists.1 enters.stands
    rw [if_neg (Nat.not_lt.2 enters.path_short), enters.directory, Bool.not_true,
      if_neg Bool.false_ne_true, if_neg (Nat.not_lt.2 enters.name_short), stands]
    exact reached

/-! ## What a write leaves as it was -/

theorem item?_put (v : Volume) (place other : Place) (item : Item) :
    (v.put place item).item? other = if other = place then some item else v.item? other :=
  rfl

/-- A file that is written takes no directory away. -/
theorem isDirectory_put (free : v.isDirectory place = false) (bytes : ByteArray) (other : Place) :
    (v.put place (.file bytes)).isDirectory other = v.isDirectory other := by
  unfold isDirectory at free ⊢
  rw [item?_put]
  by_cases same : other = place
  · rw [if_pos same, same, free]
  · rw [if_neg same]

theorem Enters.put (enters : v.Enters start name) (free : v.isDirectory place = false)
    (bytes : ByteArray) : (v.put place (.file bytes)).Enters start name := by
  refine ⟨enters.path_short, ?_, enters.name_short, ?_⟩
  · rw [isDirectory_put free]
    exact enters.directory
  · rw [item?_put]
    split
    · rfl
    · exact enters.stands

/-- Segments that led somewhere lead there still, beside a file that is written. -/
theorem walk_put (free : v.isDirectory place = false)
    (reached : v.walk start segments = .ok found) :
    (v.put place (.file bytes)).walk start segments = .ok found := by
  -- A segment asks for a directory, of which the write leaves all; a name also asks whether
  -- anything stands behind it, and the write only adds to that.
  induction segments generalizing start with
  | nil => exact reached
  | cons segment segments ih =>
    by_cases idle : segment = "" ∨ segment = "."
    · rw [walk_idle_eq_ok_iff idle] at reached ⊢
      rw [isDirectory_put free]
      exact reached.imp_right ih
    by_cases up : segment = ".."
    · subst up
      rw [walk_up_eq_ok_iff] at reached ⊢
      rw [isDirectory_put free]
      exact reached.imp_right ih
    · rw [walk_name_eq_ok_iff idle up] at reached ⊢
      exact ⟨reached.1.put free bytes, ih reached.2⟩

theorem locate_put (free : v.isDirectory place = false) (led : v.locate path = .ok found) :
    (v.put place (.file bytes)).locate path = .ok found := by
  unfold locate at led ⊢
  split at led
  · cases led
  next noZero =>
    split at led
    · cases led
    next named =>
      rw [if_neg noZero, if_neg named]
      split at led
      next absolute => exact (if_pos absolute).trans (walk_put free led)
      next relative => exact (if_neg relative).trans (walk_put free led)

theorem read_eq_ok_iff : v.read limit path = .ok content ↔
    ∃ place, v.locate path = .ok place ∧ v.item? place = some (.file content) ∧
      content.size ≤ limit := by
  unfold read
  cases v.locate path with
  | error cause => simp [throw, throwThe, MonadExceptOf.throw]
  | ok place =>
    cases stands : v.item? place with
    | none => simp [stands, throw, throwThe, MonadExceptOf.throw]
    | some item =>
      cases item with
      | directory => simp [stands, throw, throwThe, MonadExceptOf.throw]
      | file bytes =>
        simp only [stands, Except.ok.injEq, exists_eq_left', Option.some.injEq, Item.file.injEq]
        refine Outcome.check_eq_ok_iff.trans ?_
        rw [Nat.not_lt]
        constructor
        · rintro ⟨small, ⟨⟩⟩
          exact ⟨rfl, small⟩
        · rintro ⟨rfl, small⟩
          exact ⟨small, rfl⟩

/-- A file that is read at one place is read as before when another one is written. -/
theorem read_put (free : v.isDirectory place = false) (apart : v.locate path ≠ .ok place)
    (read : v.read limit path = .ok content) :
    (v.put place (.file bytes)).read limit path = .ok content := by
  obtain ⟨other, led, stands, small⟩ := read_eq_ok_iff.1 read
  have differs : other ≠ place := fun same => apart (same ▸ led)
  refine read_eq_ok_iff.2 ⟨other, locate_put free led, ?_, small⟩
  rw [item?_put, if_neg differs, stands]

/-- A text is read from the bytes that encode it. -/
theorem readText_eq_ok_iff {text : String} :
    v.readText limit path = .ok text ↔ v.read limit path = .ok text.toByteArray := by
  have decoded : ∀ content : ByteArray, String.fromUTF8? content = some text ↔
      content = text.toByteArray := by
    intro content
    unfold String.fromUTF8?
    constructor
    · intro valid
      split at valid
      · cases valid
        rfl
      · cases valid
    · rintro rfl
      exact dif_pos text.isValidUTF8
  unfold readText
  rw [Outcome.bind_eq_ok_iff]
  constructor
  · rintro ⟨content, read, valid⟩
    split at valid
    next text' found =>
      cases valid
      rw [read, (decoded content).1 found]
    next => cases valid
  · intro read
    refine ⟨_, read, ?_⟩
    rw [(decoded _).2 rfl]
    rfl

/-- What is made of a text that was read at one place is made of it when another is written. -/
theorem readText_bind_put {α : Type} {parse : String → Except Fault α} {value : α}
    (free : v.isDirectory place = false) (apart : v.locate path ≠ .ok place)
    (found : (v.readText limit path >>= parse) = .ok value) :
    ((v.put place (.file bytes)).readText limit path >>= parse) = .ok value := by
  obtain ⟨text, read, parsed⟩ := Outcome.bind_eq_ok_iff.1 found
  refine Outcome.bind_eq_ok_iff.2 ⟨text, readText_eq_ok_iff.2 ?_, parsed⟩
  exact read_put free apart (readText_eq_ok_iff.1 read)

/-! ## What a write brings in -/

theorem write_eq_ok_iff {after : Volume} : v.write place bytes = .ok after ↔
    v.writeFault? place = none ∧ v.put place (.file bytes) = after := by
  unfold write
  cases v.writeFault? place <;> simp

/-- A file can be written under a name in a directory. -/
structure Writable (v : Volume) (directory : Place) (name : String) : Prop where
  no_zero : '\x00' ∉ name.toList
  name_short : name.utf8ByteSize ≤ nameLimit
  path_short : (shown (directory ++ [name])).utf8ByteSize ≤ pathLimit
  free : v.isDirectory (directory ++ [name]) = false

theorem writeFault?_eq_none_iff {directory : Place} :
    v.writeFault? (directory ++ [name]) = none ↔ v.Writable directory name := by
  have last : (directory ++ [name]).getLastD "" = name := by simp
  unfold writeFault?
  dsimp only
  rw [last]
  constructor
  · intro passed
    split at passed
    · cases passed
    next noZero =>
      split at passed
      · cases passed
      next short =>
        split at passed
        · cases passed
        next free =>
          rw [not_or, Nat.not_lt, Nat.not_lt] at short
          exact ⟨by simpa using noZero, short.1, short.2, by simpa using free⟩
  · intro writable
    have noZero : ¬name.toList.contains '\x00' = true := by
      simpa using writable.no_zero
    have short : ¬(nameLimit < name.utf8ByteSize ∨
        pathLimit < (shown (directory ++ [name])).utf8ByteSize) := by
      rw [not_or, Nat.not_lt, Nat.not_lt]
      exact ⟨writable.name_short, writable.path_short⟩
    simp only [if_neg noZero, if_neg short, writable.free, Bool.false_eq_true, if_false]

theorem outputPlace_eq_ok_iff : v.outputPlace path = .ok place ↔
    ∃ directory name, v.locate (PathText.parent path) = .ok directory ∧
      v.isDirectory directory = true ∧ PathText.fileName? path = some name ∧
        directory ++ [name] = place := by
  unfold outputPlace
  dsimp only
  cases v.locate (PathText.parent path) with
  | error cause => simp [throw, throwThe, MonadExceptOf.throw]
  | ok directory =>
    simp only [Except.ok.injEq, exists_and_left, exists_eq_left']
    refine Outcome.check_eq_ok_iff.trans ?_
    cases PathText.fileName? path <;>
      simp [pure, Except.pure, throw, throwThe, MonadExceptOf.throw]

/-- The working directory by its name. -/
theorem locate_dot_eq_ok_iff :
    v.locate "." = .ok found ↔ v.isDirectory v.home = true ∧ v.home = found := by
  have walked : v.locate "." = v.walk v.home ["."] := rfl
  rw [walked, walk_idle_eq_ok_iff (.inr rfl)]
  simp [walk]

/-- A plain name is written into the working directory. -/
theorem outputPlace_of_plain (plain : '/' ∉ name.toList) :
    v.outputPlace name = .ok place ↔
      v.isDirectory v.home = true ∧ ¬(name = "" ∨ name = "." ∨ name = "..") ∧
        v.home ++ [name] = place := by
  rw [outputPlace_eq_ok_iff, PathText.parent_of_plain plain, PathText.fileName?_of_plain plain]
  simp only [locate_dot_eq_ok_iff]
  constructor
  · rintro ⟨directory, other, ⟨here, rfl⟩, -, named, rfl⟩
    split at named
    · cases named
    next proper =>
      cases named
      exact ⟨here, proper, rfl⟩
  · rintro ⟨here, proper, rfl⟩
    exact ⟨v.home, name, ⟨here, rfl⟩, here, if_neg proper, rfl⟩

/-- A plain name is followed from the working directory. -/
theorem locate_of_plain (plain : '/' ∉ name.toList)
    (proper : ¬(name = "" ∨ name = "." ∨ name = "..")) :
    v.locate name = .ok found ↔
      '\x00' ∉ name.toList ∧ v.Enters v.home name ∧ v.home ++ [name] = found := by
  obtain ⟨named, moves⟩ := not_or.1 proper
  obtain ⟨moves, down⟩ := not_or.1 moves
  have walked : v.walk v.home [name] = .ok found ↔
      v.Enters v.home name ∧ v.home ++ [name] = found := by
    rw [walk_name_eq_ok_iff (not_or.2 ⟨named, moves⟩) down]
    simp [walk]
  unfold locate
  rw [if_neg named, PathText.isAbsolute_of_plain plain, if_neg Bool.false_ne_true,
    PathText.segments_of_plain plain, ← walked]
  by_cases zero : '\x00' ∈ name.toList <;> simp [zero]

/-- A plain name leads to the file that was written under it. -/
theorem read_written (plain : '/' ∉ name.toList)
    (proper : ¬(name = "" ∨ name = "." ∨ name = "..")) (here : v.isDirectory v.home = true)
    (writable : v.Writable v.home name) (small : bytes.size ≤ limit) :
    (v.put (v.home ++ [name]) (.file bytes)).read limit name = .ok bytes := by
  have stands : (v.put (v.home ++ [name]) (.file bytes)).item? (v.home ++ [name]) =
      some (.file bytes) := by
    rw [item?_put, if_pos rfl]
  have enters : (v.put (v.home ++ [name]) (.file bytes)).Enters v.home name := by
    refine ⟨writable.path_short, ?_, writable.name_short, ?_⟩
    · rw [isDirectory_put writable.free]
      exact here
    · rw [stands]
      rfl
  have led := (locate_of_plain plain proper).2 ⟨writable.no_zero, enters, rfl⟩
  exact read_eq_ok_iff.2 ⟨v.home ++ [name], led, stands, small⟩

end Volume

end PackageConfig
