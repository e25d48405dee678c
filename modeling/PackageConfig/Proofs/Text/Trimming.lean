import PackageConfig.Text.Blank
import Mathlib.Data.List.DropRight

/-!
What trimming leaves of a text.

`Trims s core` says it without the way it is found: `s` is `core` between blanks, and `core`
neither begins nor ends with one. A text has exactly one such core, which `trim` finds
(`trim_eq_iff`). So a text without blanks at its ends is left as it is (`Trims.self`), and nothing
is left of a text exactly if it has only blanks (`trim_eq_empty_iff`).
-/

namespace PackageConfig.Text

variable {s core : String} {cs : List Char}

/-- `core` stands in `s` between blanks, and neither begins nor ends with one. -/
structure Trims (s core : String) : Prop where
  exists_ends : ∃ front back : List Char, s.toList = front ++ core.toList ++ back ∧
    (∀ c ∈ front, isBlank c = true) ∧ ∀ c ∈ back, isBlank c = true
  first_solid : ∀ c, core.toList.head? = some c → isBlank c = false
  last_solid : ∀ c, core.toList.getLast? = some c → isBlank c = false

/-- What is left of the characters, and the blanks behind them that are dropped last. -/
theorem trimChars_append_rtakeWhile (cs : List Char) :
    trimChars cs ++ (cs.dropWhile isBlank).rtakeWhile isBlank = cs.dropWhile isBlank :=
  List.rdropWhile_append_rtakeWhile

theorem trims_trim (s : String) : Trims s (trim s) := by
  have kept := trimChars_append_rtakeWhile s.toList
  refine ⟨⟨s.toList.takeWhile isBlank, (s.toList.dropWhile isBlank).rtakeWhile isBlank, ?_,
    fun c mem => List.mem_takeWhile_imp mem, fun c mem => List.mem_rtakeWhile_imp mem⟩,
    fun c found => ?_, fun c found => ?_⟩
  · rw [toList_trim, List.append_assoc, kept, List.takeWhile_append_dropWhile]
  · -- What is left begins with the character that stopped the loss at the front.
    have stopped := List.head?_dropWhile_not isBlank s.toList
    rw [toList_trim] at found
    rw [← kept, List.head?_append, found] at stopped
    exact stopped
  · rw [toList_trim] at found
    have nonempty : trimChars s.toList ≠ [] := fun none => by
      rw [none] at found
      cases found
    have solid := List.rdropWhile_last_not isBlank (s.toList.dropWhile isBlank) nonempty
    exact Bool.not_eq_true _ ▸ List.getLast_of_getLast?_eq_some found ▸ solid

theorem dropWhile_of_solid (first : ∀ c, cs.head? = some c → isBlank c = false) :
    cs.dropWhile isBlank = cs := by
  cases cs with
  | nil => rfl
  | cons c rest => exact List.dropWhile_cons_of_neg (by simp [first c rfl])

/-- Blanks in front of a text, and blanks behind it, are dropped up to the text itself. -/
theorem trimChars_between {front back : List Char} (before : ∀ c ∈ front, isBlank c = true)
    (behind : ∀ c ∈ back, isBlank c = true) (first : ∀ c, cs.head? = some c → isBlank c = false)
    (last : ∀ c, cs.getLast? = some c → isBlank c = false) :
    trimChars (front ++ cs ++ back) = cs := by
  have reversed : cs.reverse.dropWhile isBlank = cs.reverse :=
    dropWhile_of_solid fun c found => last c (List.head?_reverse ▸ found)
  unfold trimChars
  rw [List.append_assoc, List.dropWhile_append_of_pos before]
  cases cs with
  | nil =>
    rw [List.nil_append, List.dropWhile_eq_nil_iff.2 behind]
    rfl
  | cons c rest =>
    have kept : (c :: rest ++ back).dropWhile isBlank = c :: rest ++ back :=
      dropWhile_of_solid first
    rw [kept, List.reverse_append,
      List.dropWhile_append_of_pos fun d mem => behind d (List.mem_reverse.1 mem), reversed,
      List.reverse_reverse]

/-- A text has one core, and trimming finds it. -/
theorem trim_eq_iff : trim s = core ↔ Trims s core := by
  constructor
  · rintro rfl
    exact trims_trim s
  · intro trims
    obtain ⟨front, back, split, before, behind⟩ := trims.exists_ends
    rw [trim, split, trimChars_between before behind trims.first_solid trims.last_solid,
      String.ofList_toList]

/-- A text that neither begins nor ends with a blank is its own core. -/
theorem Trims.self (first : ∀ c, s.toList.head? = some c → isBlank c = false)
    (last : ∀ c, s.toList.getLast? = some c → isBlank c = false) : Trims s s :=
  ⟨⟨[], [], by simp, by simp, by simp⟩, first, last⟩

/-- A trimmed text has no blanks left to lose. -/
@[simp]
theorem trim_trim (s : String) : trim (trim s) = trim s :=
  trim_eq_iff.2 (.self (trims_trim s).first_solid (trims_trim s).last_solid)

/-- Nothing is left of a text that has only blanks, and of no other. -/
theorem trim_eq_empty_iff : trim s = "" ↔ ∀ c ∈ s.toList, isBlank c = true := by
  constructor
  · intro empty
    obtain ⟨front, back, split, before, behind⟩ := (trim_eq_iff.1 empty).exists_ends
    intro c mem
    rw [split] at mem
    simp only [String.toList_empty, List.append_nil, List.mem_append] at mem
    exact mem.elim (before c) (behind c)
  · intro blank
    exact trim_eq_iff.2 ⟨⟨s.toList, [], by simp, blank, by simp⟩, by simp, by simp⟩

end PackageConfig.Text
