/-!
Cutting a text at the first occurrence of a character, replacing a character
wherever it occurs, and joining texts with a separator.
-/

namespace PackageConfig.Text

/-- The characters before the first `mark` and those after it, if there is one. -/
def cutChars (mark : Char) : List Char → Option (List Char × List Char)
  | [] => none
  | c :: cs =>
    if c = mark then some ([], cs)
    else (cutChars mark cs).map fun (before, after) => (c :: before, after)

/-- The text before the first `mark` and the text after it, if there is one. -/
def cut (mark : Char) (s : String) : Option (String × String) :=
  (cutChars mark s.toList).map fun (before, after) =>
    (String.ofList before, String.ofList after)

/-- A cut loses nothing but the mark, and the part before it holds no mark. -/
theorem cutChars_eq_some_iff {mark : Char} {cs before after : List Char} :
    cutChars mark cs = some (before, after) ↔
      cs = before ++ mark :: after ∧ mark ∉ before := by
  induction cs generalizing before with
  | nil => simp [cutChars]
  | cons c cs ih =>
    by_cases h : c = mark
    · subst h
      cases before with
      | nil => simp [cutChars, eq_comm]
      | cons b before => simp +contextual [cutChars, eq_comm]
    · cases before with
      | nil => simp [cutChars, h]
      | cons b before =>
        simp only [cutChars, if_neg h, Option.map_eq_some_iff, Prod.mk.injEq, Prod.exists,
          List.cons.injEq, List.cons_append, List.mem_cons, not_or]
        constructor
        · rintro ⟨x, y, hxy, ⟨rfl, rfl⟩, rfl⟩
          obtain ⟨rfl, hx⟩ := ih.1 hxy
          exact ⟨⟨rfl, rfl⟩, fun e => h e.symm, hx⟩
        · rintro ⟨⟨rfl, rfl⟩, -, hb⟩
          exact ⟨before, after, ih.2 ⟨rfl, hb⟩, ⟨rfl, rfl⟩, rfl⟩

theorem cut_eq_some_iff {mark : Char} {s before after : String} :
    cut mark s = some (before, after) ↔
      s.toList = before.toList ++ mark :: after.toList ∧ mark ∉ before.toList := by
  simp only [cut, Option.map_eq_some_iff, Prod.exists, Prod.mk.injEq, cutChars_eq_some_iff]
  constructor
  · rintro ⟨front, back, parts, rfl, rfl⟩
    simpa only [String.toList_ofList] using parts
  · intro parts
    exact ⟨before.toList, after.toList, parts, String.ofList_toList, String.ofList_toList⟩

/-- The characters with `new` in the place of every `old`. -/
def replaceChars (old : Char) (new cs : List Char) : List Char :=
  cs.flatMap fun c => if c = old then new else [c]

/-- The texts one after another with `separator` between neighbours. -/
def join (separator : String) (texts : List String) : String :=
  String.intercalate separator texts

end PackageConfig.Text
