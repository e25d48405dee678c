import PackageConfig.Text.Hex

/-!
The quoted texts of TOML. Between double quotes a backslash begins an escape;
between single quotes every character stands for itself. A text between three
quotes may run over several lines and keeps its line breaks as they are written.

Where a quoted text ends and what it says are two questions: `quotation` finds the
closing quotes, and `unquote?` reads what stands between them, which may be
malformed although its end is known.
-/

namespace PackageConfig.Toml

/-! ## What a quoted text says -/

/-- A character that may stand in a text or comment: no control character but the tab. -/
def isPlain (c : Char) : Bool :=
  c = '\t' || (0x20 ≤ c.toNat && c.toNat ≠ 0x7F)

/-- A character written by the hexadecimal digits of its code point. -/
def scalar? (digits : List Char) : Option Char := do
  let values ← digits.mapM Text.hexDigit?
  let code := values.foldl (fun n digit => 16 * n + digit) 0
  if code.isValidChar then return Char.ofNat code else none

/-- The character that an escape writes, read behind its backslash, and the rest. -/
def escape? : List Char → Option (Char × List Char)
  | 'b' :: rest => some ('\x08', rest)
  | 't' :: rest => some ('\t', rest)
  | 'n' :: rest => some ('\n', rest)
  | 'f' :: rest => some ('\x0c', rest)
  | 'r' :: rest => some ('\x0d', rest)
  | 'e' :: rest => some ('\x1b', rest)
  | '"' :: rest => some ('"', rest)
  | '\\' :: rest => some ('\\', rest)
  | 'x' :: a :: b :: rest => (scalar? [a, b]).map (·, rest)
  | 'u' :: a :: b :: c :: d :: rest => (scalar? [a, b, c, d]).map (·, rest)
  | 'U' :: a :: b :: c :: d :: e :: f :: g :: h :: rest =>
    (scalar? [a, b, c, d, e, f, g, h]).map (·, rest)
  | _ => none

theorem length_escape_lt {cs rest : List Char} {c : Char} (h : escape? cs = some (c, rest)) :
    rest.length < cs.length := by
  revert h
  fun_cases escape? cs <;> intro h <;>
    simp only [Option.map_eq_some_iff, Prod.mk.injEq, Option.some.injEq, reduceCtorEq] at h
  case case9 | case10 | case11 =>
    obtain ⟨_, _, _, rfl⟩ := h
    simp only [List.length_cons]
    omega
  all_goals
    obtain ⟨_, rfl⟩ := h
    simp

/-- What follows blanks and line breaks. -/
def skipBlank : List Char → List Char
  | ' ' :: rest => skipBlank rest
  | '\t' :: rest => skipBlank rest
  | '\n' :: rest => skipBlank rest
  | '\x0d' :: '\n' :: rest => skipBlank rest
  | cs => cs

/-- Skip the blanks and line breaks that a backslash at the end of a line
swallows; only blanks may stand between it and the first line break. -/
def skipFolded : List Char → Option (List Char)
  | ' ' :: rest => skipFolded rest
  | '\t' :: rest => skipFolded rest
  | '\n' :: rest => some (skipBlank rest)
  | '\x0d' :: '\n' :: rest => some (skipBlank rest)
  | _ => none

theorem length_skipBlank_le (cs : List Char) : (skipBlank cs).length ≤ cs.length := by
  fun_induction skipBlank cs with
  | case1 | case2 | case3 | case4 =>
    simp only [List.length_cons]
    omega
  | case5 => exact Nat.le_refl _

theorem length_skipFolded_le {cs rest : List Char} (h : skipFolded cs = some rest) :
    rest.length ≤ cs.length := by
  fun_induction skipFolded cs with
  | case1 _ ih | case2 _ ih =>
    have := ih h
    simp only [List.length_cons]
    omega
  | case3 after | case4 after =>
    cases h
    have := length_skipBlank_le after
    simp only [List.length_cons]
    omega
  | case5 => cases h

/-- What is written between double quotes. -/
def unescape? (cs : List Char) : Option (List Char) :=
  match cs with
  | [] => some []
  | '\\' :: rest =>
    match h : escape? rest with
    | some (c, after) =>
      have : after.length < rest.length := length_escape_lt h
      (unescape? after).map (c :: ·)
    | none =>
      match h : skipFolded rest with
      | none => none
      | some after =>
        have : after.length ≤ rest.length := length_skipFolded_le h
        unescape? after
  | '\x0d' :: '\n' :: rest => (unescape? rest).map ('\x0d' :: '\n' :: ·)
  | '\n' :: rest => (unescape? rest).map ('\n' :: ·)
  | c :: rest => if isPlain c then (unescape? rest).map (c :: ·) else none
termination_by cs.length

/-- Whether characters stand for themselves between single quotes: they are
plain or make line breaks. -/
def isVerbatim : List Char → Bool
  | [] => true
  | '\x0d' :: '\n' :: rest => isVerbatim rest
  | '\n' :: rest => isVerbatim rest
  | c :: rest => isPlain c && isVerbatim rest

/-- The text that is written between quotes, if it is well formed. -/
def unquote? (quote : Char) (written : List Char) : Option String :=
  if quote = '"' then (unescape? written).map String.ofList
  else if isVerbatim written then some (String.ofList written)
  else none

/-! ## Where a quoted text ends -/

/-- A character in front of what is cut off. -/
def keep (c : Char) (cut : Option (List Char) × List Char) : Option (List Char) × List Char :=
  (cut.1.map (c :: ·), cut.2)

/-- Whether a backslash protects a character from closing the text or from being
a backslash that protects. -/
def isShielded (quote c : Char) : Bool :=
  c = quote || c = '\\'

/-- What is written up to the closing quote, if there is one on the line, and what
follows; `behind` says whether a backslash of an escape stands in front. -/
def cutLine (quote : Char) : Bool → List Char → Option (List Char) × List Char
  | _, [] => (none, [])
  | behind, c :: rest =>
    if behind && isShielded quote c then keep c (cutLine quote false rest)
    else if c = quote then (some [], rest)
    else if c = '\n' then (none, c :: rest)
    else keep c (cutLine quote (quote = '"' && c = '\\') rest)

/-- The close of a text between three quotes, at which up to two more quotes belong to the text. -/
def closing (quote : Char) : List Char → Option (List Char × List Char)
  | a :: b :: c :: rest =>
    if a = quote ∧ b = quote ∧ c = quote then
      match rest with
      | d :: e :: more =>
        if d = quote ∧ e = quote then some ([quote, quote], more)
        else if d = quote then some ([quote], e :: more)
        else some ([], rest)
      | [d] => if d = quote then some ([quote], []) else some ([], rest)
      | [] => some ([], [])
    else none
  | _ => none

/-- What is written up to three closing quotes, if there are any, and what follows;
`behind` says whether a backslash of an escape stands in front. -/
def cutLines (quote : Char) : Bool → List Char → Option (List Char) × List Char
  | _, [] => (none, [])
  | behind, c :: rest =>
    if behind && isShielded quote c then keep c (cutLines quote false rest)
    else
      match closing quote (c :: rest) with
      | some (text, after) => (some text, after)
      | none => keep c (cutLines quote (quote = '"' && c = '\\') rest)

/-- What follows three quotes: a line break that follows at once does not count. -/
def skipFirstBreak : List Char → List Char
  | '\n' :: rest => rest
  | '\x0d' :: '\n' :: rest => rest
  | cs => cs

/-- A quoted text: what it says, if it is closed and well formed, and whether it
stands between three quotes. -/
structure Quotation where
  text : Option String
  lines : Bool
  deriving DecidableEq, Inhabited

/-- A quoted text between single quotation marks. -/
def Quotation.ofLine (quote : Char) (cs : List Char) : Quotation × List Char :=
  let cut := cutLine quote false cs
  (⟨cut.1.bind (unquote? quote), false⟩, cut.2)

/-- A quoted text between three quotation marks. -/
def Quotation.ofLines (quote : Char) (cs : List Char) : Quotation × List Char :=
  let cut := cutLines quote false cs
  (⟨cut.1.bind fun written => unquote? quote (skipFirstBreak written), true⟩, cut.2)

/-- The quoted text behind an opening quote, and what follows it. -/
def quotation (quote : Char) (cs : List Char) : Quotation × List Char :=
  match cs with
  | a :: b :: rest =>
    if a = quote ∧ b = quote then Quotation.ofLines quote rest else Quotation.ofLine quote cs
  | _ => Quotation.ofLine quote cs

/-! ## What follows is shorter -/

theorem length_cutLine_le (quote : Char) (behind : Bool) (cs : List Char) :
    (cutLine quote behind cs).2.length ≤ cs.length := by
  fun_induction cutLine quote behind cs with
  | case1 => exact Nat.le_refl _
  | case2 _ _ _ _ ih => exact Nat.le_succ_of_le ih
  | case3 => exact Nat.le_succ _
  | case4 => exact Nat.le_refl _
  | case5 _ _ _ _ _ _ ih => exact Nat.le_succ_of_le ih

theorem length_closing_lt {quote : Char} {cs text rest : List Char}
    (h : closing quote cs = some (text, rest)) : rest.length < cs.length := by
  revert h
  fun_cases closing quote cs <;> intro h <;> cases h <;> simp only [List.length_cons] <;> omega

theorem length_cutLines_le (quote : Char) (behind : Bool) (cs : List Char) :
    (cutLines quote behind cs).2.length ≤ cs.length := by
  fun_induction cutLines quote behind cs with
  | case1 => exact Nat.le_refl _
  | case2 _ _ _ _ ih => exact Nat.le_succ_of_le ih
  | case3 _ _ _ _ _ _ found => exact Nat.le_of_lt (length_closing_lt found)
  | case4 _ _ _ _ _ ih => exact Nat.le_succ_of_le ih

theorem length_quotation_le (quote : Char) (cs : List Char) :
    (quotation quote cs).2.length ≤ cs.length := by
  fun_cases quotation quote cs
  · exact Nat.le_trans (length_cutLines_le _ _ _) (Nat.le_add_right _ 2)
  all_goals exact length_cutLine_le _ _ _

end PackageConfig.Toml
