import PackageConfig.Toml.Quotation

/-!
The tokens of TOML: words, quoted texts, marks and line ends. Blanks and
comments separate tokens and leave no token of their own, but a token knows the
blanks in front of it.

A malformed quoted text is a token all the same; a malformed comment or a stray
carriage return leaves a text without tokens.
-/

namespace PackageConfig.Toml

/-- The kinds of tokens. -/
inductive Token where
  /-- A run of characters up to a blank, a mark, a comment or a line break; only at its
  start a quotation mark would begin a quoted text. -/
  | word (s : String)
  | quoted (q : Quotation)
  /-- One of the characters `=`, `.`, `,` and the brackets. -/
  | mark (c : Char)
  | lineEnd
  deriving DecidableEq, Inhabited

/-- A token with the blanks in front of it. -/
structure Lexeme where
  token : Token
  gap : List Char
  deriving DecidableEq, Inhabited

/-- Whether a character is a blank, of which only spaces and tabs count. -/
def isGap (c : Char) : Bool :=
  c = ' ' || c = '\t'

/-- Whether a character is a token by itself. -/
def isMark (c : Char) : Bool :=
  ['=', '.', ',', '[', ']', '\x7b', '\x7d'].contains c

/-- Whether a character goes on with a word. -/
def isWordChar (c : Char) : Bool :=
  !(isMark c || [' ', '\t', '\n', '\x0d', '#'].contains c)

/-- Whether the characters of a comment, up to the end of its line, are allowed;
the `\r` of a line break is. -/
def isComment (line : List Char) (broken : Bool) : Bool :=
  line.all isPlain || (broken && line.getLast? = some '\x0d' && line.dropLast.all isPlain)

theorem length_dropWhile_le (p : Char → Bool) (cs : List Char) :
    (cs.dropWhile p).length ≤ cs.length :=
  (List.dropWhile_sublist p).length_le

theorem length_lt_of_dropWhile_eq {p : Char → Bool} {c : Char} {cs rest : List Char}
    (h : cs.dropWhile p = c :: rest) : rest.length < cs.length :=
  Nat.lt_of_lt_of_le (by rw [h]; exact Nat.lt_succ_self _) (length_dropWhile_le p cs)

/-- The tokens of a text, if its comments and line breaks are well formed. -/
def lexemes (cs : List Char) : Option (List Lexeme) :=
  let gap := cs.takeWhile isGap
  match h : cs.dropWhile isGap with
  | [] => some []
  | c :: rest =>
    have : rest.length < cs.length := length_lt_of_dropWhile_eq h
    if c = '\n' then (lexemes rest).map (⟨.lineEnd, gap⟩ :: ·)
    else if c = '\x0d' then if rest.head? = some '\n' then lexemes rest else none
    else if c = '#' then
      let after := rest.dropWhile (· != '\n')
      have : (rest.dropWhile (· != '\n')).length ≤ rest.length := length_dropWhile_le _ rest
      if isComment (rest.takeWhile (· != '\n')) (!after.isEmpty) then lexemes after else none
    else if c = '"' || c = '\'' then
      let found := quotation c rest
      have : (quotation c rest).2.length ≤ rest.length := length_quotation_le c rest
      (lexemes found.2).map (⟨.quoted found.1, gap⟩ :: ·)
    else if isMark c then (lexemes rest).map (⟨.mark c, gap⟩ :: ·)
    else
      have : (rest.dropWhile isWordChar).length ≤ rest.length := length_dropWhile_le _ rest
      (lexemes (rest.dropWhile isWordChar)).map
        (⟨.word (String.ofList (c :: rest.takeWhile isWordChar)), gap⟩ :: ·)
termination_by cs.length

end PackageConfig.Toml
