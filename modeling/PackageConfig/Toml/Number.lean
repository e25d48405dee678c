import PackageConfig.Text.Hex

/-!
The numbers of TOML: whole numbers, which may be written in other radices,
numbers with a fraction or an exponent, infinities and the undefined number.

No table has a place for a number, so a number is only told from what is none:
its value is not computed and has no limits.
-/

namespace PackageConfig.Toml

/-- What follows the sign in front of a number, if there is one. -/
def unsigned : List Char → List Char
  | '+' :: cs => cs
  | '-' :: cs => cs
  | cs => cs

/-- Whether a character is a hexadecimal digit. -/
def isHexDigit (c : Char) : Bool :=
  (Text.hexDigit? c).isSome

/-! ## Underscores -/

/-- Whether every underscore has a digit in front of it and behind it; `behind` says
whether a digit stands in front of all. -/
def separatedFrom (isDigit : Char → Bool) : Bool → List Char → Bool
  | _, [] => true
  | behind, c :: cs =>
    if c = '_' then behind && cs.head?.any isDigit && separatedFrom isDigit false cs
    else separatedFrom isDigit (isDigit c) cs

/-- Whether underscores stand between digits only. -/
def separated (isDigit : Char → Bool) (cs : List Char) : Bool :=
  separatedFrom isDigit false cs

/-! ## The kinds of numbers -/

/-- The letters of the radices and their digits. -/
def radixDigit? : Char → Option (Char → Bool)
  | 'x' => some isHexDigit
  | 'o' => some fun c => '0' ≤ c && c ≤ '7'
  | 'b' => some fun c => c = '0' || c = '1'
  | _ => none

/-- A whole number in another radix: a zero, the letter of the radix, and digits of it. -/
def isRadixNumber : List Char → Bool
  | '0' :: letter :: digits =>
    match radixDigit? letter with
    | some isDigit => digits.all (fun c => isDigit c || c = '_') && separated isHexDigit digits
    | none => false
  | _ => false

/-- Whether a character belongs to a run of digits. -/
def isDigitOrBar (c : Char) : Bool :=
  c.isDigit || c = '_'

/-- What follows a run of digits, if it has a digit. -/
def skipDigits? (cs : List Char) : Option (List Char) :=
  if (cs.takeWhile isDigitOrBar).any Char.isDigit then some (cs.dropWhile isDigitOrBar) else none

/-- What follows a fraction, if there is one. -/
def skipFraction? : List Char → Option (List Char)
  | '.' :: cs => skipDigits? cs
  | cs => some cs

/-- What follows an exponent, if there is one. -/
def skipExponent? : List Char → Option (List Char)
  | 'e' :: cs => skipDigits? (unsigned cs)
  | 'E' :: cs => skipDigits? (unsigned cs)
  | cs => some cs

/-- Whether a run of digits starts with a zero that is not its only digit. -/
def hasIdleZero (cs : List Char) : Bool :=
  cs.head? = some '0' && 1 < (cs.takeWhile isDigitOrBar).countP Char.isDigit

/-- A decimal number without its sign, apart from where its underscores stand. -/
def isDecimal (cs : List Char) : Bool :=
  !hasIdleZero cs && ((skipDigits? cs).bind skipFraction?).bind skipExponent? = some []

/-- A word that starts like a whole number with underscores. Behind the first of
them only the neighbours of underscores are checked, since nothing reads the value,
but what makes it look like a number with a fraction or like two words is refused. -/
def isSeparatedWord (cs : List Char) : Bool :=
  cs.head? ≠ some '0' && (cs.dropWhile Char.isDigit).head? = some '_' &&
    !cs.any fun c => c = '.' || c = 'e' || c = 'E' || c = ' '

/-- Whether a word is a number. -/
def isNumber (word : List Char) : Bool :=
  let body := unsigned word
  body = ['i', 'n', 'f'] || body = ['n', 'a', 'n'] || isRadixNumber word ||
    (isDecimal body && separated Char.isDigit word) ||
    (isSeparatedWord body && separated isHexDigit word)

end PackageConfig.Toml
