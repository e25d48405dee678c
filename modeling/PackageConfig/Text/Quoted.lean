import PackageConfig.Text.Printable
import PackageConfig.Text.Split

/-!
Texts in quotation marks, as they stand inside a message: a quote, a backslash
and whatever cannot be printed are written as escapes, all else as it is.
-/

namespace PackageConfig.Text

/-- One character of a quoted text. Line breaks, tabs and the zero character
have short escapes; another unprintable character is written by its code point. -/
def quotedChar (c : Char) : String :=
  match c with
  | '\x00' => "\\0"
  | '\t' => "\\t"
  | '\n' => "\\n"
  | '\x0d' => "\\r"
  | '"' => "\\\""
  | '\\' => "\\\\"
  | _ =>
    if isPrintable c then c.toString
    else "\\u\x7b" ++ String.ofList (Nat.toDigits 16 c.toNat) ++ "\x7d"

/-- A text between quotation marks. -/
def quoted (s : String) : String :=
  "\"" ++ String.join (s.toList.map quotedChar) ++ "\""

/-- Several quoted texts in brackets, separated by commas. -/
def quotedList (texts : List String) : String :=
  "[" ++ join ", " (texts.map quoted) ++ "]"

end PackageConfig.Text
