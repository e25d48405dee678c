/-!
Letter case over the ASCII letters only: names of platforms and booleans are
read in any letter case, and driver names are written in capitals. Letters
beyond ASCII are left as they are.
-/

namespace PackageConfig.Text

/-- Every ASCII letter in lower case. -/
def lowerAscii (s : String) : String :=
  s.map Char.toLower

/-- Every ASCII letter in upper case. -/
def upperAscii (s : String) : String :=
  s.map Char.toUpper

/-- Two texts are the same word when they differ at most in ASCII letter case. -/
def sameWord (s t : String) : Bool :=
  lowerAscii s == lowerAscii t

end PackageConfig.Text
