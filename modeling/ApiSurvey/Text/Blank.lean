/-! Blank characters and trimming. A blank is any character that separates words on a line or
ends a line, in every script; a zero-width space and a byte order mark are not blanks. -/
namespace ApiSurvey.Text

/-- The blank characters: tab to carriage return, the four information separators, the space and
its wider or non-breaking relatives, and the line and paragraph separators. -/
def isBlank (c : Char) : Bool :=
  let code := c.toNat
  (0x09 ≤ code && code ≤ 0x0D) || (0x1C ≤ code && code ≤ 0x20) || code == 0x85 || code == 0xA0 ||
    code == 0x1680 || (0x2000 ≤ code && code ≤ 0x200A) || code == 0x2028 || code == 0x2029 ||
    code == 0x202F || code == 0x205F || code == 0x3000

/-- A text without the blanks at its end. -/
def trimEnd (text : List Char) : List Char :=
  (text.reverse.dropWhile isBlank).reverse

/-- A text without the blanks at either end. -/
def trim (text : List Char) : List Char :=
  trimEnd (text.dropWhile isBlank)

/-- A string without the blanks at either end. -/
def trimmed (text : String) : String :=
  String.ofList (trim text.toList)

/-- A text of blanks only has nothing left after trimming. -/
def isBlankText (text : List Char) : Bool :=
  text.all isBlank

end ApiSurvey.Text
