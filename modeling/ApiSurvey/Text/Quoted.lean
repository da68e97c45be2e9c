import ApiSurvey.Text.Digits
import ApiSurvey.Text.Printable

/-! Quoted texts, as complaints show them: one line between quotes, in which everything that
cannot be seen is written as an escape. -/
namespace ApiSurvey.Text

/-- One character between the given quotes. An invisible character is written by its code, in the
shortest of three widths. -/
def quotedChar (quote c : Char) : List Char :=
  if c == quote || c == '\\' then ['\\', c]
  else if c == '\n' then ['\\', 'n']
  else if c == '\r' then ['\\', 'r']
  else if c == '\t' then ['\\', 't']
  else if isPrintable c then [c]
  else if c.toNat < 0x100 then '\\' :: 'x' :: hexDigits 2 c.toNat
  else if c.toNat < 0x10000 then '\\' :: 'u' :: hexDigits 4 c.toNat
  else '\\' :: 'U' :: hexDigits 8 c.toNat

/-- Single quotes are used unless the text holds one of them and no double quote. -/
def quoteFor (text : List Char) : Char :=
  if text.contains '\'' && !text.contains '"' then '"' else '\''

def quotedChars (text : List Char) : List Char :=
  let quote := quoteFor text
  quote :: text.flatMap (quotedChar quote) ++ [quote]

/-- A string between quotes. -/
def quoted (text : String) : String :=
  String.ofList (quotedChars text.toList)

end ApiSurvey.Text
