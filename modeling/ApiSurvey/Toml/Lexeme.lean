import ApiSurvey.Text.Digits

/-! The smallest pieces of a TOML document: blanks, comments and strings. Lines end in a line feed
alone. Every reader here takes a text and answers with what it read and the rest. -/
namespace ApiSurvey.Toml

def isBlank (c : Char) : Bool :=
  c == ' ' || c == '\t'

def isBlankOrBreak (c : Char) : Bool :=
  isBlank c || c == '\n'

/-- A text without the blanks at its start. -/
def skipBlanks (text : List Char) : List Char :=
  text.dropWhile isBlank

/-- Control characters, which stand in no comment and no string of one line. The tab is none of
them. -/
def isControl (c : Char) : Bool :=
  (c.toNat < 0x20 && c != '\t') || c.toNat == 0x7F

/-- Control characters that stand in no string of several lines. -/
def isControlInBlock (c : Char) : Bool :=
  isControl c && c != '\n'

/-- What follows a comment at the start of a text, or the text if there is none. A comment runs to
the end of its line. -/
def skipComment? : List Char → Option (List Char)
  | '#' :: rest =>
      let (comment, rest) := rest.span (· != '\n')
      if comment.any isControl then none else some rest
  | text => some text

/-- What follows the blanks, line ends and comments at the start of a text. -/
def skipGap? (inComment : Bool) : List Char → Option (List Char)
  | [] => some []
  | c :: rest =>
      if inComment then
        if c == '\n' then skipGap? false rest
        else if isControl c then none
        else skipGap? true rest
      else if isBlankOrBreak c then skipGap? false rest
      else if c == '#' then skipGap? true rest
      else some (c :: rest)

/-- The rest of a literal string of one line, in which nothing is escaped. -/
def literalRest? : List Char → Option (List Char × List Char)
  | [] => none
  | c :: rest =>
      if c == '\'' then some ([], rest)
      else if isControl c then none
      else (literalRest? rest).map fun (text, rest) => (c :: text, rest)

/-- Up to two quotes behind the three that end a string of several lines still belong to it. -/
def closingQuotes (quote : Char) : List Char → List Char × List Char
  | first :: second :: rest =>
      if first == quote && second == quote then ([first, second], rest)
      else if first == quote then ([first], second :: rest)
      else ([], first :: second :: rest)
  | [only] => if only == quote then ([only], []) else ([], [only])
  | [] => ([], [])

/-- The rest of a literal string of several lines. -/
def literalBlockRest? : List Char → Option (List Char × List Char)
  | '\'' :: '\'' :: '\'' :: rest => some (closingQuotes '\'' rest)
  | c :: rest =>
      if isControlInBlock c then none
      else (literalBlockRest? rest).map fun (text, rest) => (c :: text, rest)
  | [] => none

/-- The character that a letter behind a backslash stands for. -/
def escaped? (c : Char) : Option Char :=
  match c with
  | 'b' => some '\x08'
  | 't' => some '\t'
  | 'n' => some '\n'
  | 'f' => some '\x0c'
  | 'r' => some '\r'
  | '"' => some '"'
  | '\\' => some '\\'
  | _ => none

/-- The character of hexadecimal digits, unless they are the half of one or beyond the last. -/
def hexChar? (digits : List Char) : Option Char :=
  (Text.hexValue? digits).bind fun code => if code.isValidChar then some (Char.ofNat code) else none

/-- The rest of a basic string of one line. -/
def basicRest? : List Char → Option (List Char × List Char)
  | [] => none
  | '\\' :: 'u' :: a :: b :: c :: d :: rest =>
      (hexChar? [a, b, c, d]).bind fun char =>
        (basicRest? rest).map fun (text, rest) => (char :: text, rest)
  | '\\' :: 'U' :: a :: b :: c :: d :: e :: f :: g :: h :: rest =>
      (hexChar? [a, b, c, d, e, f, g, h]).bind fun char =>
        (basicRest? rest).map fun (text, rest) => (char :: text, rest)
  | '\\' :: c :: rest =>
      (escaped? c).bind fun char =>
        (basicRest? rest).map fun (text, rest) => (char :: text, rest)
  | c :: rest =>
      if c == '"' then some ([], rest)
      else if isControl c || c == '\\' then none
      else (basicRest? rest).map fun (text, rest) => (c :: text, rest)

/-- A place in a basic string of several lines. -/
inductive Block where
  /-- Between two characters of the string. -/
  | text
  /-- Behind a backslash and blanks, where only the end of the line may follow. -/
  | lineEnd
  /-- Behind an escaped line end, where blanks and line ends are passed over. -/
  | margin
  deriving DecidableEq, Repr

/-- The rest of a basic string of several lines. A backslash at the end of a line takes the line
end and all blanks and line ends behind it away. -/
def basicBlockRest? (place : Block) : List Char → Option (List Char × List Char)
  | [] => none
  | c :: rest =>
      if place == .margin && isBlankOrBreak c then basicBlockRest? .margin rest
      else if place == .lineEnd then
        if c == '\n' then basicBlockRest? .margin rest
        else if isBlank c then basicBlockRest? .lineEnd rest
        else none
      else
        match c, rest with
        | '"', '"' :: '"' :: rest => some (closingQuotes '"' rest)
        | '\\', 'u' :: a :: b :: c :: d :: rest =>
            (hexChar? [a, b, c, d]).bind fun char =>
              (basicBlockRest? .text rest).map fun (text, rest) => (char :: text, rest)
        | '\\', 'U' :: a :: b :: c :: d :: e :: f :: g :: h :: rest =>
            (hexChar? [a, b, c, d, e, f, g, h]).bind fun char =>
              (basicBlockRest? .text rest).map fun (text, rest) => (char :: text, rest)
        | '\\', c :: rest =>
            if c == '\n' then basicBlockRest? .margin rest
            else if isBlank c then basicBlockRest? .lineEnd rest
            else
              (escaped? c).bind fun char =>
                (basicBlockRest? .text rest).map fun (text, rest) => (char :: text, rest)
        | c, rest =>
            if isControlInBlock c || c == '\\' then none
            else (basicBlockRest? .text rest).map fun (text, rest) => (c :: text, rest)

/-- A line end right behind the opening quotes is no part of a string of several lines. -/
def dropFirstBreak : List Char → List Char
  | '\n' :: rest => rest
  | text => text

/-- A string at the start of a text: of several lines between three quotes, of one line between
single ones. Double quotes make it basic, single quotes literal. -/
def string? : List Char → Option (List Char × List Char)
  | '"' :: '"' :: '"' :: rest => basicBlockRest? .text (dropFirstBreak rest)
  | '"' :: rest => basicRest? rest
  | '\'' :: '\'' :: '\'' :: rest => literalBlockRest? (dropFirstBreak rest)
  | '\'' :: rest => literalRest? rest
  | _ => none

/-- Characters of keys that need no quotes. -/
def isBareKeyChar (c : Char) : Bool :=
  c.isAlphanum || c == '-' || c == '_'

/-- One part of a key: bare, or a string of one line. -/
def keyPart? (text : List Char) : Option (List Char × List Char) :=
  match text with
  | '"' :: rest => basicRest? rest
  | '\'' :: rest => literalRest? rest
  | text =>
      match text.span isBareKeyChar with
      | ([], _) => none
      | (part, rest) => some (part, rest)

/-- The further parts of a key, each behind a dot, with blanks around dots and behind the last
part. Every round takes a dot away. -/
def moreKeyParts? : (rounds : Nat) → List Char → Option (List String × List Char)
  | 0, _ => none
  | rounds + 1, text =>
      match skipBlanks text with
      | '.' :: rest => do
          let (part, rest) ← keyPart? (skipBlanks rest)
          let (parts, rest) ← moreKeyParts? rounds rest
          return (String.ofList part :: parts, rest)
      | rest => some ([], rest)

/-- A key, and what follows the blanks behind it. There are at least as many rounds for its parts as
the text has characters. -/
def key? (rounds : Nat) (text : List Char) : Option (List String × List Char) := do
  let (part, rest) ← keyPart? text
  let (parts, rest) ← moreKeyParts? rounds rest
  return (String.ofList part :: parts, rest)

end ApiSurvey.Toml
