/-! Control sequences of terminals. They colour text and move the cursor, and a text that goes
anywhere but to a terminal is better off without them. -/
namespace ApiSurvey.Text

/-- The character that starts a control sequence. -/
def escapeChar : Char := '\x1b'

/-- The characters between the opening bracket of a control sequence and its last letter. -/
def isParameter (c : Char) : Bool :=
  c == ';' || c == '?' || c.isDigit

/-- How much of a control sequence has been read: nothing, the escape character, or the bracket
behind it and these parameters, the last one first. -/
inductive Escape where
  | none
  | started
  | opened (parameters : List Char)

/-- The characters that have been read. -/
def Escape.chars : Escape → List Char
  | .none => []
  | .started => [escapeChar]
  | .opened parameters => escapeChar :: '[' :: parameters.reverse

/-- The rest of a text without control sequences. What looks like the start of one and is none is
kept, and so is a sequence that comes about only when another one is taken away. -/
def withoutControlFrom (escape : Escape) : List Char → List Char
  | [] => escape.chars
  | c :: rest =>
      if c == escapeChar then escape.chars ++ withoutControlFrom .started rest
      else
        match escape with
        | .none => c :: withoutControlFrom .none rest
        | .started =>
            if c == '[' then withoutControlFrom (.opened []) rest
            else escapeChar :: c :: withoutControlFrom .none rest
        | .opened parameters =>
            if isParameter c then withoutControlFrom (.opened (c :: parameters)) rest
            else if c.isAlpha then withoutControlFrom .none rest
            else escape.chars ++ c :: withoutControlFrom .none rest

/-- A text without control sequences: an escape character, an opening bracket, parameters and a
letter. -/
def withoutControl (text : String) : String :=
  String.ofList (withoutControlFrom .none text.toList)

end ApiSurvey.Text
