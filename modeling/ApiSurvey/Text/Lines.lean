/-! Line endings. Files come with several of them, and everything that reads a text sees one. -/
namespace ApiSurvey.Text

/-- Every line ends in a line feed: a carriage return alone, or with a line feed after it, becomes
one line feed. -/
def unifyLines : List Char → List Char
  | [] => []
  | '\r' :: '\n' :: rest => '\n' :: unifyLines rest
  | '\r' :: rest => '\n' :: unifyLines rest
  | c :: rest => c :: unifyLines rest

end ApiSurvey.Text
