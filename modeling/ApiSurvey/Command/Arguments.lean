/-! The words of a command line. -/
namespace ApiSurvey.Command

/-- The options, each of which takes a value. -/
inductive Opt where
  | scopeName
  | settings
  | functionMarker
  | modelMarker
  | responseMarker
  | output
  deriving DecidableEq, Repr

/-- How an option is written. -/
def Opt.text : Opt → String
  | .scopeName => "--namespace-root"
  | .settings => "--config"
  | .functionMarker => "--fn-marker"
  | .modelMarker => "--model-marker"
  | .responseMarker => "--response-marker"
  | .output => "--output"

def Opt.all : List Opt :=
  [.scopeName, .settings, .functionMarker, .modelMarker, .responseMarker, .output]

/-- The option that is written so; there are no abbreviations. -/
def Opt.ofText? (text : String) : Option Opt :=
  Opt.all.find? fun option => option.text == text

/-- The word that asks for help. -/
def helpWord : String := "--help"

/-- The word behind which no word is an option. -/
def endOfOptions : String := "--"

/-- What a command line says: the words that are no options, the values of options with the latest
first, and whether help is asked for. -/
structure Arguments where
  words : List String := []
  options : List (Opt × String) := []
  help : Bool := false

/-- The value of an option; the last one given counts. -/
def Arguments.value? (arguments : Arguments) (option : Opt) : Option String :=
  arguments.options.lookup option

/-- Whether a word is written like an option. A single dash is not. -/
def isOptionWord (word : String) : Bool :=
  match word.toList with
  | '-' :: _ :: _ => true
  | _ => false

/-- An option word before and behind its first equals sign. -/
def splitOption (word : String) : String × Option String :=
  match word.toList.span (· != '=') with
  | (name, _ :: value) => (String.ofList name, some (String.ofList value))
  | (_, []) => (word, none)

/-- Reads the words of a command. An option takes the word behind it, whatever that is, unless its
value follows an equals sign. There is no answer for an unknown option or a missing value. -/
def readFrom? (seen : Arguments) : List String → Option Arguments
  | [] => some seen
  | word :: rest =>
      if word == endOfOptions then some { seen with words := seen.words ++ rest }
      else if isOptionWord word then
        let (name, value) := splitOption word
        if name == helpWord && value.isNone then readFrom? { seen with help := true } rest
        else
          match Opt.ofText? name, value, rest with
          | none, _, _ => none
          | some option, some value, rest =>
              readFrom? { seen with options := (option, value) :: seen.options } rest
          | some option, none, value :: rest =>
              readFrom? { seen with options := (option, value) :: seen.options } rest
          | some _, none, [] => none
      else readFrom? { seen with words := seen.words ++ [word] } rest

/-- What a whole command line asks for. -/
inductive Invocation where
  | help
  | discover (arguments : Arguments)

def discoverName : String := "discover"

def commandOf? (name : String) (words : List String) : Option Invocation :=
  if name == discoverName then
    (readFrom? {} words).map fun arguments =>
      if arguments.help then .help else .discover arguments
  else none

/-- Reads the words before the name of the command, of which only the one that asks for help is
known. The answer is whether it is among them, and the words from the name on. -/
def beforeName? (help : Bool) : List String → Option (Bool × List String)
  | [] => some (help, [])
  | word :: rest =>
      if word == endOfOptions then some (help, rest)
      else if isOptionWord word then
        if word == helpWord then beforeName? true rest else none
      else some (help, word :: rest)

/-- Reads a command line: the name of the command and its words. Where help is asked for before the
name, nothing behind is looked at. -/
def invocation? (words : List String) : Option Invocation :=
  match beforeName? false words with
  | none => none
  | some (true, _) => some .help
  | some (false, []) => none
  | some (false, name :: words) => commandOf? name words

end ApiSurvey.Command
