import ApiSurvey.Json.Token

/-! Reading JSON texts. The tokens of a text drive a machine that keeps the containers which are
open; a text is a value if the machine ends with a value and no open container. -/
namespace ApiSurvey.Json

/-- An open container: what it holds so far, the newest first, and for an object the key whose
value is being read. -/
inductive Frame where
  | array (items : List Json)
  | object (members : List (String × Json)) (key : String)

/-- What the machine expects next. -/
inductive State where
  /-- A value. -/
  | value (frames : List Frame)
  /-- The first item of an array, or its end. -/
  | firstItem (frames : List Frame)
  /-- The first key of an object, or its end. -/
  | firstKey (frames : List Frame)
  /-- A key of an object that holds these members. -/
  | key (members : List (String × Json)) (frames : List Frame)
  /-- The colon behind a key. -/
  | colon (members : List (String × Json)) (key : String) (frames : List Frame)
  /-- What may follow a value. -/
  | after (value : Json) (frames : List Frame)

/-- A token where a value is expected. -/
def startValue? (frames : List Frame) : Token → Option State
  | .arrayStart => some (.firstItem frames)
  | .objectStart => some (.firstKey frames)
  | .scalar value => some (.after value frames)
  | _ => none

/-- A token behind a value: a comma asks for the next one in the innermost container, and a
bracket of its kind closes it. -/
def follow? (value : Json) : List Frame → Token → Option State
  | .array items :: frames, .comma => some (.value (.array (value :: items) :: frames))
  | .array items :: frames, .arrayEnd => some (.after (.array (value :: items).reverse) frames)
  | .object members key :: frames, .comma => some (.key ((key, value) :: members) frames)
  | .object members key :: frames, .objectEnd =>
      some (.after (.object ((key, value) :: members).reverse) frames)
  | _, _ => none

/-- One step of the machine. At most `limit` containers may be open at a time; one that is closed
right after it is opened does not count. -/
def step? (limit : Nat) : State → Token → Option State
  | .value frames, token => startValue? frames token
  | .firstItem frames, .arrayEnd => some (.after (.array []) frames)
  | .firstItem frames, token =>
      if frames.length < limit then startValue? (.array [] :: frames) token else none
  | .firstKey frames, .objectEnd => some (.after (.object []) frames)
  | .firstKey frames, .scalar (.string key) =>
      if frames.length < limit then some (.colon [] key frames) else none
  | .key members frames, .scalar (.string key) => some (.colon members key frames)
  | .colon members key frames, .colon => some (.value (.object members key :: frames))
  | .after value frames, token => follow? value frames token
  | _, _ => none

/-- The value that the machine has read, if it is at the end of one. -/
def State.result? : State → Option Json
  | .after result [] => some result
  | _ => none

/-- What a reader of texts puts up with. -/
structure Limits where
  /-- So many containers may be open at a time. -/
  containers : Nat
  /-- The integer of a number has at most so many digits. -/
  integerDigits : Nat

def ofTokens? (limit : Nat) (tokens : List Token) : Option Json :=
  (tokens.foldlM (step? limit) (.value [])).bind State.result?

/-- The value of a text within limits. -/
def read? (limits : Limits) (text : List Char) : Option Json :=
  (tokens? limits.integerDigits text).bind (ofTokens? limits.containers)

end ApiSurvey.Json
