/-! Locations in a file tree. A location is kept in its normal form, so two spellings are the same
location exactly when they differ in repeated or trailing slashes and in parts that are a single
dot. A part of two dots is kept, and so is the difference between one and two leading slashes. -/
namespace ApiSurvey

/-- Where a location starts. -/
inductive Anchor where
  | relative
  | root
  /-- Exactly two leading slashes, which a system may treat apart. -/
  | doubleRoot
  deriving DecidableEq, Repr

/-- A location: its anchor and the names on the way from there. -/
structure Location where
  anchor : Anchor
  parts : List String
  deriving DecidableEq, Repr

namespace Location

/-- The anchor that a text's leading slashes spell. Three or more are as good as one. -/
def anchorOf : List Char → Anchor
  | '/' :: '/' :: '/' :: _ => .root
  | '/' :: '/' :: _ => .doubleRoot
  | '/' :: _ => .root
  | _ => .relative

/-- The parts of a text between slashes, without the empty ones and the single dots. -/
def partsOf (text : List Char) : List String :=
  ((text.splitOn '/').filter fun part => part ≠ [] ∧ part ≠ ['.']).map String.ofList

def ofText (text : String) : Location :=
  ⟨anchorOf text.toList, partsOf text.toList⟩

/-- The slashes of an anchor. -/
def slashes : Anchor → String
  | .relative => ""
  | .root => "/"
  | .doubleRoot => "//"

/-- The normal spelling of a location; a single dot stands for the place where one is. -/
def text (location : Location) : String :=
  match location.anchor, location.parts with
  | .relative, [] => "."
  | anchor, parts => slashes anchor ++ "/".intercalate parts

def here : Location :=
  ⟨.relative, []⟩

/-- A place further down from this one. -/
def below (location : Location) (names : List String) : Location :=
  { location with parts := location.parts ++ names }

/-- The place around this one; the outermost place is its own. -/
def parent (location : Location) : Location :=
  { location with parts := location.parts.dropLast }

/-- A null character stands in no name, so a location that spells one cannot be looked up. -/
def hasNull (location : Location) : Bool :=
  location.parts.any fun part => part.toList.contains (Char.ofNat 0)

end Location

end ApiSurvey
