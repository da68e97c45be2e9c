import ApiSurvey.Location
import Mathlib.Data.List.Basic
import Mathlib.Logic.Relation

/-! Spellings of locations. Two texts spell the same location exactly when they
differ in repeated or trailing slashes and in parts that are a single dot, and the
normal spelling of a location spells it too. -/
namespace ApiSurvey.Location

/-- A part of a location starts right behind this text. -/
def StartsPart (before : List Char) : Prop :=
  ∀ c ∈ before.getLast?, c = '/'

/-- One step of tidying up a spelling. At the very start of a text slashes mean
more than elsewhere: one of them and two of them are not the same, and the first
slash is never the trailing one. -/
inductive Tidies : List Char → List Char → Prop where
  /-- One of two slashes in a row goes. -/
  | slash {before after : List Char} (hBefore : ∃ c ∈ before, c ≠ '/') :
      Tidies (before ++ '/' :: '/' :: after) (before ++ '/' :: after)
  /-- A slash at the end goes. -/
  | trailing {before : List Char} (hBefore : ∃ c ∈ before, c ≠ '/') :
      Tidies (before ++ ['/']) before
  /-- Three or more slashes at the start become one. -/
  | leading {after : List Char} (more : Nat) (hAfter : after.head? ≠ some '/') :
      Tidies (List.replicate (more + 3) '/' ++ after) ('/' :: after)
  /-- A single dot goes with the slash behind it. -/
  | dot {before after : List Char} (hBefore : StartsPart before)
      (hAfter : after.head? ≠ some '/') : Tidies (before ++ '.' :: '/' :: after) (before ++ after)
  /-- A single dot at the end goes. -/
  | lastDot {before : List Char} (hBefore : StartsPart before) : Tidies (before ++ ['.']) before

/-- Spellings that can be turned into each other by tidying up, back and forth. -/
def Respells (first second : String) : Prop :=
  Relation.EqvGen Tidies first.toList second.toList

def ofChars (text : List Char) : Location :=
  ⟨anchorOf text, partsOf text⟩

theorem ofText_eq (text : String) : ofText text = ofChars text.toList :=
  rfl

section Parts

theorem partsOf_nil : partsOf [] = [] :=
  rfl

theorem partsOf_dot : partsOf ['.'] = [] :=
  rfl

/-- A slash divides the parts of a text. -/
theorem partsOf_append_slash (before after : List Char) :
    partsOf (before ++ '/' :: after) = partsOf before ++ partsOf after := by
  simp [partsOf, List.splitOn_append_cons_self]

theorem partsOf_slash_cons (text : List Char) : partsOf ('/' :: text) = partsOf text :=
  partsOf_append_slash [] text

/-- Leading slashes add no parts. -/
theorem partsOf_slashes_append (count : Nat) (text : List Char) :
    partsOf (List.replicate count '/' ++ text) = partsOf text := by
  induction count with
  | zero => rfl
  | succ count ih => rw [List.replicate_succ, List.cons_append, partsOf_slash_cons, ih]

/-- A text without slashes is its own single part, unless it is empty or a dot. -/
theorem partsOf_part {part : List Char} (hSlash : '/' ∉ part) (hSome : part ≠ [])
    (hDot : part ≠ ['.']) : partsOf part = [String.ofList part] := by
  simp [partsOf, List.splitOn_eq_singleton hSlash, hSome, hDot]

end Parts

section Anchors

/-- The anchor that a number of slashes at the start spells. -/
def anchorAt : Nat → Anchor
  | 0 => .relative
  | 2 => .doubleRoot
  | _ => .root

/-- The anchor depends on how many slashes the text starts with. -/
theorem anchorOf_slashes_append (count : Nat) {rest : List Char} (hRest : rest.head? ≠ some '/') :
    anchorOf (List.replicate count '/' ++ rest) = anchorAt count := by
  have hOther : ∀ after, rest ≠ '/' :: after := by
    rintro after rfl
    exact hRest rfl
  match count with
  | 0 => simp [anchorOf, anchorAt, hOther]
  | 1 => simp [anchorOf, anchorAt, hOther]
  | 2 => simp [anchorOf, anchorAt]
  | count + 3 => rfl

/-- Every text starts with some slashes, and what follows them starts with none. -/
theorem exists_leading (text : List Char) :
    ∃ count rest, text = List.replicate count '/' ++ rest ∧ rest.head? ≠ some '/' := by
  induction text with
  | nil => exact ⟨0, [], rfl, by simp⟩
  | cons c text ih =>
      by_cases hSlash : c = '/'
      · obtain ⟨count, rest, rfl, hRest⟩ := ih
        exact ⟨count + 1, rest, by rw [hSlash]; rfl, hRest⟩
      · exact ⟨0, c :: text, rfl, by simpa using hSlash⟩

/-- What follows has no part in the anchor, unless it goes on with the slashes at
the start. -/
theorem anchorOf_append {before first second : List Char}
    (hStart : (∃ c ∈ before, c ≠ '/') ∨ first.head? ≠ some '/' ∧ second.head? ≠ some '/') :
    anchorOf (before ++ first) = anchorOf (before ++ second) := by
  obtain ⟨count, rest, rfl, hRest⟩ := exists_leading before
  rw [List.append_assoc, List.append_assoc]
  cases rest with
  | nil =>
      have hHeads : first.head? ≠ some '/' ∧ second.head? ≠ some '/' := by
        refine hStart.resolve_left ?_
        rintro ⟨c, hMem, hSlash⟩
        exact hSlash (List.eq_of_mem_replicate (by simpa using hMem))
      rw [List.nil_append, List.nil_append, anchorOf_slashes_append count hHeads.1,
        anchorOf_slashes_append count hHeads.2]
  | cons c rest =>
      rw [anchorOf_slashes_append count (by simpa using hRest),
        anchorOf_slashes_append count (by simpa using hRest)]

end Anchors

/-- A part starts where the text does, and behind every slash. -/
theorem startsPart_iff (before : List Char) :
    StartsPart before ↔ before = [] ∨ ∃ init, before = init ++ ['/'] := by
  obtain rfl | ⟨init, last, rfl⟩ := List.eq_nil_or_concat' before
  · simp [StartsPart]
  · simp [StartsPart]

/-- What is taken away with a single dot is no part of the location. -/
theorem StartsPart.partsOf_append {before : List Char} (hBefore : StartsPart before)
    (after : List Char) : partsOf (before ++ after) = partsOf before ++ partsOf after := by
  obtain rfl | ⟨init, rfl⟩ := (startsPart_iff before).mp hBefore
  · rfl
  · rw [List.append_assoc, List.singleton_append, partsOf_append_slash, partsOf_append_slash,
      partsOf_nil, List.append_nil]

/-- Tidying up leads to no other location. -/
theorem Tidies.ofChars_eq {first second : List Char} (hTidies : Tidies first second) :
    ofChars first = ofChars second := by
  have hDot : ∀ after, partsOf ('.' :: '/' :: after) = partsOf after := partsOf_append_slash ['.']
  unfold ofChars
  rw [mk.injEq]
  cases hTidies with
  | @slash before after hBefore =>
      refine ⟨anchorOf_append (.inl hBefore), ?_⟩
      rw [partsOf_append_slash, partsOf_append_slash, partsOf_slash_cons]
  | trailing hBefore =>
      constructor
      · have hAnchor : anchorOf (second ++ ['/']) = anchorOf (second ++ []) :=
          anchorOf_append (.inl hBefore)
        simpa using hAnchor
      · rw [partsOf_append_slash, partsOf_nil, List.append_nil]
  | @leading after more hAfter =>
      constructor
      · rw [anchorOf_slashes_append _ hAfter]
        exact (anchorOf_slashes_append 1 hAfter).symm
      · rw [partsOf_slashes_append, partsOf_slash_cons]
  | @dot before after hBefore hAfter =>
      constructor
      · exact anchorOf_append (.inr ⟨by simp, hAfter⟩)
      · rw [hBefore.partsOf_append, hBefore.partsOf_append, hDot]
  | lastDot hBefore =>
      constructor
      · have hAnchor : anchorOf (second ++ ['.']) = anchorOf (second ++ []) :=
          anchorOf_append (.inr (by simp))
        simpa using hAnchor
      · rw [hBefore.partsOf_append, partsOf_dot, List.append_nil]

/-- Texts that tidy up to each other spell the same location. -/
theorem ofChars_eq_of_eqvGen {first second : List Char}
    (hSame : Relation.EqvGen Tidies first second) : ofChars first = ofChars second := by
  induction hSame with
  | rel first second hTidies => exact hTidies.ofChars_eq
  | refl text => rfl
  | symm first second _ ih => exact ih.symm
  | trans first second third _ _ ihFirst ihSecond => exact ihFirst.trans ihSecond

/-- Slashes behind a slash go one by one. -/
theorem tidies_slashes {before : List Char} (hBefore : ∃ c ∈ before, c ≠ '/') (count : Nat)
    (after : List Char) :
    Relation.EqvGen Tidies (before ++ '/' :: (List.replicate count '/' ++ after))
      (before ++ '/' :: after) := by
  induction count with
  | zero => exact .refl _
  | succ count ih => exact .trans _ _ _ (.rel _ _ (.slash hBefore)) ih

def joined (parts : List String) : List Char :=
  ['/'].intercalate (parts.map String.toList)

theorem joined_cons {name : String} {names : List String} (hNames : names ≠ []) :
    joined (name :: names) = name.toList ++ '/' :: joined names := by
  have hTexts : names.map String.toList ≠ [] := by simpa using hNames
  rw [joined, List.map_cons, List.intercalate_cons_of_ne_nil hTexts, List.append_assoc]
  rfl

/-- A text that starts with no slash, cut in front of its second part. -/
theorem exists_part (text : List Char) (hText : text.head? ≠ some '/') :
    ('/' ∉ text) ∨ ∃ part count rest, text = part ++ '/' :: (List.replicate count '/' ++ rest) ∧
      '/' ∉ part ∧ part ≠ [] ∧ rest.head? ≠ some '/' := by
  by_cases hMem : '/' ∈ text
  · obtain ⟨part, behind, rfl, hPart⟩ := List.eq_append_cons_of_mem hMem
    obtain ⟨count, rest, rfl, hRest⟩ := exists_leading behind
    refine .inr ⟨part, count, rest, rfl, hPart, ?_, hRest⟩
    rintro rfl
    exact hText rfl
  · exact .inl hMem

/-- Tidying reaches the last part, which is dropped if it is empty or a dot. -/
theorem tidies_lastPart {before part : List Char} (hBefore : StartsPart before)
    (hSlash : '/' ∉ part) :
    Relation.EqvGen Tidies (before ++ part) (before ++ joined (partsOf part)) := by
  by_cases hSome : part = []
  · rw [hSome]
    exact .refl _
  · by_cases hDot : part = ['.']
    · rw [hDot, partsOf_dot, joined, List.map_nil, List.intercalate_nil, List.append_nil]
      exact .rel _ _ (.lastDot hBefore)
    · rw [partsOf_part hSlash hSome hDot, joined, List.map_singleton, List.intercalate_singleton,
        String.toList_ofList]
      exact .refl _

/-- The slash behind a name goes where no other name follows. -/
theorem tidies_name {before part : List Char} (hPart : ∃ c ∈ before ++ part, c ≠ '/')
    (names : List String) :
    Relation.EqvGen Tidies (before ++ part ++ '/' :: joined names)
      (before ++ joined (String.ofList part :: names)) := by
  by_cases hNames : names = []
  · subst hNames
    simpa [joined] using Relation.EqvGen.rel _ _ (Tidies.trailing hPart)
  · rw [joined_cons hNames, String.toList_ofList, List.append_assoc]
    exact .refl _

/-- Behind the slashes at the start, and behind every part, a text can be tidied up
until only its names are left. The induction is on the length, since all slashes
behind a part go at once. -/
theorem tidies_joined {before : List Char} (hBefore : StartsPart before) (text : List Char)
    (hText : text.head? ≠ some '/') :
    Relation.EqvGen Tidies (before ++ text) (before ++ joined (partsOf text)) := by
  induction hLength : text.length using Nat.strongRecOn generalizing before text with
  | ind length ih =>
    subst hLength
    obtain hSlash | ⟨part, count, rest, rfl, hSlash, hSome, hRest⟩ := exists_part text hText
    · exact tidies_lastPart hBefore hSlash
    · have hShorter : rest.length < (part ++ '/' :: (List.replicate count '/' ++ rest)).length := by
        simp only [List.length_append, List.length_cons, List.length_replicate]
        omega
      have hPart : ∃ c ∈ before ++ part, c ≠ '/' := by
        obtain ⟨c, more, rfl⟩ := List.exists_cons_of_ne_nil hSome
        exact ⟨c, by simp, fun hEq => hSlash (by simp [hEq])⟩
      rw [partsOf_append_slash, partsOf_slashes_append, ← List.append_assoc]
      refine .trans _ _ _ (tidies_slashes hPart count rest) ?_
      by_cases hDot : part = ['.']
      · subst hDot
        rw [partsOf_dot, List.nil_append, List.append_assoc]
        exact .trans _ _ _ (.rel _ _ (.dot hBefore hRest)) (ih _ hShorter hBefore rest hRest rfl)
      · have hStarts : StartsPart (before ++ part ++ ['/']) := by simp [StartsPart]
        have hNames := ih _ hShorter hStarts rest hRest rfl
        rw [List.append_assoc _ ['/'], List.append_assoc _ ['/']] at hNames
        rw [partsOf_part hSlash hSome hDot]
        exact .trans _ _ _ hNames (tidies_name hPart (partsOf rest))

/-- A location spelled with as few slashes as possible. The place where one is has
nothing to be spelled. -/
def tidy (location : Location) : List Char :=
  (slashes location.anchor).toList ++ joined location.parts

theorem startsPart_slashes (anchor : Anchor) : StartsPart (slashes anchor).toList := by
  cases anchor <;> simp [StartsPart, slashes]

/-- Leading slashes tidy up to those of the anchor. -/
theorem tidies_slashes_append (count : Nat) {rest : List Char} (hRest : rest.head? ≠ some '/') :
    Relation.EqvGen Tidies (List.replicate count '/' ++ rest)
      ((slashes (anchorAt count)).toList ++ rest) := by
  match count with
  | 0 => simpa [anchorAt, slashes] using .refl _
  | 1 => simpa [anchorAt, slashes] using .refl _
  | 2 => simpa [anchorAt, slashes] using .refl _
  | count + 3 =>
      have hLeading : Tidies (List.replicate (count + 3) '/' ++ rest) ('/' :: rest) :=
        .leading count hRest
      simpa [anchorAt, slashes] using .rel _ _ hLeading

/-- Every text tidies up to the normal spelling of its location, first its leading
slashes and then the names. -/
theorem tidies_tidy (text : List Char) : Relation.EqvGen Tidies text (tidy (ofChars text)) := by
  obtain ⟨count, rest, rfl, hRest⟩ := exists_leading text
  rw [tidy, ofChars, anchorOf_slashes_append count hRest, partsOf_slashes_append]
  exact .trans _ _ _ (tidies_slashes_append count hRest)
    (tidies_joined (startsPart_slashes _) rest hRest)

/-- Two texts spell the same location exactly when tidying up leads from one to the
other. -/
theorem ofText_eq_iff_respells (first second : String) :
    ofText first = ofText second ↔ Respells first second := by
  constructor
  · intro hSame
    refine .trans _ _ _ (tidies_tidy first.toList) ?_
    rw [← ofText_eq, hSame]
    exact .symm _ _ (tidies_tidy second.toList)
  · exact ofChars_eq_of_eqvGen

/-- The normal spelling of a location differs from the tidy one only in the dot for
the place where one is. -/
theorem tidies_text (location : Location) :
    Relation.EqvGen Tidies location.text.toList (tidy location) := by
  have hOther : ∀ anchor parts, (slashes anchor ++ "/".intercalate parts).toList =
      tidy ⟨anchor, parts⟩ := by
    intro anchor parts
    simp [tidy, joined]
  unfold text
  split
  · next hAnchor hParts =>
      have hHere : tidy location = [] := by simp [tidy, joined, slashes, hAnchor, hParts]
      have hStart : StartsPart [] := by simp [StartsPart]
      rw [hHere]
      exact .rel _ _ (.lastDot hStart)
  · rw [hOther]
    exact .refl _

/-- A part of two dots stays, whatever stands around it. -/
theorem partsOf_parent (before after : List Char) :
    partsOf (before ++ '/' :: '.' :: '.' :: '/' :: after) =
      partsOf before ++ ".." :: partsOf after := by
  have hParent : partsOf ['.', '.'] = [".."] := rfl
  rw [partsOf_append_slash]
  exact congrArg _ ((partsOf_append_slash ['.', '.'] after).trans (by rw [hParent]; rfl))

/-- One slash at the start and two of them are never the same. -/
theorem ofChars_slash_ne {rest : List Char} (hRest : rest.head? ≠ some '/') :
    ofChars ('/' :: '/' :: rest) ≠ ofChars ('/' :: rest) := by
  intro hSame
  have hAnchors : anchorOf (List.replicate 2 '/' ++ rest) =
      anchorOf (List.replicate 1 '/' ++ rest) := congrArg anchor hSame
  rw [anchorOf_slashes_append 2 hRest, anchorOf_slashes_append 1 hRest] at hAnchors
  cases hAnchors

/-- The normal spelling of a location spells that location. -/
theorem ofText_text_ofText (text : String) : ofText (ofText text).text = ofText text := by
  have hTidy : Relation.EqvGen Tidies (ofText text).text.toList text.toList :=
    .trans _ _ _ (tidies_text _) (.symm _ _ (tidies_tidy text.toList))
  exact ofChars_eq_of_eqvGen hTidy

end ApiSurvey.Location
