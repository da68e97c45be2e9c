import ApiSurvey.Command.Discover
import ApiSurvey.Proofs.Disk.Read
import Mathlib.Data.List.Basic

/-! Values on a command line. Whatever the root and the values of the options are,
there are words that say so, and a run of the command depends on these values
alone. -/
namespace ApiSurvey

namespace Location

/-- A character of a piece is a character of the pieces joined. -/
theorem mem_intercalate {sep c : Char} {pieces : List (List Char)} {piece : List Char}
    (hPiece : piece ∈ pieces) (hMem : c ∈ piece) : c ∈ [sep].intercalate pieces := by
  induction pieces with
  | nil => simp at hPiece
  | cons first rest ih =>
      cases rest with
      | nil => simp_all
      | cons second rest =>
          rw [List.intercalate_cons_cons, List.mem_append, List.mem_append]
          obtain rfl | hRest := List.mem_cons.mp hPiece
          · exact .inl (.inl hMem)
          · exact .inr (ih hRest)

/-- The parts of a location hold no character that its text does not. -/
theorem hasNull_ofText {text : String} (hText : Char.ofNat 0 ∉ text.toList) :
    (ofText text).hasNull = false := by
  simp only [hasNull, ofText, partsOf, List.any_eq_false, List.mem_map, List.mem_filter]
  rintro _ ⟨piece, ⟨hPiece, -⟩, rfl⟩ hNull
  rw [String.toList_ofList, List.contains_iff_mem] at hNull
  have hMem : Char.ofNat 0 ∈ ['/'].intercalate (text.toList.splitOn '/') :=
    mem_intercalate hPiece hNull
  rw [List.intercalate_splitOn] at hMem
  exact hText hMem

end Location

namespace Command

/-- What the command is told: a root and the values of its options, as far as they
are given. -/
structure Values where
  root : Option String := none
  option : Opt → Option String := fun _ => none

namespace Values

/-- Words that say these values, in whichever order and form. -/
def SpelledBy (values : Values) (words : List String) : Prop :=
  ∃ arguments, invocation? words = some (.discover arguments) ∧
    arguments.words = values.root.toList ∧
    ∀ option, arguments.value? option = values.option option

def NoNull (values : Values) : Prop :=
  (∀ word ∈ values.root, Char.ofNat 0 ∉ word.toList) ∧
    ∀ option, ∀ word ∈ values.option option, Char.ofNat 0 ∉ word.toList

/-- The request that the values make. -/
def request (values : Values) : Request where
  root := values.root.map Location.ofText
  scopeName := values.option .scopeName
  settings := (values.option .settings).map Location.ofText
  markers :=
    [(MarkerNames.functionKey, (values.option .functionMarker).elim .null .string),
      (MarkerNames.modelKey, (values.option .modelMarker).elim .null .string),
      (MarkerNames.responseKey, (values.option .responseMarker).elim .null .string)]
  output := .ofText ((values.option .output).getD standardOutput)

/-- Arguments that have the root as their word and the values of the options,
whatever else they repeat, are the request of these values. -/
theorem ofArguments?_eq {values : Values} (hNull : values.NoNull) {arguments : Arguments}
    (hWords : arguments.words = values.root.toList)
    (hOptions : ∀ option, arguments.value? option = values.option option) :
    Request.ofArguments? arguments = some values.request := by
  have hFree : hasNullLocation arguments = false := by
    obtain ⟨hRoot, hOption⟩ := hNull
    simp only [hasNullLocation, hWords, hOptions, List.any_eq_false, List.mem_append,
      Option.mem_toList, List.contains_iff_mem]
    rintro word ((hWord | hWord) | hWord)
    · exact hRoot word hWord
    · exact hOption .settings word hWord
    · exact hOption .output word hWord
  unfold Request.ofArguments? request markerOverrides
  simp only [hFree, hWords, hOptions]
  cases values.root <;> simp

/-- A run depends on the values and not on the words that say them. -/
theorem SpelledBy.run_eq {values : Values} {words : List String}
    (hSpelled : values.SpelledBy words) (hNull : values.NoNull) (host : Host) (disk : Disk) :
    run words host disk = values.request.run host disk := by
  obtain ⟨arguments, hInvocation, hWords, hOptions⟩ := hSpelled
  rw [run, hInvocation]
  simp only [ofArguments?_eq hNull hWords hOptions]

def optionWords (values : Values) (option : Opt) : List String :=
  (values.option option).toList.flatMap fun value => [option.text, value]

theorem readFrom?_option (seen : Arguments) (option : Opt) (value : String)
    (rest : List String) :
    readFrom? seen (option.text :: value :: rest) =
      readFrom? { seen with options := (option, value) :: seen.options } rest := by
  cases option <;> rfl

theorem readFrom?_endOfOptions (seen : Arguments) (rest : List String) :
    readFrom? seen (endOfOptions :: rest) = some { seen with words := seen.words ++ rest } := rfl

theorem invocation?_discoverName (words : List String) :
    invocation? (discoverName :: words) = commandOf? discoverName words := rfl

/-- By induction on the options: each of those with a value takes its two words, and
the others take none. -/
theorem readFrom?_options (values : Values) (seen : Arguments) (options : List Opt)
    (rest : List String) :
    readFrom? seen (options.flatMap values.optionWords ++ rest) =
      readFrom? { seen with
        options :=
          (options.filterMap fun option => (values.option option).map (option, ·)).reverse ++
            seen.options } rest := by
  induction options generalizing seen with
  | nil => rfl
  | cons option options ih =>
      rw [List.flatMap_cons, List.append_assoc, optionWords]
      cases hValue : values.option option with
      | none => simpa [hValue] using ih seen
      | some value =>
          simp only [Option.toList_some, List.flatMap_cons, List.flatMap_nil, List.append_nil,
            List.cons_append, List.nil_append]
          rw [readFrom?_option, ih]
          simp [hValue]

/-- Where the entries are just the values there are, looking up an option gives its
value. -/
theorem lookup_eq_of_mem {values : Opt → Option String} {entries : List (Opt × String)}
    (hEntries : ∀ option value, (option, value) ∈ entries ↔ values option = some value)
    (option : Opt) : entries.lookup option = values option := by
  cases hFound : entries.lookup option with
  | some value =>
      obtain ⟨before, after, rfl, -⟩ := List.lookup_eq_some_iff.mp hFound
      exact ((hEntries option value).mp (by simp)).symm
  | none =>
      cases hValue : values option with
      | none => rfl
      | some value =>
          have hMem := (hEntries option value).mpr hValue
          have hOther := List.lookup_eq_none_iff.mp hFound _ hMem
          simp at hOther

/-- Every root and all values of the options can be said. -/
theorem exists_spelledBy (values : Values) : ∃ words, values.SpelledBy words := by
  let given := Opt.all.filterMap fun option => (values.option option).map (option, ·)
  have hRead : readFrom? {} (Opt.all.flatMap values.optionWords ++
      endOfOptions :: values.root.toList) = some ⟨values.root.toList, given.reverse, false⟩ := by
    rw [readFrom?_options, readFrom?_endOfOptions]
    simp [given]
  refine ⟨discoverName :: (Opt.all.flatMap values.optionWords ++
    endOfOptions :: values.root.toList), ⟨values.root.toList, given.reverse, false⟩, ?_, rfl, ?_⟩
  · rw [invocation?_discoverName, commandOf?, if_pos (beq_self_eq_true discoverName), hRead]
    rfl
  · intro option
    refine lookup_eq_of_mem ?_ option
    intro other value
    have hAll : other ∈ Opt.all := by cases other <;> decide
    simp [given, hAll]

end Values

end Command

end ApiSurvey
