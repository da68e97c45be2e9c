import ApiSurvey.Proofs.Settings.Display
import ApiSurvey.Proofs.Settings.Entry

/-! Lists of roots. The entries of a text are those between its commas, and the entries
of a list are those of its texts one after the other, so a list and the text that joins
it by commas say the same. No entry is without a path. Roots that are written down are
read back, whatever the blanks around them, and reading a text fails only at an entry
that ends in the word `from`. An entry that starts with the word is read, too. -/
namespace ApiSurvey.Root

/-- The roots of entries that are at hand; blank ones are passed over. -/
def ofEntries (scopeName : String) (entries : List (List Char)) :
    Except SettingsFault (List Root) :=
  (entries.filter (!·.isEmpty)).mapM (ofEntry scopeName)

theorem ofSetting_eq (value : Setting) (scopeName : String) :
    ofSetting value scopeName = (entries value).bind (ofEntries scopeName) :=
  rfl

theorem ofSetting_string (text scopeName : String) :
    ofSetting (.string text) scopeName = ofEntries scopeName (entriesOf text) :=
  rfl

/-- Entries are read from left to right, so the faults of the first ones come first.
-/
theorem ofEntries_append (scopeName : String) (first second : List (List Char)) :
    ofEntries scopeName (first ++ second) =
      (ofEntries scopeName first).bind fun roots =>
        (ofEntries scopeName second).map (roots ++ ·) := by
  simp only [ofEntries, List.filter_append, List.mapM_append]
  rfl

/-- A blank entry is passed over. -/
theorem ofEntries_blank (scopeName : String) (entries : List (List Char)) :
    ofEntries scopeName ([] :: entries) = ofEntries scopeName entries :=
  rfl

theorem ofEntries_cons (scopeName : String) {entry : List Char} (hSome : entry ≠ [])
    (entries : List (List Char)) :
    ofEntries scopeName (entry :: entries) =
      (ofEntry scopeName entry).bind fun root =>
        (ofEntries scopeName entries).map (root :: ·) := by
  rw [ofEntries, List.filter_cons_of_pos (by simpa using hSome), List.mapM_cons]
  rfl

/-- A comma keeps the entries on its two sides apart. -/
theorem entriesOf_comma (first second : String) :
    entriesOf (first ++ "," ++ second) = entriesOf first ++ entriesOf second := by
  simp [entriesOf, List.splitOn_append_cons_self]

/-- Texts that are joined by commas have the entries of all of them. Where there is no
text, the one entry is blank. -/
theorem ofEntries_joined (scopeName : String) (texts : List String) :
    ofEntries scopeName (entriesOf (",".intercalate texts)) =
      ofEntries scopeName (texts.flatMap entriesOf) := by
  induction texts with
  | nil => rfl
  | cons text texts ih =>
      cases texts with
      | nil => simp
      | cons next texts =>
          rw [String.intercalate_cons_cons, entriesOf_comma, List.flatMap_cons,
            ofEntries_append, ofEntries_append, ih]

/-- The text that an item of a list holds. -/
def textOf : Setting → Except SettingsFault String
  | .string text => .ok text
  | item => .error (.badEntry item)

theorem entries_list (items : List Setting) :
    entries (.list items) = (items.mapM textOf).map (·.flatMap entriesOf) := by
  -- the reader of an item is written out in the definition, and named here
  have hNamed : ∀ read : Setting → Except SettingsFault String, read = textOf →
      ((items.mapM read).bind fun texts => .ok (texts.flatMap entriesOf)) =
        (items.mapM textOf).map (·.flatMap entriesOf) := by
    rintro read rfl
    cases items.mapM textOf <;> rfl
  refine hNamed _ ?_
  funext item
  cases item <;> rfl

theorem textOf_eq_ok_iff (item : Setting) (text : String) :
    textOf item = .ok text ↔ item = .string text := by
  cases item <;> simp [textOf]

theorem mapM_textOf_eq_ok_iff (items : List Setting) (texts : List String) :
    items.mapM textOf = .ok texts ↔ items = texts.map .string := by
  simp only [Sequence.mapM_eq_ok_iff, textOf_eq_ok_iff]
  rw [← List.forall₂_map_right_iff, List.forall₂_eq_eq_eq]

/-- An item that holds no text is reported for the whole list, if no such item comes
before it. -/
theorem entries_of_other_item (texts : List String) {item : Setting}
    (hItem : ∀ text, item ≠ .string text) (rest : List Setting) :
    entries (.list (texts.map .string ++ item :: rest)) = .error (.badEntry item) := by
  have hFails : textOf item = .error (.badEntry item) := by
    cases item with
    | string text => exact absurd rfl (hItem text)
    | _ => rfl
  have hBefore : ∀ earlier ∈ texts.map Setting.string, ∃ text, textOf earlier = .ok text := by
    simp [textOf]
  rw [entries_list, Sequence.map_eq_error_iff, Sequence.mapM_eq_error_iff]
  exact ⟨texts.map .string, item, rest, rfl, hBefore, hFails⟩

/-- If an item is no text there is a first such item, and all items before it are
texts. -/
theorem exists_first_other_item {items : List Setting}
    (hOther : ∃ item ∈ items, ∀ text, item ≠ .string text) :
    ∃ (texts : List String) (item : Setting) (rest : List Setting),
      items = texts.map .string ++ item :: rest ∧ ∀ text, item ≠ .string text := by
  cases hMapM : items.mapM textOf with
  | ok texts =>
      obtain ⟨item, hMem, hItem⟩ := hOther
      rw [(mapM_textOf_eq_ok_iff items texts).mp hMapM] at hMem
      obtain ⟨text, -, rfl⟩ := List.mem_map.mp hMem
      exact absurd rfl (hItem text)
  | error fault =>
      obtain ⟨before, item, rest, rfl, hBefore, hItem⟩ :=
        (Sequence.mapM_eq_error_iff _ _ _).mp hMapM
      obtain ⟨texts, hTexts⟩ := (Sequence.exists_mapM_eq_ok_iff _ _).mpr hBefore
      obtain rfl := (mapM_textOf_eq_ok_iff before texts).mp hTexts
      refine ⟨texts, item, rest, rfl, ?_⟩
      rintro text rfl
      cases hItem

/-- A list of texts and the text that joins them by commas list the same roots or fail
alike. So roots add up at a comma, and of two faults the one on its left is reported.
In a list that holds something other than texts, the first such item is reported,
whatever is wrong with the entries before it, and the words for it show that item. -/
theorem ofSetting_of_list_agrees_with_joined_text (scopeName : String) :
    (∀ texts : List String, ofSetting (.list (texts.map .string)) scopeName =
      ofSetting (.string (",".intercalate texts)) scopeName) ∧
    (∀ first second : String, ofSetting (.string (first ++ "," ++ second)) scopeName =
      (ofSetting (.string first) scopeName).bind fun roots =>
        (ofSetting (.string second) scopeName).map (roots ++ ·)) ∧
    (∀ items : List Setting, (∃ item ∈ items, ∀ text, item ≠ .string text) →
      ∃ (texts : List String) (item : Setting) (rest : List Setting),
        items = texts.map .string ++ item :: rest ∧ (∀ text, item ≠ .string text) ∧
        ofSetting (.list items) scopeName = .error (.badEntry item) ∧
        (SettingsFault.badEntry item).Shows "discover path entries must be strings, got "
          item) := by
  refine ⟨?_, ?_, ?_⟩
  · intro texts
    have hTexts : entries (.list (texts.map .string)) = .ok (texts.flatMap entriesOf) := by
      rw [entries_list, (mapM_textOf_eq_ok_iff _ texts).mpr rfl, Sequence.map_ok]
    rw [ofSetting_eq, hTexts, Sequence.ok_bind, ofSetting_string, ofEntries_joined]
  · intro first second
    rw [ofSetting_string, entriesOf_comma, ofEntries_append]
    rfl
  · intro items hOther
    obtain ⟨texts, item, rest, rfl, hItem⟩ := exists_first_other_item hOther
    refine ⟨texts, item, rest, rfl, hItem, ?_, SettingsFault.shows_of_message fun _ => rfl⟩
    rw [ofSetting_eq, entries_of_other_item texts hItem rest, Sequence.error_bind]

/-- A list of texts and one other item, of which the texts hold a fault as well. On a host
that can follow the item, the words are about that one. -/
theorem ofSetting_of_list_agrees_with_joined_text_behind_fault :
    ofSetting (.list [.string "a from", .null, .string "b"]) "crate" = .error (.badEntry .null) ∧
    (SettingsFault.badEntry .null).message (fun _ => false) =
      .ok "discover path entries must be strings, got None" := by
  obtain ⟨-, -, hOther⟩ := ofSetting_of_list_agrees_with_joined_text "crate"
  obtain ⟨texts, item, rest, hSplit, hItem, hFault, hShows⟩ :=
    hOther [.string "a from", .null, .string "b"] ⟨.null, by simp, by simp⟩
  match texts with
  | [] =>
      obtain ⟨rfl, -⟩ := List.cons.inj hSplit
      exact absurd rfl (hItem "a from")
  | [first] =>
      obtain ⟨-, hSplit⟩ := List.cons.inj hSplit
      obtain ⟨rfl, -⟩ := List.cons.inj hSplit
      exact ⟨hFault, hShows.words _ "None" (by simp [Setting.display, Setting.textOf])⟩
  | first :: second :: texts =>
      simp at hSplit

/-- Entries have no blanks around them. -/
theorem trim_of_mem_entriesOf {text : String} {entry : List Char} (hMem : entry ∈ entriesOf text) :
    Text.trim entry = entry := by
  obtain ⟨piece, -, rfl⟩ := List.mem_map.mp hMem
  exact Text.trim_trim piece

/-- This holds for the entries of a text and of a list alike. -/
theorem trim_of_mem_entries {value : Setting} {texts : List (List Char)}
    (hEntries : entries value = .ok texts) {entry : List Char} (hMem : entry ∈ texts) :
    Text.trim entry = entry := by
  cases value with
  | null =>
      cases hEntries
      cases hMem
  | string text =>
      cases hEntries
      exact trim_of_mem_entriesOf hMem
  | list items =>
      rw [entries_list] at hEntries
      obtain ⟨held, -, rfl⟩ := (Sequence.map_eq_ok_iff _ _ _).mp hEntries
      obtain ⟨text, -, hEntry⟩ := List.mem_flatMap.mp hMem
      exact trim_of_mem_entriesOf hEntry
  | _ => cases hEntries

/-- Dividing a setting into entries is not where a path can be missing. -/
theorem entries_ne_noPath (value : Setting) (entry : String) :
    entries value ≠ .error (.noPath entry) := by
  cases value with
  | list items =>
      rw [entries_list, Ne, Sequence.map_eq_error_iff, Sequence.mapM_eq_error_iff]
      rintro ⟨before, item, after, -, -, hItem⟩
      cases item <;> cases hItem
  | _ => simp [entries]

/-- The path of an entry that is not blank is never empty: it starts with the first
character of the entry, since trimming has left no blank there that a separator could
start with. So the fault of a root without a path is never found, whatever the setting
holds. -/
theorem path_of_entry_is_never_missing (value : Setting) (scopeName : String) :
    (∀ texts, entries value = .ok texts → ∀ entry ∈ texts, entry ≠ [] →
      ∃ path, (∀ part, PathPart entry part ↔ part = path) ∧
        path ≠ [] ∧ path.head? = entry.head?) ∧
    ∀ entry, ofSetting value scopeName ≠ .error (.noPath entry) := by
  constructor
  · intro texts hEntries entry hMem hSome
    obtain ⟨path, hPath⟩ := exists_pathPart entry
    exact ⟨path, hPath,
      ((hPath path).mpr rfl).head?_eq (trim_of_mem_entries hEntries hMem) hSome⟩
  · intro other hFails
    rw [ofSetting_eq] at hFails
    cases hEntries : entries value with
    | error fault =>
        rw [hEntries, Sequence.error_bind] at hFails
        obtain rfl := Except.error.inj hFails
        exact entries_ne_noPath value other hEntries
    | ok texts =>
        rw [hEntries, Sequence.ok_bind, ofEntries, Sequence.mapM_eq_error_iff,
          Sequence.failsFirst_filter_iff] at hFails
        obtain ⟨before, entry, after, rfl, -, hKept, hEntry⟩ := hFails
        have hTrim : Text.trim entry = entry := trim_of_mem_entries hEntries (by simp)
        exact ofEntry_ne_noPath hTrim (by simpa using hKept) scopeName other hEntry

theorem path_of_entry_is_never_missing_in_three_entries :
    (∃ path, PathPart "from from b".toList path ∧ path.head? = some 'f') ∧
    ofSetting (.list [.string "  from api, x from", .string "from from b"]) "crate" ≠
      .error (.noPath "from api") := by
  have hEntries : entries (.list [.string "  from api, x from", .string "from from b"]) =
      .ok ["from api".toList, "x from".toList, "from from b".toList] := by cbv
  obtain ⟨hPaths, hFault⟩ := path_of_entry_is_never_missing
    (.list [.string "  from api, x from", .string "from from b"]) "crate"
  obtain ⟨path, hPath, -, hHead⟩ := hPaths _ hEntries "from from b".toList (by simp) (by simp)
  exact ⟨⟨path, (hPath path).mpr rfl, hHead⟩, hFault _⟩

/-- An entry that ends where the name of a scope should follow, and no such entry
before it. -/
def FirstDangling (entries : List (List Char)) (entry : List Char) : Prop :=
  ∃ before after, entries = before ++ entry :: after ∧ Dangling entry ∧
    ∀ earlier ∈ before, ¬ Dangling earlier

theorem Dangling.ne_nil {entry : List Char} (hEntry : Dangling entry) : entry ≠ [] := by
  obtain ⟨path, gap, rfl, -⟩ := hEntry
  simp [fromWord]

/-- An entry is read unless it ends in a separator. -/
theorem exists_ofEntry_eq_ok_iff {entry : List Char} (hTrim : Text.trim entry = entry)
    (hSome : entry ≠ []) {scopeName : String} (hScope : scopeName ≠ "") :
    (∃ root, ofEntry scopeName entry = .ok root) ↔ ¬ Dangling entry := by
  constructor
  · rintro ⟨root, hRoot⟩ hEntry
    rw [(ofEntry_eq_error_iff hTrim hSome hScope _).mpr ⟨hEntry, rfl⟩] at hRoot
    cases hRoot
  · intro hEntry
    cases hRead : ofEntry scopeName entry with
    | ok root => exact ⟨root, rfl⟩
    | error fault =>
        exact absurd ((ofEntry_eq_error_iff hTrim hSome hScope fault).mp hRead).1 hEntry

/-- Entries are refused for the first one that ends in a separator. -/
theorem ofEntries_eq_error_iff {entries : List (List Char)}
    (hTrim : ∀ entry ∈ entries, Text.trim entry = entry) {scopeName : String}
    (hScope : scopeName ≠ "") (fault : SettingsFault) :
    ofEntries scopeName entries = .error fault ↔
      ∃ entry, FirstDangling entries entry ∧ fault = .noScopeName (String.ofList entry) := by
  rw [ofEntries, Sequence.mapM_eq_error_iff, Sequence.failsFirst_filter_iff]
  constructor
  · rintro ⟨before, entry, after, rfl, hBefore, hKept, hEntry⟩
    have hSome : entry ≠ [] := by simpa using hKept
    obtain ⟨hDangling, rfl⟩ :=
      (ofEntry_eq_error_iff (hTrim entry (by simp)) hSome hScope fault).mp hEntry
    refine ⟨entry, ⟨before, after, rfl, hDangling, ?_⟩, rfl⟩
    intro earlier hEarlier hOther
    have hOk := hBefore earlier hEarlier (by simpa using hOther.ne_nil)
    exact (exists_ofEntry_eq_ok_iff (hTrim earlier (by simp [hEarlier])) hOther.ne_nil hScope).mp
      hOk hOther
  · rintro ⟨entry, ⟨before, after, rfl, hDangling, hBefore⟩, rfl⟩
    refine ⟨before, entry, after, rfl, ?_, by simpa using hDangling.ne_nil, ?_⟩
    · intro earlier hEarlier hKept
      exact (exists_ofEntry_eq_ok_iff (hTrim earlier (by simp [hEarlier])) (by simpa using hKept)
        hScope).mpr (hBefore earlier hEarlier)
    · exact (ofEntry_eq_error_iff (hTrim entry (by simp)) hDangling.ne_nil hScope _).mpr
        ⟨hDangling, rfl⟩

/-- If an entry ends in a separator there is a first such entry. -/
theorem exists_firstDangling_iff (entries : List (List Char)) :
    (∃ entry, FirstDangling entries entry) ↔ ∃ entry ∈ entries, Dangling entry := by
  constructor
  · rintro ⟨entry, before, after, rfl, hDangling, -⟩
    exact ⟨entry, by simp, hDangling⟩
  · rintro ⟨entry, hMem, hDangling⟩
    induction entries with
    | nil => cases hMem
    | cons first entries ih =>
        by_cases hFirst : Dangling first
        · exact ⟨first, [], entries, rfl, hFirst, by simp⟩
        · obtain rfl | hMem := List.mem_cons.mp hMem
          · exact absurd hDangling hFirst
          · obtain ⟨found, before, after, rfl, hFound, hBefore⟩ := ih hMem
            exact ⟨found, first :: before, after, rfl, hFound,
              List.forall_mem_cons.mpr ⟨hFirst, hBefore⟩⟩

/-- Texts between commas that list entries in this order, each with blanks around it.
Blank texts may stand anywhere and list nothing. -/
inductive ListedBy : List Entry → List String → Prop where
  | nil : ListedBy [] []
  | blank {entries : List Entry} {piece : String} {pieces : List String}
      (pieceBlanks : Text.Blanks piece.toList) (rest : ListedBy entries pieces) :
      ListedBy entries (piece :: pieces)
  | entry {entry : Entry} {entries : List Entry} {piece : String} {pieces : List String}
      {text : List Char} (before after : List Char) (split : piece.toList = before ++ text ++ after)
      (beforeBlanks : Text.Blanks before) (spelled : entry.SpelledBy text)
      (afterBlanks : Text.Blanks after) (rest : ListedBy entries pieces) :
      ListedBy (entry :: entries) (piece :: pieces)

/-- A text without a comma is one entry. -/
theorem entriesOf_of_noComma {piece : String} (hPiece : ',' ∉ piece.toList) :
    entriesOf piece = [Text.trim piece.toList] := by
  rw [entriesOf, List.splitOn_eq_singleton hPiece, List.map_singleton]

/-- By induction on the listing: the pieces of every entry are read as its root, and
blank ones as none. -/
theorem ListedBy.ofEntries_eq {entries : List Entry} {pieces : List String}
    (hListed : ListedBy entries pieces) {scopeName : String} (hScope : scopeName ≠ "") :
    ofEntries scopeName (pieces.flatMap entriesOf) = .ok (entries.map (·.root scopeName)) := by
  induction hListed with
  | nil => rfl
  | blank hBlanks _ ih =>
      rw [List.flatMap_cons, entriesOf_of_noComma (comma_notMem_of_blanks hBlanks),
        (Text.trim_eq_nil_iff _).mpr hBlanks, List.singleton_append, ofEntries_blank, ih]
  | @entry entry entries piece pieces text before after hSplit hBefore hSpelled hAfter _ ih =>
      have hComma : ',' ∉ piece.toList := by
        simp [hSplit, comma_notMem_of_blanks hBefore, hSpelled.noComma,
          comma_notMem_of_blanks hAfter]
      have hTrim : Text.trim piece.toList = text := by
        rw [hSplit, Text.trim_append_blanks hAfter, Text.trim_blanks_append hBefore,
          hSpelled.trim_eq]
      rw [List.flatMap_cons, entriesOf_of_noComma hComma, hTrim, List.singleton_append,
        ofEntries_cons scopeName hSpelled.ne_nil, hSpelled.ofEntry_eq hScope, ih]
      rfl

/-- What is written down is read back: roots between commas are found in their order,
with any blanks around entries and around the word `from`, and blank entries in between.
A text fails exactly if one of its entries ends in the word `from` behind blanks and has
no such word before, and the first such entry is named. -/
theorem ofSetting_reads_listed_entries_back {scopeName : String} (hScope : scopeName ≠ "") :
    (∀ entries pieces, ListedBy entries pieces →
      ofSetting (.string (",".intercalate pieces)) scopeName =
        .ok (entries.map (·.root scopeName))) ∧
    (∀ text, (∃ fault, ofSetting (.string text) scopeName = .error fault) ↔
      ∃ entry ∈ entriesOf text, Dangling entry) ∧
    (∀ text fault, ofSetting (.string text) scopeName = .error fault ↔
      ∃ entry, FirstDangling (entriesOf text) entry ∧
        fault = .noScopeName (String.ofList entry)) := by
  have hFault : ∀ text fault, ofSetting (.string text) scopeName = .error fault ↔
      ∃ entry, FirstDangling (entriesOf text) entry ∧
        fault = .noScopeName (String.ofList entry) := by
    intro text fault
    rw [ofSetting_string]
    exact ofEntries_eq_error_iff (fun entry hMem => trim_of_mem_entriesOf hMem) hScope fault
  refine ⟨?_, ?_, hFault⟩
  · intro entries pieces hListed
    rw [ofSetting_string, ofEntries_joined, hListed.ofEntries_eq hScope]
  · intro text
    simp only [hFault, ← exists_firstDangling_iff]
    constructor
    · rintro ⟨fault, entry, hEntry, -⟩
      exact ⟨entry, hEntry⟩
    · rintro ⟨entry, hEntry⟩
      exact ⟨_, entry, hEntry, rfl⟩

def routesEntry : Entry :=
  ⟨"./src/routes", some "api", ⟨⟨by decide, by decide, by decide⟩, by decide +kernel⟩,
    by simpa using ⟨by decide, by decide, by decide⟩⟩

def modelsEntry : Entry :=
  ⟨"./src/models", none, ⟨⟨by decide, by decide, by decide⟩, by decide +kernel⟩, by simp⟩

/-- An entry whose path is spelled like the word, and whose scope needs no blank before
it. -/
def dashedEntry : Entry :=
  ⟨"from", some "-crate", ⟨⟨by decide, by decide, by decide⟩, by decide +kernel⟩,
    by simpa using ⟨by decide, by decide, by decide⟩⟩

theorem ofSetting_reads_listed_entries_back_of_routes :
    ofSetting (.string "./src/routes  from\tapi, ./src/models , ,from from-crate") "app" =
      .ok [⟨.ofText "./src/routes", "api"⟩, ⟨.ofText "./src/models", "app"⟩,
        ⟨.ofText "from", "-crate"⟩] ∧
    ∃ fault, ofSetting (.string "a from b,x from") "app" = .error fault := by
  have hRoutes : routesEntry.SpelledBy
      ("./src/routes".toList ++ [' ', ' '] ++ (fromWord ++ (['\t'] ++ "api".toList))) :=
    .pathAndScope [' ', ' '] ['\t'] rfl (by decide) (by simp) (by decide) (by simp)
  have hModels : modelsEntry.SpelledBy "./src/models".toList := .path rfl
  have hApart : Text.isWord '-' = false := by decide
  have hDash : dashedEntry.SpelledBy
      ("from".toList ++ [' '] ++ (fromWord ++ ([] ++ "-crate".toList))) :=
    .pathAndScope [' '] [] rfl (by decide) (by simp) Text.blanks_nil (by simp [hApart])
  have hListed : ListedBy [routesEntry, modelsEntry, dashedEntry]
      ["./src/routes  from\tapi", " ./src/models ", " ", "from from-crate"] :=
    .entry [] [] (by decide) Text.blanks_nil hRoutes Text.blanks_nil
      (.entry [' '] [' '] (by decide) (by decide) hModels (by decide)
        (.blank (by decide)
          (.entry [] [] (by decide) Text.blanks_nil hDash Text.blanks_nil .nil)))
  have hScope : "app" ≠ "" := by decide
  obtain ⟨hRead, hFails, -⟩ := ofSetting_reads_listed_entries_back hScope
  have hText : ",".intercalate
      ["./src/routes  from\tapi", " ./src/models ", " ", "from from-crate"] =
        "./src/routes  from\tapi, ./src/models , ,from from-crate" := by decide
  have hRoots := hRead _ _ hListed
  rw [hText] at hRoots
  refine ⟨hRoots, (hFails "a from b,x from").mpr ⟨"x from".toList, ?_, ?_⟩⟩
  · decide
  · exact ⟨['x'], [' '], by decide, by decide, by simp, by decide +kernel⟩

/-- What an entry adds to a list of roots stands between what the entries on its two
sides add. -/
theorem ofEntries_around (scopeName : String) (before after : List (List Char))
    {entry : List Char} (hSome : entry ≠ []) :
    ofEntries scopeName (before ++ entry :: after) =
      (ofEntries scopeName before).bind fun first =>
        (ofEntry scopeName entry).bind fun root =>
          (ofEntries scopeName after).map fun last => first ++ root :: last := by
  rw [ofEntries_append, ofEntries_cons scopeName hSome]
  cases ofEntries scopeName before with
  | error fault => rfl
  | ok first =>
      cases ofEntry scopeName entry with
      | error fault => rfl
      | ok root => cases ofEntries scopeName after <;> rfl

/-- The word `from` at the start of an entry has nothing in front of it that could be a
path, and yet such an entry is not refused for that: it adds a root like others. The word
is part of its path, up to the first separator that comes behind it, and the whole entry
is the path where there is none. -/
theorem ofSetting_takes_leading_from_into_path {value : Setting} {before after : List (List Char)}
    {rest : List Char} (hEntries : entries value = .ok (before ++ (fromWord ++ rest) :: after))
    (scopeName : String) :
    (ofSetting value scopeName =
      (ofEntries scopeName before).bind fun first =>
        (ofEntry scopeName (fromWord ++ rest)).bind fun root =>
          (ofEntries scopeName after).map fun last => first ++ root :: last) ∧
    (¬ HasFrom rest → ofEntry scopeName (fromWord ++ rest) =
      if scopeName = "" then .error (.noScopeName (String.ofList (fromWord ++ rest)))
      else .ok ⟨.ofText (String.ofList (fromWord ++ rest)), scopeName⟩) ∧
    (∀ path scope, FirstFrom rest path scope → ofEntry scopeName (fromWord ++ rest) =
      if scope = [] then .error (.noScopeName (String.ofList (fromWord ++ rest)))
      else .ok ⟨.ofText (String.ofList (fromWord ++ path)), String.ofList scope⟩) := by
  have hTrim : Text.trim (fromWord ++ rest) = fromWord ++ rest :=
    trim_of_mem_entries hEntries (by simp)
  have hSome : fromWord ++ rest ≠ [] := by simp [fromWord]
  refine ⟨?_, ?_, ?_⟩
  · rw [ofSetting_eq, hEntries, Sequence.ok_bind, ofEntries_around scopeName before after hSome]
  · intro hFrom
    exact ofEntry_of_not_hasFrom (by rwa [hasFrom_fromWord_append]) hTrim hSome scopeName
  · intro path scope hCut
    exact ofEntry_of_firstFrom hCut.fromWord_append hTrim scopeName

theorem ofSetting_takes_leading_from_into_path_of_api :
    ofSetting (.string "./src , from api from v2,from api") "crate" =
      .ok [⟨.ofText "./src", "crate"⟩, ⟨.ofText "from api", "v2"⟩,
        ⟨.ofText "from api", "crate"⟩] := by
  have hListed : entriesOf "./src , from api from v2,from api" =
      ["./src".toList] ++ (fromWord ++ " api from v2".toList) :: ["from api".toList] := by decide
  have hEntries : entries (.string "./src , from api from v2,from api") =
      .ok (["./src".toList] ++ (fromWord ++ " api from v2".toList) :: ["from api".toList]) :=
    congrArg Except.ok hListed
  have hCut : FirstFrom " api from v2".toList " api".toList "v2".toList :=
    (splitFrom?_eq_some_iff _ _ _).mp (by decide +kernel)
  have hPath : PlainPath "./src" := ⟨⟨by decide, by decide, by decide⟩, by decide +kernel⟩
  have hBefore : ofEntries "crate" ["./src".toList] = .ok [⟨.ofText "./src", "crate"⟩] := by
    rw [ofEntries_cons _ hPath.toList_ne_nil, ofEntry_path hPath (by decide)]
    rfl
  have hLast : PlainPath "from api" := ⟨⟨by decide, by decide, by decide⟩, by decide +kernel⟩
  have hAfter : ofEntries "crate" ["from api".toList] = .ok [⟨.ofText "from api", "crate"⟩] := by
    rw [ofEntries_cons _ hLast.toList_ne_nil, ofEntry_path hLast (by decide)]
    rfl
  obtain ⟨hRoots, -, hSplit⟩ := ofSetting_takes_leading_from_into_path hEntries "crate"
  rw [hRoots, hBefore, hAfter, hSplit _ _ hCut]
  rfl

/-- An entry that names a scope behind the word `from` and has nothing before the word
is not refused in general. -/
theorem leading_from_is_not_refused :
    ¬ ∀ (value : Setting) (before after : List (List Char)) (gap name : List Char)
        (scopeName : String),
      entries value = .ok (before ++ (fromWord ++ (gap ++ name)) :: after) →
      Text.Blanks gap → gap ≠ [] → name ≠ [] →
        ∃ fault, ofSetting value scopeName = .error fault := by
  intro hRefused
  have hListed : entriesOf "from api" = [] ++ (fromWord ++ ([' '] ++ "api".toList)) :: [] := by
    decide
  have hEntries : entries (.string "from api") =
      .ok ([] ++ (fromWord ++ ([' '] ++ "api".toList)) :: []) := congrArg Except.ok hListed
  obtain ⟨fault, hFault⟩ := hRefused (.string "from api") [] [] [' '] "api".toList "crate" hEntries
    (by decide) (by simp) (by simp)
  have hPath : PlainPath "from api" := ⟨⟨by decide, by decide, by decide⟩, by decide +kernel⟩
  have hRoots : ofSetting (.string "from api") "crate" = .ok [⟨.ofText "from api", "crate"⟩] := by
    rw [ofSetting_of_oneText hPath.toPlain .alone, ofEntry_path hPath (by decide)]
    rfl
  rw [hRoots] at hFault
  cases hFault

end ApiSurvey.Root
