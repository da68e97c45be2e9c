import ApiSurvey.Proofs.Location.Spelling
import ApiSurvey.Survey.FileScope

/-! The scope of a source file. It follows the tree of modules: a file adds its own
name to the scope of its directory, and a root file adds nothing. It does not depend
on how the place of the file is spelled. -/
namespace ApiSurvey.FileScope

/-- Both kinds of slashes divide a place into its parts. -/
def Divides (c : Char) : Prop :=
  c = '/' ∨ c = '\\'

/-- A name that is a part of its own wherever it stands. Two dots are such a name. -/
structure IsPart (name : String) : Prop where
  nonempty : name ≠ ""
  notDot : name ≠ "."
  undivided : ∀ c ∈ name.toList, ¬ Divides c

/-- The parts of a directory's place. The ending of source files has no meaning here. -/
def directoryParts (directory : List Char) : List String :=
  Location.partsOf (forwardSlashes directory)

section Parts

theorem forwardSlashes_append (first second : List Char) :
    forwardSlashes (first ++ second) = forwardSlashes first ++ forwardSlashes second :=
  List.map_append

/-- Both kinds of dividers become forward slashes. -/
theorem forwardSlashes_divider {c : Char} (hDivides : Divides c) (text : List Char) :
    forwardSlashes (c :: text) = '/' :: forwardSlashes text := by
  rcases hDivides with rfl | rfl <;> rfl

/-- A part has no dividers to change. -/
theorem IsPart.forwardSlashes {name : String} (hName : IsPart name) :
    forwardSlashes name.toList = name.toList := by
  refine (List.map_congr_left ?_).trans (List.map_id _)
  intro c hMem
  have hOther : c ≠ '\\' := fun hEq => hName.undivided c hMem (.inr hEq)
  simp [hOther]

/-- A divider separates the parts before it from those behind it. -/
theorem directoryParts_append {c : Char} (hDivides : Divides c) (before after : List Char) :
    directoryParts (before ++ c :: after) = directoryParts before ++ directoryParts after := by
  rw [directoryParts, forwardSlashes_append, forwardSlashes_divider hDivides,
    Location.partsOf_append_slash]
  rfl

/-- A part is its own single part. -/
theorem IsPart.directoryParts {name : String} (hName : IsPart name) :
    directoryParts name.toList = [name] := by
  have hSlash : '/' ∉ name.toList := fun hMem => hName.undivided _ hMem (.inl rfl)
  have hSome : name.toList ≠ [] := by simpa using hName.nonempty
  have hDot : name.toList ≠ ['.'] := by
    intro hEq
    exact hName.notDot (String.toList_inj.mp hEq)
  rw [FileScope.directoryParts, hName.forwardSlashes, Location.partsOf_part hSlash hSome hDot,
    String.ofList_toList]

/-- The extension is taken away before the file is divided. -/
theorem parts_of_extension {file : String} {place : List Char}
    (hFile : file.toList = place ++ extension) : parts file = directoryParts place := by
  have hEnding : forwardSlashes extension = extension := by decide
  rw [parts, hFile, forwardSlashes_append, hEnding, withoutExtension,
    if_pos (by simp), directoryParts]
  simp

/-- A file without the extension is divided as it is. -/
theorem parts_of_no_extension {file : String}
    (hFile : ¬ extension <:+ forwardSlashes file.toList) :
    parts file = directoryParts file.toList := by
  rw [parts, withoutExtension, if_neg (by simpa using hFile), directoryParts]

/-- The ending of source files has no slash in it, so it lies in the last part. -/
theorem extension_suffix_of_slash {before name : List Char}
    (hSuffix : extension <:+ before ++ '/' :: name) : extension <:+ name := by
  have hSlash : '/' ∉ extension := by decide
  rcases List.suffix_or_suffix_of_suffix hSuffix (List.suffix_append before ('/' :: name)) with
    hShorter | hLonger
  · rcases List.suffix_cons_iff.mp hShorter with hWhole | hName
    · exact (hSlash (by rw [hWhole]; exact List.mem_cons_self)).elim
    · exact hName
  · exact (hSlash (hLonger.mem List.mem_cons_self)).elim

end Parts

section Cuts

/-- Only the last name can be one of a root file, and then it is dropped. -/
theorem withoutRootStem_concat (names : List String) (last : String) :
    withoutRootStem (names ++ [last]) = if last ∈ rootStems then names else names ++ [last] := by
  simp [withoutRootStem]

/-- What stands before the first source directory is dropped, and so is this
directory. -/
theorem belowSource_append_cons {before : List String} (hBefore : sourceDirectory ∉ before)
    (after : List String) : belowSource (before ++ sourceDirectory :: after) = after := by
  have hOther : ∀ name ∈ before, name ≠ sourceDirectory := by
    rintro name hMem rfl
    exact hBefore hMem
  rw [belowSource, if_pos (by simp), List.dropWhile_append_of_pos (by simpa using hOther)]
  simp

/-- Without a source directory all names count. -/
theorem belowSource_of_notMem {names : List String} (hNames : sourceDirectory ∉ names) :
    belowSource names = names := by
  rw [belowSource, if_neg (by simpa using hNames)]

/-- A name at the end stays at the end, unless the cut is made right there. -/
theorem belowSource_concat {names : List String} {last : String}
    (hLast : last = sourceDirectory → sourceDirectory ∈ names) :
    belowSource (names ++ [last]) = belowSource names ++ [last] := by
  by_cases hSource : sourceDirectory ∈ names
  · obtain ⟨before, after, rfl, hBefore⟩ := List.eq_append_cons_of_mem hSource
    rw [belowSource_append_cons hBefore, List.append_assoc, List.cons_append,
      belowSource_append_cons hBefore]
  · have hOther : sourceDirectory ≠ last := fun hEq => hSource (hLast hEq.symm)
    rw [belowSource_of_notMem hSource, belowSource_of_notMem (by simp [hSource, hOther])]

end Cuts

section ModuleTree

/-- The name of a module's file in a directory. A root file stands for the directory
itself. A file of the name of the source directory would be taken for that directory,
unless one leads to the file already. -/
structure ModuleStem (directory stem : String) : Prop where
  part : IsPart stem
  notRoot : stem ∉ ["mod", "lib", "main"]
  belowSource : stem = "src" → "src" ∈ directoryParts directory.toList

theorem isPart_of_mem_rootStems {stem : String} (hStem : stem ∈ rootStems) : IsPart stem := by
  simp only [rootStems, List.mem_cons, List.not_mem_nil, or_false] at hStem
  rcases hStem with rfl | rfl | rfl <;> exact ⟨by decide, by decide, by simp [Divides]⟩

theorem directoryParts_below {stem : String} (hStem : IsPart stem) (directory : String) :
    directoryParts (directory ++ "/" ++ stem).toList =
      directoryParts directory.toList ++ [stem] := by
  have hText : (directory ++ "/" ++ stem).toList = directory.toList ++ '/' :: stem.toList := by
    simp
  rw [hText, directoryParts_append (.inl rfl), hStem.directoryParts]

/-- The parts of a file are those of its directory, and its stem. -/
theorem parts_of_stem {stem : String} (hStem : IsPart stem) (directory : String) :
    parts (directory ++ "/" ++ stem ++ ".rs") = directoryParts directory.toList ++ [stem] := by
  rw [← directoryParts_below hStem]
  exact parts_of_extension String.toList_append

def rootFiles : List String :=
  rootStems.map fun stem => "/" ++ stem ++ ".rs"

/-- All root files have the scope of their directory. -/
theorem ofFile_of_rootFile {file : String} (hFile : file ∈ rootFiles) (root directory : String) :
    ofFile root (directory ++ file) =
      root :: (belowSource (directoryParts directory.toList)).map moduleName := by
  obtain ⟨stem, hStem, rfl⟩ := List.mem_map.mp hFile
  have hText : directory ++ ("/" ++ stem ++ ".rs") = directory ++ "/" ++ stem ++ ".rs" := by
    simp only [String.append_assoc]
  rw [hText, ofFile, parts_of_stem (isPart_of_mem_rootStems hStem), withoutRootStem_concat,
    if_pos hStem]

/-- The scope of a file that is a module of its own: the root, the modules on the
way, and the stem. -/
theorem ModuleStem.ofFile {directory stem : String} (hStem : ModuleStem directory stem)
    (root : String) :
    ofFile root (directory ++ "/" ++ stem ++ ".rs") =
      root :: (FileScope.belowSource (directoryParts directory.toList)).map moduleName ++
        [moduleName stem] := by
  have hOther : stem ∉ rootStems := hStem.notRoot
  rw [FileScope.ofFile, parts_of_stem hStem.part, withoutRootStem_concat, if_neg hOther,
    belowSource_concat hStem.belowSource, List.map_append]
  rfl

/-- Scopes follow the tree of modules, whatever the place of the directory looks
like: a module's file adds the name of the module to the scope of the directory, a
module with a directory of its own has the same scope as one without, and it does not
matter which of the root files a directory has. -/
theorem ofFile_follows_module_tree {directory stem : String} (hStem : ModuleStem directory stem)
    (root : String) :
    ofFile root (directory ++ "/" ++ stem ++ ".rs") =
        ofFile root (directory ++ "/mod.rs") ++ [moduleName stem] ∧
      ofFile root (directory ++ "/" ++ stem ++ "/mod.rs") =
        ofFile root (directory ++ "/" ++ stem ++ ".rs") ∧
      ofFile root (directory ++ "/lib.rs") = ofFile root (directory ++ "/mod.rs") ∧
      ofFile root (directory ++ "/main.rs") = ofFile root (directory ++ "/mod.rs") := by
  have hMod : ∀ place, ofFile root (place ++ "/mod.rs") = _ :=
    ofFile_of_rootFile (by decide) root
  have hLib : ofFile root (directory ++ "/lib.rs") = _ :=
    ofFile_of_rootFile (by decide) root directory
  have hMain : ofFile root (directory ++ "/main.rs") = _ :=
    ofFile_of_rootFile (by decide) root directory
  refine ⟨?_, ?_, hLib.trans (hMod directory).symm, hMain.trans (hMod directory).symm⟩
  · rw [hStem.ofFile, hMod]
  · rw [hMod, hStem.ofFile, directoryParts_below hStem.part,
      belowSource_concat hStem.belowSource, List.map_append]
    rfl

/-- A directory whose own name is that of a root file, spelled with both kinds of
slashes, and a module with a dash in its name. -/
theorem ofFile_follows_module_tree_below_mod :
    ModuleStem ".\\crates//mod" "user-api" ∧
      ofFile "crate" ".\\crates//mod/user-api.rs" =
        ofFile "crate" ".\\crates//mod/mod.rs" ++ ["user_api"] ∧
      ofFile "crate" ".\\crates//mod/user-api/mod.rs" =
        ofFile "crate" ".\\crates//mod/user-api.rs" := by
  have hStem : ModuleStem ".\\crates//mod" "user-api" :=
    ⟨⟨by decide, by decide, by simp [Divides]⟩, by decide, by decide⟩
  obtain ⟨hFile, hDirectory, _⟩ := ofFile_follows_module_tree hStem "crate"
  exact ⟨hStem, hFile, hDirectory⟩

end ModuleTree

section Spelling

/-- What may stand in front of a part without being one: dividers, and single dots
that a divider follows. -/
inductive Padding : List Char → Prop where
  | nil : Padding []
  | divider {c : Char} {rest : List Char} (hDivides : Divides c) (hRest : Padding rest) :
      Padding (c :: rest)
  | dot {c : Char} {rest : List Char} (hDivides : Divides c) (hRest : Padding rest) :
      Padding ('.' :: c :: rest)

/-- The spellings of a place. Dividers of both kinds mix freely, and more of them or
single dots may stand in front of every part, but nothing stands behind the last one. -/
inductive Spelled : List String → List Char → Prop where
  | last {padding : List Char} {name : String} (hPadding : Padding padding) :
      Spelled [name] (padding ++ name.toList)
  | cons {padding rest : List Char} {name : String} {names : List String} {c : Char}
      (hPadding : Padding padding) (hDivides : Divides c) (hRest : Spelled names rest) :
      Spelled (name :: names) (padding ++ name.toList ++ c :: rest)

/-- The spellings of a file's place, with the ending of source files or without it. -/
inductive FileSpelled (names : List String) : List Char → Prop where
  | bare {text : List Char} (hText : Spelled names text) : FileSpelled names text
  | ending {text : List Char} (hText : Spelled names text) :
      FileSpelled names (text ++ ['.', 'r', 's'])

/-- The names of a place that leave no doubt about its parts and about the ending. -/
structure PlaceNames (names : List String) : Prop where
  parts : ∀ name ∈ names, IsPart name
  lastBare : ∀ name ∈ names.getLast?, ¬ ['.', 'r', 's'] <:+ name.toList

/-- Padding adds no parts. -/
theorem Padding.directoryParts_append {padding : List Char} (hPadding : Padding padding)
    (text : List Char) : directoryParts (padding ++ text) = directoryParts text := by
  induction hPadding with
  | nil => rfl
  | divider hDivides _ ih => exact (FileScope.directoryParts_append hDivides [] _).trans ih
  | dot hDivides _ ih => exact (FileScope.directoryParts_append hDivides ['.'] _).trans ih

/-- Padding ends in a divider, if it is not empty. -/
theorem Padding.eq_nil_or_concat {padding : List Char} (hPadding : Padding padding) :
    padding = [] ∨ ∃ init c, Divides c ∧ padding = init ++ [c] := by
  induction hPadding with
  | nil => exact .inl rfl
  | @divider c rest hDivides _ ih =>
      rcases ih with rfl | ⟨init, last, hLast, rfl⟩
      · exact .inr ⟨[], c, hDivides, rfl⟩
      · exact .inr ⟨c :: init, last, hLast, rfl⟩
  | @dot c rest hDivides _ ih =>
      rcases ih with rfl | ⟨init, last, hLast, rfl⟩
      · exact .inr ⟨['.'], c, hDivides, rfl⟩
      · exact .inr ⟨'.' :: c :: init, last, hLast, rfl⟩

/-- Every spelling of a place has the place's names as its parts. -/
theorem Spelled.directoryParts {names : List String} {text : List Char}
    (hText : Spelled names text) (hNames : ∀ name ∈ names, IsPart name) :
    directoryParts text = names := by
  induction hText with
  | @last padding name hPadding =>
      rw [hPadding.directoryParts_append]
      exact (hNames name List.mem_cons_self).directoryParts
  | @cons padding rest name names c hPadding hDivides _ ih =>
      obtain ⟨hName, hRest⟩ := List.forall_mem_cons.mp hNames
      rw [directoryParts_append hDivides, hPadding.directoryParts_append, hName.directoryParts,
        ih hRest, List.singleton_append]

/-- A spelling ends in the last name, and a divider stands in front of that name
unless it is the whole text. -/
theorem Spelled.exists_last {names : List String} {text : List Char}
    (hText : Spelled names text) :
    ∃ name ∈ names.getLast?, text = name.toList ∨
      ∃ before c, Divides c ∧ text = before ++ c :: name.toList := by
  induction hText with
  | @last padding name hPadding =>
      refine ⟨name, rfl, ?_⟩
      rcases hPadding.eq_nil_or_concat with rfl | ⟨init, c, hDivides, rfl⟩
      · exact .inl rfl
      · exact .inr ⟨init, c, hDivides, by simp⟩
  | @cons padding rest first names c hPadding hDivides hRest ih =>
      obtain ⟨name, hName, hCut⟩ := ih
      refine ⟨name, by simp_all [List.getLast?_cons], .inr ?_⟩
      rcases hCut with rfl | ⟨before, d, hOther, rfl⟩
      · exact ⟨padding ++ first.toList, c, hDivides, rfl⟩
      · exact ⟨padding ++ first.toList ++ c :: before, d, hOther, by simp⟩

/-- All spellings of a file have the same parts. -/
theorem PlaceNames.parts_of_spelled {names : List String} (hNames : PlaceNames names)
    {file : String} (hFile : FileSpelled names file.toList) : FileScope.parts file = names := by
  generalize hChars : file.toList = chars at hFile
  cases hFile with
  | ending hText =>
      rw [parts_of_extension hChars]
      exact hText.directoryParts hNames.parts
  | bare hText =>
      have hBare : ¬ extension <:+ forwardSlashes chars := by
        obtain ⟨name, hLast, hCut⟩ := hText.exists_last
        have hName : IsPart name := hNames.parts name (List.mem_of_getLast? hLast)
        intro hSuffix
        refine hNames.lastBare name hLast ?_
        rcases hCut with rfl | ⟨before, c, hDivides, rfl⟩
        · rwa [hName.forwardSlashes] at hSuffix
        · rw [forwardSlashes_append, forwardSlashes_divider hDivides, hName.forwardSlashes]
            at hSuffix
          exact extension_suffix_of_slash hSuffix
      rw [parts_of_no_extension (by rwa [hChars]), hChars]
      exact hText.directoryParts hNames.parts

/-- A last name that stands for its directory is left out. -/
inductive WithoutRoot : List String → List String → Prop where
  | root {names : List String} {stem : String} (hStem : stem ∈ ["mod", "lib", "main"]) :
      WithoutRoot (names ++ [stem]) names
  | other {names : List String} (hOther : ∀ stem ∈ names.getLast?, stem ∉ ["mod", "lib", "main"]) :
      WithoutRoot names names

/-- What follows the first source directory, or everything where there is none. -/
inductive BehindSource : List String → List String → Prop where
  | cut {before after : List String} (hBefore : "src" ∉ before) :
      BehindSource (before ++ "src" :: after) after
  | whole {names : List String} (hNames : "src" ∉ names) : BehindSource names names

/-- Dropping the name of a root file does what is asked for. -/
theorem withoutRoot_withoutRootStem (names : List String) :
    WithoutRoot names (withoutRootStem names) := by
  obtain rfl | ⟨init, last, rfl⟩ := List.eq_nil_or_concat' names
  · exact .other (by simp)
  · rw [withoutRootStem_concat]
    split_ifs with hRoot
    · exact .root hRoot
    · exact .other (by simpa [rootStems] using hRoot)

/-- Dropping the way to the source directory does what is asked for. -/
theorem behindSource_belowSource (names : List String) :
    BehindSource names (belowSource names) := by
  by_cases hSource : sourceDirectory ∈ names
  · obtain ⟨before, after, rfl, hBefore⟩ := List.eq_append_cons_of_mem hSource
    rw [belowSource_append_cons hBefore]
    exact .cut hBefore
  · rw [belowSource_of_notMem hSource]
    exact .whole hSource

theorem WithoutRoot.subset {names kept : List String} (hKept : WithoutRoot names kept) :
    kept ⊆ names := by
  cases hKept with
  | root => exact List.subset_append_left _ _
  | other => exact List.Subset.refl _

theorem BehindSource.subset {names kept : List String} (hKept : BehindSource names kept) :
    kept ⊆ names := by
  cases hKept with
  | cut => exact fun name hName => List.mem_append_right _ (List.mem_cons_of_mem _ hName)
  | whole => exact List.Subset.refl _

/-- Only an underscore can be new in the name of a module. -/
theorem mem_of_mem_moduleName {name : String} {c : Char} (hMem : c ∈ (moduleName name).toList)
    (hOther : c ≠ '_') : c ∈ name.toList ∧ c ≠ '-' := by
  rw [moduleName, String.toList_ofList] at hMem
  obtain ⟨d, hSource, hChar⟩ := List.mem_map.mp hMem
  split_ifs at hChar with hDash
  · exact (hOther hChar.symm).elim
  · subst hChar
    exact ⟨hSource, by simpa using hDash⟩

/-- The name of a module is a part again, and no dash is left in it. -/
theorem IsPart.moduleName {name : String} (hName : IsPart name) :
    IsPart (moduleName name) ∧ '-' ∉ (moduleName name).toList := by
  have hLength : (FileScope.moduleName name).toList.length = name.toList.length := by
    simp [FileScope.moduleName]
  refine ⟨⟨?_, ?_, ?_⟩, ?_⟩
  · intro hEmpty
    rw [hEmpty] at hLength
    have hNil : name.toList = [] := List.length_eq_zero_iff.mp hLength.symm
    exact hName.nonempty (by simpa using hNil)
  · intro hDot
    rw [hDot] at hLength
    obtain ⟨c, hOne⟩ := List.length_eq_one_iff.mp hLength.symm
    have hMem : '.' ∈ (FileScope.moduleName name).toList := by simp [hDot]
    have hChar : '.' ∈ name.toList := (mem_of_mem_moduleName hMem (by decide)).1
    rw [hOne, List.mem_singleton] at hChar
    exact hName.notDot (String.toList_inj.mp (by rw [hOne, ← hChar]; rfl))
  · intro c hMem hDivides
    have hOther : c ≠ '_' := by rcases hDivides with rfl | rfl <;> decide
    exact hName.undivided c (mem_of_mem_moduleName hMem hOther).1 hDivides
  · intro hMem
    exact (mem_of_mem_moduleName hMem (by decide)).2 rfl

/-- The scope of a file depends on the names of its place only. It is the root's name
and then, with dashes written as underscores, the names that are left when a root
file's name is dropped and, after that, everything up to the first source directory.
What is left has neither dividers nor dashes in it, and there are no empty names. -/
theorem ofFile_ignores_spelling {names : List String} (hNames : PlaceNames names)
    {first second : String} (hFirst : FileSpelled names first.toList)
    (hSecond : FileSpelled names second.toList) (root : String) :
    ∃ named kept, WithoutRoot names named ∧ BehindSource named kept ∧
      ofFile root first = root :: kept.map moduleName ∧
      ofFile root second = root :: kept.map moduleName ∧
      ∀ segment ∈ kept.map moduleName, IsPart segment ∧ '-' ∉ segment.toList := by
  have hNamed : WithoutRoot names (withoutRootStem names) := withoutRoot_withoutRootStem names
  have hKept := behindSource_belowSource (withoutRootStem names)
  refine ⟨withoutRootStem names, belowSource (withoutRootStem names), hNamed, hKept, ?_, ?_, ?_⟩
  · rw [ofFile, hNames.parts_of_spelled hFirst]
  · rw [ofFile, hNames.parts_of_spelled hSecond]
  · intro segment hSegment
    obtain ⟨name, hName, rfl⟩ := List.mem_map.mp hSegment
    exact (hNames.parts name (hNamed.subset (hKept.subset hName))).moduleName

/-- One spelling with slashes of both kinds, a dot, a repeated slash and an ending, and
one from the top without the ending. The root file, what leads to the sources and the
dash are gone in both. -/
theorem ofFile_ignores_spelling_of_root_file :
    ofFile "crate" ".\\app//src/./my-routes\\mod.rs" =
        ofFile "crate" "/app/src/my-routes/mod" ∧
      ofFile "crate" "/app/src/my-routes/mod" = ["crate", "my_routes"] := by
  have hNames : PlaceNames ["app", "src", "my-routes", "mod"] := by
    refine ⟨?_, by decide⟩
    simp only [List.forall_mem_cons]
    refine ⟨?_, ?_, ?_, ?_, by simp⟩ <;> exact ⟨by decide, by decide, by simp [Divides]⟩
  have hFirst : FileSpelled ["app", "src", "my-routes", "mod"]
      ".\\app//src/./my-routes\\mod.rs".toList :=
    .ending (.cons (.dot (.inr rfl) .nil) (.inl rfl) (.cons (.divider (.inl rfl) .nil) (.inl rfl)
      (.cons (.dot (.inl rfl) .nil) (.inr rfl) (.last .nil))))
  have hSecond : FileSpelled ["app", "src", "my-routes", "mod"]
      "/app/src/my-routes/mod".toList :=
    .bare (.cons (.divider (.inl rfl) .nil) (.inl rfl) (.cons .nil (.inl rfl)
      (.cons .nil (.inl rfl) (.last .nil))))
  obtain ⟨_, _, _, _, hFirstScope, hSecondScope, _⟩ :=
    ofFile_ignores_spelling hNames hFirst hSecond "crate"
  exact ⟨hFirstScope.trans hSecondScope.symm, by decide +kernel⟩

end Spelling

end ApiSurvey.FileScope
