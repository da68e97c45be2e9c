import ApiSurvey.Proofs.MarkerList.Grammar

/-! The count of open groups. The scan for the end of a group counts delimiters and does
not ask for their kinds. Behind the path of an item this is enough: the item is well
nested, so the count stays positive up to one closer, which is the opener's own. -/
namespace ApiSurvey.MarkerList

/-- What a character at a place does to the number of open groups. Inside a literal it
does nothing, and outside its kind does not matter. -/
def Quotation.groupStep (quotation : Quotation) (c : Char) : Int :=
  match quotation with
  | .outside => if (closerOf? c).isSome then 1 else if isCloser c then -1 else 0
  | _ => 0

/-- The number of groups that a text opens and does not close, negative where it closes
more than it opens. The text starts at the given place. -/
def openGroups (quotation : Quotation) : List Char → Int
  | [] => 0
  | c :: rest => quotation.groupStep c + openGroups (quotation.next c) rest

/-- The groups that are open behind two texts are those behind the first, and those
that the second opens from there. -/
theorem openGroups_append (quotation : Quotation) (first second : List Char) :
    openGroups quotation (first ++ second) =
      openGroups quotation first + openGroups (first.foldl Quotation.next quotation) second := by
  induction first generalizing quotation with
  | nil => simp [openGroups]
  | cons c first ih => simp [openGroups, ih, Int.add_assoc]

theorem groupStep_closer {closer : Char} (hCloser : isCloser closer = true) :
    Quotation.outside.groupStep closer = -1 := by
  simp [Quotation.groupStep, closerOf?_of_isCloser hCloser, hCloser]

theorem groupStep_opener {opener : Char} (hOpener : (closerOf? opener).isSome = true) :
    Quotation.outside.groupStep opener = 1 := by
  simp [Quotation.groupStep, hOpener]

/-- A delimiter starts no quotation. -/
theorem next_of_delimiter {c : Char}
    (hDelimiter : (closerOf? c).isSome = true ∨ isCloser c = true) :
    Quotation.outside.next c = .outside := by
  have hQuote : c ≠ '"' := by
    rintro rfl
    revert hDelimiter
    decide
  simp [Quotation.next, hQuote]

section Scan

variable {depth : Nat} {quotation : Quotation}

/-- One step of the scan: the count moves by what the character does to it. -/
theorem restOfGroup?_cons_of_nonneg {c : Char} (hOpen : 0 ≤ depth + quotation.groupStep c)
    (rest : List Char) :
    restOfGroup? depth quotation (c :: rest) =
      restOfGroup? (depth + quotation.groupStep c).toNat (quotation.next c) rest := by
  cases quotation with
  | inside => simp [restOfGroup?, Quotation.groupStep]
  | escaped => simp [restOfGroup?, Quotation.groupStep]
  | outside =>
      by_cases hOpener : (closerOf? c).isSome = true
      · rw [groupStep_opener hOpener, next_of_delimiter (.inl hOpener)]
        simp [restOfGroup?, hOpener]
      · by_cases hCloser : isCloser c = true
        · rw [groupStep_closer hCloser] at hOpen ⊢
          rw [next_of_delimiter (.inr hCloser)]
          cases depth with
          | zero => simp at hOpen
          | succ depth =>
              have hOuter : (((depth + 1 : Nat) : Int) + -1).toNat = depth := by omega
              rw [hOuter]
              simp [restOfGroup?, hOpener, hCloser]
        · simp [restOfGroup?, Quotation.groupStep, hOpener, hCloser]

/-- The count would fall below zero only at the closer that ends the scan. -/
theorem restOfGroup?_cons_of_neg {c : Char} (hClosed : depth + quotation.groupStep c < 0) :
    depth = 0 ∧ quotation = .outside ∧ isCloser c = true ∧
      ∀ rest, restOfGroup? depth quotation (c :: rest) = some rest := by
  cases quotation with
  | inside => simp [Quotation.groupStep] at hClosed; omega
  | escaped => simp [Quotation.groupStep] at hClosed; omega
  | outside =>
      rw [Quotation.groupStep] at hClosed
      split_ifs at hClosed with hOpener hCloser
      · omega
      · obtain rfl : depth = 0 := by omega
        exact ⟨rfl, rfl, hCloser, fun rest => by simp [restOfGroup?, hOpener, hCloser]⟩
      · omega

/-- Behind a text in which the count has not fallen below zero, the scan goes on with
the count and the place that the text leaves. -/
theorem restOfGroup?_append {read : List Char}
    (hOpen : ∀ start, start <+: read → 0 ≤ depth + openGroups quotation start)
    (rest : List Char) :
    restOfGroup? depth quotation (read ++ rest) =
      restOfGroup? (depth + openGroups quotation read).toNat
        (read.foldl Quotation.next quotation) rest := by
  induction read generalizing depth quotation with
  | nil => simp [openGroups]
  | cons c read ih =>
      have hStep : 0 ≤ depth + quotation.groupStep c := by
        simpa [openGroups] using hOpen [c] ⟨read, rfl⟩
      have hMore : ∀ start, start <+: read →
          0 ≤ ((depth + quotation.groupStep c).toNat : Int) +
            openGroups (quotation.next c) start := by
        intro start hStart
        have hLonger := hOpen (c :: start) (List.cons_prefix_cons.mpr ⟨rfl, hStart⟩)
        rw [openGroups] at hLonger
        omega
      rw [List.cons_append, restOfGroup?_cons_of_nonneg hStep, ih hMore, List.foldl_cons,
        openGroups, Int.toNat_of_nonneg hStep, Int.add_assoc]

/-- A scan that finds the end of its group finds it at the first place where the count
is about to fall below zero. -/
theorem exists_closer_of_restOfGroup? {text after : List Char}
    (hScan : restOfGroup? depth quotation text = some after) :
    ∃ read closer, text = read ++ closer :: after ∧ isCloser closer = true ∧
      read.foldl Quotation.next quotation = .outside ∧ depth + openGroups quotation read = 0 ∧
      ∀ start, start <+: read → 0 ≤ depth + openGroups quotation start := by
  induction text generalizing depth quotation with
  | nil => simp [restOfGroup?] at hScan
  | cons c text ih =>
      by_cases hStep : 0 ≤ depth + quotation.groupStep c
      · rw [restOfGroup?_cons_of_nonneg hStep] at hScan
        obtain ⟨read, closer, rfl, hCloser, hPlace, hCount, hOpen⟩ := ih hScan
        rw [Int.toNat_of_nonneg hStep] at hCount hOpen
        refine ⟨c :: read, closer, rfl, hCloser, hPlace, ?_, ?_⟩
        · rw [openGroups, ← Int.add_assoc, hCount]
        · intro start hStart
          obtain rfl | ⟨shorter, rfl, hShorter⟩ := List.prefix_cons_iff.mp hStart
          · simp [openGroups]
          · rw [openGroups, ← Int.add_assoc]
            exact hOpen shorter hShorter
      · obtain ⟨rfl, rfl, hCloser, hEnd⟩ := restOfGroup?_cons_of_neg (Int.not_le.mp hStep)
        rw [hEnd, Option.some.injEq] at hScan
        subst hScan
        refine ⟨[], c, rfl, hCloser, rfl, by simp [openGroups], ?_⟩
        intro start hStart
        simp [List.prefix_nil.mp hStart, openGroups]

end Scan

/-- What stands behind the path of an item is well nested: a path has neither delimiters
nor quotes. -/
theorem nested_behind_path {commas : Bool} {item rest : List Char} {name : QualifiedName}
    (hItem : Nested commas item) (hPath : path? (Text.trim item) = some (name, rest)) :
    Nested commas (Text.trim rest) := by
  obtain ⟨read, hSplit, hRead⟩ := path?_sound hPath
  have hTrimmed : Nested commas (read ++ rest) := hSplit ▸ hItem.trim
  exact (hTrimmed.of_plain_append fun c hMem => (hRead.plain_of_mem hMem).1).trim

/-- A well-nested text that starts with an opener has the end of its group in it. -/
theorem Nested.exists_restOfGroup? {commas : Bool} {opener : Char} {body : List Char}
    (hText : Nested commas (opener :: body)) (hOpener : (closerOf? opener).isSome = true) :
    ∃ after, restOfGroup? 0 .outside body = some after := by
  cases hText with
  | plain hPlain => simp [hPlain.closerOf?] at hOpener
  | literal => simp [closerOf?] at hOpener
  | @group _ _ closer inner rest hPair hInner _ =>
      refine ⟨rest, ?_⟩
      rw [restOfGroup?_nested hInner]
      simp [restOfGroup?, closerOf?_of_isCloser hPair.isCloser, hPair.isCloser]

/-- For every item of every text: where an opener follows the path, the scan for the end
of the group comes to an answer before the text ends. Behind every part of the text that
it has read so far it stands at the count of open groups, which is positive up to the
closer that ends the scan and zero behind it. And although kinds are not compared, the
text is taken for one group exactly when it is the opener, a well-nested text and the
closer of the same kind, with nothing behind. -/
theorem group_behind_path_ends_at_its_closer {text item rest body : List Char}
    {list : List (List Char)} {name : QualifiedName} {opener : Char}
    (hItems : items text = .ok list) (hItem : item ∈ list)
    (hPath : path? (Text.trim item) = some (name, rest)) (hRest : Text.trim rest = opener :: body)
    (hOpener : (closerOf? opener).isSome = true) :
    (∃ read closer after, body = read ++ closer :: after ∧
      restOfGroup? 0 .outside body = some after ∧
      (∀ start more, read = start ++ more → ∃ depth : Nat,
        openGroups .outside (opener :: start) = depth + 1 ∧
        restOfGroup? 0 .outside body =
          restOfGroup? depth (start.foldl Quotation.next .outside) (more ++ closer :: after)) ∧
      openGroups .outside (opener :: (read ++ [closer])) = 0) ∧
    (isSingleGroup (Text.trim rest) = true ↔ ∃ closer inner, Pair opener closer ∧
      Nested true inner ∧ Text.trim rest = opener :: (inner ++ [closer])) := by
  have hNested : Nested false (Text.trim rest) :=
    nested_behind_path (((items_eq_ok_iff text list).mp hItems).2.1 item hItem) hPath
  have hNext : Quotation.outside.next opener = .outside := next_of_delimiter (.inl hOpener)
  constructor
  · obtain ⟨after, hScan⟩ := (hRest ▸ hNested).exists_restOfGroup? hOpener
    obtain ⟨read, closer, rfl, hCloser, hPlace, hCount, hOpen⟩ :=
      exists_closer_of_restOfGroup? hScan
    refine ⟨read, closer, after, rfl, hScan, ?_, ?_⟩
    · rintro start more rfl
      have hStart : ∀ shorter, shorter <+: start →
          0 ≤ ((0 : Nat) : Int) + openGroups .outside shorter :=
        fun shorter hShorter => hOpen shorter (hShorter.trans (List.prefix_append start more))
      have hCurrent := hStart start (List.prefix_refl start)
      refine ⟨(((0 : Nat) : Int) + openGroups .outside start).toNat, ?_, ?_⟩
      · rw [openGroups, groupStep_opener hOpener, hNext]
        omega
      · rw [List.append_assoc, restOfGroup?_append hStart]
    · rw [openGroups, groupStep_opener hOpener, hNext, openGroups_append, hPlace, openGroups,
        groupStep_closer hCloser, openGroups]
      omega
  · rw [isSingleGroup_iff hNested]
    constructor
    · rintro ⟨found, closer, inner, hPair, hInner, hText⟩
      obtain rfl : opener = found := (List.cons.inj (hRest.symm.trans hText)).1
      exact ⟨closer, inner, hPair, hInner, hText⟩
    · rintro ⟨closer, inner, hPair, hInner, hText⟩
      exact ⟨opener, closer, inner, hPair, hInner, hText⟩

/-- The second item has a closer in a literal, a group inside its group, and a group
behind it. -/
theorem group_behind_path_ends_at_its_closer_before_another :
    items "a, b::c ([\")\"] ,x) [y]".toList =
      .ok ["a".toList, " b::c ([\")\"] ,x) [y]".toList] ∧
    path? (Text.trim " b::c ([\")\"] ,x) [y]".toList) =
      some (⟨["b", "c"], false⟩, " ([\")\"] ,x) [y]".toList) ∧
    (∃ read closer after, "[\")\"] ,x) [y]".toList = read ++ closer :: after ∧
      restOfGroup? 0 .outside "[\")\"] ,x) [y]".toList = some after ∧
      openGroups .outside ('(' :: (read ++ [closer])) = 0) ∧
    (isSingleGroup (Text.trim " ([\")\"] ,x) [y]".toList) = true ↔ ∃ closer inner,
      Pair '(' closer ∧ Nested true inner ∧
        Text.trim " ([\")\"] ,x) [y]".toList = '(' :: (inner ++ [closer])) := by
  have hItems : items "a, b::c ([\")\"] ,x) [y]".toList =
      .ok ["a".toList, " b::c ([\")\"] ,x) [y]".toList] := rfl
  have hPath : path? (Text.trim " b::c ([\")\"] ,x) [y]".toList) =
      some (⟨["b", "c"], false⟩, " ([\")\"] ,x) [y]".toList) := rfl
  have hRest : Text.trim " ([\")\"] ,x) [y]".toList = '(' :: "[\")\"] ,x) [y]".toList := rfl
  obtain ⟨⟨read, closer, after, hBody, hScan, -, hCount⟩, hSingle⟩ :=
    group_behind_path_ends_at_its_closer hItems (by simp) hPath hRest rfl
  exact ⟨hItems, hPath, ⟨read, closer, after, hBody, hScan, hCount⟩, hSingle⟩

end ApiSurvey.MarkerList
