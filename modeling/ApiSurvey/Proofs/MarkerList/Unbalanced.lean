import ApiSurvey.Proofs.MarkerList.Nesting

/-! Texts that are not well nested, and what is reported of them. A scan that stops
at a character, or that is not done at the end of the text, is told by the text
alone: by what is open in front of that place. -/
namespace ApiSurvey.MarkerList

/-- Texts that end outside of literals with some groups open. `closers` are the
closers of these groups, the innermost first; all that is closed is well nested. -/
inductive OpenText : (closers : List Char) → List Char → Prop where
  | nested {text : List Char} (hText : Nested true text) : OpenText [] text
  | group {closers outer inner : List Char} {opener closer : Char}
      (hOuter : OpenText closers outer) (hPair : Pair opener closer)
      (hInner : Nested true inner) : OpenText (closer :: closers) (outer ++ opener :: inner)

/-- What stands behind the quote of a literal that does not end. The last character
may be a backslash that has nothing to take with it. -/
inductive UnfinishedLiteral : List Char → Prop where
  | body {body : List Char} (hBody : LiteralText body) : UnfinishedLiteral body
  | escape {body : List Char} (hBody : LiteralText body) : UnfinishedLiteral (body ++ ['\\'])

/-- Texts in which every literal ends. Delimiters have no part in this. -/
inductive LiteralsEnd : List Char → Prop where
  | nil : LiteralsEnd []
  | char {c : Char} {rest : List Char} (hQuote : c ≠ '"') (hRest : LiteralsEnd rest) :
      LiteralsEnd (c :: rest)
  | literal {body rest : List Char} (hBody : LiteralText body) (hRest : LiteralsEnd rest) :
      LiteralsEnd ('"' :: (body ++ '"' :: rest))

/-- A text with a closer that closes nothing or a group of another kind. The closer
is the leftmost of them, since all is in place in front of it; what follows it is
free. -/
def StrayCloser (text : List Char) (closer : Char) : Prop :=
  ∃ before after closers, text = before ++ closer :: after ∧ OpenText closers before ∧
    (∃ opener, Pair opener closer) ∧ closers.head? ≠ some closer

/-- A text that ends inside of a literal, whatever groups are open. -/
def EndsInLiteral (text : List Char) : Prop :=
  ∃ before body, text = before ++ '"' :: body ∧ LiteralsEnd before ∧ UnfinishedLiteral body

/-- A text that ends outside of literals, inside of a group that this closer would
close. -/
def EndsInGroup (text : List Char) (closer : Char) : Prop :=
  ∃ closers, OpenText (closer :: closers) text

/-- A stray closer is the closer of some pair. -/
theorem StrayCloser.exists_pair {text : List Char} {closer : Char}
    (hStray : StrayCloser text closer) : ∃ opener, Pair opener closer := by
  obtain ⟨before, after, closers, -, -, hPair, -⟩ := hStray
  exact hPair

theorem EndsInGroup.exists_pair {text : List Char} {closer : Char}
    (hGroup : EndsInGroup text closer) : ∃ opener, Pair opener closer := by
  obtain ⟨closers, hText⟩ := hGroup
  cases hText with
  | group _ hPair _ => exact ⟨_, hPair⟩

theorem isCloser_iff (c : Char) : isCloser c = true ↔ ∃ opener, Pair opener c := by
  constructor
  · intro hCloser
    simp only [isCloser, Bool.or_eq_true, beq_iff_eq] at hCloser
    rcases hCloser with (rfl | rfl) | rfl
    · exact ⟨_, .round⟩
    · exact ⟨_, .square⟩
    · exact ⟨_, .curly⟩
  · rintro ⟨opener, hPair⟩
    exact hPair.isCloser

theorem LiteralText.append {first second : List Char} (hFirst : LiteralText first)
    (hSecond : LiteralText second) : LiteralText (first ++ second) := by
  induction hFirst with
  | nil => exact hSecond
  | plain hQuote hBackslash _ ih => exact .plain hQuote hBackslash ih
  | escape _ ih => exact .escape ih

/-- What leaves nothing open may stand behind groups that are open. -/
theorem OpenText.append {closers before text : List Char} (hBefore : OpenText closers before)
    (hText : Nested true text) : OpenText closers (before ++ text) := by
  cases hBefore with
  | nested hBefore => exact .nested (hBefore.append hText)
  | group hOuter hPair hInner =>
      rw [List.append_assoc, List.cons_append]
      exact .group hOuter hPair (hInner.append hText)

theorem OpenText.open {closers before : List Char} {opener closer : Char}
    (hBefore : OpenText closers before) (hPair : Pair opener closer) :
    OpenText (closer :: closers) (before ++ [opener]) :=
  .group hBefore hPair .nil

/-- The closer of the innermost group turns the group into well-nested text. -/
theorem OpenText.close {closers before : List Char} {closer : Char}
    (hBefore : OpenText (closer :: closers) before) : OpenText closers (before ++ [closer]) := by
  cases hBefore with
  | @group _ outer inner opener _ hOuter hPair hInner =>
      have hGroup : Nested true (opener :: (inner ++ [closer])) := .group hPair hInner .nil
      rw [List.append_assoc, List.cons_append]
      exact hOuter.append hGroup

/-- A place that a scan can reach: the groups that are open there, whether it is in a
literal, and the text in front of it. -/
inductive Place : List Char → Quotation → List Char → Prop where
  | outside {closers before : List Char} (hBefore : OpenText closers before) :
      Place closers .outside before
  | inside {closers before body : List Char} (hBefore : OpenText closers before)
      (hBody : LiteralText body) : Place closers .inside (before ++ '"' :: body)
  | escaped {closers before body : List Char} (hBefore : OpenText closers before)
      (hBody : LiteralText body) : Place closers .escaped (before ++ '"' :: (body ++ ['\\']))

/-- One step inside of a literal or into one, or over a character that is neither
quote nor delimiter. The groups that are open stay the same. -/
theorem Place.next {closers before : List Char} {quotation : Quotation}
    (hPlace : Place closers quotation before) {c : Char}
    (hChar : quotation = .outside → c = '"' ∨ Plain c) :
    Place closers (quotation.next c) (before ++ [c]) := by
  cases hPlace with
  | outside hBefore =>
      rcases hChar rfl with rfl | hPlain
      · exact .inside hBefore .nil
      · rw [hPlain.next]
        exact .outside (hBefore.append (.plain hPlain (fun _ => rfl) .nil))
  | inside hBefore hBody =>
      rw [List.append_assoc, List.cons_append]
      by_cases hBackslash : c = '\\'
      · subst hBackslash
        exact .escaped hBefore hBody
      · by_cases hQuote : c = '"'
        · subst hQuote
          exact .outside (hBefore.append (.literal hBody .nil))
        · have hNext : Quotation.inside.next c = .inside := by
            simp [Quotation.next, hBackslash, hQuote]
          rw [hNext]
          exact .inside hBefore (hBody.append (.plain hQuote hBackslash .nil))
  | escaped hBefore hBody =>
      rw [List.append_assoc, List.cons_append, List.append_assoc, List.singleton_append]
      exact .inside hBefore (hBody.append (.escape .nil))

/-- What is wrong with a text that is not well nested. -/
inductive Unbalanced (text : List Char) : Problem → Prop where
  | unexpected {closer : Char} (hStray : StrayCloser text closer) :
      Unbalanced text (.unexpected closer)
  | unterminated {closers before body : List Char} (hText : text = before ++ '"' :: body)
      (hBefore : OpenText closers before) (hBody : UnfinishedLiteral body) :
      Unbalanced text .unterminatedString
  | missing {closer : Char} (hGroup : EndsInGroup text closer) : Unbalanced text (.missing closer)

/-- At the end of the text a literal or a group that is open makes the problem. -/
theorem Place.unbalanced_of_end {closers text : List Char} {quotation : Quotation}
    {problem : Problem} (hPlace : Place closers quotation text)
    (hEnd : itemsFrom closers quotation [] = .error problem) : Unbalanced text problem := by
  cases hPlace with
  | outside hText =>
      cases closers with
      | nil => cases hEnd
      | cons closer outer =>
          obtain rfl := Except.error.inj hEnd
          exact .missing ⟨outer, hText⟩
  | inside hBefore hBody =>
      obtain rfl := Except.error.inj hEnd
      exact .unterminated rfl hBefore (.body hBody)
  | escaped hBefore hBody =>
      obtain rfl := Except.error.inj hEnd
      exact .unterminated rfl hBefore (.escape hBody)

/-- A scan that fails behind a place fails with a problem of the whole text. Each
character takes the scan to the next place or is the stray closer itself. -/
theorem Place.unbalanced {closers before rest : List Char} {quotation : Quotation}
    {problem : Problem} (hPlace : Place closers quotation before)
    (hScan : itemsFrom closers quotation rest = .error problem) :
    Unbalanced (before ++ rest) problem := by
  induction rest generalizing closers quotation before with
  | nil =>
      rw [List.append_nil]
      exact hPlace.unbalanced_of_end hScan
  | cons c rest ih =>
      have hStep {closers' : List Char} {quotation' : Quotation}
          {f : List (List Char) → List (List Char)}
          (hNext : Place closers' quotation' (before ++ [c]))
          (hRest : (itemsFrom closers' quotation' rest).map f = .error problem) :
          Unbalanced (before ++ c :: rest) problem := by
        have hWhole := ih hNext ((Sequence.map_eq_error_iff _ _ _).mp hRest)
        rwa [List.append_assoc, List.singleton_append] at hWhole
      cases quotation with
      | inside =>
          rw [itemsFrom_inside] at hScan
          exact hStep (hPlace.next (fun hOutside => by cases hOutside)) hScan
      | escaped =>
          rw [itemsFrom_escaped] at hScan
          exact hStep (hPlace.next (fun hOutside => by cases hOutside)) hScan
      | outside =>
          have hBefore : OpenText closers before := by
            cases hPlace with
            | outside hBefore => exact hBefore
          rcases char_cases c with ⟨closer, hPair⟩ | hCloser | rfl | hPlain
          · rw [itemsFrom_opener closers rest hPair] at hScan
            exact hStep (.outside (hBefore.open hPair)) hScan
          · by_cases hFirst : closers.head? = some c
            · obtain ⟨outer, rfl⟩ := List.head?_eq_some_iff.mp hFirst
              rw [itemsFrom_closer outer rest hCloser] at hScan
              exact hStep (.outside hBefore.close) hScan
            · rw [itemsFrom_unexpected closers rest hCloser hFirst] at hScan
              obtain rfl := Except.error.inj hScan
              exact .unexpected
                ⟨before, rest, closers, rfl, hBefore, (isCloser_iff c).mp hCloser, hFirst⟩
          · rw [itemsFrom_quote] at hScan
            exact hStep (hPlace.next fun _ => .inl rfl) hScan
          · have hNext := hPlace.next (c := c) fun _ => .inr hPlain
            rw [hPlain.next] at hNext
            by_cases hComma : c = ',' ∧ closers = []
            · obtain ⟨rfl, rfl⟩ := hComma
              rw [itemsFrom_comma] at hScan
              exact hStep hNext hScan
            · rw [itemsFrom_plain closers rest hPlain fun hEq hNil => hComma ⟨hEq, hNil⟩] at hScan
              exact hStep hNext hScan

/-- A well-nested text hides no failure behind it, not even with commas of its own. -/
theorem itemsFrom_nested_error {commas : Bool} {text : List Char} (hText : Nested commas text)
    {closers rest : List Char} {problem : Problem}
    (hRest : itemsFrom closers .outside rest = .error problem) :
    itemsFrom closers .outside (text ++ rest) = .error problem := by
  induction hText generalizing closers rest with
  | nil => exact hRest
  | @plain commas c text hPlain _ _ ih =>
      by_cases hComma : c = ',' ∧ closers = []
      · obtain ⟨rfl, rfl⟩ := hComma
        rw [List.cons_append, itemsFrom_comma, ih hRest]
        rfl
      · rw [List.cons_append,
          itemsFrom_plain closers _ hPlain fun hEq hNil => hComma ⟨hEq, hNil⟩, ih hRest]
        rfl
  | literal hBody _ ih =>
      rw [List.cons_append, List.append_assoc, List.cons_append, itemsFrom_quote,
        itemsFrom_literal closers _ hBody, ih hRest]
      rfl
  | @group commas opener closer inner text hPair _ _ ihInner ihText =>
      have hClosed : itemsFrom (closer :: closers) .outside (closer :: (text ++ rest)) =
          .error problem := by
        rw [itemsFrom_closer closers _ hPair.isCloser, ihText hRest]
        rfl
      rw [List.cons_append, List.append_assoc, List.cons_append,
        itemsFrom_opener closers _ hPair, ihInner hClosed]
      rfl

/-- A text with open groups passes the problem behind it on. -/
theorem OpenText.items_append {closers before rest : List Char} {problem : Problem}
    (hBefore : OpenText closers before)
    (hRest : itemsFrom closers .outside rest = .error problem) :
    items (before ++ rest) = .error problem := by
  induction hBefore generalizing rest with
  | nested hText => exact itemsFrom_nested_error hText hRest
  | @group closers outer inner opener closer _ hPair hInner ih =>
      rw [List.append_assoc]
      apply ih
      rw [List.cons_append, itemsFrom_opener closers _ hPair,
        itemsFrom_nested_error hInner hRest]
      rfl

/-- In a literal everything is passed over, so a problem behind it is passed on. -/
theorem itemsFrom_literalText {body : List Char} (hBody : LiteralText body)
    {closers rest : List Char} {problem : Problem}
    (hRest : itemsFrom closers .inside rest = .error problem) :
    itemsFrom closers .inside (body ++ rest) = .error problem := by
  induction hBody with
  | nil => exact hRest
  | @plain c body hQuote hBackslash _ ih =>
      have hNext : Quotation.inside.next c = .inside := by
        simp [Quotation.next, hQuote, hBackslash]
      rw [List.cons_append, itemsFrom_inside, hNext, ih]
      rfl
  | @escape c body _ ih =>
      have hNext : Quotation.inside.next '\\' = .escaped := rfl
      rw [List.cons_append, List.cons_append, itemsFrom_inside, hNext, itemsFrom_escaped, ih]
      rfl

/-- A literal without an end is the problem, however many groups are open. -/
theorem UnfinishedLiteral.itemsFrom {body : List Char} (hBody : UnfinishedLiteral body)
    (closers : List Char) :
    itemsFrom closers .inside body = .error .unterminatedString := by
  cases hBody with
  | body hBody =>
      have hEnd : MarkerList.itemsFrom closers .inside [] = .error .unterminatedString := rfl
      simpa using itemsFrom_literalText hBody hEnd
  | escape hBody => exact itemsFrom_literalText hBody rfl

/-- A text has no items exactly when it is not well nested, and the problem is the one
that the text has. -/
theorem items_eq_error_iff (text : List Char) (problem : Problem) :
    items text = .error problem ↔ Unbalanced text problem := by
  constructor
  · intro hItems
    have hStart : Place [] .outside [] := .outside (.nested .nil)
    exact hStart.unbalanced hItems
  · intro hUnbalanced
    cases hUnbalanced with
    | unexpected hStray =>
        obtain ⟨before, after, closers, rfl, hBefore, hCloser, hFirst⟩ := hStray
        exact hBefore.items_append
          (itemsFrom_unexpected closers after ((isCloser_iff _).mpr hCloser) hFirst)
    | unterminated hText hBefore hBody =>
        rw [hText]
        apply hBefore.items_append
        rw [itemsFrom_quote, hBody.itemsFrom]
        rfl
    | missing hGroup =>
        obtain ⟨closers, hText⟩ := hGroup
        have hEnd : items (text ++ []) = _ := hText.items_append rfl
        rwa [List.append_nil] at hEnd

theorem LiteralsEnd.append {first second : List Char} (hFirst : LiteralsEnd first)
    (hSecond : LiteralsEnd second) : LiteralsEnd (first ++ second) := by
  induction hFirst with
  | nil => exact hSecond
  | char hQuote _ ih => exact .char hQuote ih
  | literal hBody _ ih =>
      rw [List.cons_append, List.append_assoc, List.cons_append]
      exact .literal hBody ih

/-- Where nothing is left open, all literals end. -/
theorem Nested.literalsEnd {commas : Bool} {text : List Char} (hText : Nested commas text) :
    LiteralsEnd text := by
  induction hText with
  | nil => exact .nil
  | plain hPlain _ _ ih =>
      refine .char ?_ ih
      rintro rfl
      simp [Plain] at hPlain
  | literal hBody _ ih => exact .literal hBody ih
  | group hPair _ _ ihInner ihRest =>
      exact .char (by cases hPair <;> decide)
        (ihInner.append (.char (by cases hPair <;> decide) ihRest))

/-- Open groups leave no literal open. -/
theorem OpenText.literalsEnd {closers text : List Char} (hText : OpenText closers text) :
    LiteralsEnd text := by
  induction hText with
  | nested hText => exact hText.literalsEnd
  | group _ hPair hInner ih =>
      exact ih.append (.char (by cases hPair <;> decide) hInner.literalsEnd)

theorem LiteralText.foldl_next {body : List Char} (hBody : LiteralText body) :
    body.foldl Quotation.next .inside = .inside := by
  induction hBody with
  | nil => rfl
  | plain hQuote hBackslash _ ih => simpa [Quotation.next, hQuote, hBackslash] using ih
  | escape _ ih => simpa [Quotation.next] using ih

/-- Behind literals that end one is outside again. -/
theorem LiteralsEnd.foldl_next {text : List Char} (hText : LiteralsEnd text) :
    text.foldl Quotation.next .outside = .outside := by
  induction hText with
  | nil => rfl
  | char hQuote _ ih => simpa [Quotation.next, hQuote] using ih
  | literal hBody _ ih => simpa [Quotation.next, hBody.foldl_next] using ih

/-- A text does not end inside of a literal when all its literals end: the place
behind it is told by its quotes and backslashes. -/
theorem LiteralsEnd.not_endsInLiteral {text : List Char} (hText : LiteralsEnd text) :
    ¬ EndsInLiteral text := by
  rintro ⟨before, body, rfl, hBefore, hBody⟩
  have hEnd := hText.foldl_next
  rw [List.foldl_append, hBefore.foldl_next, List.foldl_cons] at hEnd
  cases hBody with
  | body hBody =>
      have hInside : (body.foldl Quotation.next .inside) = .inside := hBody.foldl_next
      exact absurd (hInside.symm.trans hEnd) (by decide)
  | escape hBody =>
      rw [List.foldl_append] at hEnd
      have hInside := congrArg (fun place => ['\\'].foldl Quotation.next place) hBody.foldl_next
      exact absurd (hInside.symm.trans hEnd) (by decide)

/-- A text that ends in a group does not end in a literal, since all literals before
it end. -/
theorem EndsInGroup.not_endsInLiteral {text : List Char} {closer : Char}
    (hGroup : EndsInGroup text closer) : ¬ EndsInLiteral text := by
  obtain ⟨closers, hText⟩ := hGroup
  exact hText.literalsEnd.not_endsInLiteral

/-- The problem of a text rules every other stray closer out. -/
theorem Unbalanced.not_strayCloser {text : List Char} {problem : Problem}
    (hUnbalanced : Unbalanced text problem) {closer : Char}
    (hOther : problem ≠ .unexpected closer) : ¬ StrayCloser text closer := by
  intro hStray
  have hItems := (items_eq_error_iff text problem).mpr hUnbalanced
  rw [(items_eq_error_iff text _).mpr (.unexpected hStray)] at hItems
  exact hOther (Except.error.inj hItems).symm

/-- A literal that does not end is the problem of a text unless a stray closer is, even
where groups are open. -/
theorem unbalanced_unterminated_iff (text : List Char) :
    Unbalanced text .unterminatedString ↔
      (∀ closer, ¬ StrayCloser text closer) ∧ EndsInLiteral text := by
  constructor
  · intro hUnbalanced
    refine ⟨fun closer => hUnbalanced.not_strayCloser (by simp), ?_⟩
    cases hUnbalanced with
    | unterminated hText hBefore hBody => exact ⟨_, _, hText, hBefore.literalsEnd, hBody⟩
  · rintro ⟨hNoStray, hLiteral⟩
    cases hItems : items text with
    | ok list =>
        have hCompletes : Completes [] .outside text := ⟨list, hItems⟩
        have hNested : Nested true text := hCompletes.closes
        exact (hNested.literalsEnd.not_endsInLiteral hLiteral).elim
    | error problem =>
        have hUnbalanced := (items_eq_error_iff text problem).mp hItems
        cases hUnbalanced with
        | unexpected hStray => exact (hNoStray _ hStray).elim
        | unterminated hText hBefore hBody => exact .unterminated hText hBefore hBody
        | missing hGroup => exact (hGroup.not_endsInLiteral hLiteral).elim

end ApiSurvey.MarkerList
