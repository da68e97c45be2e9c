import ApiSurvey.Proofs.MarkerList.Nesting
import ApiSurvey.Proofs.Text.Trim

/-! Single groups. Delimiters are counted without regard to their kind, which is
enough in a text that is known to be well nested. -/
namespace ApiSurvey.MarkerList

theorem plain_of_isBlank {c : Char} (hBlank : Text.isBlank c = true) : Plain c ∧ c ≠ ',' := by
  constructor
  · intro hMem
    simp only [List.mem_cons, List.not_mem_nil, or_false] at hMem
    rcases hMem with rfl | rfl | rfl | rfl | rfl | rfl | rfl <;> simp [Text.isBlank] at hBlank
  · rintro rfl
    simp [Text.isBlank] at hBlank

/-- Blanks open nothing. -/
theorem Nested.of_blanks {commas : Bool} {text : List Char} (hText : Text.Blanks text) :
    Nested commas text :=
  .of_plain fun c hMem => plain_of_isBlank (hText c hMem)

/-- A character that is not plain stands before the plain characters at the end. -/
theorem append_eq_append_cons {text after body rest : List Char} {c : Char} (hPlain : ¬ Plain c)
    (hAfter : ∀ d ∈ after, Plain d) (hEq : text ++ after = body ++ c :: rest) :
    ∃ more, text = body ++ c :: more ∧ rest = more ++ after := by
  rcases List.append_eq_append_iff.mp hEq with ⟨more, -, hMore⟩ | ⟨more, hText, hMore⟩
  · exact (hPlain (hAfter c (by simp [hMore]))).elim
  · cases more with
    | nil =>
        have hMem : c ∈ after := by
          rw [List.nil_append] at hMore
          simp [← hMore]
        exact (hPlain (hAfter c hMem)).elim
    | cons d more =>
        obtain ⟨rfl, rfl⟩ := List.cons.inj hMore
        exact ⟨more, hText, rfl⟩

/-- Plain characters at the end have no part in the nesting of what precedes
them. -/
theorem Nested.of_append_plain {commas : Bool} {text after : List Char}
    (hAfter : ∀ c ∈ after, Plain c) (hNested : Nested commas (text ++ after)) :
    Nested commas text := by
  generalize hWhole : text ++ after = whole at hNested
  induction hNested generalizing text with
  | nil =>
      rw [(List.append_eq_nil_iff.mp hWhole).1]
      exact .nil
  | @plain commas c rest hPlain hComma _ ih =>
      cases text with
      | nil => exact .nil
      | cons d text =>
          obtain ⟨rfl, hRest⟩ := List.cons.inj hWhole
          exact .plain hPlain hComma (ih hRest)
  | @literal commas body rest hBody _ ih =>
      have hQuote : ¬ Plain '"' := by simp [Plain]
      obtain ⟨more, rfl, hRest⟩ := append_eq_append_cons hQuote hAfter
        (show text ++ after = ('"' :: body) ++ '"' :: rest from hWhole)
      exact .literal hBody (ih hRest.symm)
  | @group commas opener closer inner rest hPair hInner _ _ ih =>
      have hCloser : ¬ Plain closer := by cases hPair <;> simp [Plain]
      obtain ⟨more, rfl, hRest⟩ := append_eq_append_cons hCloser hAfter
        (show text ++ after = (opener :: inner) ++ closer :: rest from hWhole)
      exact .group hPair hInner (ih hRest.symm)

/-- Taking blanks away at both ends leaves nothing open. -/
theorem Nested.trim {commas : Bool} {text : List Char} (hText : Nested commas text) :
    Nested commas (Text.trim text) := by
  obtain ⟨before, after, hBefore, hAfter, hEq⟩ := Text.trim_exists text
  rw [hEq] at hText
  have hFront : Nested commas (before ++ Text.trim text) :=
    hText.of_append_plain fun c hMem => (plain_of_isBlank (hAfter c hMem)).1
  exact hFront.of_plain_append fun c hMem => (plain_of_isBlank (hBefore c hMem)).1

/-- A literal does not change how deep one is in groups, whatever delimiters are in
it. -/
theorem restOfGroup?_literal (depth : Nat) (rest : List Char) {body : List Char}
    (hBody : LiteralText body) :
    restOfGroup? depth .inside (body ++ '"' :: rest) = restOfGroup? depth .outside rest := by
  induction hBody with
  | nil => simp [restOfGroup?, Quotation.next]
  | plain hQuote hBackslash _ ih => simp [restOfGroup?, Quotation.next, hQuote, hBackslash, ih]
  | escape _ ih => simp [restOfGroup?, Quotation.next, ih]

/-- A well-nested text is passed over, however many groups are open around it. -/
theorem restOfGroup?_nested {commas : Bool} {text : List Char} (hText : Nested commas text)
    (depth : Nat) (rest : List Char) :
    restOfGroup? depth .outside (text ++ rest) = restOfGroup? depth .outside rest := by
  induction hText generalizing depth rest with
  | nil => rfl
  | plain hPlain _ _ ih =>
      simp [restOfGroup?, hPlain.closerOf?, hPlain.isCloser, hPlain.next, ih]
  | literal hBody _ ih =>
      simp [restOfGroup?, closerOf?, isCloser, Quotation.next, restOfGroup?_literal depth _ hBody,
        ih]
  | @group commas opener closer inner text hPair _ _ ihInner ihText =>
      have hOpener : (closerOf? opener).isSome = true := by
        rw [(closerOf?_eq_some_iff opener closer).mpr hPair]
        rfl
      simp [restOfGroup?, hOpener, ihInner, closerOf?_of_isCloser hPair.isCloser, hPair.isCloser,
        ihText]

/-- In a well-nested text the group that starts it is closed by the closer of its
own kind, so the text is one group when nothing follows that closer. -/
theorem isSingleGroup_iff {commas : Bool} {text : List Char} (hText : Nested commas text) :
    isSingleGroup text = true ↔ ∃ opener closer inner, Pair opener closer ∧ Nested true inner ∧
      text = opener :: (inner ++ [closer]) := by
  have hGroup {opener closer : Char} {inner rest : List Char} (hPair : Pair opener closer)
      (hInner : Nested true inner) :
      isSingleGroup (opener :: (inner ++ closer :: rest)) = true ↔ rest = [] := by
    have hOpener : closerOf? opener = some closer := (closerOf?_eq_some_iff opener closer).mpr hPair
    simp [isSingleGroup, hOpener, restOfGroup?_nested hInner, restOfGroup?,
      closerOf?_of_isCloser hPair.isCloser, hPair.isCloser]
  constructor
  · intro hSingle
    cases hText with
    | nil => simp [isSingleGroup] at hSingle
    | plain hPlain => simp [isSingleGroup, hPlain.closerOf?] at hSingle
    | literal => simp [isSingleGroup, closerOf?] at hSingle
    | @group _ opener closer inner rest hPair hInner _ =>
        obtain rfl := (hGroup hPair hInner).mp hSingle
        exact ⟨opener, closer, inner, hPair, hInner, rfl⟩
  · intro hSingle
    obtain ⟨opener, closer, inner, hPair, hInner, rfl⟩ := hSingle
    exact (hGroup hPair hInner).mpr rfl

end ApiSurvey.MarkerList
