import ApiSurvey.MarkerList.Items
import ApiSurvey.Proofs.Sequence

/-! Well-nested texts as a grammar, and the items of a text. A text has items
exactly when it is well nested, and then they are the only texts without a comma
outside groups and literals that it is made of. -/
namespace ApiSurvey.MarkerList

inductive Pair : Char → Char → Prop where
  | round : Pair '(' ')'
  | square : Pair '[' ']'
  | curly : Pair '{' '}'

/-- A character that neither opens nor closes anything. -/
def Plain (c : Char) : Prop :=
  c ∉ ['(', ')', '[', ']', '{', '}', '"']

/-- What stands between the quotes of a string literal. A backslash takes the
next character with it, so that one ends nothing. -/
inductive LiteralText : List Char → Prop where
  | nil : LiteralText []
  | plain {c : Char} {rest : List Char} (hQuote : c ≠ '"') (hBackslash : c ≠ '\\')
      (hRest : LiteralText rest) : LiteralText (c :: rest)
  | escape {c : Char} {rest : List Char} (hRest : LiteralText rest) :
      LiteralText ('\\' :: c :: rest)

/-- Well-nested texts: outside literals, which all end, delimiters match pairwise
by kind. `commas` tells whether a comma may stand outside groups and literals;
inside a group it always may. -/
inductive Nested : (commas : Bool) → List Char → Prop where
  | nil {commas : Bool} : Nested commas []
  | plain {commas : Bool} {c : Char} {rest : List Char} (hPlain : Plain c)
      (hComma : c = ',' → commas = true) (hRest : Nested commas rest) : Nested commas (c :: rest)
  | literal {commas : Bool} {body rest : List Char} (hBody : LiteralText body)
      (hRest : Nested commas rest) : Nested commas ('"' :: (body ++ '"' :: rest))
  | group {commas : Bool} {opener closer : Char} {inner rest : List Char}
      (hPair : Pair opener closer) (hInner : Nested true inner) (hRest : Nested commas rest) :
      Nested commas (opener :: (inner ++ closer :: rest))

/-- The closer that is looked up is the one of the pair. -/
theorem closerOf?_eq_some_iff (opener closer : Char) :
    closerOf? opener = some closer ↔ Pair opener closer := by
  constructor
  · intro hCloser
    unfold closerOf? at hCloser
    split_ifs at hCloser with hRound hSquare hCurly
    · obtain rfl := Option.some.inj hCloser
      rw [eq_of_beq hRound]
      exact .round
    · obtain rfl := Option.some.inj hCloser
      rw [eq_of_beq hSquare]
      exact .square
    · obtain rfl := Option.some.inj hCloser
      rw [eq_of_beq hCurly]
      exact .curly
  · intro hPair
    cases hPair <;> rfl

theorem Pair.isCloser {opener closer : Char} (hPair : Pair opener closer) :
    isCloser closer = true := by
  cases hPair <;> rfl

/-- No closer opens anything. -/
theorem closerOf?_of_isCloser {c : Char} (hCloser : isCloser c = true) : closerOf? c = none := by
  simp only [isCloser, Bool.or_eq_true, beq_iff_eq] at hCloser
  rcases hCloser with (rfl | rfl) | rfl <;> rfl

theorem Plain.closerOf? {c : Char} (hPlain : Plain c) : closerOf? c = none := by
  simp [Plain] at hPlain
  simp [MarkerList.closerOf?, hPlain]

theorem Plain.isCloser {c : Char} (hPlain : Plain c) : isCloser c = false := by
  simp [Plain] at hPlain
  simp [MarkerList.isCloser, hPlain]

theorem Plain.next {c : Char} (hPlain : Plain c) : Quotation.outside.next c = .outside := by
  simp [Plain] at hPlain
  simp [Quotation.next, hPlain]

/-- Outside literals a character opens a group, closes one, starts a literal, or
is plain. -/
theorem char_cases (c : Char) :
    (∃ closer, Pair c closer) ∨ isCloser c = true ∨ c = '"' ∨ Plain c := by
  by_cases hPlain : Plain c
  · exact .inr (.inr (.inr hPlain))
  · simp only [Plain, List.mem_cons, List.not_mem_nil, or_false, not_not] at hPlain
    rcases hPlain with rfl | rfl | rfl | rfl | rfl | rfl | rfl
    · exact .inl ⟨_, .round⟩
    · exact .inr (.inl rfl)
    · exact .inl ⟨_, .square⟩
    · exact .inr (.inl rfl)
    · exact .inl ⟨_, .curly⟩
    · exact .inr (.inl rfl)
    · exact .inr (.inr (.inl rfl))

/-- What leaves nothing open may stand behind another such text. -/
theorem Nested.append {commas : Bool} {first second : List Char} (hFirst : Nested commas first)
    (hSecond : Nested commas second) : Nested commas (first ++ second) := by
  induction hFirst with
  | nil => exact hSecond
  | plain hPlain hComma _ ih => exact .plain hPlain hComma (ih hSecond)
  | literal hBody _ ih =>
      rw [List.cons_append, List.append_assoc, List.cons_append]
      exact .literal hBody (ih hSecond)
  | group hPair hInner _ _ ih =>
      rw [List.cons_append, List.append_assoc, List.cons_append]
      exact .group hPair hInner (ih hSecond)

/-- Without delimiters and quotation marks nothing is opened. -/
theorem Nested.of_plain {commas : Bool} {text : List Char}
    (hText : ∀ c ∈ text, Plain c ∧ c ≠ ',') : Nested commas text := by
  induction text with
  | nil => exact .nil
  | cons c rest ih =>
      obtain ⟨⟨hPlain, hComma⟩, hRest⟩ := List.forall_mem_cons.mp hText
      exact .plain hPlain (fun hEq => (hComma hEq).elim) (ih hRest)

/-- A plain character in front makes no difference. -/
theorem Nested.of_cons_plain {commas : Bool} {c : Char} {rest : List Char} (hPlain : Plain c)
    (hNested : Nested commas (c :: rest)) : Nested commas rest := by
  cases hNested with
  | plain _ _ hRest => exact hRest
  | literal hBody hRest => simp [Plain] at hPlain
  | group hPair hInner hRest => cases hPair <;> simp [Plain] at hPlain

/-- Plain characters at the start have no part in the nesting of the rest. -/
theorem Nested.of_plain_append {commas : Bool} {first rest : List Char}
    (hFirst : ∀ c ∈ first, Plain c) (hNested : Nested commas (first ++ rest)) :
    Nested commas rest := by
  induction first with
  | nil => exact hNested
  | cons c first ih =>
      obtain ⟨hPlain, hFirst⟩ := List.forall_mem_cons.mp hFirst
      exact ih hFirst (hNested.of_cons_plain hPlain)

section Scanning

variable (closers rest : List Char)

theorem itemsFrom_outside (c : Char) :
    itemsFrom closers .outside (c :: rest) =
      match closerOf? c with
      | some closer => (itemsFrom (closer :: closers) .outside rest).map (Text.consFirst c)
      | none =>
          if isCloser c then
            match closers with
            | [] => .error (.unexpected c)
            | closer :: outer =>
                if closer == c then (itemsFrom outer .outside rest).map (Text.consFirst c)
                else .error (.unexpected c)
          else if c == ',' && closers.isEmpty then
            (itemsFrom [] .outside rest).map ([] :: ·)
          else (itemsFrom closers (Quotation.outside.next c) rest).map (Text.consFirst c) :=
  rfl

theorem itemsFrom_inside (c : Char) :
    itemsFrom closers .inside (c :: rest) =
      (itemsFrom closers (Quotation.inside.next c) rest).map (Text.consFirst c) :=
  rfl

theorem itemsFrom_escaped (c : Char) :
    itemsFrom closers .escaped (c :: rest) =
      (itemsFrom closers .inside rest).map (Text.consFirst c) :=
  rfl

/-- An opener asks for its closer. -/
theorem itemsFrom_opener {opener closer : Char} (hPair : Pair opener closer) :
    itemsFrom closers .outside (opener :: rest) =
      (itemsFrom (closer :: closers) .outside rest).map (Text.consFirst opener) := by
  rw [itemsFrom_outside, (closerOf?_eq_some_iff opener closer).mpr hPair]

/-- The closer that is asked for is taken. -/
theorem itemsFrom_closer {closer : Char} (hCloser : isCloser closer = true) :
    itemsFrom (closer :: closers) .outside (closer :: rest) =
      (itemsFrom closers .outside rest).map (Text.consFirst closer) := by
  simp [itemsFrom_outside, closerOf?_of_isCloser hCloser, hCloser]

/-- A closer that is not the one to come is reported, whatever follows it. -/
theorem itemsFrom_unexpected {closer : Char} (hCloser : isCloser closer = true)
    (hOther : closers.head? ≠ some closer) :
    itemsFrom closers .outside (closer :: rest) = .error (.unexpected closer) := by
  cases closers with
  | nil => simp [itemsFrom_outside, closerOf?_of_isCloser hCloser, hCloser]
  | cons first outer =>
      have hFirst : first ≠ closer := by simpa using hOther
      simp [itemsFrom_outside, closerOf?_of_isCloser hCloser, hCloser, hFirst]

/-- A quotation mark starts a literal. -/
theorem itemsFrom_quote :
    itemsFrom closers .outside ('"' :: rest) =
      (itemsFrom closers .inside rest).map (Text.consFirst '"') :=
  rfl

/-- A comma in no group ends an item. -/
theorem itemsFrom_comma :
    itemsFrom [] .outside (',' :: rest) = (itemsFrom [] .outside rest).map ([] :: ·) :=
  rfl

/-- Any other character belongs to its item, and so does a comma in a group. -/
theorem itemsFrom_plain {c : Char} (hPlain : Plain c) (hComma : c = ',' → closers ≠ []) :
    itemsFrom closers .outside (c :: rest) =
      (itemsFrom closers .outside rest).map (Text.consFirst c) := by
  have hSplit : (c == ',' && closers.isEmpty) = false := by
    by_cases hEq : c = ','
    · simp [hComma hEq]
    · simp [hEq]
  simp [itemsFrom_outside, hPlain.closerOf?, hPlain.isCloser, hPlain.next, hSplit]

end Scanning

def prepend (text : List Char) (pieces : List (List Char)) : List (List Char) :=
  text.foldr Text.consFirst pieces

theorem prepend_cons (text piece : List Char) (pieces : List (List Char)) :
    prepend text (piece :: pieces) = (text ++ piece) :: pieces := by
  induction text with
  | nil => rfl
  | cons c text ih =>
      change Text.consFirst c (prepend text (piece :: pieces)) = _
      rw [ih]
      rfl

/-- A literal is passed over as a whole, up to and with the quote that ends it. -/
theorem itemsFrom_literal (closers rest : List Char) {body : List Char} (hBody : LiteralText body) :
    itemsFrom closers .inside (body ++ '"' :: rest) =
      (itemsFrom closers .outside rest).map (prepend (body ++ ['"'])) := by
  induction hBody with
  | nil => exact itemsFrom_inside closers rest '"'
  | @plain c body hQuote hBackslash _ ih =>
      have hNext : Quotation.inside.next c = .inside := by
        simp [Quotation.next, hQuote, hBackslash]
      rw [List.cons_append, itemsFrom_inside, hNext, ih]
      cases itemsFrom closers .outside rest <;> rfl
  | @escape c body _ ih =>
      have hNext : Quotation.inside.next '\\' = .escaped := rfl
      rw [List.cons_append, List.cons_append, itemsFrom_inside, hNext, itemsFrom_escaped, ih]
      cases itemsFrom closers .outside rest <;> rfl

/-- A well-nested text is passed over as a whole and becomes part of one item.
A comma of its own must stand inside some group for this. -/
theorem itemsFrom_nested {commas : Bool} {text : List Char} (hText : Nested commas text)
    (closers rest : List Char) (hCommas : commas = true → closers ≠ []) :
    itemsFrom closers .outside (text ++ rest) =
      (itemsFrom closers .outside rest).map (prepend text) := by
  induction hText generalizing closers rest with
  | nil =>
      rw [List.nil_append]
      cases itemsFrom closers .outside rest <;> rfl
  | @plain commas c text hPlain hComma _ ih =>
      rw [List.cons_append, itemsFrom_plain closers _ hPlain fun hEq => hCommas (hComma hEq),
        ih closers rest hCommas]
      cases itemsFrom closers .outside rest <;> rfl
  | @literal commas body text hBody _ ih =>
      rw [List.cons_append, List.append_assoc, List.cons_append, itemsFrom_quote,
        itemsFrom_literal closers _ hBody, ih closers rest hCommas]
      cases itemsFrom closers .outside rest with
      | error problem => rfl
      | ok pieces => simp [prepend]
  | @group commas opener closer inner text hPair _ _ ihInner ihText =>
      rw [List.cons_append, List.append_assoc, List.cons_append, itemsFrom_opener closers _ hPair,
        ihInner (closer :: closers) _ (fun _ => List.cons_ne_nil _ _),
        itemsFrom_closer closers _ hPair.isCloser, ihText closers rest hCommas]
      cases itemsFrom closers .outside rest with
      | error problem => rfl
      | ok pieces => simp [prepend]

/-- The rest of a text can be brought to its end. -/
def Completes (closers : List Char) (quotation : Quotation) (text : List Char) : Prop :=
  ∃ pieces, itemsFrom closers quotation text = .ok pieces

theorem completes_of_map {closers text : List Char} {quotation : Quotation}
    {f : List (List Char) → List (List Char)} {pieces : List (List Char)}
    (hMap : (itemsFrom closers quotation text).map f = .ok pieces) :
    Completes closers quotation text := by
  obtain ⟨found, hFound, -⟩ := (Sequence.map_eq_ok_iff _ _ _).mp hMap
  exact ⟨found, hFound⟩

/-- A text that is brought to its end from inside a literal ends the literal.
Behind a backslash one more character comes first, and the induction carries
both places along. -/
theorem Completes.literal (closers text : List Char) :
    (Completes closers .inside text →
      ∃ body rest, text = body ++ '"' :: rest ∧ LiteralText body ∧
        Completes closers .outside rest) ∧
    (Completes closers .escaped text →
      ∃ c body rest, text = c :: (body ++ '"' :: rest) ∧ LiteralText body ∧
        Completes closers .outside rest) := by
  induction text with
  | nil =>
      constructor
      · intro hCompletes
        obtain ⟨pieces, hPieces⟩ := hCompletes
        cases hPieces
      · intro hCompletes
        obtain ⟨pieces, hPieces⟩ := hCompletes
        cases hPieces
  | cons c text ih =>
      constructor
      · intro hCompletes
        obtain ⟨pieces, hPieces⟩ := hCompletes
        rw [itemsFrom_inside] at hPieces
        have hText := completes_of_map hPieces
        by_cases hBackslash : c = '\\'
        · subst hBackslash
          obtain ⟨d, body, rest, rfl, hBody, hRest⟩ := ih.2 hText
          exact ⟨'\\' :: d :: body, rest, rfl, .escape hBody, hRest⟩
        · by_cases hQuote : c = '"'
          · subst hQuote
            exact ⟨[], text, rfl, .nil, hText⟩
          · have hNext : Quotation.inside.next c = .inside := by
              simp [Quotation.next, hQuote, hBackslash]
            rw [hNext] at hText
            obtain ⟨body, rest, rfl, hBody, hRest⟩ := ih.1 hText
            exact ⟨c :: body, rest, rfl, .plain hQuote hBackslash hBody, hRest⟩
      · intro hCompletes
        obtain ⟨pieces, hPieces⟩ := hCompletes
        rw [itemsFrom_escaped] at hPieces
        obtain ⟨body, rest, rfl, hBody, hRest⟩ := ih.1 (completes_of_map hPieces)
        exact ⟨c, body, rest, rfl, hBody, hRest⟩

/-- What a text has to look like under open groups: it closes the innermost one
and goes on, or, where none is open, it is well nested. -/
def Closes : List Char → List Char → Prop
  | [], text => Nested true text
  | closer :: outer, text => ∃ inner rest, text = inner ++ closer :: rest ∧ Nested true inner ∧
      Completes outer .outside rest

/-- What leaves nothing open may stand in front of what closes a group. -/
theorem Closes.append {closers first text : List Char} (hFirst : Nested true first)
    (hText : Closes closers text) : Closes closers (first ++ text) := by
  cases closers with
  | nil => exact hFirst.append hText
  | cons closer outer =>
      obtain ⟨inner, rest, rfl, hInner, hRest⟩ := hText
      exact ⟨first ++ inner, rest, by rw [List.append_assoc], hFirst.append hInner, hRest⟩

/-- A text that can be brought to its end is well nested. The induction is on the
length, since a group is followed by a rest that is not the rest of one step. -/
theorem Completes.closes {closers text : List Char} (hText : Completes closers .outside text) :
    Closes closers text := by
  induction hLength : text.length using Nat.strongRecOn generalizing closers text with
  | _ length ih =>
    cases text with
    | nil =>
        obtain ⟨pieces, hPieces⟩ := hText
        cases closers with
        | nil => exact .nil
        | cons closer outer => cases hPieces
    | cons c text =>
        have hShorter (rest : List Char) (hRest : rest.length ≤ text.length)
            {inner : List Char} (hInner : Completes inner .outside rest) : Closes inner rest :=
          ih rest.length (by rw [← hLength, List.length_cons]; omega) hInner rfl
        obtain ⟨pieces, hPieces⟩ := hText
        rcases char_cases c with ⟨closer, hPair⟩ | hCloser | rfl | hPlain
        · rw [itemsFrom_opener closers text hPair] at hPieces
          obtain ⟨inner, rest, rfl, hInner, hRest⟩ :=
            hShorter text (Nat.le_refl _) (completes_of_map hPieces)
          have hGroup : Nested true (c :: (inner ++ [closer])) := .group hPair hInner .nil
          have hClosed := Closes.append hGroup (hShorter rest (by simp; omega) hRest)
          simpa using hClosed
        · by_cases hFirst : closers.head? = some c
          · obtain ⟨outer, rfl⟩ := List.head?_eq_some_iff.mp hFirst
            rw [itemsFrom_closer outer text hCloser] at hPieces
            exact ⟨[], text, rfl, .nil, completes_of_map hPieces⟩
          · rw [itemsFrom_unexpected closers text hCloser hFirst] at hPieces
            cases hPieces
        · rw [itemsFrom_quote] at hPieces
          obtain ⟨body, rest, rfl, hBody, hRest⟩ :=
            (Completes.literal closers text).1 (completes_of_map hPieces)
          have hLiteral : Nested true ('"' :: (body ++ ['"'])) := .literal hBody .nil
          have hClosed := Closes.append hLiteral (hShorter rest (by simp; omega) hRest)
          simpa using hClosed
        · have hRest : Completes closers .outside text := by
            by_cases hComma : c = ',' ∧ closers = []
            · obtain ⟨rfl, rfl⟩ := hComma
              rw [itemsFrom_comma] at hPieces
              exact completes_of_map hPieces
            · rw [itemsFrom_plain closers text hPlain fun hEq hNil => hComma ⟨hEq, hNil⟩] at hPieces
              exact completes_of_map hPieces
          have hChar : Nested true [c] := .plain hPlain (fun _ => rfl) .nil
          exact Closes.append hChar (hShorter text (Nat.le_refl _) hRest)

def joined (items : List (List Char)) : List Char :=
  [','].intercalate items

theorem joined_singleton (item : List Char) : joined [item] = item :=
  List.intercalate_singleton

theorem joined_cons {items : List (List Char)} (item : List Char) (hItems : items ≠ []) :
    joined (item :: items) = item ++ ',' :: joined items := by
  rw [joined, List.intercalate_cons_of_ne_nil hItems]
  simp [joined]

theorem joined_append_cons (text item : List Char) (items : List (List Char)) :
    joined ((text ++ item) :: items) = text ++ joined (item :: items) := by
  cases items with
  | nil => rw [joined_singleton, joined_singleton]
  | cons next items =>
      rw [joined_cons _ (List.cons_ne_nil _ _), joined_cons _ (List.cons_ne_nil _ _),
        List.append_assoc]

theorem joined_concat {items : List (List Char)} (last : List Char) (hItems : items ≠ []) :
    joined (items ++ [last]) = joined items ++ ',' :: last := by
  induction items with
  | nil => exact (hItems rfl).elim
  | cons item items ih =>
      by_cases hRest : items = []
      · subst hRest
        rw [List.singleton_append, joined_cons _ (List.cons_ne_nil _ _), joined_singleton,
          joined_singleton]
      · rw [List.cons_append, joined_cons _ (by simp), ih hRest, joined_cons _ hRest]
        simp

/-- Every well-nested text is made of texts without commas of their own. -/
theorem Nested.exists_joined {commas : Bool} {text : List Char} (hText : Nested commas text) :
    ∃ item items, (∀ part ∈ item :: items, Nested false part) ∧ text = joined (item :: items) := by
  -- What stands first goes into the first item, unless it is a comma.
  have hFirst (first : List Char) (hFirst : Nested false first) {rest : List Char}
      (hRest : ∃ item items, (∀ part ∈ item :: items, Nested false part) ∧
        rest = joined (item :: items)) :
      ∃ item items, (∀ part ∈ item :: items, Nested false part) ∧
        first ++ rest = joined (item :: items) := by
    obtain ⟨item, items, hParts, rfl⟩ := hRest
    obtain ⟨hItem, hItems⟩ := List.forall_mem_cons.mp hParts
    exact ⟨first ++ item, items, List.forall_mem_cons.mpr ⟨hFirst.append hItem, hItems⟩,
      (joined_append_cons first item items).symm⟩
  induction hText with
  | nil => exact ⟨[], [], by simpa using Nested.nil, rfl⟩
  | @plain commas c rest hPlain hComma _ ih =>
      by_cases hEq : c = ','
      · obtain ⟨item, items, hParts, rfl⟩ := ih
        refine ⟨[], item :: items, List.forall_mem_cons.mpr ⟨.nil, hParts⟩, ?_⟩
        rw [joined_cons _ (List.cons_ne_nil _ _), hEq, List.nil_append]
      · exact hFirst [c] (.plain hPlain (fun h => (hEq h).elim) .nil) ih
  | @literal commas body rest hBody _ ih =>
      have hLiteral : Nested false ('"' :: (body ++ ['"'])) := .literal hBody .nil
      simpa using hFirst _ hLiteral ih
  | @group commas opener closer inner rest hPair hInner _ _ ih =>
      have hGroup : Nested false (opener :: (inner ++ [closer])) := .group hPair hInner .nil
      simpa using hFirst _ hGroup ih

/-- Items that are joined by commas are found again. -/
theorem items_joined (item : List Char) (rest : List (List Char))
    (hItems : ∀ part ∈ item :: rest, Nested false part) :
    items (joined (item :: rest)) = .ok (item :: rest) := by
  induction rest generalizing item with
  | nil =>
      have hItem : Nested false item := hItems item (List.mem_singleton_self item)
      have hScan := itemsFrom_nested hItem [] [] (by simp)
      rw [List.append_nil] at hScan
      have hEnd : itemsFrom [] .outside [] = .ok [[]] := rfl
      rw [joined_singleton, items, hScan, hEnd]
      simp [prepend_cons]
  | cons next rest ih =>
      obtain ⟨hItem, hRest⟩ := List.forall_mem_cons.mp hItems
      have hTail : itemsFrom [] .outside (joined (next :: rest)) = .ok (next :: rest) :=
        ih next hRest
      rw [joined_cons _ (List.cons_ne_nil _ _), items, itemsFrom_nested hItem [] _ (by simp),
        itemsFrom_comma, hTail]
      simp [prepend_cons]

/-- The items of a text are those texts, well nested and without a comma of their
own, that give the text back when they are joined. A text that has no such parts
has no items, and no text has two kinds. -/
theorem items_eq_ok_iff (text : List Char) (list : List (List Char)) :
    items text = .ok list ↔
      list ≠ [] ∧ (∀ item ∈ list, Nested false item) ∧ text = joined list := by
  constructor
  · intro hItems
    have hCompletes : Completes [] .outside text := ⟨list, hItems⟩
    have hNested : Nested true text := hCompletes.closes
    obtain ⟨item, rest, hParts, rfl⟩ := hNested.exists_joined
    rw [items_joined item rest hParts] at hItems
    obtain rfl := Except.ok.inj hItems
    exact ⟨List.cons_ne_nil _ _, hParts, rfl⟩
  · intro hJoined
    obtain ⟨hList, hParts, rfl⟩ := hJoined
    cases list with
    | nil => exact (hList rfl).elim
    | cons item rest => exact items_joined item rest hParts

end ApiSurvey.MarkerList
