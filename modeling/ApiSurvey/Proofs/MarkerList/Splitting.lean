import ApiSurvey.Proofs.MarkerList.Nesting

/-! Splitting a text into items and joining items by commas undo each other. Here the
two conditions on an item are kept apart: it is well nested, and it has no comma
outside groups and literals. -/
namespace ApiSurvey.MarkerList

/-- A comma stands outside all groups and literals: what comes before it is well
nested, so nothing is left open there. -/
def HasOwnComma (text : List Char) : Prop :=
  ∃ before after, text = before ++ ',' :: after ∧ Nested true before

/-- A text without commas of its own is well nested in the wider sense, too. -/
theorem Nested.with_commas {text : List Char} (hText : Nested false text) : Nested true text := by
  generalize hCommas : false = commas at hText
  induction hText with
  | nil => exact .nil
  | plain hPlain _ _ ih => exact .plain hPlain (fun _ => rfl) (ih hCommas)
  | literal hBody _ ih => exact .literal hBody (ih hCommas)
  | group hPair hInner _ _ ih => exact .group hPair hInner (ih hCommas)

/-- The comma behind an item ends it, so what stands on both sides is never one item. -/
theorem not_nested_append_comma {item after : List Char} (hItem : Nested false item) :
    ¬ Nested false (item ++ ',' :: after) := by
  intro hWhole
  have hOne : items (item ++ ',' :: after) = .ok [item ++ ',' :: after] := by
    have hJoined := items_joined (item ++ ',' :: after) [] (by simpa using hWhole)
    rwa [joined_singleton] at hJoined
  rw [items, itemsFrom_nested hItem [] _ (by simp), itemsFrom_comma] at hOne
  obtain ⟨pieces, hPieces, hSame⟩ := (Sequence.map_eq_ok_iff _ _ _).mp hOne
  obtain ⟨behind, hBehind, rfl⟩ := (Sequence.map_eq_ok_iff _ _ _).mp hPieces
  rw [prepend_cons] at hSame
  -- the text behind the comma has items, but there is no second item
  have hSome : behind ≠ [] := ((items_eq_ok_iff after behind).mp hBehind).1
  exact hSome (List.cons.inj hSame).2

/-- The comma that ends the first item has an item in front of it, and this is the
comma that splits the text. -/
theorem HasOwnComma.exists_item {text : List Char} (hComma : HasOwnComma text) :
    ∃ item after, text = item ++ ',' :: after ∧ Nested false item := by
  obtain ⟨before, after, rfl, hBefore⟩ := hComma
  obtain ⟨item, rest, hParts, rfl⟩ := hBefore.exists_joined
  have hItem : Nested false item := hParts item List.mem_cons_self
  cases rest with
  | nil => exact ⟨item, after, by rw [joined_singleton], hItem⟩
  | cons next rest =>
      refine ⟨item, joined (next :: rest) ++ ',' :: after, ?_, hItem⟩
      rw [joined_cons _ (List.cons_ne_nil _ _), List.append_assoc, List.cons_append]

/-- Where nothing is left open, a text is an item exactly if no comma of its own
divides it. -/
theorem nested_false_iff (text : List Char) :
    Nested false text ↔ Nested true text ∧ ¬ HasOwnComma text := by
  constructor
  · intro hText
    refine ⟨hText.with_commas, ?_⟩
    intro hComma
    obtain ⟨item, after, rfl, hItem⟩ := hComma.exists_item
    exact not_nested_append_comma hItem hText
  · rintro ⟨hText, hComma⟩
    obtain ⟨item, rest, hParts, rfl⟩ := hText.exists_joined
    have hItem : Nested false item := hParts item List.mem_cons_self
    cases rest with
    | nil => rwa [joined_singleton]
    | cons next rest =>
        refine (hComma ⟨item, joined (next :: rest), ?_, hItem.with_commas⟩).elim
        exact joined_cons _ (List.cons_ne_nil _ _)

/-- The splitter is the inverse of joining by commas: a text is split into a list
exactly when the list joins to the text and each of its members is well nested and
has no comma of its own. So nothing is lost or moved at a comma, a quote or a
delimiter, and every list of such members is found again. -/
theorem items_eq_ok_iff_joins_back (text : List Char) (list : List (List Char)) :
    items text = .ok list ↔
      list ≠ [] ∧ joined list = text ∧
        ∀ item ∈ list, Nested true item ∧ ¬ HasOwnComma item := by
  rw [items_eq_ok_iff]
  simp only [nested_false_iff]
  constructor
  · rintro ⟨hSome, hParts, rfl⟩
    exact ⟨hSome, rfl, hParts⟩
  · rintro ⟨hSome, rfl, hParts⟩
    exact ⟨hSome, hParts, rfl⟩

end ApiSurvey.MarkerList
