import ApiSurvey.MarkerList.Marker
import ApiSurvey.Proofs.Source.Name

/-! Path texts as a grammar. The reader takes the longest path that a text starts
with; what it takes is a path text, and a path text is taken whole when what
follows it cannot be read on. -/
namespace ApiSurvey.MarkerList

def IdentStart (c : Char) : Prop :=
  ('A' ≤ c ∧ c ≤ 'Z') ∨ ('a' ≤ c ∧ c ≤ 'z') ∨ c = '_'

def IdentRest (c : Char) : Prop :=
  IdentStart c ∨ ('0' ≤ c ∧ c ≤ '9')

instance : DecidablePred IdentRest := fun c =>
  inferInstanceAs (Decidable
    ((('A' ≤ c ∧ c ≤ 'Z') ∨ ('a' ≤ c ∧ c ≤ 'z') ∨ c = '_') ∨ ('0' ≤ c ∧ c ≤ '9')))

/-- Identifiers: a letter or an underscore, then letters, digits and underscores,
with or without the raw mark. -/
inductive Ident : List Char → Prop where
  | plain {c : Char} {tail : List Char} (hStart : IdentStart c) (hTail : ∀ d ∈ tail, IdentRest d) :
      Ident (c :: tail)
  | raw {c : Char} {tail : List Char} (hStart : IdentStart c) (hTail : ∀ d ∈ tail, IdentRest d) :
      Ident ('r' :: '#' :: c :: tail)

/-- Further identifiers, each behind a separator with blanks around it. -/
inductive Further : List (List Char) → List Char → Prop where
  | nil : Further [] []
  | cons {before after ident text : List Char} {idents : List (List Char)}
      (hBefore : Text.Blanks before) (hAfter : Text.Blanks after) (hIdent : Ident ident)
      (hText : Further idents text) :
      Further (ident :: idents) (before ++ ':' :: ':' :: (after ++ (ident ++ text)))

/-- Path texts and the names that they spell. Blanks may follow a separator at
the start, but not precede it. -/
inductive PathText : QualifiedName → List Char → Prop where
  | relative {ident text : List Char} {idents : List (List Char)} (hIdent : Ident ident)
      (hText : Further idents text) :
      PathText ⟨(ident :: idents).map String.ofList, false⟩ (ident ++ text)
  | absolute {blanks ident text : List Char} {idents : List (List Char)}
      (hBlanks : Text.Blanks blanks) (hIdent : Ident ident) (hText : Further idents text) :
      PathText ⟨(ident :: idents).map String.ofList, true⟩
        (':' :: ':' :: (blanks ++ (ident ++ text)))

theorem isAlpha_iff (c : Char) :
    c.isAlpha = true ↔ ('A' ≤ c ∧ c ≤ 'Z') ∨ ('a' ≤ c ∧ c ≤ 'z') := by
  have hAlpha : c.isAlpha = (decide ('A' ≤ c ∧ c ≤ 'Z') ||
      decide ('a' ≤ c) && decide (c ≤ 'z')) := rfl
  simp [hAlpha]

theorem isAlphanum_iff (c : Char) :
    c.isAlphanum = true ↔ c.isAlpha = true ∨ ('0' ≤ c ∧ c ≤ '9') := by
  have hAlphanum : c.isAlphanum = (c.isAlpha || decide ('0' ≤ c) && decide (c ≤ '9')) := rfl
  simp [hAlphanum]

theorem startsIdentifier_iff (c : Char) : startsIdentifier c = true ↔ IdentStart c := by
  simp [startsIdentifier, IdentStart, isAlpha_iff, or_assoc]

theorem continuesIdentifier_iff (c : Char) : continuesIdentifier c = true ↔ IdentRest c := by
  simp only [continuesIdentifier, IdentRest, IdentStart, isAlphanum_iff, isAlpha_iff,
    Bool.or_eq_true, beq_iff_eq]
  tauto

theorem IdentRest.not_blank {c : Char} (hRest : IdentRest c) : Text.isBlank c = false := by
  have hCode : (65 ≤ c.toNat ∧ c.toNat ≤ 90) ∨ (97 ≤ c.toNat ∧ c.toNat ≤ 122) ∨ c.toNat = 95 ∨
      (48 ≤ c.toNat ∧ c.toNat ≤ 57) := by
    rcases hRest with (hUpper | hLower | rfl) | hDigit
    · exact .inl hUpper
    · exact .inr (.inl hLower)
    · exact .inr (.inr (.inl rfl))
    · exact .inr (.inr (.inr hDigit))
  simp only [Text.isBlank, Bool.or_eq_false_iff, Bool.and_eq_false_iff, decide_eq_false_iff_not,
    beq_eq_false_iff_ne]
  omega

/-- Every character of an identifier, the raw mark apart. -/
theorem Ident.mem {ident : List Char} (hIdent : Ident ident) {c : Char} (hMem : c ∈ ident) :
    IdentRest c ∨ c = '#' := by
  cases hIdent with
  | plain hStart hTail =>
      rcases List.mem_cons.mp hMem with rfl | hMem
      · exact .inl (.inl hStart)
      · exact .inl (hTail c hMem)
  | raw hStart hTail =>
      simp only [List.mem_cons] at hMem
      rcases hMem with rfl | rfl | rfl | hMem
      · exact .inl (by decide)
      · exact .inr rfl
      · exact .inl (.inl hStart)
      · exact .inl (hTail c hMem)

/-- Whether a text that follows an identifier leaves it as it is. -/
def EndsIdent (rest : List Char) : Prop :=
  ∀ c ∈ rest.head?, ¬ IdentRest c ∧ c ≠ '#'

/-- An identifier is read up to where it ends, and no further. -/
theorem takeWhile_identRest {tail rest : List Char} (hTail : ∀ c ∈ tail, IdentRest c)
    (hRest : EndsIdent rest) :
    (tail ++ rest).takeWhile continuesIdentifier = tail ∧
      (tail ++ rest).dropWhile continuesIdentifier = rest := by
  have hAll : ∀ c ∈ tail, continuesIdentifier c = true := fun c hMem =>
    (continuesIdentifier_iff c).mpr (hTail c hMem)
  rw [List.takeWhile_append_of_pos hAll, List.dropWhile_append_of_pos hAll]
  cases rest with
  | nil => simp
  | cons c rest =>
      have hStop : ¬ continuesIdentifier c = true := fun hContinues =>
        (hRest c rfl).1 ((continuesIdentifier_iff c).mp hContinues)
      rw [List.takeWhile_cons_of_neg hStop, List.dropWhile_cons_of_neg hStop, List.append_nil]
      exact ⟨rfl, rfl⟩

theorem plainIdentifier?_append {c : Char} {tail rest : List Char} (hStart : IdentStart c)
    (hTail : ∀ d ∈ tail, IdentRest d) (hRest : EndsIdent rest) :
    plainIdentifier? (c :: (tail ++ rest)) = some (c :: tail, rest) := by
  obtain ⟨hTake, hDrop⟩ := takeWhile_identRest hTail hRest
  rw [plainIdentifier?, if_pos ((startsIdentifier_iff c).mpr hStart), hTake, hDrop]

/-- An identifier is read whole, be it raw or plain, where another character ends it.
-/
theorem identifier?_append {ident rest : List Char} (hIdent : Ident ident)
    (hRest : EndsIdent rest) : identifier? (ident ++ rest) = some (ident, rest) := by
  cases hIdent with
  | @plain c tail hStart hTail =>
      have hPlain := plainIdentifier?_append hStart hTail hRest
      rw [List.cons_append]
      unfold identifier?
      split
      · -- The raw mark would have to start in the identifier or right behind it.
        next after hEq =>
        exfalso
        obtain ⟨-, hAfter⟩ := List.cons.inj hEq
        cases tail with
        | nil =>
            rw [List.nil_append] at hAfter
            exact (hRest '#' (by simp [hAfter])).2 rfl
        | cons d tail =>
            obtain ⟨rfl, -⟩ := List.cons.inj hAfter
            exact absurd (hTail '#' (List.mem_cons_self ..)) (by decide)
      · exact hPlain
  | @raw c tail hStart hTail =>
      have hPlain := plainIdentifier?_append hStart hTail hRest
      simp [identifier?, hPlain]

/-- What is read as a plain identifier is one, and nothing of the text is lost. -/
theorem plainIdentifier?_sound {text ident rest : List Char}
    (hRead : plainIdentifier? text = some (ident, rest)) :
    (∃ c tail, IdentStart c ∧ (∀ d ∈ tail, IdentRest d) ∧ ident = c :: tail) ∧
      text = ident ++ rest := by
  cases text with
  | nil => simp [plainIdentifier?] at hRead
  | cons c text =>
      rw [plainIdentifier?] at hRead
      split_ifs at hRead with hStart
      obtain ⟨rfl, rfl⟩ := Prod.mk.inj (Option.some.inj hRead)
      refine ⟨⟨c, _, (startsIdentifier_iff c).mp hStart, fun d hMem => ?_, rfl⟩, ?_⟩
      · exact (continuesIdentifier_iff d).mp (List.mem_takeWhile_imp hMem)
      · rw [List.cons_append, List.takeWhile_append_dropWhile]

/-- What is read as an identifier is one, and nothing of the text is lost. -/
theorem identifier?_sound {text ident rest : List Char}
    (hRead : identifier? text = some (ident, rest)) : Ident ident ∧ text = ident ++ rest := by
  have hPlain {text : List Char} (hRead : plainIdentifier? text = some (ident, rest)) :
      Ident ident ∧ text = ident ++ rest := by
    obtain ⟨⟨c, tail, hStart, hTail, rfl⟩, hText⟩ := plainIdentifier?_sound hRead
    exact ⟨.plain hStart hTail, hText⟩
  unfold identifier? at hRead
  split at hRead
  · next after =>
    split at hRead
    · next inner rest' hInner =>
      obtain ⟨rfl, rfl⟩ := Prod.mk.inj (Option.some.inj hRead)
      obtain ⟨⟨c, tail, hStart, hTail, rfl⟩, rfl⟩ := plainIdentifier?_sound hInner
      exact ⟨.raw hStart hTail, rfl⟩
    · exact hPlain hRead
  · exact hPlain hRead

theorem Ident.exists_cons {ident : List Char} (hIdent : Ident ident) :
    ∃ c tail, ident = c :: tail ∧ IdentRest c := by
  cases hIdent with
  | @plain c tail hStart _ => exact ⟨c, tail, rfl, .inl hStart⟩
  | @raw c tail _ _ => exact ⟨'r', '#' :: c :: tail, rfl, by decide⟩

theorem Ident.dropWhile_blank {ident : List Char} (hIdent : Ident ident) (rest : List Char) :
    (ident ++ rest).dropWhile Text.isBlank = ident ++ rest := by
  obtain ⟨c, tail, rfl, hRest⟩ := hIdent.exists_cons
  exact List.dropWhile_cons_of_neg (by simp [hRest.not_blank])

/-- A separator between two identifiers is passed over with the blanks around it. -/
theorem afterSpacedSeparator?_append {before after ident : List Char}
    (hBefore : Text.Blanks before) (hAfter : Text.Blanks after) (hIdent : Ident ident)
    (rest : List Char) :
    afterSpacedSeparator? (before ++ ':' :: ':' :: (after ++ (ident ++ rest))) =
      some (ident ++ rest) := by
  rw [afterSpacedSeparator?, List.dropWhile_append_of_pos hBefore,
    List.dropWhile_cons_of_neg (by decide)]
  simp only [QualifiedName.afterSeparator?, Option.map_some]
  rw [List.dropWhile_append_of_pos hAfter, hIdent.dropWhile_blank]

/-- What is passed over is a separator with blanks around it. -/
theorem afterSpacedSeparator?_sound {text rest : List Char}
    (hRead : afterSpacedSeparator? text = some rest) :
    ∃ before after, Text.Blanks before ∧ Text.Blanks after ∧
      text = before ++ ':' :: ':' :: (after ++ rest) := by
  obtain ⟨behind, hBehind, rfl⟩ := Option.map_eq_some_iff.mp hRead
  have hSeparator : text.dropWhile Text.isBlank = ':' :: ':' :: behind := by
    unfold QualifiedName.afterSeparator? at hBehind
    split at hBehind
    · next hText => rw [hText, Option.some.inj hBehind]
    · cases hBehind
  refine ⟨text.takeWhile Text.isBlank, behind.takeWhile Text.isBlank, Text.blanks_takeWhile text,
    Text.blanks_takeWhile behind, ?_⟩
  rw [List.takeWhile_append_dropWhile, ← hSeparator, List.takeWhile_append_dropWhile]

/-- Whether a text that follows a path leaves it as it is. -/
def EndsPath (rest : List Char) : Prop :=
  EndsIdent rest ∧ (rest.dropWhile Text.isBlank).head? ≠ some ':'

/-- Where a path ends, no separator follows. -/
theorem EndsPath.afterSpacedSeparator? {rest : List Char} (hRest : EndsPath rest) :
    afterSpacedSeparator? rest = none := by
  cases hRead : MarkerList.afterSpacedSeparator? rest with
  | none => rfl
  | some behind =>
      obtain ⟨before, after, hBefore, -, rfl⟩ := afterSpacedSeparator?_sound hRead
      refine absurd ?_ hRest.2
      rw [List.dropWhile_append_of_pos hBefore, List.dropWhile_cons_of_neg (by decide)]
      rfl

theorem endsIdent_of_blank {c : Char} (hBlank : Text.isBlank c = true) (rest : List Char) :
    EndsIdent (c :: rest) := by
  intro d hMem
  obtain rfl : c = d := by simpa using hMem
  refine ⟨fun hRest => ?_, ?_⟩
  · rw [hRest.not_blank] at hBlank
    cases hBlank
  · rintro rfl
    exact absurd hBlank (by decide)

/-- An identifier ends where the next separator stands, or the path ends. -/
theorem Further.endsIdent {idents : List (List Char)} {text rest : List Char}
    (hText : Further idents text) (hRest : EndsIdent rest) : EndsIdent (text ++ rest) := by
  cases hText with
  | nil => exact hRest
  | @cons before after ident text idents hBefore _ _ _ =>
      cases before with
      | nil =>
          intro c hMem
          obtain rfl : ':' = c := by simpa using hMem
          decide
      | cons c before => exact endsIdent_of_blank (hBefore c (List.mem_cons_self ..)) _

/-- Every identifier takes at least one character, so there are rounds enough for
all. -/
theorem Further.length_le {idents : List (List Char)} {text : List Char}
    (hText : Further idents text) : idents.length ≤ text.length := by
  induction hText with
  | nil => simp
  | cons _ _ _ _ ih =>
      simp only [List.length_cons, List.length_append]
      omega

/-- All further identifiers are read when there are rounds enough for them. -/
theorem moreIdentifiers_append {idents : List (List Char)} {text rest : List Char}
    (hText : Further idents text) (hRest : EndsPath rest) {rounds : Nat}
    (hRounds : idents.length ≤ rounds) :
    moreIdentifiers rounds (text ++ rest) = (idents, rest) := by
  induction hText generalizing rounds with
  | nil =>
      cases rounds with
      | zero => rfl
      | succ rounds => simp [moreIdentifiers, hRest.afterSpacedSeparator?]
  | @cons before after ident text idents hBefore hAfter hIdent hText ih =>
      cases rounds with
      | zero => simp at hRounds
      | succ rounds =>
          have hSeparator := afterSpacedSeparator?_append hBefore hAfter hIdent (text ++ rest)
          have hRead := identifier?_append hIdent (hText.endsIdent hRest.1)
          have hMore := ih (Nat.le_of_succ_le_succ hRounds)
          simp only [List.append_assoc, List.cons_append]
          simp [moreIdentifiers, hSeparator, hRead, hMore]

/-- By induction on the rounds: the identifiers that are read stand in the text one
after the other. -/
theorem moreIdentifiers_sound {rounds : Nat} {text rest : List Char} {idents : List (List Char)}
    (hRead : moreIdentifiers rounds text = (idents, rest)) :
    ∃ read, text = read ++ rest ∧ Further idents read := by
  induction rounds generalizing text idents with
  | zero =>
      obtain ⟨rfl, rfl⟩ := Prod.mk.inj hRead
      exact ⟨[], rfl, .nil⟩
  | succ rounds ih =>
      rw [moreIdentifiers] at hRead
      split at hRead
      · obtain ⟨rfl, rfl⟩ := Prod.mk.inj hRead
        exact ⟨[], rfl, .nil⟩
      · next ident tail hFound =>
        obtain ⟨more, end_, hMore⟩ : ∃ more end_, moreIdentifiers rounds tail = (more, end_) :=
          ⟨_, _, rfl⟩
        rw [hMore] at hRead
        obtain ⟨rfl, rfl⟩ := Prod.mk.inj hRead
        obtain ⟨behind, hBehind, hIdentRead⟩ := Option.bind_eq_some_iff.mp hFound
        obtain ⟨before, after, hBefore, hAfter, rfl⟩ := afterSpacedSeparator?_sound hBehind
        obtain ⟨hIdent, rfl⟩ := identifier?_sound hIdentRead
        obtain ⟨read, rfl, hFurther⟩ := ih hMore
        exact ⟨_, by simp, .cons hBefore hAfter hIdent hFurther⟩

/-- The path at the start of a text, once it is known where it starts. -/
def pathFrom? (isGlobal : Bool) (start : List Char) : Option (QualifiedName × List Char) :=
  (identifier? start).map fun (ident, rest) =>
    let (idents, rest) := moreIdentifiers rest.length rest
    (⟨(ident :: idents).map String.ofList, isGlobal⟩, rest)

theorem path?_eq_pathFrom? (text : List Char) :
    path? text = match QualifiedName.afterSeparator? text with
      | some rest => pathFrom? true (rest.dropWhile Text.isBlank)
      | none => pathFrom? false text := by
  unfold path? pathFrom?
  cases QualifiedName.afterSeparator? text <;> rfl

/-- A path is read whole from its first identifier on. -/
theorem pathFrom?_append {isGlobal : Bool} {ident text rest : List Char}
    {idents : List (List Char)} (hIdent : Ident ident) (hText : Further idents text)
    (hRest : EndsPath rest) :
    pathFrom? isGlobal (ident ++ (text ++ rest)) =
      some (⟨(ident :: idents).map String.ofList, isGlobal⟩, rest) := by
  have hRounds : idents.length ≤ (text ++ rest).length := by
    have hLength := hText.length_le
    rw [List.length_append]
    omega
  rw [pathFrom?, identifier?_append hIdent (hText.endsIdent hRest.1), Option.map_some]
  simp only [moreIdentifiers_append hText hRest hRounds]

/-- What is read as a path is an identifier and further ones, and nothing of the text
is lost. -/
theorem pathFrom?_sound {isGlobal : Bool} {start rest : List Char} {path : QualifiedName}
    (hRead : pathFrom? isGlobal start = some (path, rest)) :
    ∃ ident idents text, start = ident ++ (text ++ rest) ∧ Ident ident ∧ Further idents text ∧
      path = ⟨(ident :: idents).map String.ofList, isGlobal⟩ := by
  obtain ⟨⟨ident, tail⟩, hIdentRead, hPath⟩ := Option.map_eq_some_iff.mp hRead
  obtain ⟨idents, end_, hMore⟩ :
      ∃ idents end_, moreIdentifiers tail.length tail = (idents, end_) := ⟨_, _, rfl⟩
  simp only [hMore, Prod.mk.injEq] at hPath
  obtain ⟨rfl, rfl⟩ := hPath
  obtain ⟨hIdent, rfl⟩ := identifier?_sound hIdentRead
  obtain ⟨read, rfl, hFurther⟩ := moreIdentifiers_sound hMore
  exact ⟨ident, idents, read, rfl, hIdent, hFurther, rfl⟩

theorem Ident.afterSeparator?_append {ident : List Char} (hIdent : Ident ident)
    (rest : List Char) : QualifiedName.afterSeparator? (ident ++ rest) = none := by
  obtain ⟨c, tail, rfl, hFirst⟩ := hIdent.exists_cons
  unfold QualifiedName.afterSeparator?
  split
  · next hEq =>
    obtain ⟨rfl, -⟩ := List.cons.inj hEq
    exact absurd hFirst (by decide)
  · rfl

/-- A path is read whole, and only what follows it is left. -/
theorem path?_append {path : QualifiedName} {text rest : List Char} (hText : PathText path text)
    (hRest : EndsPath rest) : path? (text ++ rest) = some (path, rest) := by
  rw [path?_eq_pathFrom?]
  cases hText with
  | @relative ident text idents hIdent hText =>
      rw [List.append_assoc, hIdent.afterSeparator?_append]
      exact pathFrom?_append hIdent hText hRest
  | @absolute blanks ident text idents hBlanks hIdent hText =>
      simp only [List.cons_append, List.append_assoc, QualifiedName.afterSeparator?]
      rw [List.dropWhile_append_of_pos hBlanks, hIdent.dropWhile_blank]
      exact pathFrom?_append hIdent hText hRest

/-- What is read as a path is a path text. -/
theorem path?_sound {path : QualifiedName} {text rest : List Char}
    (hRead : path? text = some (path, rest)) :
    ∃ read, text = read ++ rest ∧ PathText path read := by
  rw [path?_eq_pathFrom?] at hRead
  unfold QualifiedName.afterSeparator? at hRead
  split at hRead
  · next behind hBehind =>
    split at hBehind
    · next rest' =>
      obtain rfl := Option.some.inj hBehind
      obtain ⟨ident, idents, read, hStart, hIdent, hFurther, rfl⟩ := pathFrom?_sound hRead
      refine ⟨_, ?_, .absolute (Text.blanks_takeWhile rest') hIdent hFurther⟩
      simp only [List.cons_append, List.append_assoc, ← hStart, List.takeWhile_append_dropWhile]
    · cases hBehind
  · obtain ⟨ident, idents, read, rfl, hIdent, hFurther, rfl⟩ := pathFrom?_sound hRead
    exact ⟨ident ++ read, by rw [List.append_assoc], .relative hIdent hFurther⟩

theorem Ident.not_blank {ident : List Char} (hIdent : Ident ident) {c : Char} (hMem : c ∈ ident) :
    Text.isBlank c = false := by
  rcases hIdent.mem hMem with hRest | rfl
  · exact hRest.not_blank
  · rfl

/-- Identifiers end in a character that is no blank, and so do paths. -/
theorem Further.exists_concat {idents : List (List Char)} {ident text : List Char}
    (hIdent : Ident ident) (hText : Further idents text) :
    ∃ init last, ident ++ text = init ++ [last] ∧ Text.isBlank last = false := by
  induction hText generalizing ident with
  | nil =>
      obtain ⟨c, tail, hCons, -⟩ := hIdent.exists_cons
      have hSome : ident ≠ [] := by
        rw [hCons]
        exact List.cons_ne_nil c tail
      refine ⟨ident.dropLast, ident.getLast hSome, ?_, hIdent.not_blank (List.getLast_mem hSome)⟩
      rw [List.append_nil, List.dropLast_append_getLast]
  | @cons before after next text idents _ _ hNext _ ih =>
      obtain ⟨init, last, hEnd, hLast⟩ := ih hNext
      refine ⟨ident ++ (before ++ ':' :: ':' :: (after ++ init)), last, ?_, hLast⟩
      rw [hEnd]
      simp only [List.append_assoc, List.cons_append]

/-- No blank ends a path. -/
theorem PathText.exists_concat {name : QualifiedName} {path : List Char}
    (hPath : PathText name path) :
    ∃ init last, path = init ++ [last] ∧ Text.isBlank last = false := by
  cases hPath with
  | relative hIdent hText => exact hText.exists_concat hIdent
  | @absolute blanks ident text idents _ hIdent hText =>
      obtain ⟨init, last, hEnd, hLast⟩ := hText.exists_concat hIdent
      refine ⟨':' :: ':' :: (blanks ++ init), last, ?_, hLast⟩
      rw [hEnd]
      simp only [List.append_assoc, List.cons_append]

/-- No blank starts a path. -/
theorem PathText.dropWhile_blank {name : QualifiedName} {path : List Char}
    (hPath : PathText name path) (rest : List Char) :
    (path ++ rest).dropWhile Text.isBlank = path ++ rest := by
  cases hPath with
  | relative hIdent _ =>
      rw [List.append_assoc]
      exact hIdent.dropWhile_blank _
  | absolute _ _ _ => exact List.dropWhile_cons_of_neg (by decide)

/-- Trimming leaves a path alone and goes on behind it. -/
theorem PathText.trim_append {name : QualifiedName} {path : List Char} (hPath : PathText name path)
    (rest : List Char) : Text.trim (path ++ rest) = path ++ Text.trimEnd rest := by
  obtain ⟨init, last, hEnd, hLast⟩ := hPath.exists_concat
  rw [Text.trim, hPath.dropWhile_blank, hEnd]
  exact Text.trimEnd_concat_append init hLast rest

/-- Identifiers of markers are segments of names. -/
theorem Ident.isSegment {ident : List Char} (hIdent : Ident ident) :
    QualifiedName.IsSegment ident where
  nonempty := by
    obtain ⟨c, tail, rfl, -⟩ := hIdent.exists_cons
    exact List.cons_ne_nil c tail
  trimmed := by
    rw [Text.trim_eq_self_iff]
    exact ⟨fun c hMem => hIdent.not_blank (List.mem_of_mem_head? hMem),
      fun c hMem => hIdent.not_blank (List.mem_of_mem_getLast? hMem)⟩
  clean := by
    intro c hMem
    constructor
    · rintro rfl
      exact absurd (hIdent.mem hMem) (by decide)
    · rw [← Bool.not_eq_true]
      intro hOpens
      simp only [QualifiedName.opensArguments, Bool.or_eq_true, beq_iff_eq] at hOpens
      rcases hOpens with (rfl | rfl) | rfl <;> exact absurd (hIdent.mem hMem) (by decide)

/-- Whether a character stays when the blanks of a text are left out. -/
def isKept (c : Char) : Bool :=
  !Text.isBlank c

theorem filter_blanks {text : List Char} (hText : Text.Blanks text) : text.filter isKept = [] := by
  rw [List.filter_eq_nil_iff]
  intro c hMem
  simp [isKept, hText c hMem]

theorem Ident.filter_isKept {ident : List Char} (hIdent : Ident ident) :
    ident.filter isKept = ident := by
  rw [List.filter_eq_self]
  intro c hMem
  simp [isKept, hIdent.not_blank hMem]

/-- Without its blanks, a path is its identifiers between separators. -/
theorem Further.filter_isKept {idents : List (List Char)} {ident text : List Char}
    (hIdent : Ident ident) (hText : Further idents text) :
    (ident ++ text).filter isKept = [':', ':'].intercalate (ident :: idents) := by
  induction hText generalizing ident with
  | nil => rw [List.append_nil, hIdent.filter_isKept, List.intercalate_singleton]
  | cons hBefore hAfter hNext _ ih =>
      have hColon : isKept ':' = true := rfl
      rw [List.intercalate_cons_of_ne_nil (List.cons_ne_nil _ _), ← ih hNext, List.filter_append,
        List.filter_append, hIdent.filter_isKept, filter_blanks hBefore,
        List.filter_cons_of_pos hColon, List.filter_cons_of_pos hColon, List.filter_append,
        filter_blanks hAfter]
      simp

theorem Further.isSegment {idents : List (List Char)} {text : List Char}
    (hText : Further idents text) : ∀ ident ∈ idents, QualifiedName.IsSegment ident := by
  induction hText with
  | nil => simp
  | cons _ _ hIdent _ ih => exact List.forall_mem_cons.mpr ⟨hIdent.isSegment, ih⟩

/-- With its blanks left out, a path is read as a name with the same segments. -/
theorem PathText.ofChars_filter {name : QualifiedName} {path : List Char}
    (hPath : PathText name path) : QualifiedName.ofChars (path.filter isKept) = name := by
  cases hPath with
  | @relative ident text idents hIdent hText =>
      have hSegments := List.forall_mem_cons.mpr ⟨hIdent.isSegment, hText.isSegment⟩
      rw [hText.filter_isKept hIdent]
      exact QualifiedName.ofChars_spelled false hSegments
  | @absolute blanks ident text idents hBlanks hIdent hText =>
      have hSegments := List.forall_mem_cons.mpr ⟨hIdent.isSegment, hText.isSegment⟩
      have hColon : isKept ':' = true := rfl
      rw [List.filter_cons_of_pos hColon, List.filter_cons_of_pos hColon, List.filter_append,
        filter_blanks hBlanks, List.nil_append, hText.filter_isKept hIdent]
      exact QualifiedName.ofChars_spelled true hSegments

end ApiSurvey.MarkerList
