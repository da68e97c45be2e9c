import Mathlib.Data.List.Forall2

/-! Sequences of steps that can fail. A sequence succeeds only when all its
steps do, and otherwise it fails as the first failing step does; the steps
behind that one are never looked at. -/
namespace ApiSurvey.Sequence

universe u
variable {ε α β : Type u}

@[simp] theorem pure_eq_ok (result : α) : (pure result : Except ε α) = .ok result := rfl

@[simp] theorem throw_eq_error (failure : ε) : (throw failure : Except ε α) = .error failure := rfl

@[simp] theorem bind_eq_bind (first : Except ε α) (next : α → Except ε β) :
    first >>= next = first.bind next := rfl

@[simp] theorem functor_map_eq_map (f : α → β) (first : Except ε α) : f <$> first = first.map f :=
  rfl

@[simp] theorem ok_bind (result : α) (next : α → Except ε β) :
    (Except.ok result).bind next = next result := rfl

@[simp] theorem error_bind (failure : ε) (next : α → Except ε β) :
    (Except.error failure).bind next = .error failure := rfl

@[simp] theorem map_ok (f : α → β) (result : α) :
    (Except.ok result : Except ε α).map f = .ok (f result) := rfl

@[simp] theorem map_error (f : α → β) (failure : ε) :
    (Except.error failure : Except ε α).map f = .error failure := rfl

@[simp] theorem mapError_ok {δ : Type u} (f : ε → δ) (result : α) :
    (Except.ok result).mapError f = .ok result := rfl

@[simp] theorem mapError_error {δ : Type u} (f : ε → δ) (failure : ε) :
    (Except.error failure : Except ε α).mapError f = .error (f failure) := rfl

theorem mapError_eq_ok_iff {δ : Type u} (f : ε → δ) (first : Except ε α) (result : α) :
    first.mapError f = .ok result ↔ first = .ok result := by
  cases first <;> simp

theorem mapError_eq_error_iff {δ : Type u} (f : ε → δ) (first : Except ε α) (failure : δ) :
    first.mapError f = .error failure ↔ ∃ found, first = .error found ∧ f found = failure := by
  cases first <;> simp

theorem map_eq_ok_iff (f : α → β) (first : Except ε α) (result : β) :
    first.map f = .ok result ↔ ∃ value, first = .ok value ∧ f value = result := by
  cases first <;> simp

theorem exists_map_eq_ok_iff (f : α → β) (first : Except ε α) :
    (∃ result, first.map f = .ok result) ↔ ∃ value, first = .ok value := by
  cases first <;> simp

theorem map_eq_error_iff (f : α → β) (first : Except ε α) (failure : ε) :
    first.map f = .error failure ↔ first = .error failure := by
  cases first <;> simp

/-- A step that is seen to go well has a result. -/
theorem exists_eq_ok_of_isOk {first : Except ε α} (hOk : first.isOk = true) :
    ∃ result, first = .ok result := by
  cases first with
  | ok result => exact ⟨result, rfl⟩
  | error failure => cases hOk

/-- And one that is seen to fail has a failure. -/
theorem exists_eq_error_of_isOk {first : Except ε α} (hFails : first.isOk = false) :
    ∃ failure, first = .error failure := by
  cases first with
  | ok result => cases hFails
  | error failure => exact ⟨failure, rfl⟩

/-- The first step that fails, and the failure. Everything before it succeeds,
and nothing is said about what follows it. -/
def FailsFirst (f : α → Except ε β) (steps : List α) (failure : ε) : Prop :=
  ∃ before step after, steps = before ++ step :: after ∧
    (∀ earlier ∈ before, ∃ result, f earlier = .ok result) ∧ f step = .error failure

/-- If the first step fails, its failure is the first one. -/
theorem failsFirst_cons_of_error (f : α → Except ε β) {step : α} {steps : List α}
    {failure other : ε} (hStep : f step = .error failure) :
    FailsFirst f (step :: steps) other ↔ other = failure := by
  constructor
  · intro hFails
    obtain ⟨before, found, after, hSplit, hBefore, hFound⟩ := hFails
    cases before with
    | nil =>
        obtain ⟨rfl, rfl⟩ := List.cons.inj hSplit
        exact Except.error.inj (hFound.symm.trans hStep)
    | cons first before =>
        obtain ⟨rfl, rfl⟩ := List.cons.inj hSplit
        obtain ⟨result, hResult⟩ := hBefore step (List.mem_cons_self ..)
        rw [hStep] at hResult
        cases hResult
  · rintro rfl
    exact ⟨[], step, steps, rfl, by simp, hStep⟩

/-- If the first step goes well, the first failure is among the others. -/
theorem failsFirst_cons_of_ok (f : α → Except ε β) {step : α} {steps : List α}
    {result : β} {failure : ε} (hStep : f step = .ok result) :
    FailsFirst f (step :: steps) failure ↔ FailsFirst f steps failure := by
  constructor
  · intro hFails
    obtain ⟨before, found, after, hSplit, hBefore, hFound⟩ := hFails
    cases before with
    | nil =>
        obtain ⟨rfl, rfl⟩ := List.cons.inj hSplit
        rw [hStep] at hFound
        cases hFound
    | cons first before =>
        obtain ⟨rfl, rfl⟩ := List.cons.inj hSplit
        exact ⟨before, found, after, rfl,
          fun earlier hEarlier => hBefore earlier (List.mem_cons_of_mem _ hEarlier), hFound⟩
  · intro hFails
    obtain ⟨before, found, after, rfl, hBefore, hFound⟩ := hFails
    refine ⟨step :: before, found, after, rfl, ?_, hFound⟩
    intro earlier hEarlier
    rcases List.mem_cons.mp hEarlier with rfl | hEarlier
    · exact ⟨result, hStep⟩
    · exact hBefore earlier hEarlier

theorem not_failsFirst_nil (f : α → Except ε β) (failure : ε) : ¬ FailsFirst f [] failure := by
  intro hFails
  obtain ⟨before, step, after, hSplit, -⟩ := hFails
  simp at hSplit

/-- Only the first failure ends a sequence of steps. -/
theorem mapM_eq_error_iff (f : α → Except ε β) (steps : List α) (failure : ε) :
    steps.mapM f = .error failure ↔ FailsFirst f steps failure := by
  induction steps with
  | nil => simp [not_failsFirst_nil]
  | cons step steps ih =>
      cases hStep : f step with
      | error other =>
          rw [failsFirst_cons_of_error f hStep]
          simp [hStep, eq_comm]
      | ok result =>
          rw [failsFirst_cons_of_ok f hStep, ← ih]
          cases hRest : steps.mapM f <;> simp [hStep, hRest]

/-- Steps that are left out neither fail nor stand in front of a failure. -/
theorem failsFirst_filter_iff (f : α → Except ε β) (kept : α → Bool) (steps : List α)
    (failure : ε) :
    FailsFirst f (steps.filter kept) failure ↔
      ∃ before step after, steps = before ++ step :: after ∧
        (∀ earlier ∈ before, kept earlier = true → ∃ result, f earlier = .ok result) ∧
        kept step = true ∧ f step = .error failure := by
  constructor
  · intro hFails
    obtain ⟨before, step, after, hSplit, hBefore, hStep⟩ := hFails
    obtain ⟨start, rest, rfl, rfl, hRest⟩ := List.filter_eq_append_iff.mp hSplit
    obtain ⟨dropped, behind, rfl, hDropped, hKept, -⟩ := List.filter_eq_cons_iff.mp hRest
    refine ⟨start ++ dropped, step, behind, by simp, ?_, hKept, hStep⟩
    intro earlier hEarlier hEarlierKept
    rcases List.mem_append.mp hEarlier with hStart | hOther
    · exact hBefore earlier (List.mem_filter.mpr ⟨hStart, hEarlierKept⟩)
    · exact absurd hEarlierKept (hDropped earlier hOther)
  · rintro ⟨before, step, after, rfl, hBefore, hKept, hStep⟩
    refine ⟨before.filter kept, step, after.filter kept, ?_, ?_, hStep⟩
    · rw [List.filter_append, List.filter_cons_of_pos hKept]
    · intro earlier hEarlier
      obtain ⟨hMem, hEarlierKept⟩ := List.mem_filter.mp hEarlier
      exact hBefore earlier hMem hEarlierKept

/-- A sequence that succeeds has one result for every step, in order. -/
theorem mapM_eq_ok_iff (f : α → Except ε β) (steps : List α) (results : List β) :
    steps.mapM f = .ok results ↔
      List.Forall₂ (fun step result => f step = .ok result) steps results := by
  induction steps generalizing results with
  | nil => simp [eq_comm]
  | cons step steps ih =>
      rw [List.forall₂_cons_left_iff]
      cases hStep : f step with
      | error other => simp [hStep]
      | ok result =>
          simp only [List.mapM_cons, hStep, Except.ok.injEq, ← ih]
          cases hRest : steps.mapM f <;> simp [eq_comm]

/-- Every result of a sequence comes from one of its steps. -/
theorem exists_step_of_mem {related : α → β → Prop} {steps : List α} {results : List β}
    (hRelated : List.Forall₂ related steps results) {result : β} (hMem : result ∈ results) :
    ∃ step ∈ steps, related step result := by
  induction hRelated with
  | nil => simp at hMem
  | cons hFirst _ ih =>
      rcases List.mem_cons.mp hMem with rfl | hMem
      · exact ⟨_, List.mem_cons_self, hFirst⟩
      · obtain ⟨step, hStep, hResult⟩ := ih hMem
        exact ⟨step, List.mem_cons_of_mem _ hStep, hResult⟩

/-- Results for all steps can be put in a row. -/
theorem exists_forall₂_of_forall_mem {related : α → β → Prop} {steps : List α}
    (hSteps : ∀ step ∈ steps, ∃ result, related step result) :
    ∃ results, List.Forall₂ related steps results := by
  induction steps with
  | nil => exact ⟨[], .nil⟩
  | cons step steps ih =>
      obtain ⟨hFirst, hRest⟩ := List.forall_mem_cons.mp hSteps
      obtain ⟨result, hResult⟩ := hFirst
      obtain ⟨results, hResults⟩ := ih hRest
      exact ⟨result :: results, .cons hResult hResults⟩

/-- What follows for the steps of the list follows for the list. -/
theorem forall₂_imp_of_mem {related implied : α → β → Prop} {steps : List α} {results : List β}
    (hImp : ∀ step ∈ steps, ∀ result, related step result → implied step result)
    (hRelated : List.Forall₂ related steps results) : List.Forall₂ implied steps results := by
  obtain ⟨hLength, hEach⟩ := List.forall₂_iff_zip.mp hRelated
  refine List.forall₂_iff_zip.mpr ⟨hLength, ?_⟩
  intro step result hMem
  exact hImp step (List.of_mem_zip hMem).1 result (hEach hMem)

/-- Steps that all go well give their results in a row. -/
theorem mapM_eq_ok_map {f : α → Except ε β} {result : α → β} {steps : List α}
    (hSteps : ∀ step ∈ steps, f step = .ok (result step)) :
    steps.mapM f = .ok (steps.map result) := by
  rw [mapM_eq_ok_iff, List.forall₂_map_right_iff]
  exact List.forall₂_same.mpr hSteps

/-- A sequence succeeds exactly when every step does. -/
theorem exists_mapM_eq_ok_iff (f : α → Except ε β) (steps : List α) :
    (∃ results, steps.mapM f = .ok results) ↔ ∀ step ∈ steps, ∃ result, f step = .ok result := by
  constructor
  · intro hRun
    obtain ⟨results, hResults⟩ := hRun
    rw [mapM_eq_ok_iff] at hResults
    induction hResults with
    | nil => simp
    | cons hStep _ ih => exact List.forall_mem_cons.mpr ⟨⟨_, hStep⟩, ih⟩
  · intro hSteps
    cases hMapM : steps.mapM f with
    | ok results => exact ⟨results, rfl⟩
    | error failure =>
        obtain ⟨before, step, after, rfl, -, hStep⟩ := (mapM_eq_error_iff f steps failure).mp hMapM
        obtain ⟨result, hResult⟩ := hSteps step (by simp)
        rw [hStep] at hResult
        cases hResult

/-- What two sequences give, one after the other, is what the joined sequence
gives. The second one runs only if the first one succeeds. -/
theorem bind_flatten_mapM (f : α → Except ε (List β)) (first second : List α) :
    ((first.mapM f).map List.flatten).bind (fun found =>
      ((second.mapM f).map List.flatten).map (found ++ ·)) =
        ((first ++ second).mapM f).map List.flatten := by
  rw [List.mapM_append]
  cases first.mapM f with
  | error failure => rfl
  | ok found => cases second.mapM f <;> simp

/-- Steps that are sequences themselves fail as all of them in one row do. What
a step makes of its results has no part in this. -/
theorem mapM_mapM_eq_error_iff {δ κ : Type u} (parts : δ → List α) (f : α → Except ε β)
    (make : δ → List β → κ) (steps : List δ) (failure : ε) :
    (steps.mapM fun step => ((parts step).mapM f).map (make step)) = .error failure ↔
      (steps.flatMap parts).mapM f = .error failure := by
  induction steps with
  | nil => simp
  | cons step steps ih =>
      rw [List.mapM_cons, List.flatMap_cons, List.mapM_append]
      cases (parts step).mapM f with
      | error other => simp
      | ok results =>
          revert ih
          cases steps.mapM fun step => ((parts step).mapM f).map (make step) <;>
            cases (steps.flatMap parts).mapM f <;> simp

end ApiSurvey.Sequence
