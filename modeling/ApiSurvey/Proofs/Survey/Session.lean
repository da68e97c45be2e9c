import ApiSurvey.Survey.Registry
import ApiSurvey.Proofs.Location.Spelling
import ApiSurvey.Proofs.Survey.Roots

/-! Sessions with a registry: any number of registrations, collections and surveys,
one after the other, whether they fail or not. Only registrations are remembered,
each for the location that its root spells, and the latest one counts. -/
namespace ApiSurvey.Session

/-- What a session can do. Roots are given by any spelling of their location. -/
inductive Step where
  | register (root : String) (units : List SourceUnit)
  | collect (root scopeName : String)
  | survey (root scopeName : String) (names : MarkerNames)
  | surveyAll (roots : List (String × String)) (names : MarkerNames)

/-- What comes back from a step. A failure is an answer like any other. -/
inductive Answer where
  | registered
  | collected (collection : Collection)
  | surveyed (result : Except SurveyFault Report)

def rootOf (spelled : String × String) : Root :=
  ⟨.ofText spelled.1, spelled.2⟩

/-- Takes one step: the registry afterwards, and the answer. -/
def Step.perform (registry : Registry) : Step → Registry × Answer
  | .register root units => (registry.register (.ofText root) units, .registered)
  | .collect root scopeName =>
      (registry, .collected (registry.collector (.ofText root) scopeName))
  | .survey root scopeName names =>
      (registry, .surveyed (surveyRoot (rootOf (root, scopeName)) names registry.collector))
  | .surveyAll roots names =>
      (registry, .surveyed (surveyRoots (roots.map rootOf) names registry.collector))

def answers (registry : Registry) : List Step → List Answer
  | [] => []
  | step :: steps => (step.perform registry).2 :: answers (step.perform registry).1 steps

def registryAfter (registry : Registry) (steps : List Step) : Registry :=
  steps.foldl (fun registry step => (step.perform registry).1) registry

/-- The roots that a step looks up. -/
def Step.asked : Step → List String
  | .register _ _ => []
  | .collect root _ => [root]
  | .survey root _ _ => [root]
  | .surveyAll roots _ => roots.map Prod.fst

/-- The root and the files that a step registers. -/
def Step.registration? : Step → Option (String × List SourceUnit)
  | .register root units => some (root, units)
  | _ => none

/-- What a registration becomes in a registry. -/
def entryOf (registration : String × List SourceUnit) : Location × List SourceUnit :=
  (.ofText registration.1, registration.2)

/-- A registry in which these roots are registered, in order. -/
def registryOf (history : List (String × List SourceUnit)) : Registry :=
  .ofList (history.map entryOf)

/-- The files of the latest registration for the location that a root spells. -/
def Latest (history : List (String × List SourceUnit)) (root : String) (units : List SourceUnit) :
    Prop :=
  ∃ older spelled newer, history = older ++ (spelled, units) :: newer ∧
    Location.ofText spelled = Location.ofText root ∧
    ∀ entry ∈ newer, Location.ofText entry.1 ≠ Location.ofText root

section Runs

/-- The answers to steps in a row, with what was registered carried over from the
first ones to the others. -/
theorem answers_append (registry : Registry) (before after : List Step) :
    answers registry (before ++ after) =
      answers registry before ++ answers (registryAfter registry before) after := by
  induction before generalizing registry with
  | nil => rfl
  | cons step before ih => exact congrArg _ (ih _)

theorem length_answers (registry : Registry) (steps : List Step) :
    (answers registry steps).length = steps.length := by
  induction steps generalizing registry with
  | nil => rfl
  | cons step steps ih => exact congrArg (· + 1) (ih _)

/-- The answers behind some steps are those of the registry that the steps leave. -/
theorem drop_answers_append (registry : Registry) (before after : List Step) :
    (answers registry (before ++ after)).drop before.length =
      answers (registryAfter registry before) after := by
  rw [answers_append, List.drop_left' (length_answers registry before)]

/-- An answer to one of the later steps is the answer to it from what was registered
before them. -/
theorem getElem?_answers_append (registry : Registry) (before after : List Step) (index : Nat) :
    (answers registry (before ++ after))[before.length + index]? =
      (answers (registryAfter registry before) after)[index]? := by
  rw [← List.getElem?_drop, drop_answers_append]

/-- Only a registration changes what is registered. -/
theorem perform_of_registration?_eq_none {step : Step} (hStep : step.registration? = none)
    (registry : Registry) : (step.perform registry).1 = registry := by
  cases step with
  | register root units => simp [Step.registration?] at hStep
  | collect root scopeName => rfl
  | survey root scopeName names => rfl
  | surveyAll roots names => rfl

end Runs

section History

/-- Registrations are kept with the latest in front. -/
theorem foldl_register (registrations : List (Location × List SourceUnit)) (registry : Registry) :
    (registrations.foldl (fun registry (root, units) => registry.register root units)
      registry).entries = registrations.reverse ++ registry.entries := by
  induction registrations generalizing registry with
  | nil => rfl
  | cons registration registrations ih =>
      rw [List.foldl_cons, ih, List.reverse_cons, List.append_assoc]
      rfl

theorem entries_registryOf (history : List (String × List SourceUnit)) :
    (registryOf history).entries = (history.map entryOf).reverse := by
  rw [registryOf, Registry.ofList, foldl_register, List.append_nil]

theorem registryOf_concat (history : List (String × List SourceUnit)) (root : String)
    (units : List SourceUnit) :
    (registryOf history).register (.ofText root) units =
      registryOf (history ++ [(root, units)]) := by
  simp [registryOf, Registry.ofList, entryOf]

/-- All that a registry remembers of a session are the registrations, in order. -/
theorem registryAfter_registryOf (history : List (String × List SourceUnit)) (steps : List Step) :
    registryAfter (registryOf history) steps =
      registryOf (history ++ steps.filterMap Step.registration?) := by
  induction steps generalizing history with
  | nil => simp [registryAfter]
  | cons step steps ih =>
      change registryAfter (step.perform (registryOf history)).1 steps = _
      cases step with
      | register root units =>
          change registryAfter ((registryOf history).register (.ofText root) units) steps = _
          rw [registryOf_concat, ih]
          simp [Step.registration?]
      | collect root scopeName => exact ih history
      | survey root scopeName names => exact ih history
      | surveyAll roots names => exact ih history

/-- Looking a root up finds its latest registration. The registry is the history from
behind, so the first entry for the root is the last one that was made. -/
theorem lookup_registryOf_eq_some_iff (history : List (String × List SourceUnit)) (root : String)
    (units : List SourceUnit) :
    (registryOf history).entries.lookup (.ofText root) = some units ↔
      Latest history root units := by
  rw [entries_registryOf, List.lookup_eq_some_iff]
  constructor
  · intro hFound
    obtain ⟨later, earlier, hEntries, hLater⟩ := hFound
    rw [List.reverse_eq_iff, List.reverse_append, List.reverse_cons, List.append_assoc,
      List.singleton_append, List.map_eq_append_iff] at hEntries
    obtain ⟨older, rest, rfl, -, hRest⟩ := hEntries
    obtain ⟨⟨spelled, found⟩, newer, rfl, hSpelled, hNewer⟩ := List.map_eq_cons_iff.mp hRest
    obtain ⟨hPlace, rfl⟩ := Prod.mk.inj hSpelled
    refine ⟨older, spelled, newer, rfl, hPlace, ?_⟩
    intro entry hEntry hSame
    have hMem : entryOf entry ∈ later := by
      rw [← List.mem_reverse, ← hNewer]
      exact List.mem_map_of_mem hEntry
    simpa [entryOf, hSame] using hLater _ hMem
  · intro hLatest
    obtain ⟨older, spelled, newer, rfl, hPlace, hNewer⟩ := hLatest
    refine ⟨(newer.map entryOf).reverse, (older.map entryOf).reverse, ?_, ?_⟩
    · simp [entryOf, hPlace]
    · intro entry hEntry
      rw [List.mem_reverse, List.mem_map] at hEntry
      obtain ⟨registered, hMem, rfl⟩ := hEntry
      simpa [entryOf] using (hNewer registered hMem).symm

/-- A root is not found exactly if no spelling of it was registered. -/
theorem lookup_registryOf_eq_none_iff (history : List (String × List SourceUnit)) (root : String) :
    (registryOf history).entries.lookup (.ofText root) = none ↔
      ∀ entry ∈ history, Location.ofText entry.1 ≠ Location.ofText root := by
  rw [entries_registryOf, List.lookup_eq_none_iff]
  simp only [List.mem_reverse, List.forall_mem_map, bne_iff_ne]
  exact forall₂_congr fun entry _ => ne_comm

/-- What a registry hands over is settled by its registrations and the location,
and the name of the scope has no part in it. -/
theorem collector_registryOf (history : List (String × List SourceUnit)) (root : String) :
    ∃ collection,
      (∀ scopeName, (registryOf history).collector (.ofText root) scopeName = collection) ∧
      (∀ units, collection = ⟨units, none⟩ ↔ Latest history root units) ∧
      (collection = ⟨[], some (.refused ⟨(Location.ofText root).text, .notFound⟩)⟩ ↔
        ∀ entry ∈ history, Location.ofText entry.1 ≠ Location.ofText root) := by
  refine ⟨.ofExcept (((registryOf history).collect (.ofText root)).mapError .refused),
    fun _ => rfl, ?_, ?_⟩
  · intro units
    rw [← lookup_registryOf_eq_some_iff, Registry.collect]
    cases (registryOf history).entries.lookup (.ofText root) <;> simp [Collection.ofExcept]
  · rw [← lookup_registryOf_eq_none_iff, Registry.collect]
    cases (registryOf history).entries.lookup (.ofText root) <;> simp [Collection.ofExcept]

end History

section Independence

/-- Two registries that tell apart no location but this one. -/
def AgreeOff (location : Location) (first second : Registry) : Prop :=
  ∀ other, other ≠ location → first.entries.lookup other = second.entries.lookup other

variable {location : Location} {first second : Registry}

/-- A registration changes nothing at other locations. -/
theorem agreeOff_register (registry : Registry) (location : Location) (units : List SourceUnit) :
    AgreeOff location (registry.register location units) registry := by
  intro other hOther
  simp [Registry.register, List.lookup_cons, beq_false_of_ne hOther]

/-- Registries that agree but at one location still do so after a step. -/
theorem AgreeOff.perform (hAgree : AgreeOff location first second) (step : Step) :
    AgreeOff location (step.perform first).1 (step.perform second).1 := by
  cases step with
  | register root units =>
      intro other hOther
      simp only [Step.perform, Registry.register, List.lookup_cons, hAgree other hOther]
  | collect root scopeName => exact hAgree
  | survey root scopeName names => exact hAgree
  | surveyAll roots names => exact hAgree

theorem AgreeOff.collected (hAgree : AgreeOff location first second) {root : Root}
    (hRoot : root.location ≠ location) :
    root.collected first.collector = root.collected second.collector := by
  unfold Root.collected Registry.collector Registry.collect
  rw [hAgree root.location hRoot]

/-- A step that does not ask for the location is answered alike. -/
theorem AgreeOff.answer (hAgree : AgreeOff location first second) {step : Step}
    (hStep : ∀ root ∈ step.asked, Location.ofText root ≠ location) :
    (step.perform first).2 = (step.perform second).2 := by
  cases step with
  | register root units => rfl
  | collect root scopeName =>
      have hRoot : (rootOf (root, scopeName)).location ≠ location :=
        hStep root (by simp [Step.asked])
      exact congrArg Answer.collected (hAgree.collected hRoot)
  | survey root scopeName names =>
      have hRoot : (rootOf (root, scopeName)).location ≠ location :=
        hStep root (by simp [Step.asked])
      exact congrArg Answer.surveyed (surveyRoot_congr (hAgree.collected hRoot) names)
  | surveyAll roots names =>
      refine congrArg Answer.surveyed (surveyRoots_congr ?_ names)
      intro root hRoot
      obtain ⟨spelled, hSpelled, rfl⟩ := List.mem_map.mp hRoot
      exact hAgree.collected (hStep spelled.1 (List.mem_map_of_mem hSpelled))

/-- The same steps keep the difference of two registries to one location, so every
step that does not look there is answered alike. -/
theorem AgreeOff.answers_getElem? (hAgree : AgreeOff location first second) {steps : List Step}
    {index : Nat} {step : Step} (hIndex : steps[index]? = some step)
    (hStep : ∀ root ∈ step.asked, Location.ofText root ≠ location) :
    (answers first steps)[index]? = (answers second steps)[index]? := by
  induction steps generalizing first second index with
  | nil => simp at hIndex
  | cons other steps ih =>
      cases index with
      | zero =>
          obtain rfl : other = step := by simpa using hIndex
          exact congrArg some (hAgree.answer hStep)
      | succ index => exact ih (hAgree.perform other) hIndex

end Independence

/-- In every session a root is collected as it was registered last, under whichever
spelling, and is refused exactly when it never was; the scope name has no part in
this. Steps that register nothing change no later answer, and a registration
changes only those that look at its own location. Spellings of one location are
those that differ in repeated or trailing slashes and in single dots; two dots are
kept, and so is the difference between one and two slashes at the start. -/
theorem answers_follow_latest_registration (initial : List (String × List SourceUnit))
    (before after : List Step) :
    (∀ root, ∃ collection,
      (∀ scopeName, (answers (registryOf initial)
        (before ++ .collect root scopeName :: after))[before.length]? =
          some (.collected collection)) ∧
      (∀ units, collection = ⟨units, none⟩ ↔
        Latest (initial ++ before.filterMap Step.registration?) root units) ∧
      (collection = ⟨[], some (.refused ⟨(Location.ofText root).text, .notFound⟩)⟩ ↔
        ∀ entry ∈ initial ++ before.filterMap Step.registration?,
          Location.ofText entry.1 ≠ Location.ofText root)) ∧
    (∀ step : Step, step.registration? = none →
      (answers (registryOf initial) (before ++ step :: after)).drop (before.length + 1) =
        (answers (registryOf initial) (before ++ after)).drop before.length) ∧
    (∀ root units index step, after[index]? = some step →
      (∀ asked ∈ step.asked, Location.ofText asked ≠ Location.ofText root) →
      (answers (registryOf initial)
        (before ++ .register root units :: after))[before.length + 1 + index]? =
        (answers (registryOf initial) (before ++ after))[before.length + index]?) ∧
    (∀ text, Location.ofText (Location.ofText text).text = Location.ofText text) ∧
    (∀ first second, Location.ofText first = Location.ofText second ↔
      Location.Respells first second) ∧
    (∀ above below : String, (Location.ofText (above ++ "/../" ++ below)).parts =
      (Location.ofText above).parts ++ ".." :: (Location.ofText below).parts) ∧
    (∀ rest : String, rest.toList.head? ≠ some '/' →
      Location.ofText ("//" ++ rest) ≠ Location.ofText ("/" ++ rest)) := by
  refine ⟨?_, ?_, ?_, Location.ofText_text_ofText, Location.ofText_eq_iff_respells, ?_, ?_⟩
  · intro root
    obtain ⟨collection, hCollected, hSettled⟩ :=
      collector_registryOf (initial ++ before.filterMap Step.registration?) root
    refine ⟨collection, ?_, hSettled⟩
    intro scopeName
    have hAnswer := getElem?_answers_append (registryOf initial) before
      (.collect root scopeName :: after) 0
    rw [registryAfter_registryOf] at hAnswer
    rw [← hCollected scopeName]
    exact hAnswer
  · intro step hStep
    rw [← List.drop_drop, drop_answers_append, drop_answers_append]
    exact congrArg (answers · after) (perform_of_registration?_eq_none hStep _)
  · intro root units index step hIndex hStep
    have hOff := agreeOff_register (registryAfter (registryOf initial) before) (.ofText root) units
    rw [Nat.add_assoc, getElem?_answers_append, getElem?_answers_append, Nat.add_comm]
    exact hOff.answers_getElem? hIndex hStep
  · intro above below
    simpa [Location.ofText] using Location.partsOf_parent above.toList below.toList
  · intro rest hRest
    simpa [Location.ofText_eq] using Location.ofChars_slash_ne hRest

end ApiSurvey.Session
