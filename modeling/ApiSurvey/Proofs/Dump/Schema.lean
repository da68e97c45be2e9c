import ApiSurvey.Proofs.Dump.Shape
import ApiSurvey.Proofs.Sequence
import Mathlib.Tactic.Common

/-! The checker of the schema against its shapes. Every check of the schema
agrees with a shape: it accepts the values that fit, and its complaints are the
breaches. Agreement is carried from the parts of a value to the whole. -/
namespace ApiSurvey.Dump

variable {α β : Type}

/-- The complaints about a checked value; there are none about a good one. -/
def Checked.complaints : Checked α → List Complaint
  | .ok _ => []
  | .error complaints => complaints

/-- The places of the complaints about a checked value, in order. -/
def Checked.places (checked : Checked α) : List (List Step) :=
  checked.complaints.map Complaint.place

namespace Checked

@[simp] theorem complaints_ok (value : α) : complaints (.ok value) = [] := rfl

@[simp] theorem complaints_error (found : List Complaint) :
    complaints (.error found : Checked α) = found := rfl

@[simp] theorem complaints_complain (cause : Complaint.Cause) :
    (complain cause : Checked α).complaints = [⟨[], cause⟩] := rfl

@[simp] theorem complaints_map (f : α → β) (checked : Checked α) :
    complaints (checked.map f) = checked.complaints := by
  cases checked <;> rfl

@[simp] theorem complaints_apply (function : Checked (α → β)) (checked : Checked α) :
    (apply function checked).complaints = function.complaints ++ checked.complaints := by
  cases function <;> cases checked <;> simp [apply]

/-- From the outside, the complaints about a value inside have one more step in front
of their places. -/
theorem mem_complaints_within (step : Step) (checked : Checked α) (place : List Step)
    (cause : Complaint.Cause) :
    ⟨place, cause⟩ ∈ (within step checked).complaints ↔
      ∃ rest, place = step :: rest ∧ ⟨rest, cause⟩ ∈ checked.complaints := by
  cases checked with
  | ok value => simp [within]
  | error found =>
      simp only [within, complaints_error, List.mem_map, Complaint.mk.injEq]
      constructor
      · rintro ⟨⟨rest, other⟩, hMem, rfl, rfl⟩
        exact ⟨rest, rfl, hMem⟩
      · rintro ⟨rest, rfl, hMem⟩
        exact ⟨⟨rest, cause⟩, hMem, rfl, rfl⟩

@[simp] theorem places_ok (value : α) : places (.ok value) = [] := rfl

@[simp] theorem places_complain (cause : Complaint.Cause) :
    (complain cause : Checked α).places = [[]] := rfl

@[simp] theorem places_map (f : α → β) (checked : Checked α) :
    places (checked.map f) = checked.places := by
  rw [places, complaints_map, places]

@[simp] theorem places_apply (function : Checked (α → β)) (checked : Checked α) :
    (apply function checked).places = function.places ++ checked.places := by
  rw [places, complaints_apply, List.map_append, places, places]

/-- The order of places is kept when a step is put in front of all of them. -/
@[simp] theorem places_within (step : Step) (checked : Checked α) :
    (within step checked).places = checked.places.map (step :: ·) := by
  cases checked <;> simp [places, within]

theorem mem_places_iff {checked : Checked α} {place : List Step} :
    place ∈ checked.places ↔ ∃ cause, ⟨place, cause⟩ ∈ checked.complaints := by
  rw [places, List.mem_map]
  constructor
  · rintro ⟨⟨found, cause⟩, hMem, rfl⟩
    exact ⟨cause, hMem⟩
  · rintro ⟨cause, hMem⟩
    exact ⟨⟨place, cause⟩, hMem, rfl⟩

/-- A value is refused only for a reason. -/
def Grounded (checked : Checked α) : Prop :=
  checked ≠ .error []

theorem grounded_ok (value : α) : Grounded (.ok value) := by
  simp [Grounded]

theorem grounded_complain (cause : Complaint.Cause) : Grounded (complain cause : Checked α) := by
  simp [Grounded, complain]

theorem Grounded.map {checked : Checked α} (hGrounded : checked.Grounded) (f : α → β) :
    Grounded (checked.map f) := by
  cases checked <;> simp_all [Grounded]

theorem Grounded.within {checked : Checked α} (hGrounded : checked.Grounded) (step : Step) :
    (within step checked).Grounded := by
  cases checked <;> simp_all [Grounded, Checked.within]

/-- Where both parts are refused for a reason only, so is the whole. -/
theorem Grounded.apply {function : Checked (α → β)} {checked : Checked α}
    (hFunction : function.Grounded) (hChecked : checked.Grounded) :
    (apply function checked).Grounded := by
  cases function <;> cases checked <;> simp_all [Grounded, Checked.apply]

/-- A value that is refused for a reason only is accepted where there are no
complaints. -/
theorem Grounded.exists_eq_ok_iff {checked : Checked α} (hGrounded : checked.Grounded) :
    (∃ value, checked = .ok value) ↔ checked.complaints = [] := by
  cases checked <;> simp_all [Grounded]

theorem complaints_within_eq_nil_iff (step : Step) (checked : Checked α) :
    (within step checked).complaints = [] ↔ checked.complaints = [] := by
  cases checked <;> simp [within]

theorem within_eq_ok_iff (step : Step) (checked : Checked α) (value : α) :
    within step checked = .ok value ↔ checked = .ok value := by
  cases checked <;> simp [within]

/-- A function and its argument are applied only if neither was complained about. -/
theorem apply_eq_ok_iff (function : Checked (α → β)) (checked : Checked α) (result : β) :
    apply function checked = .ok result ↔
      ∃ f value, function = .ok f ∧ checked = .ok value ∧ f value = result := by
  cases function <;> cases checked <;> simp [apply]

end Checked

/-- A checked value agrees with a shape. -/
structure Agrees (shape : Shape) (json : Json) (checked : Checked α) : Prop where
  grounded : checked.Grounded
  ordered : checked.places.Pairwise shape.Before
  reports : ∀ place cause, ⟨place, cause⟩ ∈ checked.complaints ↔ shape.Breach json place cause
  accepts : checked.complaints = [] ↔ shape.Fits json

theorem Agrees.map {shape : Shape} {json : Json} {checked : Checked α}
    (hAgrees : Agrees shape json checked) (f : α → β) : Agrees shape json (checked.map f) where
  grounded := hAgrees.grounded.map f
  ordered := by simpa using hAgrees.ordered
  reports := by simpa using hAgrees.reports
  accepts := by simpa using hAgrees.accepts

theorem text_eq_ok_iff (json : Json) (content : String) :
    text json = .ok content ↔ json = .string content := by
  cases json <;> simp [text, Checked.complain]

/-- A text is checked in one step, and whatever is no text breaches the shape at its
own place. -/
theorem text_agrees (json : Json) : Agrees .text json (text json) := by
  by_cases hText : ∃ content, json = .string content
  · obtain ⟨content, rfl⟩ := hText
    refine ⟨Checked.grounded_ok content, by simp [text], ?_, fun _ => .text content, fun _ => rfl⟩
    intro place cause
    constructor
    · simp [text]
    · intro hBreach
      cases hBreach with
      | notText other => exact (other content rfl).elim
  · have hOther : ∀ content, json ≠ .string content := by simpa using hText
    have hCheck : text json = .complain .notString := by
      cases json <;> first | rfl | exact (hOther _ rfl).elim
    rw [hCheck]
    refine ⟨Checked.grounded_complain _, by simp, ?_, by simp, ?_⟩
    · intro place cause
      simp only [Checked.complaints_complain, List.mem_singleton, Complaint.mk.injEq]
      constructor
      · rintro ⟨rfl, rfl⟩
        exact .notText hOther
      · rintro ⟨⟩
        exact ⟨rfl, rfl⟩
    · rintro ⟨content⟩
      exact (hOther content rfl).elim

theorem nullable_eq_ok_iff (check : Json → Checked α) (json : Json) (result : Option α) :
    nullable check json = .ok result ↔ json = .null ∧ none = result ∨
      json ≠ .null ∧ ∃ value, check json = .ok value ∧ some value = result := by
  cases json <;> simp [nullable, Sequence.map_eq_ok_iff]

/-- Null fits every nullable shape, and any other value is left to the check inside.
-/
theorem nullable_agrees {check : Json → Checked α} {shape : Shape} {json : Json}
    (hInside : Agrees shape json (check json)) :
    Agrees (.nullable shape) json (nullable check json) := by
  by_cases hNull : json = .null
  · subst hNull
    refine ⟨Checked.grounded_ok none, by simp [nullable], ?_, fun _ => .null shape, fun _ => rfl⟩
    intro place cause
    constructor
    · simp [nullable]
    · intro hBreach
      cases hBreach with
      | nullable notNull inside => exact (notNull rfl).elim
  · have hCheck : nullable check json = (check json).map some := by
      cases json <;> first | rfl | exact (hNull rfl).elim
    rw [hCheck]
    refine ⟨hInside.grounded.map some, ?_, ?_, ?_⟩
    · rw [Checked.places_map]
      exact hInside.ordered.imp .nullable
    · intro place cause
      rw [Checked.complaints_map, hInside.reports]
      constructor
      · exact .nullable hNull
      · intro hBreach
        cases hBreach with
        | nullable notNull inside => exact inside
    · rw [Checked.complaints_map, hInside.accepts]
      constructor
      · exact .nullable
      · intro hFits
        cases hFits with
        | null => exact (hNull rfl).elim
        | nullable inside => exact inside

section List

variable {check : Json → Checked α} {shape : Shape}

/-- A list is refused only for what is wrong with an item. -/
theorem listFrom_grounded {items : List Json}
    (hItems : ∀ item ∈ items, Agrees shape item (check item)) (position : Nat) :
    (listFrom check position items).Grounded := by
  induction items generalizing position with
  | nil => exact Checked.grounded_ok []
  | cons item items ih =>
      obtain ⟨hItem, hRest⟩ := List.forall_mem_cons.mp hItems
      exact .apply (.map (hItem.grounded.within _) _) (ih hRest _)

/-- Items are read one by one, whatever position the count starts at. -/
theorem listFrom_eq_ok_iff (check : Json → Checked α) (position : Nat) (items : List Json)
    (results : List α) :
    listFrom check position items = .ok results ↔
      List.Forall₂ (fun item result => check item = .ok result) items results := by
  induction items generalizing position results with
  | nil => simp [listFrom, eq_comm]
  | cons item items ih =>
      rw [List.forall₂_cons_left_iff, listFrom, Checked.apply_eq_ok_iff]
      simp only [Sequence.map_eq_ok_iff, Checked.within_eq_ok_iff, ih]
      constructor
      · rintro ⟨_, rest, ⟨first, hFirst, rfl⟩, hRest, rfl⟩
        exact ⟨first, rest, hFirst, hRest, rfl⟩
      · rintro ⟨first, rest, hFirst, hRest, rfl⟩
        exact ⟨_, rest, ⟨first, hFirst, rfl⟩, hRest, rfl⟩

/-- A list is read item by item. -/
theorem list_eq_ok_iff (check : Json → Checked α) (json : Json) (results : List α) :
    list check json = .ok results ↔ ∃ items, json = .array items ∧
      List.Forall₂ (fun item result => check item = .ok result) items results := by
  cases json with
  | array items => simp [list, listFrom_eq_ok_iff]
  | _ => simp [list, Checked.complain]

/-- The complaints about a list are the breaches of its items, each at its
position. -/
theorem mem_complaints_listFrom {items : List Json}
    (hItems : ∀ item ∈ items, Agrees shape item (check item)) (start : Nat)
    (place : List Step) (cause : Complaint.Cause) :
    ⟨place, cause⟩ ∈ (listFrom check start items).complaints ↔
      ∃ position item rest, items[position]? = some item ∧
        place = .index (start + position) :: rest ∧ shape.Breach item rest cause := by
  induction items generalizing start with
  | nil => simp [listFrom]
  | cons item items ih =>
      obtain ⟨hItem, hRest⟩ := List.forall_mem_cons.mp hItems
      rw [listFrom, Checked.complaints_apply, List.mem_append, Checked.complaints_map,
        Checked.mem_complaints_within, ih hRest]
      simp only [hItem.reports]
      constructor
      · rintro (⟨rest, rfl, hBreach⟩ | ⟨position, found, rest, hFound, rfl, hBreach⟩)
        · exact ⟨0, item, rest, rfl, rfl, hBreach⟩
        · refine ⟨position + 1, found, rest, hFound, ?_, hBreach⟩
          rw [Nat.add_right_comm, Nat.add_assoc]
      · rintro ⟨position, found, rest, hFound, rfl, hBreach⟩
        cases position with
        | zero =>
            obtain rfl : item = found := by simpa using hFound
            exact .inl ⟨rest, rfl, hBreach⟩
        | succ position =>
            refine .inr ⟨position, found, rest, hFound, ?_, hBreach⟩
            rw [Nat.add_right_comm, Nat.add_assoc]

/-- The complaints about an item come before those about the items behind it. -/
theorem ordered_listFrom {items : List Json}
    (hItems : ∀ item ∈ items, Agrees shape item (check item)) (start : Nat) :
    (listFrom check start items).places.Pairwise (Shape.list shape).Before := by
  induction items generalizing start with
  | nil => simp [listFrom]
  | cons item items ih =>
      obtain ⟨hItem, hRest⟩ := List.forall_mem_cons.mp hItems
      rw [listFrom, Checked.places_apply, Checked.places_map, Checked.places_within,
        List.pairwise_append]
      refine ⟨List.pairwise_map.mpr (hItem.ordered.imp .inItem), ih hRest _, ?_⟩
      intro first hFirst second hSecond
      obtain ⟨inner, -, rfl⟩ := List.mem_map.mp hFirst
      obtain ⟨cause, hMem⟩ := Checked.mem_places_iff.mp hSecond
      obtain ⟨position, -, rest, -, rfl, -⟩ := (mem_complaints_listFrom hRest _ _ _).mp hMem
      exact .acrossItems (by omega)

/-- There is nothing to complain about in a list exactly if all items fit. -/
theorem complaints_listFrom_eq_nil_iff {items : List Json}
    (hItems : ∀ item ∈ items, Agrees shape item (check item)) (position : Nat) :
    (listFrom check position items).complaints = [] ↔ ∀ item ∈ items, shape.Fits item := by
  induction items generalizing position with
  | nil => simp [listFrom]
  | cons item items ih =>
      obtain ⟨hItem, hRest⟩ := List.forall_mem_cons.mp hItems
      rw [listFrom, Checked.complaints_apply, List.append_eq_nil_iff, Checked.complaints_map,
        Checked.complaints_within_eq_nil_iff, hItem.accepts, ih hRest, List.forall_mem_cons]

/-- A check that agrees with a shape on every item makes one that agrees on lists.
Only the items of the value at hand are asked for, so that items may hold lists of
items. -/
theorem list_agrees {json : Json}
    (hItems : ∀ items, json = .array items → ∀ item ∈ items, Agrees shape item (check item)) :
    Agrees (.list shape) json (list check json) := by
  by_cases hList : ∃ items, json = .array items
  · obtain ⟨items, rfl⟩ := hList
    have hEach := hItems items rfl
    refine ⟨listFrom_grounded hEach 0, ordered_listFrom hEach 0, ?_, ?_⟩
    · intro place cause
      rw [list, mem_complaints_listFrom hEach]
      constructor
      · rintro ⟨position, item, rest, hFound, rfl, hBreach⟩
        rw [Nat.zero_add]
        exact .inList hFound hBreach
      · intro hBreach
        cases hBreach with
        | notList other => exact (other items rfl).elim
        | @inList _ _ position item rest _ hFound hInside =>
            exact ⟨position, item, rest, hFound, by rw [Nat.zero_add], hInside⟩
    · rw [list, complaints_listFrom_eq_nil_iff hEach]
      constructor
      · exact .list
      · rintro ⟨⟩
        assumption
  · have hOther : ∀ items, json ≠ .array items := by simpa using hList
    have hCheck : list check json = .complain .notList := by
      cases json <;> first | rfl | exact (hOther _ rfl).elim
    rw [hCheck]
    refine ⟨Checked.grounded_complain _, by simp, ?_, by simp, ?_⟩
    · intro place cause
      simp only [Checked.complaints_complain, List.mem_singleton, Complaint.mk.injEq]
      constructor
      · rintro ⟨rfl, rfl⟩
        exact .notList hOther
      · intro hBreach
        cases hBreach with
        | notList other => exact ⟨rfl, rfl⟩
        | inList found inside => exact (hOther _ rfl).elim
    · rintro ⟨⟩
      exact (hOther _ rfl).elim

end List

section Fields

variable {members : List (String × Json)}

inductive Field.Breach (members : List (String × Json)) (field : Field) :
    List Step → Complaint.Cause → Prop where
  | missing (required : field.isRequired = true)
      (absent : Json.member? field.key members = none) :
      Breach members field [.key field.key] .missing
  | inside {value : Json} {place : List Step} {cause : Complaint.Cause}
      (found : Json.member? field.key members = some value)
      (inside : field.shape.Breach value place cause) :
      Breach members field (.key field.key :: place) cause

/-- The order of the places in an object with some fields. -/
inductive Field.Before (fields : List Field) : List Step → List Step → Prop where
  | across {earlier later : Field} {first second : List Step}
      (listed : [earlier, later].Sublist fields) :
      Before fields (.key earlier.key :: first) (.key later.key :: second)
  | inside {field : Field} {first second : List Step} (mem : field ∈ fields)
      (inside : field.shape.Before first second) :
      Before fields (.key field.key :: first) (.key field.key :: second)

/-- More fields keep the order that is there. -/
theorem Field.Before.mono {fields more : List Field} (hSublist : fields.Sublist more)
    {first second : List Step} (hBefore : Field.Before fields first second) :
    Field.Before more first second := by
  cases hBefore with
  | across listed => exact .across (listed.trans hSublist)
  | inside mem inside => exact .inside (hSublist.subset mem) inside

/-- All breaches in a field are below its key. -/
theorem Field.Breach.place_eq {field : Field} {place : List Step} {cause : Complaint.Cause}
    (hBreach : field.Breach members place cause) : ∃ rest, place = .key field.key :: rest := by
  cases hBreach with
  | missing => exact ⟨[], rfl⟩
  | @inside _ rest => exact ⟨rest, rfl⟩

/-- A checked object agrees with some of its fields. -/
structure FieldsAgree (fields : List Field) (members : List (String × Json))
    (checked : Checked α) : Prop where
  grounded : checked.Grounded
  ordered : checked.places.Pairwise (Field.Before fields)
  reports : ∀ place cause, ⟨place, cause⟩ ∈ checked.complaints ↔
    ∃ field ∈ fields, field.Breach members place cause
  accepts : checked.complaints = [] ↔ ∀ field ∈ fields, field.Fits members

theorem FieldsAgree.map {fields : List Field} {checked : Checked α}
    (hAgree : FieldsAgree fields members checked) (f : α → β) :
    FieldsAgree fields members (checked.map f) where
  grounded := hAgree.grounded.map f
  ordered := by simpa using hAgree.ordered
  reports := by simpa using hAgree.reports
  accepts := by simpa using hAgree.accepts

/-- All places of complaints are below the keys of the fields. -/
theorem FieldsAgree.place_eq {fields : List Field} {checked : Checked α}
    (hAgree : FieldsAgree fields members checked) {place : List Step}
    (hPlace : place ∈ checked.places) :
    ∃ field ∈ fields, ∃ rest, place = .key field.key :: rest := by
  obtain ⟨cause, hMem⟩ := Checked.mem_places_iff.mp hPlace
  obtain ⟨field, hField, hBreach⟩ := (hAgree.reports place cause).mp hMem
  exact ⟨field, hField, hBreach.place_eq⟩

/-- The step from some fields to more of them. -/
theorem FieldsAgree.apply {fields more : List Field} {function : Checked (α → β)}
    {checked : Checked α} (hFunction : FieldsAgree fields members function)
    (hChecked : FieldsAgree more members checked) :
    FieldsAgree (fields ++ more) members (Checked.apply function checked) where
  grounded := hFunction.grounded.apply hChecked.grounded
  ordered := by
    rw [Checked.places_apply, List.pairwise_append]
    refine ⟨hFunction.ordered.imp (.mono (List.sublist_append_left _ _)),
      hChecked.ordered.imp (.mono (List.sublist_append_right _ _)), ?_⟩
    intro first hFirst second hSecond
    obtain ⟨earlier, hEarlier, _, rfl⟩ := hFunction.place_eq hFirst
    obtain ⟨later, hLater, _, rfl⟩ := hChecked.place_eq hSecond
    exact .across ((List.singleton_sublist.mpr hEarlier).append (List.singleton_sublist.mpr hLater))
  reports := by
    intro place cause
    rw [Checked.complaints_apply, List.mem_append, hFunction.reports, hChecked.reports]
    simp only [List.mem_append, or_and_right, exists_or]
  accepts := by
    rw [Checked.complaints_apply, List.append_eq_nil_iff, hFunction.accepts, hChecked.accepts,
      List.forall_mem_append]

/-- A field that is there is judged by its value. -/
theorem fieldsAgree_of_some {key : String} {isRequired : Bool} {shape : Shape} {value : Json}
    {checked : Checked α} (hMember : Json.member? key members = some value)
    (hValue : Agrees shape value checked) :
    FieldsAgree [⟨key, isRequired, shape⟩] members (Checked.within (.key key) checked) where
  grounded := hValue.grounded.within _
  ordered := by
    rw [Checked.places_within, List.pairwise_map]
    refine hValue.ordered.imp ?_
    intro first second hBefore
    exact @Field.Before.inside _ ⟨key, isRequired, shape⟩ _ _ (List.mem_singleton_self _) hBefore
  reports := by
    intro place cause
    rw [Checked.mem_complaints_within]
    simp only [hValue.reports, List.mem_singleton, exists_eq_left]
    constructor
    · rintro ⟨rest, rfl, hBreach⟩
      exact .inside hMember hBreach
    · intro hBreach
      cases hBreach with
      | missing required absent => simp [hMember] at absent
      | @inside other rest _ hFound hInside =>
          obtain rfl : value = other := by simpa [hMember] using hFound
          exact ⟨rest, rfl, hInside⟩
  accepts := by
    rw [Checked.complaints_within_eq_nil_iff, hValue.accepts]
    simp [Field.Fits, hMember]

/-- A field that has to be there is read if it is there. -/
theorem required_eq_ok_iff (members : List (String × Json)) (key : String)
    (check : Json → Checked α) (result : α) :
    required members key check = .ok result ↔
      ∃ value, Json.member? key members = some value ∧ check value = .ok result := by
  unfold required
  cases Json.member? key members <;> simp [Checked.within_eq_ok_iff]

/-- A field that may be absent is read if it is there, and has its default if it is
not. -/
theorem optional_eq_ok_iff (members : List (String × Json)) (key : String) (default : α)
    (check : Json → Checked α) (result : α) :
    optional members key default check = .ok result ↔
      Json.member? key members = none ∧ default = result ∨
        ∃ value, Json.member? key members = some value ∧ check value = .ok result := by
  unfold optional
  cases Json.member? key members <;> simp [Checked.within_eq_ok_iff]

/-- The check of a field that has to be there agrees with the field: an absent one is
missing. -/
theorem required_agrees (members : List (String × Json)) (key : String)
    {check : Json → Checked α} {shape : Shape}
    (hValue : ∀ value, Json.member? key members = some value →
      Agrees shape value (check value)) :
    FieldsAgree [⟨key, true, shape⟩] members (required members key check) := by
  unfold required
  cases hMember : Json.member? key members with
  | some value => exact fieldsAgree_of_some hMember (hValue value hMember)
  | none =>
      refine ⟨by simp [Checked.Grounded], List.pairwise_singleton _ _, ?_,
        by simp [Field.Fits, hMember]⟩
      intro place cause
      simp only [Checked.complaints_error, List.mem_singleton, Complaint.mk.injEq, exists_eq_left]
      constructor
      · rintro ⟨rfl, rfl⟩
        exact .missing rfl hMember
      · intro hBreach
        cases hBreach with
        | missing required absent => exact ⟨rfl, rfl⟩
        | inside found inside => simp [hMember] at found

/-- The check of a field that may be absent agrees with the field: there is nothing
wrong if it is absent. -/
theorem optional_agrees (members : List (String × Json)) (key : String) (default : α)
    {check : Json → Checked α} {shape : Shape}
    (hValue : ∀ value, Json.member? key members = some value →
      Agrees shape value (check value)) :
    FieldsAgree [⟨key, false, shape⟩] members (optional members key default check) := by
  unfold optional
  cases hMember : Json.member? key members with
  | some value => exact fieldsAgree_of_some hMember (hValue value hMember)
  | none =>
      refine ⟨Checked.grounded_ok default, by simp, ?_, by simp [Field.Fits, hMember]⟩
      intro place cause
      simp only [Checked.complaints_ok, List.not_mem_nil, List.mem_singleton, exists_eq_left,
        false_iff]
      intro hBreach
      cases hBreach with
      | missing required absent => cases required
      | inside found inside => simp [hMember] at found

/-- The breaches of an object are those of its fields, and if there are none, the
rules that it breaks. -/
theorem breach_record_iff {record : Record} (place : List Step) (cause : Complaint.Cause) :
    (Shape.record record).Breach (.object members) place cause ↔
      (∃ field ∈ record.fields, field.Breach members place cause) ∨
        place = [] ∧ (∀ field ∈ record.fields, field.Fits members) ∧
          record.BreaksRule members cause := by
  constructor
  · intro hBreach
    cases hBreach with
    | notObject other => exact (other members rfl).elim
    | missing mem required absent => exact .inl ⟨_, mem, .missing required absent⟩
    | inField mem found inside => exact .inl ⟨_, mem, .inside found inside⟩
    | rule sound broken => exact .inr ⟨rfl, sound, broken⟩
  · rintro (⟨field, hMem, hBreach⟩ | ⟨rfl, hSound, hBroken⟩)
    · cases hBreach with
      | missing required absent => exact .missing hMem required absent
      | inside found inside => exact .inField hMem found inside
    · exact .rule hSound hBroken

/-- An object fits if all its fields do and it breaks no rule. -/
theorem fits_record_iff {record : Record} :
    (Shape.record record).Fits (.object members) ↔
      (∀ field ∈ record.fields, field.Fits members) ∧
        ∀ cause, ¬ record.BreaksRule members cause := by
  constructor
  · rintro ⟨⟩
    next present each rules =>
      exact ⟨fun field hMem => ⟨present field hMem, each field hMem⟩, rules⟩
  · rintro ⟨hFields, hRules⟩
    exact .record (fun field hMem => (hFields field hMem).1)
      (fun field hMem => (hFields field hMem).2) hRules

/-- The order in the fields of a kind of object is the order in an object of this
kind. -/
theorem Field.Before.record {record : Record} {first second : List Step}
    (hBefore : Field.Before record.fields first second) :
    (Shape.record record).Before first second := by
  cases hBefore with
  | across listed => exact .acrossFields listed
  | inside mem inside => exact .inField mem inside

/-- The rules of an object are checked behind its fields, and only if all of them
are sound. -/
theorem record_agrees {record : Record} {checked : Checked α} {rules : α → Checked α}
    (hFields : FieldsAgree record.fields members checked)
    (hGrounded : ∀ value, checked = .ok value → (rules value).Grounded)
    (hSingle : ∀ value, checked = .ok value → (rules value).places.length ≤ 1)
    (hRules : ∀ value, checked = .ok value → ∀ place cause,
      ⟨place, cause⟩ ∈ (rules value).complaints ↔ place = [] ∧ record.BreaksRule members cause) :
    Agrees (.record record) (.object members) (checked.bind rules) := by
  cases checked with
  | error found =>
      have hSome : found ≠ [] := fun hNone => hFields.grounded (congrArg Except.error hNone)
      have hUnsound : ¬ ∀ field ∈ record.fields, field.Fits members :=
        fun hSound => hSome (hFields.accepts.mpr hSound)
      refine ⟨hFields.grounded, hFields.ordered.imp Field.Before.record, ?_, ?_⟩
      · intro place cause
        rw [breach_record_iff, ← hFields.reports]
        simp [hUnsound]
      · rw [fits_record_iff]
        simp [hSome, hUnsound]
  | ok value =>
      have hSound : ∀ field ∈ record.fields, field.Fits members := hFields.accepts.mp rfl
      have hNone : ∀ place cause, ¬ ∃ field ∈ record.fields, field.Breach members place cause := by
        intro place cause hBreach
        have hMem := (hFields.reports place cause).mpr hBreach
        simp at hMem
      have hComplaints := hRules value rfl
      have hOrdered : (rules value).places.Pairwise (Shape.record record).Before := by
        have hLength := hSingle value rfl
        exact List.pairwise_iff_getElem.mpr fun i j _ _ _ => by omega
      refine ⟨hGrounded value rfl, hOrdered, ?_, ?_⟩
      · intro place cause
        rw [breach_record_iff, Sequence.ok_bind, hComplaints, or_iff_right (hNone place cause)]
        exact and_congr_right fun _ => (and_iff_right hSound).symm
      · rw [fits_record_iff, Sequence.ok_bind, List.eq_nil_iff_forall_not_mem]
        constructor
        · intro hNothing
          refine ⟨hSound, ?_⟩
          intro cause hBroken
          exact hNothing _ ((hComplaints [] cause).mpr ⟨rfl, hBroken⟩)
        · rintro ⟨-, hRule⟩ ⟨place, cause⟩ hMem
          exact hRule cause ((hComplaints place cause).mp hMem).2

/-- An object for which there are no rules. -/
theorem FieldsAgree.record (record : Record) {checked : Checked α}
    (hFields : FieldsAgree record.fields members checked)
    (hRules : ∀ cause, ¬ record.BreaksRule members cause) :
    Agrees (.record record) (.object members) checked := by
  have hAgrees : Agrees (.record record) (.object members) (checked.bind .ok) :=
    record_agrees hFields (fun value _ => Checked.grounded_ok value) (by simp) (by simp [hRules])
  cases checked <;> exact hAgrees

end Fields

/-- What is no object breaches the shape of one at its own place, and only there. -/
theorem complain_notObject_agrees {record : Record} {json : Json}
    (hOther : ∀ members, json ≠ .object members) :
    Agrees (.record record) json (.complain .notObject : Checked α) := by
  refine ⟨Checked.grounded_complain _, by simp, ?_, by simp, ?_⟩
  · intro place cause
    simp only [Checked.complaints_complain, List.mem_singleton, Complaint.mk.injEq]
    constructor
    · rintro ⟨rfl, rfl⟩
      exact .notObject hOther
    · intro hBreach
      cases hBreach with
      | notObject other => exact ⟨rfl, rfl⟩
      | _ => exact (hOther _ rfl).elim
  · rintro ⟨⟩
    exact (hOther _ rfl).elim

/-- The check of attributes agrees with their shape. -/
theorem note_agrees (json : Json) : Agrees (.record .note) json (note json) := by
  cases json with
  | object members =>
      have hPath := required_agrees members "path" fun value _ => text_agrees value
      have hArguments := optional_agrees members "arguments" none fun value _ =>
        nullable_agrees (text_agrees value)
      exact FieldsAgree.record .note ((hPath.map Note.mk).apply hArguments) nofun
  | _ => exact complain_notObject_agrees nofun

section Item

variable {members : List (String × Json)}

/-- The fields of an item, before its rules are looked at. -/
def itemFields (members : List (String × Json)) (items : Checked (Option (List Item))) :
    Checked Item :=
  let kind := (required members "kind" text).map Item.mk
  let named := Checked.apply kind (optional members "name" none (nullable text))
  let noted := Checked.apply named (optional members "annotations" [] (list note))
  let generic := Checked.apply noted (optional members "generics" [] (list text))
  let filled := Checked.apply generic items
  let typed := Checked.apply filled (optional members "self_type" none (nullable text))
  Checked.apply typed (optional members "trait" none (nullable text))

theorem itemWith_eq (items : Checked (Option (List Item))) :
    itemWith members items = (itemFields members items).bind itemRules := rfl

/-- The fields of an item are read one by one. The items inside stand between the
others, but are read by a check of their own. -/
theorem itemFields_eq_ok_iff (items : Checked (Option (List Item))) (result : Item) :
    itemFields members items = .ok result ↔
      required members "kind" text = .ok result.kind ∧
        optional members "name" none (nullable text) = .ok result.name ∧
        optional members "annotations" [] (list note) = .ok result.attributes ∧
        optional members "generics" [] (list text) = .ok result.generics ∧
        items = .ok result.items ∧
        optional members "self_type" none (nullable text) = .ok result.selfType ∧
        optional members "trait" none (nullable text) = .ok result.capability := by
  simp only [itemFields, Checked.apply_eq_ok_iff, Sequence.map_eq_ok_iff]
  constructor
  · rintro ⟨_, capability, ⟨_, selfType, ⟨_, inner, ⟨_, generics, ⟨_, attributes, ⟨_, name,
      ⟨kind, hKind, rfl⟩, hName, rfl⟩, hAttributes, rfl⟩, hGenerics, rfl⟩, hItems, rfl⟩,
      hSelfType, rfl⟩, hCapability, rfl⟩
    exact ⟨hKind, hName, hAttributes, hGenerics, hItems, hSelfType, hCapability⟩
  · obtain ⟨kind, name, attributes, generics, inner, selfType, capability⟩ := result
    rintro ⟨hKind, hName, hAttributes, hGenerics, hItems, hSelfType, hCapability⟩
    exact ⟨_, _, ⟨_, _, ⟨_, _, ⟨_, _, ⟨_, _, ⟨_, _, ⟨_, hKind, rfl⟩, hName, rfl⟩, hAttributes,
      rfl⟩, hGenerics, rfl⟩, hItems, rfl⟩, hSelfType, rfl⟩, hCapability, rfl⟩

/-- The items inside an item are checked as a list that may be null. -/
theorem nullableItems_eq (json : Json) : nullableItems json = nullable (list item) json := by
  cases json with
  | array items => simp [nullableItems, nullable, list, itemsFrom_eq]
  | _ => simp [nullableItems, nullable, list, Checked.complain]

/-- The items of an item are one field among the others. -/
theorem item_object (members : List (String × Json)) :
    item (.object members) =
      (itemFields members (optional members "items" none (nullable (list item)))).bind
        itemRules := by
  rw [item, itemWith_eq, itemsField?_eq, optional]
  cases Json.member? "items" members with
  | none => rfl
  | some value => rw [Option.map_some, Option.getD_some, nullableItems_eq]

theorem required_text_eq_ok_iff {key found : String} :
    required members key text = .ok found ↔
      Json.member? key members = some (.string found) := by
  simp [required_eq_ok_iff, text_eq_ok_iff]

/-- An optional text is missing, null, or there. -/
theorem hasText_iff {key : String} {found : Option String}
    (hFound : optional members key none (nullable text) = .ok found) :
    HasText members key ↔ ∃ content, found = some content ∧ content ≠ "" := by
  unfold HasText
  simp only [optional_eq_ok_iff, nullable_eq_ok_iff, text_eq_ok_iff] at hFound
  obtain ⟨hNone, rfl⟩ | ⟨_, hSome, ⟨rfl, rfl⟩ | ⟨-, content, rfl, rfl⟩⟩ := hFound
  · simp [hNone]
  · simp [hSome]
  · simp [hSome]

theorem isEmpty_getD_iff (found : Option String) :
    (found.getD "").isEmpty = true ↔ ¬ ∃ content, found = some content ∧ content ≠ "" := by
  cases found <;> simp

/-- An item either has what its kind asks for, or it is complained about for
that one reason. -/
theorem mem_complaints_itemRules {items : Checked (Option (List Item))} {result : Item}
    (hFields : itemFields members items = .ok result) (place : List Step)
    (cause : Complaint.Cause) :
    ⟨place, cause⟩ ∈ (itemRules result).complaints ↔
      place = [] ∧ Record.item.BreaksRule members cause := by
  obtain ⟨hKind, hName, -, -, -, hSelfType, -⟩ := (itemFields_eq_ok_iff _ _).mp hFields
  rw [required_text_eq_ok_iff] at hKind
  have hNameless : (result.name.getD "").isEmpty = true ↔ ¬ HasText members "name" := by
    rw [hasText_iff hName, isEmpty_getD_iff]
  have hTypeless : (result.selfType.getD "").isEmpty = true ↔ ¬ HasText members "self_type" := by
    rw [hasText_iff hSelfType, isEmpty_getD_iff]
  have hBroken : Record.item.BreaksRule members cause ↔
      (result.kind ∈ namedKinds ∧ (result.name.getD "").isEmpty = true ∧
        cause = .unnamed result.kind) ∨
      (result.kind = implementationKind ∧ (result.selfType.getD "").isEmpty = true ∧
        cause = .noSelfType) := by
    rw [hNameless, hTypeless]
    constructor
    · intro hBroken
      cases hBroken with
      | unnamed named found nameless =>
          obtain rfl : result.kind = _ := by simpa [hKind] using found
          exact .inl ⟨named, nameless, rfl⟩
      | noSelfType found typeless =>
          exact .inr ⟨by simpa [hKind, implementationKind] using found, typeless, rfl⟩
    · rintro (⟨hNamed, hEmpty, rfl⟩ | ⟨hImplementation, hEmpty, rfl⟩)
      · exact .unnamed hNamed hKind hEmpty
      · rw [hImplementation] at hKind
        exact .noSelfType hKind hEmpty
  have hDistinct : implementationKind ∉ namedKinds := by decide
  rw [hBroken, itemRules]
  by_cases hNamed : result.kind ∈ namedKinds
  · have hOther : result.kind ≠ implementationKind := fun hEq => hDistinct (hEq ▸ hNamed)
    by_cases hEmpty : (result.name.getD "").isEmpty = true <;>
      simp [hNamed, hOther, hEmpty]
  · by_cases hImplementation : result.kind = implementationKind <;>
      by_cases hEmpty : (result.selfType.getD "").isEmpty = true <;>
        simp [hNamed, hImplementation, hEmpty, hDistinct]

theorem itemRules_grounded (result : Item) : (itemRules result).Grounded := by
  unfold itemRules
  split_ifs
  · exact Checked.grounded_complain _
  · exact Checked.grounded_complain _
  · exact Checked.grounded_ok result

theorem itemRules_single (result : Item) : (itemRules result).places.length ≤ 1 := by
  unfold itemRules
  split_ifs <;> simp

end Item

/-- The check of items agrees with their shape. The induction is on the value, with
the items of its fields as the smaller ones; each field is one step to the whole. -/
theorem item_agrees (json : Json) : Agrees (.record .item) json (item json) := by
  induction json using Json.items_induction with
  | step json ih =>
      cases json with
      | object members =>
          rw [item_object]
          have hKind := required_agrees members "kind" fun value _ => text_agrees value
          have hText := fun key => optional_agrees members key none fun value _ =>
            nullable_agrees (text_agrees value)
          have hAttributes := optional_agrees members "annotations" [] fun value _ =>
            list_agrees fun items _ item _ => note_agrees item
          have hGenerics := optional_agrees members "generics" [] fun value _ =>
            list_agrees fun items _ item _ => text_agrees item
          have hItems := optional_agrees members "items" none fun value hMember =>
            nullable_agrees (list_agrees fun items hArray inner hInner =>
              ih members "items" items rfl (hArray ▸ hMember) inner hInner)
          have hFields := (((((hKind.map Item.mk).apply (hText "name")).apply hAttributes).apply
            hGenerics).apply hItems).apply (hText "self_type") |>.apply (hText "trait")
          exact record_agrees hFields (fun result _ => itemRules_grounded result)
            (fun result _ => itemRules_single result)
            fun result hResult => mem_complaints_itemRules hResult
      | _ => exact complain_notObject_agrees nofun

section SourceFile

variable {members : List (String × Json)}

/-- The fields of a source file, before its rule is looked at. -/
def sourceFields (members : List (String × Json)) : Checked SourceFile :=
  let file := (required members "file" text).map SourceFile.mk
  let placed := Checked.apply file (optional members "namespace" none (nullable (list text)))
  Checked.apply placed (optional members "items" [] (list item))

theorem sourceFile_object (members : List (String × Json)) :
    sourceFile (.object members) = (sourceFields members).bind sourceFileRules := rfl

/-- The fields of a source file are read one by one. -/
theorem sourceFields_eq_ok_iff (result : SourceFile) :
    sourceFields members = .ok result ↔
      required members "file" text = .ok result.file ∧
        optional members "namespace" none (nullable (list text)) = .ok result.scope ∧
        optional members "items" [] (list item) = .ok result.items := by
  simp only [sourceFields, Checked.apply_eq_ok_iff, Sequence.map_eq_ok_iff]
  constructor
  · rintro ⟨_, items, ⟨_, scope, ⟨file, hFile, rfl⟩, hScope, rfl⟩, hItems, rfl⟩
    exact ⟨hFile, hScope, hItems⟩
  · obtain ⟨file, scope, items⟩ := result
    rintro ⟨hFile, hScope, hItems⟩
    exact ⟨_, _, ⟨_, _, ⟨_, hFile, rfl⟩, hScope, rfl⟩, hItems, rfl⟩

/-- A scope without segments is there exactly if the field is an empty list. -/
theorem scope_eq_nil_iff {scope : Option (List String)}
    (hScope : optional members "namespace" none (nullable (list text)) = .ok scope) :
    scope = some [] ↔ Json.member? "namespace" members = some (.array []) := by
  simp only [optional_eq_ok_iff, nullable_eq_ok_iff, list_eq_ok_iff] at hScope
  obtain ⟨hNone, rfl⟩ | ⟨_, hSome, ⟨rfl, rfl⟩ | ⟨-, segments, ⟨items, rfl, hEach⟩, rfl⟩⟩ := hScope
  · simp [hNone]
  · simp [hSome]
  · simp only [hSome, Option.some.injEq, Json.array.injEq, ← List.length_eq_zero_iff,
      hEach.length_eq]

/-- A source file either has a scope with segments or none at all, or it is
complained about. -/
theorem mem_complaints_sourceFileRules {result : SourceFile}
    (hFields : sourceFields members = .ok result) (place : List Step)
    (cause : Complaint.Cause) :
    ⟨place, cause⟩ ∈ (sourceFileRules result).complaints ↔
      place = [] ∧ Record.sourceFile.BreaksRule members cause := by
  have hScope := scope_eq_nil_iff ((sourceFields_eq_ok_iff result).mp hFields).2.1
  have hBroken : Record.sourceFile.BreaksRule members cause ↔
      result.scope = some [] ∧ cause = .emptyScope := by
    rw [hScope]
    constructor
    · rintro ⟨⟩
      exact ⟨by assumption, rfl⟩
    · rintro ⟨hEmpty, rfl⟩
      exact .emptyScope hEmpty
  rw [hBroken, sourceFileRules]
  by_cases hEmpty : result.scope = some [] <;> simp [hEmpty]

theorem sourceFileRules_grounded (result : SourceFile) : (sourceFileRules result).Grounded := by
  unfold sourceFileRules
  split_ifs
  · exact Checked.grounded_complain _
  · exact Checked.grounded_ok result

theorem sourceFileRules_single (result : SourceFile) :
    (sourceFileRules result).places.length ≤ 1 := by
  unfold sourceFileRules
  split_ifs <;> simp

end SourceFile

/-- The check of source files agrees with their shape. -/
theorem sourceFile_agrees (json : Json) :
    Agrees (.record .sourceFile) json (sourceFile json) := by
  cases json with
  | object members =>
      rw [sourceFile_object]
      have hFile := required_agrees members "file" fun value _ => text_agrees value
      have hScope := optional_agrees members "namespace" none fun value _ =>
        nullable_agrees (list_agrees fun items _ item _ => text_agrees item)
      have hItems := optional_agrees members "items" [] fun value _ =>
        list_agrees fun items _ inner _ => item_agrees inner
      exact record_agrees (((hFile.map SourceFile.mk).apply hScope).apply hItems)
        (fun result _ => sourceFileRules_grounded result)
        (fun result _ => sourceFileRules_single result)
        fun result hResult => mem_complaints_sourceFileRules hResult
  | _ => exact complain_notObject_agrees nofun

/-- The check of dumps agrees with their shape. -/
theorem ofJson_agrees (json : Json) : Agrees (.record .dump) json (ofJson json) := by
  cases json with
  | object members =>
      have hFiles := required_agrees members "files" fun value _ =>
        list_agrees fun items _ inner _ => sourceFile_agrees inner
      exact FieldsAgree.record .dump (hFiles.map Dump.mk) nofun
  | _ => exact complain_notObject_agrees nofun

/-- A value is accepted as a dump exactly when it fits the shape of one, at every
depth. One that is not accepted is complained about, and the complaints are its
breaches with the places where they are: none is missed and none is made up. They
come in the order of their places, and there are no two of one place. -/
theorem ofJson_complains_exactly_of_breaches (json : Json) :
    ((∃ dump, ofJson json = .ok dump) ↔ (Shape.record .dump).Fits json) ∧
    ((ofJson json).complaints = [] ↔ (Shape.record .dump).Fits json) ∧
    (∀ place cause, ⟨place, cause⟩ ∈ (ofJson json).complaints ↔
      (Shape.record .dump).Breach json place cause) ∧
    (ofJson json).places.Pairwise (Shape.record .dump).Before ∧
    (ofJson json).places.Nodup := by
  have hAgrees := ofJson_agrees json
  refine ⟨?_, hAgrees.accepts, hAgrees.reports, hAgrees.ordered,
    hAgrees.ordered.imp Shape.Before.ne⟩
  rw [hAgrees.grounded.exists_eq_ok_iff, hAgrees.accepts]

end ApiSurvey.Dump
