import ApiSurvey.Proofs.Settings.Markers
import Mathlib.Data.List.Nodup

/-! Settings in several layers. A key that a table sets to nothing shows the layer below, but the
table keeps it where it is the lowest one. However the layers are grouped, every key is in the
end what the topmost layer says that sets it. -/
namespace ApiSurvey

namespace Keyed

variable {α : Type}

/-- A key that was there keeps its place, and a new one goes to the end. -/
theorem map_fst_set (entries : List (String × α)) (key : String) (value : α) :
    (set entries key value).map Prod.fst =
      if key ∈ entries.map Prod.fst then entries.map Prod.fst
      else entries.map Prod.fst ++ [key] := by
  induction entries with
  | nil => rfl
  | cons entry entries ih =>
      obtain ⟨first, old⟩ := entry
      rw [set]
      by_cases hFirst : first = key
      · simp [hFirst]
      · simp only [beq_false_of_ne hFirst, Bool.false_eq_true, if_false, List.map_cons, ih,
          List.mem_cons, Ne.symm hFirst, false_or]
        split <;> rfl

/-- Setting a key keeps keys distinct. -/
theorem nodup_set {entries : List (String × α)} (hKeys : (entries.map Prod.fst).Nodup)
    (key : String) (value : α) : ((set entries key value).map Prod.fst).Nodup := by
  rw [map_fst_set]
  split
  · exact hKeys
  · next hNew =>
    rw [← List.concat_eq_append]
    exact hKeys.concat hNew

end Keyed

namespace SettingTable

/-- Laying a table over another keeps its keys distinct. -/
theorem nodup_laidOver (top : SettingTable) {below : SettingTable}
    (hBelow : (below.map Prod.fst).Nodup) : ((top.laidOver below).map Prod.fst).Nodup := by
  induction top generalizing below with
  | nil => exact hBelow
  | cons entry top ih =>
      obtain ⟨key, value⟩ := entry
      by_cases hValue : value = .null
      · subst hValue
        rw [laidOver_cons_null]
        exact ih hBelow
      · rw [laidOver_cons_of_ne_null key hValue]
        exact ih (Keyed.nodup_set hBelow key value)

/-- A value that overrides is not null. -/
theorem ne_null_of_override? {table : SettingTable} {key : String} {value : Setting}
    (hFound : table.override? key = some value) : value ≠ .null := by
  rintro rfl
  unfold override? at hFound
  split at hFound
  · cases hFound
  · next hOther => exact hOther hFound

/-- What two layers set a key to: nothing in the lower one counts as little as nothing in the
upper one. -/
theorem override?_laidOver {top : SettingTable} (hTop : (top.map Prod.fst).Nodup)
    (below : SettingTable) (key : String) :
    (top.laidOver below).override? key = (top.override? key).or (below.override? key) := by
  have hGet := get?_laidOver hTop below key
  cases hFound : top.override? key with
  | some value =>
      rw [hFound] at hGet
      exact override?_eq_of_get? hGet (ne_null_of_override? hFound)
  | none =>
      rw [hFound, Option.none_or] at hGet
      rw [override?, hGet]
      rfl

/-- In three layers that are laid over each other from below, the topmost one that sets a key
decides. -/
theorem get?_laidOver_laidOver {top middle : SettingTable} (hTop : (top.map Prod.fst).Nodup)
    (hMiddle : (middle.map Prod.fst).Nodup) (below : SettingTable) (key : String) :
    (top.laidOver (middle.laidOver below)).get? key =
      (top.override? key).or ((middle.override? key).or (below.get? key)) := by
  rw [get?_laidOver hTop, get?_laidOver hMiddle]

/-- Three layers give every key the same setting in either grouping, that of the topmost one
that sets it. A layer that is laid over once more changes nothing. So the marker names come out
the same, or are refused for the same fault, wherever the overrides end and the settings
begin. -/
theorem layers_group_either_way {top middle : SettingTable} (hTop : (top.map Prod.fst).Nodup)
    (hMiddle : (middle.map Prod.fst).Nodup) (below : SettingTable) :
    (∀ key, (top.laidOver (middle.laidOver below)).get? key =
      ((top.laidOver middle).laidOver below).get? key) ∧
    (∀ key, (top.laidOver (middle.laidOver below)).get? key =
      (top.override? key).or ((middle.override? key).or (below.get? key))) ∧
    (∀ key, (top.laidOver (top.laidOver below)).get? key = (top.laidOver below).get? key) ∧
    MarkerNames.resolve top (middle.laidOver below) =
      MarkerNames.resolve (top.laidOver middle) below := by
  have hLayers := get?_laidOver_laidOver hTop hMiddle below
  have hGroup (key : String) : (top.laidOver (middle.laidOver below)).get? key =
      ((top.laidOver middle).laidOver below).get? key := by
    rw [hLayers, get?_laidOver (nodup_laidOver top hMiddle), override?_laidOver hTop,
      Option.or_assoc]
  refine ⟨hGroup, hLayers, fun key => ?_, ?_⟩
  · rw [get?_laidOver_laidOver hTop hTop, ← Option.or_assoc, Option.or_self, get?_laidOver hTop]
  · exact MarkerNames.ofSettings_congr fun slot _ => hGroup slot.1

/-- A function name that the middle layer sets to nothing shows the one below, and a response
name that is nothing in the lowest layer is refused, in either grouping. -/
theorem layers_group_either_way_around_nothing :
    MarkerNames.resolve [("model", .string "Schema")]
        (laidOver [("model", .null), ("function", .null)]
          [("function", .string "route"), ("response", .null)]) =
      .error (.badMarker "response" .null) ∧
    MarkerNames.resolve
        (laidOver [("model", .string "Schema")] [("model", .null), ("function", .null)])
        [("function", .string "route"), ("response", .null)] =
      .error (.badMarker "response" .null) := by
  have hGroup := @layers_group_either_way [("model", .string "Schema")]
    [("model", .null), ("function", .null)] (by decide) (by decide)
    [("function", .string "route"), ("response", .null)]
  have hBelow : MarkerNames.resolve [("model", .string "Schema")]
        (laidOver [("model", .null), ("function", .null)]
          [("function", .string "route"), ("response", .null)]) =
      .error (.badMarker "response" .null) := rfl
  exact ⟨hBelow, hGroup.2.2.2.symm.trans hBelow⟩

/-- The order of the keys is not the same: a key that the middle layer sets to nothing has its
place there only if the upper one is laid over it first. -/
example :
    laidOver [("model", .bool true)]
        (laidOver [("model", .null), ("function", .bool true)] []) =
      [("function", .bool true), ("model", .bool true)] ∧
    laidOver (laidOver [("model", .bool true)] [("model", .null), ("function", .bool true)]) [] =
      [("model", .bool true), ("function", .bool true)] :=
  ⟨rfl, rfl⟩

end SettingTable

end ApiSurvey
