import ApiSurvey.Disk.Basic
import Mathlib.Tactic.Common

/-! Locations that cannot be asked for. A null character in a location is found before
anything on the disk is looked at, and nothing else makes a location such a one. -/
namespace ApiSurvey

namespace FileTree

/-- Following names asks for no null character: locations that hold one are refused
before. -/
theorem follow_ne_nullCharacter (way : List (String × FileTree)) (place : FileTree)
    (names : List String) : follow way place names ≠ .error .nullCharacter := by
  induction names generalizing way place with
  | nil => simp [follow]
  | cons name names ih =>
      rw [follow.eq_def]
      dsimp only
      split
      · simp
      · split_ifs
        · split
          · exact ih _ _
          · exact ih _ _
        · simp
        · split
          · simp
          · exact ih _ _

end FileTree

/-- Only a null character in it makes a location one that cannot be asked for. -/
theorem Disk.readBytes_ne_nullCharacter {location : Location} (hNull : location.hasNull = false)
    (disk : Disk) : disk.readBytes location ≠ .error .nullCharacter := by
  have hArrive : disk.arrive location ≠ .error .nullCharacter := by
    rw [arrive, if_neg (by simp [hNull])]
    split_ifs
    · simp
    · exact FileTree.follow_ne_nullCharacter [] disk.tree _
  unfold readBytes locate
  cases hArrived : disk.arrive location with
  | error failure =>
      rw [hArrived] at hArrive
      simpa [Except.map] using hArrive
  | ok arrived =>
      obtain ⟨names, found⟩ := arrived
      cases found <;> simp [Except.map]

/-- A location cannot be asked for exactly if it holds a null character. -/
theorem Disk.readBytes_eq_nullCharacter_iff (disk : Disk) (location : Location) :
    disk.readBytes location = .error .nullCharacter ↔ location.hasNull = true := by
  constructor
  · intro hRead
    by_contra hNull
    exact readBytes_ne_nullCharacter (Bool.not_eq_true _ ▸ hNull) disk hRead
  · intro hNull
    simp [readBytes, locate, arrive, hNull, Except.map]

end ApiSurvey
