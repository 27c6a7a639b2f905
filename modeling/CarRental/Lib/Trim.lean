import Mathlib.Data.List.DropRight

/-!
# CarRental.Lib.Trim

**Trimming** a list at both ends, for any notion of blank.
-/

namespace Lib

variable {α : Type} {isBlank : α → Bool} {l : List α}

/-- The list without the blanks at its two ends. -/
def trimEnds (isBlank : α → Bool) (l : List α) : List α :=
  (l.dropWhile isBlank).rdropWhile isBlank

theorem trimEnds_of_none (h : ∀ a ∈ l, isBlank a = false) : trimEnds isBlank l = l := by
  cases l with
  | nil => rfl
  | cons a rest =>
    unfold trimEnds
    rw [List.dropWhile_cons_of_neg (by simp [h a List.mem_cons_self]), List.rdropWhile_eq_self_iff]
    intro hne
    simp [h _ (List.getLast_mem hne)]

/-- A trimmed list has nothing left to trim. -/
@[simp] theorem trimEnds_trimEnds (isBlank : α → Bool) (l : List α) :
    trimEnds isBlank (trimEnds isBlank l) = trimEnds isBlank l := by
  unfold trimEnds
  have hdrop : ((l.dropWhile isBlank).rdropWhile isBlank).dropWhile isBlank =
      (l.dropWhile isBlank).rdropWhile isBlank := by
    cases hm : (l.dropWhile isBlank).rdropWhile isBlank with
    | nil => rfl
    | cons a rest =>
      -- the first sign left was the first one behind the blanks
      obtain ⟨tail, htail⟩ : a :: rest <+: l.dropWhile isBlank :=
        hm ▸ List.rdropWhile_prefix isBlank _
      have hne : l.dropWhile isBlank ≠ [] := by
        rw [← htail]
        simp
      have hhead := List.head_dropWhile_not isBlank hne
      simp only [← htail, List.cons_append, List.head_cons] at hhead
      exact List.dropWhile_cons_of_neg (by simp [hhead])
  rw [hdrop, List.rdropWhile_idempotent]

end Lib
