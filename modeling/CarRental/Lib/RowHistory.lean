import CarRental.Lib.Table

/-!
# CarRental.Lib.RowHistory

**One row of a table over time.** Between two moments a row of an auto-increment table
can change, and it can be removed; a key below the counter never gets a second row.
`Table.RowKept R k t t'` says that this is all that happened to the row with the key `k`
from `t` to `t'`, and that the changes are within `R`. It composes as `R` does, so it is
proved for single operations and holds of runs.
-/

namespace Lib.Table

variable {α : Type} {R : α → α → Prop} {k j : Nat} {t t' t'' : Table α} {a b : α}

/-- What is under the key `k` later was there before, up to `R`, unless the key is new. -/
structure RowKept (R : α → α → Prop) (k : Nat) (t t' : Table α) : Prop where
  nextId : t.nextId ≤ t'.nextId
  row : ∀ {a'}, t'.get? k = some a' → k < t.nextId → ∃ a, t.get? k = some a ∧ R a a'

namespace RowKept

theorem trans {S T : α → α → Prop} (hR : ∀ {a b c}, R a b → S b c → T a c)
    (h : RowKept R k t t') (h' : RowKept S k t' t'') : RowKept T k t t'' := by
  refine ⟨Nat.le_trans h.nextId h'.nextId, fun hk hlt => ?_⟩
  obtain ⟨a', ha', hR'⟩ := h'.row hk (Nat.lt_of_lt_of_le hlt h.nextId)
  obtain ⟨a, ha, hRa⟩ := h.row ha' hlt
  exact ⟨a, ha, hR hRa hR'⟩

section Refl

variable (hR : ∀ a, R a a)

include hR

theorem refl (k : Nat) (t : Table α) : RowKept R k t t :=
  ⟨Nat.le_refl _, fun hk _ => ⟨_, hk, hR _⟩⟩

theorem insert (k : Nat) (t : Table α) (a : α) : RowKept R k t (t.insert a) := by
  refine ⟨Nat.le_succ _, fun hk hlt => ?_⟩
  rcases get?_insert_eq_some.mp hk with ⟨rfl, -⟩ | hk
  · exact absurd hlt (Nat.lt_irrefl _)
  · exact ⟨_, hk, hR _⟩

theorem delete (k j : Nat) (t : Table α) : RowKept R k t (t.delete j) := by
  refine ⟨Nat.le_refl _, fun hk _ => ?_⟩
  rw [get?_delete] at hk
  split at hk
  · exact absurd hk (by simp)
  · exact ⟨_, hk, hR _⟩

/-- A row is overwritten: another one, or this one within `R`. -/
theorem set (hj : t.get? j = some a) (hb : j = k → R a b) : RowKept R k t (t.set j b) := by
  refine ⟨Nat.le_refl _, fun hk _ => ?_⟩
  rcases (get?_set_eq_some hj).mp hk with ⟨rfl, rfl⟩ | ⟨-, hk⟩
  · exact ⟨a, hj, hb rfl⟩
  · exact ⟨_, hk, hR _⟩

end Refl

end RowKept

end Lib.Table
