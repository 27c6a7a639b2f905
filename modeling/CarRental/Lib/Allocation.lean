import Mathlib.Data.List.Basic

/-!
# CarRental.Lib.Allocation

**First come, first served.** A list of requests is served in order. Each request
asks for one resource, its `key`; a request is granted when the resource is
still free, and takes it.

`grants` is the scan; `mem_grants` says which requests it grants without
mentioning the scan: of every free resource, the first request that asks for it.
-/

namespace Lib

variable {α κ : Type} [DecidableEq κ] {key : α → κ} {free : κ → Bool} {l : List α} {a : α}

/-- The requests of `l` that are granted when the resources `free` are free. -/
def grants (key : α → κ) (free : κ → Bool) : List α → List α
  | [] => []
  | a :: rest =>
    if free (key a) then a :: grants key (fun k => free k && k ≠ key a) rest
    else grants key free rest

/-- Granted are exactly the first requests for the resources that are free. -/
theorem mem_grants : a ∈ grants key free l ↔ free (key a) = true ∧
    ∃ pre post, l = pre ++ a :: post ∧ ∀ b ∈ pre, key b ≠ key a := by
  induction l generalizing free with
  | nil => simp [grants]
  | cons b rest ih =>
    -- the first request for `key a` is the head, or it is further on and the head is for another
    have hsplit : (∃ pre post, b :: rest = pre ++ a :: post ∧ ∀ x ∈ pre, key x ≠ key a) ↔
        a = b ∨ key b ≠ key a ∧
          ∃ pre post, rest = pre ++ a :: post ∧ ∀ x ∈ pre, key x ≠ key a := by
      constructor
      · rintro ⟨pre, post, heq, hpre⟩
        cases pre with
        | nil => exact Or.inl (List.cons.inj heq).1.symm
        | cons x pre =>
          obtain ⟨rfl, hrest⟩ := List.cons.inj heq
          exact Or.inr ⟨hpre b List.mem_cons_self, pre, post, hrest,
            fun y hy => hpre y (List.mem_cons_of_mem _ hy)⟩
      · rintro (rfl | ⟨hb, pre, post, hrest, hpre⟩)
        · exact ⟨[], rest, rfl, by simp⟩
        · refine ⟨b :: pre, post, by rw [hrest, List.cons_append], ?_⟩
          intro y hy
          rcases List.mem_cons.mp hy with rfl | hy
          · exact hb
          · exact hpre y hy
    rw [hsplit]
    unfold grants
    by_cases hfree : free (key b) = true
    · rw [if_pos hfree, List.mem_cons, ih]
      grind
    · rw [if_neg hfree, ih]
      grind

theorem mem_of_mem_grants (h : a ∈ grants key free l) : a ∈ l := by
  obtain ⟨-, pre, post, rfl, -⟩ := mem_grants.mp h
  simp

theorem free_of_mem_grants (h : a ∈ grants key free l) : free (key a) = true :=
  (mem_grants.mp h).1

/-- A resource that is free and asked for is granted to someone. -/
theorem exists_mem_grants (ha : a ∈ l) (hfree : free (key a) = true) :
    ∃ b ∈ grants key free l, key b = key a := by
  induction l generalizing free with
  | nil => simp at ha
  | cons b rest ih =>
    unfold grants
    by_cases hkey : key b = key a
    · rw [if_pos (hkey ▸ hfree)]
      exact ⟨b, List.mem_cons_self, hkey⟩
    · have hrest : a ∈ rest := by
        rcases List.mem_cons.mp ha with rfl | hrest
        · exact absurd rfl hkey
        · exact hrest
      split
      · obtain ⟨c, hc, hck⟩ : ∃ c ∈ grants key (fun k => free k && k ≠ key b) rest,
            key c = key a := ih hrest (by simpa [hfree] using Ne.symm hkey)
        exact ⟨c, List.mem_cons_of_mem _ hc, hck⟩
      · exact ih hrest hfree

theorem grants_eq_nil (h : ∀ a ∈ l, free (key a) = false) : grants key free l = [] := by
  refine List.eq_nil_iff_forall_not_mem.mpr fun a ha => ?_
  have hfree := free_of_mem_grants ha
  rw [h a (mem_of_mem_grants ha)] at hfree
  exact Bool.false_ne_true hfree

/-- Withdrawing requests that would not have been granted changes nothing. -/
theorem grants_filter {p : α → Bool} (h : ∀ a ∈ grants key free l, p a = true) :
    grants key free (l.filter p) = grants key free l := by
  induction l generalizing free with
  | nil => rfl
  | cons b rest ih =>
    rw [grants] at h ⊢
    by_cases hfree : free (key b) = true
    · rw [if_pos hfree] at h ⊢
      rw [List.filter_cons_of_pos (h b List.mem_cons_self), grants, if_pos hfree,
        ih fun a ha => h a (List.mem_cons_of_mem _ ha)]
    · rw [if_neg hfree] at h ⊢
      by_cases hp : p b = true
      · rw [List.filter_cons_of_pos hp, grants, if_neg hfree, ih h]
      · rw [List.filter_cons_of_neg hp, ih h]

end Lib
