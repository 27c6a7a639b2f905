import CarRental.Lib.Transaction

/-!
# CarRental.Lib.Throws

**What a computation may throw.** `ThrowsOnly E x` says that whatever `x` throws lies in
`E`; a computation that always returns throws only errors in the empty set. The rules
follow the ways computations in `Except` are put together. The rule for sequences hands
the result of the first half to the second, so that a guard the first half has passed
can be used to show that the second half does not throw.
-/

namespace Lib

variable {ε α β : Type} {E F : ε → Prop}

/-- Every error the computation throws is one of `E`. -/
def ThrowsOnly (E : ε → Prop) (x : Except ε α) : Prop := ∀ e, x = .error e → E e

namespace ThrowsOnly

theorem ok (a : α) : ThrowsOnly E (.ok a : Except ε α) := by
  intro e h
  simp at h

theorem error {e : ε} (h : E e) : ThrowsOnly E (.error e : Except ε α) := by
  intro e' h'
  obtain rfl := Except.error.inj h'
  exact h

/-- A computation that returns throws nothing. -/
theorem of_returns {x : Except ε α} (h : ∃ a, x = .ok a) : ThrowsOnly E x := by
  obtain ⟨a, rfl⟩ := h
  exact .ok a

theorem mono {x : Except ε α} (h : ThrowsOnly E x) (hEF : ∀ e, E e → F e) : ThrowsOnly F x :=
  fun e he => hEF e (h e he)

theorem throwIf {p : Prop} [Decidable p] {e : ε} (h : p → E e) :
    ThrowsOnly E (Lib.throwIf p e) := by
  unfold Lib.throwIf
  split
  · next hp => exact .error (h hp)
  · exact .ok ()

theorem orThrow {x : Option α} {e : ε} (h : x = none → E e) : ThrowsOnly E (Lib.orThrow x e) := by
  cases x with
  | none => exact .error (h rfl)
  | some a => exact .ok a

/-- The second half of a sequence runs on what the first half returned. -/
theorem bind {x : Except ε α} {f : α → Except ε β} (hx : ThrowsOnly E x)
    (hf : ∀ a, x = .ok a → ThrowsOnly E (f a)) : ThrowsOnly E (x >>= f) := by
  cases x with
  | error e => exact .error (hx e rfl)
  | ok a => exact hf a rfl

theorem map {x : Except ε α} {f : α → β} (hx : ThrowsOnly E x) : ThrowsOnly E (x.map f) := by
  cases x with
  | error e => exact .error (hx e rfl)
  | ok a => exact .ok (f a)

/-- A loop throws what its iterations throw. -/
theorem mapM {f : α → Except ε β} {l : List α} (h : ∀ a ∈ l, ThrowsOnly E (f a)) :
    ThrowsOnly E (l.mapM f) := by
  induction l with
  | nil => exact .ok []
  | cons a rest ih =>
    rw [List.mapM_cons]
    refine .bind (h a List.mem_cons_self) fun b _ => ?_
    refine .bind (ih fun x hx => h x (List.mem_cons_of_mem _ hx)) fun bs _ => ?_
    exact .ok (b :: bs)

end ThrowsOnly

end Lib
