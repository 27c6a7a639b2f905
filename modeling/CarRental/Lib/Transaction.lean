import Mathlib.Data.List.Forall2
import Mathlib.Logic.Relation

/-!
# CarRental.Lib.Transaction

**Serial transactions.** A transaction over a state `S` is a computation in
`Except` that returns the state it leaves. This module has what proofs about
such computations share, for any state and error type:

* the guards `throwIf` and `orThrow`, with the equations that turn a successful
  run back into the facts it went through (`bind_eq_ok`, `throwIf_eq_ok`,
  `orThrow_eq_ok`), so that a service function is inverted by rewriting and
  never by splitting its body;
* `settle`, the state left once a transaction has ended: its writes when it
  returned, the old state when it threw; and
* `Trace`, the runs of a labelled transition system, with the two induction
  rules everything downstream uses: `Trace.invariant` for what a step keeps and
  `Trace.relates` for what a step can only move forward.
-/

namespace Lib

variable {ε α β S A : Type}

/-! ### Guards -/

/-- `if (p) throw e;` -/
def throwIf (p : Prop) [Decidable p] (e : ε) : Except ε Unit := if p then .error e else .ok ()

/-- `x.orElseThrow(() -> e)` -/
def orThrow (x : Option α) (e : ε) : Except ε α :=
  match x with
  | some a => .ok a
  | none => .error e

@[simp] theorem throwIf_eq_ok {p : Prop} [Decidable p] {e : ε} {u : Unit} :
    throwIf p e = .ok u ↔ ¬ p := by
  unfold throwIf
  split <;> simp [*]

@[simp] theorem orThrow_eq_ok {x : Option α} {e : ε} {a : α} :
    orThrow x e = .ok a ↔ x = some a := by
  cases x <;> simp [orThrow]

/-- A sequence returns exactly when both halves do. -/
@[simp] theorem bind_eq_ok {x : Except ε α} {f : α → Except ε β} {b : β} :
    (x >>= f) = .ok b ↔ ∃ a, x = .ok a ∧ f a = .ok b := by
  cases x with
  | error e => simp [bind, Except.bind]
  | ok a => simp [bind, Except.bind]

theorem exists_bind_ok {x : Except ε α} {f : α → Except ε β} :
    (∃ b, (x >>= f) = .ok b) ↔ ∃ a, x = .ok a ∧ ∃ b, f a = .ok b := by
  cases x with
  | error e => simp [bind, Except.bind]
  | ok a => simp [bind, Except.bind]

@[simp] theorem pure_eq_ok {a b : α} : (pure a : Except ε α) = .ok b ↔ a = b := by
  simp [pure, Except.pure]

@[simp] theorem map_eq_ok {x : Except ε α} {f : α → β} {b : β} :
    x.map f = .ok b ↔ ∃ a, x = .ok a ∧ f a = b := by
  cases x <;> simp [Except.map]

/-- Changing the answer of a sequence is changing the answer of its second half. -/
theorem map_bind_eq {γ : Type} {x : Except ε α} {f : α → Except ε β} {g : β → γ} :
    (x >>= f).map g = x >>= fun a => (f a).map g := by
  cases x <;> rfl

/-- A loop returns the answers of its iterations, one for one. -/
theorem mapM_eq_ok_iff {f : α → Except ε β} {l : List α} {bs : List β} :
    l.mapM f = .ok bs ↔ List.Forall₂ (fun a b => f a = .ok b) l bs := by
  induction l generalizing bs with
  | nil =>
    rw [List.mapM_nil, pure_eq_ok, List.forall₂_nil_left_iff]
    exact eq_comm
  | cons a rest ih =>
    simp only [List.mapM_cons, bind_eq_ok, pure_eq_ok, ih, List.forall₂_cons_left_iff]
    constructor
    · rintro ⟨b, hb, bs, hbs, rfl⟩
      exact ⟨b, bs, hb, hbs, rfl⟩
    · rintro ⟨b, bs, hb, hbs, rfl⟩
      exact ⟨b, hb, bs, hbs, rfl⟩

/-- A loop returns when each of its iterations does. -/
theorem mapM_eq_ok {f : α → Except ε β} {l : List α} (h : ∀ a ∈ l, ∃ b, f a = .ok b) :
    ∃ bs, l.mapM f = .ok bs := by
  induction l with
  | nil => exact ⟨[], rfl⟩
  | cons a rest ih =>
    obtain ⟨b, hb⟩ := h a List.mem_cons_self
    obtain ⟨bs, hbs⟩ := ih fun x hx => h x (List.mem_cons_of_mem _ hx)
    refine ⟨b :: bs, ?_⟩
    rw [List.mapM_cons, hb, hbs]
    rfl

/-- A loop throws `e` when some iteration does and none throws anything else. -/
theorem mapM_eq_error {f : α → Except ε β} {e : ε} {l : List α} {a : α} (ha : a ∈ l)
    (hfail : f a = .error e) (honly : ∀ a ∈ l, ∀ e', f a = .error e' → e' = e) :
    l.mapM f = .error e := by
  induction l with
  | nil => exact absurd ha List.not_mem_nil
  | cons x rest ih =>
    rw [List.mapM_cons]
    cases hx : f x with
    | error e' =>
      obtain rfl := honly x List.mem_cons_self e' hx
      rfl
    | ok b =>
      have hrest : a ∈ rest := by
        rcases List.mem_cons.mp ha with rfl | hrest
        · exact absurd (hfail.symm.trans hx) (by simp)
        · exact hrest
      rw [ih hrest fun y hy => honly y (List.mem_cons_of_mem _ hy)]
      rfl

/-- The state once the transaction has ended: what it returned, or the state it
started from when it threw. -/
def settle (s : S) : Except ε S → S
  | .ok s' => s'
  | .error _ => s

@[simp] theorem settle_ok {s s' : S} : settle s (.ok s' : Except ε S) = s' := rfl
@[simp] theorem settle_error {s : S} {e : ε} : settle s (.error e : Except ε S) = s := rfl

/-! ### Runs of a labelled transition system -/

/-- The runs of the transition system `step`, with the labels they take. -/
inductive Trace (step : A → S → S → Prop) : List A → S → S → Prop
  | nil (s : S) : Trace step [] s s
  | cons {a : A} {as : List A} {s t u : S} :
      step a s t → Trace step as t u → Trace step (a :: as) s u

namespace Trace

variable {step : A → S → S → Prop} {as bs : List A} {s t u : S}

theorem single {a : A} (h : step a s t) : Trace step [a] s t := .cons h (.nil t)

theorem of_single {a : A} (h : Trace step [a] s t) : step a s t := by
  cases h with
  | cons h hnil =>
    cases hnil
    exact h

theorem append (h₁ : Trace step as s t) (h₂ : Trace step bs t u) : Trace step (as ++ bs) s u := by
  induction h₁ with
  | nil => exact h₂
  | cons h _ ih => exact .cons h (ih h₂)

/-- What every step of a run keeps, the run keeps. Only the labels the run takes
matter, so a run over a smaller alphabet keeps more. -/
theorem invariant {I : S → Prop} (h : Trace step as s t)
    (hstep : ∀ a ∈ as, ∀ s t, step a s t → I s → I t) (hs : I s) : I t := by
  induction h with
  | nil => exact hs
  | cons h _ ih =>
    refine ih (fun a ha => hstep a (List.mem_cons_of_mem _ ha)) ?_
    exact hstep _ List.mem_cons_self _ _ h hs

/-- What every step from a good state can only move forward, the run only moves
forward. -/
theorem relates {I : S → Prop} {R : S → S → Prop} (h : Trace step as s t)
    (hrefl : ∀ s, R s s) (htrans : ∀ {s t u}, R s t → R t u → R s u)
    (hI : ∀ a ∈ as, ∀ s t, step a s t → I s → I t)
    (hR : ∀ a ∈ as, ∀ s t, step a s t → I s → R s t) (hs : I s) : R s t := by
  induction h with
  | nil => exact hrefl _
  | cons h _ ih =>
    have hfirst := hR _ List.mem_cons_self _ _ h hs
    refine htrans hfirst (ih (fun a ha => hI a (List.mem_cons_of_mem _ ha))
      (fun a ha => hR a (List.mem_cons_of_mem _ ha)) ?_)
    exact hI _ List.mem_cons_self _ _ h hs

end Trace

end Lib
