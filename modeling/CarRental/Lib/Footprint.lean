import CarRental.Lib.Transaction

/-!
# CarRental.Lib.Footprint

**Transactions that look at part of the state.** `Determined P W op` says that on
the states that satisfy `P` the transaction `op` has only one way to go: it
throws the same exception, or it gives the same answer and makes the same
change, one of `W`. When `P` fixes the contents of the rows `op` looks at, this is
a footprint in the usual sense.

* `Determined.read` and `Determined.done` are the rules for establishing it, one
  statement of a transaction at a time;
* `Determined.commute` is what it is for: two transactions whose changes leave
  each other's footprint alone can be run in either order.
-/

namespace Lib

variable {ε ρ σ α S : Type}

/-- A transaction whose outcome is settled by `P`. -/
def Determined (P : S → Prop) (W : (S → S) → Prop) (op : S → Except ε (ρ × S)) : Prop :=
  ∀ s, P s → (∃ e, ∀ t, P t → op t = .error e) ∨ ∃ r w, W w ∧ ∀ t, P t → op t = .ok (r, w t)

namespace Determined

variable {P Q : S → Prop} {W V : (S → S) → Prop}

/-- A statement whose value is the same in all states of `P` keeps the outcome settled. -/
theorem read {x : S → Except ε α} {f : α → S → Except ε (ρ × S)}
    (hx : ∀ s t, P s → P t → x t = x s)
    (hf : ∀ s a, P s → x s = .ok a → Determined P W (f a)) :
    Determined P W fun s => x s >>= fun a => f a s := by
  intro s hs
  cases hread : x s with
  | error e =>
    refine Or.inl ⟨e, fun t ht => ?_⟩
    show (x t >>= fun a => f a t) = .error e
    rw [hx s t hs ht, hread]
    rfl
  | ok a =>
    rcases hf s a hs hread s hs with ⟨e, he⟩ | ⟨r, w, hw, hok⟩
    · refine Or.inl ⟨e, fun t ht => ?_⟩
      show (x t >>= fun a => f a t) = .error e
      rw [hx s t hs ht, hread]
      exact he t ht
    · refine Or.inr ⟨r, w, hw, fun t ht => ?_⟩
      show (x t >>= fun a => f a t) = .ok (r, w t)
      rw [hx s t hs ht, hread]
      exact hok t ht

/-- A guard that does not depend on the state. -/
theorem throwIf {p : Prop} [Decidable p] {e : ε} {f : Unit → S → Except ε (ρ × S)}
    (hf : ¬ p → Determined P W (f ())) :
    Determined P W fun s => Lib.throwIf p e >>= fun u => f u s :=
  read (fun _ _ _ _ => rfl) fun _ _ _ hok => hf (throwIf_eq_ok.mp hok)

/-- A transaction that throws. -/
theorem throws (e : ε) : Determined P W (fun _ => .error e : S → Except ε (ρ × S)) :=
  fun _ _ => Or.inl ⟨e, fun _ _ => rfl⟩

/-- A transaction that returns, with one answer and one change. -/
theorem done {op : S → Except ε (ρ × S)} {r : ρ} {w : S → S} (hw : W w)
    (hop : ∀ s, P s → op s = .ok (r, w s)) : Determined P W op :=
  fun _ _ => Or.inr ⟨r, w, hw, hop⟩

/-- Only what the transaction does in the states of `P` matters. -/
theorem congr {op op' : S → Except ε (ρ × S)} (h : Determined P W op')
    (heq : ∀ s, P s → op s = op' s) : Determined P W op := by
  intro s hs
  rcases h s hs with ⟨e, he⟩ | ⟨r, w, hw, hok⟩
  · exact Or.inl ⟨e, fun t ht => (heq t ht).trans (he t ht)⟩
  · exact Or.inr ⟨r, w, hw, fun t ht => (heq t ht).trans (hok t ht)⟩

/-- Answering something else does not change what is settled. -/
theorem map {op : S → Except ε (ρ × S)} (h : Determined P W op) (g : ρ → σ) :
    Determined P W fun s => (op s).map fun x => (g x.1, x.2) := by
  intro s hs
  rcases h s hs with ⟨e, he⟩ | ⟨r, w, hw, hok⟩
  · refine Or.inl ⟨e, fun t ht => ?_⟩
    show (op t).map _ = .error e
    rw [he t ht]
    rfl
  · refine Or.inr ⟨g r, w, hw, fun t ht => ?_⟩
    show (op t).map _ = .ok (g r, w t)
    rw [hok t ht]
    rfl

end Determined

/-- What a transaction answers. -/
def answer (op : S → Except ε (ρ × S)) (s : S) : Except ε ρ := (op s).map Prod.fst

/-- The state once the transaction has ended. -/
def after (op : S → Except ε (ρ × S)) (s : S) : S := settle s ((op s).map Prod.snd)

theorem answer_error {op : S → Except ε (ρ × S)} {s : S} {e : ε} (h : op s = .error e) :
    answer op s = .error e := by
  rw [answer, h]
  rfl

theorem answer_ok {op : S → Except ε (ρ × S)} {s s' : S} {r : ρ} (h : op s = .ok (r, s')) :
    answer op s = .ok r := by
  rw [answer, h]
  rfl

theorem after_error {op : S → Except ε (ρ × S)} {s : S} {e : ε} (h : op s = .error e) :
    after op s = s := by
  rw [after, h]
  rfl

theorem after_ok {op : S → Except ε (ρ × S)} {s s' : S} {r : ρ} (h : op s = .ok (r, s')) :
    after op s = s' := by
  rw [after, h]
  rfl

/-- **Transactions with separate footprints commute.** When the changes of each leave the
footprint of the other alone, both orders give each transaction the same answer; and the states
they end in are related by any `R` that relates the two orders of the changes. -/
theorem Determined.commute {P Q : S → Prop} {W V : (S → S) → Prop} {R : S → S → Prop}
    {a : S → Except ε (ρ × S)} {b : S → Except ε (σ × S)} {s : S}
    (ha : Determined P W a) (hb : Determined Q V b) (hP : P s) (hQ : Q s)
    (hWQ : ∀ w, W w → Q (w s)) (hVP : ∀ v, V v → P (v s))
    (hR : ∀ w v, W w → V v → R (v (w s)) (w (v s)))
    (hs : R s s) (hW : ∀ w, W w → R (w s) (w s)) (hV : ∀ v, V v → R (v s) (v s)) :
    answer a (after b s) = answer a s ∧ answer b (after a s) = answer b s ∧
      R (after b (after a s)) (after a (after b s)) := by
  rcases ha s hP with ⟨e, ha⟩ | ⟨r, w, hw, ha⟩ <;>
    rcases hb s hQ with ⟨e', hb⟩ | ⟨r', v, hv, hb⟩
  · rw [after_error (ha s hP), after_error (hb s hQ), after_error (ha s hP)]
    exact ⟨rfl, rfl, hs⟩
  · have ha' := ha (v s) (hVP v hv)
    rw [after_error (ha s hP), after_ok (hb s hQ), answer_error ha', answer_error (ha s hP),
      after_error ha']
    exact ⟨rfl, rfl, hV v hv⟩
  · have hb' := hb (w s) (hWQ w hw)
    rw [after_error (hb s hQ), after_ok (ha s hP), answer_error hb', answer_error (hb s hQ),
      after_error hb']
    exact ⟨rfl, rfl, hW w hw⟩
  · have ha' := ha (v s) (hVP v hv)
    have hb' := hb (w s) (hWQ w hw)
    rw [after_ok (ha s hP), after_ok (hb s hQ), answer_ok ha', answer_ok (ha s hP), answer_ok hb',
      answer_ok (hb s hQ), after_ok ha', after_ok hb']
    exact ⟨rfl, rfl, hR w v hw hv⟩

end Lib
