import Mathlib.Data.List.TakeWhile

/-!
# CarRental.Lib.Matcher

**Backtracking matchers**, for regular expressions with capture groups.

A matcher returns all the ways in which it matches the beginning of a text, in the
order in which a backtracking engine tries them, each with its captures and with the
text behind it. What the engine reports is the first of them. Sequencing tries every
way of the first part (`bind`); an option is tried with its content before it is tried
without (`opt`); a repetition is tried longest first (`run`).

`first_bind` is the rule for matches that need no backtracking: when the first way of
each part leads on, it is the first way of the whole.
-/

namespace Lib

/-- What a bounded scan takes: all the signs there are, up to its bound. -/
theorem takeWhile_take_append {α : Type} {p : α → Bool} {hi : Nat} {signs rest : List α}
    (hall : ∀ c ∈ signs, p c = true) (hhi : signs.length ≤ hi)
    (hstop : signs.length = hi ∨ ∀ c ∈ rest.head?, p c = false) :
    ((signs ++ rest).take hi).takeWhile p = signs := by
  rw [List.take_append, List.take_of_length_le hhi, List.takeWhile_append_of_pos hall]
  have hnone : (rest.take (hi - signs.length)).takeWhile p = [] := by
    rcases hstop with hfull | hstop
    · rw [hfull, Nat.sub_self, List.take_zero]
      rfl
    · cases rest with
      | nil => rw [List.take_nil, List.takeWhile_nil]
      | cons c rest =>
        cases hi - signs.length with
        | zero => rfl
        | succ n =>
          rw [List.take_succ_cons, List.takeWhile_cons_of_neg]
          rw [hstop c rfl]
          decide
  rw [hnone, List.append_nil]

/-- The ways to read the beginning of a text, each with what it leaves. -/
def Matcher (α β : Type) : Type := List α → List (β × List α)

namespace Matcher

variable {α β γ : Type}

instance : Monad (Matcher α) where
  pure b := fun text => [(b, text)]
  bind m f := fun text => (m text).flatMap fun r => f r.1 r.2

/-- What the engine reports. -/
def first (m : Matcher α β) (text : List α) : Option (β × List α) := (m text).head?

/-- A single sign. -/
def satisfy (p : α → Bool) : Matcher α α
  | [] => []
  | c :: rest => if p c then [(c, rest)] else []

/-- One of these signs. -/
def oneOf [BEq α] (signs : List α) : Matcher α α := satisfy signs.contains

/-- The first alternative, then the second. -/
def orElse (m m' : Matcher α β) : Matcher α β := fun text => m text ++ m' text

/-- With it, or without it. -/
def opt (m : Matcher α β) : Matcher α (Option β) :=
  orElse (do return some (← m)) (pure none)

/-- Between `lo` and `hi` signs, as many as there are. -/
def run (p : α → Bool) (lo hi : Nat) : Matcher α (List α) := fun text =>
  let most := ((text.take hi).takeWhile p).length
  (List.range (most + 1 - lo)).map fun i => (text.take (most - i), text.drop (most - i))

/-- Nothing is left. -/
def endOfText : Matcher α Unit
  | [] => [((), [])]
  | _ :: _ => []

/-! ### The first way -/

variable {text rest : List α} {b : β}

/-- **The first way of the whole**, when the first ways of its parts lead on. -/
theorem first_bind {m : Matcher α β} {f : β → Matcher α γ} {r : γ × List α}
    (hm : first m text = some (b, rest)) (hf : first (f b) rest = some r) :
    first (m >>= f) text = some r := by
  obtain ⟨ways, hways⟩ := List.head?_eq_some_iff.mp hm
  show ((m text).flatMap fun r => f r.1 r.2).head? = some r
  rw [hways, List.flatMap_cons, List.head?_append]
  show (first (f b) rest).or _ = some r
  rw [hf, Option.some_or]

theorem first_opt {m : Matcher α β} (h : first m text = some (b, rest)) :
    first (opt m) text = some (some b, rest) := by
  have hsome : first (do return some (← m)) text = some (some b, rest) := first_bind h rfl
  show ((do return some (← m) : Matcher α (Option β)) text ++ _).head? = _
  rw [List.head?_append]
  show (first (do return some (← m)) text).or _ = _
  rw [hsome, Option.some_or]

/-- An option that does not match is passed over. -/
theorem first_opt_none {m : Matcher α β} (h : m text = []) :
    first (opt m) text = some (none, text) := by
  show (List.flatMap _ (m text) ++ [(none, text)]).head? = some (none, text)
  rw [h]
  rfl

theorem first_satisfy {p : α → Bool} {c : α} (hc : p c = true) (rest : List α) :
    first (satisfy p) (c :: rest) = some (c, rest) := by
  show (if p c then [(c, rest)] else []).head? = some (c, rest)
  rw [if_pos hc]
  rfl

/-- A repetition takes all the signs there are, up to its bound. -/
theorem first_run {p : α → Bool} {lo hi : Nat} {signs : List α} (hall : ∀ c ∈ signs, p c = true)
    (hlo : lo ≤ signs.length) (hhi : signs.length ≤ hi)
    (hstop : signs.length = hi ∨ ∀ c ∈ rest.head?, p c = false) :
    first (run p lo hi) (signs ++ rest) = some (signs, rest) := by
  unfold first run
  dsimp only
  rw [takeWhile_take_append hall hhi hstop, List.head?_map, List.head?_range, if_neg (by omega),
    Option.map_some, Nat.sub_zero, List.take_left, List.drop_left]

/-! ### What a way is made of -/

theorem mem_of_first {m : Matcher α β} {r : β × List α} (h : first m text = some r) : r ∈ m text :=
  List.mem_of_mem_head? h

/-- A way of the whole is a way of each part. -/
theorem mem_bind {m : Matcher α β} {f : β → Matcher α γ} {r : γ × List α} :
    r ∈ (m >>= f) text ↔ ∃ b rest, (b, rest) ∈ m text ∧ r ∈ f b rest := by
  show r ∈ (m text).flatMap (fun r => f r.1 r.2) ↔ _
  rw [List.mem_flatMap, Prod.exists]

theorem mem_pure {r : β × List α} : r ∈ (pure b : Matcher α β) text ↔ r = (b, text) :=
  List.mem_singleton

theorem mem_satisfy {p : α → Bool} {c : α} :
    (c, rest) ∈ satisfy p text ↔ text = c :: rest ∧ p c = true := by
  cases text with
  | nil => simp [satisfy]
  | cons d text =>
    by_cases hd : p d = true
    · simp only [satisfy, if_pos hd, List.mem_singleton, Prod.mk.injEq, List.cons.injEq]
      constructor
      · rintro ⟨rfl, rfl⟩
        exact ⟨⟨rfl, rfl⟩, hd⟩
      · rintro ⟨⟨rfl, rfl⟩, -⟩
        exact ⟨rfl, rfl⟩
    · simp only [satisfy, if_neg hd, List.not_mem_nil, List.cons.injEq, false_iff]
      rintro ⟨⟨rfl, -⟩, hc⟩
      exact hd hc

theorem mem_endOfText {r : Unit × List α} : r ∈ endOfText text ↔ text = [] ∧ r = ((), []) := by
  cases text with
  | nil => simp [endOfText]
  | cons c text => simp [endOfText]

/-- A repetition splits the text behind signs of its kind, within its bounds. -/
theorem split_of_mem_run {p : α → Bool} {lo hi : Nat} {signs : List α}
    (h : (signs, rest) ∈ run p lo hi text) :
    text = signs ++ rest ∧ lo ≤ signs.length ∧ signs.length ≤ hi ∧ ∀ c ∈ signs, p c = true := by
  have hmost : (text.take hi).takeWhile p <+: text :=
    ( List.takeWhile_prefix p).trans ( List.take_prefix hi text)
  have hle : ((text.take hi).takeWhile p).length ≤ hi :=
    Nat.le_trans ( List.takeWhile_prefix p).length_le (List.length_take_le _ _)
  have hall : ∀ c ∈ (text.take hi).takeWhile p, p c = true := fun c hc => List.mem_takeWhile_imp hc
  unfold run at h
  generalize (text.take hi).takeWhile p = most at h hmost hle hall
  obtain ⟨i, hi', hr⟩ := List.mem_map.mp h
  obtain ⟨rfl, rfl⟩ := Prod.mk.inj hr
  rw [List.mem_range] at hi'
  have hlength : (text.take (most.length - i)).length = most.length - i := by
    rw [List.length_take]
    have := hmost.length_le
    omega
  refine ⟨(List.take_append_drop _ _).symm, by omega, by omega, ?_⟩
  intro c hc
  refine hall c ?_
  rw [List.prefix_iff_eq_take.mp hmost]
  exact (List.take_prefix_take_left (by omega)).subset hc

end Matcher

end Lib
