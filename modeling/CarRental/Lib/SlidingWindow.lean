import Mathlib.Order.Lattice
import Mathlib.Order.Monotone.Basic
import Mathlib.Data.List.Basic
import Mathlib.Logic.Function.Basic

/-!
# CarRental.Lib.SlidingWindow

**Rate limits over a sliding window.** A limiter remembers, for each key, the
times at which a call for it was let through. A call first forgets the times that
have left the window (those before `cutoff now`), is refused when `limit` of them
are left, and is remembered otherwise.

The limiter looks at one list at one moment; what it promises is about every
window of an unbounded history. `Tracks` connects the two: it compares the
remembered times of a key with everything the history `callLog` has let through
for it, and carries the bound for every window. `callLog_limited` then says of every
history that no window holds more than `limit` calls that were let through, and
that a call is refused only when the window that ends with it is full.

Times are any linear order, and `cutoff` any monotone function on it.
-/

namespace Lib

variable {T K : Type} [LinearOrder T] [DecidableEq K]

/-- One call for `key` at time `now`: is it let through, and what is remembered then? -/
def registerCall (cutoff : T → T) (limit : Nat) (now : T) (key : K) (times : K → List T) :
    Bool × (K → List T) :=
  let kept := (times key).filter fun τ => cutoff now ≤ τ
  if limit ≤ kept.length then (false, Function.update times key kept)
  else (true, Function.update times key (kept ++ [now]))

/-- A call in the history. -/
structure Logged (T K : Type) where
  time : T
  key : K
  passed : Bool

/-- The history of a sequence of calls. -/
def callLog (cutoff : T → T) (limit : Nat) : List (T × K) → (K → List T) → List (Logged T K)
  | [], _ => []
  | c :: rest, times =>
    ⟨c.1, c.2, (registerCall cutoff limit c.1 c.2 times).1⟩ ::
      callLog cutoff limit rest (registerCall cutoff limit c.1 c.2 times).2

/-- The calls for `key` between `t` and `u` that were let through. -/
def passes (key : K) (t u : T) (history : List (Logged T K)) : List (Logged T K) :=
  history.filter fun a => a.key = key && a.passed && t ≤ a.time && a.time ≤ u

/-- The times from `t` on at which a call for `key` was let through. -/
def passedSince (key : K) (t : T) (history : List (Logged T K)) : List T :=
  (history.filter fun a => a.key = key && a.passed && t ≤ a.time).map Logged.time

variable {cutoff : T → T} {limit : Nat} {last now : T} {key : K} {times : K → List T}
  {history : List (Logged T K)}

/-- The remembered times against the history, at a moment not before `last`. -/
structure Tracks (cutoff : T → T) (limit : Nat) (last : T) (history : List (Logged T K))
    (times : K → List T) : Prop where
  before : ∀ a ∈ history, a.time ≤ last
  /-- What is still within the window is remembered. -/
  recent : ∀ key τ, cutoff last ≤ τ →
    (times key).filter (fun t => τ ≤ t) = passedSince key τ history
  bound : ∀ key t u, cutoff u ≤ t → (passes key t u history).length ≤ limit
  full : ∀ pre a post, history = pre ++ a :: post → a.passed = false →
    limit ≤ (passes a.key (cutoff a.time) a.time pre).length

theorem Tracks.start (last : T) :
    Tracks cutoff limit last ([] : List (Logged T K)) fun _ => [] where
  before := by simp
  recent := by simp [passedSince]
  bound := by simp [passes]
  full := by simp

/-- As long as nothing is logged later than `now`, a window up to `now` is all that follows its
start. -/
theorem passes_eq_passedSince {t : T} (h : ∀ a ∈ history, a.time ≤ now) :
    (passes key t now history).length = (passedSince key t history).length := by
  unfold passes passedSince
  rw [List.length_map]
  congr 1
  refine List.filter_congr fun a ha => ?_
  simp [h a ha]

/-- Shrinking a window loses calls. -/
theorem passes_le {t u s : T} (hst : s ≤ t) :
    (passes key t u history).length ≤ (passedSince key s history).length := by
  unfold passes passedSince
  rw [List.length_map]
  refine (List.monotone_filter_right _ fun a ha => ?_).length_le
  simp only [Bool.and_eq_true, decide_eq_true_eq] at ha ⊢
  exact ⟨ha.1.1, hst.trans ha.1.2⟩

/-- What is remembered of the window that ends at `now`. -/
theorem Tracks.kept (h : Tracks cutoff limit last history times) (hcut : Monotone cutoff)
    (hnow : last ≤ now) (key : K) :
    (times key).filter (fun τ => cutoff now ≤ τ) = passedSince key (cutoff now) history :=
  h.recent key (cutoff now) (hcut hnow)

/-- One call. Other keys are not affected, and forgetting what left the window is not noticed
later, since the window only moves forward. -/
theorem Tracks.recent_step (h : Tracks cutoff limit last history times) (hcut : Monotone cutoff)
    (hnow : last ≤ now) (key key' : K) (τ : T) (hτ : cutoff now ≤ τ) :
    ((registerCall cutoff limit now key times).2 key').filter (fun t => τ ≤ t) =
      passedSince key' τ
        (history ++ [⟨now, key, (registerCall cutoff limit now key times).1⟩]) := by
  have hold : ∀ key', (times key').filter (fun t => τ ≤ t) = passedSince key' τ history :=
    fun key' => h.recent key' τ ((hcut hnow).trans hτ)
  have hforget : ((times key).filter fun t => cutoff now ≤ t).filter (fun t => τ ≤ t) =
      (times key).filter fun t => τ ≤ t := by
    rw [List.filter_filter]
    refine List.filter_congr fun t _ => ?_
    by_cases ht : τ ≤ t
    · simp [ht, hτ.trans ht]
    · simp [ht]
  unfold registerCall
  dsimp only
  by_cases hkey : key' = key
  · subst hkey
    split
    · simp [Function.update_self, hforget, hold, passedSince]
    · by_cases hτnow : τ ≤ now
      · simp [Function.update_self, hforget, hold, passedSince, hτnow]
      · simp [Function.update_self, hforget, hold, passedSince, hτnow]
  · have hne : key ≠ key' := Ne.symm hkey
    split
    · simp [Function.update_of_ne hkey, hold, passedSince, hne]
    · simp [Function.update_of_ne hkey, hold, passedSince, hne]

/-- A call that is let through finds room in every window that contains it. -/
theorem Tracks.bound_step (h : Tracks cutoff limit last history times) (hcut : Monotone cutoff)
    (hnow : last ≤ now) (key key' : K) (t u : T) (htu : cutoff u ≤ t) :
    (passes key' t u (history ++
      [⟨now, key, (registerCall cutoff limit now key times).1⟩])).length ≤ limit := by
  have hold := h.bound key' t u htu
  unfold passes at hold ⊢
  rw [List.filter_append, List.length_append]
  by_cases hin : key = key' ∧ (registerCall cutoff limit now key times).1 = true ∧ t ≤ now ∧ now ≤ u
  · obtain ⟨rfl, hpassed, htnow, hnowu⟩ := hin
    have hroom : (passedSince key (cutoff now) history).length < limit := by
      rw [← h.kept hcut hnow key]
      unfold registerCall at hpassed
      dsimp only at hpassed
      split at hpassed
      · exact absurd hpassed Bool.false_ne_true
      · next hlt => exact Nat.not_le.mp hlt
    have hle : (passes key t u history).length ≤ (passedSince key (cutoff now) history).length :=
      passes_le ((hcut hnowu).trans htu)
    unfold passes at hle
    have hone : ([⟨now, key, (registerCall cutoff limit now key times).1⟩].filter
        fun a : Logged T K => a.key = key && a.passed && t ≤ a.time && a.time ≤ u).length ≤ 1 :=
      List.length_filter_le _ _
    omega
  · have hnone : ([⟨now, key, (registerCall cutoff limit now key times).1⟩].filter
        fun a : Logged T K => a.key = key' && a.passed && t ≤ a.time && a.time ≤ u) = [] := by
      refine List.filter_eq_nil_iff.mpr fun a ha => ?_
      rw [List.mem_singleton] at ha
      subst ha
      simpa [and_assoc] using hin
    rw [hnone]
    exact hold

/-- A call that is refused finds the window that ends with it full. -/
theorem Tracks.full_step (h : Tracks cutoff limit last history times) (hcut : Monotone cutoff)
    (hnow : last ≤ now) (key : K) (hrefused : (registerCall cutoff limit now key times).1 = false) :
    limit ≤ (passes key (cutoff now) now history).length := by
  rw [passes_eq_passedSince fun a ha => (h.before a ha).trans hnow, ← h.kept hcut hnow key]
  unfold registerCall at hrefused
  dsimp only at hrefused
  split at hrefused
  · next hfull => exact hfull
  · exact absurd hrefused.symm Bool.false_ne_true

/-- One call keeps track. -/
theorem Tracks.step (h : Tracks cutoff limit last history times) (hcut : Monotone cutoff)
    (hnow : last ≤ now) (key : K) :
    Tracks cutoff limit now
      (history ++ [⟨now, key, (registerCall cutoff limit now key times).1⟩])
      (registerCall cutoff limit now key times).2 where
  before := by
    intro a ha
    rcases List.mem_append.mp ha with ha | ha
    · exact (h.before a ha).trans hnow
    · rw [List.mem_singleton.mp ha]
  recent := fun key' τ hτ => h.recent_step hcut hnow key key' τ hτ
  bound := fun key' t u htu => h.bound_step hcut hnow key key' t u htu
  full := by
    intro pre a post hsplit hrefused
    rcases List.eq_nil_or_concat post with rfl | ⟨post, b, rfl⟩
    · obtain ⟨rfl, hlast⟩ := List.append_inj' hsplit rfl
      obtain rfl := (List.cons.inj hlast).1
      exact h.full_step hcut hnow key hrefused
    · rw [List.concat_eq_append, ← List.cons_append, ← List.append_assoc] at hsplit
      exact h.full pre a post (List.append_inj' hsplit rfl).1 hrefused

/-- A sequence of calls with a non-decreasing clock keeps track. -/
theorem Tracks.run (hcut : Monotone cutoff) (calls : List (T × K))
    (h : Tracks cutoff limit last history times)
    (hclock : (last :: calls.map Prod.fst).Pairwise (· ≤ ·)) :
    ∃ last' times',
      Tracks cutoff limit last' (history ++ callLog cutoff limit calls times) times' := by
  induction calls generalizing last history times with
  | nil => exact ⟨last, times, by simpa [callLog] using h⟩
  | cons c rest ih =>
    rw [List.map_cons, List.pairwise_cons] at hclock
    have hstep := h.step hcut (hclock.1 c.1 List.mem_cons_self) c.2
    obtain ⟨last', times', hrest⟩ := ih hstep hclock.2
    refine ⟨last', times', ?_⟩
    rw [List.append_assoc] at hrest
    exact hrest

/-- **The limit over whole histories.** In any sequence of calls with a non-decreasing clock that
starts with nothing remembered, no window holds more than `limit` calls for a key that were let
through, and a call is refused only when `limit` calls for its key were let through in the window
that ends with it. -/
theorem callLog_limited (limit : Nat) (hcut : Monotone cutoff) (calls : List (T × K))
    (hclock : (calls.map Prod.fst).Pairwise (· ≤ ·)) :
    (∀ key t u, cutoff u ≤ t →
      (passes key t u (callLog cutoff limit calls fun _ => [])).length ≤ limit) ∧
    ∀ pre a post, callLog cutoff limit calls (fun _ => []) = pre ++ a :: post →
      a.passed = false → limit ≤ (passes a.key (cutoff a.time) a.time pre).length := by
  cases calls with
  | nil => exact ⟨by simp [callLog, passes], by simp [callLog]⟩
  | cons c rest =>
    have hclock' : (c.1 :: (c :: rest).map Prod.fst).Pairwise (· ≤ ·) := by
      refine List.pairwise_cons.mpr ⟨fun t ht => ?_, hclock⟩
      rw [List.map_cons, List.pairwise_cons] at hclock
      rcases List.mem_cons.mp ht with rfl | ht
      · exact le_rfl
      · exact hclock.1 t ht
    obtain ⟨last, times, htracks⟩ := Tracks.run hcut (c :: rest) (Tracks.start c.1) hclock'
    rw [List.nil_append] at htracks
    exact ⟨htracks.bound, htracks.full⟩

end Lib
