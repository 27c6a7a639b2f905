import Mathlib.Algebra.BigOperators.Group.List.Basic
import Mathlib.Data.List.Count
import Mathlib.Data.List.Forall2

/-!
# CarRental.Lib.Bucket

**Sorting items into buckets and adding up.** Each bucket goes through all the items
and adds the amounts of those it counts (`tally`). The buckets partition the items
inside some span when each of these is counted by one bucket and the others by none
(`Partition`). Then the sums of the buckets add up to the sum over the span
(`sum_tallies`).

The usual way to a partition is an index: each bucket counts the items of one index,
and the indices of the buckets are different (`partition_of_index`).
-/

namespace Lib

variable {α β ι K : Type}

section Tally

variable [AddCommMonoid K]

/-- Add up the amounts of the items that are counted. -/
def tally (counts : α → Bool) (amount : α → K) (items : List α) : K :=
  items.foldl (fun sum a => if counts a then sum + amount a else sum) 0

theorem foldl_tally (counts : α → Bool) (amount : α → K) (items : List α) (start : K) :
    items.foldl (fun sum a => if counts a then sum + amount a else sum) start =
      start + tally counts amount items := by
  unfold tally
  induction items generalizing start with
  | nil => simp
  | cons a items ih =>
    rw [List.foldl_cons, List.foldl_cons, ih, ih (if counts a then 0 + amount a else 0)]
    split
    · rw [zero_add, add_assoc]
    · rw [zero_add]

theorem tally_cons (counts : α → Bool) (amount : α → K) (a : α) (items : List α) :
    tally counts amount (a :: items) =
      (if counts a then amount a else 0) + tally counts amount items := by
  show items.foldl _ (if counts a then 0 + amount a else 0) = _
  rw [foldl_tally, zero_add]

theorem tally_eq_sum (counts : α → Bool) (amount : α → K) (items : List α) :
    tally counts amount items = ((items.filter counts).map amount).sum := by
  induction items with
  | nil => rfl
  | cons a items ih =>
    rw [tally_cons, ih, List.filter_cons]
    split
    · rw [List.map_cons, List.sum_cons]
    · rw [zero_add]

theorem foldl_add_eq_sum (amount : α → K) (items : List α) :
    items.foldl (fun sum a => sum + amount a) 0 = (items.map amount).sum := by
  rw [List.sum_eq_foldl, List.foldl_map]

end Tally

/-! ### Loops that may fail -/

theorem mapM_eq_some_iff {f : α → Option β} {l : List α} {bs : List β} :
    l.mapM f = some bs ↔ List.Forall₂ (fun a b => f a = some b) l bs := by
  induction l generalizing bs with
  | nil =>
    rw [List.mapM_nil, List.forall₂_nil_left_iff]
    constructor
    · intro h
      exact (Option.some.inj h).symm
    · intro h
      rw [h]
      rfl
  | cons a rest ih =>
    rw [List.mapM_cons, List.forall₂_cons_left_iff]
    constructor
    · intro h
      obtain ⟨b, hb, h⟩ := Option.bind_eq_some_iff.mp h
      obtain ⟨bs', hbs, h⟩ := Option.bind_eq_some_iff.mp h
      exact ⟨b, bs', hb, ih.mp hbs, (Option.some.inj h).symm⟩
    · intro h
      obtain ⟨b, bs', hb, hbs, rfl⟩ := h
      rw [hb, ih.mpr hbs]
      rfl

theorem exists_mapM {f : α → Option β} {l : List α} (h : ∀ a ∈ l, ∃ b, f a = some b) :
    ∃ bs, l.mapM f = some bs := by
  induction l with
  | nil => exact ⟨[], rfl⟩
  | cons a rest ih =>
    obtain ⟨b, hb⟩ := h a List.mem_cons_self
    obtain ⟨bs, hbs⟩ := ih fun x hx => h x (List.mem_cons_of_mem _ hx)
    refine ⟨b :: bs, ?_⟩
    rw [List.mapM_cons, hb, hbs]
    rfl

theorem exists_of_mapM {f : α → Option β} {l : List α} {bs : List β} (h : l.mapM f = some bs)
    {a : α} (ha : a ∈ l) : ∃ b ∈ bs, f a = some b := by
  have hall := mapM_eq_some_iff.mp h
  clear h
  induction hall with
  | nil => exact absurd ha List.not_mem_nil
  | @cons _ b _ _ hb _ ih =>
    rcases List.mem_cons.mp ha with rfl | ha
    · exact ⟨b, List.mem_cons_self, hb⟩
    · obtain ⟨b', hb', hfound⟩ := ih ha
      exact ⟨b', List.mem_cons_of_mem _ hb', hfound⟩

/-- Every item inside is counted by exactly one bucket, every other item by none. -/
def Partition (counts : β → α → Bool) (inside : α → Bool) (buckets : List β) : Prop :=
  ∀ a, buckets.countP (counts · a) = if inside a then 1 else 0

theorem sum_map_ite_eq_countP [AddCommMonoid K] (p : β → Bool) (x : K) (buckets : List β) :
    (buckets.map fun b => if p b then x else 0).sum = buckets.countP p • x := by
  induction buckets with
  | nil => simp
  | cons b buckets ih =>
    rw [List.map_cons, List.sum_cons, ih, List.countP_cons]
    split
    · rw [add_comm, add_nsmul, one_nsmul]
    · rw [zero_add, Nat.add_zero]

/-- **The sums of the buckets add up.** -/
theorem sum_tallies [AddCommMonoid K] {counts : β → α → Bool} {inside : α → Bool}
    {buckets : List β} (h : Partition counts inside buckets) (amount : α → K) (items : List α) :
    (buckets.map fun b => tally (counts b) amount items).sum = tally inside amount items := by
  induction items with
  | nil =>
    show (buckets.map fun _ => (0 : K)).sum = 0
    simp
  | cons a items ih =>
    have hcons : (fun b => tally (counts b) amount (a :: items)) =
        fun b => (if counts b a then amount a else 0) + tally (counts b) amount items :=
      funext fun b => tally_cons _ _ _ _
    rw [hcons, List.sum_map_add, ih, sum_map_ite_eq_countP (fun b => counts b a), h a, tally_cons]
    split
    · rw [one_nsmul]
    · rw [zero_nsmul]

theorem countP_eq_count [DecidableEq ι] {counts : β → α → Bool} {index : α → ι} {indices : List ι}
    {buckets : List β}
    (h : List.Forall₂ (fun i b => ∀ a, counts b a = true ↔ index a = i) indices buckets) (a : α) :
    buckets.countP (counts · a) = indices.count (index a) := by
  induction h with
  | nil => rfl
  | @cons i b indices buckets hb _ ih =>
    rw [List.countP_cons, List.count_cons, ih]
    by_cases hi : index a = i
    · rw [if_pos ((hb a).mpr hi), if_pos (by simp [hi])]
    · rw [if_neg fun hcount => hi ((hb a).mp hcount), if_neg (by simpa using Ne.symm hi)]

/-- Buckets of different indices partition the items that have one of the indices. -/
theorem partition_of_index [DecidableEq ι] {counts : β → α → Bool} (index : α → ι)
    {inside : α → Bool} {indices : List ι} {buckets : List β} (hnodup : indices.Nodup)
    (hinside : ∀ a, inside a = true ↔ index a ∈ indices)
    (h : List.Forall₂ (fun i b => ∀ a, counts b a = true ↔ index a = i) indices buckets) :
    Partition counts inside buckets := by
  intro a
  rw [countP_eq_count h a, hnodup.count]
  by_cases ha : index a ∈ indices
  · rw [if_pos ha, if_pos ((hinside a).mpr ha)]
  · rw [if_neg ha, if_neg fun hin => ha ((hinside a).mp hin)]

end Lib
