import Mathlib.Data.List.Nodup

/-!
# CarRental.Lib.Table

**Auto-increment tables.** A `Table α` is what a relational table with a generated
primary key holds: rows keyed by a number, and the counter the next key is taken
from. The two facts every proof about such a table needs, that keys are unique
and that the counter is above all of them, are fields of the structure, so no
operation can build a table that breaks them.

Everything downstream reads a table through `Table.get?`; the row list itself is
only looked at by queries (`Table.any`, `Table.select`), and the `mem_rows`,
`any_iff` and `mem_select` lemmas bring those back to `get?`. The update lemmas
(`get?_insert`, `get?_set`, `get?_delete`) are the whole interface of the four
operations.
-/

namespace Lib

/-- Rows keyed by a generated number. Keys are unique and lie below `nextId`, the
value the counter hands out next. -/
structure Table (α : Type) where
  rows : List (Nat × α)
  nextId : Nat
  nodup : (rows.map Prod.fst).Nodup
  fresh : ∀ r ∈ rows, r.1 < nextId
  deriving DecidableEq

namespace Table

variable {α : Type} {t : Table α} {i j : Nat} {a b : α}

@[ext] theorem ext' {t u : Table α} (hr : t.rows = u.rows) (hn : t.nextId = u.nextId) : t = u := by
  cases t
  cases u
  simp only at hr hn
  subst hr hn
  rfl

/-- The table before its first insertion. Generated keys start at `1`. -/
def empty : Table α := ⟨[], 1, List.nodup_nil, by simp⟩

/-- The row stored under a key. -/
def get? (t : Table α) (i : Nat) : Option α := t.rows.lookup i

/-- Append a row under the next key. -/
def insert (t : Table α) (a : α) : Table α where
  rows := t.rows ++ [(t.nextId, a)]
  nextId := t.nextId + 1
  nodup := by
    rw [List.map_append, List.nodup_append]
    refine ⟨t.nodup, by simp, ?_⟩
    intro x hx y hy hxy
    obtain ⟨r, hr, rfl⟩ := List.mem_map.mp hx
    obtain rfl : y = t.nextId := by simpa using hy
    exact absurd hxy (Nat.ne_of_lt (t.fresh r hr))
  fresh := by
    intro r hr
    rcases List.mem_append.mp hr with hr | hr
    · exact Nat.lt_succ_of_lt (t.fresh r hr)
    · obtain rfl : r = (t.nextId, a) := by simpa using hr
      exact Nat.lt_succ_self _

/-- Overwrite the row stored under a key; no row appears when there is none. -/
def set (t : Table α) (i : Nat) (a : α) : Table α where
  rows := t.rows.map fun r => if r.1 = i then (r.1, a) else r
  nextId := t.nextId
  nodup := by
    have hfst : (Prod.fst ∘ fun r : Nat × α => if r.1 = i then (r.1, a) else r) = Prod.fst := by
      funext r
      by_cases h : r.1 = i <;> simp [h]
    rw [List.map_map, hfst]
    exact t.nodup
  fresh := by
    intro r hr
    obtain ⟨q, hq, rfl⟩ := List.mem_map.mp hr
    by_cases h : q.1 = i
    · simpa [h] using h ▸ t.fresh q hq
    · simpa [h] using t.fresh q hq

/-- Remove the row stored under a key. The counter never goes back. -/
def delete (t : Table α) (i : Nat) : Table α where
  rows := t.rows.filter fun r => r.1 ≠ i
  nextId := t.nextId
  nodup := (List.Sublist.map Prod.fst List.filter_sublist).nodup t.nodup
  fresh := fun r hr => t.fresh r (List.mem_of_mem_filter hr)

/-- Keep the rows that satisfy `p`. The counter never goes back. -/
def filter (t : Table α) (p : Nat → α → Bool) : Table α where
  rows := t.rows.filter fun r => p r.1 r.2
  nextId := t.nextId
  nodup := (List.Sublist.map Prod.fst List.filter_sublist).nodup t.nodup
  fresh := fun r hr => t.fresh r (List.mem_of_mem_filter hr)

/-- Change the rows stored under the given keys. -/
def mapOn (t : Table α) (keys : List Nat) (g : α → α) : Table α where
  rows := t.rows.map fun r => (r.1, if r.1 ∈ keys then g r.2 else r.2)
  nextId := t.nextId
  nodup := by
    rw [List.map_map]
    exact t.nodup
  fresh := by
    intro r hr
    obtain ⟨q, hq, rfl⟩ := List.mem_map.mp hr
    exact t.fresh q hq

/-- Append rows one after the other. -/
def insertAll (t : Table α) (as : List α) : Table α := as.foldl insert t

/-- Does some row satisfy `p`? -/
def any (t : Table α) (p : Nat → α → Bool) : Bool := t.rows.any fun r => p r.1 r.2

/-- The rows that satisfy `p`, in the order of the table. -/
def select (t : Table α) (p : Nat → α → Bool) : List (Nat × α) := t.rows.filter fun r => p r.1 r.2

/-! ### Reading -/

/-- A row list with unique keys is read by key. -/
theorem mem_rows : (i, a) ∈ t.rows ↔ t.get? i = some a := by
  unfold get?
  rw [List.lookup_eq_some_iff]
  constructor
  · intro hmem
    obtain ⟨pre, post, hsplit⟩ := List.append_of_mem hmem
    refine ⟨pre, post, hsplit, ?_⟩
    intro r hr
    have hnd := t.nodup
    rw [hsplit, List.map_append, List.nodup_append] at hnd
    have hne : r.1 ≠ i := hnd.2.2 _ (List.mem_map_of_mem hr) _ (by simp)
    simpa [beq_eq_false_iff_ne] using hne.symm
  · rintro ⟨pre, post, hsplit, -⟩
    rw [hsplit]
    simp

theorem get?_lt (h : t.get? i = some a) : i < t.nextId := t.fresh (i, a) (mem_rows.mpr h)

theorem get?_nextId : t.get? t.nextId = none := by
  cases h : t.get? t.nextId with
  | none => rfl
  | some a => exact absurd (get?_lt h) (Nat.lt_irrefl _)

theorem any_iff {p : Nat → α → Bool} :
    t.any p = true ↔ ∃ i a, t.get? i = some a ∧ p i a = true := by
  simp only [any, List.any_eq_true, Prod.exists, mem_rows]

theorem any_eq_false_iff {p : Nat → α → Bool} :
    t.any p = false ↔ ∀ i a, t.get? i = some a → p i a = false := by
  rw [Bool.eq_false_iff, Ne, any_iff]
  constructor
  · intro h i a hi
    by_contra hp
    exact h ⟨i, a, hi, by simpa using hp⟩
  · rintro h ⟨i, a, hi, hp⟩
    exact absurd (h i a hi) (by simp [hp])

theorem mem_select {p : Nat → α → Bool} {r : Nat × α} :
    r ∈ t.select p ↔ t.get? r.1 = some r.2 ∧ p r.1 r.2 = true := by
  obtain ⟨i, a⟩ := r
  simp only [select, List.mem_filter, mem_rows]

theorem select_nodup (t : Table α) (p : Nat → α → Bool) : ((t.select p).map Prod.fst).Nodup :=
  (List.Sublist.map Prod.fst List.filter_sublist).nodup t.nodup

/-- Rows stay apart under a map that tells the keys of different rows apart. -/
theorem map_rows_nodup {β : Type} {f : Nat × α → β}
    (hf : ∀ {i j a b}, t.get? i = some a → t.get? j = some b → f (i, a) = f (j, b) → i = j)
    (p : Nat × α → Bool) : ((t.rows.filter p).map f).Nodup := by
  refine List.Nodup.map_on ?_ (t.nodup.of_map.filter p)
  intro r hr r' hr' heq
  have hget := mem_rows.mp (List.mem_of_mem_filter hr)
  have hget' := mem_rows.mp (List.mem_of_mem_filter hr')
  have hkey : r.1 = r'.1 := hf hget hget' heq
  rw [hkey, hget'] at hget
  exact Prod.ext hkey (Option.some.inj hget).symm

theorem select_eq_nil_iff {p : Nat → α → Bool} : t.select p = [] ↔ t.any p = false := by
  simp [select, any]

/-! ### Writing -/

@[simp] theorem get?_empty : (empty : Table α).get? i = none := rfl

@[simp] theorem rows_insert : (t.insert a).rows = t.rows ++ [(t.nextId, a)] := rfl
@[simp] theorem nextId_insert : (t.insert a).nextId = t.nextId + 1 := rfl

theorem get?_eq_of_mem_iff {u : Table α} (h : ∀ a, (i, a) ∈ t.rows ↔ (j, a) ∈ u.rows) :
    t.get? i = u.get? j := by
  refine Option.ext fun a => ?_
  rw [← mem_rows, ← mem_rows]
  exact h a

theorem get?_insert : (t.insert a).get? j = if j = t.nextId then some a else t.get? j := by
  split
  · next h =>
    subst h
    exact mem_rows.mp (by simp)
  · next h =>
    refine get?_eq_of_mem_iff fun b => ?_
    simp [h]

@[simp] theorem get?_insert_self : (t.insert a).get? t.nextId = some a := by
  simp [get?_insert]

/-- A row survives an insertion: the new key is not its own. -/
theorem get?_insert_of_get? (h : t.get? j = some b) : (t.insert a).get? j = some b := by
  rw [get?_insert, if_neg (Nat.ne_of_lt (get?_lt h))]
  exact h

theorem get?_set : (t.set i a).get? j = if j = i then (t.get? i).map fun _ => a else t.get? j := by
  split
  · next h =>
    subst h
    refine Option.ext fun b => ?_
    rw [← mem_rows, Option.map_eq_some_iff]
    simp only [set, List.mem_map, Prod.exists, mem_rows]
    constructor
    · rintro ⟨k, c, hc, he⟩
      by_cases hk : k = j
      · subst hk
        rw [if_pos rfl] at he
        exact ⟨c, hc, (Prod.mk.inj he).2⟩
      · rw [if_neg hk] at he
        exact absurd (Prod.mk.inj he).1 hk
    · rintro ⟨c, hc, rfl⟩
      exact ⟨j, c, hc, by simp⟩
  · next h =>
    refine get?_eq_of_mem_iff fun b => ?_
    simp only [set, List.mem_map, Prod.exists]
    constructor
    · rintro ⟨k, c, hc, he⟩
      by_cases hk : k = i
      · rw [if_pos hk] at he
        exact absurd ((Prod.mk.inj he).1.symm.trans hk) h
      · rw [if_neg hk] at he
        exact he ▸ hc
    · intro hb
      exact ⟨j, b, hb, by simp [h]⟩

theorem get?_set_self (h : t.get? i = some b) : (t.set i a).get? i = some a := by
  simp [get?_set, h]

theorem get?_set_ne (h : j ≠ i) : (t.set i a).get? j = t.get? j := by
  simp [get?_set, h]

theorem get?_delete : (t.delete i).get? j = if j = i then none else t.get? j := by
  split
  · next h =>
    subst h
    cases hc : (t.delete j).get? j with
    | none => rfl
    | some c => exact absurd (mem_rows.mpr hc) (by simp [delete])
  · next h =>
    refine get?_eq_of_mem_iff fun b => ?_
    simp [delete, h]

/-- Reading back an overwritten table: the new row under its key, the old rows
elsewhere. -/
theorem get?_set_eq_some (h : t.get? i = some b) {c : α} :
    (t.set i a).get? j = some c ↔ (j = i ∧ a = c) ∨ (j ≠ i ∧ t.get? j = some c) := by
  by_cases hj : j = i
  · subst hj
    simp [get?_set_self h]
  · simp [get?_set_ne hj, hj]

/-- Reading back an extended table: the new row under the next key, the old rows
elsewhere. -/
theorem get?_insert_eq_some {c : α} :
    (t.insert a).get? j = some c ↔ (j = t.nextId ∧ a = c) ∨ t.get? j = some c := by
  rw [get?_insert]
  split
  · next h =>
    subst h
    simp [get?_nextId]
  · next h => simp [h]

theorem get?_filter_eq_some {p : Nat → α → Bool} :
    (t.filter p).get? i = some a ↔ t.get? i = some a ∧ p i a = true := by
  rw [← mem_rows, ← mem_rows]
  exact List.mem_filter

/-- A stored row, and what overwriting or deleting it leaves, up to the order of the rows. -/
theorem rows_perm (h : t.get? i = some a) : ∃ rest, t.rows.Perm ((i, a) :: rest) ∧
    (∀ b, (t.set i b).rows.Perm ((i, b) :: rest)) ∧ (t.delete i).rows.Perm rest := by
  obtain ⟨pre, post, hsplit⟩ := List.append_of_mem (mem_rows.mpr h)
  have hnd := t.nodup
  rw [hsplit, List.map_append, List.map_cons, List.nodup_append, List.nodup_cons] at hnd
  obtain ⟨-, ⟨hpost, -⟩, hpre⟩ := hnd
  have hpre : ∀ r ∈ pre, r.1 ≠ i := fun r hr =>
    hpre _ (List.mem_map_of_mem hr) _ List.mem_cons_self
  have hpost : ∀ r ∈ post, r.1 ≠ i := fun r hr heq =>
    hpost (List.mem_map.mpr ⟨r, hr, heq⟩)
  refine ⟨pre ++ post, ?_, fun b => ?_, ?_⟩
  · rw [hsplit]
    exact List.perm_middle
  · have hkeep : ∀ rows : List (Nat × α), (∀ r ∈ rows, r.1 ≠ i) →
        rows.map (fun r => if r.1 = i then (r.1, b) else r) = rows := by
      intro rows hrows
      refine (List.map_congr_left fun r hr => ?_).trans (List.map_id _)
      rw [if_neg (hrows r hr), id_eq]
    change (t.rows.map fun r => if r.1 = i then (r.1, b) else r).Perm _
    rw [hsplit, List.map_append, List.map_cons, hkeep pre hpre, hkeep post hpost, if_pos rfl]
    exact List.perm_middle
  · have hkeep : ∀ rows : List (Nat × α), (∀ r ∈ rows, r.1 ≠ i) →
        rows.filter (fun r => r.1 ≠ i) = rows := by
      intro rows hrows
      exact List.filter_eq_self.mpr fun r hr => by simpa using hrows r hr
    change (t.rows.filter fun r => r.1 ≠ i).Perm _
    rw [hsplit, List.filter_append, List.filter_cons_of_neg (by simp), hkeep pre hpre,
      hkeep post hpost]

/-- Overwriting twice keeps the second row. -/
theorem set_set : (t.set i a).set i b = t.set i b := by
  refine ext' ?_ rfl
  simp only [set, List.map_map]
  refine List.map_congr_left fun r _ => ?_
  by_cases h : r.1 = i <;> simp [h]

/-- Overwriting different rows can be done in either order. -/
theorem set_comm (h : i ≠ j) : (t.set i a).set j b = (t.set j b).set i a := by
  refine ext' ?_ rfl
  simp only [set, List.map_map]
  refine List.map_congr_left fun r _ => ?_
  by_cases hi : r.1 = i
  · simp [hi, h]
  · by_cases hj : r.1 = j <;> simp [hi, hj, Ne.symm h]

/-- Overwriting the row just inserted inserts the second row. -/
theorem insert_set : (t.insert a).set t.nextId b = t.insert b := by
  refine ext' ?_ rfl
  simp only [set, insert, List.map_append, List.map_cons, List.map_nil, if_true]
  congr 1
  refine (List.map_congr_left fun r hr => ?_).trans (List.map_id _)
  simp [Nat.ne_of_lt (t.fresh r hr)]

/-- Writing back the row that is already there changes nothing. -/
theorem set_get? (h : t.get? i = some a) : t.set i a = t := by
  refine ext' ?_ rfl
  simp only [set]
  refine (List.map_congr_left fun r hr => ?_).trans (List.map_id _)
  obtain ⟨k, c⟩ := r
  by_cases hk : k = i
  · subst hk
    rw [mem_rows.mp hr] at h
    obtain rfl := Option.some.inj h
    simp
  · simp [hk]

/-! ### Writing many rows -/

theorem get?_mapOn {keys : List Nat} {g : α → α} :
    (t.mapOn keys g).get? i = (t.get? i).map fun a => if i ∈ keys then g a else a := by
  refine Option.ext fun b => ?_
  rw [← mem_rows, Option.map_eq_some_iff]
  simp only [mapOn, List.mem_map, Prod.exists, mem_rows, Prod.mk.injEq]
  constructor
  · intro h
    obtain ⟨k, c, hc, rfl, rfl⟩ := h
    exact ⟨c, hc, rfl⟩
  · intro h
    obtain ⟨c, hc, rfl⟩ := h
    exact ⟨i, c, hc, rfl, rfl⟩

@[simp] theorem mapOn_nil {g : α → α} : t.mapOn [] g = t := by
  refine ext' ?_ rfl
  simp [mapOn]

/-- Overwriting a row by a change of itself is a change under one key. -/
theorem set_eq_mapOn (h : t.get? i = some a) (g : α → α) : t.set i (g a) = t.mapOn [i] g := by
  refine ext' (List.map_congr_left fun r hr => ?_) rfl
  obtain ⟨k, c⟩ := r
  by_cases hk : k = i
  · subst hk
    rw [mem_rows.mp hr] at h
    obtain rfl := Option.some.inj h
    simp
  · simp [hk]

/-- A change that does nothing the second time can be made key by key. -/
theorem mapOn_cons {keys : List Nat} {g : α → α} (hg : ∀ a, g (g a) = g a) :
    (t.mapOn [i] g).mapOn keys g = t.mapOn (i :: keys) g := by
  refine ext' ?_ rfl
  simp only [mapOn, List.map_map]
  refine List.map_congr_left fun r _ => ?_
  by_cases hi : r.1 = i <;> by_cases hkeys : r.1 ∈ keys <;> simp [hi, hkeys, hg]

@[simp] theorem insertAll_nil : t.insertAll [] = t := rfl

/-- The old rows stay in front; the new ones follow in order. -/
theorem rows_insertAll (t : Table α) (as : List α) :
    ∃ rows, (t.insertAll as).rows = t.rows ++ rows ∧ rows.map Prod.snd = as := by
  induction as generalizing t with
  | nil => exact ⟨[], by simp, rfl⟩
  | cons a as ih =>
    obtain ⟨rows, hrows, hvalues⟩ := ih (t.insert a)
    refine ⟨(t.nextId, a) :: rows, ?_, by rw [List.map_cons, hvalues]⟩
    rw [rows_insert, List.append_assoc] at hrows
    exact hrows

/-- Rows that do not satisfy `p` do not make it true. -/
theorem any_insertAll {p : Nat → α → Bool} {as : List α} (h : ∀ a ∈ as, ∀ i, p i a = false) :
    (t.insertAll as).any p = t.any p := by
  obtain ⟨rows, hrows, hvalues⟩ := rows_insertAll t as
  have hnew : (rows.any fun r => p r.1 r.2) = false := by
    rw [List.any_eq_false]
    intro r hr
    have hmem : r.2 ∈ as := hvalues ▸ List.mem_map_of_mem hr
    simp [h r.2 hmem r.1]
  unfold any
  rw [hrows, List.any_append, hnew, Bool.or_false]

theorem insertAll_append {as bs : List α} :
    t.insertAll (as ++ bs) = (t.insertAll as).insertAll bs :=
  List.foldl_append

end Table

end Lib
