import CarRental.Lib.Snapshot

/-!
# CarRental.Lib.UniqueTable

**Tables with a unique key.** A `UniqueTable key` is a table in which no two rows
agree on the column `key`. The schema declares such a key and the storage layer
refuses a row that would break it, so the operations that store a row return
nothing when its value is taken (`insert?`, `set?`), and a lookup by the column has
at most one answer (`find?`).

The column is an arbitrary function of the row: a database that compares text by a
collation is served by a column that maps a text to its collation key.
-/

namespace Lib

/-- A table no two rows of which have the same value in the column. -/
structure UniqueTable {α κ : Type} (key : α → κ) where
  table : Table α
  unique : table.UniqueOn key

namespace UniqueTable

variable {α κ : Type} [DecidableEq κ] {key : α → κ} {u v : UniqueTable key} {i j : Nat} {a b : α}
  {k : κ}

/-! ### Operations -/

/-- No rows. -/
def empty : UniqueTable key := ⟨.empty, fun _ _ _ _ h => absurd h (by simp)⟩

/-- The row stored under a generated key. -/
def get? (u : UniqueTable key) (i : Nat) : Option α := u.table.get? i

/-- The row with this value in the column. -/
def find? (u : UniqueTable key) (k : κ) : Option (Nat × α) :=
  u.table.rows.find? fun r => key r.2 = k

/-- Does a row other than `i` have this value in the column? -/
def taken (u : UniqueTable key) (i : Option Nat) (k : κ) : Bool :=
  u.table.any fun j a => some j ≠ i && key a = k

theorem taken_eq_false {i : Option Nat} : ¬ u.taken i k = true ↔
    ∀ j a, u.get? j = some a → some j ≠ i → key a ≠ k := by
  rw [taken, Table.any_iff]
  simp only [Bool.and_eq_true, decide_eq_true_eq, not_exists, not_and, get?]

/-- Append a row, unless its value is taken. -/
def insert? (u : UniqueTable key) (a : α) : Option (UniqueTable key) :=
  if h : u.taken none (key a) = true then none
  else some
    { table := u.table.insert a
      unique := by
        have hfree := taken_eq_false.mp h
        intro i j b c hb hc heq
        rcases Table.get?_insert_eq_some.mp hb with ⟨rfl, rfl⟩ | hb
        · rcases Table.get?_insert_eq_some.mp hc with ⟨rfl, -⟩ | hc
          · rfl
          · exact absurd heq.symm (hfree j c hc (by simp))
        · rcases Table.get?_insert_eq_some.mp hc with ⟨-, rfl⟩ | hc
          · exact absurd heq (hfree i b hb (by simp))
          · exact u.unique hb hc heq }

/-- Overwrite a row, unless its new value is taken by another one. -/
def set? (u : UniqueTable key) (i : Nat) (a : α) : Option (UniqueTable key) :=
  if h : u.taken (some i) (key a) = true then none
  else some
    { table := u.table.set i a
      unique := by
        have hfree := taken_eq_false.mp h
        have hrow : ∀ j b, (u.table.set i a).get? j = some b →
            (j = i ∧ b = a) ∨ (j ≠ i ∧ u.get? j = some b) := by
          intro j b hb
          rw [Table.get?_set] at hb
          split at hb
          · next hj =>
            obtain ⟨_, -, rfl⟩ := Option.map_eq_some_iff.mp hb
            exact Or.inl ⟨hj, rfl⟩
          · next hj => exact Or.inr ⟨hj, hb⟩
        intro j l b c hb hc heq
        rcases hrow j b hb with ⟨rfl, rfl⟩ | ⟨hj, hjb⟩
        · rcases hrow l c hc with ⟨rfl, -⟩ | ⟨hl, hlc⟩
          · rfl
          · exact absurd heq.symm (hfree l c hlc (by simpa using hl))
        · rcases hrow l c hc with ⟨rfl, rfl⟩ | ⟨-, hlc⟩
          · exact absurd heq (hfree j b hjb (by simpa using hj))
          · exact u.unique hjb hlc heq }

/-- Keep the rows that satisfy `p`. -/
def filter (u : UniqueTable key) (p : Nat → α → Bool) : UniqueTable key where
  table := u.table.filter p
  unique := fun _ _ _ _ ha hb heq =>
    u.unique (Table.get?_filter_eq_some.mp ha).1 (Table.get?_filter_eq_some.mp hb).1 heq

/-! ### What they read and leave -/

theorem find?_eq_some : u.find? k = some (i, a) ↔ u.get? i = some a ∧ key a = k := by
  unfold find? get?
  constructor
  · intro h
    exact ⟨Table.mem_rows.mp (List.mem_of_find?_eq_some h), by simpa using List.find?_some h⟩
  · rintro ⟨ha, rfl⟩
    cases hfind : u.table.rows.find? fun r => key r.2 = key a with
    | none =>
      have hnone := List.find?_eq_none.mp hfind (i, a) (Table.mem_rows.mpr ha)
      exact absurd (decide_eq_true rfl) hnone
    | some r =>
      have hr := Table.mem_rows.mp (List.mem_of_find?_eq_some hfind)
      have hkey : key r.2 = key a := by simpa using List.find?_some hfind
      obtain rfl : r.1 = i := u.unique hr ha hkey
      rw [hr, Option.some.injEq] at ha
      rw [← ha]

theorem find?_eq_none : u.find? k = none ↔ ∀ i a, u.get? i = some a → key a ≠ k := by
  constructor
  · intro h i a ha hk
    rw [find?_eq_some.mpr ⟨ha, hk⟩] at h
    exact absurd h (by simp)
  · intro h
    cases hfind : u.find? k with
    | none => rfl
    | some r =>
      obtain ⟨hr, hk⟩ := (find?_eq_some (i := r.1) (a := r.2)).mp hfind
      exact absurd hk (h r.1 r.2 hr)

theorem insert?_eq_some : u.insert? a = some v ↔
    (∀ i b, u.get? i = some b → key b ≠ key a) ∧ v.table = u.table.insert a := by
  unfold insert?
  split
  · next h =>
    refine ⟨fun hv => absurd hv (by simp), fun hv => ?_⟩
    exact absurd h (taken_eq_false.mpr fun j b hb _ => hv.1 j b hb)
  · next h =>
    have hfree := taken_eq_false.mp h
    constructor
    · intro hv
      obtain rfl := Option.some.inj hv
      exact ⟨fun i b hb => hfree i b hb (by simp), rfl⟩
    · intro hv
      cases v
      cases hv.2
      rfl

theorem set?_eq_some : u.set? i a = some v ↔
    (∀ j b, u.get? j = some b → j ≠ i → key b ≠ key a) ∧ v.table = u.table.set i a := by
  unfold set?
  split
  · next h =>
    refine ⟨fun hv => absurd hv (by simp), fun hv => ?_⟩
    exact absurd h (taken_eq_false.mpr fun j b hb hne => hv.1 j b hb (by simpa using hne))
  · next h =>
    have hfree := taken_eq_false.mp h
    constructor
    · intro hv
      obtain rfl := Option.some.inj hv
      exact ⟨fun j b hb hne => hfree j b hb (by simpa using hne), rfl⟩
    · intro hv
      cases v
      cases hv.2
      rfl

/-- A row whose value no row has can be appended. -/
theorem insert?_of_unused (h : ∀ i b, u.get? i = some b → key b ≠ key a) :
    ∃ v, u.insert? a = some v := by
  unfold insert?
  split
  · next htaken => exact absurd htaken (taken_eq_false.mpr fun j b hb _ => h j b hb)
  · exact ⟨_, rfl⟩

/-- A row can be overwritten by one with the same value in the column. -/
theorem set?_of_same (ha : u.get? i = some a) (hkey : key b = key a) :
    ∃ v, u.set? i b = some v ∧ v.table = u.table.set i b := by
  have hfree : ∀ j c, u.get? j = some c → j ≠ i → key c ≠ key b := by
    intro j c hc hne heq
    exact hne (u.unique hc ha (heq.trans hkey))
  unfold set?
  split
  · next h =>
    exact absurd h (taken_eq_false.mpr fun j c hc hne => hfree j c hc (by simpa using hne))
  · exact ⟨_, rfl, rfl⟩

omit [DecidableEq κ] in
theorem get?_filter_eq_some {p : Nat → α → Bool} :
    (u.filter p).get? i = some a ↔ u.get? i = some a ∧ p i a = true :=
  Table.get?_filter_eq_some

end UniqueTable

end Lib
