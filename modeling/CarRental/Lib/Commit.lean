import CarRental.Lib.Snapshot

/-!
# CarRental.Lib.Commit

**What a commit keeps**, for transactions on snapshots (`CarRental.Lib.Snapshot`).

The last writer wins, so little of what a transaction has established on its
snapshot is still true after its commit. This module has the facts that are, and
the two rules that carry them over every interleaving:

* a fact about single rows (`AllRows`), the presence of a row (`KeepsKeys`), and the
  rows of a table that is only appended to (`rows_prefix_merge`) survive every
  commit. `Coherent.run` is the rule: nothing is asked of the interleaving; and
* a transaction whose snapshot is what is committed leaves exactly what it would
  have left alone (`Descends.merge_eq`), so a run of such transactions is a serial one
  (`run_serial`).

Both rest on `Descends`, the shape of every table that insertions, changes and
deletions can lead to.
-/

namespace Lib

namespace Table

variable {α : Type} {P : α → Prop} {t t' t'' base mine theirs : Table α} {i n : Nat} {a b : α}

@[simp] theorem get?_bump : (t.bump n).get? i = t.get? i := rfl

@[simp] theorem bump_nextId_self (t : Table α) : t.bump t.nextId = t :=
  ext' rfl (Nat.max_self _)

theorem le_nextId_bump (t : Table α) (n : Nat) : n ≤ (t.bump n).nextId := Nat.le_max_right _ _

theorem rows_merge [DecidableEq α] : (Table.merge base mine theirs).rows =
    theirs.rows.filterMap (mergeRow base mine) ++ inserted base mine theirs := rfl

/-! ### How tables change -/

/-- `t'` is `t` after some insertions, changes and deletions: what is left of the rows of `t`
stands in front, in its order, and the rows behind have new keys. -/
structure Descends (t t' : Table α) : Prop where
  nextId : t.nextId ≤ t'.nextId
  rows : ∃ (f : Nat × α → Option (Nat × α)) (new : List (Nat × α)),
    (∀ r q, f r = some q → q.1 = r.1) ∧ (∀ r ∈ new, t.nextId ≤ r.1) ∧
      t'.rows = t.rows.filterMap f ++ new

namespace Descends

theorem refl (t : Table α) : Descends t t := by
  refine ⟨Nat.le_refl _, some, [], ?_, by simp, by simp⟩
  intro r q h
  rw [Option.some.inj h]

theorem trans (h : Descends t t') (h' : Descends t' t'') : Descends t t'' := by
  obtain ⟨hnext, f, new, hf, hnew, hrows⟩ := h
  obtain ⟨hnext', f', new', hf', hnew', hrows'⟩ := h'
  refine ⟨Nat.le_trans hnext hnext', fun r => (f r).bind f', new.filterMap f' ++ new', ?_, ?_, ?_⟩
  · intro r q h
    obtain ⟨p, hp, hq⟩ := Option.bind_eq_some_iff.mp h
    rw [hf' p q hq, hf r p hp]
  · intro q hq
    rcases List.mem_append.mp hq with hq | hq
    · obtain ⟨r, hr, hrq⟩ := List.mem_filterMap.mp hq
      rw [hf' r q hrq]
      exact hnew r hr
    · exact Nat.le_trans hnext (hnew' q hq)
  · rw [hrows', hrows, List.filterMap_append, List.filterMap_filterMap, List.append_assoc]

theorem insert (t : Table α) (a : α) : Descends t (t.insert a) := by
  refine ⟨Nat.le_succ _, some, [(t.nextId, a)], ?_, by simp, by simp⟩
  intro r q h
  rw [Option.some.inj h]

theorem set (t : Table α) (i : Nat) (a : α) : Descends t (t.set i a) := by
  refine ⟨Nat.le_refl _, fun r => some (if r.1 = i then (r.1, a) else r), [], ?_, by simp, ?_⟩
  · intro r q h
    rw [← Option.some.inj h]
    split <;> rfl
  · rw [List.append_nil, Table.set, List.filterMap_eq_map']

theorem delete (t : Table α) (i : Nat) : Descends t (t.delete i) := by
  refine ⟨Nat.le_refl _, Option.guard fun r => r.1 ≠ i, [], ?_, by simp, ?_⟩
  · intro r q h
    rw [(Option.guard_eq_some_iff.mp h).1]
  · rw [List.append_nil, Table.delete, List.filterMap_eq_filter]

/-- A row that was not there has a new key. -/
theorem new_key (h : Descends t t') (hnone : t.get? i = none) (hsome : t'.get? i = some a) :
    t.nextId ≤ i := by
  obtain ⟨-, f, new, hf, hnew, hrows⟩ := h
  rw [← mem_rows, hrows, List.mem_append, List.mem_filterMap] at hsome
  rcases hsome with ⟨⟨k, b⟩, hr, hrow⟩ | hmem
  · obtain rfl : i = k := hf _ _ hrow
    rw [mem_rows.mp hr] at hnone
    exact absurd hnone (by simp)
  · exact hnew _ hmem

/-- A commit over the very state that was read leaves what the transaction left. -/
theorem merge_eq [DecidableEq α] (h : Descends t t') : Table.merge t t' t = t' := by
  obtain ⟨hnext, f, new, hf, hnew, hrows⟩ := h
  -- an old row is where `f` puts it, and nowhere else
  have hold : ∀ r ∈ t.rows, t'.get? r.1 = (f r).map Prod.snd := by
    intro r hr
    refine Option.ext fun b => ?_
    rw [← mem_rows, hrows, List.mem_append, List.mem_filterMap, Option.map_eq_some_iff]
    constructor
    · rintro (⟨q, hq, hrow⟩ | hmem)
      · have hkey : r.1 = q.1 := hf q (r.1, b) hrow
        have hsame : r = q := by
          have hr' : t.get? r.1 = some r.2 := mem_rows.mp hr
          rw [hkey, mem_rows.mp (show (q.1, q.2) ∈ t.rows from hq)] at hr'
          exact Prod.ext hkey (Option.some.inj hr').symm
        exact ⟨(r.1, b), by rw [hsame, ← hkey]; exact hrow, rfl⟩
      · exact absurd (hnew _ hmem) (Nat.not_le.mpr (t.fresh r hr))
    · rintro ⟨q, hq, rfl⟩
      refine Or.inl ⟨r, hr, ?_⟩
      rw [hq, ← hf _ _ hq]
  have hmerge : ∀ r ∈ t.rows, mergeRow t t' r = f r := by
    intro r hr
    rw [mergeRow, hold r hr, mem_rows.mp (show (r.1, r.2) ∈ t.rows from hr)]
    cases hfr : f r with
    | none => simp
    | some q =>
      have hkey := hf _ _ hfr
      rw [Option.map_some]
      split
      · next heq => rw [← Prod.ext hkey (Option.some.inj heq)]
      · rw [Option.map_some, ← hkey]
  have hinserted : inserted t t' t = new := by
    unfold inserted
    rw [hrows, List.filter_append, List.filter_eq_nil_iff.mpr, List.nil_append,
      List.filter_eq_self]
    · intro r hr
      have hnone : t.get? r.1 = none := by
        rw [Option.eq_none_iff_forall_ne_some]
        exact fun b hb => absurd (get?_lt hb) (Nat.not_lt.mpr (hnew r hr))
      simp [hnew r hr, hnone]
    · intro q hq
      obtain ⟨r, hr, hrow⟩ := List.mem_filterMap.mp hq
      have hlt := t.fresh r hr
      rw [← hf _ _ hrow] at hlt
      simp [Nat.not_le.mpr hlt]
  refine ext' ?_ (Nat.max_eq_right hnext)
  rw [rows_merge, hrows, hinserted, List.filterMap_congr hmerge]

end Descends

/-! ### What every commit keeps -/

/-- `P` holds of every row. -/
def AllRows (P : α → Prop) (t : Table α) : Prop := ∀ ⦃i a⦄, t.get? i = some a → P a

/-- No row is removed. -/
def KeepsKeys (t t' : Table α) : Prop := ∀ i, t.get? i ≠ none → t'.get? i ≠ none

theorem KeepsKeys.insert (t : Table α) (a : α) : KeepsKeys t (t.insert a) := by
  intro i hi
  obtain ⟨b, hb⟩ := Option.ne_none_iff_exists'.mp hi
  rw [get?_insert_of_get? hb]
  exact Option.some_ne_none b

theorem KeepsKeys.set (t : Table α) (k : Nat) (a : α) : KeepsKeys t (t.set k a) := by
  intro i hi
  rw [get?_set]
  split
  · next heq => simpa [heq] using hi
  · exact hi

section Merge

variable [DecidableEq α]

theorem AllRows.merge (hmine : AllRows P mine) (htheirs : AllRows P theirs) :
    AllRows P (Table.merge base mine theirs) := by
  intro i a ha
  rcases get?_merge_eq_some ha with ha | ⟨ha, -⟩
  · exact htheirs ha
  · exact hmine ha

/-- A row the transaction did not remove is still there. -/
theorem KeepsKeys.merge (h : KeepsKeys base mine) :
    KeepsKeys theirs (Table.merge base mine theirs) := by
  intro i hi
  by_cases hsame : mine.get? i = base.get? i
  · rwa [get?_merge_same hsame]
  · have hmine : mine.get? i ≠ none := by
      intro hnone
      have hbase : base.get? i ≠ none := fun hbase => hsame (hnone.trans hbase.symm)
      exact h i hbase hnone
    obtain ⟨a, ha⟩ := Option.ne_none_iff_exists'.mp hi
    obtain ⟨b, hb⟩ := Option.ne_none_iff_exists'.mp hmine
    have hmem : (i, b) ∈ (Table.merge base mine theirs).rows := by
      rw [rows_merge, List.mem_append, mem_merged_rows]
      exact Or.inl ⟨a, ha, by rw [mergeRow, if_neg hsame, hb, Option.map_some]⟩
    rw [mem_rows.mp hmem]
    exact Option.some_ne_none b

section Descending

variable (h : Descends base mine) (hnext : theirs.nextId ≤ base.nextId)

include h hnext

/-- What the transaction sees is there after the commit, if what it read still was. -/
theorem merge_keeps_mine (hread : KeepsKeys base theirs) (hkeep : KeepsKeys base mine) :
    KeepsKeys mine (Table.merge base mine theirs) := by
  intro i hi
  by_cases hbase : base.get? i = none
  · obtain ⟨b, hb⟩ := Option.ne_none_iff_exists'.mp hi
    have hmem : (i, b) ∈ (Table.merge base mine theirs).rows := by
      rw [rows_merge, List.mem_append, mem_inserted]
      exact Or.inr ⟨hb, Nat.le_trans hnext (h.new_key hbase hb), hbase⟩
    rw [mem_rows.mp hmem]
    exact Option.some_ne_none b
  · exact hkeep.merge i (hread i hbase)

/-- A table that a transaction only appends to is appended to by its commit. -/
theorem rows_prefix_merge (hkeep : base.rows <+: mine.rows) :
    theirs.rows <+: (Table.merge base mine theirs).rows := by
  have hsame : ∀ r ∈ theirs.rows, mergeRow base mine r = some r := by
    intro r hr
    rw [mergeRow, if_pos]
    cases hbase : base.get? r.1 with
    | some b => exact mem_rows.mp (hkeep.subset (mem_rows.mpr hbase))
    | none =>
      rw [Option.eq_none_iff_forall_ne_some]
      intro b hb
      have hlt := theirs.fresh r hr
      have hge := h.new_key hbase hb
      omega
  refine ⟨inserted base mine theirs, ?_⟩
  rw [rows_merge, List.filterMap_congr hsame, List.filterMap_some]

end Descending

end Merge

end Table

/-! ### Every interleaving -/

section Runs

variable {T S : Type} {effect : T → S → S → S} {s : Interleaving T S} {events : List (Event T)}

theorem run_append (s : Interleaving T S) (events more : List (Event T)) :
    run effect s (events ++ more) = run effect (run effect s events) more :=
  List.foldl_append

/-- The committed state and all snapshots satisfy `I`, and the committed state has only moved
on from the snapshots. -/
structure Coherent (I : S → Prop) (R : S → S → Prop) (s : Interleaving T S) : Prop where
  committed : I s.committed
  live : ∀ t ∈ s.live, I t.snapshot ∧ R t.snapshot s.committed

section Coherent

variable {I : S → Prop} {R : S → S → Prop} (hrefl : ∀ s, R s s)
  (htrans : ∀ {s t u}, R s t → R t u → R s u)
  (hstep : ∀ {tx σ s}, I σ → I s → R σ s → I (effect tx σ s) ∧ R s (effect tx σ s))

include hrefl htrans hstep

theorem Coherent.fire (h : Coherent I R s) (event : Event T) :
    Coherent I R (fire effect s event) ∧ R s.committed (fire effect s event).committed := by
  cases event with
  | start tx =>
    refine ⟨⟨h.committed, fun t ht => ?_⟩, hrefl _⟩
    rcases List.mem_append.mp ht with ht | ht
    · exact h.live t ht
    · obtain rfl := List.mem_singleton.mp ht
      exact ⟨h.committed, hrefl _⟩
  | finish k =>
    cases hk : s.live[k]? with
    | none =>
      simp only [Lib.fire, hk]
      exact ⟨h, hrefl _⟩
    | some t =>
      simp only [Lib.fire, hk]
      obtain ⟨hsnapshot, hread⟩ := h.live t (List.mem_of_getElem? hk)
      obtain ⟨hI, hR⟩ := @hstep t.tx _ _ hsnapshot h.committed hread
      refine ⟨⟨hI, fun u' hu' => ?_⟩, hR⟩
      obtain ⟨u, hu, rfl⟩ := List.mem_map.mp hu'
      obtain ⟨hIu, hRu⟩ := h.live u (List.mem_of_mem_eraseIdx hu)
      exact ⟨hIu, htrans hRu hR⟩

/-- **The rule for races.** If every transaction keeps `I` and moves the committed state on,
whatever state it has read that `I` holds of and that the committed state has moved on from,
then every interleaving does. -/
theorem Coherent.run (h : Coherent I R s) (events : List (Event T)) :
    Coherent I R (run effect s events) ∧ R s.committed (run effect s events).committed := by
  induction events generalizing s with
  | nil => exact ⟨h, hrefl _⟩
  | cons event rest ih =>
    obtain ⟨hfire, hfirst⟩ := h.fire hrefl htrans hstep event
    obtain ⟨hrun, hrest⟩ := ih hfire
    exact ⟨hrun, htrans hfirst hrest⟩

end Coherent

/-! ### Serial runs -/

/-- The transactions a run finishes, in this order. -/
def finished (effect : T → S → S → S) : Interleaving T S → List (Event T) → List T
  | _, [] => []
  | s, .start tx :: rest => finished effect (fire effect s (.start tx)) rest
  | s, .finish k :: rest =>
    (s.live[k]?.map InFlight.tx).toList ++ finished effect (fire effect s (.finish k)) rest

/-- Transactions that each act on the committed state as `alone` does make a serial run. -/
theorem run_serial {G : InFlight T S → S → Prop} (alone : T → S → S)
    (hguard : Guarded effect G s events)
    (halone : ∀ t c, G t c → effect t.tx t.snapshot c = alone t.tx c) :
    (run effect s events).committed =
      (finished effect s events).foldl (fun c tx => alone tx c) s.committed := by
  induction events generalizing s with
  | nil => rfl
  | cons event rest ih =>
    have hrest := ih hguard.2
    cases event with
    | start tx => exact hrest
    | finish k =>
      refine hrest.trans ?_
      rw [finished, List.foldl_append]
      cases hk : s.live[k]? with
      | none => simp [fire, hk]
      | some t => simp [fire, hk, halone t _ (hguard.1 k t rfl hk)]

end Runs

end Lib
