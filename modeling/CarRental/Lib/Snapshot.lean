import CarRental.Lib.Table

/-!
# CarRental.Lib.Snapshot

**Transactions on snapshots.** A transaction reads the state that was committed
when it began and writes back what it changed when it ends, whatever others have
committed in between: this is repeatable read without locks or version columns.

Two parts, for any rows and any transactions:

* `Table.merge`, the effect of a commit on one table. A row the transaction left
  alone stays as committed, a row it changed is overwritten as a whole (the last
  writer wins), and the rows it inserted are added under keys of their own,
  because `Table.bump` lets a snapshot draw from the committed counter; and
* `run`, the interleavings: any number of transactions in flight, each starting
  and finishing at any time. Of every transaction in flight the state remembers
  which others have finished since it began (`InFlight.since`).

A column that only the transactions keep unique stays unique over a commit whose values
no other transaction has committed meanwhile (`Table.UniqueOn.merge`).

`run_invariant` is the rule for guarded runs. `run_isolated` is the one that
matters: what every transaction keeps as long as its snapshot still *agrees* with
the committed state is kept by every run in which no transaction finishes over one
that conflicts with it.
-/

namespace Lib

namespace Table

variable {α : Type} {t base mine theirs : Table α} {i : Nat} {a : α}

/-- The same rows, with a counter that has moved on to at least `n`. -/
def bump (t : Table α) (n : Nat) : Table α where
  rows := t.rows
  nextId := max t.nextId n
  nodup := t.nodup
  fresh := fun r hr => Nat.lt_of_lt_of_le (t.fresh r hr) (Nat.le_max_left _ _)

/-- The rows the transaction has inserted: those under keys that were free in its snapshot
and that the committed counter has not handed out. -/
def inserted (base mine theirs : Table α) : List (Nat × α) :=
  mine.rows.filter fun r => theirs.nextId ≤ r.1 && (base.get? r.1).isNone

theorem mem_inserted {b : α} : (i, b) ∈ inserted base mine theirs ↔
    mine.get? i = some b ∧ theirs.nextId ≤ i ∧ base.get? i = none := by
  simp [inserted, mem_rows]

section Merge

variable [DecidableEq α]

/-- What becomes of a committed row: left alone, overwritten or deleted. -/
def mergeRow (base mine : Table α) (r : Nat × α) : Option (Nat × α) :=
  if mine.get? r.1 = base.get? r.1 then some r else (mine.get? r.1).map fun a => (r.1, a)

theorem mergeRow_fst {r q : Nat × α} (h : mergeRow base mine r = some q) : q.1 = r.1 := by
  unfold mergeRow at h
  split at h
  · rw [← Option.some.inj h]
  · obtain ⟨a, -, rfl⟩ := Option.map_eq_some_iff.mp h
    rfl

theorem mergeRow_keys (l : List (Nat × α)) :
    ((l.filterMap (mergeRow base mine)).map Prod.fst).Sublist (l.map Prod.fst) := by
  induction l with
  | nil => exact List.Sublist.refl _
  | cons r rest ih =>
    rw [List.filterMap_cons, List.map_cons]
    split
    · exact ih.cons _
    · next q hq =>
      rw [List.map_cons, mergeRow_fst hq]
      exact ih.cons_cons _

/-- The committed table after a transaction that read `base` and left `mine`. -/
def merge (base mine theirs : Table α) : Table α where
  rows := theirs.rows.filterMap (mergeRow base mine) ++ inserted base mine theirs
  nextId := max theirs.nextId mine.nextId
  nodup := by
    rw [List.map_append, List.nodup_append]
    refine ⟨(mergeRow_keys theirs.rows).nodup theirs.nodup,
      (List.Sublist.map Prod.fst List.filter_sublist).nodup mine.nodup, ?_⟩
    -- the old keys lie below the committed counter, the inserted ones do not
    intro x hx y hy hxy
    obtain ⟨r, hr, rfl⟩ := List.mem_map.mp ((mergeRow_keys theirs.rows).subset hx)
    obtain ⟨q, hq, rfl⟩ := List.mem_map.mp hy
    have hlt := theirs.fresh r hr
    have hge := (List.mem_filter.mp hq).2
    rw [Bool.and_eq_true, decide_eq_true_eq] at hge
    omega
  fresh := by
    intro r hr
    rcases List.mem_append.mp hr with hr | hr
    · obtain ⟨q, hq, hrow⟩ := List.mem_filterMap.mp hr
      rw [mergeRow_fst hrow]
      exact Nat.lt_of_lt_of_le (theirs.fresh q hq) (Nat.le_max_left _ _)
    · exact Nat.lt_of_lt_of_le (mine.fresh r (List.mem_of_mem_filter hr)) (Nat.le_max_right _ _)

theorem mem_merged_rows {b : α} : (i, b) ∈ theirs.rows.filterMap (mergeRow base mine) ↔
    ∃ a, theirs.get? i = some a ∧ mergeRow base mine (i, a) = some (i, b) := by
  rw [List.mem_filterMap]
  constructor
  · intro h
    obtain ⟨⟨k, a⟩, hr, hrow⟩ := h
    obtain rfl : i = k := mergeRow_fst hrow
    exact ⟨a, mem_rows.mp hr, hrow⟩
  · intro h
    obtain ⟨a, ha, hrow⟩ := h
    exact ⟨(i, a), mem_rows.mpr ha, hrow⟩

/-- A row the transaction left alone is as committed. -/
theorem get?_merge_same (h : mine.get? i = base.get? i) :
    (merge base mine theirs).get? i = theirs.get? i := by
  refine Option.ext fun b => ?_
  rw [← mem_rows, merge, List.mem_append, mem_merged_rows, mem_inserted]
  have hrow : ∀ a, mergeRow base mine (i, a) = some (i, a) := fun a => by rw [mergeRow, if_pos h]
  constructor
  · intro hmem
    rcases hmem with ⟨a, ha, hab⟩ | ⟨hmine, -, hnone⟩
    · rw [hrow, Option.some.injEq, Prod.mk.injEq] at hab
      rw [ha, hab.2]
    · rw [h, hnone] at hmine
      exact absurd hmine (by simp)
  · exact fun hb => Or.inl ⟨b, hb, hrow b⟩

/-- A row that is there after the commit was committed before, or the transaction wrote it. -/
theorem get?_merge_eq_some (h : (merge base mine theirs).get? i = some a) :
    theirs.get? i = some a ∨ (mine.get? i = some a ∧ mine.get? i ≠ base.get? i) := by
  by_cases hsame : mine.get? i = base.get? i
  · rw [get?_merge_same hsame] at h
    exact Or.inl h
  · rw [← mem_rows, merge, List.mem_append, mem_merged_rows, mem_inserted] at h
    rcases h with ⟨a', -, hrow⟩ | ⟨hmine, -, -⟩
    · rw [mergeRow, if_neg hsame, Option.map_eq_some_iff] at hrow
      obtain ⟨b, hb, hpair⟩ := hrow
      rw [(Prod.mk.inj hpair).2] at hb
      exact Or.inr ⟨hb, hsame⟩
    · exact Or.inr ⟨hmine, hsame⟩

end Merge

/-! ### Unique columns

A column that no constraint keeps unique, only the transactions themselves: each looks for
the value first and inserts when it finds none. -/

section Unique

variable {κ : Type} {column : α → κ} {P : κ → Prop} {before between after : Table α}

/-- No two rows have the same value in the column. -/
def UniqueOn (column : α → κ) (t : Table α) : Prop :=
  ∀ ⦃i j a b⦄, t.get? i = some a → t.get? j = some b → column a = column b → i = j

/-- From `before` to `after` rows have only been appended, each with a value in `P` that
no other row has. -/
structure AppendsOnce (column : α → κ) (P : κ → Prop) (before after : Table α) : Prop where
  kept : ∀ i a, before.get? i = some a → after.get? i = some a
  new : ∀ i a, after.get? i = some a → before.get? i = some a ∨
    (before.get? i = none ∧ P (column a) ∧
      ∀ j b, after.get? j = some b → column b = column a → j = i)

theorem AppendsOnce.refl (t : Table α) : AppendsOnce column P t t :=
  ⟨fun _ _ h => h, fun _ _ h => Or.inl h⟩

theorem AppendsOnce.trans (h₁ : AppendsOnce column P before between)
    (h₂ : AppendsOnce column P between after) : AppendsOnce column P before after := by
  refine ⟨fun i a h => h₂.kept i a (h₁.kept i a h), fun i a h => ?_⟩
  rcases h₂.new i a h with hmid | ⟨hnone, hP, honly⟩
  · refine (h₁.new i a hmid).imp_right fun hnew => ?_
    obtain ⟨hnone, hP, honly⟩ := hnew
    refine ⟨hnone, hP, fun j b hb hcol => ?_⟩
    -- a later row with this value would have to be the only one with it
    rcases h₂.new j b hb with hb | ⟨-, -, honly'⟩
    · exact honly j b hb hcol
    · exact (honly' i a h hcol.symm).symm
  · refine Or.inr ⟨?_, hP, honly⟩
    rw [Option.eq_none_iff_forall_ne_some] at hnone ⊢
    exact fun b hb => hnone b (h₁.kept i b hb)

/-- Inserting a value that was looked for in vain. -/
theorem AppendsOnce.insert (hP : P (column a))
    (habsent : ∀ i b, t.get? i = some b → column b ≠ column a) :
    AppendsOnce column P t (t.insert a) := by
  refine ⟨fun i b h => get?_insert_of_get? h, fun i b h => ?_⟩
  rcases get?_insert_eq_some.mp h with ⟨rfl, rfl⟩ | hb
  · refine Or.inr ⟨get?_nextId, hP, fun j c hc hcol => ?_⟩
    rcases get?_insert_eq_some.mp hc with ⟨hj, -⟩ | hc
    · exact hj
    · exact absurd hcol (habsent j c hc)
  · exact Or.inl hb

/-- A commit keeps the column unique when none of the values the transaction may have inserted
has been committed by others since its snapshot. -/
theorem UniqueOn.merge [DecidableEq α] (hunique : UniqueOn column theirs)
    (h : AppendsOnce column P base mine)
    (hunraced : ∀ i a, theirs.get? i = some a → P (column a) →
      ∃ j b, base.get? j = some b ∧ column b = column a) :
    UniqueOn column (Table.merge base mine theirs) := by
  have hrow : ∀ i a, (Table.merge base mine theirs).get? i = some a → theirs.get? i = some a ∨
      (mine.get? i = some a ∧ base.get? i = none ∧ P (column a) ∧
        ∀ j b, mine.get? j = some b → column b = column a → j = i) := by
    intro i a ha
    refine (get?_merge_eq_some ha).imp_right fun hwritten => ?_
    obtain ⟨hmine, hne⟩ := hwritten
    rcases h.new i a hmine with hbase | hnew
    · exact absurd (hmine.trans hbase.symm) hne
    · exact ⟨hmine, hnew⟩
  -- a committed value cannot be one the transaction inserted: it would have found it
  have hclash : ∀ i a j b, theirs.get? i = some a → base.get? j = none → P (column b) →
      (∀ k c, mine.get? k = some c → column c = column b → k = j) → column a ≠ column b := by
    intro i a j b ha hnone hP honly hcol
    obtain ⟨k, c, hc, hk⟩ := hunraced i a ha (hcol ▸ hP)
    obtain rfl := honly k c (h.kept k c hc) (hk.trans hcol)
    rw [hnone] at hc
    cases hc
  intro i j a b ha hb hcol
  rcases hrow i a ha with ha | ⟨hmine, hnone, hP, honly⟩
  · rcases hrow j b hb with hb | ⟨-, hnone, hP, honly⟩
    · exact hunique ha hb hcol
    · exact absurd hcol (hclash i a j b ha hnone hP honly)
  · rcases hrow j b hb with hb | ⟨-, -, -, honly'⟩
    · exact absurd hcol.symm (hclash j b i a hb hnone hP honly)
    · exact honly' i a hmine hcol

end Unique

end Table

/-! ### Interleavings -/

/-- A transaction in flight: what it does, the state it has read, and the transactions that
have finished since it began. -/
structure InFlight (T S : Type) where
  tx : T
  snapshot : S
  since : List T

/-- The committed state and the transactions in flight. -/
structure Interleaving (T S : Type) where
  committed : S
  live : List (InFlight T S)

/-- A transaction starts, or the `k`-th one in flight finishes. -/
inductive Event (T : Type)
  | start (tx : T)
  | finish (k : Nat)

section Runs

-- what the end of a transaction makes of its snapshot and the committed state
variable {T S : Type} (effect : T → S → S → S)

/-- A transaction starts on what is committed, or one that is live commits. -/
def fire (s : Interleaving T S) : Event T → Interleaving T S
  | .start tx => { s with live := s.live ++ [⟨tx, s.committed, []⟩] }
  | .finish k =>
    match s.live[k]? with
    | none => s
    | some t =>
      { committed := effect t.tx t.snapshot s.committed
        live := (s.live.eraseIdx k).map fun u => { u with since := u.since ++ [t.tx] } }

/-- The events, one after the other. -/
def run (s : Interleaving T S) (events : List (Event T)) : Interleaving T S :=
  events.foldl (fire effect) s

/-- Whenever a transaction finishes, it meets `G` with the committed state. -/
def Guarded (G : InFlight T S → S → Prop) : Interleaving T S → List (Event T) → Prop
  | _, [] => True
  | s, event :: rest =>
    (∀ k t, event = .finish k → s.live[k]? = some t → G t s.committed) ∧
      Guarded G (fire effect s event) rest

variable {effect} {G : InFlight T S → S → Prop} {s : Interleaving T S} {events : List (Event T)}

theorem Guarded.start {tx : T} (h : Guarded effect G (fire effect s (.start tx)) events) :
    Guarded effect G s (.start tx :: events) := by
  refine ⟨fun k t hk => ?_, h⟩
  cases hk

theorem Guarded.finish {k : Nat} {t : InFlight T S} (hk : s.live[k]? = some t)
    (hG : G t s.committed) (h : Guarded effect G (fire effect s (.finish k)) events) :
    Guarded effect G s (.finish k :: events) := by
  refine ⟨fun k' t' heq hk' => ?_, h⟩
  obtain rfl := Event.finish.inj heq
  rw [hk] at hk'
  rw [← Option.some.inj hk']
  exact hG

/-- What starting keeps, and finishing under the guard, every guarded run keeps. -/
theorem run_invariant {I : Interleaving T S → Prop} (hguard : Guarded effect G s events)
    (hstart : ∀ s tx, I s → I (fire effect s (.start tx)))
    (hfinish : ∀ s k t, s.live[k]? = some t → G t s.committed → I s →
      I (fire effect s (.finish k)))
    (hs : I s) : I (run effect s events) := by
  induction events generalizing s with
  | nil => exact hs
  | cons event rest ih =>
    refine ih hguard.2 ?_
    cases event with
    | start tx => exact hstart s tx hs
    | finish k =>
      cases hk : s.live[k]? with
      | none => simpa [fire, hk] using hs
      | some t => exact hfinish s k t hk (hguard.1 k t rfl hk) hs

/-- No transaction that conflicts with this one has finished since it began. -/
def Isolated (Conflicts : T → T → Prop) (t : InFlight T S) (_ : S) : Prop :=
  ∀ u ∈ t.since, ¬ Conflicts t.tx u

/-- **The isolation rule.** `Agree tx σ s` says that the committed state `s` still has what
`tx` read in its snapshot `σ`. If transactions that do not conflict keep the agreement of one
another, and each keeps `I` on a state its snapshot agrees with, then `I` is kept by every run
in which no transaction finishes over a conflicting one. -/
theorem run_isolated {I : S → Prop} (Agree : T → S → S → Prop) {Conflicts : T → T → Prop}
    (hrefl : ∀ tx s, Agree tx s s)
    (hkeep : ∀ {tx u σ σ' s}, ¬ Conflicts tx u → Agree tx σ s → Agree tx σ (effect u σ' s))
    (hstep : ∀ {tx σ s}, I s → Agree tx σ s → I (effect tx σ s))
    (hguard : Guarded effect (Isolated Conflicts) s events) (hlive : s.live = [])
    (hs : I s.committed) : I (run effect s events).committed := by
  -- every snapshot agrees with the committed state unless its transaction is already spoilt
  have hall := run_invariant (I := fun s => I s.committed ∧ ∀ t ∈ s.live,
      Isolated Conflicts t s.committed → Agree t.tx t.snapshot s.committed) hguard ?_ ?_
    ⟨hs, by simp [hlive]⟩
  · exact hall.1
  · intro s tx h
    refine ⟨h.1, fun t ht hiso => ?_⟩
    rcases List.mem_append.mp ht with ht | ht
    · exact h.2 t ht hiso
    · obtain rfl := List.mem_singleton.mp ht
      exact hrefl tx s.committed
  · intro s k t hk hiso h
    have hagree := h.2 t (List.mem_of_getElem? hk) hiso
    simp only [fire, hk]
    refine ⟨hstep h.1 hagree, fun u' hu' hiso' => ?_⟩
    obtain ⟨u, hu, rfl⟩ := List.mem_map.mp hu'
    have hold : Isolated Conflicts u s.committed := fun v hv =>
      hiso' v (List.mem_append_left _ hv)
    have hnew : ¬ Conflicts u.tx t.tx := hiso' t.tx (List.mem_append_right _ (by simp))
    exact hkeep hnew (h.2 u (List.mem_of_mem_eraseIdx hu) hold)

end Runs

end Lib
