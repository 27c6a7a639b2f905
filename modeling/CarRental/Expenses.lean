import Mathlib.Algebra.BigOperators.Group.List.Basic
import CarRental.Rental

/-!
# CarRental.Expenses

The **expense ledger** over whole runs.

Creating, editing and completing a maintenance all go through one find-or-new
helper, and nothing in the schema keeps it from meeting two records. `Settled`
says why it never does: up to order, the ledger *is* the list of the maintenances,
the deleted ones included as they last were. `Audited` runs keep that list of
deleted maintenances beside the database.
-/

namespace CarRental

open Lib Desk MaintenanceService FinancialService

variable {w w' : World} {env : Env} {a : Action} {db db' : Db} {id i j : Id}
  {m old : Maintenance} {removed : List (Id × Maintenance)}

/-! ### What a call does to the maintenances and the expenses -/

/-- Saving the maintenance has turned the ledger `t` into `t'`. -/
def Recorded (id : Id) (m : Maintenance) (t t' : Table ExpenseRecord) : Prop :=
  ∃ db₂ recorded : Db, db₂.expenseRecords = t ∧
    recordExpenseFromMaintenance id m db₂ = .ok recorded ∧ recorded.expenseRecords = t'

/-- The ways a call can change the two tables. -/
inductive ExpenseMove (db db' : Db) : Prop
  | same : db'.maintenances = db.maintenances → db'.expenseRecords = db.expenseRecords →
      ExpenseMove db db'
  | add {m : Maintenance} : m.cost.isSome = true →
      db'.maintenances = db.maintenances.insert m →
      Recorded db.maintenances.nextId m db.expenseRecords db'.expenseRecords →
      ExpenseMove db db'
  | edit {id : Id} {old m : Maintenance} : db.maintenances.get? id = some old →
      (old.cost.isSome = true → m.cost.isSome = true) →
      db'.maintenances = db.maintenances.set id m →
      Recorded id m db.expenseRecords db'.expenseRecords → ExpenseMove db db'
  | remove {id : Id} {old : Maintenance} : db.maintenances.get? id = some old →
      db'.maintenances = db.maintenances.delete id →
      db'.expenseRecords = db.expenseRecords → ExpenseMove db db'

/-- The request of the call, if it has one for a maintenance, names a cost. -/
def Call.priced : Call → Prop
  | .maintenanceCreate request | .maintenanceUpdate _ request => request.cost.isSome = true
  | _ => True

/-- The actions of a call that changes no maintenance leave the two tables alone. -/
theorem Desk.Act.keeps_expenses {call : Call} {db₀ : Db} (h : Act env a db db')
    (ha : a.PerformedBy env db₀ call)
    (hcall : call.changesMaintenances = false) :
    db'.maintenances = db.maintenances ∧ db'.expenseRecords = db.expenseRecords := by
  cases h with
  | complete _ _ _ _ hdb₁ _ => subst hdb₁; exact ⟨rfl, rfl⟩
  | addMaintenance =>
    obtain ⟨request, rfl⟩ := ha
    exact absurd hcall (by simp [Call.changesMaintenances])
  | editMaintenance =>
    rcases ha with ⟨request, rfl⟩ | rfl <;> exact absurd hcall (by simp [Call.changesMaintenances])
  | removeMaintenance =>
    obtain rfl := ha
    exact absurd hcall (by simp [Call.changesMaintenances])
  | _ => exact ⟨rfl, rfl⟩

theorem Call.keeps_expenses {call : Call} (hcall : call.changesMaintenances = false)
    (hexec : call.exec env db = .ok db') :
    db'.maintenances = db.maintenances ∧ db'.expenseRecords = db.expenseRecords := by
  obtain ⟨as, has, hrun⟩ := Desk.Call.exec_performed hexec
  refine hrun.invariant (I := fun db' => db'.maintenances = db.maintenances ∧
    db'.expenseRecords = db.expenseRecords) ?_ ⟨rfl, rfl⟩
  intro a ha s t hact hs
  obtain ⟨hm, he⟩ := hact.keeps_expenses (has a ha) hcall
  exact ⟨hm.trans hs.1, he.trans hs.2⟩

/-- Reconciling the car of a saved maintenance and recording its expense, seen from the two
tables. -/
theorem recorded_of_save {today : LocalDate} {k : Id} {db₁ recorded : Db}
    (h : recordExpenseFromMaintenance id m (reconcileCarStatus today k db₁) = .ok recorded) :
    recorded.maintenances = db₁.maintenances ∧
      Recorded id m db₁.expenseRecords recorded.expenseRecords := by
  obtain ⟨cars, hframe⟩ := reconcileCarStatus_frame today k db₁
  rw [hframe] at h
  refine ⟨?_, { db₁ with cars := cars }, recorded, rfl, h, rfl⟩
  rw [← recorded_frame h]

/-- Deleting a maintenance, seen from the two tables. -/
theorem delete_tables (h : MaintenanceService.delete env id db = .ok db') :
    (∃ old, db.maintenances.get? id = some old) ∧
      db'.maintenances = db.maintenances.delete id ∧ db'.expenseRecords = db.expenseRecords := by
  simp only [MaintenanceService.delete, bind_eq_ok, getMaintenance, orThrow_eq_ok,
    pure_eq_ok] at h
  obtain ⟨old, hold, _, -, rfl⟩ := h
  obtain ⟨cars, hframe⟩ := reconcileCarStatus_frame env.today old.carId
    { db with maintenances := db.maintenances.delete id }
  rw [hframe]
  exact ⟨⟨old, hold⟩, rfl, rfl⟩

/-- **What a priced call does to the two tables.** -/
theorem Call.expenseMove {call : Call} (hpriced : call.priced)
    (hexec : call.exec env db = .ok db') : ExpenseMove db db' := by
  cases call with
  | maintenanceCreate request =>
    obtain ⟨⟨_, db'⟩, h, rfl⟩ := map_eq_ok.mp hexec
    unfold MaintenanceService.create at h
    simp only [bind_eq_ok] at h
    obtain ⟨_, -, recorded, hrec, _, -, h⟩ := h
    obtain ⟨-, rfl⟩ := Prod.mk.inj (pure_eq_ok.mp h)
    obtain ⟨hm, hrecorded⟩ := recorded_of_save hrec
    refine .add ?_ hm hrecorded
    exact Option.isSome_map.trans hpriced
  | maintenanceUpdate id request =>
    obtain ⟨⟨_, db'⟩, h, rfl⟩ := map_eq_ok.mp hexec
    unfold MaintenanceService.update at h
    simp only [bind_eq_ok, getMaintenance, orThrow_eq_ok] at h
    obtain ⟨old, hold, _, -, _, -, recorded, hrec, _, -, h⟩ := h
    obtain ⟨-, rfl⟩ := Prod.mk.inj (pure_eq_ok.mp h)
    obtain ⟨hm, hrecorded⟩ := recorded_of_save hrec
    refine .edit hold (fun _ => ?_) hm hrecorded
    exact Option.isSome_map.trans hpriced
  | maintenanceComplete id =>
    obtain ⟨⟨_, db'⟩, h, rfl⟩ := map_eq_ok.mp hexec
    unfold MaintenanceService.complete at h
    simp only [bind_eq_ok, getMaintenance, orThrow_eq_ok] at h
    obtain ⟨old, hold, _, -, _, -, recorded, hrec, _, -, h⟩ := h
    obtain ⟨-, rfl⟩ := Prod.mk.inj (pure_eq_ok.mp h)
    obtain ⟨hm, hrecorded⟩ := recorded_of_save hrec
    refine .edit hold (fun hcost => ?_) hm hrecorded
    exact hcost
  | maintenanceDelete id =>
    obtain ⟨⟨old, hold⟩, hm, he⟩ := delete_tables hexec
    exact .remove hold hm he
  | _ =>
    obtain ⟨hm, he⟩ := Call.keeps_expenses rfl hexec
    exact .same hm he

/-! ### The ledger is the list of the maintenances -/

/-- What a record and a maintenance are compared by. -/
structure Expense where
  maintenanceId : Id
  amount : Option Amount
  category : String
  description : Option String

/-- The expense a record states. -/
def entry (r : ExpenseRecord) : Expense := ⟨r.maintenanceId, some r.amount, r.category,
  r.description⟩

/-- The expense a maintenance causes. -/
def line (r : Id × Maintenance) : Expense := ⟨r.1, r.2.cost, r.2.type, r.2.description⟩

/-- Saving a maintenance with a cost writes its expense once: as a new record when it had
none, else over a record it had. -/
theorem Recorded.cases {t t' : Table ExpenseRecord} (h : Recorded id m t t')
    (hcost : m.cost.isSome = true) : ∃ record, entry record = line (id, m) ∧
    (((∀ j r, t.get? j = some r → r.maintenanceId ≠ id) ∧ t' = t.insert record) ∨
      ∃ j r, t.get? j = some r ∧ r.maintenanceId = id ∧ t' = t.set j record) := by
  obtain ⟨db₂, recorded, rfl, hrec, rfl⟩ := h
  rcases recordExpenseFromMaintenance_cases hrec with
    ⟨hnone, -⟩ | ⟨cost, car, hsome, -, ⟨hfind, rfl⟩ | ⟨j, r, hfind, rfl⟩⟩
  · rw [hnone] at hcost
    exact absurd hcost (by simp)
  · refine ⟨expenseRecord id m car cost, by simp [entry, line, expenseRecord, hsome],
      Or.inl ⟨?_, rfl⟩⟩
    intro j r hr hid
    have hmem : (j, r) ∈ db₂.expenseRecords.select fun _ r => r.maintenanceId = id :=
      Table.mem_select.mpr ⟨hr, by simpa using hid⟩
    unfold ExpenseRecordRepository.findByMaintenanceId at hfind
    split at hfind
    · next hnil => simp [hnil] at hmem
    · simp at hfind
    · simp at hfind
  · refine ⟨expenseRecord id m car cost, by simp [entry, line, expenseRecord, hsome],
      Or.inr ⟨j, r, ?_⟩⟩
    unfold ExpenseRecordRepository.findByMaintenanceId at hfind
    split at hfind
    · simp at hfind
    · next record hone =>
      obtain rfl : record = (j, r) := by simpa using hfind
      have hmem : (j, r) ∈ db₂.expenseRecords.select fun _ r => r.maintenanceId = id := by
        rw [hone]
        exact List.mem_singleton_self _
      obtain ⟨hr, hid⟩ := Table.mem_select.mp hmem
      exact ⟨hr, by simpa using hid, rfl⟩
    · simp at hfind

/-- Up to order the records are the maintenances, with the removed ones as they last were; no
key occurs twice. -/
structure Settled (db : Db) (removed : List (Id × Maintenance)) : Prop where
  lines : (db.expenseRecords.rows.map fun r => entry r.2).Perm
    ((db.maintenances.rows ++ removed).map line)
  keys : ((db.maintenances.rows ++ removed).map Prod.fst).Nodup
  old : ∀ r ∈ removed, r.1 < db.maintenances.nextId

theorem Settled.empty (collate : String → String) : Settled (Db.empty collate) [] :=
  ⟨.refl _, List.nodup_nil, by simp⟩

/-- Two maintenances of the list with one key are the same. -/
theorem Settled.unique (h : Settled db removed) {r r' : Id × Maintenance}
    (hr : r ∈ db.maintenances.rows ++ removed) (hr' : r' ∈ db.maintenances.rows ++ removed)
    (hkey : r.1 = r'.1) : r = r' :=
  List.inj_on_of_nodup_map h.keys hr hr' hkey

/-- Every record belongs to a maintenance of the list. -/
theorem Settled.origin (h : Settled db removed) {r : ExpenseRecord}
    (hr : db.expenseRecords.get? j = some r) :
    ∃ m, (r.maintenanceId, m) ∈ db.maintenances.rows ++ removed ∧
      entry r = line (r.maintenanceId, m) := by
  have hmem : entry r ∈ (db.maintenances.rows ++ removed).map line :=
    h.lines.mem_iff.mp (List.mem_map.mpr ⟨(j, r), Table.mem_rows.mpr hr, rfl⟩)
  obtain ⟨⟨i, m⟩, hm, heq⟩ := List.mem_map.mp hmem
  obtain rfl : i = r.maintenanceId := congrArg Expense.maintenanceId heq
  exact ⟨m, hm, heq.symm⟩

/-- Every maintenance of the list has its record. -/
theorem Settled.record (h : Settled db removed)
    (hm : (i, m) ∈ db.maintenances.rows ++ removed) :
    ∃ j r, db.expenseRecords.get? j = some r ∧ entry r = line (i, m) := by
  have hmem := h.lines.mem_iff.mpr (List.mem_map_of_mem hm)
  obtain ⟨⟨j, r⟩, hr, heq⟩ := List.mem_map.mp hmem
  exact ⟨j, r, Table.mem_rows.mp hr, heq⟩

/-- A settled ledger has all keys below the counter of the maintenances. -/
theorem Settled.below (h : Settled db removed) {r : Id × Maintenance}
    (hr : r ∈ db.maintenances.rows ++ removed) : r.1 < db.maintenances.nextId := by
  rcases List.mem_append.mp hr with hr | hr
  · exact db.maintenances.fresh r hr
  · exact h.old r hr

/-- Every maintenance of the list has a cost. -/
theorem Settled.cost (h : Settled db removed)
    (hm : (i, m) ∈ db.maintenances.rows ++ removed) : m.cost.isSome = true := by
  obtain ⟨j, r, -, heq⟩ := h.record hm
  have hcost : some r.amount = m.cost := congrArg Expense.amount heq
  rw [← hcost]
  rfl

/-- No two records belong to one maintenance. -/
theorem Settled.record_unique (h : Settled db removed) {r r' : ExpenseRecord}
    (hr : db.expenseRecords.get? i = some r) (hr' : db.expenseRecords.get? j = some r')
    (hid : r.maintenanceId = r'.maintenanceId) : i = j := by
  have hnodup : (db.expenseRecords.rows.map fun r => r.2.maintenanceId).Nodup := by
    have hperm := h.lines.map Expense.maintenanceId
    rw [List.map_map, List.map_map] at hperm
    exact hperm.nodup_iff.mpr h.keys
  have hrow := List.inj_on_of_nodup_map hnodup (Table.mem_rows.mpr hr) (Table.mem_rows.mpr hr') hid
  exact (Prod.mk.inj hrow).1

/-- The records of a maintenance are one or none. -/
theorem Settled.select_cases (h : Settled db removed) (i : Id) :
    (db.expenseRecords.select fun _ r => r.maintenanceId = i) = [] ∨
    ∃ row, (db.expenseRecords.select fun _ r => r.maintenanceId = i) = [row] := by
  have hnodup := Table.select_nodup db.expenseRecords fun _ r => r.maintenanceId = i
  cases hsel : db.expenseRecords.select fun _ r => r.maintenanceId = i with
  | nil => exact Or.inl rfl
  | cons row rest =>
    cases rest with
    | nil => exact Or.inr ⟨row, rfl⟩
    | cons row' rest =>
      -- two of them would have the same key
      have hrow := Table.mem_select.mp (hsel ▸ List.mem_cons_self : row ∈ _)
      have hrow' := Table.mem_select.mp
        (hsel ▸ List.mem_cons_of_mem _ List.mem_cons_self : row' ∈ _)
      have hid : row.2.maintenanceId = i := by simpa using hrow.2
      have hid' : row'.2.maintenanceId = i := by simpa using hrow'.2
      have hkey := h.record_unique hrow.1 hrow'.1 (hid.trans hid'.symm)
      rw [hsel] at hnodup
      simp [hkey] at hnodup

/-! ### Audited runs -/

/-- The rows of `t` that are no longer in `t'`. -/
def gone (t t' : Table Maintenance) : List (Id × Maintenance) :=
  t.rows.filter fun r => (t'.get? r.1).isNone

theorem gone_eq_nil {t t' : Table Maintenance}
    (h : ∀ i m, t.get? i = some m → (t'.get? i).isSome = true) : gone t t' = [] := by
  refine List.filter_eq_nil_iff.mpr fun r hr => ?_
  rw [← Option.not_isSome, h r.1 r.2 (Table.mem_rows.mp hr)]
  decide

theorem gone_delete {t : Table Maintenance} :
    t.rows.Perm ((t.delete i).rows ++ gone t (t.delete i)) := by
  have hgone : gone t (t.delete i) = t.rows.filter fun r => !decide (r.1 ≠ i) := by
    refine List.filter_congr fun r hr => ?_
    rw [Table.get?_delete]
    by_cases hid : r.1 = i
    · simp [hid]
    · simp [hid, Table.mem_rows.mp hr]
  rw [hgone]
  exact (List.filter_append_perm (fun r : Id × Maintenance => decide (r.1 ≠ i)) t.rows).symm

section Moves

variable (hS : Settled db removed)

include hS

/-- A new maintenance gets its record. -/
theorem Settled.add (hcost : m.cost.isSome = true)
    (hm : db'.maintenances = db.maintenances.insert m)
    (hrec : Recorded db.maintenances.nextId m db.expenseRecords db'.expenseRecords) :
    Settled db' removed := by
  obtain ⟨record, hrecord, ⟨-, he⟩ | ⟨j, r, hr, hid, -⟩⟩ := hrec.cases hcost
  · have hrows : (db'.maintenances.rows ++ removed).Perm
        ((db.maintenances.nextId, m) :: (db.maintenances.rows ++ removed)) := by
      rw [hm, Table.rows_insert, List.append_assoc]
      exact List.perm_middle
    refine ⟨?_, ?_, fun r hr => ?_⟩
    · refine List.Perm.trans ?_ (hrows.map line).symm
      rw [he, Table.rows_insert, List.map_append, List.map_singleton, List.map_cons, ← hrecord]
      exact (List.perm_append_singleton _ _).trans (hS.lines.cons _)
    · rw [(hrows.map Prod.fst).nodup_iff, List.map_cons, List.nodup_cons]
      refine ⟨fun hmem => ?_, hS.keys⟩
      obtain ⟨r, hr, heq⟩ := List.mem_map.mp hmem
      exact Nat.lt_irrefl _ (heq ▸ hS.below hr)
    · rw [hm, Table.nextId_insert]
      exact Nat.lt_succ_of_lt (hS.old r hr)
  · -- a record of a key that is still to be given away
    obtain ⟨m', hm', -⟩ := hS.origin hr
    have hlt := hS.below hm'
    rw [hid] at hlt
    exact absurd hlt (Nat.lt_irrefl _)

/-- The record of a changed maintenance changes with it. -/
theorem Settled.edit (hold : db.maintenances.get? id = some old)
    (hcost : old.cost.isSome = true → m.cost.isSome = true)
    (hm : db'.maintenances = db.maintenances.set id m)
    (hrec : Recorded id m db.expenseRecords db'.expenseRecords) : Settled db' removed := by
  have holdmem : (id, old) ∈ db.maintenances.rows ++ removed :=
    List.mem_append_left _ (Table.mem_rows.mpr hold)
  obtain ⟨rest, hrows, hset, -⟩ := Table.rows_perm hold
  have hbefore : (db.maintenances.rows ++ removed).Perm ((id, old) :: (rest ++ removed)) :=
    hrows.append_right removed
  have hafter : (db'.maintenances.rows ++ removed).Perm ((id, m) :: (rest ++ removed)) := by
    rw [hm]
    exact (hset m).append_right removed
  obtain ⟨record, hrecord, ⟨hnone, -⟩ | ⟨j, r, hr, hid, he⟩⟩ := hrec.cases
    (hcost (hS.cost holdmem))
  · -- the maintenance had its record
    obtain ⟨j, r, hr, heq⟩ := hS.record holdmem
    exact absurd (congrArg Expense.maintenanceId heq) (hnone j r hr)
  · have hentry : entry r = line (id, old) := by
      obtain ⟨m', hm', heq⟩ := hS.origin hr
      rw [heq, hS.unique hm' holdmem hid]
    obtain ⟨restR, hrecords, hsetR, -⟩ := Table.rows_perm hr
    refine ⟨?_, ?_, fun r hr => ?_⟩
    · -- the two heads agree before, so the tails agree
      have htails : (restR.map fun r => entry r.2).Perm ((rest ++ removed).map line) := by
        have hlines := ((hrecords.map fun r => entry r.2).symm.trans hS.lines).trans
          (hbefore.map line)
        rw [List.map_cons, List.map_cons, hentry] at hlines
        exact hlines.cons_inv
      refine List.Perm.trans ?_ (hafter.map line).symm
      rw [he, List.map_cons, ← hrecord]
      exact ((hsetR record).map fun r : Id × ExpenseRecord => entry r.2).trans (htails.cons _)
    · have hkeys := (hbefore.map Prod.fst).nodup_iff.mp hS.keys
      exact (hafter.map Prod.fst).nodup_iff.mpr hkeys
    · rw [hm]
      exact hS.old r hr

/-- The record of a removed maintenance stays. -/
theorem Settled.remove (hm : db'.maintenances = db.maintenances.delete id)
    (he : db'.expenseRecords = db.expenseRecords) :
    Settled db' (removed ++ gone db.maintenances db'.maintenances) := by
  have hrows : (db'.maintenances.rows ++ (removed ++ gone db.maintenances
      db'.maintenances)).Perm (db.maintenances.rows ++ removed) := by
    have hsplit := (gone_delete (t := db.maintenances) (i := id)).append_right removed
    rw [List.append_assoc] at hsplit
    rw [hm]
    exact (List.perm_append_comm.append_left _).trans hsplit.symm
  refine ⟨?_, (hrows.map Prod.fst).nodup_iff.mpr hS.keys, fun r hr => ?_⟩
  · rw [he]
    exact hS.lines.trans (hrows.map line).symm
  · have hbelow := hS.below (hrows.mem_iff.mp (List.mem_append_right _ hr))
    rw [hm]
    exact hbelow

/-- One call keeps the ledger settled. -/
theorem ExpenseMove.settled (h : ExpenseMove db db') :
    Settled db' (removed ++ gone db.maintenances db'.maintenances) := by
  cases h with
  | same hm he =>
    rw [hm, gone_eq_nil fun i m hi => by simp [hi], List.append_nil]
    exact ⟨by rw [hm, he]; exact hS.lines, by rw [hm]; exact hS.keys, by rw [hm]; exact hS.old⟩
  | add hcost hm hrec =>
    rw [hm, gone_eq_nil fun i m hi => by simp [Table.get?_insert_of_get? hi], List.append_nil]
    exact hS.add hcost hm hrec
  | @edit id old m hold hcost hm hrec =>
    have hkeep : ∀ i m', db.maintenances.get? i = some m' →
        ((db.maintenances.set id m).get? i).isSome = true := by
      intro i m' hi
      rw [Table.get?_set]
      split
      · simp [hold]
      · simp [hi]
    rw [hm, gone_eq_nil hkeep, List.append_nil]
    exact hS.edit hold hcost hm hrec
  | remove _ hm he => exact hS.remove hm he

end Moves

/-- A run of priced calls from an empty database, with the maintenances removed on the way as
they were right before. -/
inductive Audited : World → List (Id × Maintenance) → Prop
  | start (now : LocalDateTime) (collate : String → String) : Audited ⟨now, Db.empty collate⟩ []
  | call {w : World} {removed : List (Id × Maintenance)} {env : Env} {call : Call} :
      Audited w removed → w.clock ≤ env.now → call.priced →
      Audited ⟨env.now, call.commit env w.db⟩
        (removed ++ gone w.db.maintenances (call.commit env w.db).maintenances)

/-- The maintenances that the calls of a list remove. -/
def removedBy : List (Env × Call) → World → List (Id × Maintenance)
  | [], _ => []
  | c :: rest, w => gone w.db.maintenances (c.2.commit c.1 w.db).maintenances ++
      removedBy rest ⟨c.1.now, c.2.commit c.1 w.db⟩

theorem Audited.runCalls (h : Audited w removed) (calls : List (Env × Call))
    (hpriced : ∀ c ∈ calls, c.2.priced)
    (hsorted : (w.clock :: calls.map fun c => c.1.now).Pairwise (· ≤ ·)) :
    Audited (CarRental.runCalls calls w) (removed ++ removedBy calls w) := by
  induction calls generalizing w removed with
  | nil => rwa [removedBy, List.append_nil]
  | cons c rest ih =>
    rw [List.map_cons, List.pairwise_cons] at hsorted
    have hstep := h.call (hsorted.1 _ List.mem_cons_self) (hpriced c List.mem_cons_self)
    rw [removedBy, ← List.append_assoc]
    exact ih hstep (fun c hc => hpriced c (List.mem_cons_of_mem _ hc)) hsorted.2

theorem Call.commit_expenseMove (env : Env) (db : Db) {call : Call} (hpriced : call.priced) :
    ExpenseMove db (call.commit env db) := by
  unfold Call.commit
  cases h : call.exec env db with
  | ok db' => exact Call.expenseMove hpriced h
  | error e => exact .same rfl rfl

theorem Audited.settled (h : Audited w removed) : Settled w.db removed := by
  induction h with
  | start now collate => exact Settled.empty collate
  | call _ _ hpriced ih => exact (Call.commit_expenseMove _ _ hpriced).settled ih

/-- Every run of priced calls can be audited. -/
theorem Audited.of_reachableBy (h : ReachableBy (fun _ _ call => call.priced) w) :
    ∃ removed, Audited w removed :=
  h.induction (I := fun w => ∃ removed, Audited w removed)
    (fun now collate => ⟨[], .start now collate⟩)
    fun _ _ _ _ ⟨_, haudit⟩ hclock hpriced => ⟨_, haudit.call hclock hpriced⟩

/-! ### A record outlives its maintenance -/

/-- Keys are not given away twice, and a maintenance that is gone keeps its records. -/
def KeepsRecords (db db' : Db) : Prop :=
  db.maintenances.nextId ≤ db'.maintenances.nextId ∧
  ∀ i, i < db.maintenances.nextId → db.maintenances.get? i = none →
    db'.maintenances.get? i = none ∧
    ∀ j r, r.maintenanceId = i →
      (db'.expenseRecords.get? j = some r ↔ db.expenseRecords.get? j = some r)

theorem KeepsRecords.refl (db : Db) : KeepsRecords db db :=
  ⟨Nat.le_refl _, fun _ _ hnone => ⟨hnone, fun _ _ _ => Iff.rfl⟩⟩

theorem KeepsRecords.trans {db₁ db₂ db₃ : Db} (h : KeepsRecords db₁ db₂)
    (h' : KeepsRecords db₂ db₃) : KeepsRecords db₁ db₃ := by
  refine ⟨Nat.le_trans h.1 h'.1, fun i hi hnone => ?_⟩
  obtain ⟨hnone₂, hkeep⟩ := h.2 i hi hnone
  obtain ⟨hnone₃, hkeep'⟩ := h'.2 i (Nat.lt_of_lt_of_le hi h.1) hnone₂
  exact ⟨hnone₃, fun j r hr => (hkeep' j r hr).trans (hkeep j r hr)⟩

/-- Recording an expense leaves the records of the other maintenances alone. -/
theorem Recorded.other {t t' : Table ExpenseRecord} (h : Recorded id m t t')
    (hcost : m.cost.isSome = true) {r : ExpenseRecord} (hr : r.maintenanceId ≠ id) :
    t'.get? j = some r ↔ t.get? j = some r := by
  obtain ⟨record, hrecord, hcases⟩ := h.cases hcost
  have hrid : record.maintenanceId = id := congrArg Expense.maintenanceId hrecord
  have hne : record ≠ r := by
    rintro rfl
    exact hr hrid
  rcases hcases with ⟨-, rfl⟩ | ⟨k, old, hold, hid, rfl⟩
  · rw [Table.get?_insert_eq_some]
    constructor
    · rintro (⟨-, heq⟩ | hget)
      · exact absurd heq hne
      · exact hget
    · exact Or.inr
  · rw [Table.get?_set_eq_some hold]
    constructor
    · rintro (⟨-, heq⟩ | ⟨-, hget⟩)
      · exact absurd heq hne
      · exact hget
    · intro hget
      refine Or.inr ⟨?_, hget⟩
      rintro rfl
      rw [hold, Option.some.injEq] at hget
      exact hr (hget ▸ hid)

theorem ExpenseMove.keepsRecords (h : ExpenseMove db db') (hS : Settled db removed) :
    KeepsRecords db db' := by
  cases h with
  | same hm he =>
    rw [KeepsRecords, hm, he]
    exact KeepsRecords.refl db
  | add hcost hm hrec =>
    rw [KeepsRecords, hm]
    refine ⟨Nat.le_succ _, fun i hi hnone => ⟨?_, fun j r hr => ?_⟩⟩
    · rw [Table.get?_insert, if_neg (Nat.ne_of_lt hi), hnone]
    · exact hrec.other hcost (by rw [hr]; exact Nat.ne_of_lt hi)
  | @edit id old m hold hcost hm hrec =>
    have hcost := hcost (hS.cost (List.mem_append_left _ (Table.mem_rows.mpr hold)))
    rw [KeepsRecords, hm]
    refine ⟨Nat.le_refl _, fun i hi hnone => ?_⟩
    have hne : i ≠ id := by
      rintro rfl
      rw [hold] at hnone
      exact absurd hnone (by simp)
    exact ⟨(Table.get?_set_ne hne).trans hnone, fun j r hr => hrec.other hcost (by rwa [hr])⟩
  | remove hold hm he =>
    rw [KeepsRecords, hm, he]
    refine ⟨Nat.le_refl _, fun i hi hnone => ⟨?_, fun _ _ _ => Iff.rfl⟩⟩
    rw [Table.get?_delete, hnone, ite_self]

theorem Audited.keepsRecords (h : Audited w removed)
    (hrun : Relation.ReflTransGen (StepBy fun _ _ call => call.priced) w w') :
    KeepsRecords w.db w'.db ∧ ∃ removed', Audited w' removed' := by
  induction hrun with
  | refl => exact ⟨KeepsRecords.refl _, removed, h⟩
  | tail _ hstep ih =>
    obtain ⟨hkeeps, removed', haudit⟩ := ih
    obtain ⟨env, call, hclock, hpriced, rfl⟩ := hstep
    have hmove := (Call.commit_expenseMove env _ hpriced).keepsRecords haudit.settled
    exact ⟨hkeeps.trans hmove, _, haudit.call hclock hpriced⟩

/-! ### The books -/

/-- What the maintenances of a list cost together. -/
def costs (rows : List (Id × Maintenance)) : Amount := (rows.map fun r => r.2.cost.getD 0).sum

theorem Settled.total (h : Settled db removed) :
    totalExpense db = costs db.maintenances.rows + costs removed := by
  have hsum := (h.lines.map fun e => e.amount.getD 0).sum_eq
  rw [List.map_map, List.map_map, List.map_append, List.sum_append] at hsum
  exact hsum

theorem Settled.one_record (h : Settled db removed)
    (hm : (i, m) ∈ db.maintenances.rows ++ removed) :
    ∃ j r, (db.expenseRecords.select fun _ r => r.maintenanceId = i) = [(j, r)] ∧
      m.cost = some r.amount ∧ r.category = m.type ∧ r.description = m.description := by
  obtain ⟨j, r, hr, heq⟩ := h.record hm
  have hmem : (j, r) ∈ db.expenseRecords.select fun _ r => r.maintenanceId = i :=
    Table.mem_select.mpr ⟨hr, decide_eq_true (congrArg Expense.maintenanceId heq)⟩
  rcases h.select_cases i with hnil | ⟨row, hone⟩
  · rw [hnil] at hmem
    exact absurd hmem List.not_mem_nil
  · rw [hone] at hmem
    obtain rfl := List.mem_singleton.mp hmem
    exact ⟨j, r, hone, (congrArg Expense.amount heq).symm, congrArg Expense.category heq,
      congrArg Expense.description heq⟩

/-- **The expense ledger** of every run of priced calls. Every maintenance has exactly one
record, with its current cost, type and description. Deleting a maintenance leaves its record
as it is, in every state from then on. The total is what the maintenances cost, and what the
deleted ones cost last. The lookup of a record never meets two. -/
theorem expense_ledger (h : Audited w removed) :
    (∀ i m, w.db.maintenances.get? i = some m →
      ∃ j r, (w.db.expenseRecords.select fun _ r => r.maintenanceId = i) = [(j, r)] ∧
        m.cost = some r.amount ∧ r.category = m.type ∧ r.description = m.description) ∧
    (∀ env i db' w', w.clock ≤ env.now → MaintenanceService.delete env i w.db = .ok db' →
      Relation.ReflTransGen (StepBy fun _ _ call => call.priced) ⟨env.now, db'⟩ w' →
      ∀ j r, r.maintenanceId = i →
        (w'.db.expenseRecords.get? j = some r ↔ w.db.expenseRecords.get? j = some r)) ∧
    totalExpense w.db = costs w.db.maintenances.rows + costs removed ∧
    ∀ i, ∃ answer, ExpenseRecordRepository.findByMaintenanceId w.db i = .ok answer := by
  have hS := h.settled
  refine ⟨fun i m hm => ?_, fun env i db' w' hclock hdel hrun j r hr => ?_, hS.total, fun i => ?_⟩
  · exact hS.one_record (List.mem_append_left _ (Table.mem_rows.mpr hm))
  · have hcommit : (Call.maintenanceDelete i).commit env w.db = db' := by
      rw [Call.commit, show (Call.maintenanceDelete i).exec env w.db = .ok db' from hdel, settle_ok]
    have hnext : Audited ⟨env.now, (Call.maintenanceDelete i).commit env w.db⟩ _ :=
      h.call hclock trivial
    rw [hcommit] at hnext
    have hkeeps := (hnext.keepsRecords hrun).1
    obtain ⟨⟨old, hold⟩, hm, he⟩ := delete_tables hdel
    have hbelow := Table.get?_lt hold
    have hlt : i < db'.maintenances.nextId := by
      rw [hm]
      exact hbelow
    have hnone : db'.maintenances.get? i = none := by rw [hm, Table.get?_delete, if_pos rfl]
    rw [← he]
    exact (hkeeps.2 i hlt hnone).2 j r hr
  · unfold ExpenseRecordRepository.findByMaintenanceId
    rcases hS.select_cases i with hnil | ⟨row, hone⟩
    · exact ⟨none, by rw [hnil]⟩
    · exact ⟨some row, by rw [hone]⟩

/-- An oil change for 300.00 that becomes one for 500.00, another one for 200.00, and the first
one is deleted. -/
def oilChanges : List (Env × Call) :=
  let oilChange (cost : Amount) : MaintenanceRequest :=
    { carId := 1, type := "Vidange", startDate := some 0, cost := some (.ofAmount cost) }
  fleetOfOne ++
    [(.atTime 0, .maintenanceCreate (oilChange 30000)),
     (.atTime 0, .maintenanceUpdate 1 (oilChange 50000)),
     (.atTime 0, .maintenanceCreate (oilChange 20000)),
     (.atTime 0, .maintenanceDelete 1)]

/-- The ledger shows both. -/
theorem expense_ledger_oilChanges :
    Audited (World.after oilChanges) (removedBy oilChanges ⟨0, Db.empty⟩) ∧
    costs (removedBy oilChanges ⟨0, Db.empty⟩) = 50000 ∧
    totalExpense (World.after oilChanges).db =
      costs (World.after oilChanges).db.maintenances.rows +
        costs (removedBy oilChanges ⟨0, Db.empty⟩) := by
  have hpriced : ∀ c ∈ oilChanges, c.2.priced := by
    simp [oilChanges, fleetOfOne, Call.priced]
  have haudit := (Audited.start 0 id).runCalls oilChanges hpriced (by decide)
  exact ⟨haudit, by decide, (expense_ledger haudit).2.2.1⟩

end CarRental
