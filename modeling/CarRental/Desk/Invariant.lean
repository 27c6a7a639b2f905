import CarRental.Desk.Action

/-!
# CarRental.Desk.Invariant

The **inductive invariant** of the rental desk, kept by each of its actions.

`Inv` has one field per fact. The facts about different tables lean on one
another: a new car is on no contract because contracts refer to existing cars,
a completed rental frees its car because only one contract was running on it,
and a car that is handed over had no running contract because it was not
rented. So each field is proved to survive an action from the *whole* invariant
before it.
-/

namespace CarRental.Desk

open Lib ContractService

/-- Contract `i` is a running rental of car `carId`. -/
def RunsOn (t : Table Contract) (i carId : Id) : Prop :=
  ∃ c, t.get? i = some c ∧ c.carId = carId ∧ c.status = .active

/-- What holds of the tables between any two actions of the desk. -/
structure Inv (db : Db) : Prop where
  /-- Contracts, archived or not, refer to existing cars ... -/
  contractCar : ∀ {i c}, db.contracts.get? i = some c → out db c.carId ≠ none
  /-- ... and to existing clients. -/
  contractClient : ∀ {i c}, db.contracts.get? i = some c →
    ∃ client, db.clients.get? c.clientId = some client
  maintenanceCar : ∀ {i m}, db.maintenances.get? i = some m → out db m.carId ≠ none
  /-- A car is rented exactly while a contract is running on it. -/
  rented : ∀ {k b}, out db k = some b → (b = true ↔ ∃ i, RunsOn db.contracts i k)
  /-- At most one contract is running on a car. -/
  runsOnUnique : ∀ {i j k}, RunsOn db.contracts i k → RunsOn db.contracts j k → i = j
  activeNotDeleted : ∀ {i c}, db.contracts.get? i = some c → c.status = .active →
    c.deleted = false
  notCancelled : ∀ {i c}, db.contracts.get? i = some c → c.status ≠ .cancelled
  completedReturned : ∀ {i c}, db.contracts.get? i = some c → c.status = .completed →
    c.actualReturnDatetime ≠ none
  /-- Open contracts of one car do not clash. -/
  disjoint : ∀ {i j c c'}, db.contracts.get? i = some c → db.contracts.get? j = some c' →
    i ≠ j → Open c → Open c' → ¬ Clash c c'
  /-- Income belongs to a contract that has left the reserved state. -/
  incomeContract : ∀ {i r}, db.incomeRecords.get? i = some r →
    ∃ c, db.contracts.get? r.contractId = some c ∧ c.status ≠ .inProgress
  incomeNonneg : ∀ {i r}, db.incomeRecords.get? i = some r → 0 ≤ r.amount
  incomeUnique : ∀ {i j r r'}, db.incomeRecords.get? i = some r →
    db.incomeRecords.get? j = some r' → r.contractId = r'.contractId → i = j
  /-- A completed contract with a positive total has its income. -/
  completedBooked : ∀ {i c}, db.contracts.get? i = some c → c.status = .completed →
    Booked db.incomeRecords i c

theorem Inv.empty (collate : String → String) : Inv (Db.empty collate) where
  contractCar := by intro i c h; simp [Db.empty] at h
  contractClient := by intro i c h; simp [Db.empty] at h
  maintenanceCar := by intro i m h; simp [Db.empty] at h
  rented := by intro k b h; simp [out, Db.empty] at h
  runsOnUnique := by intro i j k h; obtain ⟨c, h, -⟩ := h; simp [Db.empty] at h
  activeNotDeleted := by intro i c h; simp [Db.empty] at h
  notCancelled := by intro i c h; simp [Db.empty] at h
  completedReturned := by intro i c h; simp [Db.empty] at h
  disjoint := by intro i j c c' h; simp [Db.empty] at h
  incomeContract := by intro i r h; simp [Db.empty] at h
  incomeNonneg := by intro i r h; simp [Db.empty] at h
  incomeUnique := by intro i j r r' h; simp [Db.empty] at h
  completedBooked := by intro i c h; simp [Db.empty] at h

/-- To have left the reserved state is to be running or completed. -/
theorem Inv.left_iff {db : Db} (hI : Inv db) {i : Id} {c : Contract}
    (hc : db.contracts.get? i = some c) :
    c.status ≠ .inProgress ↔ c.status = .active ∨ c.status = .completed := by
  have hnc := hI.notCancelled hc
  cases hs : c.status with
  | cancelled => exact absurd hs hnc
  | _ => decide

variable {env : Env} {a : Action} {db db' : Db}

/-! ### Referential integrity -/

/-- A car survives an action, unless nothing referred to it and the action is the one that
removes it. -/
theorem Act.car_survives (h : Act env a db db') {k : Id} (hk : out db k ≠ none) :
    out db' k ≠ none ∨
    (db'.contracts = db.contracts ∧ db'.maintenances = db.maintenances ∧
      (∀ i c, db.contracts.get? i = some c → c.carId ≠ k) ∧
      (∀ i m, db.maintenances.get? i = some m → m.carId ≠ k)) := by
  -- most actions overwrite a row of the table, and none of these removes a key
  have hset : ∀ {id : Id} {old new : Car}, db.cars.get? id = some old →
      out { db with cars := db.cars.set id new } k ≠ none := by
    intro id old new hget
    rw [out_set hget]
    split
    · exact Option.some_ne_none _
    · exact hk
  cases h with
  | addCar =>
    obtain ⟨car, hcar⟩ := out_ne_none_iff.mp hk
    exact Or.inl (out_ne_none_iff.mpr ⟨car, Table.get?_insert_of_get? hcar⟩)
  | editCar hget _ => exact Or.inl (hset hget)
  -- the one that does checks first that nothing refers to the car
  | @removeCar _ id hcon hmain =>
    by_cases hid : k = id
    · subst hid
      exact Or.inr ⟨rfl, rfl, hcon, hmain⟩
    · obtain ⟨car, hcar⟩ := out_ne_none_iff.mp hk
      refine Or.inl (out_ne_none_iff.mpr ⟨car, ?_⟩)
      rw [Table.get?_delete, if_neg hid]
      exact hcar
  | @reconcile _ id =>
    refine Or.inl ?_
    have hout := out_reconcile env.today id k db
    exact fun hnone => hk (hout.symm.trans hnone)
  | release hget _ _ => exact Or.inl (hset hget)
  | keepRented hget _ _ _ => exact Or.inl (hset hget)
  | activate _ _ _ hcar _ _ => exact Or.inl (hset hcar)
  | complete _ _ _ hcar hdb₁ _ =>
    subst hdb₁
    exact Or.inl (hset hcar)
  | @addMaintenance _ _ _ _ m _ _ hdb₁ hdb₂ _ =>
    subst hdb₁ hdb₂
    have hout := out_reconcile env.today m.carId k
      { db with maintenances := db.maintenances.insert m }
    exact Or.inl fun hnone => hk (hout.symm.trans hnone)
  | @editMaintenance _ _ _ _ id _ new _ _ _ hdb₁ hdb₂ _ =>
    subst hdb₁ hdb₂
    have hout := out_reconcile env.today new.carId k
      { db with maintenances := db.maintenances.set id new }
    exact Or.inl fun hnone => hk (hout.symm.trans hnone)
  | @removeMaintenance _ _ id m _ hdb₁ =>
    subst hdb₁
    have hout := out_reconcile env.today m.carId k
      { db with maintenances := db.maintenances.delete id }
    exact Or.inl fun hnone => hk (hout.symm.trans hnone)
  | _ => exact Or.inl hk

/-- A client survives an action, unless no contract referred to it and the action is the one
that removes it. -/
theorem Act.client_survives (h : Act env a db db') {k : Id} {client : Client}
    (hk : db.clients.get? k = some client) :
    (∃ client', db'.clients.get? k = some client') ∨
    (db'.contracts = db.contracts ∧ ∀ i c, db.contracts.get? i = some c → c.clientId ≠ k) := by
  cases h with
  | addClient => exact Or.inl ⟨client, Table.get?_insert_of_get? hk⟩
  | @editClient _ id old new hget =>
    by_cases hid : k = id
    · subst hid
      exact Or.inl ⟨new, Table.get?_set_self hget⟩
    · exact Or.inl ⟨client, by rw [Table.get?_set_ne hid]; exact hk⟩
  | @removeClient _ id hcon =>
    by_cases hid : k = id
    · subst hid
      exact Or.inr ⟨rfl, hcon⟩
    · exact Or.inl ⟨client, by rw [Table.get?_delete, if_neg hid]; exact hk⟩
  | complete _ _ _ _ hdb₁ _ => subst hdb₁; exact Or.inl ⟨client, hk⟩
  | addMaintenance _ hdb₁ hdb₂ _ => subst hdb₁ hdb₂; exact Or.inl ⟨client, hk⟩
  | editMaintenance _ _ hdb₁ hdb₂ _ => subst hdb₁ hdb₂; exact Or.inl ⟨client, hk⟩
  | removeMaintenance _ hdb₁ => subst hdb₁; exact Or.inl ⟨client, hk⟩
  | _ => exact Or.inl ⟨client, hk⟩

/-- A contract row of the new table is an old one, or a row whose car and client exist in a
changed table. -/
theorem Act.contract_origin (hI : Inv db) (h : Act env a db db') {i : Id} {c : Contract}
    (hc : db'.contracts.get? i = some c) :
    db.contracts.get? i = some c ∨
    (db'.contracts ≠ db.contracts ∧ out db c.carId ≠ none ∧
      ∃ client, db.clients.get? c.clientId = some client) := by
  rcases h.contracts_cases with hsame | ⟨c₀, car, client, -, -, hcar, hclient, -, hins⟩ |
    ⟨id, old, new, hget, hmove, hset⟩
  · rw [hsame] at hc
    exact Or.inl hc
  · rw [hins, Table.get?_insert_eq_some] at hc
    rcases hc with ⟨rfl, rfl⟩ | hc
    · refine Or.inr ⟨?_, out_ne_none_iff.mpr ⟨car, hcar⟩, client, hclient⟩
      intro hsame
      have hnext : db.contracts.nextId + 1 = db.contracts.nextId := by
        rw [← Table.nextId_insert, ← hins, hsame]
      omega
    · exact Or.inl hc
  · by_cases hsame : db'.contracts = db.contracts
    · rw [hsame] at hc
      exact Or.inl hc
    rw [hset, Table.get?_set_eq_some hget] at hc
    rcases hc with ⟨rfl, rfl⟩ | ⟨-, hc⟩
    · refine Or.inr ⟨hsame, ?_⟩
      have hcar := hI.contractCar hget
      have hclient := hI.contractClient hget
      cases hmove with
      | edit _ _ _ _ _ hcar hclient _ => exact ⟨out_ne_none_iff.mpr ⟨_, hcar⟩, _, hclient⟩
      | activate _ _ hcar _ _ => exact ⟨out_ne_none_iff.mpr ⟨_, hcar⟩, hclient⟩
      | complete _ _ hcar _ => exact ⟨out_ne_none_iff.mpr ⟨_, hcar⟩, hclient⟩
      | archive _ _ => exact ⟨hcar, hclient⟩
    · exact Or.inl hc

theorem Act.contractCar (hI : Inv db) (h : Act env a db db') {i : Id} {c : Contract}
    (hc : db'.contracts.get? i = some c) : out db' c.carId ≠ none := by
  rcases h.contract_origin hI hc with hold | ⟨hne, hcar, -⟩
  · rcases h.car_survives (hI.contractCar hold) with hk | ⟨-, -, hcon, -⟩
    · exact hk
    · exact absurd rfl (hcon i c hold)
  · rcases h.car_survives hcar with hk | ⟨hsame, -⟩
    · exact hk
    · exact absurd hsame hne

theorem Act.contractClient (hI : Inv db) (h : Act env a db db') {i : Id} {c : Contract}
    (hc : db'.contracts.get? i = some c) : ∃ client, db'.clients.get? c.clientId = some client := by
  rcases h.contract_origin hI hc with hold | ⟨hne, -, client, hclient⟩
  · obtain ⟨client, hclient⟩ := hI.contractClient hold
    rcases h.client_survives hclient with hk | ⟨-, hcon⟩
    · exact hk
    · exact absurd rfl (hcon i c hold)
  · rcases h.client_survives hclient with hk | ⟨hsame, -⟩
    · exact hk
    · exact absurd hsame hne

theorem Act.maintenanceCar (hI : Inv db) (h : Act env a db db') {i : Id} {m : Maintenance}
    (hm : db'.maintenances.get? i = some m) : out db' m.carId ≠ none := by
  -- the rows of the new table: old ones, or the one just written, whose car exists
  have horigin : db.maintenances.get? i = some m ∨
      (db'.maintenances ≠ db.maintenances ∧ out db m.carId ≠ none) := by
    cases h with
    | addMaintenance hcar hdb₁ hdb₂ _ =>
      subst hdb₁ hdb₂
      rcases Table.get?_insert_eq_some.mp hm with ⟨-, rfl⟩ | hm
      · refine Or.inr ⟨?_, out_ne_none_iff.mpr ⟨_, hcar⟩⟩
        intro hsame
        have hnext := congrArg Table.nextId hsame
        simp at hnext
      · exact Or.inl hm
    | @editMaintenance _ _ _ _ id _ new _ hget hcar hdb₁ hdb₂ _ =>
      subst hdb₁ hdb₂
      by_cases hsame : db.maintenances.set id new = db.maintenances
      · exact Or.inl (hsame ▸ hm)
      · rcases (Table.get?_set_eq_some hget).mp hm with ⟨-, rfl⟩ | ⟨-, hm⟩
        · exact Or.inr ⟨hsame, out_ne_none_iff.mpr ⟨_, hcar⟩⟩
        · exact Or.inl hm
    | removeMaintenance _ hdb₁ =>
      subst hdb₁
      have hdel := Table.get?_delete.symm.trans hm
      split at hdel
      · exact absurd hdel (by simp)
      · exact Or.inl hdel
    | complete _ _ _ _ hdb₁ _ => subst hdb₁; exact Or.inl hm
    | _ => exact Or.inl hm
  rcases horigin with hold | ⟨hne, hcar⟩
  · rcases h.car_survives (hI.maintenanceCar hold) with hk | ⟨-, -, -, hmain⟩
    · exact hk
    · exact absurd rfl (hmain i m hold)
  · rcases h.car_survives hcar with hk | ⟨-, hsame, -⟩
    · exact hk
    · exact absurd hsame hne

/-! ### Rented exactly while a contract is running -/

variable {t : Table Contract} {i k : Id}

theorem runsOn_insert {c : Contract} (hst : c.status ≠ .active) :
    RunsOn (t.insert c) i k ↔ RunsOn t i k := by
  unfold RunsOn
  constructor
  · intro h
    obtain ⟨c', hget, hcar, hact⟩ := h
    rcases Table.get?_insert_eq_some.mp hget with ⟨-, rfl⟩ | hget
    · exact absurd hact hst
    · exact ⟨c', hget, hcar, hact⟩
  · intro h
    obtain ⟨c', hget, hcar, hact⟩ := h
    exact ⟨c', Table.get?_insert_of_get? hget, hcar, hact⟩

theorem runsOn_set {id : Id} {old new : Contract} (hget : t.get? id = some old) :
    RunsOn (t.set id new) i k ↔
      (i = id ∧ new.carId = k ∧ new.status = .active) ∨ (i ≠ id ∧ RunsOn t i k) := by
  unfold RunsOn
  by_cases hi : i = id
  · subst hi
    simp [Table.get?_set_self hget]
  · simp [Table.get?_set_ne hi, hi]

/-- Overwriting a contract changes what is running only if it changes whether, or on what, the
contract itself is running. -/
theorem runsOn_set_same {id : Id} {old new : Contract} (hget : t.get? id = some old)
    (hst : new.status = .active ↔ old.status = .active)
    (hcar : old.status = .active → new.carId = old.carId) :
    RunsOn (t.set id new) i k ↔ RunsOn t i k := by
  rw [runsOn_set hget]
  by_cases hi : i = id
  · subst hi
    unfold RunsOn
    simp only [hget, Option.some.injEq, true_and, ne_eq, not_true_eq_false, false_and, or_false,
      exists_eq_left']
    constructor
    · intro h
      exact ⟨(hcar (hst.mp h.2)).symm.trans h.1, hst.mp h.2⟩
    · intro h
      exact ⟨(hcar h.2).trans h.1, hst.mpr h.2⟩
  · simp [hi]

/-- Activating a reservation adds one running contract. -/
theorem runsOn_activate {id : Id} {c : Contract} (hget : t.get? id = some c)
    (hst : c.status = .inProgress) :
    RunsOn (t.set id { c with status := .active }) i k ↔
      (i = id ∧ c.carId = k) ∨ RunsOn t i k := by
  rw [runsOn_set hget]
  by_cases hi : i = id
  · -- the reservation itself was not running
    subst hi
    simp [RunsOn, hget, hst]
  · simp [hi]

/-- A contract that is no longer active is no longer running. -/
theorem runsOn_stop {id : Id} {old new : Contract} (hget : t.get? id = some old)
    (hst : new.status ≠ .active) : RunsOn (t.set id new) i k ↔ i ≠ id ∧ RunsOn t i k := by
  rw [runsOn_set hget]
  simp [hst]

/-- Only handing a car over and taking it back change what is running. -/
theorem Act.runsOn_iff (h : Act env a db db') (hact : ∀ id total, a ≠ .activate id total)
    (hcomp : ∀ id, a ≠ .complete id) (i k : Id) :
    RunsOn db'.contracts i k ↔ RunsOn db.contracts i k := by
  cases h with
  | reserve hst _ _ _ _ => exact runsOn_insert (by rw [hst]; decide)
  | editContract hget _ _ hst _ hsame _ _ _ =>
    exact runsOn_set_same hget (by rw [hst]) hsame
  | activate => exact absurd rfl (hact _ _)
  | complete => exact absurd rfl (hcomp _)
  | archive hget _ hst =>
    exact runsOn_set_same hget Iff.rfl (fun _ => rfl)
  | addMaintenance _ hdb₁ hdb₂ _ => subst hdb₁ hdb₂; exact Iff.rfl
  | editMaintenance _ _ hdb₁ hdb₂ _ => subst hdb₁ hdb₂; exact Iff.rfl
  | removeMaintenance _ hdb₁ => subst hdb₁; exact Iff.rfl
  | _ => exact Iff.rfl

/-- What an action does to the cars that are out, next to the contracts that are running. -/
inductive OutMove (db db' : Db) : Prop
  /-- Neither changes. -/
  | same : (∀ k, out db' k = out db k) →
      (∀ i k, RunsOn db'.contracts i k ↔ RunsOn db.contracts i k) → OutMove db db'
  /-- One car appears or disappears, or its flag is set to what its contracts say. -/
  | one (id : Id) : (∀ k, k ≠ id → out db' k = out db k) →
      (∀ i k, RunsOn db'.contracts i k ↔ RunsOn db.contracts i k) →
      (∀ b, out db' id = some b → (b = true ↔ ∃ i, RunsOn db.contracts i id)) → OutMove db db'
  /-- A car leaves on a contract. -/
  | leave (id carId : Id) : out db carId = some false →
      (∀ k, out db' k = if k = carId then some true else out db k) →
      (∀ i k, RunsOn db'.contracts i k ↔ (i = id ∧ carId = k) ∨ RunsOn db.contracts i k) →
      OutMove db db'
  /-- A car comes back from the contract it was out on. -/
  | back (id carId : Id) : RunsOn db.contracts id carId →
      (∀ k, out db' k = if k = carId then some false else out db k) →
      (∀ i k, RunsOn db'.contracts i k ↔ i ≠ id ∧ RunsOn db.contracts i k) → OutMove db db'

/-- Every action is one of these moves. -/
theorem Act.outMove (hI : Inv db) (h : Act env a db db') : OutMove db db' := by
  have hruns := h.runsOn_iff
  cases h with
  | @addCar _ car hst =>
    -- the new car is on no contract: contracts refer to cars that were there before
    refine .one db.cars.nextId (fun k hk => ?_) (hruns (by simp) (by simp)) (fun b hb => ?_)
    · simp [out, Table.get?_insert, hk]
    · have hnew : some b = some false := by
        rw [← hb, out_of_get? Table.get?_insert_self]
        simp [hst]
      obtain rfl := Option.some.inj hnew
      refine ⟨fun hf => absurd hf (by simp), fun hrun => ?_⟩
      obtain ⟨i, c, hget, hcar, -⟩ := hrun
      refine absurd ?_ (hI.contractCar hget)
      rw [hcar]
      simp [out, Table.get?_nextId]
  | @editCar _ id old new hget hst =>
    refine .same (fun k => ?_) (hruns (by simp) (by simp))
    rw [out_set hget]
    split
    · next hk => rw [hk, out_of_get? hget, hst]
    · rfl
  | @removeCar _ id hcon _ =>
    refine .one id (fun k hk => ?_) (hruns (by simp) (by simp)) (fun b hb => ?_)
    · simp [out, Table.get?_delete, hk]
    · simp [out, Table.get?_delete] at hb
  | @reconcile _ id =>
    exact .same (fun k => out_reconcile env.today id k db) (hruns (by simp) (by simp))
  | release hget hst hnone =>
    -- impossible: a rented car has a running contract, which is open
    obtain ⟨i, c, hc, hcar, hact⟩ := (hI.rented (out_of_get? hget)).mp (by simpa using hst)
    exact absurd ⟨hI.activeNotDeleted hc hact, Or.inr hact⟩ (hnone i c hc hcar)
  | @keepRented _ id i car c hget hc hcar hact =>
    refine .one id (fun k hk => ?_) (hruns (by simp) (by simp)) (fun b hb => ?_)
    · rw [out_set hget, if_neg hk]
    · rw [out_set hget, if_pos rfl] at hb
      obtain rfl : true = b := by simpa using hb
      exact ⟨fun _ => ⟨i, c, hc, hcar, hact⟩, fun _ => rfl⟩
  | @activate _ booked id c contract total car hget _ hst hcar havail _ _ _ =>
    refine .leave id c.carId ?_ (fun k => ?_) (fun i k => runsOn_activate hget hst)
    · simp [out_of_get? hcar, havail]
    · have hout :
        out { db with cars := db.cars.set c.carId { car with status := .rented } } k = _ :=
        out_set hcar
      exact hout
  | @complete _ db₁ booked id c car hget _ hst hcar hdb₁ _ =>
    subst hdb₁
    refine .back id c.carId ⟨c, hget, rfl, hst⟩ (fun k => ?_)
      (fun i k => runsOn_stop hget (by simp))
    have hout :
        out { db with cars := db.cars.set c.carId { car with status := .available } } k = _ :=
        out_set hcar
    exact hout
  | @addMaintenance _ _ _ _ m _ _ hdb₁ hdb₂ _ =>
    subst hdb₁ hdb₂
    exact .same (fun k => out_reconcile env.today m.carId k
      { db with maintenances := db.maintenances.insert m }) (hruns (by simp) (by simp))
  | @editMaintenance _ _ _ _ id _ new _ _ _ hdb₁ hdb₂ _ =>
    subst hdb₁ hdb₂
    exact .same (fun k => out_reconcile env.today new.carId k
      { db with maintenances := db.maintenances.set id new }) (hruns (by simp) (by simp))
  | @removeMaintenance _ _ id m _ hdb₁ =>
    subst hdb₁
    exact .same (fun k => out_reconcile env.today m.carId k
      { db with maintenances := db.maintenances.delete id }) (hruns (by simp) (by simp))
  | _ => exact .same (fun _ => rfl) (hruns (by simp) (by simp))

theorem OutMove.rented (hI : Inv db) (h : OutMove db db') {b : Bool} (hb : out db' k = some b) :
    b = true ↔ ∃ i, RunsOn db'.contracts i k := by
  cases h with
  | same hout hruns =>
    rw [hout] at hb
    simp only [hruns]
    exact hI.rented hb
  | one id hout hruns hown =>
    simp only [hruns]
    by_cases hk : k = id
    · subst hk
      exact hown b hb
    · rw [hout k hk] at hb
      exact hI.rented hb
  | leave id carId _ hout hruns =>
    simp only [hruns]
    rw [hout] at hb
    split at hb
    · next hk =>
      obtain rfl := Option.some.inj hb
      exact ⟨fun _ => ⟨id, Or.inl ⟨rfl, hk.symm⟩⟩, fun _ => rfl⟩
    · next hk =>
      rw [hI.rented hb]
      simp [Ne.symm hk]
  | back id carId hown hout hruns =>
    simp only [hruns]
    rw [hout] at hb
    split at hb
    · next hk =>
      -- the contract that ends was the only one running on its car
      subst hk
      obtain rfl := Option.some.inj hb
      refine ⟨fun hf => absurd hf (by simp), fun hrun => ?_⟩
      obtain ⟨i, hi, hrun⟩ := hrun
      exact absurd (hI.runsOnUnique hrun hown) hi
    · next hk =>
      rw [hI.rented hb]
      refine exists_congr fun i => ⟨fun hrun => ⟨?_, hrun⟩, fun h => h.2⟩
      intro hi
      subst hi
      obtain ⟨c, hc, rfl, -⟩ := hrun
      obtain ⟨c', hc', rfl, -⟩ := hown
      rw [hc] at hc'
      exact hk (by rw [Option.some.inj hc'])

theorem OutMove.runsOnUnique (hI : Inv db) (h : OutMove db db') {j : Id}
    (hi : RunsOn db'.contracts i k) (hj : RunsOn db'.contracts j k) : i = j := by
  cases h with
  | same _ hruns => exact hI.runsOnUnique ((hruns _ _).mp hi) ((hruns _ _).mp hj)
  | one _ _ hruns _ => exact hI.runsOnUnique ((hruns _ _).mp hi) ((hruns _ _).mp hj)
  | leave id carId hin _ hruns =>
    -- nothing was running on the car that leaves
    have hidle : ∀ j, ¬ RunsOn db.contracts j carId := by
      intro j hrun
      exact absurd ((hI.rented hin).mpr ⟨j, hrun⟩) (by simp)
    rcases (hruns _ _).mp hi with ⟨rfl, rfl⟩ | hi <;> rcases (hruns _ _).mp hj with ⟨rfl, hk⟩ | hj
    · rfl
    · exact absurd hj (hidle j)
    · exact absurd (hk ▸ hi) (hidle i)
    · exact hI.runsOnUnique hi hj
  | back _ _ _ _ hruns => exact hI.runsOnUnique ((hruns _ _).mp hi).2 ((hruns _ _).mp hj).2

/-! ### The states of a contract -/

/-- Where a contract row of the new table comes from. -/
theorem Act.contract_cases (h : Act env a db db') {c : Contract}
    (hc : db'.contracts.get? i = some c) :
    db.contracts.get? i = some c ∨
    (c.status = .inProgress ∧ c.deleted = false ∧ Free db none c) ∨
    ∃ old, db.contracts.get? i = some old ∧ ContractMove env db db'.incomeRecords i old a c := by
  rcases h.contracts_cases with hsame | ⟨c₀, _, _, hst, hdel, -, -, hfree, hins⟩ |
    ⟨id, old, new, hget, hmove, hset⟩
  · rw [hsame] at hc
    exact Or.inl hc
  · rw [hins, Table.get?_insert_eq_some] at hc
    rcases hc with ⟨-, rfl⟩ | hc
    · exact Or.inr (Or.inl ⟨hst, hdel, hfree⟩)
    · exact Or.inl hc
  · rw [hset, Table.get?_set_eq_some hget] at hc
    rcases hc with ⟨rfl, rfl⟩ | ⟨-, hc⟩
    · exact Or.inr (Or.inr ⟨old, hget, hmove⟩)
    · exact Or.inl hc

theorem Act.activeNotDeleted (hI : Inv db) (h : Act env a db db') {c : Contract}
    (hc : db'.contracts.get? i = some c) (hst : c.status = .active) : c.deleted = false := by
  rcases h.contract_cases hc with hold | ⟨-, hdel, -⟩ | ⟨old, -, hmove⟩
  · exact hI.activeNotDeleted hold hst
  · exact hdel
  · cases hmove with
    | edit _ _ _ hdel _ _ _ _ => exact hdel
    | activate hdel _ _ _ _ => exact hdel
    | complete hdel _ _ _ => exact hdel
    | archive _ hna => exact absurd hst hna

theorem Act.notCancelled (hI : Inv db) (h : Act env a db db') {c : Contract}
    (hc : db'.contracts.get? i = some c) : c.status ≠ .cancelled := by
  rcases h.contract_cases hc with hold | ⟨hst, -, -⟩ | ⟨old, hget, hmove⟩
  · exact hI.notCancelled hold
  · rw [hst]
    decide
  · have hold := hI.notCancelled hget
    cases hmove with
    | edit _ _ hst _ _ _ _ _ => rwa [hst]
    | activate _ _ _ _ _ => simp
    | complete _ _ _ _ => simp
    | archive _ _ => exact hold

theorem Act.completedReturned (hI : Inv db) (h : Act env a db db') {c : Contract}
    (hc : db'.contracts.get? i = some c) (hst : c.status = .completed) :
    c.actualReturnDatetime ≠ none := by
  rcases h.contract_cases hc with hold | ⟨hnew, -, -⟩ | ⟨old, hget, hmove⟩
  · exact hI.completedReturned hold hst
  · rw [hnew] at hst
    exact absurd hst (by decide)
  · have hold := hI.completedReturned hget
    cases hmove with
    | edit _ hncomp hsame _ _ _ _ _ => exact absurd (hsame ▸ hst) hncomp
    | activate _ _ _ _ _ => simp at hst
    | complete _ _ _ _ => simp
    | archive _ _ => exact hold hst

/-! ### Open contracts of one car do not clash -/

/-- An open row that an action wrote does not clash with the old open rows under other
keys: its period was checked, or it had the same period before. -/
theorem Act.written_disjoint (hI : Inv db) (h : Act env a db db') {c : Contract}
    (hc : db'.contracts.get? i = some c) (hopen : Open c) {j : Id} {c' : Contract}
    (hc' : db.contracts.get? j = some c') (hij : i ≠ j) (hopen' : Open c') : ¬ Clash c c' := by
  rcases h.contract_cases hc with hold | ⟨-, -, hfree⟩ | ⟨old, hget, hmove⟩
  · exact hI.disjoint hold hc' hij hopen hopen'
  · exact hfree j c' hc' (by simp) hopen'
  · cases hmove with
    | edit _ _ _ _ _ _ _ hfree => exact hfree j c' hc' (by simpa using hij) hopen'
    | activate hdel hst _ _ _ =>
      have hold : ¬ Clash old c' := hI.disjoint hget hc' hij ⟨hdel, Or.inl hst⟩ hopen'
      exact hold
    | complete _ _ _ _ => exact absurd hopen.2 (by simp)
    | archive _ _ => exact absurd hopen.1 (by simp)

/-- An action writes at most one contract row. -/
theorem Act.one_written (h : Act env a db db') :
    ∃ id, ∀ i c, i ≠ id → db'.contracts.get? i = some c → db.contracts.get? i = some c := by
  rcases h.contracts_cases with hsame | ⟨c₀, _, _, -, -, -, -, -, hins⟩ |
    ⟨id, old, new, hget, -, hset⟩
  · exact ⟨0, fun i c _ hc => hsame ▸ hc⟩
  · refine ⟨db.contracts.nextId, fun i c hne hc => ?_⟩
    rw [hins, Table.get?_insert, if_neg hne] at hc
    exact hc
  · refine ⟨id, fun i c hne hc => ?_⟩
    rw [hset, Table.get?_set_ne hne] at hc
    exact hc

theorem Act.disjoint (hI : Inv db) (h : Act env a db db') {j : Id} {c c' : Contract}
    (hc : db'.contracts.get? i = some c) (hc' : db'.contracts.get? j = some c') (hij : i ≠ j)
    (ho : Open c) (ho' : Open c') : ¬ Clash c c' := by
  obtain ⟨id, hold⟩ := h.one_written
  -- one of the two rows is an old one
  by_cases hj : j = id
  · subst hj
    have hci := hold i c hij hc
    exact fun hclash => h.written_disjoint hI hc' ho' hci hij.symm ho hclash.symm
  · exact h.written_disjoint hI hc ho (hold j c' hj hc') hij ho'

/-! ### The income ledger -/

/-- A contract that has left the reserved state never returns to it. -/
theorem Act.left_reserved (h : Act env a db db') {c : Contract}
    (hc : db.contracts.get? i = some c) (hst : c.status ≠ .inProgress) :
    ∃ c', db'.contracts.get? i = some c' ∧ c'.status ≠ .inProgress := by
  rcases h.contracts_cases with hsame | ⟨c₀, _, _, -, -, -, -, -, hins⟩ |
    ⟨id, old, new, hget, hmove, hset⟩
  · exact ⟨c, hsame ▸ hc, hst⟩
  · exact ⟨c, hins ▸ Table.get?_insert_of_get? hc, hst⟩
  · rw [hset]
    by_cases hi : i = id
    · subst hi
      obtain rfl : old = c := Option.some.inj (hget.symm.trans hc)
      refine ⟨new, Table.get?_set_self hget, ?_⟩
      cases hmove with
      | edit _ _ hsame _ _ _ _ _ => rwa [hsame]
      | activate _ _ _ _ _ => simp
      | complete _ _ _ _ => simp
      | archive _ _ => exact hst
    · exact ⟨c, by rw [Table.get?_set_ne hi]; exact hc, hst⟩

/-- Where an income record of the new ledger comes from: the old ledger, or it was booked
just now for a contract that had none. -/
theorem Act.income_origin (h : Act env a db db') {r : IncomeRecord}
    (hr : db'.incomeRecords.get? i = some r) :
    db.incomeRecords.get? i = some r ∨
    (i = db.incomeRecords.nextId ∧ (0 < r.amount ∨ r.amount = 0 ∧ a.BooksTiny) ∧
      (∃ c, db'.contracts.get? r.contractId = some c ∧
        (c.status = .active ∨ c.status = .completed) ∧ c.totalGeneral = some r.amount) ∧
      ∀ j r', db.incomeRecords.get? j = some r' → r'.contractId ≠ r.contractId) := by
  rcases h.income_cases with hsame | ⟨id, c, client, total, hc, hst, htotal, hpos, hnone, hins⟩
  · exact Or.inl (hsame ▸ hr)
  · rw [hins, Table.get?_insert_eq_some] at hr
    rcases hr with ⟨hi, rfl⟩ | hr
    · exact Or.inr ⟨hi, hpos, ⟨c, hc, hst, htotal⟩, hnone⟩
    · exact Or.inl hr

/-- The ledger only grows. -/
theorem Act.income_grows (h : Act env a db db') :
    db.incomeRecords.rows <+: db'.incomeRecords.rows := by
  rcases h.income_cases with hsame | ⟨id, c, client, total, -, -, -, -, -, hins⟩
  · exact hsame ▸ List.prefix_rfl
  · rw [hins, Table.rows_insert]
    exact List.prefix_append _ _

theorem Act.income_mono (h : Act env a db db') {r : IncomeRecord}
    (hr : db.incomeRecords.get? i = some r) : db'.incomeRecords.get? i = some r :=
  Table.mem_rows.mp (h.income_grows.subset (Table.mem_rows.mpr hr))

theorem Act.incomeContract (hI : Inv db) (h : Act env a db db') {r : IncomeRecord}
    (hr : db'.incomeRecords.get? i = some r) :
    ∃ c, db'.contracts.get? r.contractId = some c ∧ c.status ≠ .inProgress := by
  rcases h.income_origin hr with hold | ⟨-, -, ⟨c, hc, hst, -⟩, -⟩
  · obtain ⟨c, hc, hst⟩ := hI.incomeContract hold
    exact h.left_reserved hc hst
  · refine ⟨c, hc, ?_⟩
    rcases hst with hst | hst <;> rw [hst] <;> decide

theorem Act.incomeUnique (hI : Inv db) (h : Act env a db db') {j : Id} {r r' : IncomeRecord}
    (hr : db'.incomeRecords.get? i = some r) (hr' : db'.incomeRecords.get? j = some r')
    (hsame : r.contractId = r'.contractId) : i = j := by
  rcases h.income_origin hr with hold | ⟨hi, -, -, hnone⟩ <;>
    rcases h.income_origin hr' with hold' | ⟨hj, -, -, hnone'⟩
  · exact hI.incomeUnique hold hold' hsame
  · exact absurd hsame (hnone' _ _ hold)
  · exact absurd hsame.symm (hnone _ _ hold')
  · rw [hi, hj]

theorem Act.completedBooked (hI : Inv db) (h : Act env a db db') {c : Contract}
    (hc : db'.contracts.get? i = some c) (hst : c.status = .completed) :
    Booked db'.incomeRecords i c := by
  have hold : ∀ c, db.contracts.get? i = some c → c.status = .completed →
      Booked db'.incomeRecords i c := by
    intro c hget hcomp total htotal hpos
    obtain ⟨j, r, hr, hid⟩ := hI.completedBooked hget hcomp total htotal hpos
    exact ⟨j, r, h.income_mono hr, hid⟩
  rcases h.contract_cases hc with hget | ⟨hnew, -, -⟩ | ⟨old, hget, hmove⟩
  · exact hold c hget hst
  · rw [hnew] at hst
    exact absurd hst (by decide)
  · have hbooked := hold old hget
    cases hmove with
    | edit _ hncomp hsame _ _ _ _ _ => exact absurd (hsame ▸ hst) hncomp
    | activate _ _ _ _ _ => simp at hst
    | complete _ _ _ hbook => exact hbook
    | archive _ _ => exact hbooked hst

/-- **Every action of the desk keeps the invariant.** -/
theorem Act.inv (hI : Inv db) (h : Act env a db db') : Inv db' where
  contractCar := h.contractCar hI
  contractClient := h.contractClient hI
  maintenanceCar := h.maintenanceCar hI
  rented := (h.outMove hI).rented hI
  runsOnUnique := (h.outMove hI).runsOnUnique hI
  activeNotDeleted := h.activeNotDeleted hI
  notCancelled := h.notCancelled hI
  completedReturned := h.completedReturned hI
  disjoint := h.disjoint hI
  incomeContract := h.incomeContract hI
  incomeNonneg := by
    intro i r hr
    rcases h.income_origin hr with hold | ⟨-, hpos | ⟨hzero, -⟩, -⟩
    · exact hI.incomeNonneg hold
    · exact Int.le_of_lt hpos
    · exact Int.le_of_eq hzero.symm
  incomeUnique := h.incomeUnique hI
  completedBooked := h.completedBooked hI

end CarRental.Desk
