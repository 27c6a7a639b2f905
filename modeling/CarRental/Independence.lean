import CarRental.Lib.Footprint
import CarRental.Sweep

/-!
# CarRental.Independence

**Operations on different contracts are independent.** A status change, a return
or an archiving looks at the row of its contract, at the row of its car, at its
client and at whether the contract has income; it writes the first two and may
add income of its own. So two of them, on different contracts of different cars,
can be run in either order, even when the contracts belong to one client.

`Sees` is the footprint and `Touches` the changes; the rest instantiates the rules
of `CarRental.Lib.Footprint`. The income records the two orders add are the same,
but the one that is booked first gets the smaller key: `SameUpToNewIds`.
-/

namespace CarRental.ContractService

open Lib Desk

/-- The operations on a stored contract that take no request. -/
inductive ContractOp
  | updateStatus (newStatus : ContractStatus)
  | registerReturn
  | softDelete

/-- Archiving gives no answer, the others the contract. -/
def ContractOp.exec (env : Env) (id : Id) : ContractOp → Db →
    Except ServiceError (Option ContractResponse × Db)
  | .updateStatus newStatus, db =>
    (ContractService.updateStatus env id newStatus db).map fun x => (some x.1, x.2)
  | .registerReturn, db =>
    (ContractService.registerReturn env id db).map fun x => (some x.1, x.2)
  | .softDelete, db => (ContractService.softDelete env id db).map fun db => (none, db)

variable {env : Env} {db : Db} {id : Id} {c : Contract} {car : Car} {client : Client}
  {booked : Bool}

/-! ### Footprints -/

/-- What an operation on contract `id` can see in `db`. -/
structure Sees (id : Id) (c : Contract) (car : Car) (client : Client) (booked : Bool) (db : Db) :
    Prop where
  contract : db.contracts.get? id = some c
  car : db.cars.get? c.carId = some car
  client : db.clients.get? c.clientId = some client
  income : IncomeRecordRepository.existsByContractId db id = booked

/-- A change of the row of contract `id` and of car `carId`, with new income of the contract. -/
def Touches (id carId : Id) (w : Db → Db) : Prop :=
  ∃ (car : Car) (c : Contract) (new : List IncomeRecord), (∀ r ∈ new, r.contractId = id) ∧
    w = fun db =>
      { db with
        cars := db.cars.set carId car
        contracts := db.contracts.set id c
        incomeRecords := db.incomeRecords.insertAll new }

/-- The change of another contract of another car is not seen. -/
theorem Sees.touched {i k : Id} {w : Db → Db} (hw : Touches i k w) (hi : i ≠ id)
    (hk : k ≠ c.carId) (h : Sees id c car client booked db) :
    Sees id c car client booked (w db) := by
  obtain ⟨car', c', new, hnew, rfl⟩ := hw
  refine ⟨?_, ?_, h.client, ?_⟩
  · exact (Table.get?_set_ne hi.symm).trans h.contract
  · exact (Table.get?_set_ne hk.symm).trans h.car
  · refine Eq.trans (Table.any_insertAll fun r hr _ => decide_eq_false fun heq => ?_) h.income
    exact hi ((hnew r hr).symm.trans heq)

/-- The record a booking adds depends on what is seen only. -/
theorem Sees.newIncome_eq (env : Env) (id : Id) (car : Car) (client : Client) (booked : Bool)
    {c' : Contract} (hclient : c'.clientId = c.clientId) :
    ∃ new : Option IncomeRecord, (∀ r ∈ new.toList, r.contractId = id) ∧
      ∀ db, Sees id c car client booked db → newIncome env db (id, c') = new := by
  refine ⟨if booked then none else
    match c'.totalGeneral with
    | some total =>
      if 0 < total then some (FinancialService.incomeRecord env id c' client total) else none
    | none => none, ?_, fun db h => ?_⟩
  · intro r hr
    rw [Option.mem_toList] at hr
    split at hr
    · exact absurd hr (by simp)
    · split at hr
      · split at hr
        · rw [← Option.some.inj hr]
          rfl
        · exact absurd hr (by simp)
      · exact absurd hr (by simp)
  · unfold newIncome
    dsimp only
    rw [h.income, hclient, h.client]
    cases c'.totalGeneral <;> rfl

/-- Nobody is missed when the client is there. -/
theorem Sees.bookable {c' : Contract} (hclient : c'.clientId = c.clientId)
    (h : Sees id c car client booked db) : ¬ Unbookable db (id, c') := by
  intro hun
  have hnone := hun.2.2
  dsimp only at hnone
  rw [hclient, h.client] at hnone
  exact absurd hnone (by simp)

/-! ### The operations are settled by their footprint -/

/-- The first statement of every operation. -/
theorem determined_getContract {α : Type} {f : Contract → Db → Except ServiceError (α × Db)}
    (hf : Determined (Sees id c car client booked) (Touches id c.carId) (f c)) :
    Determined (Sees id c car client booked) (Touches id c.carId)
      fun db => getContract id db >>= fun contract => f contract db := by
  refine Determined.read (fun db db' h h' => ?_) fun db contract h hget => ?_
  · unfold getContract
    rw [h.contract, h'.contract]
  · rw [getContract_eq_ok, h.contract] at hget
    obtain rfl := Option.some.inj hget.1
    exact hf

/-- The end of a status change: the rows are written, the income is booked, the contract is
answered. -/
theorem determined_finish {car' : Car} {c' : Contract} (hcar : c'.carId = c.carId)
    (hclient : c'.clientId = c.clientId) :
    Determined (Sees id c car client booked) (Touches id c.carId) (fun db => do
      let db ← FinancialService.ensureIncomeForContract env id c'.loaded
        { db with
          cars := db.cars.set c.carId car'
          contracts := db.contracts.set id c' }
      let response ← map db id c'.loaded
      pure (response, db)) := by
  obtain ⟨new, hnew, hincome⟩ := Sees.newIncome_eq env id car client booked hclient
  obtain ⟨w, hw⟩ : ∃ w : Db → Db, w = fun db =>
      { db with
        cars := db.cars.set c.carId car'
        contracts := db.contracts.set id c'
        incomeRecords := db.incomeRecords.insertAll new.toList } := ⟨_, rfl⟩
  have htouch : Touches id c.carId w := ⟨car', c', new.toList, hnew, hw⟩
  -- the answer reads the car and the client, which are the same in all these states
  have hanswer : Determined (Sees id c car client booked) (Touches id c.carId) (fun db => do
      let response ← map (w db) id c'.loaded
      pure (response, w db)) := by
    have hcar' : ∀ db, Sees id c car client booked db →
        (w db).cars.get? c'.carId = some car' := by
      intro db h
      rw [hw, hcar]
      exact Table.get?_set_self h.car
    have hclient' : ∀ db, Sees id c car client booked db →
        (w db).clients.get? c'.clientId = some client := by
      intro db h
      rw [hw, hclient]
      exact h.client
    refine Determined.read (fun db db' h h' => ?_) fun _ _ _ _ => .done htouch fun _ _ => rfl
    unfold map
    simp only [ContractOf.loaded, ContractOf.mapAmounts, hcar' db h, hcar' db' h', hclient' db h,
      hclient' db' h']
  refine hanswer.congr fun db h => ?_
  rcases ensureIncomeForContract_eq env id c'
    { db with
      cars := db.cars.set c.carId car'
      contracts := db.contracts.set id c' } with ⟨hun, -⟩ | ⟨-, hok⟩
  · exact (h.bookable hclient hun).elim
  · have hsame : newIncome env
        { db with
          cars := db.cars.set c.carId car'
          contracts := db.contracts.set id c' } (id, c') = new := hincome db h
    rw [hok, hsame, hw]
    rfl

theorem determined_updateStatus (newStatus : ContractStatus) :
    Determined (Sees id c car client booked) (Touches id c.carId)
      (updateStatus env id newStatus) := by
  have hcar : ∀ e : ServiceError, ∀ db db', Sees id c car client booked db →
      Sees id c car client booked db' →
      orThrow (db'.cars.get? c.carId) e = orThrow (db.cars.get? c.carId) e := by
    intro e db db' h h'
    rw [h.car, h'.car]
  refine determined_getContract ?_
  cases newStatus with
  | inProgress => exact Determined.throws _
  | cancelled => exact Determined.throws _
  | active =>
    refine Determined.throwIf fun _ => Determined.read (hcar _) fun _ _ _ _ => ?_
    exact Determined.throwIf fun _ => determined_finish rfl rfl
  | completed =>
    refine Determined.throwIf fun _ => Determined.read (hcar _) fun _ _ _ _ => ?_
    exact determined_finish rfl rfl

/-- An archived contract still refers to its client, so the client is no orphan. -/
theorem removeClientIfOrphan_referred {i : Id} (h : db.contracts.get? i = some c) :
    OrphanClientService.removeClientIfOrphan c.clientId db = db := by
  rcases OrphanClientService.removeClientIfOrphan_cases c.clientId db with hkeep | ⟨hnone, -⟩
  · exact hkeep
  · exact (hnone i c h rfl).elim

theorem determined_softDelete :
    Determined (Sees id c car client booked) (Touches id c.carId)
      fun db => (softDelete env id db).map fun db => ((none : Option ContractResponse), db) := by
  obtain ⟨new, hnew, hincome⟩ := Sees.newIncome_eq env id car client booked (rfl : c.clientId = _)
  -- the income of a completed contract is made sure of before it is put away
  obtain ⟨added, hadded, hbook⟩ : ∃ added : List IncomeRecord, (∀ r ∈ added, r.contractId = id) ∧
      ∀ db (k : Db → Except ServiceError Db), Sees id c car client booked db →
        (if c.status = .completed then
          FinancialService.ensureIncomeForContract env id c.loaded db >>= k else pure db >>= k) =
        k { db with incomeRecords := db.incomeRecords.insertAll added } := by
    by_cases hst : c.status = .completed
    · refine ⟨new.toList, hnew, fun db k h => ?_⟩
      rw [if_pos hst]
      rcases ensureIncomeForContract_eq env id c db with ⟨hun, -⟩ | ⟨-, hok⟩
      · exact (h.bookable rfl hun).elim
      · rw [hok, hincome db h]
        rfl
    · refine ⟨[], by simp, fun db k h => ?_⟩
      rw [if_neg hst]
      rfl
  simp only [softDelete, map_bind_eq]
  refine determined_getContract (Determined.throwIf fun _ => ?_)
  refine Determined.done (r := none) (w := fun db =>
    { db with
      cars := db.cars.set c.carId car
      contracts := db.contracts.set id { c with deleted := true }
      incomeRecords := db.incomeRecords.insertAll added })
    ⟨car, { c with deleted := true }, added, hadded, rfl⟩ fun db h => ?_
  have horphan : OrphanClientService.removeClientIfOrphan c.clientId
      { db with
        contracts := db.contracts.set id { c with deleted := true }
        incomeRecords := db.incomeRecords.insertAll added } =
      { db with
        contracts := db.contracts.set id { c with deleted := true }
        incomeRecords := db.incomeRecords.insertAll added } :=
    removeClientIfOrphan_referred (c := { c with deleted := true })
      (Table.get?_set_self h.contract)
  rw [hbook db _ h, horphan, Table.set_get? h.car]
  rfl

theorem ContractOp.determined (op : ContractOp) :
    Determined (Sees id c car client booked) (Touches id c.carId) (op.exec env id) := by
  cases op with
  | updateStatus newStatus => exact (determined_updateStatus newStatus).map some
  | registerReturn => exact (determined_updateStatus .completed).map some
  | softDelete => exact determined_softDelete

/-! ### Either order -/

/-- The same tables, but for the keys of the income records that `base` does not have yet. -/
structure SameUpToNewIds (base db₁ db₂ : Db) : Prop where
  collate : db₁.collate = db₂.collate
  cars : db₁.cars = db₂.cars
  clients : db₁.clients = db₂.clients
  contracts : db₁.contracts = db₂.contracts
  maintenances : db₁.maintenances = db₂.maintenances
  expenseRecords : db₁.expenseRecords = db₂.expenseRecords
  incomeRecords : ∃ new new' : List IncomeRecord,
    db₁.incomeRecords = base.incomeRecords.insertAll new ∧
    db₂.incomeRecords = base.incomeRecords.insertAll new' ∧ new.Perm new'

theorem SameUpToNewIds.refl (db : Db) : SameUpToNewIds db db db :=
  ⟨rfl, rfl, rfl, rfl, rfl, rfl, [], [], rfl, rfl, .refl _⟩

theorem SameUpToNewIds.touched {k : Id} {w : Db → Db} (hw : Touches id k w) :
    SameUpToNewIds db (w db) (w db) := by
  obtain ⟨car, c, new, -, rfl⟩ := hw
  exact ⟨rfl, rfl, rfl, rfl, rfl, rfl, new, new, rfl, rfl, .refl _⟩

/-- Changes of different contracts and cars can be made in either order. -/
theorem SameUpToNewIds.swap {i j k l : Id} {w v : Db → Db} (hw : Touches i k w)
    (hv : Touches j l v) (hij : i ≠ j) (hkl : k ≠ l) :
    SameUpToNewIds db (v (w db)) (w (v db)) := by
  obtain ⟨car, c, new, -, rfl⟩ := hw
  obtain ⟨car', c', new', -, rfl⟩ := hv
  exact ⟨rfl, Table.set_comm hkl, rfl, Table.set_comm hij, rfl, rfl, new ++ new', new' ++ new,
    Table.insertAll_append.symm, Table.insertAll_append.symm, List.perm_append_comm⟩

/-- **Independent operations commute.** In a reachable state, operations on two contracts of
different cars give the same answers, or throw the same exceptions, in either order, and leave
the same database up to the keys of the income they book. -/
theorem operations_commute {w : World} (h : Reachable w) (env env' : Env) {i j : Id}
    {c c' : Contract} (hc : w.db.contracts.get? i = some c)
    (hc' : w.db.contracts.get? j = some c') (hij : i ≠ j) (hcars : c.carId ≠ c'.carId)
    (a b : ContractOp) :
    answer (a.exec env i) (after (b.exec env' j) w.db) = answer (a.exec env i) w.db ∧
    answer (b.exec env' j) (after (a.exec env i) w.db) = answer (b.exec env' j) w.db ∧
    SameUpToNewIds w.db (after (b.exec env' j) (after (a.exec env i) w.db))
      (after (a.exec env i) (after (b.exec env' j) w.db)) := by
  have hsees : ∀ {i c}, w.db.contracts.get? i = some c → ∃ car client booked,
      Sees i c car client booked w.db := by
    intro i c hc
    obtain ⟨car, hcar⟩ := out_ne_none_iff.mp ((inv_of_reachable h).contractCar hc)
    obtain ⟨client, hclient⟩ := (inv_of_reachable h).contractClient hc
    exact ⟨car, client, _, hc, hcar, hclient, rfl⟩
  obtain ⟨car, client, booked, ha⟩ := hsees hc
  obtain ⟨car', client', booked', hb⟩ := hsees hc'
  exact Determined.commute a.determined b.determined ha hb
    (fun _ hw => hb.touched hw hij hcars)
    (fun _ hv => ha.touched hv hij.symm hcars.symm)
    (fun _ _ hw hv => SameUpToNewIds.swap hw hv hij hcars)
    (SameUpToNewIds.refl _) (fun _ hw => SameUpToNewIds.touched hw)
    (fun _ hv => SameUpToNewIds.touched hv)

/-- Two reservations of one client leave with their cars, in either order. -/
theorem operations_commute_twoReservations :
    SameUpToNewIds (World.after twoReservations).db
      (after (ContractOp.exec (.atTime 15) 2 (.updateStatus .active))
        (after (ContractOp.exec (.atTime 15) 1 (.updateStatus .active))
          (World.after twoReservations).db))
      (after (ContractOp.exec (.atTime 15) 1 (.updateStatus .active))
        (after (ContractOp.exec (.atTime 15) 2 (.updateStatus .active))
          (World.after twoReservations).db)) := by
  have hreach : Reachable (World.after twoReservations) :=
    reachable_after twoReservations (by decide)
  obtain ⟨c, hc, hcar⟩ : ∃ c, (World.after twoReservations).db.contracts.get? 1 = some c ∧
      c.carId = 1 := ⟨_, rfl, rfl⟩
  obtain ⟨c', hc', hcar'⟩ : ∃ c, (World.after twoReservations).db.contracts.get? 2 = some c ∧
      c.carId = 2 := ⟨_, rfl, rfl⟩
  exact (operations_commute hreach (.atTime 15) (.atTime 15) hc hc' (by decide)
    (by rw [hcar, hcar']; decide) (.updateStatus .active) (.updateStatus .active)).2.2

end CarRental.ContractService
