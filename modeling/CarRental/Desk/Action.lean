import CarRental.System

/-!
# CarRental.Desk.Action

The **rental desk**: an abstract machine that says what the back office may ever do
to its tables.

The services repeat a handful of business steps in many places, each with its own
guards and messages. `Act` states each of those steps once, with the facts every
place that performs it has established: a car leaves only when it is available, a
contract is moved or edited only while it is not archived, a row is removed only
when nothing refers to it, and so on. The refinement
(`CarRental.Desk.Refinement`) shows that a service call is a finite run of the
desk, and every invariant of the system is then proved once per desk action
instead of once per service method.

Two of the actions never happen on a reachable state (`release`, a rented car
without an open contract, and `keepRented`, an active contract whose car is not
rented). They are here because the code has the branches; that they are idle is
a consequence of the invariants.
-/

namespace CarRental.Desk

open Lib ContractService

/-- The half-open periods of two contracts for the same car share an instant in the sense
of the overlap check. A missing date never clashes. -/
def Clash (c c' : Contract) : Prop :=
  c.carId = c'.carId ∧ ∃ s e s' e',
    c.departureDatetime = some s ∧ c.expectedReturnDatetime = some e ∧
    c'.departureDatetime = some s' ∧ c'.expectedReturnDatetime = some e' ∧ s < e' ∧ s' < e

theorem Clash.symm {c c' : Contract} (h : Clash c c') : Clash c' c := by
  obtain ⟨hcar, s, e, s', e', hs, he, hs', he', h₁, h₂⟩ := h
  exact ⟨hcar.symm, s', e', s, e, hs', he', hs, he, h₂, h₁⟩

/-- No open contract but `exclude` clashes with `c`. -/
def Free (db : Db) (exclude : Option Id) (c : Contract) : Prop :=
  ∀ i c', db.contracts.get? i = some c' → exclude ≠ some i → Open c' → ¬ Clash c c'

/-- What the desk can do, with the rows it does it to. -/
inductive Action
  | addCar
  | editCar (id : Id)
  | removeCar (id : Id)
  | reconcile (id : Id)
  | release (id : Id)
  | keepRented (id : Id)
  | addClient
  | editClient (id : Id)
  | removeClient (id : Id)
  | reserve
  | editContract (id : Id) (terms : Contract)
  /-- `total` is what the contract costs in memory, before it is stored. -/
  | activate (id : Id) (total : Option Decimal)
  | complete (id : Id)
  | book (id : Id)
  | archive (id : Id)
  | addMaintenance
  | editMaintenance (id : Id)
  | removeMaintenance (id : Id)

/-- The action books a total of which nothing is left once it is stored. -/
def Action.BooksTiny : Action → Prop
  | .activate _ total => ∃ t, total = some t ∧ t.Tiny
  | _ => False

/-- The steps of the desk at the time and in the circumstances `env`. -/
inductive Act (env : Env) : Action → Db → Db → Prop
  /-- A new car is available. -/
  | addCar {db : Db} {car : Car} :
      car.status = .available →
      Act env .addCar db { db with cars := db.cars.insert car }
  /-- Editing a car leaves its status alone. -/
  | editCar {db : Db} {id : Id} {old new : Car} :
      db.cars.get? id = some old → new.status = old.status →
      Act env (.editCar id) db { db with cars := db.cars.set id new }
  /-- A car nothing refers to is removed. -/
  | removeCar {db : Db} {id : Id} :
      (∀ i c, db.contracts.get? i = some c → c.carId ≠ id) →
      (∀ i m, db.maintenances.get? i = some m → m.carId ≠ id) →
      Act env (.removeCar id) db { db with cars := db.cars.delete id }
  /-- The status of a car that is not rented is derived from its maintenances. -/
  | reconcile {db : Db} {id : Id} :
      Act env (.reconcile id) db
        { db with cars := (MaintenanceService.reconcileCarStatus env.today id db).cars }
  /-- A rented car without an open contract is handed back. -/
  | release {db : Db} {id : Id} {car : Car} :
      db.cars.get? id = some car → car.status = .rented →
      (∀ i c, db.contracts.get? i = some c → c.carId = id → ¬ Open c) →
      Act env (.release id) db
        { db with cars := db.cars.set id { car with status := .available } }
  /-- The car of a running contract is marked rented again. -/
  | keepRented {db : Db} {id i : Id} {car : Car} {c : Contract} :
      db.cars.get? id = some car → db.contracts.get? i = some c → c.carId = id →
      c.status = .active →
      Act env (.keepRented id) db
        { db with cars := db.cars.set id { car with status := .rented } }
  | addClient {db : Db} {client : Client} :
      Act env .addClient db { db with clients := db.clients.insert client }
  | editClient {db : Db} {id : Id} {old new : Client} :
      db.clients.get? id = some old →
      Act env (.editClient id) db { db with clients := db.clients.set id new }
  /-- A client no contract refers to is removed. -/
  | removeClient {db : Db} {id : Id} :
      (∀ i c, db.contracts.get? i = some c → c.clientId ≠ id) →
      Act env (.removeClient id) db { db with clients := db.clients.delete id }
  /-- A reservation for a free period of an existing car. -/
  | reserve {db : Db} {c : Contract} {car : Car} {client : Client} :
      c.status = .inProgress → c.deleted = false →
      db.cars.get? c.carId = some car → db.clients.get? c.clientId = some client →
      Free db none c →
      Act env .reserve db { db with contracts := db.contracts.insert c }
  /-- New terms for a contract that is neither archived nor completed. The status stays,
  and a running contract keeps its car. -/
  | editContract {db : Db} {id : Id} {old new : Contract} {car : Car} {client : Client} :
      db.contracts.get? id = some old → old.deleted = false → old.status ≠ .completed →
      new.status = old.status → new.deleted = false →
      (old.status = .active → new.carId = old.carId) →
      db.cars.get? new.carId = some car → db.clients.get? new.clientId = some client →
      Free db (some id) new →
      Act env (.editContract id new) db { db with contracts := db.contracts.set id new }
  /-- A reservation becomes a rental: its car was available and is out now, and the income
  is booked from the contract in memory. -/
  | activate {db booked : Db} {id : Id} {c : Contract} {contract : ContractOf Decimal}
      {total : Option Decimal} {car : Car} :
      db.contracts.get? id = some c → c.deleted = false → c.status = .inProgress →
      db.cars.get? c.carId = some car → car.status = .available →
      contract.stored = { c with status := .active } → contract.totalGeneral = total →
      FinancialService.ensureIncomeForContract env id contract (rentOut id c car db) =
        .ok booked →
      Act env (.activate id total) db
        { rentOut id c car db with incomeRecords := booked.incomeRecords }
  /-- A rental ends: the car is available again, whatever its maintenances say, and the
  income is booked if it was not. -/
  | complete {db db₁ booked : Db} {id : Id} {c : Contract} {car : Car} :
      db.contracts.get? id = some c → c.deleted = false → c.status = .active →
      db.cars.get? c.carId = some car →
      db₁ = { db with
        cars := db.cars.set c.carId { car with status := .available }
        contracts := db.contracts.set id
          { c with actualReturnDatetime := some env.now, status := .completed } } →
      FinancialService.ensureIncomeForContract env id (ContractOf.loaded
        { c with actualReturnDatetime := some env.now, status := .completed }) db₁ = .ok booked →
      Act env (.complete id) db { db₁ with incomeRecords := booked.incomeRecords }
  /-- The income of a completed contract is booked if it was not. -/
  | book {db booked : Db} {id : Id} {c : Contract} :
      db.contracts.get? id = some c → c.status = .completed →
      FinancialService.ensureIncomeForContract env id c.loaded db = .ok booked →
      Act env (.book id) db { db with incomeRecords := booked.incomeRecords }
  /-- A contract that is not running is archived. -/
  | archive {db : Db} {id : Id} {c : Contract} :
      db.contracts.get? id = some c → c.deleted = false → c.status ≠ .active →
      Act env (.archive id) db
        { db with contracts := db.contracts.set id { c with deleted := true } }
  /-- A maintenance of an existing car, with its expense; the car is reconciled. -/
  | addMaintenance {db db₁ db₂ recorded : Db} {m : Maintenance} {car : Car} :
      db.cars.get? m.carId = some car →
      db₁ = { db with maintenances := db.maintenances.insert m } →
      db₂ = { db₁ with
        cars := (MaintenanceService.reconcileCarStatus env.today m.carId db₁).cars } →
      FinancialService.recordExpenseFromMaintenance db.maintenances.nextId m db₂ = .ok recorded →
      Act env .addMaintenance db { db₂ with expenseRecords := recorded.expenseRecords }
  /-- A maintenance is rewritten, with its expense; the car it has now is reconciled. -/
  | editMaintenance {db db₁ db₂ recorded : Db} {id : Id} {old new : Maintenance} {car : Car} :
      db.maintenances.get? id = some old → db.cars.get? new.carId = some car →
      db₁ = { db with maintenances := db.maintenances.set id new } →
      db₂ = { db₁ with
        cars := (MaintenanceService.reconcileCarStatus env.today new.carId db₁).cars } →
      FinancialService.recordExpenseFromMaintenance id new db₂ = .ok recorded →
      Act env (.editMaintenance id) db { db₂ with expenseRecords := recorded.expenseRecords }
  /-- A maintenance is removed; its expense stays, its car is reconciled. -/
  | removeMaintenance {db db₁ : Db} {id : Id} {m : Maintenance} :
      db.maintenances.get? id = some m →
      db₁ = { db with maintenances := db.maintenances.delete id } →
      Act env (.removeMaintenance id) db
        { db₁ with cars := (MaintenanceService.reconcileCarStatus env.today m.carId db₁).cars }

/-! ### What an action does to one table

Most actions leave a given table alone. The inversion lemmas below list, for the
contracts, the cars and the income ledger, the few ways an action can change it;
the invariants are proved from these lists. -/

variable {env : Env} {a : Action} {db db' : Db}

/-- The ledger has a record for contract `id`, unless there is nothing to book. -/
def Booked (ledger : Table IncomeRecord) (id : Id) (c : Contract) : Prop :=
  ∀ total, c.totalGeneral = some total → 0 < total →
    ∃ j r, ledger.get? j = some r ∧ r.contractId = id

/-- A contract whose booking returns is booked, as far as its row shows a total. -/
theorem booked_of_ensure {db₁ booked : Db} {id : Id} {contract : ContractOf Decimal}
    (h : FinancialService.ensureIncomeForContract env id contract db₁ = .ok booked) :
    Booked booked.incomeRecords id contract.stored := by
  intro total htotal hpos
  obtain ⟨exact, hexact, rfl⟩ := Option.map_eq_some_iff.mp htotal
  rcases FinancialService.ensureIncomeForContract_cases h with
    ⟨hex, rfl⟩ | ⟨-, hnot, -⟩ | ⟨-, total', client, -, -, -, rfl⟩
  · obtain ⟨j, r, hr, hid⟩ := Table.any_iff.mp hex
    exact ⟨j, r, hr, by simpa using hid⟩
  · exact absurd (Decimal.unscaled_pos_of_stored hpos) (Int.not_lt.mpr (hnot exact hexact))
  · exact ⟨_, _, Table.get?_insert_self, rfl⟩

/-- The actions that touch one contract, the row they work on and what becomes of it; `ledger`
is the income ledger afterwards. -/
inductive ContractMove (env : Env) (db : Db) (ledger : Table IncomeRecord) (id : Id)
    (old : Contract) : Action → Contract → Prop
  | edit {new : Contract} {car : Car} {client : Client} :
      old.deleted = false → old.status ≠ .completed →
      new.status = old.status → new.deleted = false →
      (old.status = .active → new.carId = old.carId) →
      db.cars.get? new.carId = some car → db.clients.get? new.clientId = some client →
      Free db (some id) new → ContractMove env db ledger id old (.editContract id new) new
  | activate {car : Car} {total : Option Decimal} :
      old.deleted = false → old.status = .inProgress →
      db.cars.get? old.carId = some car → car.status = .available →
      Booked ledger id old →
      ContractMove env db ledger id old (.activate id total) { old with status := .active }
  | complete {car : Car} :
      old.deleted = false → old.status = .active → db.cars.get? old.carId = some car →
      Booked ledger id old →
      ContractMove env db ledger id old (.complete id)
        { old with actualReturnDatetime := some env.now, status := .completed }
  | archive :
      old.deleted = false → old.status ≠ .active →
      ContractMove env db ledger id old (.archive id) { old with deleted := true }

/-- An action leaves the contracts alone, adds a reservation, or moves one contract. -/
theorem Act.contracts_cases (h : Act env a db db') :
    db'.contracts = db.contracts ∨
    (∃ c car client, c.status = .inProgress ∧ c.deleted = false ∧
      db.cars.get? c.carId = some car ∧ db.clients.get? c.clientId = some client ∧
      Free db none c ∧ db'.contracts = db.contracts.insert c) ∨
    (∃ id old new, db.contracts.get? id = some old ∧
      ContractMove env db db'.incomeRecords id old a new ∧
      db'.contracts = db.contracts.set id new) := by
  cases h with
  | reserve hst hdel hcar hclient hfree =>
    exact Or.inr (Or.inl ⟨_, _, _, hst, hdel, hcar, hclient, hfree, rfl⟩)
  | editContract hget hdel hncomp hst hndel hsame hcar hclient hfree =>
    exact Or.inr (Or.inr ⟨_, _, _, hget, .edit hdel hncomp hst hndel hsame hcar hclient hfree, rfl⟩)
  | activate hget hdel hst hcar havail hrow htotal hbook =>
    have hbooked := booked_of_ensure hbook
    rw [hrow] at hbooked
    exact Or.inr (Or.inr ⟨_, _, _, hget, .activate hdel hst hcar havail hbooked, rfl⟩)
  | complete hget hdel hst hcar hdb₁ hbook =>
    subst hdb₁
    have hbooked := booked_of_ensure hbook
    rw [ContractOf.stored_loaded] at hbooked
    exact Or.inr (Or.inr ⟨_, _, _, hget, .complete hdel hst hcar hbooked, rfl⟩)
  | archive hget hdel hst =>
    exact Or.inr (Or.inr ⟨_, _, _, hget, .archive hdel hst, rfl⟩)
  | addMaintenance _ hdb₁ hdb₂ _ => subst hdb₁ hdb₂; exact Or.inl rfl
  | editMaintenance _ _ hdb₁ hdb₂ _ => subst hdb₁ hdb₂; exact Or.inl rfl
  | removeMaintenance _ hdb₁ => subst hdb₁; exact Or.inl rfl
  | _ => exact Or.inl rfl

/-- An action leaves the income ledger alone, or appends one record for a contract that
had none: the total of a contract that is running or completed afterwards, which is positive
unless it was tiny. -/
theorem Act.income_cases (h : Act env a db db') :
    db'.incomeRecords = db.incomeRecords ∨
    ∃ id c client total, db'.contracts.get? id = some c ∧
      (c.status = .active ∨ c.status = .completed) ∧
      c.totalGeneral = some total ∧ (0 < total ∨ total = 0 ∧ a.BooksTiny) ∧
      (∀ i r, db.incomeRecords.get? i = some r → r.contractId ≠ id) ∧
      db'.incomeRecords =
        db.incomeRecords.insert (FinancialService.incomeRecord env id c client total) := by
  -- the ledger part is the same for the three actions that book
  have booking : ∀ {db₁ booked : Db} {id : Id} {contract : ContractOf Decimal} {c : Contract},
      FinancialService.ensureIncomeForContract env id contract db₁ = .ok booked →
      contract.stored = c →
      (∀ total, contract.totalGeneral = some total → total.Tiny → a.BooksTiny) →
      db₁.incomeRecords = db.incomeRecords → db₁.contracts.get? id = some c →
      (c.status = .active ∨ c.status = .completed) →
      booked.incomeRecords = db.incomeRecords ∨
      ∃ id c client total, db₁.contracts.get? id = some c ∧
        (c.status = .active ∨ c.status = .completed) ∧
        c.totalGeneral = some total ∧ (0 < total ∨ total = 0 ∧ a.BooksTiny) ∧
        (∀ i r, db.incomeRecords.get? i = some r → r.contractId ≠ id) ∧
        booked.incomeRecords =
          db.incomeRecords.insert (FinancialService.incomeRecord env id c client total) := by
    intro db₁ booked id contract c hbook hrow htiny hsame hget hst
    subst hrow
    rcases FinancialService.ensureIncomeForContract_cases hbook with
      ⟨-, rfl⟩ | ⟨-, -, rfl⟩ | ⟨hnone, total, client, htotal, hpos, -, rfl⟩
    · exact Or.inl hsame
    · exact Or.inl hsame
    · refine Or.inr ⟨id, contract.stored, client, total.stored, hget, hst,
        Option.map_eq_some_iff.mpr ⟨total, htotal, rfl⟩, ?_, ?_, by rw [← hsame]; rfl⟩
      · exact (Decimal.stored_pos_or_tiny hpos).imp_right fun h => ⟨h.1, htiny total htotal h.2⟩
      · intro i r hr
        rw [← hsame] at hr
        simpa using Table.any_eq_false_iff.mp hnone i r hr
  -- a total that was read from its row is not tiny
  have hloaded : ∀ (c : Contract) (total : Decimal), c.loaded.totalGeneral = some total →
      total.Tiny → a.BooksTiny := by
    intro c total htotal htiny
    obtain ⟨amount, -, rfl⟩ := Option.map_eq_some_iff.mp htotal
    exact absurd htiny (Decimal.not_tiny_ofAmount amount)
  cases h with
  | activate hget _ _ _ _ hrow htotal hbook =>
    have hcase := booking hbook hrow (fun t ht htiny => ⟨t, htotal.symm.trans ht, htiny⟩) rfl
      (Table.get?_set_self hget) (Or.inl rfl)
    exact hcase
  | complete hget _ _ _ hdb₁ hbook =>
    subst hdb₁
    have hcase := booking hbook (ContractOf.stored_loaded _) (hloaded _) rfl
      (Table.get?_set_self hget) (Or.inr rfl)
    exact hcase
  | book hget hst hbook =>
    have hcase := booking hbook (ContractOf.stored_loaded _) (hloaded _) rfl hget (Or.inr hst)
    exact hcase
  | addMaintenance _ hdb₁ hdb₂ _ => subst hdb₁ hdb₂; exact Or.inl rfl
  | editMaintenance _ _ hdb₁ hdb₂ _ => subst hdb₁ hdb₂; exact Or.inl rfl
  | removeMaintenance _ hdb₁ => subst hdb₁; exact Or.inl rfl
  | _ => exact Or.inl rfl

/-! ### Which cars are out

The invariants about cars only ask whether a car exists and whether it is rented.
`out` is that part of the car table; reconciling and editing do not change it. -/

/-- Whether the car is rented, if it exists. -/
def out (db : Db) (id : Id) : Option Bool :=
  (db.cars.get? id).map fun car => decide (car.status = .rented)

theorem out_of_get? {id : Id} {car : Car} (h : db.cars.get? id = some car) :
    out db id = some (decide (car.status = .rented)) := by
  simp [out, h]

theorem out_ne_none_iff {id : Id} : out db id ≠ none ↔ ∃ car, db.cars.get? id = some car := by
  simp [out, Option.ne_none_iff_exists']

/-- Overwriting an existing car changes `out` for that car only. -/
theorem out_set {id j : Id} {old new : Car} (h : db.cars.get? id = some old) :
    out { db with cars := db.cars.set id new } j =
      if j = id then some (decide (new.status = .rented)) else out db j := by
  unfold out
  by_cases hj : j = id
  · subst hj
    rw [if_pos rfl, Table.get?_set_self h]
    rfl
  · rw [if_neg hj, Table.get?_set_ne hj]

theorem out_reconcile (today : LocalDate) (id j : Id) (db : Db) :
    out (MaintenanceService.reconcileCarStatus today id db) j = out db j := by
  cases hcar : db.cars.get? id with
  | none => rw [MaintenanceService.reconcileCarStatus_none hcar]
  | some car =>
    by_cases hrented : car.status = .rented
    · rw [MaintenanceService.reconcileCarStatus_rented hcar hrented]
    · rw [MaintenanceService.reconcileCarStatus_eq hcar hrented, out_set hcar]
      by_cases hj : j = id
      · subst hj
        rw [if_pos rfl, out_of_get? hcar]
        unfold MaintenanceService.statusWhenNotRented
        split <;> simp [hrented]
      · rw [if_neg hj]

end CarRental.Desk
