import CarRental.Repository

/-!
# CarRental.Service.Financial

`FinancialService`: the **income and expense ledgers**.

Income is booked through `ensureIncomeForContract`, which tests for an existing
record and only then calls `recordIncomeFromContract`. The latter, taken alone,
would overwrite an existing record; `ensureIncomeForContract_cases` says that
behind the test it never does: the ledger is extended by one record or left as
it is.

The total is tested as it stands in memory and written to a column that rounds it.
A total below half a hundredth passes the test and leaves a record of zero.

Expenses go through a find-or-new helper, `recordExpenseFromMaintenance`, which
does rewrite the record of a maintenance each time the maintenance is saved.
-/

namespace CarRental.FinancialService

open Lib

/-- The sum of the income ledger. -/
def totalIncome (db : Db) : Amount := IncomeRecordRepository.sumAll db

/-- The sum of the expense ledger. -/
def totalExpense (db : Db) : Amount := ExpenseRecordRepository.sumAll db

/-- The record written for a contract with total `amount`. -/
def incomeRecord {μ : Type} (env : Env) (contractId : Id) (contract : ContractOf μ)
    (client : Client) (amount : Amount) : IncomeRecord where
  amount := amount
  recordedAt := env.now
  source := .contract
  contractId := contractId
  clientId := contract.clientId
  clientName := client.fullName
  description := "Contrat #" ++ toString contractId ++ " — " ++ client.fullName

/-- Writes the income of a contract, over its first record if it has one. Without a positive
total there is nothing to write. -/
def recordIncomeFromContract (env : Env) (contractId : Id) (contract : ContractOf Decimal)
    (db : Db) : Except ServiceError Db :=
  match contract.totalGeneral with
  | none => pure db
  | some total =>
    -- the sign is that of the total in memory, what is written is what the column keeps of it
    if total.unscaled ≤ 0 then pure db
    else do
      let client ← orThrow (db.clients.get? contract.clientId) .entityNotFound
      let record := incomeRecord env contractId contract client total.stored
      match (IncomeRecordRepository.findAllByContractId db contractId).head? with
      | some (id, _) => pure { db with incomeRecords := db.incomeRecords.set id record }
      | none => pure { db with incomeRecords := db.incomeRecords.insert record }

/-- Books the income only once, whether at activation, at completion or when a
completed contract is archived. -/
def ensureIncomeForContract (env : Env) (contractId : Id) (contract : ContractOf Decimal)
    (db : Db) : Except ServiceError Db :=
  if IncomeRecordRepository.existsByContractId db contractId then pure db
  else recordIncomeFromContract env contractId contract db

/-- The record written for a maintenance that costs `amount`. -/
def expenseRecord (maintenanceId : Id) (maintenance : Maintenance) (car : Car)
    (amount : Amount) : ExpenseRecord where
  amount := amount
  recordedAt := maintenance.createdAt
  source := .maintenance
  category := maintenance.type
  description := maintenance.description
  maintenanceId := maintenanceId
  carName := car.brand ++ " — " ++ car.matricule

/-- Writes the expense of a maintenance, over its record if it has one. Without a cost there
is nothing to write. -/
def recordExpenseFromMaintenance (maintenanceId : Id) (maintenance : Maintenance) (db : Db) :
    Except ServiceError Db :=
  match maintenance.cost with
  | none => pure db
  | some cost => do
    let existing ← ExpenseRecordRepository.findByMaintenanceId db maintenanceId
    let car ← orThrow (db.cars.get? maintenance.carId) .entityNotFound
    let record := expenseRecord maintenanceId maintenance car cost
    match existing with
    | some (id, _) => pure { db with expenseRecords := db.expenseRecords.set id record }
    | none => pure { db with expenseRecords := db.expenseRecords.insert record }

/-! ### What the two ledger operations write -/

/-- What booking the income of a contract leaves in the ledger: an existing record
of the contract, or no positive total to book, leaves it as it is; otherwise
exactly one record is appended. -/
theorem ensureIncomeForContract_cases {env : Env} {contractId : Id}
    {contract : ContractOf Decimal} {db db' : Db}
    (h : ensureIncomeForContract env contractId contract db = .ok db') :
    (IncomeRecordRepository.existsByContractId db contractId = true ∧ db' = db) ∨
    (IncomeRecordRepository.existsByContractId db contractId = false ∧
      (∀ total, contract.totalGeneral = some total → total.unscaled ≤ 0) ∧ db' = db) ∨
    (IncomeRecordRepository.existsByContractId db contractId = false ∧
      ∃ total client, contract.totalGeneral = some total ∧ 0 < total.unscaled ∧
        db.clients.get? contract.clientId = some client ∧
        db' = { db with
          incomeRecords :=
            db.incomeRecords.insert
              (incomeRecord env contractId contract client total.stored) }) := by
  unfold ensureIncomeForContract at h
  cases hex : IncomeRecordRepository.existsByContractId db contractId with
  | true =>
    rw [hex, if_pos rfl, pure_eq_ok] at h
    exact Or.inl ⟨rfl, h.symm⟩
  | false =>
    rw [hex, if_neg (by simp)] at h
    unfold recordIncomeFromContract at h
    -- the test above is what makes the overwriting branch unreachable
    have hnone : (IncomeRecordRepository.findAllByContractId db contractId).head? = none := by
      have hnil := Table.select_eq_nil_iff.mpr hex
      simp [IncomeRecordRepository.findAllByContractId, hnil]
    cases htotal : contract.totalGeneral with
    | none =>
      rw [htotal] at h
      exact Or.inr (Or.inl ⟨rfl, by simp, (pure_eq_ok.mp h).symm⟩)
    | some total =>
      rw [htotal] at h
      dsimp only at h
      by_cases hpos : total.unscaled ≤ 0
      · rw [if_pos hpos, pure_eq_ok] at h
        exact Or.inr (Or.inl ⟨rfl, by simpa using hpos, h.symm⟩)
      · rw [if_neg hpos, bind_eq_ok] at h
        obtain ⟨client, hclient, h⟩ := h
        rw [hnone] at h
        exact Or.inr (Or.inr ⟨rfl, total, client, rfl, Int.not_le.mp hpos, orThrow_eq_ok.mp hclient,
          (pure_eq_ok.mp h).symm⟩)

/-- What recording the expense of a maintenance writes: nothing when it has no cost,
otherwise the one record of the maintenance, new or rewritten. -/
theorem recordExpenseFromMaintenance_cases {maintenanceId : Id} {maintenance : Maintenance}
    {db db' : Db} (h : recordExpenseFromMaintenance maintenanceId maintenance db = .ok db') :
    (maintenance.cost = none ∧ db' = db) ∨
    ∃ cost car, maintenance.cost = some cost ∧ db.cars.get? maintenance.carId = some car ∧
      ((ExpenseRecordRepository.findByMaintenanceId db maintenanceId = .ok none ∧
          db' = { db with expenseRecords :=
            db.expenseRecords.insert (expenseRecord maintenanceId maintenance car cost) }) ∨
        ∃ id old,
          ExpenseRecordRepository.findByMaintenanceId db maintenanceId = .ok (some (id, old)) ∧
          db' = { db with expenseRecords :=
            db.expenseRecords.set id (expenseRecord maintenanceId maintenance car cost) }) := by
  unfold recordExpenseFromMaintenance at h
  cases hcost : maintenance.cost with
  | none =>
    rw [hcost] at h
    exact Or.inl ⟨rfl, (pure_eq_ok.mp h).symm⟩
  | some cost =>
    rw [hcost] at h
    dsimp only at h
    rw [bind_eq_ok] at h
    obtain ⟨existing, hfind, h⟩ := h
    rw [bind_eq_ok] at h
    obtain ⟨car, hcar, h⟩ := h
    refine Or.inr ⟨cost, car, rfl, orThrow_eq_ok.mp hcar, ?_⟩
    cases existing with
    | none => exact Or.inl ⟨hfind, (pure_eq_ok.mp h).symm⟩
    | some record => exact Or.inr ⟨record.1, record.2, hfind, (pure_eq_ok.mp h).symm⟩

end CarRental.FinancialService
