import Mathlib.Algebra.Ring.Int.Defs
import CarRental.Domain

/-!
# CarRental.Repository

The **database** the services work on and the queries of the package
`domain.repository` over it.

A service call is one transaction, and within it Hibernate flushes a changed
entity before any query that reads its table. So the model writes an entity to
its table at the point where the source changes it, and every later query of the
same call sees it.

`Env` is what a call reads from outside the database. A call reads the clock
once. The order in which an unordered query lists the contracts is not specified
by the schema, so it is part of `Env` as an arbitrary permutation, and so are
the contracts on which the storage layer fails during the activation sweep.

The text columns are declared with the collation `utf8mb4_unicode_ci`, which takes
texts for equal that differ in case or accents. A key on such a column compares
*collation keys*; which texts share one is left open (`Db.collate`).
-/

namespace CarRental

open Lib

/-- The tables of the schema, and the collation of its text columns. -/
structure Db where
  /-- The collation key of a text: to a unique key two texts are equal when their collation
  keys are. No call changes it. -/
  collate : String → String
  cars : Table Car
  clients : Table Client
  contracts : Table Contract
  maintenances : Table Maintenance
  incomeRecords : Table IncomeRecord
  expenseRecords : Table ExpenseRecord

/-- The database right after the schema was created. -/
def Db.empty (collate : String → String := id) : Db :=
  ⟨collate, .empty, .empty, .empty, .empty, .empty, .empty⟩

/-- What a call reads from outside the database. -/
structure Env where
  now : LocalDateTime
  /-- The order in which an unordered query lists contract rows. -/
  listing : List (Id × Contract) → List (Id × Contract) := id
  listing_perm : ∀ rows, (listing rows).Perm rows := by exact fun _ => List.Perm.refl _
  /-- The contracts whose save or booking fails with an unchecked exception
  when the activation sweep reaches them. -/
  faulty : Id → Bool := fun _ => false
  /-- The name drawn for an uploaded picture, and the reason why it could not be
  copied, if any. -/
  uuid : String := ""
  copyError : Option String := none

/-- The environment at time `now` when rows are listed by key and nothing fails. -/
def Env.atTime (now : LocalDateTime) : Env where
  now := now

/-- `LocalDate.now()` -/
def Env.today (env : Env) : LocalDate := env.now.toLocalDate

namespace CarRepository

/-- The cars with the given status. -/
def findByStatus (db : Db) (status : CarStatus) : List (Id × Car) :=
  db.cars.select fun _ car => car.status = status

/-- Is the registration number, up to the collation, taken by a row other than `id`? The
unique key `uk_cars_matricule` refuses such a save. -/
def matriculeTaken (db : Db) (id : Option Id) (matricule : String) : Bool :=
  db.cars.any fun i car => some i ≠ id && db.collate car.matricule = db.collate matricule

end CarRepository

namespace ContractRepository

/-- The contracts that are not archived. -/
def findByDeletedFalse (env : Env) (db : Db) : List (Id × Contract) :=
  env.listing (db.contracts.select fun _ c => !c.deleted)

/-- The contracts of a car that are not archived. -/
def findByDeletedFalseAndCarId (env : Env) (db : Db) (carId : Id) : List (Id × Contract) :=
  env.listing (db.contracts.select fun _ c => !c.deleted && c.carId = carId)

/-- The contracts with the given status that are not archived. -/
def findByDeletedFalseAndStatus (env : Env) (db : Db) (status : ContractStatus) :
    List (Id × Contract) :=
  env.listing (db.contracts.select fun _ c => !c.deleted && c.status = status)

/-- The fetch joins drop a row whose car or client is gone. -/
def findDetailedByStatus (env : Env) (db : Db) (status : ContractStatus) : List (Id × Contract) :=
  env.listing (db.contracts.select fun _ c => !c.deleted && c.status = status &&
    (db.cars.get? c.carId).isSome && (db.clients.get? c.clientId).isSome)

/-- Has the car a contract that is not archived and has one of the statuses? -/
def existsByCarIdAndDeletedFalseAndStatusIn (db : Db) (carId : Id)
    (statuses : List ContractStatus) : Bool :=
  db.contracts.any fun _ c => c.carId = carId && !c.deleted && statuses.contains c.status

/-- Has the client a contract that is not archived and has one of the statuses? -/
def existsByClientIdAndDeletedFalseAndStatusIn (db : Db) (clientId : Id)
    (statuses : List ContractStatus) : Bool :=
  db.contracts.any fun _ c => c.clientId = clientId && !c.deleted && statuses.contains c.status

/-- The number of contracts of a client that are not archived. -/
def countByDeletedFalseAndClientId (db : Db) (clientId : Id) : Nat :=
  (db.contracts.select fun _ c => !c.deleted && c.clientId = clientId).length

/-- The number of contracts of a client, archived ones included. -/
def countByClientId (db : Db) (clientId : Id) : Nat :=
  (db.contracts.select fun _ c => c.clientId = clientId).length

/-- The number of contracts of a car, archived ones included. -/
def countByCarId (db : Db) (carId : Id) : Nat :=
  (db.contracts.select fun _ c => c.carId = carId).length

/-- Latest departure first; a missing departure sorts as the smallest value. -/
def departsAfter (c₁ c₂ : Id × Contract) : Bool :=
  match c₁.2.departureDatetime, c₂.2.departureDatetime with
  | some d₁, some d₂ => d₂ ≤ d₁
  | _, none => true
  | none, some _ => false

/-- All contracts of a car, archived ones included. The fetch joins drop a row whose
car or client is gone. -/
def findByCarIdForHistory (env : Env) (db : Db) (carId : Id) : List (Id × Contract) :=
  (env.listing (db.contracts.select fun _ c => c.carId = carId &&
    (db.cars.get? c.carId).isSome && (db.clients.get? c.clientId).isSome)).mergeSort departsAfter

end ContractRepository

namespace MaintenanceRepository

/-- The maintenances of a car. -/
def findByCarId (db : Db) (carId : Id) : List (Id × Maintenance) :=
  db.maintenances.select fun _ m => m.carId = carId

/-- The number of maintenances of a car. -/
def countByCarId (db : Db) (carId : Id) : Nat := (findByCarId db carId).length

end MaintenanceRepository

namespace IncomeRecordRepository

/-- The income records of a contract. -/
def findAllByContractId (db : Db) (contractId : Id) : List (Id × IncomeRecord) :=
  db.incomeRecords.select fun _ r => r.contractId = contractId

/-- Has the contract an income record? -/
def existsByContractId (db : Db) (contractId : Id) : Bool :=
  db.incomeRecords.any fun _ r => r.contractId = contractId

/-- `coalesce(sum(i.amount), 0)` -/
def sumAll (db : Db) : Amount := (db.incomeRecords.rows.map fun r => r.2.amount).sum

end IncomeRecordRepository

namespace ExpenseRecordRepository

/-- At most one row may answer; several are an error of the query. -/
def findByMaintenanceId (db : Db) (maintenanceId : Id) :
    Except ServiceError (Option (Id × ExpenseRecord)) :=
  match db.expenseRecords.select fun _ r => r.maintenanceId = maintenanceId with
  | [] => .ok none
  | [record] => .ok (some record)
  | _ => .error .incorrectResultSize

/-- `coalesce(sum(e.amount), 0)` -/
def sumAll (db : Db) : Amount := (db.expenseRecords.rows.map fun r => r.2.amount).sum

end ExpenseRecordRepository

end CarRental
