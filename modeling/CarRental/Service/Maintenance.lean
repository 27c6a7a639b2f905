import CarRental.Service.Financial

/-!
# CarRental.Service.Maintenance

`MaintenanceService`: maintenances of cars, and the **reconciliation** that keeps
the status column of a car in step with them.

`reconcileCarStatus` is the only writer of the statuses `MAINTENANCE` and, for a
car that is not rented, `AVAILABLE`. It never touches a rented car.
-/

namespace CarRental.MaintenanceService

open Lib

/-- Is the maintenance in force on `today`? A missing date leaves that side open. -/
def isOngoing (today : LocalDate) (m : Maintenance) : Bool :=
  if m.status = .completed then false
  else if m.startDate.any fun start => today < start then false
  else if m.endDate.any fun fin => fin < today then false
  else true

/-- Has the car a maintenance in force on `today`? -/
def hasOngoingMaintenance (today : LocalDate) (db : Db) (carId : Id) : Bool :=
  (MaintenanceRepository.findByCarId db carId).any fun m => isOngoing today m.2

/-- The status a car that is not rented should have on `today`. -/
def statusWhenNotRented (today : LocalDate) (db : Db) (carId : Id) : CarStatus :=
  if hasOngoingMaintenance today db carId then .maintenance else .available

/-- Sets the status of a car that is not rented to the one its maintenances ask for. -/
def reconcileCarStatus (today : LocalDate) (carId : Id) (db : Db) : Db :=
  match db.cars.get? carId with
  | none => db
  | some car =>
    if car.status = .rented then db
    else if hasOngoingMaintenance today db carId then
      if car.status ≠ .maintenance then
        { db with cars := db.cars.set carId { car with status := .maintenance } }
      else db
    else if car.status = .maintenance then
      { db with cars := db.cars.set carId { car with status := .available } }
    else db

/-- Brings the status column up to date with the maintenances; run on reads. -/
def reconcileAllCarStatuses (today : LocalDate) (db : Db) : Db :=
  (db.cars.rows.map Prod.fst).foldl (fun db carId => reconcileCarStatus today carId db) db

/-- The car, or the service's refusal. -/
def getCar (id : Id) (db : Db) : Except ServiceError Car :=
  orThrow (db.cars.get? id) (.resourceNotFound ("Car not found: " ++ toString id))

/-- The maintenance, or the service's refusal. -/
def getMaintenance (id : Id) (db : Db) : Except ServiceError Maintenance :=
  orThrow (db.maintenances.get? id)
    (.resourceNotFound ("Maintenance not found: " ++ toString id))

/-- A request without a status keeps the one the maintenance has. The cost is rounded by the
column it is stored in. -/
def apply (m : Maintenance) (r : MaintenanceRequest) : Maintenance :=
  { m with
    type := r.type
    description := r.description
    startDate := r.startDate
    endDate := r.endDate
    cost := r.cost.map Decimal.stored
    status := r.status.getD m.status }

/-- The answer for a maintenance loaded from its row. -/
def map (db : Db) (id : Id) (m : Maintenance) : Except ServiceError MaintenanceResponse := do
  let car ← orThrow (db.cars.get? m.carId) .entityNotFound
  pure
    { id := id
      carId := m.carId
      carLabel := car.brand ++ " - " ++ car.matricule
      type := m.type
      description := m.description
      startDate := m.startDate
      endDate := m.endDate
      cost := m.cost.map Decimal.ofAmount
      status := m.status }

/-- All maintenances, after every car was reconciled. -/
def findAll (env : Env) (db : Db) : Except ServiceError (List MaintenanceResponse × Db) := do
  let db := reconcileAllCarStatuses env.today db
  let responses ← db.maintenances.rows.mapM fun m => map db m.1 m.2
  pure (responses, db)

/-- The maintenances of a car, after that car was reconciled. -/
def findByCarId (env : Env) (carId : Id) (db : Db) :
    Except ServiceError (List MaintenanceResponse × Db) := do
  let _ ← getCar carId db
  let db := reconcileCarStatus env.today carId db
  let responses ← (MaintenanceRepository.findByCarId db carId).mapM fun m => map db m.1 m.2
  pure (responses, db)

/-- A new maintenance with its expense; its car is reconciled. -/
def create (env : Env) (request : MaintenanceRequest) (db : Db) :
    Except ServiceError (MaintenanceResponse × Db) := do
  let _ ← getCar request.carId db
  let maintenance := apply { carId := request.carId, type := "", createdAt := env.now } request
  let id := db.maintenances.nextId
  let db := { db with maintenances := db.maintenances.insert maintenance }
  let db := reconcileCarStatus env.today request.carId db
  let db ← FinancialService.recordExpenseFromMaintenance id maintenance db
  let response ← map db id maintenance
  -- the answer is made from memory, where the cost is still the one that was sent
  pure ({ response with cost := request.cost }, db)

/-- The status only becomes `COMPLETED` through `complete`. Only the car named by the
request is reconciled, not the one the maintenance had before. -/
def update (env : Env) (id : Id) (request : MaintenanceRequest) (db : Db) :
    Except ServiceError (MaintenanceResponse × Db) := do
  let maintenance ← getMaintenance id db
  throwIf (request.status = some .completed ∧ maintenance.status ≠ .completed)
    (.illegalArgument "USE_COMPLETE_ENDPOINT")
  let _ ← getCar request.carId db
  let maintenance := apply { maintenance with carId := request.carId } request
  let db := { db with maintenances := db.maintenances.set id maintenance }
  let db := reconcileCarStatus env.today request.carId db
  let db ← FinancialService.recordExpenseFromMaintenance id maintenance db
  let response ← map db id maintenance
  pure ({ response with cost := request.cost }, db)

/-- A missing end date becomes the day of completion; a given one is kept, even when
it lies ahead. -/
def complete (env : Env) (id : Id) (db : Db) :
    Except ServiceError (MaintenanceResponse × Db) := do
  let maintenance ← getMaintenance id db
  throwIf (maintenance.status = .completed) (.illegalArgument "MAINTENANCE_ALREADY_COMPLETED")
  let maintenance :=
    { maintenance with
      status := .completed
      endDate := some (maintenance.endDate.getD env.today) }
  let db := { db with maintenances := db.maintenances.set id maintenance }
  let _ ← orThrow (db.cars.get? maintenance.carId) .entityNotFound
  let db := reconcileCarStatus env.today maintenance.carId db
  let db ← FinancialService.recordExpenseFromMaintenance id maintenance db
  let response ← map db id maintenance
  pure (response, db)

/-- The expense record of the maintenance stays. -/
def delete (env : Env) (id : Id) (db : Db) : Except ServiceError Db := do
  let maintenance ← getMaintenance id db
  let db := { db with maintenances := db.maintenances.delete id }
  let _ ← orThrow (db.cars.get? maintenance.carId) .entityNotFound
  pure (reconcileCarStatus env.today maintenance.carId db)

/-! ### Reconciliation -/

theorem hasOngoingMaintenance_iff {today : LocalDate} {db : Db} {carId : Id} :
    hasOngoingMaintenance today db carId = true ↔
      ∃ id m, db.maintenances.get? id = some m ∧ m.carId = carId ∧ isOngoing today m = true := by
  simp only [hasOngoingMaintenance, MaintenanceRepository.findByCarId, List.any_eq_true,
    Table.mem_select, Prod.exists, decide_eq_true_eq]
  constructor
  · rintro ⟨id, m, ⟨hget, hcar⟩, hon⟩
    exact ⟨id, m, hget, hcar, hon⟩
  · rintro ⟨id, m, hget, hcar, hon⟩
    exact ⟨id, m, ⟨hget, hcar⟩, hon⟩

/-- Only the maintenance table decides. -/
theorem hasOngoingMaintenance_congr {today : LocalDate} {db db' : Db} {carId : Id}
    (h : db'.maintenances = db.maintenances) :
    hasOngoingMaintenance today db' carId = hasOngoingMaintenance today db carId := by
  unfold hasOngoingMaintenance MaintenanceRepository.findByCarId
  rw [h]

/-- Reconciling is one write to the car table: the derived status, unless the car is
rented or already has it. -/
theorem reconcileCarStatus_eq {today : LocalDate} {carId : Id} {db : Db} {car : Car}
    (hcar : db.cars.get? carId = some car) (hrented : car.status ≠ .rented) :
    reconcileCarStatus today carId db =
      { db with cars :=
          db.cars.set carId { car with status := statusWhenNotRented today db carId } } := by
  have hkeep : ∀ {s : CarStatus}, car.status = s →
      db.cars.set carId { car with status := s } = db.cars := by
    intro s hs
    refine Table.set_get? ?_
    rw [hcar, ← hs]
  unfold reconcileCarStatus statusWhenNotRented
  rw [hcar]
  dsimp only
  rw [if_neg hrented]
  by_cases hon : hasOngoingMaintenance today db carId = true
  · rw [if_pos hon, if_pos hon]
    by_cases hs : car.status = .maintenance
    · rw [if_neg (by simpa using hs), hkeep hs]
    · rw [if_pos hs]
  · rw [if_neg hon, if_neg hon]
    by_cases hs : car.status = .maintenance
    · rw [if_pos hs]
    · have havail : car.status = .available := by
        cases hc : car.status with
        | available => rfl
        | rented => exact absurd hc hrented
        | maintenance => exact absurd hc hs
      rw [if_neg hs, hkeep havail]

theorem reconcileCarStatus_rented {today : LocalDate} {carId : Id} {db : Db} {car : Car}
    (hcar : db.cars.get? carId = some car) (hrented : car.status = .rented) :
    reconcileCarStatus today carId db = db := by
  unfold reconcileCarStatus
  rw [hcar]
  simp [hrented]

theorem reconcileCarStatus_none {today : LocalDate} {carId : Id} {db : Db}
    (hcar : db.cars.get? carId = none) : reconcileCarStatus today carId db = db := by
  unfold reconcileCarStatus
  rw [hcar]

/-- Reconciling writes no table but the cars. -/
theorem reconcileCarStatus_frame (today : LocalDate) (carId : Id) (db : Db) :
    ∃ cars, reconcileCarStatus today carId db = { db with cars := cars } := by
  cases hcar : db.cars.get? carId with
  | none => exact ⟨db.cars, reconcileCarStatus_none hcar⟩
  | some car =>
    by_cases hrented : car.status = .rented
    · exact ⟨db.cars, reconcileCarStatus_rented hcar hrented⟩
    · exact ⟨_, reconcileCarStatus_eq hcar hrented⟩

end CarRental.MaintenanceService
