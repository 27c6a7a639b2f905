import CarRental.Service.Maintenance

/-!
# CarRental.Service.Car

`CarService`: the fleet, its **status column** and its **calendar**.

The two answer different questions. The status column is stored and refreshed by
reconciliation on the reads of this service. The calendar
(`availabilityOnDate`) is computed for any date from the dates of contracts and
maintenances, and looks at the status column not at all.
-/

namespace CarRental.CarService

open Lib

/-- The car, or the exception that names the key. -/
def getCar (id : Id) (db : Db) : Except ServiceError Car :=
  orThrow (db.cars.get? id) (.resourceNotFound ("Car not found: " ++ toString id))

/-- `map`: the row with its key. -/
def map (id : Id) (car : Car) : CarResponse where
  id := id
  brand := car.brand
  fuelType := car.fuelType
  matricule := car.matricule
  nextInspectionDate := car.nextInspectionDate
  lastOilChangeDate := car.lastOilChangeDate
  insuranceExpiryDate := car.insuranceExpiryDate
  mileage := car.mileage
  mileageUpdatedAt := car.mileageUpdatedAt
  imageUrl := car.imageUrl
  status := car.status

/-! ### Reads that reconcile first -/

/-- Reading the cars first brings their status up to date, and that is written. -/
def findAll (env : Env) (db : Db) : List CarResponse × Db :=
  let db := MaintenanceService.reconcileAllCarStatuses env.today db
  (db.cars.rows.map fun c => map c.1 c.2, db)

/-- The car is looked up before and after its status is brought up to date. -/
def findById (env : Env) (id : Id) (db : Db) : Except ServiceError (CarResponse × Db) := do
  let _ ← getCar id db
  let db := MaintenanceService.reconcileCarStatus env.today id db
  let car ← getCar id db
  pure (map id car, db)

/-- The status is looked at after all of them are up to date. -/
def findByStatus (env : Env) (status : CarStatus) (db : Db) : List CarResponse × Db :=
  let db := MaintenanceService.reconcileAllCarStatuses env.today db
  ((CarRepository.findByStatus db status).map fun c => map c.1 c.2, db)

/-! ### Writes -/

/-- From the last dot on, or nothing. -/
def extension (original : String) : String :=
  match (original.splitOn ".").reverse with
  | last :: _ :: _ => "." ++ last.toLower
  | _ => ""

/-- The picture is kept under a new name with its old extension. `env.copyError` is what the copy
throws. -/
def storeImage (env : Env) (image : MultipartFile) : Except ServiceError String := do
  let ext := extension (image.originalFilename.getD "image.jpg")
  throwIf (¬ [".jpg", ".jpeg", ".png"].contains ext)
    (.illegalArgument "Unsupported image format")
  match env.copyError with
  | some message => .error (.illegalArgument ("Unable to store image: " ++ message))
  | none => pure ("/uploads/cars/" ++ (env.uuid ++ ext))

/-- The mileage never decreases on a saved car; its stamp moves only when it changes. -/
def applyMileage (env : Env) (saved : Bool) (car : Car) (requestedMileage : Option Int) :
    Except ServiceError Car := do
  let mileage ← orThrow requestedMileage (.illegalArgument "MILEAGE_REQUIRED")
  throwIf (mileage < 0) (.illegalArgument "MILEAGE_MUST_BE_POSITIVE")
  throwIf (saved = true ∧ mileage < car.mileage) (.illegalArgument "MILEAGE_CANNOT_DECREASE")
  if saved = false ∨ mileage ≠ car.mileage then
    pure { car with mileage := mileage, mileageUpdatedAt := some env.now }
  else pure car

/-- The fields of the form go into the row. `saved` tells a car on file from a new one. -/
def apply (env : Env) (saved : Bool) (car : Car) (request : CarRequest)
    (image : Option MultipartFile) (allowStatusOnCreate : Bool) : Except ServiceError Car := do
  let car :=
    { car with
      brand := request.brand
      fuelType := request.fuelType
      matricule := request.matricule
      nextInspectionDate := request.nextInspectionDate
      lastOilChangeDate := request.lastOilChangeDate
      insuranceExpiryDate := request.insuranceExpiryDate }
  let car ← applyMileage env saved car request.mileage
  let imageUrl ← match image with
    | some file => if file.isEmpty then pure car.imageUrl else some <$> storeImage env file
    | none => pure car.imageUrl
  let car := { car with imageUrl := imageUrl }
  if allowStatusOnCreate then pure { car with status := request.status.getD .available }
  else pure car

/-- A new car is available; its form may say so, and nothing else. -/
def create (env : Env) (request : CarRequest) (image : Option MultipartFile) (db : Db) :
    Except ServiceError (CarResponse × Db) := do
  let car ← apply env false { brand := "", fuelType := .essence, matricule := "" } request image
    true
  throwIf (car.status ≠ .available) (.illegalArgument "NEW_CAR_MUST_BE_AVAILABLE")
  throwIf (CarRepository.matriculeTaken db none car.matricule)
    (.dataIntegrityViolation "uk_cars_matricule")
  pure (map db.cars.nextId car, { db with cars := db.cars.insert car })

/-- The status of the form is ignored. The unique key compares matricules under the collation. -/
def update (env : Env) (id : Id) (request : CarRequest) (image : Option MultipartFile) (db : Db) :
    Except ServiceError (CarResponse × Db) := do
  let saved ← getCar id db
  let car ← apply env true saved request image false
  let car := { car with status := saved.status }
  throwIf (CarRepository.matriculeTaken db (some id) car.matricule)
    (.dataIntegrityViolation "uk_cars_matricule")
  pure (map id car, { db with cars := db.cars.set id car })

/-- Back to `AVAILABLE`, from `RENTED` or `MAINTENANCE` only: not while a maintenance
is ongoing, and not while the car has an open contract. -/
def markAvailable (env : Env) (id : Id) (db : Db) : Except ServiceError (CarResponse × Db) := do
  let car ← getCar id db
  throwIf (car.status ≠ .rented ∧ car.status ≠ .maintenance)
    (.illegalArgument "ONLY_RENTED_OR_MAINTENANCE_CAN_BECOME_AVAILABLE")
  throwIf (car.status = .maintenance ∧
      MaintenanceService.hasOngoingMaintenance env.today db id = true)
    (.illegalArgument "MAINTENANCE_NOT_FINISHED")
  throwIf (car.status = .rented ∧
      ContractRepository.existsByCarIdAndDeletedFalseAndStatusIn db id
        [.inProgress, .active] = true)
    (.illegalArgument "CAR_HAS_ACTIVE_CONTRACT")
  let car := { car with status := .available }
  pure (map id car, { db with cars := db.cars.set id car })

/-- A car with rentals or maintenances, even past ones, stays. -/
def delete (id : Id) (db : Db) : Except ServiceError Db := do
  let _ ← getCar id db
  throwIf (ContractRepository.existsByCarIdAndDeletedFalseAndStatusIn db id [.inProgress, .active])
    (.illegalArgument "Impossible : voiture avec contrat en cours")
  throwIf (0 < ContractRepository.countByCarId db id ∨ 0 < MaintenanceRepository.countByCarId db id)
    (.illegalArgument "CAR_HAS_RENTAL_HISTORY")
  pure { db with cars := db.cars.delete id }

/-! ### The calendar -/

/-- Both ends count; a missing end leaves its side open. The completion flag of the
maintenance is not looked at. -/
def maintenanceCoversDate (m : Maintenance) (date : LocalDate) : Bool :=
  (m.startDate.all fun start => start ≤ date) && (m.endDate.all fun fin => date ≤ fin)

/-- Both ends count. The actual return, when there is one, stands in for the expected
one; with neither, the contract covers every day from its departure on. -/
def contractCoversDate (c : Contract) (date : LocalDate) : Bool :=
  match c.departureDatetime with
  | none => false
  | some departure =>
    let start := departure.toLocalDate
    match c.actualReturnDatetime <|> c.expectedReturnDatetime with
    | none => start ≤ date
    | some ret =>
      let fin := ret.toLocalDate
      if c.status = .completed ∧ fin < date then false
      else start ≤ date ∧ date ≤ fin

/-- What the calendar says of a car for a day: the workshop comes before the contracts. -/
def availability (db : Db) (contracts : List (Id × Contract)) (date : LocalDate) (id : Id)
    (car : Car) : CarAvailabilityResponse :=
  let answer (status : CarStatus) (label : String) : CarAvailabilityResponse :=
    { carId := id
      brand := car.brand
      matricule := car.matricule
      fuelType := car.fuelType
      currentStatus := status
      availabilityLabel := label
      imageUrl := car.imageUrl }
  if db.maintenances.any fun _ m => m.carId = id && maintenanceCoversDate m date then
    answer .maintenance "En maintenance"
  else if contracts.any fun c => c.2.carId = id &&
      (c.2.status = .inProgress || c.2.status = .active || c.2.status = .completed) &&
      contractCoversDate c.2 date then
    answer .rented "Loué"
  else answer .available "Disponible"

/-- All cars, whatever their status is now. -/
def availabilityOnDate (env : Env) (date : LocalDate) (db : Db) : List CarAvailabilityResponse :=
  let contracts := ContractRepository.findByDeletedFalse env db
  db.cars.rows.map fun c => availability db contracts date c.1 c.2

/-- Those that are free on the day. -/
def availableOnDate (env : Env) (date : LocalDate) (db : Db) : List CarAvailabilityResponse :=
  (availabilityOnDate env date db).filter fun item => item.currentStatus = .available

/-! ### The history of a car -/

/-- A contract in the history, which reads its client. -/
def rentalItem (db : Db) (c : Contract) : Except ServiceError CarHistoryItemResponse := do
  let client ← orThrow (db.clients.get? c.clientId) .entityNotFound
  pure
    { type := "RENTAL"
      label := client.fullName
      startDate := c.departureDatetime
      endDate := c.actualReturnDatetime <|> c.expectedReturnDatetime
      cost := c.totalGeneral
      status := c.status.name }

/-- The start date of a maintenance is dereferenced, so a missing one throws. -/
def maintenanceItem (m : Maintenance) : Except ServiceError CarHistoryItemResponse := do
  let start ← orThrow m.startDate .nullPointer
  pure
    { type := "MAINTENANCE"
      label := m.type
      startDate := some start.atStartOfDay
      endDate := m.endDate.map LocalDate.atStartOfDay
      cost := m.cost
      status := "DONE" }

/-- Latest start first. Comparing a missing start throws, and sorting two or more
items compares every one of them. -/
def sortByStartDate (items : List CarHistoryItemResponse) :
    Except ServiceError (List CarHistoryItemResponse) := do
  throwIf (2 ≤ items.length ∧ items.any (fun item => item.startDate.isNone) = true) .nullPointer
  pure (items.mergeSort fun a b => b.startDate.getD 0 ≤ a.startDate.getD 0)

/-- Rentals and maintenances in one list, the latest first. -/
def history (env : Env) (carId : Id) (db : Db) :
    Except ServiceError (List CarHistoryItemResponse) := do
  let _ ← getCar carId db
  let rentals ← (ContractRepository.findByCarIdForHistory env db carId).mapM fun c =>
    rentalItem db c.2
  let maintenance ← (MaintenanceRepository.findByCarId db carId).mapM fun m => maintenanceItem m.2
  sortByStartDate (rentals ++ maintenance)

end CarRental.CarService
