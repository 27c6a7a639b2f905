import CarRental.Service.Contract

/-!
# CarRental.Service.Dashboard

`DashboardService`: the **figures** of the fleet and of the two ledgers, and the
**alerts**.

The figures of the fleet are counted on the stored status column. Unlike the lists
of `CarService`, they do not reconcile it first. The alerts sweep first, so a
rental that begins with the call can already be reported as due back.
-/

namespace CarRental.DashboardService

/-- The numbers on the first screen; unlike a listing of the cars, it brings no status up to date.
-/
def stats (db : Db) : DashboardResponse where
  totalCars := db.cars.rows.length
  available := (CarRepository.findByStatus db .available).length
  rented := (CarRepository.findByStatus db .rented).length
  maintenance := (CarRepository.findByStatus db .maintenance).length
  totalIncome := FinancialService.totalIncome db
  totalExpense := FinancialService.totalExpense db

/-! ### Alerts -/

/-- How long before the end of the insurance it is shown. -/
def insuranceAlertDays : Int := 30
/-- How long before the inspection it is shown. -/
def inspectionAlertDays : Int := 30
/-- How long an oil change lasts. -/
def oilChangeDelayDays : Int := 180

/-- How a car is called in an alert. -/
def carLabel (car : Car) : String := car.brand ++ " - " ++ car.matricule

/-- A running contract whose return is overdue, or due in less than a day. -/
def returnAlert (now : LocalDateTime) (db : Db) (row : Id × Contract) :
    Option DashboardAlertResponse := do
  let car ← db.cars.get? row.2.carId
  let client ← db.clients.get? row.2.clientId
  let returnTime ← row.2.expectedReturnDatetime
  let alert (message : String) (severity : Severity) : DashboardAlertResponse :=
    { type := .return
      carId := row.2.carId
      carLabel := carLabel car
      message := message ++ client.fullName
      severity := severity
      dueDate := returnTime.toLocalDate
      contractId := some row.1 }
  if returnTime < now then some (alert "Retour depasse pour " .high)
  else if returnTime - secondsPerDay < now then
    some (alert "Retour prevu dans moins de 24h pour " .medium)
  else none

/-- A date of a car that has passed or comes within `days`. -/
def expiryAlert (type : AlertType) (message : String) (days : Int) (today : LocalDate) (id : Id)
    (car : Car) (date : Option LocalDate) : Option DashboardAlertResponse := do
  let date ← date
  if date ≤ today + days then
    some
      { type := type
        carId := id
        carLabel := carLabel car
        message := message
        severity := if date < today then .high else .medium
        dueDate := date
        contractId := none }
  else none

/-- The alert for the insurance. -/
def insuranceAlert (today : LocalDate) (id : Id) (car : Car) : Option DashboardAlertResponse :=
  expiryAlert .insurance "Assurance expiree ou proche d'expiration" insuranceAlertDays today id car
    car.insuranceExpiryDate

/-- The alert for the inspection. -/
def inspectionAlert (today : LocalDate) (id : Id) (car : Car) : Option DashboardAlertResponse :=
  expiryAlert .inspection "Controle technique proche ou depasse" inspectionAlertDays today id car
    car.nextInspectionDate

/-- Unlike the other two this one looks back, and never becomes urgent. -/
def oilChangeAlert (today : LocalDate) (id : Id) (car : Car) : Option DashboardAlertResponse := do
  let date ← car.lastOilChangeDate
  if date < today - oilChangeDelayDays then
    some
      { type := .oilChange
        carId := id
        carLabel := carLabel car
        message := "Vidange en retard"
        severity := .medium
        dueDate := date
        contractId := none }
  else none

/-- What is due for one car. -/
def vehicleAlerts (today : LocalDate) (row : Id × Car) : List DashboardAlertResponse :=
  (insuranceAlert today row.1 row.2).toList ++ (inspectionAlert today row.1 row.2).toList ++
    (oilChangeAlert today row.1 row.2).toList

/-- The reservations that are due are activated first, so reading the alerts writes. -/
def alerts (env : Env) (db : Db) :
    Except ServiceError (List DashboardAlertResponse × Db) := do
  let db ← ContractService.autoActivateContracts env db
  let activeContracts := ContractRepository.findDetailedByStatus env db .active
  pure (activeContracts.filterMap (returnAlert env.now db) ++
    db.cars.rows.flatMap (vehicleAlerts env.today), db)

end CarRental.DashboardService
