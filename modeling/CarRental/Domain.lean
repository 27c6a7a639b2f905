import CarRental.Lib.Rounding
import CarRental.Lib.Table
import CarRental.Lib.Transaction

/-!
# CarRental.Domain

The **data model** of the rental back office: the entities of the package
`domain.model`, the request and response records of the services, and the errors
they throw.

Conventions:

* An entity is a row without its key; keys live in the `Lib.Table` the row is
  stored in, so an entity that has not been saved yet simply has no key.
* A reference between entities (`contract.car`, `maintenance.car`) is the key of
  the row it points to. Following a reference whose row is gone is the lazy
  proxy's `EntityNotFoundException`.
* A nullable field is an `Option`. `LocalDateTime` counts seconds of local time,
  the resolution of the `DATETIME` columns, and `LocalDate` counts days.
* Money has two types. An `Amount` is what a `DECIMAL(19,2)` column holds, a whole
  number of hundredths. A `Decimal` is the `BigDecimal` of a request, with as many
  decimals as were sent. Nothing rounds between the two but the column itself
  (`Decimal.stored`), so an entity in memory may hold an amount that its row does
  not: a contract is a `ContractOf Decimal` in memory and a `Contract` once stored.
* Columns nothing reads (`created_by`, `updated_at`, the creation stamps of cars
  and clients) are left out.
-/

namespace CarRental

open Lib

/-- A generated key. Zero is never handed out. -/
abbrev Id := Nat

/-- Seconds of local time. -/
abbrev LocalDateTime := Int

/-- Days of the local calendar. -/
abbrev LocalDate := Int

/-- A sum of money as a `DECIMAL(19,2)` column holds it, in hundredths. -/
abbrev Amount := Int

/-- The length of a day of the local clock. -/
def secondsPerDay : Int := 86400

/-- The calendar day an instant falls on. -/
def LocalDateTime.toLocalDate (t : LocalDateTime) : LocalDate := t / secondsPerDay

/-- Midnight at the start of a day. -/
def LocalDate.atStartOfDay (d : LocalDate) : LocalDateTime := d * secondsPerDay

/-! ### Money -/

/-- A `BigDecimal`: the number `unscaled / 10 ^ scale`. -/
structure Decimal where
  unscaled : Int
  scale : Nat
  deriving DecidableEq

namespace Decimal

/-- What a `DECIMAL(19,2)` column keeps of the number: it is rounded to hundredths, half a
hundredth away from zero. -/
def stored (x : Decimal) : Amount := roundHalfAway (x.unscaled * 100) (10 ^ x.scale)

/-- The number a stored amount is read back as. -/
def ofAmount (a : Amount) : Decimal := ⟨a, 2⟩

variable {x : Decimal}

/-- Amounts are read back as they are stored. -/
@[simp] theorem stored_ofAmount (a : Amount) : (ofAmount a).stored = a :=
  roundHalfAway_mul a (by decide)

@[simp] theorem stored_comp_ofAmount : stored ∘ ofAmount = id := funext stored_ofAmount

theorem stored_nonneg (h : 0 < x.unscaled) : 0 ≤ x.stored :=
  roundHalfAway_nonneg (by omega)

/-- Something is left of a number from half a hundredth on. -/
theorem stored_pos_iff : 0 < x.stored ↔ 10 ^ x.scale ≤ 200 * x.unscaled := by
  unfold stored
  rw [roundHalfAway_pos_iff (Nat.pow_pos (by decide)), Int.natCast_pow, Nat.cast_ofNat]
  omega

theorem unscaled_pos_of_stored (h : 0 < x.stored) : 0 < x.unscaled := by
  have hle := stored_pos_iff.mp h
  have hpow : (0 : Int) < 10 ^ x.scale := Int.pow_pos (by decide)
  omega

/-- Positive, but nothing of it is left in a column. -/
def Tiny (x : Decimal) : Prop := 0 < x.unscaled ∧ x.stored = 0

instance (x : Decimal) : Decidable x.Tiny := inferInstanceAs (Decidable (_ ∧ _))

/-- The tiny numbers are those between zero and half a hundredth. -/
theorem tiny_iff : x.Tiny ↔ 0 < x.unscaled ∧ 200 * x.unscaled < 10 ^ x.scale := by
  have hpos : 0 < x.stored ↔ 10 ^ x.scale ≤ 200 * x.unscaled := stored_pos_iff
  have hnonneg : 0 < x.unscaled → 0 ≤ x.stored := stored_nonneg
  unfold Tiny
  grind

theorem stored_pos_or_tiny (h : 0 < x.unscaled) : 0 < x.stored ∨ x.stored = 0 ∧ x.Tiny := by
  rcases Int.lt_or_eq_of_le (stored_nonneg h) with hpos | hzero
  · exact Or.inl hpos
  · exact Or.inr ⟨hzero.symm, h, hzero.symm⟩

/-- What was read from a column is not tiny. -/
theorem not_tiny_ofAmount (a : Amount) : ¬ (ofAmount a).Tiny := by
  intro h
  obtain ⟨hpos, hzero⟩ := h
  rw [stored_ofAmount] at hzero
  rw [hzero] at hpos
  exact absurd hpos (by decide)

end Decimal

/-! ### Enumerations -/

/-- Where a car is: on the parking, out with a client, or in the workshop. -/
inductive CarStatus
  | available
  | rented
  | maintenance
  deriving DecidableEq, Repr

/-- The constant's name, as messages show it. -/
def CarStatus.name : CarStatus → String
  | available => "AVAILABLE"
  | rented => "RENTED"
  | maintenance => "MAINTENANCE"

/-- The life cycle of a contract: a reservation, a rental under way, a rental that is over.
No operation ever sets `cancelled`. -/
inductive ContractStatus
  | inProgress
  | active
  | completed
  | cancelled
  deriving DecidableEq, Repr

/-- The constant's name, as messages show it. -/
def ContractStatus.name : ContractStatus → String
  | inProgress => "IN_PROGRESS"
  | active => "ACTIVE"
  | completed => "COMPLETED"
  | cancelled => "CANCELLED"

/-- Whether a maintenance has been declared finished. -/
inductive MaintenanceStatus
  | inProgress
  | completed
  deriving DecidableEq, Repr

/-- What a car burns. -/
inductive FuelType
  | essence
  | diesel
  deriving DecidableEq, Repr

/-- What an income record comes from; the services only write `contract`. -/
inductive IncomeSource
  | contract
  | payment
  | other
  deriving DecidableEq, Repr

/-- What an expense record comes from; the services only write `maintenance`. -/
inductive ExpenseSource
  | maintenance
  | other
  deriving DecidableEq, Repr

/-- The kinds of dashboard alerts. -/
inductive AlertType
  | return
  | insurance
  | inspection
  | oilChange
  deriving DecidableEq, Repr

/-- The weight of a dashboard alert. -/
inductive Severity
  | medium
  | high
  deriving DecidableEq, Repr

/-! ### Entities -/

/-- A car of the fleet. -/
structure Car where
  brand : String
  fuelType : FuelType
  matricule : String
  nextInspectionDate : Option LocalDate := none
  lastOilChangeDate : Option LocalDate := none
  insuranceExpiryDate : Option LocalDate := none
  mileage : Int := 0
  mileageUpdatedAt : Option LocalDateTime := none
  imageUrl : Option String := none
  status : CarStatus := .available
  deriving DecidableEq

/-- A client, with the papers of the client and of the additional driver. -/
structure Client where
  fullName : String
  birthDate : Option LocalDate := none
  addressMorocco : Option String := none
  addressAbroad : Option String := none
  profession : Option String := none
  drivingLicenseNumber : Option String := none
  drivingLicenseIssuedAt : Option String := none
  cinNumber : Option String := none
  passportNumber : Option String := none
  passportIssuedAt : Option LocalDate := none
  phone : Option String := none
  additionalDriverFullName : Option String := none
  additionalDriverDrivingLicenseNumber : Option String := none
  additionalDriverDrivingLicenseIssuedAt : Option LocalDate := none
  additionalDriverPassportNumber : Option String := none
  deriving DecidableEq

/-- A contract whose amounts are of type `μ`. -/
structure ContractOf (μ : Type) where
  carId : Id
  clientId : Id
  additionalDriverName : Option String := none
  additionalDriverLicense : Option String := none
  additionalDriverPassport : Option String := none
  departurePlace : Option String := none
  returnPlace : Option String := none
  departureDatetime : Option LocalDateTime := none
  expectedReturnDatetime : Option LocalDateTime := none
  actualReturnDatetime : Option LocalDateTime := none
  durationDays : Option Int := none
  pricePerDay : Option μ := none
  pricePerWeek : Option μ := none
  pricePerMonth : Option μ := none
  pricePerHour : Option μ := none
  withInsurance : Bool := false
  totalPrice : Option μ := none
  supplement : Option μ := none
  totalGeneral : Option μ := none
  paymentCash : Option μ := none
  paymentCheck : Option μ := none
  paymentDeposit : Option μ := none
  vehicleConditionDeparture : Option String := none
  vehicleConditionReturn : Option String := none
  damagesIdentified : Option String := none
  status : ContractStatus := .inProgress
  deleted : Bool := false
  createdAt : LocalDateTime
  deriving DecidableEq

/-- A row of `contracts`. -/
abbrev Contract := ContractOf Amount

namespace ContractOf

/-- The contract with its ten amounts converted by `f`. -/
def mapAmounts {μ ν : Type} (f : μ → ν) (c : ContractOf μ) : ContractOf ν :=
  { c with
    pricePerDay := c.pricePerDay.map f
    pricePerWeek := c.pricePerWeek.map f
    pricePerMonth := c.pricePerMonth.map f
    pricePerHour := c.pricePerHour.map f
    totalPrice := c.totalPrice.map f
    supplement := c.supplement.map f
    totalGeneral := c.totalGeneral.map f
    paymentCash := c.paymentCash.map f
    paymentCheck := c.paymentCheck.map f
    paymentDeposit := c.paymentDeposit.map f }

/-- The row a contract in memory is saved as. -/
def stored (c : ContractOf Decimal) : Contract := c.mapAmounts Decimal.stored

/-- The contract in memory that a row is loaded as. -/
def loaded (c : Contract) : ContractOf Decimal := c.mapAmounts Decimal.ofAmount

/-- Loading and saving a row changes nothing. -/
@[simp] theorem stored_loaded (c : Contract) : c.loaded.stored = c := by
  simp [stored, loaded, mapAmounts]

end ContractOf

/-- A row of `maintenances`: work on a car, with its period and its cost. -/
structure Maintenance where
  carId : Id
  type : String
  description : Option String := none
  startDate : Option LocalDate := none
  endDate : Option LocalDate := none
  cost : Option Amount := none
  status : MaintenanceStatus := .inProgress
  createdAt : LocalDateTime
  deriving DecidableEq

/-- A row of the income ledger. -/
structure IncomeRecord where
  amount : Amount
  recordedAt : LocalDateTime
  source : IncomeSource
  description : String
  contractId : Id
  clientId : Id
  clientName : String
  deriving DecidableEq

/-- A row of the expense ledger. -/
structure ExpenseRecord where
  amount : Amount
  recordedAt : LocalDateTime
  source : ExpenseSource
  category : String
  description : Option String
  maintenanceId : Id
  carName : String
  deriving DecidableEq

/-! ### Requests -/

/-- The body of a contract creation or edit. `departureDatetime` is `@NotNull` at the
controller; the service is modelled for a missing one too. -/
structure ContractRequest where
  carId : Id
  clientId : Id
  additionalDriverName : Option String := none
  additionalDriverLicense : Option String := none
  additionalDriverPassport : Option String := none
  departurePlace : Option String := none
  returnPlace : Option String := none
  departureDatetime : Option LocalDateTime
  expectedReturnDatetime : Option LocalDateTime := none
  actualReturnDatetime : Option LocalDateTime := none
  durationDays : Option Int := none
  pricePerDay : Option Decimal := none
  pricePerWeek : Option Decimal := none
  pricePerMonth : Option Decimal := none
  pricePerHour : Option Decimal := none
  withInsurance : Option Bool := none
  totalPrice : Option Decimal := none
  supplement : Option Decimal := none
  totalGeneral : Option Decimal := none
  paymentCash : Option Decimal := none
  paymentCheck : Option Decimal := none
  paymentDeposit : Option Decimal := none
  vehicleConditionDeparture : Option String := none
  vehicleConditionReturn : Option String := none
  damagesIdentified : Option String := none

/-- The body of a car creation or edit. -/
structure CarRequest where
  brand : String
  fuelType : FuelType
  matricule : String
  nextInspectionDate : Option LocalDate := none
  lastOilChangeDate : Option LocalDate := none
  insuranceExpiryDate : Option LocalDate := none
  mileage : Option Int
  status : Option CarStatus := none

/-- An uploaded picture; `originalFilename` may be missing. -/
structure MultipartFile where
  originalFilename : Option String
  isEmpty : Bool

/-- The body of a client creation or edit. -/
structure ClientRequest where
  fullName : String
  birthDate : Option LocalDate := none
  addressMorocco : Option String := none
  addressAbroad : Option String := none
  profession : Option String := none
  drivingLicenseNumber : Option String := none
  drivingLicenseIssuedAt : Option String := none
  cinNumber : Option String := none
  passportNumber : Option String := none
  passportIssuedAt : Option LocalDate := none
  phone : Option String := none
  additionalDriverFullName : Option String := none
  additionalDriverDrivingLicenseNumber : Option String := none
  additionalDriverDrivingLicenseIssuedAt : Option LocalDate := none
  additionalDriverPassportNumber : Option String := none

/-- The body of a maintenance creation or edit. `cost` is `@NotNull` at the controller;
the service skips the expense of a missing one. -/
structure MaintenanceRequest where
  carId : Id
  type : String
  description : Option String := none
  startDate : Option LocalDate := none
  endDate : Option LocalDate := none
  cost : Option Decimal
  status : Option MaintenanceStatus := none

/-! ### Responses -/

/-- A contract as the screens receive it, with what they show of its car and its client. Its
amounts are those of the contract in memory. -/
structure ContractResponse where
  id : Id
  carId : Id
  carLabel : String
  carBrand : String
  carMatricule : String
  carFuelType : FuelType
  departurePlace : Option String
  returnPlace : Option String
  clientId : Id
  clientName : String
  clientBirthDate : Option LocalDate
  clientAddressMorocco : Option String
  clientAddressAbroad : Option String
  clientProfession : Option String
  clientDrivingLicenseNumber : Option String
  clientDrivingLicenseIssuedAt : Option String
  clientCinNumber : Option String
  clientPassportNumber : Option String
  clientPassportIssuedAt : Option LocalDate
  clientPhone : Option String
  additionalDriverName : Option String
  additionalDriverLicense : Option String
  additionalDriverLicenseIssuedAt : Option LocalDate
  additionalDriverPassport : Option String
  departureDatetime : Option LocalDateTime
  expectedReturnDatetime : Option LocalDateTime
  actualReturnDatetime : Option LocalDateTime
  durationDays : Option Int
  pricePerHour : Option Decimal
  pricePerDay : Option Decimal
  pricePerWeek : Option Decimal
  pricePerMonth : Option Decimal
  withInsurance : Bool
  totalPrice : Option Decimal
  supplement : Option Decimal
  totalGeneral : Option Decimal
  paymentCash : Option Decimal
  paymentCheck : Option Decimal
  paymentDeposit : Option Decimal
  vehicleConditionDeparture : Option String
  vehicleConditionReturn : Option String
  damagesIdentified : Option String
  createdAt : LocalDateTime
  status : ContractStatus
  deleted : Bool

/-- A car as the screens receive it. -/
structure CarResponse where
  id : Id
  brand : String
  fuelType : FuelType
  matricule : String
  nextInspectionDate : Option LocalDate
  lastOilChangeDate : Option LocalDate
  insuranceExpiryDate : Option LocalDate
  mileage : Int
  mileageUpdatedAt : Option LocalDateTime
  imageUrl : Option String
  status : CarStatus
  deriving DecidableEq

/-- A line of the calendar: a car on a given date. -/
structure CarAvailabilityResponse where
  carId : Id
  brand : String
  matricule : String
  fuelType : FuelType
  currentStatus : CarStatus
  availabilityLabel : String
  imageUrl : Option String
  deriving DecidableEq

/-- The counters and the two sums of the dashboard. -/
structure DashboardResponse where
  totalCars : Nat
  available : Nat
  rented : Nat
  maintenance : Nat
  totalIncome : Amount
  totalExpense : Amount
  deriving DecidableEq

/-- An alert of the dashboard. -/
structure DashboardAlertResponse where
  type : AlertType
  carId : Id
  carLabel : String
  message : String
  severity : Severity
  dueDate : LocalDate
  contractId : Option Id
  deriving DecidableEq

/-- A line of the history of a car: a rental or a maintenance. -/
structure CarHistoryItemResponse where
  type : String
  label : String
  startDate : Option LocalDateTime
  endDate : Option LocalDateTime
  cost : Option Amount
  status : String
  deriving DecidableEq

/-- A client as the screens receive it. -/
structure ClientResponse where
  id : Id
  fullName : String
  birthDate : Option LocalDate
  addressMorocco : Option String
  addressAbroad : Option String
  profession : Option String
  drivingLicenseNumber : Option String
  drivingLicenseIssuedAt : Option String
  cinNumber : Option String
  passportNumber : Option String
  passportIssuedAt : Option LocalDate
  phone : Option String
  additionalDriverFullName : Option String
  additionalDriverDrivingLicenseNumber : Option String
  additionalDriverDrivingLicenseIssuedAt : Option LocalDate
  additionalDriverPassportNumber : Option String
  deriving DecidableEq

/-- A maintenance as the screens receive it. -/
structure MaintenanceResponse where
  id : Id
  carId : Id
  carLabel : String
  type : String
  description : Option String
  startDate : Option LocalDate
  endDate : Option LocalDate
  cost : Option Decimal
  status : MaintenanceStatus
  deriving DecidableEq

/-! ### Errors -/

/-- What a service call can throw. Every one of them is unchecked, so the call's
transaction is rolled back. -/
inductive ServiceError
  /-- A row named by the request does not exist. -/
  | resourceNotFound (message : String)
  /-- A rule of the service forbids the request. -/
  | illegalArgument (message : String)
  /-- A missing value was dereferenced. -/
  | nullPointer
  /-- A reference was followed to a row that is gone. -/
  | entityNotFound
  /-- A unique key of the schema was violated. -/
  | dataIntegrityViolation (key : String)
  /-- A query for at most one row found several. -/
  | incorrectResultSize
  /-- The transaction was marked rollback-only and then asked to commit. -/
  | unexpectedRollback
  deriving DecidableEq, Repr

end CarRental
