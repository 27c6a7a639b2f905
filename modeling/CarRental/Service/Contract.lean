import CarRental.Service.Financial
import CarRental.Service.Client

/-!
# CarRental.Service.Contract

`ContractService`: **reservations and rentals**.

A contract is created `IN_PROGRESS` (a reservation) or, when its departure is
already due, directly `ACTIVE`. Four paths make a contract `ACTIVE`: creation,
the explicit status change, an edit whose departure is due, and the activation
sweep `autoActivateContracts`, which the scheduler and every read of this
service run. Each of them writes two columns, the status of the contract and
that of its car, and books the income of the contract.

The sweep catches the exceptions of its iterations. An exception that leaves a
repository or the ledger has marked the shared transaction rollback-only by
then, so the sweep goes on but its commit fails: `Sweep.rollbackOnly` is that
mark. A read that sweeps runs on too, and shows the mark only when it comes to
commit; if it throws before, that is the exception its caller sees (`sweeping`).

In memory a contract keeps the amounts of the request it was made from
(`ContractOf Decimal`); what is written to its row is `ContractOf.stored`.
-/

namespace CarRental.ContractService

open Lib

/-! ### The overlap check -/

/-- Do the proposed period and the contract's period share an instant, as half-open
intervals? A contract with a missing end never does. -/
def overlaps (startProposed endProposed : LocalDateTime) (c : Contract) : Bool :=
  match c.departureDatetime, c.expectedReturnDatetime with
  | some startExisting, some endExisting =>
    startProposed < endExisting && startExisting < endProposed
  | _, _ => false

/-- Is the car held on some instant of the proposed period by an open contract other than
the excluded one? -/
def hasOverlappingContract (env : Env) (db : Db) (carId : Id)
    (startProposed endProposed : Option LocalDateTime) (excludeContractId : Option Id) : Bool :=
  match startProposed, endProposed with
  | some s, some e =>
    let activeOrInProgress :=
      ((ContractRepository.findByDeletedFalseAndCarId env db carId).filter fun c =>
        c.2.status = .active || c.2.status = .inProgress).filter fun c =>
          excludeContractId ≠ some c.1
    activeOrInProgress.any fun c => overlaps s e c.2
  | _, _ => false

/-! ### Shared steps -/

/-- The contract if it is not archived, or the service's refusal. -/
def getContract (id : Id) (db : Db) : Except ServiceError Contract :=
  orThrow ((db.contracts.get? id).filter fun c => !c.deleted)
    (.resourceNotFound ("Contract not found: " ++ toString id))

/-- The car a request names, or the service's refusal. -/
def findCar (id : Id) (db : Db) : Except ServiceError Car :=
  orThrow (db.cars.get? id) (.resourceNotFound ("Car not found: " ++ toString id))

/-- The client a request names, or the service's refusal. -/
def findClient (id : Id) (db : Db) : Except ServiceError Client :=
  orThrow (db.clients.get? id) (.resourceNotFound ("Client not found: " ++ toString id))

/-- The refusal of a period on which the car is taken. -/
def alreadyBooked (car : Car) : ServiceError :=
  .illegalArgument ("La voiture " ++ car.matricule ++
    " est déjà réservée ou louée sur cette période.")

/-- The refusal of an immediate rental of a car that is not available. -/
def notAvailableNow (car : Car) : ServiceError :=
  .illegalArgument
    ("La voiture n'est pas disponible pour une location immédiate (statut actuel: " ++
      car.status.name ++ ").")

/-- Every field of the request is copied; a missing insurance flag counts as `false`. -/
def apply (c : ContractOf Decimal) (r : ContractRequest) : ContractOf Decimal :=
  { c with
    additionalDriverName := r.additionalDriverName
    additionalDriverLicense := r.additionalDriverLicense
    additionalDriverPassport := r.additionalDriverPassport
    departurePlace := r.departurePlace
    returnPlace := r.returnPlace
    departureDatetime := r.departureDatetime
    expectedReturnDatetime := r.expectedReturnDatetime
    actualReturnDatetime := r.actualReturnDatetime
    durationDays := r.durationDays
    pricePerDay := r.pricePerDay
    pricePerWeek := r.pricePerWeek
    pricePerMonth := r.pricePerMonth
    pricePerHour := r.pricePerHour
    withInsurance := r.withInsurance = some true
    totalPrice := r.totalPrice
    supplement := r.supplement
    totalGeneral := r.totalGeneral
    paymentCash := r.paymentCash
    paymentCheck := r.paymentCheck
    paymentDeposit := r.paymentDeposit
    vehicleConditionDeparture := r.vehicleConditionDeparture
    vehicleConditionReturn := r.vehicleConditionReturn
    damagesIdentified := r.damagesIdentified }

/-- The two columns an activation writes: the car is out, the contract runs. -/
def rentOut (id : Id) (contract : Contract) (car : Car) (db : Db) : Db :=
  { db with
    cars := db.cars.set contract.carId { car with status := .rented }
    contracts := db.contracts.set id { contract with status := .active } }

/-- The answer for a contract in memory; its car and its client must still be there. -/
def map (db : Db) (id : Id) (c : ContractOf Decimal) : Except ServiceError ContractResponse := do
  let car ← orThrow (db.cars.get? c.carId) .entityNotFound
  let client ← orThrow (db.clients.get? c.clientId) .entityNotFound
  pure
    { id := id
      carId := c.carId
      carLabel := car.brand ++ " - " ++ car.matricule
      carBrand := car.brand
      carMatricule := car.matricule
      carFuelType := car.fuelType
      departurePlace := c.departurePlace
      returnPlace := c.returnPlace
      clientId := c.clientId
      clientName := client.fullName
      clientBirthDate := client.birthDate
      clientAddressMorocco := client.addressMorocco
      clientAddressAbroad := client.addressAbroad
      clientProfession := client.profession
      clientDrivingLicenseNumber := client.drivingLicenseNumber
      clientDrivingLicenseIssuedAt := client.drivingLicenseIssuedAt
      clientCinNumber := client.cinNumber
      clientPassportNumber := client.passportNumber
      clientPassportIssuedAt := client.passportIssuedAt
      clientPhone := client.phone
      additionalDriverName := c.additionalDriverName
      additionalDriverLicense := c.additionalDriverLicense
      additionalDriverLicenseIssuedAt := client.additionalDriverDrivingLicenseIssuedAt
      additionalDriverPassport := c.additionalDriverPassport
      departureDatetime := c.departureDatetime
      expectedReturnDatetime := c.expectedReturnDatetime
      actualReturnDatetime := c.actualReturnDatetime
      durationDays := c.durationDays
      pricePerHour := c.pricePerHour
      pricePerDay := c.pricePerDay
      pricePerWeek := c.pricePerWeek
      pricePerMonth := c.pricePerMonth
      withInsurance := c.withInsurance
      totalPrice := c.totalPrice
      supplement := c.supplement
      totalGeneral := c.totalGeneral
      paymentCash := c.paymentCash
      paymentCheck := c.paymentCheck
      paymentDeposit := c.paymentDeposit
      vehicleConditionDeparture := c.vehicleConditionDeparture
      vehicleConditionReturn := c.vehicleConditionReturn
      damagesIdentified := c.damagesIdentified
      createdAt := c.createdAt
      status := c.status
      deleted := c.deleted }

/-! ### The activation sweep -/

/-- The state of a running sweep: the database as its transaction sees it, and whether
the transaction has been marked rollback-only. -/
structure Sweep where
  db : Db
  rollbackOnly : Bool

/-- The contracts the sweep goes through: reservations whose departure is due, in the
order of the listing. -/
def pendingActivation (env : Env) (db : Db) : List (Id × Contract) :=
  (ContractRepository.findByDeletedFalseAndStatus env db .inProgress).filter fun c =>
    c.2.departureDatetime.any fun departure => departure ≤ env.now

/-- One iteration. A car that is gone throws before anything is written and is caught
without a mark; a failing save or booking is caught after the mark. -/
def activatePending (env : Env) (sweep : Sweep) (pending : Id × Contract) : Sweep :=
  let (id, contract) := pending
  match sweep.db.cars.get? contract.carId with
  | none => sweep
  | some car =>
    if car.status = .available then
      let db := rentOut id contract car sweep.db
      if env.faulty id then { db := db, rollbackOnly := true }
      else
        match FinancialService.ensureIncomeForContract env id
          (ContractOf.loaded { contract with status := .active }) db with
        | .ok db => { sweep with db := db }
        | .error _ => { db := db, rollbackOnly := true }
    else sweep

/-- The sweep as it runs inside a transaction: it always returns. -/
def sweepPending (env : Env) (db : Db) : Sweep :=
  (pendingActivation env db).foldl (activatePending env) ⟨db, false⟩

/-- The sweep as a transaction of its own. -/
def autoActivateContracts (env : Env) (db : Db) : Except ServiceError Db := do
  let sweep := sweepPending env db
  throwIf (sweep.rollbackOnly = true) .unexpectedRollback
  pure sweep.db

/-- The sweep the scheduler starts every ten seconds. -/
def scheduledAutoActivate (env : Env) (db : Db) : Except ServiceError Db :=
  autoActivateContracts env db

/-! ### Reads, each of which sweeps first -/

/-- A read that sweeps first. The read sees what the sweep has done, even if the transaction
is marked; an exception of the read comes before the one of the commit. -/
def sweeping {α : Type} (env : Env) (db : Db) (read : Db → Except ServiceError α) :
    Except ServiceError (α × Db) := do
  let sweep := sweepPending env db
  let answer ← read sweep.db
  throwIf (sweep.rollbackOnly = true) .unexpectedRollback
  pure (answer, sweep.db)

/-- Earliest departure first, missing departures last. -/
def departsBefore (c₁ c₂ : Id × Contract) : Bool :=
  match c₁.2.departureDatetime, c₂.2.departureDatetime with
  | some d₁, some d₂ => d₁ ≤ d₂
  | _, none => true
  | none, some _ => false

/-- The answers for a list of rows. -/
def mapAll (db : Db) (rows : List (Id × Contract)) : Except ServiceError (List ContractResponse) :=
  rows.mapM fun c => map db c.1 c.2.loaded

/-- The reservations that were not activated, earliest departure first. -/
def findInProgressFutureReservations (env : Env) (db : Db) :
    Except ServiceError (List ContractResponse × Db) :=
  sweeping env db fun db =>
    mapAll db ((ContractRepository.findByDeletedFalseAndStatus env db .inProgress).mergeSort
      departsBefore)

/-- All contracts that are not archived. -/
def findAll (env : Env) (db : Db) : Except ServiceError (List ContractResponse × Db) :=
  sweeping env db fun db => mapAll db (ContractRepository.findByDeletedFalse env db)

/-- The contracts of a car that are not archived. -/
def findAllByCarId (env : Env) (carId : Id) (db : Db) :
    Except ServiceError (List ContractResponse × Db) :=
  sweeping env db fun db => mapAll db (ContractRepository.findByDeletedFalseAndCarId env db carId)

/-- The full history of a car, archived contracts included. -/
def findCarRentalHistory (env : Env) (carId : Id) (db : Db) :
    Except ServiceError (List ContractResponse × Db) :=
  sweeping env db fun db => mapAll db (ContractRepository.findByCarIdForHistory env db carId)

/-- One contract that is not archived. -/
def findById (env : Env) (id : Id) (db : Db) : Except ServiceError (ContractResponse × Db) :=
  sweeping env db fun db => do
    let contract ← getContract id db
    map db id contract.loaded

/-- The rentals under way. -/
def findActive (env : Env) (db : Db) : Except ServiceError (List ContractResponse × Db) :=
  sweeping env db fun db =>
    mapAll db (ContractRepository.findByDeletedFalseAndStatus env db .active)

/-! ### Writes -/

/-- A new contract: a reservation, or a rental when the departure is due. -/
def create (env : Env) (request : ContractRequest) (db : Db) :
    Except ServiceError (ContractResponse × Db) := do
  let car ← findCar request.carId db
  throwIf (hasOverlappingContract env db request.carId request.departureDatetime
    request.expectedReturnDatetime none = true) (alreadyBooked car)
  let _ ← findClient request.clientId db
  let departure ← orThrow request.departureDatetime .nullPointer
  throwIf (departure ≤ env.now ∧ car.status ≠ .available) (notAvailableNow car)
  let contract := apply
    { carId := request.carId, clientId := request.clientId, createdAt := env.now } request
  let id := db.contracts.nextId
  if departure ≤ env.now then do
    let contract := { contract with status := .active }
    let db :=
      { db with
        cars := db.cars.set request.carId { car with status := .rented }
        contracts := db.contracts.insert contract.stored }
    let db ← FinancialService.ensureIncomeForContract env id contract db
    let response ← map db id contract
    pure (response, db)
  else do
    let db := { db with contracts := db.contracts.insert contract.stored }
    let response ← map db id contract
    pure (response, db)

/-- The explicit status change: a reservation becomes a rental, a rental is over. -/
def updateStatus (env : Env) (id : Id) (newStatus : ContractStatus) (db : Db) :
    Except ServiceError (ContractResponse × Db) := do
  let contract ← getContract id db
  match newStatus with
  | .active => do
    throwIf (contract.status ≠ .inProgress)
      (.illegalArgument "Seul un contrat IN_PROGRESS peut passer en ACTIVE")
    let car ← orThrow (db.cars.get? contract.carId) .entityNotFound
    throwIf (car.status ≠ .available)
      (.illegalArgument ("La voiture n'est pas disponible: " ++ car.matricule))
    let db := rentOut id contract car db
    let contract := ContractOf.loaded { contract with status := .active }
    let db ← FinancialService.ensureIncomeForContract env id contract db
    let response ← map db id contract
    pure (response, db)
  | .completed => do
    throwIf (contract.status ≠ .active)
      (.illegalArgument "Seul un contrat ACTIVE peut être terminé")
    let car ← orThrow (db.cars.get? contract.carId) .entityNotFound
    let contract :=
      { contract with actualReturnDatetime := some env.now, status := .completed }
    -- the car becomes available whatever its maintenances say
    let db :=
      { db with
        cars := db.cars.set contract.carId { car with status := .available }
        contracts := db.contracts.set id contract }
    let db ← FinancialService.ensureIncomeForContract env id contract.loaded db
    let response ← map db id contract.loaded
    pure (response, db)
  | status =>
    .error (.illegalArgument ("Transition de statut non autorisée vers " ++ status.name))

/-- The return of the car ends the rental. -/
def registerReturn (env : Env) (id : Id) (db : Db) :
    Except ServiceError (ContractResponse × Db) :=
  updateStatus env id .completed db

/-- New terms for a contract that is not completed. A reservation whose departure is due
becomes a rental; the car of a running contract is marked rented again. -/
def update (env : Env) (id : Id) (request : ContractRequest) (db : Db) :
    Except ServiceError (ContractResponse × Db) := do
  let contract ← getContract id db
  throwIf (contract.status = .completed)
    (.illegalArgument "Impossible de modifier un contrat déjà terminé")
  let car ← findCar request.carId db
  throwIf (hasOverlappingContract env db request.carId request.departureDatetime
    request.expectedReturnDatetime (some id) = true) (alreadyBooked car)
  let _ ← findClient request.clientId db
  throwIf (contract.status = .active ∧ contract.carId ≠ request.carId)
    (.illegalArgument "Cannot change assigned car while contract is active")
  let contract := apply
    { contract.loaded with carId := request.carId, clientId := request.clientId } request
  let db := { db with contracts := db.contracts.set id contract.stored }
  match contract.status with
  | .inProgress => do
    let departure ← orThrow contract.departureDatetime .nullPointer
    throwIf (departure ≤ env.now ∧ car.status ≠ .available) (notAvailableNow car)
    if departure ≤ env.now then do
      let db := rentOut id contract.stored car db
      let contract := { contract with status := .active }
      let db ← FinancialService.ensureIncomeForContract env id contract db
      let response ← map db id contract
      pure (response, db)
    else do
      let response ← map db id contract
      pure (response, db)
  | .active => do
    let db := { db with cars := db.cars.set contract.carId { car with status := .rented } }
    let response ← map db id contract
    pure (response, db)
  | _ => do
    let response ← map db id contract
    pure (response, db)

/-- Archives the contract; the row stays. -/
def softDelete (env : Env) (id : Id) (db : Db) : Except ServiceError Db := do
  let contract ← getContract id db
  throwIf (contract.status = .active)
    (.illegalArgument "Impossible : terminez le contrat avant de le supprimer")
  let db ← if contract.status = .completed then
      FinancialService.ensureIncomeForContract env id contract.loaded db
    else pure db
  let db := { db with contracts := db.contracts.set id { contract with deleted := true } }
  pure (OrphanClientService.removeClientIfOrphan contract.clientId db)

/-! ### What a sweeping read returns -/

/-- A sweeping read returns when the sweep commits and the read, run on what it left,
returns. -/
theorem sweeping_eq_ok {α : Type} {env : Env} {db db' : Db} {read : Db → Except ServiceError α}
    {answer : α} : sweeping env db read = .ok (answer, db') ↔
      autoActivateContracts env db = .ok db' ∧ read db' = .ok answer := by
  simp only [sweeping, autoActivateContracts, bind_eq_ok, throwIf_eq_ok, pure_eq_ok,
    Prod.mk.injEq]
  constructor
  · intro h
    obtain ⟨_, hread, _, hmark, rfl, rfl⟩ := h
    exact ⟨⟨(), hmark, rfl⟩, hread⟩
  · intro h
    obtain ⟨⟨_, hmark, rfl⟩, hread⟩ := h
    exact ⟨answer, hread, (), hmark, rfl, rfl⟩

/-! ### The overlap check, by key -/

/-- A contract that holds its car on some period: not archived, and open. -/
def Open (c : Contract) : Prop :=
  c.deleted = false ∧ (c.status = .inProgress ∨ c.status = .active)

instance (c : Contract) : Decidable (Open c) := inferInstanceAs (Decidable (_ ∧ _))

theorem hasOverlappingContract_iff {env : Env} {db : Db} {carId : Id} {s e : LocalDateTime}
    {exclude : Option Id} :
    hasOverlappingContract env db carId (some s) (some e) exclude = true ↔
      ∃ id c, db.contracts.get? id = some c ∧ c.carId = carId ∧ Open c ∧ exclude ≠ some id ∧
        overlaps s e c = true := by
  have hmem : ∀ r : Id × Contract,
      r ∈ ContractRepository.findByDeletedFalseAndCarId env db carId ↔
        db.contracts.get? r.1 = some r.2 ∧ r.2.deleted = false ∧ r.2.carId = carId := by
    intro r
    rw [ContractRepository.findByDeletedFalseAndCarId, (env.listing_perm _).mem_iff,
      Table.mem_select]
    simp
  simp only [hasOverlappingContract, List.any_eq_true, List.mem_filter, hmem, Prod.exists,
    Bool.or_eq_true, decide_eq_true_eq, Open]
  constructor
  · intro h
    obtain ⟨id, c, ⟨⟨⟨hget, hdel, hcar⟩, hst⟩, hex⟩, hov⟩ := h
    exact ⟨id, c, hget, hcar, ⟨hdel, hst.symm⟩, hex, hov⟩
  · intro h
    obtain ⟨id, c, hget, hcar, ⟨hdel, hst⟩, hex, hov⟩ := h
    exact ⟨id, c, ⟨⟨⟨hget, hdel, hcar⟩, hst.symm⟩, hex⟩, hov⟩

theorem getContract_eq_ok {id : Id} {db : Db} {c : Contract} :
    getContract id db = .ok c ↔ db.contracts.get? id = some c ∧ c.deleted = false := by
  unfold getContract
  rw [orThrow_eq_ok, Option.filter_eq_some_iff]
  simp

end CarRental.ContractService
