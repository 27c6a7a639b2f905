import CarRental.Lib.Throws
import CarRental.Expenses
import CarRental.Fleet
import CarRental.History
import CarRental.StatusColumn
import CarRental.Sweep

/-!
# CarRental.Refusals

**How a call can fail.**

A service throws for two reasons. It refuses what it was asked, with a text that says
why, or something inside it breaks: a value is missing, a row is gone, a unique key or
the commit fails. `Refusal` lists the refusals of the four services. The invariants of
the tables rule the breakages out one by one: contracts and maintenances refer to rows
that exist, a maintenance has one expense record, the income of a contract has a client
to name. `only_refusals` says which three breakages are left, and that a call that passes
the validation of its controller fails in no other way.

A read of the contracts runs behind a sweep, in one transaction. A sweep that went wrong
shows only when the transaction is committed, so the read is carried out first, on what
the sweep has left; `Readable` is what it can count on there. A contract that is missed is
reported as missing, whatever the sweep has met.
-/

namespace CarRental

open Lib Desk ContractService

/-- The refusals of the services, each with the text it is made with. -/
inductive Refusal : ServiceError → Prop
  | carNotFound (id : Id) : Refusal (.resourceNotFound ("Car not found: " ++ toString id))
  | clientNotFound (id : Id) : Refusal (.resourceNotFound ("Client not found: " ++ toString id))
  | contractNotFound (id : Id) :
      Refusal (.resourceNotFound ("Contract not found: " ++ toString id))
  | maintenanceNotFound (id : Id) :
      Refusal (.resourceNotFound ("Maintenance not found: " ++ toString id))
  | imageFormat : Refusal (.illegalArgument "Unsupported image format")
  | imageNotStored (message : String) :
      Refusal (.illegalArgument ("Unable to store image: " ++ message))
  | mileageRequired : Refusal (.illegalArgument "MILEAGE_REQUIRED")
  | mileageNegative : Refusal (.illegalArgument "MILEAGE_MUST_BE_POSITIVE")
  | mileageDecreases : Refusal (.illegalArgument "MILEAGE_CANNOT_DECREASE")
  | newCarNotAvailable : Refusal (.illegalArgument "NEW_CAR_MUST_BE_AVAILABLE")
  | alreadyAvailable :
      Refusal (.illegalArgument "ONLY_RENTED_OR_MAINTENANCE_CAN_BECOME_AVAILABLE")
  | maintenanceNotFinished : Refusal (.illegalArgument "MAINTENANCE_NOT_FINISHED")
  | carHasActiveContract : Refusal (.illegalArgument "CAR_HAS_ACTIVE_CONTRACT")
  | carHasOpenContract : Refusal (.illegalArgument "Impossible : voiture avec contrat en cours")
  | carHasHistory : Refusal (.illegalArgument "CAR_HAS_RENTAL_HISTORY")
  | booked (car : Car) : Refusal (alreadyBooked car)
  | busy (car : Car) : Refusal (notAvailableNow car)
  | carNotAvailable (car : Car) :
      Refusal (.illegalArgument ("La voiture n'est pas disponible: " ++ car.matricule))
  | notReserved : Refusal (.illegalArgument "Seul un contrat IN_PROGRESS peut passer en ACTIVE")
  | notRunning : Refusal (.illegalArgument "Seul un contrat ACTIVE peut être terminé")
  | transition (status : ContractStatus) :
      Refusal (.illegalArgument ("Transition de statut non autorisée vers " ++ status.name))
  | contractCompleted :
      Refusal (.illegalArgument "Impossible de modifier un contrat déjà terminé")
  | contractRunning :
      Refusal (.illegalArgument "Impossible : terminez le contrat avant de le supprimer")
  | carChanged : Refusal (.illegalArgument "Cannot change assigned car while contract is active")
  | completeEndpoint : Refusal (.illegalArgument "USE_COMPLETE_ENDPOINT")
  | maintenanceCompleted : Refusal (.illegalArgument "MAINTENANCE_ALREADY_COMPLETED")
  | clientHasContracts :
      Refusal (.illegalArgument "Impossible de supprimer : client a des contrats en cours")

variable {env : Env} {db : Db} {id : Id} {w : World}

/-! ### What cannot break -/

/-- The rows a contract refers to are there. -/
def References {μ : Type} (db : Db) (c : ContractOf μ) : Prop :=
  (∃ car, db.cars.get? c.carId = some car) ∧ ∃ client, db.clients.get? c.clientId = some client

theorem references_of_inv (hI : Inv db) {c : Contract} (hget : db.contracts.get? id = some c) :
    References db c :=
  ⟨out_ne_none_iff.mp (hI.contractCar hget), hI.contractClient hget⟩

theorem map_returns (db : Db) (id : Id) {c : ContractOf Decimal} (h : References db c) :
    ∃ response, ContractService.map db id c = .ok response := by
  obtain ⟨⟨car, hcar⟩, client, hclient⟩ := h
  unfold ContractService.map
  simp only [hcar, hclient]
  exact ⟨_, rfl⟩

/-- Booking finds the client it names, and leaves what the answer is made from. -/
theorem ensure_returns (env : Env) (id : Id) {c : ContractOf Decimal}
    (hclient : ∃ client, db.clients.get? c.clientId = some client) :
    ∃ ledger, FinancialService.ensureIncomeForContract env id c db =
      .ok { db with incomeRecords := ledger } := by
  obtain ⟨client, hget⟩ := hclient
  unfold FinancialService.ensureIncomeForContract FinancialService.recordIncomeFromContract
  split
  · exact ⟨db.incomeRecords, rfl⟩
  · split
    · exact ⟨db.incomeRecords, rfl⟩
    · split
      · exact ⟨db.incomeRecords, rfl⟩
      · rw [hget]
        simp only [orThrow, bind, Except.bind]
        split
        · exact ⟨_, rfl⟩
        · exact ⟨_, rfl⟩

/-- The last steps of an activation or a completion: book the income and answer. -/
theorem finish_returns (env : Env) (id : Id) {c : ContractOf Decimal} (h : References db c) :
    ∃ response ledger, (do
      let db ← FinancialService.ensureIncomeForContract env id c db
      let response ← ContractService.map db id c
      pure (response, db)) = .ok (response, { db with incomeRecords := ledger }) := by
  obtain ⟨ledger, hledger⟩ := ensure_returns env id h.2
  obtain ⟨response, hresponse⟩ := map_returns { db with incomeRecords := ledger } id h
  exact ⟨response, ledger, bind_eq_ok.mpr ⟨_, hledger, bind_eq_ok.mpr ⟨_, hresponse, rfl⟩⟩⟩

theorem finish_refuses {c : ContractOf Decimal} (h : References db c) :
    ThrowsOnly Refusal (do
      let db ← FinancialService.ensureIncomeForContract env id c db
      let response ← ContractService.map db id c
      pure (response, db)) := by
  obtain ⟨response, ledger, hok⟩ := finish_returns env id h
  exact .of_returns ⟨_, hok⟩

theorem exists_car_set {k j : Id} {car old : Car} (hold : db.cars.get? k = some old)
    (h : ∃ car, db.cars.get? j = some car) : ∃ car', (db.cars.set k car).get? j = some car' := by
  by_cases hj : j = k
  · subst hj
    exact ⟨car, Table.get?_set_self hold⟩
  · rwa [Table.get?_set_ne hj]

/-! ### The contract service -/

theorem create_refuses {request : ContractRequest} (hdated : request.departureDatetime ≠ none) :
    ThrowsOnly Refusal (create env request db) := by
  unfold create
  refine .bind (.orThrow fun _ => .carNotFound _) fun car hcar => ?_
  refine .bind (.throwIf fun _ => .booked car) fun _ _ => ?_
  refine .bind (.orThrow fun _ => .clientNotFound _) fun client hclient => ?_
  refine .bind (.orThrow fun hnone => absurd hnone hdated) fun departure _ => ?_
  refine .bind (.throwIf fun _ => .busy car) fun _ _ => ?_
  have hcar := orThrow_eq_ok.mp hcar
  have hclient := orThrow_eq_ok.mp hclient
  dsimp only
  split
  · refine finish_refuses ⟨?_, client, hclient⟩
    exact exists_car_set hcar ⟨car, hcar⟩
  · refine .bind (.of_returns (map_returns _ _ ⟨⟨car, hcar⟩, client, hclient⟩)) fun response _ => ?_
    exact .ok _

theorem updateStatus_refuses (hI : Inv db) (newStatus : ContractStatus) :
    ThrowsOnly Refusal (updateStatus env id newStatus db) := by
  unfold updateStatus
  refine .bind (.orThrow fun _ => .contractNotFound id) fun c hc => ?_
  obtain ⟨hget, -⟩ := getContract_eq_ok.mp hc
  obtain ⟨⟨car, hcar⟩, client, hclient⟩ := references_of_inv hI hget
  cases newStatus with
  | active =>
    refine .bind (.throwIf fun _ => .notReserved) fun _ _ => ?_
    refine .bind (.orThrow fun hnone => absurd (hcar.symm.trans hnone) (by simp)) fun found _ => ?_
    refine .bind (.throwIf fun _ => .carNotAvailable found) fun _ _ => ?_
    refine finish_refuses ⟨?_, client, hclient⟩
    exact exists_car_set hcar ⟨car, hcar⟩
  | completed =>
    refine .bind (.throwIf fun _ => .notRunning) fun _ _ => ?_
    refine .bind (.orThrow fun hnone => absurd (hcar.symm.trans hnone) (by simp)) fun found _ => ?_
    refine finish_refuses ⟨?_, client, hclient⟩
    exact exists_car_set hcar ⟨car, hcar⟩
  | inProgress => exact .error (.transition .inProgress)
  | cancelled => exact .error (.transition .cancelled)

theorem update_refuses {request : ContractRequest} (hdated : request.departureDatetime ≠ none) :
    ThrowsOnly Refusal (update env id request db) := by
  unfold update
  refine .bind (.orThrow fun _ => .contractNotFound id) fun c hc => ?_
  refine .bind (.throwIf fun _ => .contractCompleted) fun _ _ => ?_
  refine .bind (.orThrow fun _ => .carNotFound _) fun car hcar => ?_
  refine .bind (.throwIf fun _ => .booked car) fun _ _ => ?_
  refine .bind (.orThrow fun _ => .clientNotFound _) fun client hclient => ?_
  refine .bind (.throwIf fun _ => .carChanged) fun _ _ => ?_
  have hcar := orThrow_eq_ok.mp hcar
  have hclient := orThrow_eq_ok.mp hclient
  obtain ⟨terms, hterms⟩ : ∃ terms, terms = apply
    { c.loaded with carId := request.carId, clientId := request.clientId } request := ⟨_, rfl⟩
  have hcarId : terms.carId = request.carId := by rw [hterms]; rfl
  have hclientId : terms.clientId = request.clientId := by rw [hterms]; rfl
  have hdeparture : terms.departureDatetime = request.departureDatetime := by rw [hterms]; rfl
  rw [← hcarId] at hcar
  rw [← hclientId] at hclient
  dsimp only
  rw [← hterms]
  split
  · refine .bind (.orThrow fun hnone => absurd (hdeparture.symm.trans hnone) hdated)
      fun departure _ => ?_
    refine .bind (.throwIf fun _ => .busy car) fun _ _ => ?_
    split
    · refine finish_refuses ⟨?_, client, hclient⟩
      exact exists_car_set hcar ⟨car, hcar⟩
    · refine .bind (.of_returns (map_returns _ _ ⟨⟨car, hcar⟩, client, hclient⟩)) fun _ _ => ?_
      exact .ok _
  · refine .bind (.of_returns (map_returns _ _ ⟨?_, client, hclient⟩)) fun _ _ => .ok _
    exact exists_car_set hcar ⟨car, hcar⟩
  · refine .bind (.of_returns (map_returns _ _ ⟨⟨car, hcar⟩, client, hclient⟩)) fun _ _ => ?_
    exact .ok _

theorem softDelete_refuses (hI : Inv db) : ThrowsOnly Refusal (softDelete env id db) := by
  unfold softDelete
  refine .bind (.orThrow fun _ => .contractNotFound id) fun c hc => ?_
  obtain ⟨hget, -⟩ := getContract_eq_ok.mp hc
  have hclient : ∃ client, db.clients.get? c.loaded.clientId = some client :=
    hI.contractClient hget
  obtain ⟨ledger, hledger⟩ := ensure_returns env id hclient
  refine .bind (.throwIf fun _ => .contractRunning) fun _ _ => ?_
  dsimp only
  split
  · exact .bind (.of_returns ⟨_, hledger⟩) fun _ _ => .ok _
  · exact .bind (.ok db) fun _ _ => .ok _

/-! ### The sweep and the reads behind it -/

/-- A sweep marks its transaction only when the storage fails on a contract it takes. -/
theorem sweepPending_marks (hI : Inv db) :
    (sweepPending env db).rollbackOnly = true ↔ ∃ p ∈ takes env db, env.faulty p.1 = true := by
  rcases sweepPending_eq env db with ⟨⟨p, hp, hthrows⟩, hmark⟩ | ⟨hnone, hdone⟩
  · refine iff_of_true hmark ⟨p, hp, ?_⟩
    rcases throws_iff.mp hthrows with hfaulty | hun
    · exact hfaulty
    · obtain ⟨client, hclient⟩ := hI.contractClient (due_of_mem_takes hp).1.1
      rw [hun.2.2] at hclient
      exact absurd hclient (by simp)
  · refine iff_of_false (by simp [hdone]) fun ⟨p, hp, hfaulty⟩ => ?_
    exact hnone p hp (throws_iff.mpr (Or.inl hfaulty))

/-- What a read behind a sweep of `db` can count on, whether the sweep went well or not: the
contracts have their cars and clients, and the same ones are archived. -/
structure Readable (db db' : Db) : Prop where
  clients : db'.clients = db.clients
  cars : ∀ k, (∃ car, db.cars.get? k = some car) → ∃ car, db'.cars.get? k = some car
  references : ∀ {id c}, db'.contracts.get? id = some c → References db c
  deleted : ∀ id, (db'.contracts.get? id).map (·.deleted) = (db.contracts.get? id).map (·.deleted)

namespace Readable

variable {db' : Db}

theorem refl (hI : Inv db) : Readable db db :=
  ⟨rfl, fun _ h => h, references_of_inv hI, fun _ => rfl⟩

theorem returns (h : Readable db db') {c : Contract} (hget : db'.contracts.get? id = some c) :
    ∃ response, ContractService.map db' id c.loaded = .ok response := by
  obtain ⟨hcar, hclient⟩ := h.references hget
  refine map_returns db' id ⟨h.cars _ hcar, ?_⟩
  rw [h.clients]
  exact hclient

/-- Handing over one car keeps all this, ... -/
theorem rentOut {p : Id × Contract} {car : Car} (h : Readable db db') (hI : Inv db)
    (hp : Pending db p) (hcar : db'.cars.get? p.2.carId = some car) :
    Readable db (rentOut p.1 p.2 car db') := by
  obtain ⟨c, hc⟩ : ∃ c, db'.contracts.get? p.1 = some c := by
    have hsame := h.deleted p.1
    rw [hp.1, Option.map_some, Option.map_eq_some_iff] at hsame
    exact ⟨_, hsame.choose_spec.1⟩
  refine ⟨h.clients, fun k hk => exists_car_set hcar (h.cars k hk), fun {id c'} hc' => ?_,
    fun id => ?_⟩
  · rcases (Table.get?_set_eq_some hc).mp hc' with ⟨-, rfl⟩ | ⟨-, hc'⟩
    · have href := references_of_inv hI hp.1
      exact href
    · exact h.references hc'
  · change ((db'.contracts.set p.1 _).get? id).map (·.deleted) = _
    by_cases hid : id = p.1
    · rw [hid, Table.get?_set_self hc, hp.1]
      rfl
    · rw [Table.get?_set_ne hid]
      exact h.deleted id

/-- ... and so does an iteration of the sweep, even one that fails half way. -/
theorem activatePending {sweep : Sweep} {p : Id × Contract} (h : Readable db sweep.db)
    (hI : Inv db) (hp : Pending db p) : Readable db (activatePending env sweep p).db := by
  unfold ContractService.activatePending
  dsimp only
  split
  · exact h
  · next car hcar =>
    split
    · have hout := h.rentOut hI hp hcar
      split
      · exact hout
      · split
        · next booked hbook =>
          have hframe := booked_frame hbook
          rw [← hframe]
          exact ⟨hout.clients, hout.cars, hout.references, hout.deleted⟩
        · exact hout
    · exact h

theorem sweep (hI : Inv db) : Readable db (sweepPending env db).db := by
  have hrun : ∀ (pending : List (Id × Contract)) (sweep : Sweep), (∀ p ∈ pending, Pending db p) →
      Readable db sweep.db → Readable db (pending.foldl (ContractService.activatePending env)
        sweep).db := by
    intro pending
    induction pending with
    | nil => exact fun _ _ h => h
    | cons p rest ih =>
      intro sweep hpending h
      exact ih _ (fun q hq => hpending q (List.mem_cons_of_mem _ hq))
        (h.activatePending hI (hpending p List.mem_cons_self))
  exact hrun _ _ (fun _ => pending_of_mem) (.refl hI)

end Readable

theorem mem_listing {p : Id → Contract → Bool} {c : Id × Contract}
    (h : c ∈ env.listing (db.contracts.select p)) : db.contracts.get? c.1 = some c.2 :=
  (Table.mem_select.mp ((env.listing_perm _).mem_iff.mp h)).1

/-! ### The car service -/

section Cars

variable {car : Car} {request : CarRequest} {image : Option MultipartFile}

theorem applyMileage_refuses (saved : Bool) (mileage : Option Int) :
    ThrowsOnly Refusal (CarService.applyMileage env saved car mileage) := by
  unfold CarService.applyMileage
  refine .bind (.orThrow fun _ => .mileageRequired) fun mileage _ => ?_
  refine .bind (.throwIf fun _ => .mileageNegative) fun _ _ => ?_
  refine .bind (.throwIf fun _ => .mileageDecreases) fun _ _ => ?_
  split
  · exact .ok _
  · exact .ok _

theorem storeImage_refuses (file : MultipartFile) :
    ThrowsOnly Refusal (CarService.storeImage env file) := by
  unfold CarService.storeImage
  refine .bind (.throwIf fun _ => .imageFormat) fun _ _ => ?_
  split
  · next message _ => exact .error (.imageNotStored message)
  · exact .ok _

theorem picture_refuses : ThrowsOnly Refusal (picture env car image) := by
  cases image with
  | none => exact .ok _
  | some file =>
    simp only [picture]
    split
    · exact .ok _
    · exact .map (storeImage_refuses file)

theorem apply_refuses (saved allowStatusOnCreate : Bool) :
    ThrowsOnly Refusal (CarService.apply env saved car request image allowStatusOnCreate) := by
  rw [apply_eq]
  refine .bind (applyMileage_refuses saved _) fun driven _ => ?_
  refine .bind picture_refuses fun url _ => ?_
  exact .ok _

theorem markAvailable_refuses : ThrowsOnly Refusal (CarService.markAvailable env id db) := by
  unfold CarService.markAvailable
  refine .bind (.orThrow fun _ => .carNotFound id) fun car _ => ?_
  refine .bind (.throwIf fun _ => .alreadyAvailable) fun _ _ => ?_
  refine .bind (.throwIf fun _ => .maintenanceNotFinished) fun _ _ => ?_
  refine .bind (.throwIf fun _ => .carHasActiveContract) fun _ _ => ?_
  exact .ok _

theorem car_delete_refuses : ThrowsOnly Refusal (CarService.delete id db) := by
  unfold CarService.delete
  refine .bind (.orThrow fun _ => .carNotFound id) fun car _ => ?_
  refine .bind (.throwIf fun _ => .carHasOpenContract) fun _ _ => ?_
  refine .bind (.throwIf fun _ => .carHasHistory) fun _ _ => ?_
  exact .ok _

theorem car_findById_refuses : ThrowsOnly Refusal (CarService.findById env id db) := by
  unfold CarService.findById
  refine .bind (.orThrow fun _ => .carNotFound id) fun car _ => ?_
  refine .bind (.orThrow fun _ => .carNotFound id) fun car _ => ?_
  exact .ok _

end Cars

/-! ### The maintenance service -/

section Maintenances

variable {m : Maintenance} {removed : List (Id × Maintenance)}

/-- Reconciling keeps the cars. -/
theorem exists_car_reconcile (today : LocalDate) (k : Id) {j : Id}
    (h : ∃ car, db.cars.get? j = some car) :
    ∃ car, (MaintenanceService.reconcileCarStatus today k db).cars.get? j = some car := by
  obtain ⟨car, hcar⟩ := h
  have hreg : SameRegister db.cars (MaintenanceService.reconcileCarStatus today k db).cars :=
    .reconcile today k rfl
  have hsame := hreg.onFile j
  rw [hcar, Option.map_some, Option.map_eq_some_iff] at hsame
  obtain ⟨car', hcar', -⟩ := hsame
  exact ⟨car', hcar'⟩

theorem maintenance_map_returns (db : Db) (id : Id) (h : ∃ car, db.cars.get? m.carId = some car) :
    ∃ response, MaintenanceService.map db id m = .ok response := by
  obtain ⟨car, hcar⟩ := h
  unfold MaintenanceService.map
  simp only [hcar]
  exact ⟨_, rfl⟩

/-- The record of a maintenance is found or new, and its car is there to be named. -/
theorem record_returns (db : Db) (id : Id) {settled : Db} (hS : Settled settled removed)
    (hledger : db.expenseRecords = settled.expenseRecords)
    (hcar : ∃ car, db.cars.get? m.carId = some car) :
    ∃ ledger, FinancialService.recordExpenseFromMaintenance id m db =
      .ok { db with expenseRecords := ledger } := by
  obtain ⟨car, hcar⟩ := hcar
  unfold FinancialService.recordExpenseFromMaintenance ExpenseRecordRepository.findByMaintenanceId
  rw [hledger, hcar]
  cases m.cost with
  | none => exact ⟨db.expenseRecords, rfl⟩
  | some cost =>
    rcases hS.select_cases id with hnil | ⟨row, hrow⟩
    · rw [hnil]
      exact ⟨_, rfl⟩
    · rw [hrow]
      exact ⟨_, rfl⟩

/-- The last steps of saving a maintenance: reconcile, record the expense and answer. -/
theorem save_returns (env : Env) (db : Db) (id k : Id)
    (f : MaintenanceResponse → MaintenanceResponse) {settled : Db} (hS : Settled settled removed)
    (hledger : db.expenseRecords = settled.expenseRecords)
    (hcar : ∃ car, db.cars.get? m.carId = some car) :
    ∃ response cars ledger, (do
      let db ← FinancialService.recordExpenseFromMaintenance id m
        (MaintenanceService.reconcileCarStatus env.today k db)
      let response ← MaintenanceService.map db id m
      pure (f response, db)) =
        .ok (response, { db with cars := cars, expenseRecords := ledger }) := by
  have hfound := exists_car_reconcile env.today k hcar
  obtain ⟨cars, hframe⟩ := MaintenanceService.reconcileCarStatus_frame env.today k db
  rw [hframe] at hfound ⊢
  obtain ⟨ledger, hrecord⟩ := record_returns { db with cars := cars } id hS hledger hfound
  obtain ⟨response, hresponse⟩ := maintenance_map_returns
    { db with cars := cars, expenseRecords := ledger } id hfound
  exact ⟨f response, cars, ledger,
    bind_eq_ok.mpr ⟨_, hrecord, bind_eq_ok.mpr ⟨_, hresponse, rfl⟩⟩⟩

theorem save_refuses {k : Id} (f : MaintenanceResponse → MaintenanceResponse) {settled : Db}
    (hS : Settled settled removed)
    (hledger : db.expenseRecords = settled.expenseRecords)
    (hcar : ∃ car, db.cars.get? m.carId = some car) :
    ThrowsOnly Refusal (do
      let db ← FinancialService.recordExpenseFromMaintenance id m
        (MaintenanceService.reconcileCarStatus env.today k db)
      let response ← MaintenanceService.map db id m
      pure (f response, db)) := by
  obtain ⟨response, cars, ledger, hok⟩ := save_returns env db id k f hS hledger hcar
  exact .of_returns ⟨_, hok⟩

theorem maintenance_create_refuses (hS : Settled db removed) (request : MaintenanceRequest) :
    ThrowsOnly Refusal (MaintenanceService.create env request db) := by
  unfold MaintenanceService.create
  refine .bind (.orThrow fun _ => .carNotFound _) fun car hcar => ?_
  exact save_refuses (fun response => { response with cost := request.cost }) hS rfl
    ⟨car, orThrow_eq_ok.mp hcar⟩

theorem maintenance_update_refuses (hS : Settled db removed) (request : MaintenanceRequest) :
    ThrowsOnly Refusal (MaintenanceService.update env id request db) := by
  unfold MaintenanceService.update
  refine .bind (.orThrow fun _ => .maintenanceNotFound id) fun m _ => ?_
  refine .bind (.throwIf fun _ => .completeEndpoint) fun _ _ => ?_
  refine .bind (.orThrow fun _ => .carNotFound _) fun car hcar => ?_
  exact save_refuses (fun response => { response with cost := request.cost }) hS rfl
    ⟨car, orThrow_eq_ok.mp hcar⟩

theorem maintenance_complete_refuses (hI : Inv db) (hS : Settled db removed) :
    ThrowsOnly Refusal (MaintenanceService.complete env id db) := by
  unfold MaintenanceService.complete
  refine .bind (.orThrow fun _ => .maintenanceNotFound id) fun m hm => ?_
  obtain ⟨car, hcar⟩ := out_ne_none_iff.mp (hI.maintenanceCar (orThrow_eq_ok.mp hm))
  refine .bind (.throwIf fun _ => .maintenanceCompleted) fun _ _ => ?_
  refine .bind (.orThrow fun hnone => absurd (hcar.symm.trans hnone) (by simp)) fun _ _ => ?_
  exact save_refuses (fun response => response) hS rfl ⟨car, hcar⟩

theorem maintenance_delete_refuses (hI : Inv db) :
    ThrowsOnly Refusal (MaintenanceService.delete env id db) := by
  unfold MaintenanceService.delete
  refine .bind (.orThrow fun _ => .maintenanceNotFound id) fun m hm => ?_
  obtain ⟨car, hcar⟩ := out_ne_none_iff.mp (hI.maintenanceCar (orThrow_eq_ok.mp hm))
  refine .bind (.orThrow fun hnone => absurd (hcar.symm.trans hnone) (by simp)) fun _ _ => ?_
  exact .ok _

theorem maintenance_findAll_refuses (hI : Inv db) :
    ThrowsOnly Refusal (MaintenanceService.findAll env db) := by
  unfold MaintenanceService.findAll
  refine .bind (.of_returns (mapM_eq_ok fun m hm => ?_)) fun _ _ => .ok _
  rw [reconcileAll_maintenances] at hm
  obtain ⟨car, hcar⟩ := out_ne_none_iff.mp (hI.maintenanceCar (Table.mem_rows.mp hm))
  refine maintenance_map_returns _ _ ?_
  rw [reconcileAll_get?, hcar]
  exact ⟨_, rfl⟩

theorem maintenance_findByCarId_refuses (hI : Inv db) (k : Id) :
    ThrowsOnly Refusal (MaintenanceService.findByCarId env k db) := by
  unfold MaintenanceService.findByCarId
  refine .bind (.orThrow fun _ => .carNotFound k) fun _ _ => ?_
  refine .bind (.of_returns (mapM_eq_ok fun m hm => ?_)) fun _ _ => .ok _
  refine maintenance_map_returns _ _ (exists_car_reconcile _ _ ?_)
  obtain ⟨cars, hframe⟩ := MaintenanceService.reconcileCarStatus_frame env.today k db
  rw [hframe] at hm
  exact out_ne_none_iff.mp (hI.maintenanceCar (Table.mem_select.mp hm).1)

end Maintenances

/-! ### The client service -/

theorem client_findById_refuses : ThrowsOnly Refusal (ClientService.findById id db) :=
  .bind (.orThrow fun _ => .clientNotFound id) fun _ _ => .ok _

theorem client_update_refuses (request : ClientRequest) :
    ThrowsOnly Refusal (ClientService.update id request db) :=
  .bind (.orThrow fun _ => .clientNotFound id) fun _ _ => .ok _

theorem client_delete_refuses : ThrowsOnly Refusal (ClientService.delete id db) := by
  refine .bind (.orThrow fun _ => .clientNotFound id) fun _ _ => ?_
  exact .bind (.throwIf fun _ => .clientHasContracts) fun _ _ => .ok _

/-! ### Every call -/

/-- What the controllers check before they pass a request on: a contract has a departure, and a
maintenance a cost. -/
def Call.validated : Call → Prop
  | .contractCreate request | .contractUpdate _ request => request.departureDatetime ≠ none
  | .maintenanceCreate request | .maintenanceUpdate _ request => request.cost.isSome = true
  | _ => True

theorem Call.validated.priced {call : Call} (h : call.validated) : call.priced := by
  cases call with
  | maintenanceCreate request => exact h
  | maintenanceUpdate id request => exact h
  | _ => exact trivial

/-- The contract is on file and not archived. -/
def Shown (db : Db) (id : Id) : Prop := ∃ c, db.contracts.get? id = some c ∧ c.deleted = false

/-- The ways a call breaks: the storage fails on a contract a sweep takes, and the contract that
was asked for, if one was, is there; the history of a car meets a missing start; or another car
has a matricule the database takes for the one of an accepted form. -/
inductive Breakage (env : Env) (db : Db) : Call → ServiceError → Prop
  | storage {call : Call} {p : Id × Contract} : call.sweeps = true → p ∈ takes env db →
      env.faulty p.1 = true → (∀ id, call = .contractFindById id → Shown db id) →
      Breakage env db call .unexpectedRollback
  | start {k : Id} {car : Car} : db.cars.get? k = some car → ¬ StartsRecorded db k →
      Breakage env db (.history k) .nullPointer
  | added {request : CarRequest} {image : Option MultipartFile} {car : Car} :
      CarService.apply env false blankCar request image true = .ok car →
      car.status = .available → CarRepository.matriculeTaken db none car.matricule = true →
      Breakage env db (.carCreate request image) (.dataIntegrityViolation "uk_cars_matricule")
  | edited {k : Id} {request : CarRequest} {image : Option MultipartFile} {saved car : Car} :
      db.cars.get? k = some saved →
      CarService.apply env true saved request image false = .ok car →
      CarRepository.matriculeTaken db (some k) car.matricule = true →
      Breakage env db (.carUpdate k request image) (.dataIntegrityViolation "uk_cars_matricule")

theorem shown_iff {db' : Db} (h : Readable db db') : Shown db id ↔ Shown db' id := by
  have hshown : ∀ {db : Db}, Shown db id ↔
      (db.contracts.get? id).map (·.deleted) = some false := by
    intro db
    rw [Option.map_eq_some_iff]
    rfl
  rw [hshown, hshown, h.deleted]

theorem getContract_missing (h : ¬ Shown db id) : getContract id db =
    .error (.resourceNotFound ("Contract not found: " ++ toString id)) := by
  cases hc : getContract id db with
  | ok c => exact absurd ⟨c, getContract_eq_ok.mp hc⟩ h
  | error e =>
    unfold getContract orThrow at hc
    split at hc
    · exact absurd hc (by simp)
    · rw [Except.error.inj hc]

/-- A sweeping call is a read behind a sweep, which returns unless it asks for a contract that
is not there. -/
theorem Call.sweeps_eq (env : Env) (hI : Inv db) {call : Call} (hsweep : call.sweeps = true) :
    ∃ (α : Type) (read : Db → Except ServiceError α),
      call.exec env db = (sweeping env db read).map Prod.snd ∧
      ((∃ answer, read (sweepPending env db).db = .ok answer) ∧
          (∀ id, call = .contractFindById id → Shown db id) ∨
        ∃ id, call = .contractFindById id ∧ ¬ Shown db id ∧ read (sweepPending env db).db =
          .error (.resourceNotFound ("Contract not found: " ++ toString id))) := by
  have hread : Readable db (sweepPending env db).db := .sweep hI
  -- all reads but one list contracts and answer with the listed rows
  have hlist : ∀ {rows : List (Id × Contract)},
      (∀ c ∈ rows, (sweepPending env db).db.contracts.get? c.1 = some c.2) →
        ∃ answer, mapAll (sweepPending env db).db rows = .ok answer :=
    fun hrows => mapM_eq_ok fun c hc => hread.returns (hrows c hc)
  have halone : ContractService.autoActivateContracts env db =
      (sweeping env db fun _ => pure ()).map Prod.snd := by
    unfold ContractService.autoActivateContracts sweeping
    simp only [throwIf, bind, Except.bind, pure, Except.pure]
    split
    · rfl
    · rfl
  cases call with
  | autoActivateContracts => exact ⟨_, _, halone, Or.inl ⟨⟨(), rfl⟩, by simp⟩⟩
  | scheduledAutoActivate => exact ⟨_, _, halone, Or.inl ⟨⟨(), rfl⟩, by simp⟩⟩
  | findInProgressFutureReservations =>
    refine ⟨_, _, rfl, Or.inl ⟨hlist fun c hc => ?_, by simp⟩⟩
    exact mem_listing (List.mem_mergeSort.mp hc)
  | contractFindAll => exact ⟨_, _, rfl, Or.inl ⟨hlist fun _ => mem_listing, by simp⟩⟩
  | findAllByCarId carId => exact ⟨_, _, rfl, Or.inl ⟨hlist fun _ => mem_listing, by simp⟩⟩
  | findCarRentalHistory carId =>
    refine ⟨_, _, rfl, Or.inl ⟨hlist fun c hc => ?_, by simp⟩⟩
    exact mem_listing (List.mem_mergeSort.mp hc)
  | findActive => exact ⟨_, _, rfl, Or.inl ⟨hlist fun _ => mem_listing, by simp⟩⟩
  | contractFindById id =>
    refine ⟨_, _, rfl, ?_⟩
    by_cases hshown : Shown db id
    · refine Or.inl ⟨?_, fun id' heq => Call.contractFindById.inj heq ▸ hshown⟩
      obtain ⟨c, hget, hdel⟩ := (shown_iff hread).mp hshown
      obtain ⟨response, hresponse⟩ := hread.returns hget
      exact ⟨response, bind_eq_ok.mpr ⟨c, getContract_eq_ok.mpr ⟨hget, hdel⟩, hresponse⟩⟩
    · refine Or.inr ⟨id, rfl, hshown, ?_⟩
      rw [getContract_missing (mt (shown_iff hread).mpr hshown)]
      rfl
  | _ => exact absurd hsweep (by simp [Call.sweeps])

theorem sweeping_refuses (hI : Inv db) {call : Call} (hsweep : call.sweeps = true) :
    ThrowsOnly (fun e => Refusal e ∨ Breakage env db call e) (call.exec env db) := by
  obtain ⟨α, read, heq, hread⟩ := Call.sweeps_eq env hI hsweep
  rw [heq]
  refine .map (.bind ?_ fun _ hok => .bind (.throwIf fun hmark => Or.inr ?_) fun _ _ => .ok _)
  · rcases hread with ⟨⟨answer, hanswer⟩, -⟩ | ⟨id, -, -, herr⟩
    · exact .of_returns ⟨answer, hanswer⟩
    · rw [herr]
      exact .error (Or.inl (.contractNotFound id))
  · obtain ⟨p, hp, hfaulty⟩ := (sweepPending_marks hI).mp hmark
    rcases hread with ⟨-, hshown⟩ | ⟨id, -, -, herr⟩
    · exact .storage hsweep hp hfaulty hshown
    · rw [herr] at hok
      exact absurd hok (by simp)

/-- The history of a car that is there breaks on a missing start only. -/
theorem history_throws (hI : Inv db) {k : Id} {car : Car} (hcar : db.cars.get? k = some car) :
    ThrowsOnly (fun e => e = .nullPointer) (CarService.history env k db) := by
  unfold CarService.history CarService.getCar
  refine .bind (.orThrow fun hnone => absurd (hcar.symm.trans hnone) (by simp)) fun _ _ => ?_
  refine .bind (.of_returns (mapM_eq_ok fun c hc => ?_)) fun rentals _ => ?_
  · have hperm := findByCarIdForHistory_perm hI env k
    exact exists_rentalItem hI (hperm.mem_iff.mp hc)
  refine .bind (.mapM fun m _ => ?_) fun maintenance _ => ?_
  · exact .bind (.orThrow fun _ => rfl) fun _ _ => .ok _
  · exact .bind (.throwIf fun _ => rfl) fun _ _ => .ok _

theorem history_refuses (hI : Inv db) (k : Id) :
    ThrowsOnly (fun e => Refusal e ∨ Breakage env db (.history k) e)
      ((Call.history k).exec env db) := by
  cases hcar : db.cars.get? k with
  | none =>
    refine .map (.bind (.orThrow fun _ => Or.inl (.carNotFound k)) fun car hok => ?_)
    exact absurd (hcar.symm.trans (orThrow_eq_ok.mp hok)) (by simp)
  | some car =>
    refine .map fun e he => Or.inr ?_
    obtain rfl := history_throws hI hcar e he
    refine .start hcar fun hstarts => ?_
    obtain ⟨items, hitems⟩ := (exists_history hI env hcar).mpr hstarts
    exact absurd (he.symm.trans hitems) (by simp)

theorem car_create_refuses (request : CarRequest) (image : Option MultipartFile) :
    ThrowsOnly (fun e => Refusal e ∨ Breakage env db (.carCreate request image) e)
      ((Call.carCreate request image).exec env db) := by
  refine .map (.bind ((apply_refuses false true).mono fun _ => Or.inl) fun car hcar => ?_)
  refine .bind (.throwIf fun _ => Or.inl .newCarNotAvailable) fun _ hst => ?_
  refine .bind (.throwIf fun htaken => Or.inr ?_) fun _ _ => .ok _
  exact .added hcar (not_not.mp (throwIf_eq_ok.mp hst)) htaken

theorem car_update_refuses (k : Id) (request : CarRequest) (image : Option MultipartFile) :
    ThrowsOnly (fun e => Refusal e ∨ Breakage env db (.carUpdate k request image) e)
      ((Call.carUpdate k request image).exec env db) := by
  refine .map (.bind (.orThrow fun _ => Or.inl (.carNotFound k)) fun saved hsaved => ?_)
  refine .bind ((apply_refuses true false).mono fun _ => Or.inl) fun car hcar => ?_
  refine .bind (.throwIf fun htaken => Or.inr ?_) fun _ _ => .ok _
  exact .edited (orThrow_eq_ok.mp hsaved) hcar htaken

theorem Call.exec_refuses {removed : List (Id × Maintenance)} (hI : Inv db)
    (hS : Settled db removed) {call : Call} (hvalid : call.validated) :
    ThrowsOnly (fun e => Refusal e ∨ Breakage env db call e) (call.exec env db) := by
  -- most calls do nothing but refuse
  have hplain : ∀ {α : Type} {x : Except ServiceError α}, ThrowsOnly Refusal x →
      ThrowsOnly (fun e => Refusal e ∨ Breakage env db call e) x := fun h => h.mono fun _ => Or.inl
  by_cases hsweep : call.sweeps = true
  · exact sweeping_refuses hI hsweep
  cases call with
  | contractCreate request => exact .map (hplain (create_refuses hvalid))
  | updateStatus id newStatus => exact .map (hplain (updateStatus_refuses hI newStatus))
  | registerReturn id => exact .map (hplain (updateStatus_refuses hI .completed))
  | contractUpdate id request => exact .map (hplain (update_refuses hvalid))
  | softDelete id => exact hplain (softDelete_refuses hI)
  | carFindById id => exact .map (hplain car_findById_refuses)
  | carCreate request image => exact car_create_refuses request image
  | carUpdate id request image => exact car_update_refuses id request image
  | markAvailable id => exact .map (hplain markAvailable_refuses)
  | carDelete id => exact hplain car_delete_refuses
  | history k => exact history_refuses hI k
  | maintenanceFindAll => exact .map (hplain (maintenance_findAll_refuses hI))
  | maintenanceFindByCarId k => exact .map (hplain (maintenance_findByCarId_refuses hI k))
  | maintenanceCreate request => exact .map (hplain (maintenance_create_refuses hS request))
  | maintenanceUpdate id request => exact .map (hplain (maintenance_update_refuses hS request))
  | maintenanceComplete id => exact .map (hplain (maintenance_complete_refuses hI hS))
  | maintenanceDelete id => exact hplain (maintenance_delete_refuses hI)
  | clientFindById id => exact .map (hplain client_findById_refuses)
  | clientUpdate id request => exact .map (hplain (client_update_refuses request))
  | clientDelete id => exact hplain client_delete_refuses
  | autoActivateContracts => exact absurd rfl hsweep
  | scheduledAutoActivate => exact absurd rfl hsweep
  | findInProgressFutureReservations => exact absurd rfl hsweep
  | contractFindAll => exact absurd rfl hsweep
  | findAllByCarId carId => exact absurd rfl hsweep
  | findCarRentalHistory carId => exact absurd rfl hsweep
  | contractFindById id => exact absurd rfl hsweep
  | findActive => exact absurd rfl hsweep
  | _ => exact .ok _

theorem Breakage.fails {call : Call} {e : ServiceError} (hI : Inv db)
    (h : Breakage env db call e) : call.exec env db = .error e := by
  cases h with
  | storage hsweep hp hfaulty hshown =>
    obtain ⟨α, read, heq, ⟨⟨answer, hanswer⟩, -⟩ | ⟨id, hcall, hnot, -⟩⟩ :=
      Call.sweeps_eq env hI hsweep
    · have hmark := (sweepPending_marks hI).mpr ⟨_, hp, hfaulty⟩
      rw [heq]
      simp [sweeping, hanswer, hmark, throwIf, bind, Except.bind, Except.map]
    · exact absurd (hshown id hcall) hnot
  | @start k car hcar hstarts =>
    cases hh : CarService.history env k db with
    | ok items => exact absurd ((exists_history hI env hcar).mp ⟨items, hh⟩) hstarts
    | error e =>
      obtain rfl := history_throws hI hcar e hh
      simp only [Call.exec, hh, Except.map]
  | added hcar hst htaken =>
    simp only [Call.exec, CarService.create, blankCar] at hcar ⊢
    rw [hcar]
    simp [hst, htaken, throwIf, bind, Except.bind, Except.map]
  | edited hsaved hcar htaken =>
    simp only [Call.exec, CarService.update, CarService.getCar, hsaved, orThrow]
    simp [hcar, htaken, throwIf, bind, Except.bind, Except.map]

/-- **Calls fail by refusing.** In every state of a run of calls that passed the validation of
their controllers, such a call fails with one of the listed refusals or it breaks in one of the
listed ways; and in each of those ways it does break, with an error that is no refusal. -/
theorem only_refusals (h : ReachableBy (fun _ _ call => call.validated) w) (env : Env)
    {call : Call} (hvalid : call.validated) :
    (∀ e, call.exec env w.db = .error e → Refusal e ∨ Breakage env w.db call e) ∧
    (∀ e, Breakage env w.db call e → call.exec env w.db = .error e ∧ ¬ Refusal e) := by
  have hI := inv_of_reachable h.reachable
  obtain ⟨removed, haudit⟩ := Audited.of_reachableBy (h.mono fun _ _ _ hv => hv.priced)
  refine ⟨Call.exec_refuses hI haudit.settled hvalid, fun e hbreak => ⟨hbreak.fails hI, ?_⟩⟩
  intro hrefusal
  cases hbreak <;> cases hrefusal

/-- A collation that does not tell small letters from capitals. -/
def caseBlind (s : String) : String := String.ofList (s.toList.map Char.toLower)

/-- The car of the fleet once more, its matricule in small letters. -/
def sameMatricule : CarRequest :=
  { brand := "Dacia", fuelType := .diesel, matricule := "1-a-1", mileage := some 0 }

/-- A car that is out cannot be removed, and is told so. A second car with the same matricule,
as far as the database can tell, breaks the call. -/
theorem only_refusals_firstRental :
    (ReachableBy (fun _ _ call => call.validated) (World.after firstRental) ∧
      ∃ e, (Call.carDelete 1).exec (.atTime 0) (World.after firstRental).db = .error e ∧
        (Refusal e ∨ Breakage (.atTime 0) (World.after firstRental).db (.carDelete 1) e)) ∧
    ReachableBy (fun _ _ call => call.validated) (runCalls fleetOfOne ⟨0, Db.empty caseBlind⟩) ∧
      ∃ e, (Call.carCreate sameMatricule none).exec (.atTime 0)
        (runCalls fleetOfOne ⟨0, Db.empty caseBlind⟩).db = .error e ∧ ¬ Refusal e := by
  have hvalid : (Call.carDelete 1).validated := trivial
  have hrun : ReachableBy (fun _ _ call => call.validated) (World.after firstRental) := by
    refine reachableBy_after firstRental ?_ (by decide)
    simp [firstRental, fleetOfOne, booking, Call.validated]
  have hfleet : ReachableBy (fun _ _ call => call.validated)
      (runCalls fleetOfOne ⟨0, Db.empty caseBlind⟩) :=
    ⟨0, caseBlind, runCalls_runBy _ _ (by simp [fleetOfOne, Call.validated]) (by decide)⟩
  have hbreak : Breakage (.atTime 0) (runCalls fleetOfOne ⟨0, Db.empty caseBlind⟩).db
      (.carCreate sameMatricule none) (.dataIntegrityViolation "uk_cars_matricule") :=
    .added rfl rfl (by decide)
  have hrefused := (only_refusals hrun (.atTime 0) hvalid).1 _ rfl
  have hbroken := (only_refusals hfleet (.atTime 0)
    (show (Call.carCreate sameMatricule none).validated from trivial)).2 _ hbreak
  exact ⟨⟨hrun, _, rfl, hrefused⟩, hfleet, _, hbroken⟩
end CarRental
