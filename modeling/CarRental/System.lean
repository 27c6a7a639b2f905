import CarRental.Service.Car
import CarRental.Service.Contract

/-!
# CarRental.System

The back office as a **transition system**: its states are a database and a clock,
and its steps are the public calls of the four services, each a serial
transaction that is undone when it throws.

`Call` lists every public operation, reads included: most reads write (the
contract reads sweep, the car and maintenance reads reconcile). `Reachable` is
the set of states the invariants of this development are about: what any finite
sequence of calls with a non-decreasing clock leads to from an empty database,
whatever its collation.
`ReachableBy` is the same for the runs whose steps all meet a condition on the
state before the step and the call.
-/

namespace CarRental

open Lib

/-- The public operations of `ContractService`, `CarService`, `MaintenanceService` and
`ClientService`. Names two services share carry the service's name. -/
inductive Call
  | autoActivateContracts
  | scheduledAutoActivate
  | hasOverlappingContract (carId : Id) (startProposed endProposed : Option LocalDateTime)
      (excludeContractId : Option Id)
  | findInProgressFutureReservations
  | contractFindAll
  | findAllByCarId (carId : Id)
  | findCarRentalHistory (carId : Id)
  | contractFindById (id : Id)
  | findActive
  | contractCreate (request : ContractRequest)
  | updateStatus (id : Id) (newStatus : ContractStatus)
  | registerReturn (id : Id)
  | contractUpdate (id : Id) (request : ContractRequest)
  | softDelete (id : Id)
  | carFindAll
  | carFindById (id : Id)
  | findByStatus (status : CarStatus)
  | carCreate (request : CarRequest) (image : Option MultipartFile)
  | carUpdate (id : Id) (request : CarRequest) (image : Option MultipartFile)
  | markAvailable (id : Id)
  | carDelete (id : Id)
  | availableOnDate (date : LocalDate)
  | availabilityOnDate (date : LocalDate)
  | history (carId : Id)
  | maintenanceFindAll
  | maintenanceFindByCarId (carId : Id)
  | maintenanceCreate (request : MaintenanceRequest)
  | maintenanceUpdate (id : Id) (request : MaintenanceRequest)
  | maintenanceComplete (id : Id)
  | maintenanceDelete (id : Id)
  | hasOngoingMaintenance (carId : Id)
  | reconcileAllCarStatuses
  | clientFindAll
  | clientFindById (id : Id)
  | clientCreate (request : ClientRequest)
  | clientUpdate (id : Id) (request : ClientRequest)
  | clientDelete (id : Id)

/-- The calls that are a sweep and, for the reads, an answer: the scheduler and every read of
the contract service. -/
def Call.sweeps : Call → Bool
  | .autoActivateContracts | .scheduledAutoActivate | .findInProgressFutureReservations
  | .contractFindAll | .findAllByCarId _ | .findCarRentalHistory _ | .contractFindById _
  | .findActive => true
  | _ => false

/-- The calls that change a maintenance. -/
def Call.changesMaintenances : Call → Bool
  | .maintenanceCreate _ | .maintenanceUpdate _ _ | .maintenanceComplete _
  | .maintenanceDelete _ => true
  | _ => false

/-- The database a call leaves when it returns. The answers of the calls are in the
services; here only what is written counts. -/
def Call.exec (env : Env) (db : Db) : Call → Except ServiceError Db
  | .autoActivateContracts => ContractService.autoActivateContracts env db
  | .scheduledAutoActivate => ContractService.scheduledAutoActivate env db
  | .hasOverlappingContract _ _ _ _ => .ok db
  | .findInProgressFutureReservations =>
    (ContractService.findInProgressFutureReservations env db).map Prod.snd
  | .contractFindAll => (ContractService.findAll env db).map Prod.snd
  | .findAllByCarId carId => (ContractService.findAllByCarId env carId db).map Prod.snd
  | .findCarRentalHistory carId => (ContractService.findCarRentalHistory env carId db).map Prod.snd
  | .contractFindById id => (ContractService.findById env id db).map Prod.snd
  | .findActive => (ContractService.findActive env db).map Prod.snd
  | .contractCreate request => (ContractService.create env request db).map Prod.snd
  | .updateStatus id newStatus => (ContractService.updateStatus env id newStatus db).map Prod.snd
  | .registerReturn id => (ContractService.registerReturn env id db).map Prod.snd
  | .contractUpdate id request => (ContractService.update env id request db).map Prod.snd
  | .softDelete id => ContractService.softDelete env id db
  | .carFindAll => .ok (CarService.findAll env db).2
  | .carFindById id => (CarService.findById env id db).map Prod.snd
  | .findByStatus status => .ok (CarService.findByStatus env status db).2
  | .carCreate request image => (CarService.create env request image db).map Prod.snd
  | .carUpdate id request image => (CarService.update env id request image db).map Prod.snd
  | .markAvailable id => (CarService.markAvailable env id db).map Prod.snd
  | .carDelete id => CarService.delete id db
  | .availableOnDate _ => .ok db
  | .availabilityOnDate _ => .ok db
  | .history carId => (CarService.history env carId db).map fun _ => db
  | .maintenanceFindAll => (MaintenanceService.findAll env db).map Prod.snd
  | .maintenanceFindByCarId carId => (MaintenanceService.findByCarId env carId db).map Prod.snd
  | .maintenanceCreate request => (MaintenanceService.create env request db).map Prod.snd
  | .maintenanceUpdate id request => (MaintenanceService.update env id request db).map Prod.snd
  | .maintenanceComplete id => (MaintenanceService.complete env id db).map Prod.snd
  | .maintenanceDelete id => MaintenanceService.delete env id db
  | .hasOngoingMaintenance _ => .ok db
  | .reconcileAllCarStatuses => .ok (MaintenanceService.reconcileAllCarStatuses env.today db)
  | .clientFindAll => .ok db
  | .clientFindById id => (ClientService.findById id db).map fun _ => db
  | .clientCreate request => .ok (ClientService.create request db).2
  | .clientUpdate id request => (ClientService.update id request db).map Prod.snd
  | .clientDelete id => ClientService.delete id db

/-- The database after the call's transaction has ended. -/
def Call.commit (env : Env) (call : Call) (db : Db) : Db := settle db (call.exec env db)

/-- A state of the system: the time of the last call and the committed database. -/
structure World where
  clock : LocalDateTime
  db : Db

/-- One call that meets `P`, not before the last one. -/
def StepBy (P : World → Env → Call → Prop) (w w' : World) : Prop :=
  ∃ (env : Env) (call : Call), w.clock ≤ env.now ∧ P w env call ∧
    w' = ⟨env.now, call.commit env w.db⟩

/-- Any call, not before the last one. -/
abbrev Step : World → World → Prop := StepBy fun _ _ _ => True

/-- The states of the runs, from an empty database, whose steps all meet `P`. -/
def ReachableBy (P : World → Env → Call → Prop) (w : World) : Prop :=
  ∃ start collate, Relation.ReflTransGen (StepBy P) ⟨start, Db.empty collate⟩ w

/-- The states of all runs from an empty database. -/
abbrev Reachable : World → Prop := ReachableBy fun _ _ _ => True

variable {P : World → Env → Call → Prop} {w w' : World}

theorem ReachableBy.step (h : ReachableBy P w) {env : Env} {call : Call}
    (hclock : w.clock ≤ env.now) (hP : P w env call) :
    ReachableBy P ⟨env.now, call.commit env w.db⟩ := by
  obtain ⟨start, collate, hrun⟩ := h
  exact ⟨start, collate, hrun.tail ⟨env, call, hclock, hP, rfl⟩⟩

theorem ReachableBy.mono {Q : World → Env → Call → Prop} (h : ReachableBy P w)
    (hPQ : ∀ w env call, P w env call → Q w env call) : ReachableBy Q w := by
  obtain ⟨start, collate, hrun⟩ := h
  refine ⟨start, collate, Relation.ReflTransGen.mono ?_ _ _ hrun⟩
  intro _ _ hstep
  obtain ⟨env, call, hclock, hP, hw⟩ := hstep
  exact ⟨env, call, hclock, hPQ _ _ _ hP, hw⟩

/-- A guarded run is a run. -/
theorem ReachableBy.reachable (h : ReachableBy P w) : Reachable w := by
  obtain ⟨start, collate, hrun⟩ := h
  refine ⟨start, collate, Relation.ReflTransGen.mono ?_ _ _ hrun⟩
  intro _ _ hstep
  obtain ⟨env, call, hclock, -, hw⟩ := hstep
  exact ⟨env, call, hclock, trivial, hw⟩

/-- **The run rule.** What holds of an empty database and is kept by every call that
meets `P` holds in every state of such runs. -/
theorem ReachableBy.induction {I : World → Prop} (h : ReachableBy P w)
    (hinit : ∀ start collate, I ⟨start, Db.empty collate⟩)
    (hcall : ∀ w env call, ReachableBy P w → I w → w.clock ≤ env.now → P w env call →
      I ⟨env.now, call.commit env w.db⟩) : I w := by
  obtain ⟨start, collate, hrun⟩ := h
  induction hrun with
  | refl => exact hinit start collate
  | tail hpre hstep ih =>
    obtain ⟨env, call, hclock, hP, rfl⟩ := hstep
    exact hcall _ env call ⟨start, collate, hpre⟩ ih hclock hP

/-- The states of a run from a reachable state are reachable. -/
theorem Reachable.trans (h : Reachable w) (hrun : Relation.ReflTransGen Step w w') :
    Reachable w' := by
  obtain ⟨start, collate, hpre⟩ := h
  exact ⟨start, collate, Relation.ReflTransGen.trans hpre hrun⟩

/-- **The run rule for pairs of states.** What every call relates, and what is reflexive and
transitive, relates the two ends of a run. -/
theorem Reachable.relates {R : Db → Db → Prop} (h : Reachable w)
    (hrun : Relation.ReflTransGen Step w w') (hrefl : ∀ db, R db db)
    (htrans : ∀ {db₁ db₂ db₃}, R db₁ db₂ → R db₂ db₃ → R db₁ db₃)
    (hcall : ∀ (w : World) (env : Env) (call : Call), Reachable w →
      R w.db (call.commit env w.db)) : R w.db w'.db := by
  induction hrun with
  | refl => exact hrefl _
  | tail hpre hstep ih =>
    obtain ⟨env, call, -, -, rfl⟩ := hstep
    exact htrans ih (hcall _ env call (Reachable.trans h hpre))

/-- A list of calls, each with its environment, run in turn. -/
def runCalls (calls : List (Env × Call)) (w : World) : World :=
  calls.foldl (fun w c => ⟨c.1.now, c.2.commit c.1 w.db⟩) w

/-- The world after a list of calls from an empty database, at time `0`, whose collation
tells all texts apart. -/
def World.after (calls : List (Env × Call)) : World := runCalls calls ⟨0, Db.empty⟩

/-- A list of calls with a non-decreasing clock that all meet `P` is a run. -/
theorem runCalls_runBy (calls : List (Env × Call)) (w : World)
    (hP : ∀ c ∈ calls, ∀ w, P w c.1 c.2)
    (hsorted : (w.clock :: calls.map fun c => c.1.now).Pairwise (· ≤ ·)) :
    Relation.ReflTransGen (StepBy P) w (runCalls calls w) := by
  induction calls generalizing w with
  | nil => exact .refl
  | cons c rest ih =>
    rw [List.map_cons, List.pairwise_cons] at hsorted
    have hstep : StepBy P w ⟨c.1.now, c.2.commit c.1 w.db⟩ :=
      ⟨c.1, c.2, hsorted.1 _ List.mem_cons_self, hP c List.mem_cons_self w, rfl⟩
    exact .head hstep (ih _ (fun c hc => hP c (List.mem_cons_of_mem _ hc)) hsorted.2)

theorem runCalls_run (calls : List (Env × Call)) (w : World)
    (hsorted : (w.clock :: calls.map fun c => c.1.now).Pairwise (· ≤ ·)) :
    Relation.ReflTransGen Step w (runCalls calls w) :=
  runCalls_runBy calls w (fun _ _ _ => trivial) hsorted

theorem reachableBy_after (calls : List (Env × Call)) (hP : ∀ c ∈ calls, ∀ w, P w c.1 c.2)
    (hsorted : (0 :: calls.map fun c => c.1.now).Pairwise (· ≤ ·)) :
    ReachableBy P (World.after calls) :=
  ⟨0, id, runCalls_runBy calls ⟨0, Db.empty⟩ hP hsorted⟩

theorem reachable_after (calls : List (Env × Call))
    (hsorted : (0 :: calls.map fun c => c.1.now).Pairwise (· ≤ ·)) :
    Reachable (World.after calls) :=
  ⟨0, id, runCalls_run calls ⟨0, Db.empty⟩ hsorted⟩

end CarRental
