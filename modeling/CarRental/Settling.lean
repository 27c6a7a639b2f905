import CarRental.Alerts
import CarRental.StatusColumn

/-!
# CarRental.Settling

**Reads that write come to rest.**

Most reads of the back office write. The reads of cars and maintenances bring the status
column up to date, and the reads of contracts activate what is due. The two feed each
other: a car that comes out of the workshop by a read can be handed over by the next one.
So two reads at the same instant need not agree on the tables.

`AtRest` is the state in which neither has anything left to do. A listing of the cars and,
at any later point of the same instant, a read of the contracts that returns lead to it,
whatever reads come in between (`reads_settle`). From then on reads only read.
-/

namespace CarRental

open Lib Desk ContractService MaintenanceService

variable {env : Env} {db db' : Db} {now : LocalDateTime} {w : World} {k : Id}

/-- The operations that answer a question. -/
def Call.reads : Call → Bool
  | .autoActivateContracts | .scheduledAutoActivate | .hasOverlappingContract _ _ _ _
  | .findInProgressFutureReservations | .contractFindAll | .findAllByCarId _
  | .findCarRentalHistory _ | .contractFindById _ | .findActive | .carFindAll | .carFindById _
  | .findByStatus _ | .availableOnDate _ | .availabilityOnDate _ | .history _
  | .maintenanceFindAll | .maintenanceFindByCarId _ | .hasOngoingMaintenance _
  | .reconcileAllCarStatuses | .clientFindAll | .clientFindById _ => true
  | _ => false

/-- The status column says what the maintenances of the day say. -/
def Reconciled (today : LocalDate) (db : Db) : Prop :=
  ∀ k car, db.cars.get? k = some car → reconciledCar today db k car = car

/-- Nothing is left to do at the instant `now`. -/
structure AtRest (now : LocalDateTime) (db : Db) : Prop where
  reconciled : Reconciled now.toLocalDate db
  served : ∀ p, Due db now p → ¬ CarAvailable db p.2

/-! ### One read -/

/-- What a read leaves: the tables as they were, one car or all of them reconciled, or the
contracts that are due activated. -/
inductive Read (env : Env) (db db' : Db) : Prop
  | nothing : db' = db → Read env db db'
  | car (k : Id) : db' = reconcileCarStatus env.today k db → Read env db db'
  | cars : db' = reconcileAllCarStatuses env.today db → Read env db db'
  | sweep : autoActivateContracts env db = .ok db' → Read env db db'

theorem Call.exec_read {call : Call} (hreads : call.reads = true)
    (hexec : call.exec env db = .ok db') : Read env db db' := by
  cases call with
  -- reads that bring the status of cars up to date
  | carFindAll => exact .cars (Except.ok.inj hexec).symm
  | findByStatus status => exact .cars (Except.ok.inj hexec).symm
  | reconcileAllCarStatuses => exact .cars (Except.ok.inj hexec).symm
  | carFindById id =>
    obtain ⟨⟨_, db'⟩, h, rfl⟩ := map_eq_ok.mp hexec
    simp only [CarService.findById, bind_eq_ok, pure_eq_ok] at h
    obtain ⟨_, -, _, -, h⟩ := h
    exact .car id (Prod.mk.inj h).2.symm
  | maintenanceFindAll =>
    obtain ⟨⟨_, db'⟩, h, rfl⟩ := map_eq_ok.mp hexec
    simp only [MaintenanceService.findAll, bind_eq_ok, pure_eq_ok] at h
    obtain ⟨_, -, h⟩ := h
    exact .cars (Prod.mk.inj h).2.symm
  | maintenanceFindByCarId id =>
    obtain ⟨⟨_, db'⟩, h, rfl⟩ := map_eq_ok.mp hexec
    simp only [MaintenanceService.findByCarId, bind_eq_ok, pure_eq_ok] at h
    obtain ⟨_, -, _, -, h⟩ := h
    exact .car id (Prod.mk.inj h).2.symm
  -- reads that only read
  | history id =>
    obtain ⟨_, -, rfl⟩ := map_eq_ok.mp hexec
    exact .nothing rfl
  | clientFindById id =>
    obtain ⟨_, -, rfl⟩ := map_eq_ok.mp hexec
    exact .nothing rfl
  | hasOverlappingContract => exact .nothing (Except.ok.inj hexec).symm
  | availableOnDate => exact .nothing (Except.ok.inj hexec).symm
  | availabilityOnDate => exact .nothing (Except.ok.inj hexec).symm
  | hasOngoingMaintenance => exact .nothing (Except.ok.inj hexec).symm
  | clientFindAll => exact .nothing (Except.ok.inj hexec).symm
  -- reads behind a sweep
  | autoActivateContracts => exact .sweep (Call.sweeps_exec rfl hexec)
  | scheduledAutoActivate => exact .sweep (Call.sweeps_exec rfl hexec)
  | findInProgressFutureReservations => exact .sweep (Call.sweeps_exec rfl hexec)
  | contractFindAll => exact .sweep (Call.sweeps_exec rfl hexec)
  | findAllByCarId id => exact .sweep (Call.sweeps_exec rfl hexec)
  | findCarRentalHistory id => exact .sweep (Call.sweeps_exec rfl hexec)
  | contractFindById id => exact .sweep (Call.sweeps_exec rfl hexec)
  | findActive => exact .sweep (Call.sweeps_exec rfl hexec)
  | _ => exact absurd hreads (by simp [Call.reads])

theorem Call.commit_read {call : Call} (hreads : call.reads = true) :
    Read env db (call.commit env db) := by
  simp only [Call.commit]
  cases hexec : call.exec env db with
  | error e => exact .nothing rfl
  | ok db' => exact Call.exec_read hreads hexec

/-! ### The status column stays reconciled -/

theorem reconciled_reconcileAll (today : LocalDate) (db : Db) :
    Reconciled today (reconcileAllCarStatuses today db) := by
  intro k car hcar
  rw [reconcileAll_get?, Option.map_eq_some_iff] at hcar
  obtain ⟨old, -, rfl⟩ := hcar
  rw [reconciledCar_congr reconcileAll_maintenances, reconciledCar_idem]

/-- Reconciling what is reconciled changes nothing. -/
theorem Reconciled.reconcile {today : LocalDate} (h : Reconciled today db) (k : Id) :
    reconcileCarStatus today k db = db := by
  cases hcar : db.cars.get? k with
  | none => exact reconcileCarStatus_none hcar
  | some car =>
    by_cases hrented : car.status = .rented
    · exact reconcileCarStatus_rented hcar hrented
    · have hsame := h k car hcar
      rw [reconciledCar, if_neg hrented] at hsame
      rw [reconcileCarStatus_eq hcar hrented, hsame, Table.set_get? hcar]

theorem Reconciled.reconcileAll {today : LocalDate} (h : Reconciled today db) :
    reconcileAllCarStatuses today db = db := by
  unfold reconcileAllCarStatuses
  induction db.cars.rows.map Prod.fst with
  | nil => rfl
  | cons k rest ih => rw [List.foldl_cons, h.reconcile, ih]

/-- A car that is handed over is rented, and a rented car is never touched. -/
theorem Reconciled.swept {today : LocalDate} (h : Reconciled today db)
    (chosen : List (Id × Contract)) : Reconciled today (swept env db chosen) := by
  intro k car hcar
  have hsame : reconciledCar today (ContractService.swept env db chosen) k =
      reconciledCar today db k := reconciledCar_congr rfl k
  rw [hsame]
  simp only [ContractService.swept, Table.get?_mapOn, Option.map_eq_some_iff] at hcar
  obtain ⟨old, hold, rfl⟩ := hcar
  split
  · rfl
  · exact h k old hold

theorem Read.reconciled (hread : Read env db db') (h : Reconciled env.today db) :
    Reconciled env.today db' := by
  cases hread with
  | nothing hdb => exact hdb ▸ h
  | car k hdb =>
    rw [hdb, h.reconcile]
    exact h
  | cars hdb =>
    rw [hdb, h.reconcileAll]
    exact h
  | sweep hsweep =>
    rw [DashboardService.autoActivateContracts_ok hsweep]
    exact h.swept _

/-! ### At rest -/

/-- At rest a read writes nothing. -/
theorem AtRest.read (h : AtRest env.now db) (hread : Read env db db') : db' = db := by
  cases hread with
  | nothing hdb => exact hdb
  | car k hdb =>
    rw [hdb]
    exact h.reconciled.reconcile k
  | cars hdb =>
    rw [hdb]
    exact h.reconciled.reconcileAll
  | sweep hsweep =>
    have hidle := autoActivateContracts_idle h.served
    exact Except.ok.inj (hsweep.symm.trans hidle)

/-- A sweep over a reconciled column brings the tables to rest. -/
theorem AtRest.of_sweep (h : Reconciled env.today db)
    (hsweep : autoActivateContracts env db = .ok db') : AtRest env.now db' := by
  rw [DashboardService.autoActivateContracts_ok hsweep]
  exact ⟨h.swept _, fun p => no_due_available⟩

theorem AtRest.runCalls {calls : List (Env × Call)} (h : AtRest now w.db)
    (hreads : ∀ c ∈ calls, c.2.reads = true) (htime : ∀ c ∈ calls, c.1.now = now) :
    (runCalls calls w).db = w.db := by
  induction calls generalizing w with
  | nil => rfl
  | cons c rest ih =>
    have hrest : AtRest c.1.now w.db := htime c List.mem_cons_self ▸ h
    have hsame : c.2.commit c.1 w.db = w.db :=
      hrest.read (Call.commit_read (hreads c List.mem_cons_self))
    have hstep : CarRental.runCalls (c :: rest) w = CarRental.runCalls rest ⟨c.1.now, w.db⟩ := by
      simp only [CarRental.runCalls, List.foldl_cons, hsame]
    rw [hstep]
    exact ih h (fun c hc => hreads c (List.mem_cons_of_mem _ hc))
      fun c hc => htime c (List.mem_cons_of_mem _ hc)

theorem reconciled_runCalls {calls : List (Env × Call)} (h : Reconciled now.toLocalDate w.db)
    (hreads : ∀ c ∈ calls, c.2.reads = true) (htime : ∀ c ∈ calls, c.1.now = now) :
    Reconciled now.toLocalDate (runCalls calls w).db := by
  induction calls generalizing w with
  | nil => exact h
  | cons c rest ih =>
    refine ih (w := ⟨c.1.now, c.2.commit c.1 w.db⟩) ?_
      (fun c hc => hreads c (List.mem_cons_of_mem _ hc))
      fun c hc => htime c (List.mem_cons_of_mem _ hc)
    have hnow : c.1.today = now.toLocalDate := by rw [Env.today, htime c List.mem_cons_self]
    rw [← hnow] at h ⊢
    exact (Call.commit_read (hreads c List.mem_cons_self)).reconciled h

/-- **Reads settle.** Let the cars be listed in a reachable state, and let a read of the contracts
return later at the same instant, with any reads in between. Then every read after it, at that
instant and whatever it lists or finds faulty, leaves the tables as they are. -/
theorem reads_settle (h : Reachable w) (listing sweeping : Env × Call)
    (between after : List (Env × Call)) (hlisting : refreshes listing.2 = true)
    (hbetween : ∀ c ∈ between, c.2.reads = true)
    (hsweeping : sweeping.2.sweeps = true)
    (hreturns : sweeping.2.exec sweeping.1 (runCalls (listing :: between) w).db = .ok db)
    (hafter : ∀ c ∈ after, c.2.reads = true)
    (htime : ∀ c ∈ listing :: between ++ sweeping :: after, c.1.now = now) :
    AtRest now db ∧ (runCalls after ⟨now, db⟩).db = db := by
  simp only [List.cons_append, List.forall_mem_cons, List.forall_mem_append] at htime
  obtain ⟨hnow, htime, hsnow, htime'⟩ := htime
  have hlisted : Reconciled now.toLocalDate (listing.2.commit listing.1 w.db) := by
    rw [refreshes_commit (inv_of_reachable h) hlisting, ← hnow]
    exact reconciled_reconcileAll _ _
  have hready : Reconciled sweeping.1.today (runCalls (listing :: between) w).db := by
    rw [Env.today, hsnow]
    exact reconciled_runCalls (w := ⟨listing.1.now, _⟩) hlisted hbetween htime
  have hrest := AtRest.of_sweep hready (Call.sweeps_exec hsweeping hreturns)
  rw [hsnow] at hrest
  exact ⟨hrest, hrest.runCalls hafter htime'⟩

/-- A reservation for the day after the car has left the workshop. -/
def dayAfterWorkshop : List (Env × Call) :=
  fleetOfOne ++
    [(.atTime 0, .maintenanceCreate
        { carId := 1, type := "Freins", startDate := some 0, endDate := some 0
          cost := some ⟨5, 0⟩ }),
     (.atTime 0, .contractCreate (booking secondsPerDay (some (2 * secondsPerDay)) 10000))]

/-- The listing of the cars frees the car, the reading of the contracts hands it over. -/
theorem reads_settle_dayAfterWorkshop : ∃ db c,
    Call.contractFindAll.exec (.atTime secondsPerDay)
      (runCalls [(.atTime secondsPerDay, .carFindAll)] (World.after dayAfterWorkshop)).db =
        .ok db ∧
    db.contracts.get? 1 = some c ∧ c.status = .active ∧
    (runCalls [(.atTime secondsPerDay, .carFindAll), (.atTime secondsPerDay, .contractFindAll)]
      ⟨secondsPerDay, db⟩).db = db := by
  have hreach : Reachable (World.after dayAfterWorkshop) :=
    reachable_after dayAfterWorkshop (by decide)
  exact ⟨_, _, rfl, rfl, rfl, (reads_settle hreach (.atTime secondsPerDay, .carFindAll)
    (.atTime secondsPerDay, .contractFindAll) [] _ rfl (by simp) rfl rfl (by simp [Call.reads])
    (by simp [Env.atTime])).2⟩

end CarRental
