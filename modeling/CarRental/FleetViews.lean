import CarRental.Calendar
import CarRental.StatusColumn
import CarRental.Service.Dashboard

/-!
# CarRental.FleetViews

The fleet is **shown three ways**: by the status column as the lists of
`CarService` return it, by the calendar (`CarService.availabilityOnDate`), and by
the figures of the dashboard (`DashboardService.stats`).

* The calendar goes by the dates of the contracts and not by the column, so a car
  that is out beyond the dates of its contract is offered again
  (`rented_offered`). Within them it is not (`rented_not_offered`).
* The calendar does not look at the completion flag of a maintenance and the
  column does: `maintenance_views_agree_iff` says when the two agree.
* The dashboard counts the column without refreshing it:
  `stats_agree_iff` says when its figures are those of the lists.
-/

namespace CarRental

open Lib Desk ContractService CarService MaintenanceService

variable {w : World} {env : Env} {db : Db} {date today : LocalDate} {k : Id} {car : Car}
  {c : Contract} {m : Maintenance} {status : CarStatus}

/-! ### What the calendar reports -/

/-- The calendar reports the car with this status on `date`. -/
def Reports (env : Env) (date : LocalDate) (db : Db) (k : Id) (status : CarStatus) : Prop :=
  ∃ item ∈ availabilityOnDate env date db, item.carId = k ∧ item.currentStatus = status

/-- The contract is one of those that the calendar lists for the car, and covers `date`. -/
def Covers (db : Db) (date : LocalDate) (k i : Id) : Prop :=
  ∃ c, db.contracts.get? i = some c ∧ c.deleted = false ∧ c.carId = k ∧
    (c.status = .inProgress ∨ c.status = .active ∨ c.status = .completed) ∧
    contractCoversDate c date = true

/-- A maintenance of the car has dates that include `date`. -/
def InWorkshop (db : Db) (date : LocalDate) (k : Id) : Prop :=
  ∃ i m, db.maintenances.get? i = some m ∧ m.carId = k ∧ maintenanceCoversDate m date = true

theorem availability_carId {contracts : List (Id × Contract)} :
    (availability db contracts date k car).carId = k := by
  dsimp only [availability]
  split
  · rfl
  · split <;> rfl

theorem reports_iff (hcar : db.cars.get? k = some car) :
    Reports env date db k status ↔
      (availability db (ContractRepository.findByDeletedFalse env db) date k car).currentStatus =
        status := by
  constructor
  · intro hreports
    obtain ⟨item, hitem, hk, hst⟩ := hreports
    obtain ⟨⟨id, row⟩, hrow, rfl⟩ := List.mem_map.mp hitem
    obtain rfl : id = k := availability_carId.symm.trans hk
    obtain rfl : row = car := Option.some.inj ((Table.mem_rows.mp hrow).symm.trans hcar)
    exact hst
  · intro hst
    exact ⟨_, List.mem_map_of_mem (Table.mem_rows.mpr hcar), availability_carId, hst⟩

theorem inWorkshop_iff : InWorkshop db date k ↔
    (db.maintenances.any fun _ m => m.carId = k && maintenanceCoversDate m date) = true := by
  rw [Table.any_iff]
  simp [InWorkshop]

theorem covers_iff (env : Env) : (∃ i, Covers db date k i) ↔
    ((ContractRepository.findByDeletedFalse env db).any fun c => c.2.carId = k &&
      (c.2.status = .inProgress || c.2.status = .active || c.2.status = .completed) &&
      contractCoversDate c.2 date) = true := by
  have hlisted : ∀ i c, (i, c) ∈ ContractRepository.findByDeletedFalse env db ↔
      db.contracts.get? i = some c ∧ c.deleted = false := by
    intro i c
    rw [ContractRepository.findByDeletedFalse, (env.listing_perm _).mem_iff, Table.mem_select]
    simp
  simp only [List.any_eq_true, Prod.exists, hlisted, Covers, Bool.and_eq_true, Bool.or_eq_true,
    decide_eq_true_eq, and_assoc, or_assoc]

/-- The calendar reports a maintenance exactly when the dates of one include the day. -/
theorem reports_maintenance_iff (hcar : db.cars.get? k = some car) :
    Reports env date db k .maintenance ↔ InWorkshop db date k := by
  rw [reports_iff hcar, inWorkshop_iff]
  dsimp only [availability]
  split
  · next hin => simp [hin]
  · next hin => split <;> simp [hin]

/-- The calendar offers a car that neither a maintenance nor a contract holds on the day. -/
theorem reports_available_iff (hcar : db.cars.get? k = some car) :
    Reports env date db k .available ↔
      ¬ InWorkshop db date k ∧ ¬ ∃ i, Covers db date k i := by
  rw [reports_iff hcar, inWorkshop_iff, covers_iff env]
  dsimp only [availability]
  split
  · next hin => simp [hin]
  · next hin =>
    split
    · next hcov => simp [hin, hcov]
    · next hcov => simp [hin, hcov]

/-! ### A car that is out -/

/-- By its dates the contract is out on `date`: it has left by then, and its actual or else
its expected return, if it has one, is not before. -/
def OutOn (date : LocalDate) (c : Contract) : Prop :=
  (∃ departure, c.departureDatetime = some departure ∧ departure.toLocalDate ≤ date) ∧
  ∀ fin, (c.actualReturnDatetime <|> c.expectedReturnDatetime) = some fin →
    date ≤ fin.toLocalDate

theorem contractCoversDate_iff_outOn (hst : c.status ≠ .completed) :
    contractCoversDate c date = true ↔ OutOn date c := by
  cases hdep : c.departureDatetime with
  | none => simp [contractCoversDate, OutOn, hdep]
  | some departure =>
    cases hfin : (c.actualReturnDatetime <|> c.expectedReturnDatetime) with
    | none => simp [contractCoversDate, OutOn, hdep, hfin]
    | some fin => simp [contractCoversDate, OutOn, hdep, hfin, hst]

/-- A reservation for days 10 to 12 that is handed over on day 0. -/
def earlyHandover : List (Env × Call) :=
  fleetOfOne ++
    [(.atTime 0, .contractCreate
        (booking (10 * secondsPerDay) (some (12 * secondsPerDay)) 10000)),
     (.atTime 0, .updateStatus 1 .active)]

/-- A rental for days 0 to 5 whose actual return is filled in as day 1. -/
def prefilledReturn : List (Env × Call) :=
  fleetOfOne ++
    [(.atTime 0, .contractCreate
        { booking 0 (some (5 * secondsPerDay)) 10000 with
          actualReturnDatetime := some secondsPerDay })]

/-- A rented car is offered on the current day: when its return is late, when it was handed
over before its departure date, and when an actual return was filled in while it is out. -/
theorem rented_offered :
    (Reachable (World.after firstRental) ∧
      (∃ car, (World.after firstRental).db.cars.get? 1 = some car ∧ car.status = .rented) ∧
      Reports (.atTime (3 * secondsPerDay)) 3 (World.after firstRental).db 1 .available) ∧
    (Reachable (World.after earlyHandover) ∧
      (∃ car, (World.after earlyHandover).db.cars.get? 1 = some car ∧ car.status = .rented) ∧
      Reports (.atTime 0) 0 (World.after earlyHandover).db 1 .available) ∧
    (Reachable (World.after prefilledReturn) ∧
      (∃ car, (World.after prefilledReturn).db.cars.get? 1 = some car ∧ car.status = .rented) ∧
      Reports (.atTime (2 * secondsPerDay)) 2 (World.after prefilledReturn).db 1 .available) := by
  refine ⟨⟨firstRental_reachable, ⟨_, rfl, rfl⟩, ?_⟩,
    ⟨reachable_after earlyHandover (by decide), ⟨_, rfl, rfl⟩, ?_⟩,
    ⟨reachable_after prefilledReturn (by decide), ⟨_, rfl, rfl⟩, ?_⟩⟩
  all_goals exact ⟨_, List.mem_singleton.mpr rfl, rfl, by decide⟩

/-- **A car that is out on the dates of its contract is not offered.** A rented car has one
running contract. On a day that the dates of this contract include, the calendar does not
report the car as available; on another day it does, unless a maintenance or another contract
of the car covers the day. -/
theorem rented_not_offered (h : Reachable w) (hcar : w.db.cars.get? k = some car)
    (hrented : car.status = .rented) (env : Env) :
    ∃ i c, w.db.contracts.get? i = some c ∧ c.carId = k ∧ c.status = .active ∧
      (∀ j, RunsOn w.db.contracts j k → j = i) ∧
      (OutOn env.today c → ¬ Reports env env.today w.db k .available ∧
        ∀ item ∈ availableOnDate env env.today w.db, item.carId ≠ k) ∧
      (¬ OutOn env.today c → (Reports env env.today w.db k .available ↔
        ¬ InWorkshop w.db env.today k ∧ ¬ ∃ j, j ≠ i ∧ Covers w.db env.today k j)) := by
  have hI := inv_of_reachable h
  obtain ⟨i, hruns⟩ := (hI.rented (out_of_get? hcar)).mp (by simpa using hrented)
  have hruns' := hruns
  obtain ⟨c, hc, hk, hact⟩ := hruns'
  have hcovers : Covers w.db env.today k i ↔ OutOn env.today c := by
    rw [← contractCoversDate_iff_outOn (by rw [hact]; decide)]
    constructor
    · rintro ⟨c', hc', -, -, -, hcov⟩
      rwa [Option.some.inj (hc'.symm.trans hc)] at hcov
    · intro hcov
      exact ⟨c, hc, hI.activeNotDeleted hc hact, hk, Or.inr (Or.inl hact), hcov⟩
  have hnot : OutOn env.today c → ¬ Reports env env.today w.db k .available := by
    intro hout hreports
    exact ((reports_available_iff hcar).mp hreports).2 ⟨i, hcovers.mpr hout⟩
  refine ⟨i, c, hc, hk, hact, fun j hj => hI.runsOnUnique hj hruns, fun hout => ?_, fun hin => ?_⟩
  · refine ⟨hnot hout, fun item hitem hid => hnot hout ?_⟩
    obtain ⟨hmem, hst⟩ := List.mem_filter.mp hitem
    exact ⟨item, hmem, hid, by simpa using hst⟩
  · rw [reports_available_iff hcar]
    refine and_congr_right fun _ => not_congr ⟨?_, ?_⟩
    · rintro ⟨j, hj⟩
      refine ⟨j, ?_, hj⟩
      rintro rfl
      exact hin (hcovers.mp hj)
    · rintro ⟨j, -, hj⟩
      exact ⟨j, hj⟩

/-- On the day it leaves, the first rental is not offered. -/
theorem rented_not_offered_firstRental :
    ∃ car, (World.after firstRental).db.cars.get? 1 = some car ∧ car.status = .rented ∧
      ¬ Reports (.atTime 0) 0 (World.after firstRental).db 1 .available := by
  obtain ⟨car, hcar, hst⟩ : ∃ car, (World.after firstRental).db.cars.get? 1 = some car ∧
      car.status = .rented := ⟨_, rfl, rfl⟩
  obtain ⟨i, c, hc, -, hact, -, hout, -⟩ :=
    rented_not_offered firstRental_reachable hcar hst (.atTime 0)
  refine ⟨car, hcar, hst, (hout ?_).1⟩
  -- the only contract of the table
  have hmem := Table.mem_rows.mpr hc
  obtain ⟨-, rfl⟩ := Prod.mk.inj (List.mem_singleton.mp hmem)
  exact (contractCoversDate_iff_outOn (by decide)).mp (by decide)

/-! ### A car in the workshop -/

/-- The column and the calendar read the dates of a maintenance alike; only the column looks
at its completion. -/
theorem isOngoing_iff : isOngoing date m = true ↔
    m.status ≠ .completed ∧ maintenanceCoversDate m date = true := by
  by_cases hst : m.status = .completed
  · simp [isOngoing, hst]
  · cases hstart : m.startDate <;> cases hend : m.endDate <;>
      simp [isOngoing, maintenanceCoversDate, hst, hstart, hend]

/-- A maintenance for days 0 to 5 that is completed on day 0 keeps its end date. -/
def completedEarly : List (Env × Call) :=
  fleetOfOne ++
    [(.atTime 0, .maintenanceCreate
        { carId := 1, type := "Vidange", startDate := some 0, endDate := some 5
          cost := some ⟨0, 0⟩ }),
     (.atTime 0, .maintenanceComplete 1)]

/-- On the same day and on the next, the column says available and the calendar maintenance. -/
theorem maintenance_views_disagree :
    Reachable (World.after completedEarly) ∧ ∀ now ∈ [0, secondsPerDay],
      (∃ car, (reconcileAllCarStatuses (Env.atTime now).today
          (World.after completedEarly).db).cars.get? 1 = some car ∧ car.status = .available) ∧
      Reports (.atTime now) (Env.atTime now).today (reconcileAllCarStatuses
        (Env.atTime now).today (World.after completedEarly).db) 1 .maintenance := by
  refine ⟨reachable_after completedEarly (by decide), fun now hnow => ?_⟩
  simp only [List.mem_cons, List.not_mem_nil, or_false] at hnow
  rcases hnow with rfl | rfl <;>
    exact ⟨⟨_, rfl, rfl⟩, _, List.mem_singleton.mpr rfl, rfl, by decide⟩

/-- **When the column and the calendar agree on maintenance.** After a reconciliation on a
day, a car that is not rented has status `MAINTENANCE` exactly when the calendar reports one
for that day, if and only if each of its completed maintenances whose dates include the day
is accompanied by one that is not completed. -/
theorem maintenance_views_agree_iff (env : Env) (db : Db)
    (hcar : (reconcileAllCarStatuses env.today db).cars.get? k = some car)
    (hrented : car.status ≠ .rented) :
    (car.status = .maintenance ↔
      Reports env env.today (reconcileAllCarStatuses env.today db) k .maintenance) ↔
    ∀ i m, db.maintenances.get? i = some m → m.carId = k → m.status = .completed →
      maintenanceCoversDate m env.today = true →
        ∃ j m', db.maintenances.get? j = some m' ∧ m'.carId = k ∧ m'.status ≠ .completed ∧
          maintenanceCoversDate m' env.today = true := by
  have hcolumn : car.status = .maintenance ↔
      ∃ i m, db.maintenances.get? i = some m ∧ m.carId = k ∧ m.status ≠ .completed ∧
        maintenanceCoversDate m env.today = true := by
    simp only [← isOngoing_iff, ← hasOngoingMaintenance_iff]
    rw [reconcileAll_get?, Option.map_eq_some_iff] at hcar
    obtain ⟨old, -, rfl⟩ := hcar
    have hold : old.status ≠ .rented := by
      intro hst
      exact hrented (by simp [reconciledCar, hst])
    by_cases hon : hasOngoingMaintenance env.today db k = true
    · simp [reconciledCar, hold, statusWhenNotRented, hon]
    · simp [reconciledCar, hold, statusWhenNotRented, hon]
  rw [reports_maintenance_iff hcar, InWorkshop, reconcileAll_maintenances, hcolumn]
  constructor
  · intro hagree i m hm hk _ hcov
    exact hagree.mpr ⟨i, m, hm, hk, hcov⟩
  · intro hcomplete
    constructor
    · rintro ⟨i, m, hm, hk, -, hcov⟩
      exact ⟨i, m, hm, hk, hcov⟩
    · rintro ⟨i, m, hm, hk, hcov⟩
      by_cases hst : m.status = .completed
      · exact hcomplete i m hm hk hst hcov
      · exact ⟨i, m, hm, hk, hst, hcov⟩

/-- On the day of the planned maintenance the two agree. -/
theorem maintenance_views_agree_planned :
    ∃ car, (reconcileAllCarStatuses 1 (World.after plannedMaintenance).db).cars.get? 1 =
        some car ∧ car.status ≠ .rented ∧
      (car.status = .maintenance ↔ Reports (.atTime secondsPerDay) 1
        (reconcileAllCarStatuses 1 (World.after plannedMaintenance).db) 1 .maintenance) := by
  obtain ⟨car, hcar, hst⟩ : ∃ car, (reconcileAllCarStatuses (Env.atTime secondsPerDay).today
      (World.after plannedMaintenance).db).cars.get? 1 = some car ∧ car.status ≠ .rented :=
    ⟨_, rfl, by decide⟩
  refine ⟨car, hcar, hst, (maintenance_views_agree_iff (.atTime secondsPerDay) _ hcar hst).mpr ?_⟩
  intro i m hm _ hdone
  obtain ⟨-, rfl⟩ := Prod.mk.inj (List.mem_singleton.mp (Table.mem_rows.mpr hm))
  exact absurd hdone (by decide)

/-! ### The figures of the dashboard -/

/-- A car marked available that is under maintenance. -/
def unmarked (today : LocalDate) (db : Db) (r : Id × Car) : Bool :=
  r.2.status = .available && hasOngoingMaintenance today db r.1

/-- A car marked under maintenance whose maintenance is over. -/
def overdue (today : LocalDate) (db : Db) (r : Id × Car) : Bool :=
  r.2.status = .maintenance && !hasOngoingMaintenance today db r.1

/-- How many of the rows have the status. -/
def countOf (status : CarStatus) (rows : List (Id × Car)) : Nat :=
  (rows.filter fun r => r.2.status = status).length

/-- What reconciling makes of the rows. -/
def reconciledRows (today : LocalDate) (db : Db) (rows : List (Id × Car)) : List (Id × Car) :=
  rows.map fun r => (r.1, reconciledCar today db r.1 r.2)

/-- Reconciling moves the overdue cars to `AVAILABLE` and the unmarked ones to `MAINTENANCE`. -/
theorem reconcile_counts (today : LocalDate) (db : Db) (rows : List (Id × Car)) :
    countOf .rented (reconciledRows today db rows) = countOf .rented rows ∧
    countOf .available (reconciledRows today db rows) + (rows.filter (unmarked today db)).length =
      countOf .available rows + (rows.filter (overdue today db)).length ∧
    countOf .maintenance (reconciledRows today db rows) + (rows.filter (overdue today db)).length =
      countOf .maintenance rows + (rows.filter (unmarked today db)).length := by
  induction rows with
  | nil => simp [countOf, reconciledRows]
  | cons r rest ih =>
    obtain ⟨hrented, havail, hmain⟩ := ih
    simp only [countOf, reconciledRows] at hrented havail hmain ⊢
    -- one row: by its status and by whether a maintenance of its car is ongoing
    cases hst : r.2.status <;> cases hon : hasOngoingMaintenance today db r.1 <;>
      simp [reconciledCar, statusWhenNotRented, unmarked, overdue, hst, hon]
        at hrented havail hmain ⊢ <;> omega

theorem findAll_length (env : Env) (db : Db) :
    (CarService.findAll env db).1.length = db.cars.rows.length := by
  simp [CarService.findAll, reconcileAll_rows]

theorem findByStatus_length (env : Env) (status : CarStatus) (db : Db) :
    (CarService.findByStatus env status db).1.length =
      countOf status (reconciledRows env.today db db.cars.rows) := by
  simp only [CarService.findByStatus, CarRepository.findByStatus, Table.select, reconcileAll_rows,
    List.length_map, countOf, reconciledRows]

/-- On the day of the planned maintenance nothing has been read: the dashboard counts the car
as available, and the lists say otherwise. -/
theorem stats_disagree :
    Reachable (World.after plannedMaintenance) ∧
    (DashboardService.stats (World.after plannedMaintenance).db).available = 1 ∧
    (CarService.findByStatus (.atTime secondsPerDay) .available
      (World.after plannedMaintenance).db).1.length = 0 ∧
    (DashboardService.stats (World.after plannedMaintenance).db).maintenance = 0 ∧
    (CarService.findByStatus (.atTime secondsPerDay) .maintenance
      (World.after plannedMaintenance).db).1.length = 1 :=
  ⟨reachable_after plannedMaintenance (by decide), by decide, by decide, by decide, by decide⟩

/-- **When the dashboard and the lists agree.** The four figures of the fleet are the lengths
of the lists read at the same moment if and only if as many cars marked available are under
maintenance as there are cars marked under maintenance whose maintenance is over. The total
and the rented cars agree in any case. -/
theorem stats_agree_iff (env : Env) (db : Db) :
    ((DashboardService.stats db).totalCars = (CarService.findAll env db).1.length ∧
      (DashboardService.stats db).rented = (CarService.findByStatus env .rented db).1.length) ∧
    ((DashboardService.stats db).totalCars = (CarService.findAll env db).1.length ∧
      (DashboardService.stats db).available =
        (CarService.findByStatus env .available db).1.length ∧
      (DashboardService.stats db).rented = (CarService.findByStatus env .rented db).1.length ∧
      (DashboardService.stats db).maintenance =
        (CarService.findByStatus env .maintenance db).1.length ↔
    (db.cars.rows.filter (unmarked env.today db)).length =
      (db.cars.rows.filter (overdue env.today db)).length) := by
  obtain ⟨hrented, havail, hmain⟩ := reconcile_counts env.today db db.cars.rows
  have hstored : ∀ status, (CarRepository.findByStatus db status).length =
      countOf status db.cars.rows := fun _ => rfl
  simp only [DashboardService.stats, hstored, findAll_length, findByStatus_length, true_and]
  refine ⟨hrented.symm, ?_⟩
  constructor
  · rintro ⟨heq, -, -⟩
    omega
  · intro hstale
    exact ⟨by omega, hrented.symm, by omega⟩

end CarRental
