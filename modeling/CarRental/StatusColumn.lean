import CarRental.Rental

/-!
# CarRental.StatusColumn

The status column of a car as a **cache** of the contract and maintenance tables.

`CarService.findAll` refreshes it: afterwards the column is what the two tables say
(`findAll_derives`). In between it goes stale, because a maintenance starts by the
mere passing of days and because the end of a rental writes `AVAILABLE` without
looking at the maintenances. The contract service reads the column as it is, so a
car can leave during a maintenance (`rental_under_maintenance`). It cannot in a run
that refreshes the column when a new day has made it stale and ends no rental
during a maintenance (`no_rental_under_maintenance`); `Fresh` is the invariant of
such runs.
-/

namespace CarRental

open Lib Desk ContractService MaintenanceService

variable {w : World} {env : Env} {a : Action} {db db' : Db} {today : LocalDate} {id j k : Id}

/-! ### Reconciling, row by row -/

/-- What reconciling makes of a car. -/
def reconciledCar (today : LocalDate) (db : Db) (id : Id) (car : Car) : Car :=
  if car.status = .rented then car else { car with status := statusWhenNotRented today db id }

theorem statusWhenNotRented_ne_rented : statusWhenNotRented today db id ≠ .rented := by
  unfold statusWhenNotRented
  split <;> decide

/-- Reconciling marks no car available that is under maintenance. -/
theorem reconciledCar_available {car : Car}
    (h : (reconciledCar today db id car).status = .available) :
    hasOngoingMaintenance today db id = false := by
  by_cases hrented : car.status = .rented
  · simp [reconciledCar, hrented] at h
  · by_contra hon
    simp [reconciledCar, hrented, statusWhenNotRented, hon] at h

theorem reconciledCar_idem {car : Car} :
    reconciledCar today db id (reconciledCar today db id car) = reconciledCar today db id car := by
  by_cases hrented : car.status = .rented
  · simp [reconciledCar, hrented]
  · simp [reconciledCar, hrented, statusWhenNotRented_ne_rented]

theorem reconciledCar_congr (h : db'.maintenances = db.maintenances) (id : Id) :
    reconciledCar today db' id = reconciledCar today db id := by
  funext car
  unfold reconciledCar statusWhenNotRented
  rw [hasOngoingMaintenance_congr h]

theorem reconcile_maintenances :
    (reconcileCarStatus today id db).maintenances = db.maintenances := by
  obtain ⟨cars, hframe⟩ := reconcileCarStatus_frame today id db
  rw [hframe]

/-- One reconciliation, seen from any row. -/
theorem reconcile_get? : (reconcileCarStatus today id db).cars.get? j =
    if j = id then (db.cars.get? j).map (reconciledCar today db j) else db.cars.get? j := by
  cases hcar : db.cars.get? id with
  | none =>
    rw [reconcileCarStatus_none hcar]
    split
    · next hj => rw [hj, hcar]; rfl
    · rfl
  | some car =>
    by_cases hrented : car.status = .rented
    · rw [reconcileCarStatus_rented hcar hrented]
      split
      · next hj => simp [hj, hcar, reconciledCar, hrented]
      · rfl
    · rw [reconcileCarStatus_eq hcar hrented]
      split
      · next hj =>
        subst hj
        simp [Table.get?_set_self hcar, hcar, reconciledCar, hrented]
      · next hj => exact Table.get?_set_ne hj

/-- The whole loop, seen from any row. The maintenances do not change on the way, so it does
not matter how often a car comes up. -/
theorem foldl_reconcile_get? (ids : List Id) (db : Db) (j : Id) :
    (ids.foldl (fun db id => reconcileCarStatus today id db) db).cars.get? j =
      if j ∈ ids then (db.cars.get? j).map (reconciledCar today db j) else db.cars.get? j := by
  induction ids generalizing db with
  | nil => simp
  | cons id rest ih =>
    rw [List.foldl_cons, ih, reconciledCar_congr reconcile_maintenances, reconcile_get?]
    by_cases hj : j = id
    · subst hj
      by_cases hrest : j ∈ rest
      · simp [hrest, Function.comp_def, reconciledCar_idem]
      · simp [hrest]
    · simp [hj]

/-- One reconciliation, as a pass over the rows. -/
theorem reconcile_rows : (reconcileCarStatus today id db).cars.rows =
    db.cars.rows.map fun r => if r.1 = id then (r.1, reconciledCar today db r.1 r.2) else r := by
  have hkeep : (∀ r ∈ db.cars.rows, r.1 = id → reconciledCar today db r.1 r.2 = r.2) →
      db.cars.rows = db.cars.rows.map fun r =>
        if r.1 = id then (r.1, reconciledCar today db r.1 r.2) else r := by
    intro hsame
    refine (List.map_id _).symm.trans (List.map_congr_left fun r hr => ?_)
    split
    · next hid => rw [hsame r hr hid, id_eq]
    · rfl
  cases hcar : db.cars.get? id with
  | none =>
    rw [reconcileCarStatus_none hcar]
    refine hkeep fun r hr hid => ?_
    rw [← hid, Table.mem_rows.mp hr] at hcar
    exact absurd hcar (by simp)
  | some car =>
    by_cases hrented : car.status = .rented
    · rw [reconcileCarStatus_rented hcar hrented]
      refine hkeep fun r hr hid => ?_
      rw [← hid, Table.mem_rows.mp hr, Option.some.injEq] at hcar
      simp [reconciledCar, hcar, hrented]
    · rw [reconcileCarStatus_eq hcar hrented]
      refine List.map_congr_left fun r hr => ?_
      split
      · next hid =>
        rw [← hid, Table.mem_rows.mp hr, Option.some.injEq] at hcar
        simp [reconciledCar, hcar, hrented, hid]
      · rfl

/-- The whole loop, as a pass over the rows. -/
theorem foldl_reconcile_rows (ids : List Id) (db : Db) :
    (ids.foldl (fun db id => reconcileCarStatus today id db) db).cars.rows =
      db.cars.rows.map fun r =>
        if r.1 ∈ ids then (r.1, reconciledCar today db r.1 r.2) else r := by
  induction ids generalizing db with
  | nil => simp
  | cons id rest ih =>
    rw [List.foldl_cons, ih, reconcile_rows, List.map_map]
    refine List.map_congr_left fun r _ => ?_
    rw [Function.comp_apply, reconciledCar_congr reconcile_maintenances]
    by_cases hid : r.1 = id
    · by_cases hrest : id ∈ rest
      · simp [hid, hrest, reconciledCar_idem]
      · simp [hid, hrest]
    · simp [hid]

theorem foldl_reconcile_frame (ids : List Id) (db : Db) :
    ∃ cars, ids.foldl (fun db id => reconcileCarStatus today id db) db =
      { db with cars := cars } := by
  induction ids generalizing db with
  | nil => exact ⟨db.cars, rfl⟩
  | cons id rest ih =>
    obtain ⟨cars, hfirst⟩ := reconcileCarStatus_frame today id db
    obtain ⟨cars', hrest⟩ := ih { db with cars := cars }
    exact ⟨cars', by rw [List.foldl_cons, hfirst, hrest]⟩

theorem reconcileAll_get? : (reconcileAllCarStatuses today db).cars.get? j =
    (db.cars.get? j).map (reconciledCar today db j) := by
  unfold reconcileAllCarStatuses
  rw [foldl_reconcile_get?]
  split
  · rfl
  · next hmem =>
    -- a key that is not listed has no row
    cases hcar : db.cars.get? j with
    | none => rfl
    | some car => exact absurd (List.mem_map_of_mem (Table.mem_rows.mpr hcar)) hmem

theorem reconcileAll_rows : (reconcileAllCarStatuses today db).cars.rows =
    db.cars.rows.map fun r => (r.1, reconciledCar today db r.1 r.2) := by
  unfold reconcileAllCarStatuses
  rw [foldl_reconcile_rows]
  refine List.map_congr_left fun r hr => ?_
  rw [if_pos (List.mem_map_of_mem hr)]

theorem reconcileAll_frame (today : LocalDate) (db : Db) : ∃ cars,
    reconcileAllCarStatuses today db = { db with cars := cars } :=
  foldl_reconcile_frame _ db

theorem reconcileAll_maintenances :
    (reconcileAllCarStatuses today db).maintenances = db.maintenances := by
  obtain ⟨cars, hframe⟩ := reconcileAll_frame today db
  rw [hframe]

/-- Where every car is as reconciling would have it, reconciling does nothing. -/
theorem foldl_reconcile_id (ids : List Id)
    (h : ∀ j car, db.cars.get? j = some car → reconciledCar today db j car = car) :
    ids.foldl (fun db id => reconcileCarStatus today id db) db = db := by
  have hone : ∀ id, reconcileCarStatus today id db = db := by
    intro id
    cases hcar : db.cars.get? id with
    | none => exact reconcileCarStatus_none hcar
    | some car =>
      by_cases hrented : car.status = .rented
      · exact reconcileCarStatus_rented hcar hrented
      · have hfix := h id car hcar
        rw [reconciledCar, if_neg hrented] at hfix
        rw [reconcileCarStatus_eq hcar hrented, hfix, Table.set_get? hcar]
  induction ids with
  | nil => rfl
  | cons id rest ih => rw [List.foldl_cons, hone, ih]

theorem reconcileAll_idem :
    reconcileAllCarStatuses today (reconcileAllCarStatuses today db) =
      reconcileAllCarStatuses today db := by
  refine foldl_reconcile_id _ ?_
  intro j car hcar
  rw [reconcileAll_get?, Option.map_eq_some_iff] at hcar
  obtain ⟨old, -, rfl⟩ := hcar
  rw [reconciledCar_congr reconcileAll_maintenances, reconciledCar_idem]

/-! ### After a read of the cars -/

/-- **The status column is a cache.** After `CarService.findAll` on a day, a car is `RENTED`
exactly when it has an `ACTIVE` contract, otherwise `MAINTENANCE` exactly when one of its
maintenances is ongoing on that day, otherwise `AVAILABLE`. The call keeps the cars and writes
no other table, and on the same day it does nothing twice. -/
theorem findAll_derives (h : Reachable w) (env : Env) :
    (∀ k car, (CarService.findAll env w.db).2.cars.get? k = some car →
      (car.status = .rented ↔ ∃ i, RunsOn w.db.contracts i k) ∧
      (car.status = .maintenance ↔ (¬ ∃ i, RunsOn w.db.contracts i k) ∧
        ∃ i m, w.db.maintenances.get? i = some m ∧ m.carId = k ∧ isOngoing env.today m = true) ∧
      (car.status = .available ↔ (¬ ∃ i, RunsOn w.db.contracts i k) ∧
        ¬ ∃ i m, w.db.maintenances.get? i = some m ∧ m.carId = k ∧
          isOngoing env.today m = true)) ∧
    (∀ k, ((CarService.findAll env w.db).2.cars.get? k).isSome = (w.db.cars.get? k).isSome) ∧
    (∃ cars, (CarService.findAll env w.db).2 = { w.db with cars := cars }) ∧
    ∀ env' : Env, env'.today = env.today →
      CarService.findAll env' (CarService.findAll env w.db).2 = CarService.findAll env w.db := by
  have hI := inv_of_reachable h
  refine ⟨fun k car hcar => ?_, fun k => ?_, reconcileAll_frame _ _, fun env' hday => ?_⟩
  · change (reconcileAllCarStatuses env.today w.db).cars.get? k = some car at hcar
    rw [reconcileAll_get?, Option.map_eq_some_iff] at hcar
    obtain ⟨old, hold, rfl⟩ := hcar
    have hrented : old.status = .rented ↔ ∃ i, RunsOn w.db.contracts i k := by
      rw [← hI.rented (out_of_get? hold), decide_eq_true_eq]
    rw [← hrented, ← hasOngoingMaintenance_iff]
    by_cases hr : old.status = .rented
    · simp [reconciledCar, hr]
    · by_cases hon : hasOngoingMaintenance env.today w.db k = true
      · simp [reconciledCar, hr, statusWhenNotRented, hon]
      · simp [reconciledCar, hr, statusWhenNotRented, hon]
  · change ((reconcileAllCarStatuses env.today w.db).cars.get? k).isSome = _
    rw [reconcileAll_get?, Option.isSome_map]
  · unfold CarService.findAll
    rw [hday, reconcileAll_idem]

/-- The car that has left is listed as `RENTED`. -/
theorem findAll_derives_firstRental :
    ∃ car, (CarService.findAll (.atTime 0) (World.after firstRental).db).2.cars.get? 1 = some car ∧
      car.status = .rented ∧ ∃ i, RunsOn (World.after firstRental).db.contracts i 1 := by
  obtain ⟨car, hcar, hst⟩ : ∃ car, (CarService.findAll (.atTime 0)
      (World.after firstRental).db).2.cars.get? 1 = some car ∧ car.status = .rented := ⟨_, rfl, rfl⟩
  have hderives := (findAll_derives firstRental_reachable (.atTime 0)).1 1 car hcar
  exact ⟨car, hcar, hst, hderives.1.mp hst⟩

/-! ### A stale column -/

/-- One day of maintenance is planned for the next day. -/
def plannedMaintenance : List (Env × Call) :=
  fleetOfOne ++ [(.atTime 0, .maintenanceCreate
    { carId := 1, type := "Vidange", startDate := some 1, endDate := some 1, cost := some ⟨0, 0⟩ })]

/-- On that day nothing has been read, and a rental starts. -/
theorem rental_under_maintenance :
    Reachable (World.after plannedMaintenance) ∧
    (World.after plannedMaintenance).db.contracts.get? 1 = none ∧
    ∃ c, ((Call.contractCreate (booking secondsPerDay none 10000)).commit (.atTime secondsPerDay)
        (World.after plannedMaintenance).db).contracts.get? 1 = some c ∧
      c.status = .active ∧ c.carId = 1 ∧
      ∃ m, (World.after plannedMaintenance).db.maintenances.get? 1 = some m ∧ m.carId = 1 ∧
        isOngoing (Env.atTime secondsPerDay).today m = true :=
  ⟨reachable_after plannedMaintenance (by decide), rfl, _, rfl, rfl, rfl, _, rfl, rfl, by decide⟩

/-! ### The column as far as availability goes -/

/-- No car that is marked available has a maintenance that is ongoing on `today`. -/
def Fresh (today : LocalDate) (db : Db) : Prop :=
  ∀ k car, db.cars.get? k = some car → car.status = .available →
    hasOngoingMaintenance today db k = false

/-- Reconciling a car after a write to the maintenances that begins none for another car
leaves a fresh column. -/
theorem fresh_reconcile (hF : Fresh today db) (t : Table Maintenance) (id : Id)
    (hold : ∀ i m, t.get? i = some m → m.carId ≠ id → db.maintenances.get? i = some m) :
    Fresh today { db with
      maintenances := t
      cars := (reconcileCarStatus today id { db with maintenances := t }).cars } := by
  intro k car hcar havail
  change (reconcileCarStatus today id { db with maintenances := t }).cars.get? k = some car at hcar
  change hasOngoingMaintenance today { db with maintenances := t } k = false
  rw [reconcile_get?] at hcar
  split at hcar
  · obtain ⟨old, -, rfl⟩ := Option.map_eq_some_iff.mp hcar
    exact reconciledCar_available havail
  · next hk =>
    have hfresh := hF k car hcar havail
    by_contra hon
    obtain ⟨i, m, hm, hmk, hong⟩ := hasOngoingMaintenance_iff.mp (by simpa using hon)
    have hold' := hold i m hm (by rw [hmk]; exact hk)
    have htrue := hasOngoingMaintenance_iff.mpr ⟨i, m, hold', hmk, hong⟩
    rw [hfresh] at htrue
    exact absurd htrue (by decide)

theorem fresh_reconcileAll : Fresh today (reconcileAllCarStatuses today db) := by
  intro k car hcar havail
  rw [hasOngoingMaintenance_congr reconcileAll_maintenances]
  rw [reconcileAll_get?] at hcar
  obtain ⟨old, -, rfl⟩ := Option.map_eq_some_iff.mp hcar
  exact reconciledCar_available havail

/-- Writing one car keeps the column fresh if the car is not marked available, or has no
maintenance ongoing, or was available before. -/
theorem Fresh.set {car : Car} (h : Fresh today db)
    (hcar : car.status = .available → hasOngoingMaintenance today db id = false) :
    Fresh today { db with cars := db.cars.set id car } := by
  intro k car' hget havail
  have hsame : hasOngoingMaintenance today { db with cars := db.cars.set id car } k =
      hasOngoingMaintenance today db k := hasOngoingMaintenance_congr rfl
  rw [hsame]
  rw [Table.get?_set] at hget
  split at hget
  · next hk =>
    obtain ⟨_, -, rfl⟩ := Option.map_eq_some_iff.mp hget
    rw [hk]
    exact hcar havail
  · exact h k car' hget havail

/-- A new car has no maintenance yet. -/
theorem Fresh.insert {car : Car} (h : Fresh today db) (hI : Inv db) :
    Fresh today { db with cars := db.cars.insert car } := by
  intro k car' hget havail
  have hsame : hasOngoingMaintenance today { db with cars := db.cars.insert car } k =
      hasOngoingMaintenance today db k := hasOngoingMaintenance_congr rfl
  rw [hsame]
  rcases Table.get?_insert_eq_some.mp hget with ⟨rfl, -⟩ | hold
  · by_contra hon
    obtain ⟨i, m, hm, hk, -⟩ := hasOngoingMaintenance_iff.mp (by simpa using hon)
    refine hI.maintenanceCar hm ?_
    simp [out, hk, Table.get?_nextId]
  · exact h k car' hold havail

/-- Of the actions, only the end of a rental can make the column stale within the day. -/
theorem Desk.Act.fresh (hI : Inv db) (hF : Fresh env.today db)
    (hcomplete : ∀ id c, a = .complete id → db.contracts.get? id = some c →
      hasOngoingMaintenance env.today db c.carId = false)
    (h : Act env a db db') : Fresh env.today db' := by
  cases h with
  | addCar _ => exact hF.insert hI
  | editCar hget hst => exact hF.set fun havail => hF _ _ hget (hst ▸ havail)
  | @removeCar _ id _ _ =>
    intro k car' hget havail
    rw [Table.get?_delete] at hget
    split at hget
    · exact absurd hget (by simp)
    · exact hF k car' hget havail
  | @reconcile _ id =>
    have hrec := fresh_reconcile hF db.maintenances id fun i m hm _ => hm
    exact hrec
  | release hget hst hnone =>
    -- impossible on a state of the desk
    obtain ⟨i, c, hc, hcar, hact⟩ := (hI.rented (out_of_get? hget)).mp (by simpa using hst)
    exact absurd ⟨hI.activeNotDeleted hc hact, Or.inr hact⟩ (hnone i c hc hcar)
  | keepRented => exact hF.set fun havail => absurd havail (by simp)
  | @activate _ booked id c _ _ car _ _ _ _ _ _ _ _ =>
    have hset : Fresh env.today
        { db with cars := db.cars.set c.carId { car with status := .rented } } :=
      hF.set fun havail => absurd havail (by simp)
    exact hset
  | @complete _ db₁ booked id c car hget _ _ _ hdb₁ _ =>
    subst hdb₁
    have hset : Fresh env.today
        { db with cars := db.cars.set c.carId { car with status := .available } } :=
      hF.set fun _ => hcomplete id c rfl hget
    exact hset
  | @addMaintenance _ _ _ _ m _ _ hdb₁ hdb₂ _ =>
    subst hdb₁ hdb₂
    have hold : ∀ i m', (db.maintenances.insert m).get? i = some m' → m'.carId ≠ m.carId →
        db.maintenances.get? i = some m' := by
      intro i m' hm' hne
      rcases Table.get?_insert_eq_some.mp hm' with ⟨-, rfl⟩ | hm'
      · exact absurd rfl hne
      · exact hm'
    have hrec := fresh_reconcile hF (db.maintenances.insert m) m.carId hold
    exact hrec
  | @editMaintenance _ _ _ _ id _ new _ hget _ hdb₁ hdb₂ _ =>
    subst hdb₁ hdb₂
    have hold : ∀ i m', (db.maintenances.set id new).get? i = some m' → m'.carId ≠ new.carId →
        db.maintenances.get? i = some m' := by
      intro i m' hm' hne
      rcases (Table.get?_set_eq_some hget).mp hm' with ⟨-, rfl⟩ | ⟨-, hm'⟩
      · exact absurd rfl hne
      · exact hm'
    have hrec := fresh_reconcile hF (db.maintenances.set id new) new.carId hold
    exact hrec
  | @removeMaintenance _ _ id m hget hdb₁ =>
    subst hdb₁
    have hold : ∀ i m', (db.maintenances.delete id).get? i = some m' → m'.carId ≠ m.carId →
        db.maintenances.get? i = some m' := by
      intro i m' hm' _
      rw [Table.get?_delete] at hm'
      split at hm'
      · exact absurd hm' (by simp)
      · exact hm'
    have hrec := fresh_reconcile hF (db.maintenances.delete id) m.carId hold
    exact hrec
  | _ => exact hF

/-! ### Runs that keep the column fresh -/

/-- The calls that refresh the whole column. -/
def refreshes : Call → Bool
  | .carFindAll | .findByStatus _ | .maintenanceFindAll | .reconcileAllCarStatuses => true
  | _ => false

/-- The call is in time: when it is the first one of a new day, it refreshes the column or
finds it fresh; and if it ends a rental, no maintenance of the car is ongoing. -/
def Timely (w : World) (env : Env) (call : Call) : Prop :=
  (env.today ≠ w.clock.toLocalDate → refreshes call = true ∨ Fresh env.today w.db) ∧
  ∀ id c, (call = .updateStatus id .completed ∨ call = .registerReturn id) →
    w.db.contracts.get? id = some c → hasOngoingMaintenance env.today w.db c.carId = false

theorem Timely.fresh {call : Call} (h : Timely w env call) (hF : Fresh w.clock.toLocalDate w.db)
    (hrefresh : ¬ refreshes call = true) : Fresh env.today w.db := by
  by_cases hday : env.today = w.clock.toLocalDate
  · rw [hday]
    exact hF
  · exact (h.1 hday).resolve_left hrefresh

/-- A refreshing call returns the refreshed column. -/
theorem refreshes_commit {call : Call} (hI : Inv db) (h : refreshes call = true) :
    call.commit env db = reconcileAllCarStatuses env.today db := by
  cases call with
  | carFindAll => rfl
  | findByStatus status => rfl
  | reconcileAllCarStatuses => rfl
  | maintenanceFindAll =>
    -- the answer exists, because every maintenance has its car
    have hframe := reconcileAll_frame env.today db
    have hanswer : ∃ bs, (reconcileAllCarStatuses env.today db).maintenances.rows.mapM
        (fun m => MaintenanceService.map (reconcileAllCarStatuses env.today db) m.1 m.2) =
          .ok bs := by
      refine mapM_eq_ok fun m hm => ?_
      obtain ⟨cars, hcars⟩ := hframe
      have hget : db.maintenances.get? m.1 = some m.2 := by
        rw [hcars] at hm
        exact Table.mem_rows.mp hm
      obtain ⟨car, hcar⟩ := out_ne_none_iff.mp (hI.maintenanceCar hget)
      have hcar' : (reconcileAllCarStatuses env.today db).cars.get? m.2.carId =
          some (reconciledCar env.today db m.2.carId car) := by
        rw [reconcileAll_get?, hcar]
        rfl
      exact ⟨_, by simp [MaintenanceService.map, hcar', orThrow, bind, Except.bind]; rfl⟩
    obtain ⟨bs, hbs⟩ := hanswer
    simp [Call.commit, Call.exec, MaintenanceService.findAll, hbs, bind, Except.bind, Except.map,
      pure, Except.pure]
  | _ => exact absurd h (by simp [refreshes])

theorem fresh_commit {call : Call} (hI : Inv w.db) (hF : Fresh w.clock.toLocalDate w.db)
    (htimely : Timely w env call) : Fresh env.today (call.commit env w.db) := by
  by_cases hrefresh : refreshes call = true
  · rw [refreshes_commit hI hrefresh]
    exact fresh_reconcileAll
  have hF := htimely.fresh hF hrefresh
  have hrun : ∀ {as : List Action} {db db' : Db}, (∀ a ∈ as, ∀ id, a ≠ .complete id) →
      Run env as db db' → Inv db → Fresh env.today db → Fresh env.today db' := by
    intro as db db' has hrun hI hF
    refine (hrun.invariant (I := fun db => Inv db ∧ Fresh env.today db) ?_ ⟨hI, hF⟩).2
    intro a ha s t hact hs
    exact ⟨hact.inv hs.1, hact.fresh hs.1 hs.2 fun id c heq => absurd heq (has a ha id)⟩
  cases Call.commit_run env call w.db with
  | routine has hr => exact hrun (fun a ha => (has a ha).1.ne_complete) hr hI hF
  | edit _ _ has hr =>
    refine hrun ?_ hr hI hF
    intro a ha
    rcases List.mem_cons.mp ha with rfl | ha
    · simp
    · exact (has a ha).1.ne_complete
  | @complete id hcall hr =>
    refine hr.of_single.fresh hI hF ?_
    intro id' c heq hc
    obtain rfl := Action.complete.inj heq
    exact htimely.2 id c hcall hc
  | maintenance ha _ hr =>
    refine hrun ?_ hr hI hF
    rcases ha with rfl | ⟨id, rfl⟩ | ⟨id, rfl⟩ <;> simp

theorem fresh_of_reachableBy (h : ReachableBy Timely w) : Fresh w.clock.toLocalDate w.db := by
  refine h.induction (I := fun w => Fresh w.clock.toLocalDate w.db) ?_ ?_
  · intro start collate k car hcar
    simp [Db.empty] at hcar
  · intro w env call hw hF _ htimely
    exact fresh_commit (inv_of_reachable hw.reachable) hF htimely

/-! ### No rental starts on a car under maintenance -/

/-- The maintenances stay, and every running contract was running on its car before, or its
car has no maintenance ongoing. -/
def StartsSound (today : LocalDate) (db db' : Db) : Prop :=
  db'.maintenances = db.maintenances ∧
  ∀ i k, RunsOn db'.contracts i k → RunsOn db.contracts i k ∨
    hasOngoingMaintenance today db k = false

theorem StartsSound.trans {db₁ db₂ db₃ : Db} (h : StartsSound today db₁ db₂)
    (h' : StartsSound today db₂ db₃) : StartsSound today db₁ db₃ := by
  refine ⟨h'.1.trans h.1, fun i k hrun => ?_⟩
  rcases h'.2 i k hrun with hrun₂ | hnone
  · exact h.2 i k hrun₂
  · rw [hasOngoingMaintenance_congr h.1] at hnone
    exact Or.inr hnone

theorem Desk.Act.startsSound (hF : Fresh env.today db)
    (hmain : db'.maintenances = db.maintenances) (h : Act env a db db') :
    StartsSound env.today db db' := by
  refine ⟨hmain, fun i k hrun => ?_⟩
  by_cases hact : ∀ id total, a ≠ .activate id total
  · by_cases hcomp : ∀ id, a ≠ .complete id
    · exact Or.inl ((h.runsOn_iff hact hcomp i k).mp hrun)
    · cases h with
      | complete hget _ _ _ hdb₁ _ =>
        subst hdb₁
        exact Or.inl ((runsOn_stop hget (by simp)).mp hrun).2
      | _ => exact absurd (by simp) hcomp
  · cases h with
    | activate hget _ hst hcar havail _ _ _ =>
      rcases (runsOn_activate hget hst).mp hrun with ⟨-, rfl⟩ | hold
      · -- the column was fresh and said available
        exact Or.inr (hF _ _ hcar havail)
      · exact Or.inl hold
    | _ => exact absurd (by simp) hact

theorem Desk.Act.maintenances_cases (h : Act env a db db') :
    db'.maintenances = db.maintenances ∨
    (db'.contracts = db.contracts ∧ (a = .addMaintenance ∨ (∃ id, a = .editMaintenance id) ∨
      ∃ id, a = .removeMaintenance id)) := by
  cases h with
  | @reconcile _ id => exact Or.inl rfl
  | complete _ _ _ _ hdb₁ _ => subst hdb₁; exact Or.inl rfl
  | addMaintenance _ hdb₁ hdb₂ _ =>
    subst hdb₁ hdb₂
    exact Or.inr ⟨rfl, Or.inl rfl⟩
  | editMaintenance _ _ hdb₁ hdb₂ _ =>
    subst hdb₁ hdb₂
    exact Or.inr ⟨rfl, Or.inr (Or.inl ⟨_, rfl⟩)⟩
  | removeMaintenance _ hdb₁ =>
    subst hdb₁
    exact Or.inr ⟨rfl, Or.inr (Or.inr ⟨_, rfl⟩)⟩
  | _ => exact Or.inl rfl

/-- An action that neither ends a rental nor changes a maintenance keeps the column fresh, and
what it starts is sound. -/
theorem Desk.Act.starts_step (ha : a.Routine ∨ ∃ id terms, a = .editContract id terms)
    (hI : Inv db) (hF : Fresh env.today db) (h : Act env a db db') :
    Fresh env.today db' ∧ StartsSound env.today db db' := by
  have hcomp : ∀ id, a ≠ .complete id := by
    intro id
    rcases ha with ha | ⟨_, _, rfl⟩
    · exact ha.ne_complete id
    · simp
  have hmain : db'.maintenances = db.maintenances := by
    rcases h.maintenances_cases with hsame | ⟨-, hm⟩
    · exact hsame
    · rcases ha with ha | ⟨_, _, rfl⟩
      · rcases hm with rfl | ⟨_, rfl⟩ | ⟨_, rfl⟩ <;> exact ha.elim
      · simp at hm
  exact ⟨h.fresh hI hF fun id c heq => absurd heq (hcomp id), h.startsSound hF hmain⟩

/-- The contracts a timely call starts are on cars without an ongoing maintenance. -/
theorem starts_commit {call : Call} (hI : Inv w.db) (hF : Fresh w.clock.toLocalDate w.db)
    (htimely : Timely w env call) {i k : Id}
    (hruns : RunsOn (call.commit env w.db).contracts i k) :
    RunsOn w.db.contracts i k ∨ hasOngoingMaintenance env.today w.db k = false := by
  by_cases hrefresh : refreshes call = true
  · obtain ⟨cars, hframe⟩ := reconcileAll_frame env.today w.db
    rw [refreshes_commit hI hrefresh, hframe] at hruns
    exact Or.inl hruns
  have hF := htimely.fresh hF hrefresh
  have hrun : ∀ {as : List Action} {db' : Db},
      (∀ a ∈ as, a.Routine ∨ ∃ id terms, a = .editContract id terms) → Run env as w.db db' →
        StartsSound env.today w.db db' := by
    intro as db' has hrun
    refine hrun.relates (I := fun db => Inv db ∧ Fresh env.today db)
      (fun _ => ⟨rfl, fun _ _ h => Or.inl h⟩) (fun h h' => h.trans h') ?_ ?_ ⟨hI, hF⟩
    · intro a ha s t hact hs
      exact ⟨hact.inv hs.1, (hact.starts_step (has a ha) hs.1 hs.2).1⟩
    · intro a ha s t hact hs
      exact (hact.starts_step (has a ha) hs.1 hs.2).2
  cases Call.commit_run env call w.db with
  | routine has hr => exact (hrun (fun a ha => Or.inl (has a ha).1) hr).2 i k hruns
  | edit _ _ has hr =>
    refine (hrun ?_ hr).2 i k hruns
    intro a ha
    rcases List.mem_cons.mp ha with rfl | ha
    · exact Or.inr ⟨_, _, rfl⟩
    · exact Or.inl (has a ha).1
  | complete _ hr =>
    have hact := hr.of_single
    rcases hact.maintenances_cases with hsame | ⟨-, hm⟩
    · exact (hact.startsSound hF hsame).2 i k hruns
    · simp at hm
  | maintenance _ _ hr =>
    rcases hr.of_single.maintenances_cases with hsame | ⟨hsame, -⟩
    · exact (hr.of_single.startsSound hF hsame).2 i k hruns
    · rw [hsame] at hruns
      exact Or.inl hruns

/-- **No rental starts on a car under maintenance** in a run of timely calls: whichever call
moves a contract to `ACTIVE`, no maintenance of its car is ongoing on the day of the call. -/
theorem no_rental_under_maintenance {call : Call} (h : ReachableBy Timely w)
    (htimely : Timely w env call) {i : Id} {c : Contract}
    (hc : (call.commit env w.db).contracts.get? i = some c) (hact : c.status = .active)
    (hbefore : ∀ c₀, w.db.contracts.get? i = some c₀ → c₀.status ≠ .active) :
    ¬ ∃ j m, w.db.maintenances.get? j = some m ∧ m.carId = c.carId ∧
      isOngoing env.today m = true := by
  have hI := inv_of_reachable h.reachable
  have hF := fresh_of_reachableBy h
  rcases starts_commit hI hF htimely ⟨c, hc, rfl, hact⟩ with ⟨c₀, hc₀, -, hact₀⟩ | hnone
  · exact absurd hact₀ (hbefore c₀ hc₀)
  · rw [← hasOngoingMaintenance_iff, hnone]
    decide

theorem timely_of_refreshes {call : Call} (h : refreshes call = true) : Timely w env call := by
  refine ⟨fun _ => Or.inl h, fun id c hcall => ?_⟩
  rcases hcall with rfl | rfl <;> exact absurd h (by simp [refreshes])

/-- The planned maintenance is over on the third day; the cars are read, and a rental starts. -/
theorem no_rental_under_maintenance_planned :
    ∃ w : World, ReachableBy Timely w ∧
      ∃ c, ((Call.contractCreate (booking (2 * secondsPerDay) none 10000)).commit
          (.atTime (2 * secondsPerDay)) w.db).contracts.get? 1 = some c ∧ c.status = .active ∧
        ¬ ∃ j m, w.db.maintenances.get? j = some m ∧ m.carId = c.carId ∧
          isOngoing (Env.atTime (2 * secondsPerDay)).today m = true := by
  have hsame : ∀ {w : World} {env : Env} {call : Call}, env.today = w.clock.toLocalDate →
      (∀ id, call ≠ .updateStatus id .completed ∧ call ≠ .registerReturn id) →
        Timely w env call := by
    intro w env call hday hcall
    refine ⟨fun hne => absurd hday hne, fun id c hc => ?_⟩
    rcases hc with hc | hc
    · exact absurd hc (hcall id).1
    · exact absurd hc (hcall id).2
  have hempty : ReachableBy Timely ⟨0, Db.empty⟩ := ⟨0, id, .refl⟩
  have hplanned : ReachableBy Timely (World.after plannedMaintenance) :=
    ((hempty.step (by decide) (hsame rfl (by simp))).step (by decide) (hsame rfl (by simp))).step
      (by decide) (hsame rfl (by simp))
  have hread : ReachableBy Timely (runCalls [(.atTime (2 * secondsPerDay), .carFindAll)]
      (World.after plannedMaintenance)) := hplanned.step (by decide) (timely_of_refreshes rfl)
  obtain ⟨c, hc, hst⟩ : ∃ c, ((Call.contractCreate (booking (2 * secondsPerDay) none 10000)).commit
      (.atTime (2 * secondsPerDay)) (runCalls [(.atTime (2 * secondsPerDay), .carFindAll)]
        (World.after plannedMaintenance)).db).contracts.get? 1 = some c ∧ c.status = .active :=
    ⟨_, rfl, rfl⟩
  refine ⟨_, hread, c, hc, hst, ?_⟩
  refine no_rental_under_maintenance hread (hsame rfl (by simp)) hc hst ?_
  intro c₀ hc₀
  have hnone : some c₀ = none := hc₀.symm
  simp at hnone

end CarRental
