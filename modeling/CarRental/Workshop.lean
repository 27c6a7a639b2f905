import CarRental.StatusColumn

/-!
# CarRental.Workshop

**Maintenances and the status of their cars.** Each of the four calls that change
the maintenances writes their table and then reconciles one car, the one the
maintenance has after the call (`MaintenanceWrite`). That is the right car, and
the only one that needs it, unless an edit moves the maintenance to another car:
then the car it had before keeps the status it had (`restores_iff`).
-/

namespace CarRental

open Lib Desk MaintenanceService

variable {env : Env} {db db' : Db} {today : LocalDate} {call : Call} {k : Id}

/-! ### What the calls write -/

/-- The maintenances are now `table`, and the cars are those of `db` with car `k` reconciled. -/
structure MaintenanceWrite (today : LocalDate) (db db' : Db) (k : Id)
    (table : Table Maintenance) : Prop where
  maintenances : db'.maintenances = table
  cars : db'.cars = (reconcileCarStatus today k { db with maintenances := table }).cars

/-- Recording the expense writes neither table. -/
theorem MaintenanceWrite.of_recorded {id : Id} {m : Maintenance} {table : Table Maintenance}
    (h : FinancialService.recordExpenseFromMaintenance id m
      (reconcileCarStatus today k { db with maintenances := table }) = .ok db') :
    MaintenanceWrite today db db' k table := by
  have hframe := recorded_frame h
  refine ⟨?_, ?_⟩
  · rw [← hframe]
    exact reconcile_maintenances
  · rw [← hframe]

theorem create_write {request : MaintenanceRequest} {response : MaintenanceResponse}
    (h : create env request db = .ok (response, db')) :
    ∃ table, MaintenanceWrite env.today db db' request.carId table := by
  unfold create at h
  simp only [bind_eq_ok, getCar, orThrow_eq_ok] at h
  obtain ⟨car, hcar, recorded, hrec, _, -, h⟩ := h
  obtain ⟨-, rfl⟩ := Prod.mk.inj (pure_eq_ok.mp h)
  exact ⟨_, .of_recorded hrec⟩

theorem update_write {id : Id} {request : MaintenanceRequest} {response : MaintenanceResponse}
    (h : update env id request db = .ok (response, db')) :
    ∃ old new, db.maintenances.get? id = some old ∧ new.carId = request.carId ∧
      MaintenanceWrite env.today db db' request.carId (db.maintenances.set id new) := by
  unfold update at h
  simp only [bind_eq_ok, throwIf_eq_ok, getCar, getMaintenance, orThrow_eq_ok] at h
  obtain ⟨old, hold, -, -, car, hcar, recorded, hrec, _, -, h⟩ := h
  obtain ⟨-, rfl⟩ := Prod.mk.inj (pure_eq_ok.mp h)
  exact ⟨old, _, hold, rfl, .of_recorded hrec⟩

theorem complete_write {id : Id} {response : MaintenanceResponse}
    (h : complete env id db = .ok (response, db')) :
    ∃ old table, db.maintenances.get? id = some old ∧
      MaintenanceWrite env.today db db' old.carId table := by
  unfold complete at h
  simp only [bind_eq_ok, throwIf_eq_ok, getMaintenance, orThrow_eq_ok] at h
  obtain ⟨old, hold, -, -, car, hcar, recorded, hrec, _, -, h⟩ := h
  obtain ⟨-, rfl⟩ := Prod.mk.inj (pure_eq_ok.mp h)
  exact ⟨old, _, hold, .of_recorded hrec⟩

theorem delete_write {id : Id} (h : delete env id db = .ok db') :
    ∃ old table, db.maintenances.get? id = some old ∧
      MaintenanceWrite env.today db db' old.carId table := by
  unfold delete at h
  simp only [bind_eq_ok, getMaintenance, orThrow_eq_ok, pure_eq_ok] at h
  obtain ⟨old, hold, car, -, rfl⟩ := h
  exact ⟨old, _, hold, reconcile_maintenances, rfl⟩

/-! ### Restored cars -/

/-- The car is rented, or its status says whether one of its maintenances is ongoing. -/
def Restored (today : LocalDate) (db : Db) (k : Id) : Prop :=
  ∀ car, db.cars.get? k = some car → car.status ≠ .rented →
    (car.status = .maintenance ↔ ∃ i m, db.maintenances.get? i = some m ∧ m.carId = k ∧
      isOngoing today m = true)

theorem MaintenanceWrite.restored {table : Table Maintenance}
    (h : MaintenanceWrite today db db' k table) : Restored today db' k := by
  intro car hcar hrented
  rw [← hasOngoingMaintenance_iff]
  have hon : hasOngoingMaintenance today db' k =
      hasOngoingMaintenance today { db with maintenances := table } k :=
    hasOngoingMaintenance_congr h.maintenances
  rw [h.cars, reconcile_get?, if_pos rfl] at hcar
  obtain ⟨old, -, rfl⟩ := Option.map_eq_some_iff.mp hcar
  rw [hon]
  unfold reconciledCar at hrented ⊢
  split
  · next hold =>
    rw [if_pos hold] at hrented
    exact absurd hold hrented
  · unfold statusWhenNotRented
    split
    · next htrue => simp [htrue]
    · next hfalse => simp [hfalse]

/-- Where only the maintenance that moved away is new, the car it left is as right as its
status was without it. -/
theorem MaintenanceWrite.left_iff {id l : Id} {old new : Maintenance} {car : Car}
    (h : MaintenanceWrite today db db' k (db.maintenances.set id new))
    (hold : db.maintenances.get? id = some old) (hnew : new.carId = k) (hl : l ≠ k)
    (hcar : db.cars.get? l = some car) :
    Restored today db' l ↔ (car.status ≠ .rented → (car.status = .maintenance ↔
      ∃ i m, i ≠ id ∧ db.maintenances.get? i = some m ∧ m.carId = l ∧
        isOngoing today m = true)) := by
  have hrow : db'.cars.get? l = some car := by
    rw [h.cars, reconcile_get?, if_neg hl]
    exact hcar
  have hothers : (∃ i m, db'.maintenances.get? i = some m ∧ m.carId = l ∧
      isOngoing today m = true) ↔ ∃ i m, i ≠ id ∧ db.maintenances.get? i = some m ∧ m.carId = l ∧
        isOngoing today m = true := by
    rw [h.maintenances]
    simp only [Table.get?_set_eq_some hold]
    constructor
    · intro hex
      obtain ⟨i, m, ⟨-, rfl⟩ | ⟨hi, hm⟩, hml, hon⟩ := hex
      · exact absurd (hml.symm.trans hnew) hl
      · exact ⟨i, m, hi, hm, hml, hon⟩
    · intro hex
      obtain ⟨i, m, hi, hm, hml, hon⟩ := hex
      exact ⟨i, m, Or.inr ⟨hi, hm⟩, hml, hon⟩
  rw [← hothers]
  constructor
  · exact fun hrestored => hrestored car hrow
  · intro hright car' hrow'
    rw [hrow] at hrow'
    obtain rfl := Option.some.inj hrow'
    exact hright

/-- The cars whose maintenances a call changes. An edit changes those of the car the
maintenance had and of the car it gets. -/
def ChangesMaintenancesOf (db : Db) (k : Id) : Call → Prop
  | .maintenanceCreate request => k = request.carId
  | .maintenanceUpdate id request =>
    k = request.carId ∨ ∃ m, db.maintenances.get? id = some m ∧ k = m.carId
  | .maintenanceComplete id | .maintenanceDelete id =>
    ∃ m, db.maintenances.get? id = some m ∧ k = m.carId
  | _ => False

/-- An edit that takes the maintenance away from a car that is not rented finds the car with
the status that its other maintenances give it. -/
def LeavesRight (today : LocalDate) (db : Db) : Call → Prop
  | .maintenanceUpdate id request => ∀ m car, db.maintenances.get? id = some m →
    m.carId ≠ request.carId → db.cars.get? m.carId = some car → car.status ≠ .rented →
      (car.status = .maintenance ↔ ∃ i m', i ≠ id ∧ db.maintenances.get? i = some m' ∧
        m'.carId = m.carId ∧ isOngoing today m' = true)
  | _ => True

/-- **When a maintenance call restores the cars it concerns.** Creating, completing and deleting
a maintenance always does; an edit does exactly when the car the maintenance had before is right
without it. -/
theorem restores_iff (hexec : call.exec env db = .ok db') :
    (∀ k, ChangesMaintenancesOf db k call → Restored env.today db' k) ↔
      LeavesRight env.today db call := by
  cases call with
  | maintenanceCreate request =>
    obtain ⟨⟨_, db'⟩, h, rfl⟩ := map_eq_ok.mp hexec
    obtain ⟨table, hw⟩ := create_write h
    refine ⟨fun _ => trivial, fun _ k hk => ?_⟩
    obtain rfl : k = request.carId := hk
    exact hw.restored
  | maintenanceUpdate id request =>
    obtain ⟨⟨_, db'⟩, h, rfl⟩ := map_eq_ok.mp hexec
    obtain ⟨old, new, hold, hnew, hw⟩ := update_write h
    -- an edit reconciles the car of the request; the car the maintenance had before is left
    -- as it is when the two differ
    constructor
    · intro hall m car hm hne hcar
      exact (hw.left_iff hold hnew hne hcar).mp (hall m.carId (Or.inr ⟨m, hm, rfl⟩))
    · intro hright k hk
      rcases hk with rfl | ⟨m, hm, rfl⟩
      · exact hw.restored
      by_cases hne : m.carId = request.carId
      · rw [hne]
        exact hw.restored
      · intro car hcar
        have hcar' : db.cars.get? m.carId = some car := by
          rw [hw.cars, reconcile_get?, if_neg hne] at hcar
          exact hcar
        exact (hw.left_iff hold hnew hne hcar').mpr (hright m car hm hne hcar') car hcar
  | maintenanceComplete id =>
    obtain ⟨⟨_, db'⟩, h, rfl⟩ := map_eq_ok.mp hexec
    obtain ⟨old, table, hold, hw⟩ := complete_write h
    refine ⟨fun _ => trivial, fun _ k hk => ?_⟩
    obtain ⟨m, hm, rfl⟩ := hk
    rw [hold] at hm
    obtain rfl := Option.some.inj hm
    exact hw.restored
  | maintenanceDelete id =>
    obtain ⟨old, table, hold, hw⟩ := delete_write hexec
    refine ⟨fun _ => trivial, fun _ k hk => ?_⟩
    obtain ⟨m, hm, rfl⟩ := hk
    rw [hold] at hm
    obtain rfl := Option.some.inj hm
    exact hw.restored
  | _ => exact ⟨fun _ => trivial, fun _ _ hk => hk.elim⟩

/-- Two cars, the first of them in the workshop. -/
def inWorkshop : List (Env × Call) :=
  fleetOfOne ++
    [(.atTime 0, .carCreate
        { brand := "Dacia", fuelType := .diesel, matricule := "2-A-2", mileage := some 0 } none),
     (.atTime 0, .maintenanceCreate
        { carId := 1, type := "Vidange", startDate := some 0, cost := some ⟨0, 0⟩ })]

/-- The edit that moves the maintenance to the second car. -/
def moveToSecondCar : Call :=
  .maintenanceUpdate 1 { carId := 2, type := "Vidange", startDate := some 0, cost := some ⟨0, 0⟩ }

/-- After the move, the first car has no maintenance left and is still marked as if it had. -/
theorem moved_maintenance_leaves_car :
    Reachable (World.after inWorkshop) ∧
    ∃ db', moveToSecondCar.exec (.atTime 0) (World.after inWorkshop).db = .ok db' ∧
      (∃ car, db'.cars.get? 1 = some car ∧ car.status = .maintenance) ∧
      (∀ i m, db'.maintenances.get? i = some m → m.carId ≠ 1) ∧
      ChangesMaintenancesOf (World.after inWorkshop).db 1 moveToSecondCar ∧
      ¬ Restored (Env.atTime 0).today db' 1 := by
  obtain ⟨db', hexec, car, hcar, hst, hrows⟩ : ∃ db',
      moveToSecondCar.exec (.atTime 0) (World.after inWorkshop).db = .ok db' ∧
      ∃ car, db'.cars.get? 1 = some car ∧ car.status = .maintenance ∧
        db'.maintenances.rows.map (fun r => r.2.carId) = [2] := ⟨_, rfl, _, rfl, rfl, rfl⟩
  have hnone : ∀ i m, db'.maintenances.get? i = some m → m.carId ≠ 1 := by
    intro i m hm heq
    have hmem : m.carId ∈ db'.maintenances.rows.map fun r => r.2.carId :=
      List.mem_map.mpr ⟨(i, m), Table.mem_rows.mpr hm, rfl⟩
    rw [hrows, heq] at hmem
    exact absurd hmem (by decide)
  refine ⟨reachable_after inWorkshop (by decide), db', hexec, ⟨car, hcar, hst⟩, hnone,
    Or.inr ⟨_, rfl, rfl⟩, ?_⟩
  intro hrestored
  obtain ⟨i, m, hm, hcarId, -⟩ := (hrestored car hcar (by rw [hst]; decide)).mp hst
  exact hnone i m hm hcarId

/-- Completing the maintenance instead restores the car. -/
theorem restores_completed :
    ∃ db', (Call.maintenanceComplete 1).exec (.atTime 0) (World.after inWorkshop).db = .ok db' ∧
      (∃ car, db'.cars.get? 1 = some car ∧ car.status = .available) ∧
      Restored (Env.atTime 0).today db' 1 := by
  obtain ⟨db', hexec, hcar⟩ : ∃ db',
      (Call.maintenanceComplete 1).exec (.atTime 0) (World.after inWorkshop).db = .ok db' ∧
      ∃ car, db'.cars.get? 1 = some car ∧ car.status = .available := ⟨_, rfl, _, rfl, rfl⟩
  exact ⟨db', hexec, hcar, (restores_iff hexec).mpr trivial 1 ⟨_, rfl, rfl⟩⟩

end CarRental
