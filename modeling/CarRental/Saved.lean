import CarRental.Fleet
import CarRental.Lib.RowHistory

/-!
# CarRental.Saved

**What was saved last is what is on file.** Cars, clients, contracts and maintenances are
entered through forms. An entry is one form that was sent: the row it is for and the body
of the request. Many other calls write to the same rows, on their own account: statuses
are derived, contracts are activated by reads, archived and completed, maintenances get
an end. None of them may touch what was entered.

The calls that write a row without entering it are found by their actions
(`Desk.Act.kept`), the calls that enter it are inverted once each (`Call.exec_saved`), and
`last_save_wins` puts the two together over a whole run.
-/

namespace CarRental

open Lib Desk

variable {env : Env} {a : Action} {db db' db'' : Db} {call : Call} {k : Id} {w w' : World}

/-! ### Entries -/

/-- A row of one of the four tables with forms. -/
inductive Row
  | car (k : Id)
  | client (k : Id)
  | contract (k : Id)
  | maintenance (k : Id)
  deriving DecidableEq

/-- A form that was sent, with the key of its row. -/
inductive Entry
  | car (k : Id) (request : CarRequest)
  | client (k : Id) (request : ClientRequest)
  | contract (k : Id) (request : ContractRequest)
  | maintenance (k : Id) (request : MaintenanceRequest)

/-- The row the form is for. -/
def Entry.row : Entry → Row
  | .car k _ => .car k
  | .client k _ => .client k
  | .contract k _ => .contract k
  | .maintenance k _ => .maintenance k

/-- What the call enters when it returns. A new row has the next key. -/
def Call.entry (db : Db) : Call → Option Entry
  | .carCreate request _ => some (.car db.cars.nextId request)
  | .carUpdate k request _ => some (.car k request)
  | .clientCreate request => some (.client db.clients.nextId request)
  | .clientUpdate k request => some (.client k request)
  | .contractCreate request => some (.contract db.contracts.nextId request)
  | .contractUpdate k request => some (.contract k request)
  | .maintenanceCreate request => some (.maintenance db.maintenances.nextId request)
  | .maintenanceUpdate k request => some (.maintenance k request)
  | _ => none

/-! ### What may happen to a row between two entries -/

/-- The card stays; the status is derived. -/
def SameCar (car car' : Car) : Prop := ∃ status, car' = { car with status := status }

/-- The terms stay; the contract may be activated, completed or archived. -/
def SameTerms (c c' : Contract) : Prop :=
  ∃ status deleted time,
    c' = { c with status := status, deleted := deleted, actualReturnDatetime := time }

/-- The work stays; the maintenance may be completed. An end that was entered stays too. -/
def SameWork (m m' : Maintenance) : Prop :=
  ∃ status fin, m' = { m with status := status, endDate := fin } ∧
    ∀ date, m.endDate = some date → fin = some date

theorem SameCar.refl (car : Car) : SameCar car car := ⟨_, rfl⟩

theorem SameCar.trans {car car' car'' : Car} (h : SameCar car car') (h' : SameCar car' car'') :
    SameCar car car'' := by
  obtain ⟨_, rfl⟩ := h
  obtain ⟨_, rfl⟩ := h'
  exact ⟨_, rfl⟩

theorem SameTerms.refl (c : Contract) : SameTerms c c := ⟨_, _, _, rfl⟩

theorem SameTerms.trans {c c' c'' : Contract} (h : SameTerms c c') (h' : SameTerms c' c'') :
    SameTerms c c'' := by
  obtain ⟨_, _, _, rfl⟩ := h
  obtain ⟨_, _, _, rfl⟩ := h'
  exact ⟨_, _, _, rfl⟩

theorem SameWork.refl (m : Maintenance) : SameWork m m := ⟨_, _, rfl, fun _ h => h⟩

theorem SameWork.trans {m m' m'' : Maintenance} (h : SameWork m m') (h' : SameWork m' m'') :
    SameWork m m'' := by
  obtain ⟨_, _, rfl, hfin⟩ := h
  obtain ⟨_, _, rfl, hfin'⟩ := h'
  exact ⟨_, _, rfl, fun date hdate => hfin' date (hfin date hdate)⟩

/-- Nothing that was entered in the row changes from `db` to `db'`. -/
def Row.Kept (db db' : Db) : Row → Prop
  | .car k => Table.RowKept SameCar k db.cars db'.cars
  | .client k => Table.RowKept Eq k db.clients db'.clients
  | .contract k => Table.RowKept SameTerms k db.contracts db'.contracts
  | .maintenance k => Table.RowKept SameWork k db.maintenances db'.maintenances

namespace Row.Kept

variable {row : Row}

theorem refl (row : Row) (db : Db) : row.Kept db db := by
  cases row with
  | car k => exact Table.RowKept.refl .refl k _
  | client k => exact Table.RowKept.refl (fun _ => rfl) k _
  | contract k => exact Table.RowKept.refl .refl k _
  | maintenance k => exact Table.RowKept.refl .refl k _

theorem trans (h : row.Kept db db') (h' : row.Kept db' db'') : row.Kept db db'' := by
  cases row with
  | car k => exact Table.RowKept.trans (R := SameCar) (S := SameCar) .trans h h'
  | client k => exact Table.RowKept.trans (R := Eq) (S := Eq) .trans h h'
  | contract k => exact Table.RowKept.trans (R := SameTerms) (S := SameTerms) .trans h h'
  | maintenance k => exact Table.RowKept.trans (R := SameWork) (S := SameWork) .trans h h'

end Row.Kept

/-! ### Actions -/

/-- The row an action writes as it likes. -/
def Desk.Action.edits : Action → Option Row
  | .editCar k => some (.car k)
  | .editClient k => some (.client k)
  | .editContract k _ => some (.contract k)
  | .editMaintenance k => some (.maintenance k)
  | _ => none

theorem Desk.Act.cars_kept (h : Act env a db db') (hrow : a.edits ≠ some (.car k)) :
    Table.RowKept SameCar k db.cars db'.cars := by
  by_cases hadd : a = .addCar
  · subst hadd
    cases h
    exact .insert .refl k _ _
  by_cases hedit : ∃ id, a = .editCar id
  · obtain ⟨id, rfl⟩ := hedit
    cases h with
    | editCar hget _ =>
      refine .set .refl hget fun hid => absurd ?_ hrow
      rw [hid]
      rfl
  by_cases hremove : ∃ id, a = .removeCar id
  · obtain ⟨id, rfl⟩ := hremove
    cases h
    exact .delete .refl k _ _
  · have hsame := h.sameRegister hadd (fun id hid => hedit ⟨id, hid⟩)
      fun id hid => hremove ⟨id, hid⟩
    exact hsame.rowKept (fun car _ => ⟨car.status, rfl⟩) k

theorem Desk.Act.clients_kept (h : Act env a db db') (hrow : a.edits ≠ some (.client k)) :
    Table.RowKept Eq k db.clients db'.clients := by
  have hrefl : ∀ client : Client, client = client := fun _ => rfl
  cases h with
  | addClient => exact .insert hrefl k _ _
  | editClient hget =>
    refine .set hrefl hget fun hid => absurd ?_ hrow
    rw [hid]
    rfl
  | removeClient _ => exact .delete hrefl k _ _
  | complete _ _ _ _ hdb₁ _ => subst hdb₁; exact .refl hrefl k _
  | addMaintenance _ hdb₁ hdb₂ _ => subst hdb₁ hdb₂; exact .refl hrefl k _
  | editMaintenance _ _ hdb₁ hdb₂ _ => subst hdb₁ hdb₂; exact .refl hrefl k _
  | removeMaintenance _ hdb₁ => subst hdb₁; exact .refl hrefl k _
  | _ => exact .refl hrefl k _

theorem Desk.Act.contracts_kept (h : Act env a db db') (hrow : a.edits ≠ some (.contract k)) :
    Table.RowKept SameTerms k db.contracts db'.contracts := by
  rcases h.contracts_cases with hsame | ⟨c, _, _, -, -, -, -, -, hnew⟩ | ⟨id, old, new, hget,
    hmove, hset⟩
  · rw [hsame]
    exact .refl .refl k _
  · rw [hnew]
    exact .insert .refl k _ _
  · rw [hset]
    refine .set .refl hget fun hid => ?_
    cases hmove with
    | edit =>
      refine absurd ?_ hrow
      rw [hid]
      rfl
    | activate => exact ⟨_, _, _, rfl⟩
    | complete => exact ⟨_, _, _, rfl⟩
    | archive => exact ⟨_, _, _, rfl⟩

theorem Desk.Act.maintenances_kept (h : Act env a db db')
    (hrow : a.edits ≠ some (.maintenance k)) :
    Table.RowKept SameWork k db.maintenances db'.maintenances := by
  cases h with
  | addMaintenance _ hdb₁ hdb₂ _ => subst hdb₁ hdb₂; exact .insert .refl k _ _
  | editMaintenance hget _ hdb₁ hdb₂ _ =>
    subst hdb₁ hdb₂
    refine .set .refl hget fun hid => absurd ?_ hrow
    rw [hid]
    rfl
  | removeMaintenance _ hdb₁ => subst hdb₁; exact .delete .refl k _ _
  | complete _ _ _ _ hdb₁ _ => subst hdb₁; exact .refl .refl k _
  | _ => exact .refl .refl k _

/-- An action leaves the rows it does not edit to what may happen to them. -/
theorem Desk.Act.kept {row : Row} (h : Act env a db db') (hrow : a.edits ≠ some row) :
    row.Kept db db' := by
  cases row with
  | car k => exact h.cars_kept hrow
  | client k => exact h.clients_kept hrow
  | contract k => exact h.contracts_kept hrow
  | maintenance k => exact h.maintenances_kept hrow

/-! ### Calls -/

/-- A row is edited by the call that enters it, and a maintenance also by its completion. -/
theorem Desk.Action.PerformedBy.enters {row : Row} (h : a.PerformedBy env db call)
    (hedits : a.edits = some row) :
    (∃ entry, call.entry db = some entry ∧ entry.row = row) ∨
      ∃ k, call = .maintenanceComplete k ∧ row = .maintenance k := by
  cases a with
  | editCar k =>
    obtain ⟨request, image, rfl⟩ := h
    exact Or.inl ⟨.car k request, rfl, Option.some.inj hedits⟩
  | editClient k =>
    obtain ⟨request, rfl⟩ := h
    exact Or.inl ⟨.client k request, rfl, Option.some.inj hedits⟩
  | editContract k terms =>
    obtain ⟨request, rfl⟩ := h
    exact Or.inl ⟨.contract k request, rfl, Option.some.inj hedits⟩
  | editMaintenance k =>
    rcases h with ⟨request, rfl⟩ | rfl
    · exact Or.inl ⟨.maintenance k request, rfl, Option.some.inj hedits⟩
    · exact Or.inr ⟨k, rfl, (Option.some.inj hedits).symm⟩
  | _ => exact absurd hedits (by simp [Action.edits])

theorem completion_kept {response : MaintenanceResponse}
    (h : MaintenanceService.complete env k db = .ok (response, db')) :
    Table.RowKept SameWork k db.maintenances db'.maintenances := by
  simp only [MaintenanceService.complete, bind_eq_ok, throwIf_eq_ok,
    MaintenanceService.getMaintenance, orThrow_eq_ok] at h
  obtain ⟨old, hold, -, -, car, hcar, recorded, hrec, _, -, h⟩ := h
  obtain ⟨-, rfl⟩ := Prod.mk.inj (pure_eq_ok.mp h)
  have hrows : recorded.maintenances = db.maintenances.set k { old with
      status := .completed, endDate := some (old.endDate.getD env.today) } := by
    rw [← recorded_frame hrec, reconciled_frame env.today old.carId]
  rw [hrows]
  refine .set .refl hold fun _ => ⟨_, _, rfl, fun date hdate => ?_⟩
  rw [hdate]
  rfl

/-- The call, if it returns, enters nothing in the row. -/
def Call.Spares (row : Row) (w : World) (env : Env) (call : Call) : Prop :=
  ∀ entry db', call.exec env w.db = .ok db' → call.entry w.db = some entry → entry.row ≠ row

/-- Such a call leaves the row to what may happen to it. -/
theorem Call.commit_kept {row : Row} (hspares : call.Spares row w env) :
    row.Kept w.db (call.commit env w.db) := by
  unfold Call.commit
  cases hexec : call.exec env w.db with
  | error e => exact .refl row w.db
  | ok db' =>
    by_cases hcomplete : ∃ k, call = .maintenanceComplete k ∧ row = .maintenance k
    · obtain ⟨k, rfl, rfl⟩ := hcomplete
      obtain ⟨⟨_, db'⟩, h, rfl⟩ := map_eq_ok.mp hexec
      exact completion_kept h
    · obtain ⟨as, has, hrun⟩ := Call.exec_performed hexec
      refine hrun.relates (I := fun _ => True) (R := fun db db' => row.Kept db db')
        (Row.Kept.refl row) .trans (fun _ _ _ _ _ _ => trivial) ?_ trivial
      intro a ha s t hact _
      refine hact.kept fun hedits => ?_
      rcases Action.PerformedBy.enters (has a ha) hedits with ⟨entry, hentry, hrow⟩ | hcomp
      · exact hspares entry db' hexec hentry hrow
      · exact hcomplete hcomp

/-! ### Saving -/

/-- The car is as the form says. -/
def CarEntered (request : CarRequest) (car : Car) : Prop :=
  filled car request = car ∧ request.mileage = some car.mileage

/-- The contract has the terms of the form, amounts as far as the columns go. -/
def ContractEntered (request : ContractRequest) (c : Contract) : Prop :=
  ∃ created, SameTerms (ContractService.apply
    { carId := request.carId, clientId := request.clientId, createdAt := created } request).stored c

/-- The maintenance is for the work of the form, the cost as far as the column goes. -/
def MaintenanceEntered (request : MaintenanceRequest) (m : Maintenance) : Prop :=
  ∃ created, SameWork (MaintenanceService.apply
    { carId := request.carId, type := "", createdAt := created } request) m

/-- The row of the entry, if it is still there, holds what was entered. -/
def Entry.OnFile (db : Db) : Entry → Prop
  | .car k request => ∀ car, db.cars.get? k = some car → CarEntered request car
  | .client k request => ∀ client, db.clients.get? k = some client →
      client = ClientService.apply request
  | .contract k request => ∀ c, db.contracts.get? k = some c → ContractEntered request c
  | .maintenance k request => ∀ m, db.maintenances.get? k = some m → MaintenanceEntered request m

/-- The key of the row has been given out. -/
def Row.Used (db : Db) : Row → Prop
  | .car k => k < db.cars.nextId
  | .client k => k < db.clients.nextId
  | .contract k => k < db.contracts.nextId
  | .maintenance k => k < db.maintenances.nextId

theorem Entry.OnFile.kept {entry : Entry} (h : entry.OnFile db) (hused : entry.row.Used db)
    (hkept : entry.row.Kept db db') : entry.OnFile db' := by
  cases entry with
  | car k request =>
    intro car' hcar'
    obtain ⟨car, hcar, status, rfl⟩ := hkept.row hcar' hused
    obtain ⟨hfilled, hmileage⟩ := h car hcar
    exact ⟨congrArg (fun car : Car => { car with status := status }) hfilled, hmileage⟩
  | client k request =>
    intro client' hclient'
    obtain ⟨client, hclient, rfl⟩ := hkept.row hclient' hused
    exact h client hclient
  | contract k request =>
    intro c' hc'
    obtain ⟨c, hc, hsame⟩ := hkept.row hc' hused
    obtain ⟨created, hentered⟩ := h c hc
    exact ⟨created, hentered.trans hsame⟩
  | maintenance k request =>
    intro m' hm'
    obtain ⟨m, hm, hsame⟩ := hkept.row hm' hused
    obtain ⟨created, hentered⟩ := h m hm
    exact ⟨created, hentered.trans hsame⟩

section Save

variable {saved allowStatusOnCreate : Bool} {car new : Car} {image : Option MultipartFile}

theorem apply_entered {request : CarRequest}
    (h : CarService.apply env saved car request image allowStatusOnCreate = .ok new) :
    CarEntered request new := by
  simp only [apply_eq, bind_eq_ok, pure_eq_ok] at h
  obtain ⟨driven, hdriven, url, -, rfl⟩ := h
  simp only [CarService.applyMileage, bind_eq_ok, throwIf_eq_ok, orThrow_eq_ok] at hdriven
  obtain ⟨mileage, hmileage, -, -, -, -, hdriven⟩ := hdriven
  split at hdriven
  · obtain rfl := pure_eq_ok.mp hdriven
    exact ⟨rfl, hmileage⟩
  · next hsame =>
    obtain rfl := pure_eq_ok.mp hdriven
    rw [not_or, not_not] at hsame
    exact ⟨rfl, hmileage.trans (congrArg some hsame.2)⟩

theorem contract_created {request : ContractRequest} {response : ContractResponse}
    (h : ContractService.create env request db = .ok (response, db')) :
    ∃ c, ContractEntered request c ∧ db'.contracts = db.contracts.insert c := by
  simp only [ContractService.create, bind_eq_ok, throwIf_eq_ok, orThrow_eq_ok] at h
  obtain ⟨car, -, -, -, client, -, departure, -, -, -, h⟩ := h
  obtain ⟨terms, hterms⟩ : ∃ terms, terms = ContractService.apply
    { carId := request.carId, clientId := request.clientId, createdAt := env.now } request :=
    ⟨_, rfl⟩
  have hentered : ∀ status, ContractEntered request { terms.stored with status := status } := by
    intro status
    rw [hterms]
    exact ⟨env.now, _, _, _, rfl⟩
  rw [← hterms] at h
  split at h
  · simp only [bind_eq_ok] at h
    obtain ⟨booked, hbook, _, -, h⟩ := h
    obtain ⟨-, rfl⟩ := Prod.mk.inj (pure_eq_ok.mp h)
    refine ⟨_, hentered .active, ?_⟩
    rw [← booked_frame hbook]
    rfl
  · rw [bind_eq_ok] at h
    obtain ⟨_, -, h⟩ := h
    obtain ⟨-, rfl⟩ := Prod.mk.inj (pure_eq_ok.mp h)
    exact ⟨terms.stored, hentered terms.status, rfl⟩

/-- Whatever branch an edit takes, it leaves the terms of the request. -/
theorem contract_updated {request : ContractRequest} {response : ContractResponse}
    (h : ContractService.update env k request db = .ok (response, db')) :
    ∃ old c, db.contracts.get? k = some old ∧ ContractEntered request c ∧
      db'.contracts = db.contracts.set k c := by
  simp only [ContractService.update, bind_eq_ok, throwIf_eq_ok,
    ContractService.getContract_eq_ok] at h
  obtain ⟨old, ⟨hget, -⟩, -, -, car, -, -, -, client, -, -, -, h⟩ := h
  obtain ⟨terms, hterms⟩ : ∃ terms, terms = ContractService.apply
    { old.loaded with carId := request.carId, clientId := request.clientId } request := ⟨_, rfl⟩
  -- what is entered leaves the status open, so one fact serves all branches
  have hentered : ∀ status, ContractEntered request { terms.stored with status := status } := by
    intro status
    rw [hterms]
    exact ⟨old.createdAt, _, _, _, rfl⟩
  rw [← hterms] at h
  refine ⟨old, ?_⟩
  cases hst : terms.status with
  | inProgress =>
    simp only [hst, bind_eq_ok, throwIf_eq_ok, orThrow_eq_ok] at h
    obtain ⟨departure, -, -, -, h⟩ := h
    split at h
    · simp only [bind_eq_ok] at h
      obtain ⟨booked, hbook, _, -, h⟩ := h
      obtain ⟨-, rfl⟩ := Prod.mk.inj (pure_eq_ok.mp h)
      refine ⟨_, hget, hentered .active, ?_⟩
      rw [← booked_frame hbook]
      exact Table.set_set
    · rw [bind_eq_ok] at h
      obtain ⟨_, -, h⟩ := h
      obtain ⟨-, rfl⟩ := Prod.mk.inj (pure_eq_ok.mp h)
      exact ⟨terms.stored, hget, hentered terms.status, rfl⟩
  | _ =>
    simp only [hst, bind_eq_ok] at h
    obtain ⟨_, -, h⟩ := h
    obtain ⟨-, rfl⟩ := Prod.mk.inj (pure_eq_ok.mp h)
    exact ⟨terms.stored, hget, hentered terms.status, rfl⟩

theorem maintenance_created {request : MaintenanceRequest} {response : MaintenanceResponse}
    (h : MaintenanceService.create env request db = .ok (response, db')) :
    ∃ m, MaintenanceEntered request m ∧ db'.maintenances = db.maintenances.insert m := by
  simp only [MaintenanceService.create, bind_eq_ok] at h
  obtain ⟨car, -, recorded, hrec, _, -, h⟩ := h
  obtain ⟨-, rfl⟩ := Prod.mk.inj (pure_eq_ok.mp h)
  refine ⟨_, ⟨env.now, .refl _⟩, ?_⟩
  rw [← recorded_frame hrec, reconciled_frame env.today request.carId]

theorem maintenance_updated {request : MaintenanceRequest} {response : MaintenanceResponse}
    (h : MaintenanceService.update env k request db = .ok (response, db')) :
    ∃ old m, db.maintenances.get? k = some old ∧ MaintenanceEntered request m ∧
      db'.maintenances = db.maintenances.set k m := by
  simp only [MaintenanceService.update, bind_eq_ok, throwIf_eq_ok,
    MaintenanceService.getMaintenance, orThrow_eq_ok] at h
  obtain ⟨old, hold, -, -, car, -, recorded, hrec, _, -, h⟩ := h
  obtain ⟨-, rfl⟩ := Prod.mk.inj (pure_eq_ok.mp h)
  refine ⟨old, MaintenanceService.apply { old with carId := request.carId } request, hold,
    ⟨old.createdAt, _, _, rfl, fun _ h => h⟩, ?_⟩
  rw [← recorded_frame hrec, reconciled_frame env.today request.carId]

end Save

/-- A new row holds what was entered. -/
theorem onFile_insert {α : Type} {t t' : Table α} {P : α → Prop} {a : α} (ha : P a)
    (ht : t' = t.insert a) :
    (∀ b, t'.get? t.nextId = some b → P b) ∧ t.nextId < t'.nextId := by
  subst ht
  refine ⟨fun b hb => ?_, Nat.lt_succ_self _⟩
  rw [Table.get?_insert_self] at hb
  exact Option.some.inj hb ▸ ha

/-- So does a row that was overwritten. -/
theorem onFile_set {α : Type} {t t' : Table α} {P : α → Prop} {a old : α}
    (hold : t.get? k = some old) (ha : P a) (ht : t' = t.set k a) :
    (∀ b, t'.get? k = some b → P b) ∧ k < t'.nextId := by
  subst ht
  have hlt : k < t.nextId := Table.get?_lt hold
  refine ⟨fun b hb => ?_, hlt⟩
  rw [Table.get?_set_self hold] at hb
  exact Option.some.inj hb ▸ ha

/-- A call that returns leaves what it enters. -/
theorem Call.exec_saved {entry : Entry} (hexec : call.exec env db = .ok db')
    (hentry : call.entry db = some entry) : entry.OnFile db' ∧ entry.row.Used db' := by
  cases call with
  | carCreate request image =>
    obtain rfl := Option.some.inj hentry
    obtain ⟨⟨_, db'⟩, h, rfl⟩ := map_eq_ok.mp hexec
    simp only [CarService.create, bind_eq_ok, throwIf_eq_ok] at h
    obtain ⟨car, happly, -, -, -, -, h⟩ := h
    obtain ⟨-, rfl⟩ := Prod.mk.inj (pure_eq_ok.mp h)
    exact onFile_insert (apply_entered happly) rfl
  | carUpdate k request image =>
    obtain rfl := Option.some.inj hentry
    obtain ⟨⟨_, db'⟩, h, rfl⟩ := map_eq_ok.mp hexec
    simp only [CarService.update, bind_eq_ok, throwIf_eq_ok, CarService.getCar,
      orThrow_eq_ok] at h
    obtain ⟨saved, hsaved, car, happly, -, -, h⟩ := h
    obtain ⟨-, rfl⟩ := Prod.mk.inj (pure_eq_ok.mp h)
    -- an edit puts the old status back, which is no part of what is entered
    obtain ⟨hfilled, hmileage⟩ := apply_entered happly
    have hentered : CarEntered request { car with status := saved.status } :=
      ⟨congrArg (fun car : Car => { car with status := saved.status }) hfilled, hmileage⟩
    exact onFile_set hsaved hentered rfl
  | clientCreate request =>
    obtain rfl := Option.some.inj hentry
    obtain rfl := Except.ok.inj hexec
    exact onFile_insert rfl rfl
  | clientUpdate k request =>
    obtain rfl := Option.some.inj hentry
    obtain ⟨r, h, rfl⟩ := map_eq_ok.mp hexec
    simp only [ClientService.update, ClientService.getClient, bind_eq_ok, pure_eq_ok,
      orThrow_eq_ok] at h
    obtain ⟨old, hold, rfl⟩ := h
    exact onFile_set hold rfl rfl
  | contractCreate request =>
    obtain rfl := Option.some.inj hentry
    obtain ⟨⟨_, db'⟩, h, rfl⟩ := map_eq_ok.mp hexec
    obtain ⟨c, hentered, hrows⟩ := contract_created h
    exact onFile_insert hentered hrows
  | contractUpdate k request =>
    obtain rfl := Option.some.inj hentry
    obtain ⟨⟨_, db'⟩, h, rfl⟩ := map_eq_ok.mp hexec
    obtain ⟨old, c, hold, hentered, hrows⟩ := contract_updated h
    exact onFile_set hold hentered hrows
  | maintenanceCreate request =>
    obtain rfl := Option.some.inj hentry
    obtain ⟨⟨_, db'⟩, h, rfl⟩ := map_eq_ok.mp hexec
    obtain ⟨m, hentered, hrows⟩ := maintenance_created h
    exact onFile_insert hentered hrows
  | maintenanceUpdate k request =>
    obtain rfl := Option.some.inj hentry
    obtain ⟨⟨_, db'⟩, h, rfl⟩ := map_eq_ok.mp hexec
    obtain ⟨old, m, hold, hentered, hrows⟩ := maintenance_updated h
    exact onFile_set hold hentered hrows
  | _ => exact absurd hentry (by simp [Call.entry])

/-- What is on file stays on file as long as nothing else is entered in its row. -/
theorem Entry.OnFile.run {entry : Entry} (h : entry.OnFile w.db) (hused : entry.row.Used w.db)
    (hrun : Relation.ReflTransGen (StepBy fun w env later => later.Spares entry.row w env) w w') :
    entry.OnFile w'.db := by
  have hkept : entry.row.Kept w.db w'.db := by
    induction hrun with
    | refl => exact .refl _ _
    | tail _ hstep ih =>
      obtain ⟨env', later, -, hspares, rfl⟩ := hstep
      exact ih.trans (Call.commit_kept hspares)
  exact h.kept hused hkept

/-- **The last save wins.** Let a call that enters a row return, and let any calls follow, of
which none succeeds in entering that row: reads that write, status changes, completions,
removals, forms for other rows, failures. Then the row still holds what was entered, if it is
there at all. -/
theorem last_save_wins {entry : Entry} (hexec : call.exec env db = .ok db')
    (hentry : call.entry db = some entry)
    (hrun : Relation.ReflTransGen (StepBy fun w env later => later.Spares entry.row w env)
      ⟨env.now, db'⟩ w') :
    entry.OnFile w'.db := by
  obtain ⟨hsaved, hused⟩ := Call.exec_saved hexec hentry
  exact Entry.OnFile.run (w := ⟨env.now, db'⟩) hsaved hused hrun

/-- A reservation for the next day is activated by the scheduler, completed and archived. -/
def afterReservation : List (Env × Call) :=
  [(.atTime secondsPerDay, .scheduledAutoActivate),
   (.atTime (2 * secondsPerDay), .registerReturn 1),
   (.atTime (2 * secondsPerDay), .softDelete 1)]

theorem last_save_wins_archived :
    ∃ db' c, Call.exec (.atTime 0) (World.after fleetOfOne).db
        (.contractCreate (booking secondsPerDay none 10000)) = .ok db' ∧
      (runCalls afterReservation ⟨0, db'⟩).db.contracts.get? 1 = some c ∧
      c.status = .completed ∧ c.deleted = true ∧
      ContractEntered (booking secondsPerDay none 10000) c := by
  obtain ⟨db', hexec, c, hget, hstatus, hdeleted⟩ : ∃ db', Call.exec (.atTime 0)
      (World.after fleetOfOne).db (.contractCreate (booking secondsPerDay none 10000)) = .ok db' ∧
      ∃ c, (runCalls afterReservation ⟨0, db'⟩).db.contracts.get? 1 = some c ∧
        c.status = .completed ∧ c.deleted = true := ⟨_, rfl, _, rfl, rfl, rfl⟩
  have hsorted : (0 :: afterReservation.map fun c => c.1.now).Pairwise (· ≤ ·) := by decide
  have honFile := last_save_wins hexec rfl (runCalls_runBy afterReservation ⟨0, db'⟩
    (by simp [afterReservation, Call.Spares, Call.entry]) hsorted)
  exact ⟨db', c, hexec, hget, hstatus, hdeleted, honFile c hget⟩

end CarRental
