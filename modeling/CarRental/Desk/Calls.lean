import CarRental.Desk.Refinement

/-!
# CarRental.Desk.Calls

**Every call is a run of the desk**, and a run of its own actions only.

`Action.PerformedBy` lists, for each action, the calls that can perform it; the actions
name the rows the call names. `Call.exec_run` is the refinement: what a call that returns
has written is a run of such actions. What follows is a frame rule for every table: a row
is only ever changed by the calls that are meant to change it.

Three families of actions are set apart, because what they do depends on the request and
not only on the tables: `editContract`, which only `ContractService.update` takes,
`complete`, which only a registered return takes, and the changes to maintenances. The
first two are the first action of their call. All other actions are `Routine`.
-/

namespace CarRental.Desk

open Lib ContractService

variable {env : Env} {db db' : Db} {call : Call} {a : Action}

/-- The actions whose effect is determined by the tables: all but an edit of the terms of a
contract, the end of a rental and a change to the maintenances. -/
def Action.Routine : Action → Prop
  | .editContract _ _ | .complete _ | .addMaintenance | .editMaintenance _
  | .removeMaintenance _ => False
  | _ => True

theorem Action.Routine.ne_editContract {a : Action} (h : a.Routine) (id : Id) (terms : Contract) :
    a ≠ .editContract id terms := by
  intro heq
  rw [heq] at h
  exact h

theorem Action.Routine.ne_complete {a : Action} (h : a.Routine) (id : Id) : a ≠ .complete id := by
  intro heq
  rw [heq] at h
  exact h

/-- The call asks for a car on the spot, with `request`: a creation that starts now, or an edit
that lets a reservation start now. -/
def HandsOver (env : Env) (db : Db) (call : Call) (id : Id) (request : ContractRequest) : Prop :=
  call = .contractCreate request ∧ id = db.contracts.nextId ∧ StartsNow env request ∨
    call = .contractUpdate id request ∧ EditStartsNow env db id request

/-- The calls that can hand over a car on contract `id` and book `total` for it: the sweeps and
the status change book what the row holds, a creation and an edit what the request says. -/
def Activates (env : Env) (db : Db) (call : Call) (id : Id) (total : Option Decimal) : Prop :=
  (call.sweeps = true ∨ call = .updateStatus id .active) ∧
    (∃ c : Contract, total = c.loaded.totalGeneral) ∨
  ∃ request, HandsOver env db call id request ∧ total = request.totalGeneral

/-- The calls that can perform the action in a transaction that starts from `db`. -/
def Action.PerformedBy (env : Env) (db : Db) : Action → Call → Prop
  | .addCar, call => ∃ request image, call = .carCreate request image
  | .editCar id, call => ∃ request image, call = .carUpdate id request image
  | .removeCar id, call => call = .carDelete id
  | .reconcile _, call => call.sweeps = false
  | .release id, call => call = .markAvailable id
  | .keepRented id, call => ∃ i request, call = .contractUpdate i request ∧ request.carId = id
  | .addClient, call => ∃ request, call = .clientCreate request
  | .editClient id, call => ∃ request, call = .clientUpdate id request
  | .removeClient id, call => call = .clientDelete id ∨ ∃ i, call = .softDelete i
  | .reserve, call => ∃ request, call = .contractCreate request
  | .editContract id _, call => ∃ request, call = .contractUpdate id request
  | .activate id total, call => Activates env db call id total
  | .complete id, call => call = .updateStatus id .completed ∨ call = .registerReturn id
  | .book id, call => call = .softDelete id
  | .archive id, call => call = .softDelete id
  | .addMaintenance, call => ∃ request, call = .maintenanceCreate request
  | .editMaintenance id, call => (∃ request, call = .maintenanceUpdate id request) ∨
      call = .maintenanceComplete id
  | .removeMaintenance id, call => call = .maintenanceDelete id

/-- What a call that returns has done. -/
inductive Did (env : Env) (db db' : Db) (call : Call) : Prop
  /-- Routine actions. -/
  | routine {as : List Action} :
      (∀ a ∈ as, a.Routine ∧ a.PerformedBy env db call) → Run env as db db' → Did env db db' call
  /-- New terms for a contract, and routine actions on account of them. -/
  | edit {id : Id} {request : ContractRequest} {terms : Contract} {as : List Action} :
      call = .contractUpdate id request →
      terms.totalGeneral = request.totalGeneral.map Decimal.stored →
      (∀ a ∈ as, a.Routine ∧ a.PerformedBy env db call) →
      Run env (.editContract id terms :: as) db db' → Did env db db' call
  /-- The end of a rental. -/
  | complete {id : Id} :
      call = .updateStatus id .completed ∨ call = .registerReturn id →
      Run env [.complete id] db db' → Did env db db' call
  /-- One change to the maintenances. -/
  | maintenance {a : Action} :
      (a = .addMaintenance ∨ (∃ id, a = .editMaintenance id) ∨ ∃ id, a = .removeMaintenance id) →
      a.PerformedBy env db call → Run env [a] db db' → Did env db db' call

namespace Did

theorem nothing : Did env db db call := .routine (by simp) (.nil db)

theorem one (h : Run env [a] db db') (hroutine : a.Routine) (ha : a.PerformedBy env db call) :
    Did env db db' call :=
  .routine (List.forall_mem_singleton.mpr ⟨hroutine, ha⟩) h

theorem sweep (hsweep : call.sweeps = true) (h : autoActivateContracts env db = .ok db') :
    Did env db db' call := by
  obtain ⟨taken, -, hrun⟩ := autoActivateContracts_run h
  refine .routine ?_ hrun
  intro a ha
  obtain ⟨p, -, rfl⟩ := List.mem_map.mp ha
  exact ⟨trivial, Or.inl ⟨Or.inl hsweep, p.2, rfl⟩⟩

theorem reconcileAll (hsweep : call.sweeps = false) :
    Did env db (MaintenanceService.reconcileAllCarStatuses env.today db) call := by
  refine .routine ?_ (reconcileAll_run db)
  intro a ha
  obtain ⟨id, -, rfl⟩ := List.mem_map.mp ha
  exact ⟨trivial, hsweep⟩

theorem archive {id : Id} (h : softDelete env id db = .ok db') :
    Did env db db' (.softDelete id) := by
  obtain ⟨pre, clientId, hpre, hrun⟩ := softDelete_run h
  have hpre' : ∀ a ∈ pre, a.Routine ∧ a.PerformedBy env db (.softDelete id) := by
    rcases hpre with rfl | rfl
    · simp
    · simp [Action.Routine, Action.PerformedBy]
  rcases hrun with hrun | hrun
  · exact .routine (List.forall_mem_append.mpr
      ⟨hpre', by simp [Action.Routine, Action.PerformedBy]⟩) hrun
  · exact .routine (List.forall_mem_append.mpr
      ⟨hpre', by simp [Action.Routine, Action.PerformedBy]⟩) hrun

/-- The actions of a call are its own. -/
theorem performed (h : Did env db db' call) :
    ∃ as : List Action, (∀ a ∈ as, a.PerformedBy env db call) ∧ Run env as db db' := by
  cases h with
  | routine has hrun => exact ⟨_, fun a ha => (has a ha).2, hrun⟩
  | edit hcall _ has hrun =>
    refine ⟨_, List.forall_mem_cons.mpr ⟨?_, fun a ha => (has a ha).2⟩, hrun⟩
    exact ⟨_, hcall⟩
  | complete hcall hrun =>
    refine ⟨_, List.forall_mem_singleton.mpr ?_, hrun⟩
    exact hcall
  | maintenance _ ha hrun => exact ⟨_, List.forall_mem_singleton.mpr ha, hrun⟩

end Did

/-- **Refinement.** A call that returns has performed a run of the desk. -/
theorem Call.exec_run (hexec : call.exec env db = .ok db') : Did env db db' call := by
  cases call with
  -- the sweep itself, and the reads that run behind it
  | autoActivateContracts => exact .sweep rfl hexec
  | scheduledAutoActivate => exact .sweep rfl hexec
  | findInProgressFutureReservations => exact .sweep rfl (Call.sweeps_exec rfl hexec)
  | contractFindAll => exact .sweep rfl (Call.sweeps_exec rfl hexec)
  | findAllByCarId carId => exact .sweep rfl (Call.sweeps_exec rfl hexec)
  | findCarRentalHistory carId => exact .sweep rfl (Call.sweeps_exec rfl hexec)
  | contractFindById id => exact .sweep rfl (Call.sweeps_exec rfl hexec)
  | findActive => exact .sweep rfl (Call.sweeps_exec rfl hexec)
  -- what writes contracts
  | contractCreate request =>
    obtain ⟨⟨_, db'⟩, h, rfl⟩ := map_eq_ok.mp hexec
    rcases (create_run h).2 with ⟨-, hrun⟩ | ⟨hstarts, hrun⟩
    · exact .one hrun trivial ⟨request, rfl⟩
    · refine .routine ?_ hrun
      rintro a (_ | ⟨_, _ | ⟨_, ⟨⟩⟩⟩)
      · exact ⟨trivial, request, rfl⟩
      · exact ⟨trivial, Or.inr ⟨request, Or.inl ⟨rfl, rfl, hstarts⟩, rfl⟩⟩
  | updateStatus id newStatus =>
    obtain ⟨⟨_, db'⟩, h, rfl⟩ := map_eq_ok.mp hexec
    rcases updateStatus_ok h with rfl | rfl
    · obtain ⟨c, hrun⟩ := updateStatus_active_run h
      exact .one hrun trivial (Or.inl ⟨Or.inr rfl, c, rfl⟩)
    · exact .complete (Or.inl rfl) (updateStatus_completed_run h)
  | registerReturn id =>
    obtain ⟨⟨_, db'⟩, h, rfl⟩ := map_eq_ok.mp hexec
    exact .complete (Or.inr rfl) (updateStatus_completed_run h)
  | contractUpdate id request =>
    obtain ⟨⟨_, db'⟩, h, rfl⟩ := map_eq_ok.mp hexec
    obtain ⟨terms, htotal, -, ⟨hstarts, hrun⟩ | ⟨-, hrun | hrun⟩⟩ := update_run h
    · refine .edit rfl htotal ?_ hrun
      rintro a (_ | ⟨_, ⟨⟩⟩)
      exact ⟨trivial, Or.inr ⟨request, Or.inr ⟨rfl, hstarts⟩, rfl⟩⟩
    · exact .edit rfl htotal (by simp) hrun
    · refine .edit rfl htotal ?_ hrun
      rintro a (_ | ⟨_, ⟨⟩⟩)
      exact ⟨trivial, id, request, rfl, rfl⟩
  | softDelete id => exact .archive hexec
  -- what writes cars, their status included
  | carFindAll =>
    obtain rfl := Except.ok.inj hexec
    exact .reconcileAll rfl
  | carFindById id =>
    obtain ⟨r, h, rfl⟩ := map_eq_ok.mp hexec
    simp only [CarService.findById, bind_eq_ok, pure_eq_ok] at h
    obtain ⟨_, -, _, -, rfl⟩ := h
    exact .one (.single (reconcile_act id db)) trivial rfl
  | findByStatus status =>
    obtain rfl := Except.ok.inj hexec
    exact .reconcileAll rfl
  | carCreate request image =>
    obtain ⟨⟨_, db'⟩, h, rfl⟩ := map_eq_ok.mp hexec
    exact .one (car_create_run h) trivial ⟨request, image, rfl⟩
  | carUpdate id request image =>
    obtain ⟨⟨_, db'⟩, h, rfl⟩ := map_eq_ok.mp hexec
    exact .one (car_update_run h) trivial ⟨request, image, rfl⟩
  | markAvailable id =>
    obtain ⟨⟨_, db'⟩, h, rfl⟩ := map_eq_ok.mp hexec
    rcases markAvailable_run h with hrun | hrun
    · exact .one hrun trivial rfl
    · exact .one hrun trivial rfl
  | carDelete id => exact .one (car_delete_run hexec) trivial rfl
  | history carId =>
    obtain ⟨_, -, rfl⟩ := map_eq_ok.mp hexec
    exact .nothing
  | maintenanceFindAll =>
    obtain ⟨r, h, rfl⟩ := map_eq_ok.mp hexec
    simp only [MaintenanceService.findAll, bind_eq_ok, pure_eq_ok] at h
    obtain ⟨_, -, rfl⟩ := h
    exact .reconcileAll rfl
  | maintenanceFindByCarId carId =>
    obtain ⟨r, h, rfl⟩ := map_eq_ok.mp hexec
    simp only [MaintenanceService.findByCarId, bind_eq_ok, pure_eq_ok] at h
    obtain ⟨_, -, _, -, rfl⟩ := h
    exact .one (.single (reconcile_act carId db)) trivial rfl
  | maintenanceCreate request =>
    obtain ⟨⟨_, db'⟩, h, rfl⟩ := map_eq_ok.mp hexec
    exact .maintenance (Or.inl rfl) ⟨request, rfl⟩ (maintenance_create_run h)
  | maintenanceUpdate id request =>
    obtain ⟨⟨_, db'⟩, h, rfl⟩ := map_eq_ok.mp hexec
    exact .maintenance (Or.inr (Or.inl ⟨id, rfl⟩)) (Or.inl ⟨request, rfl⟩)
      (maintenance_update_run h)
  | maintenanceComplete id =>
    obtain ⟨⟨_, db'⟩, h, rfl⟩ := map_eq_ok.mp hexec
    exact .maintenance (Or.inr (Or.inl ⟨id, rfl⟩)) (Or.inr rfl) (maintenance_complete_run h)
  | maintenanceDelete id =>
    exact .maintenance (Or.inr (Or.inr ⟨id, rfl⟩)) rfl (maintenance_delete_run hexec)
  | reconcileAllCarStatuses =>
    obtain rfl := Except.ok.inj hexec
    exact .reconcileAll rfl
  -- clients, and at last what does not write at all
  | clientFindById id =>
    obtain ⟨_, -, rfl⟩ := map_eq_ok.mp hexec
    exact .nothing
  | clientCreate request =>
    obtain rfl := Except.ok.inj hexec
    exact .one (.single .addClient) trivial ⟨request, rfl⟩
  | clientUpdate id request =>
    obtain ⟨r, h, rfl⟩ := map_eq_ok.mp hexec
    simp only [ClientService.update, ClientService.getClient, bind_eq_ok, pure_eq_ok,
      orThrow_eq_ok] at h
    obtain ⟨old, hold, rfl⟩ := h
    exact .one (.single (.editClient hold)) trivial ⟨request, rfl⟩
  | clientDelete id =>
    simp only [Call.exec, ClientService.delete, bind_eq_ok, pure_eq_ok] at hexec
    obtain ⟨_, -, _, -, rfl⟩ := hexec
    rcases removeClientIfOrphan_run id db with hrun | hrun
    · exact .routine (by simp) hrun
    · exact .one hrun trivial (Or.inl rfl)
  | _ =>
    obtain rfl := Except.ok.inj hexec
    exact .nothing

/-- A call that returns has performed actions of its own only. -/
theorem Call.exec_performed (hexec : call.exec env db = .ok db') :
    ∃ as : List Action, (∀ a ∈ as, a.PerformedBy env db call) ∧ Run env as db db' :=
  (Call.exec_run hexec).performed

/-- What a call leaves, whether it returned or was undone. -/
theorem Call.commit_run (env : Env) (call : Call) (db : Db) :
    Did env db (call.commit env db) call := by
  unfold Call.commit
  cases h : call.exec env db with
  | ok db' => exact Call.exec_run h
  | error e => exact .nothing

/-- No action changes the collation, ... -/
theorem Act.collate_eq (h : Act env a db db') : db'.collate = db.collate := by
  cases h with
  | complete _ _ _ _ hdb₁ _ => subst hdb₁; rfl
  | addMaintenance _ hdb₁ hdb₂ _ => subst hdb₁ hdb₂; rfl
  | editMaintenance _ _ hdb₁ hdb₂ _ => subst hdb₁ hdb₂; rfl
  | removeMaintenance _ hdb₁ => subst hdb₁; rfl
  | _ => rfl

/-- ... so no call does. -/
theorem Call.commit_collate (env : Env) (call : Call) (db : Db) :
    (call.commit env db).collate = db.collate := by
  obtain ⟨as, -, hrun⟩ := (Call.commit_run env call db).performed
  exact hrun.invariant (I := fun t => t.collate = db.collate)
    (fun _ _ _ _ hact hs => hact.collate_eq.trans hs) rfl

theorem Run.inv {as : List Action} (h : Run env as db db') (hI : Inv db) : Inv db' :=
  h.invariant (fun _ _ _ _ hact hI => hact.inv hI) hI

/-- **The invariant holds in every reachable state.** -/
theorem inv_of_reachable {w : World} (h : Reachable w) : Inv w.db := by
  refine h.induction (I := fun w => Inv w.db) (fun _ collate => Inv.empty collate) ?_
  intro w env call _ hI _ _
  obtain ⟨as, -, hrun⟩ := (Call.commit_run env call w.db).performed
  exact Run.inv hrun hI

/-- **What an action only moves forward, every run of the system moves forward.** -/
theorem relates_of_act {R : Db → Db → Prop} {w w' : World} (hrefl : ∀ db, R db db)
    (htrans : ∀ {db₁ db₂ db₃}, R db₁ db₂ → R db₂ db₃ → R db₁ db₃)
    (hact : ∀ {env a db db'}, Inv db → Act env a db db' → R db db')
    (h : Reachable w) (hrun : Relation.ReflTransGen Step w w') : R w.db w'.db := by
  refine h.relates hrun hrefl htrans ?_
  intro w env call hw
  obtain ⟨as, -, hrun⟩ := (Call.commit_run env call w.db).performed
  exact hrun.relates hrefl htrans (fun _ _ _ _ h hI => h.inv hI)
    (fun _ _ _ _ h hI => hact hI h) (inv_of_reachable hw)

end CarRental.Desk
