import CarRental.Desk.Calls

/-!
# CarRental.Rental

**Cars and contracts over whole runs.** Four consequences of the invariant of the
rental desk, and what the deletion of a client does:

* `rented_iff_active`: the status column of a car and the status column of the
  contracts, written by hand in about fifteen operations, agree;
* `no_double_booking`: no instant of a car is promised twice;
* `contract_lifecycle`: what can become of a contract, from any reachable state
  on;
* `references_intact`: rows are removed from three tables, but never one that
  another row refers to; and
* `deletion_reported_iff`: the price of the last, that a client with a past is kept
  although the deletion reports success.
-/

namespace CarRental

open Lib Desk ContractService

/-! ### A first day -/

/-- One car and one client. -/
def fleetOfOne : List (Env × Call) :=
  [(.atTime 0, .carCreate
      { brand := "Dacia", fuelType := .diesel, matricule := "1-A-1", mileage := some 0 } none),
   (.atTime 0, .clientCreate { fullName := "Client" })]

/-- A booking of that car for that client, for a total given to the hundredth. -/
def booking (departure : LocalDateTime) (expectedReturn : Option LocalDateTime) (total : Amount) :
    ContractRequest where
  carId := 1
  clientId := 1
  departureDatetime := some departure
  expectedReturnDatetime := expectedReturn
  totalGeneral := some (.ofAmount total)

/-- The car leaves for a day. -/
def firstRental : List (Env × Call) :=
  fleetOfOne ++ [(.atTime 0, .contractCreate (booking 0 (some secondsPerDay) 10000))]

theorem firstRental_reachable : Reachable (World.after firstRental) :=
  reachable_after firstRental (by decide)

/-! ### Rented and active -/

variable {w w' : World}

/-- A rented car with an open contract is refused by `markAvailable`. -/
theorem markAvailable_open {env : Env} {db : Db} {k i : Id} {car : Car} {c : Contract}
    (hcar : db.cars.get? k = some car) (hrented : car.status = .rented)
    (hc : db.contracts.get? i = some c) (hk : c.carId = k) (hopen : Open c) :
    CarService.markAvailable env k db =
      .error (.illegalArgument "CAR_HAS_ACTIVE_CONTRACT") := by
  have hex : ContractRepository.existsByCarIdAndDeletedFalseAndStatusIn db k
      [.inProgress, .active] = true := by
    refine Table.any_iff.mpr ⟨i, c, hc, ?_⟩
    rcases hopen with ⟨hdel, hst | hst⟩ <;> simp [hk, hdel, hst]
  simp [CarService.markAvailable, CarService.getCar, orThrow, throwIf, hcar, hrented, hex, bind,
    Except.bind]

/-- **The two status columns agree.** A car is `RENTED` exactly when it has an `ACTIVE`
contract; it then has exactly one; an archived contract is never `ACTIVE`; and a rented car
cannot be marked available by hand. -/
theorem rented_iff_active (h : Reachable w) :
    (∀ k car, w.db.cars.get? k = some car →
      (car.status = .rented ↔ ∃ i, RunsOn w.db.contracts i k) ∧
      (car.status = .rented → ∃! i, RunsOn w.db.contracts i k) ∧
      (car.status = .rented → ∀ env, ∃ e, CarService.markAvailable env k w.db = .error e)) ∧
    (∀ i c, w.db.contracts.get? i = some c → c.deleted = true → c.status ≠ .active) := by
  have hI := inv_of_reachable h
  refine ⟨fun k car hcar => ?_, fun i c hc hdel hact => ?_⟩
  · have hiff : car.status = .rented ↔ ∃ i, RunsOn w.db.contracts i k := by
      rw [← hI.rented (out_of_get? hcar), decide_eq_true_eq]
    refine ⟨hiff, fun hrented => ?_, fun hrented env => ?_⟩
    · obtain ⟨i, hi⟩ := hiff.mp hrented
      exact ⟨i, hi, fun j hj => hI.runsOnUnique hj hi⟩
    · obtain ⟨i, c, hc, hcarId, hact⟩ := hiff.mp hrented
      have hopen : Open c := ⟨hI.activeNotDeleted hc hact, Or.inr hact⟩
      exact ⟨_, markAvailable_open hcar hrented hc hcarId hopen⟩
  · rw [hI.activeNotDeleted hc hact] at hdel
    exact absurd hdel (by decide)

/-- After the first hand-over the car is out on contract 1 only. -/
theorem rented_iff_active_firstRental :
    Reachable (World.after firstRental) ∧
    ∃! i, RunsOn (World.after firstRental).db.contracts i 1 := by
  refine ⟨firstRental_reachable, ?_⟩
  obtain ⟨car, hcar, hst⟩ : ∃ car, (World.after firstRental).db.cars.get? 1 = some car ∧
      car.status = .rented := ⟨_, rfl, rfl⟩
  exact (((rented_iff_active firstRental_reachable).1 1 car hcar).2.1 hst)

/-! ### No double booking -/

/-- Contract `i` is open and holds car `k` at the instant `t`. -/
def Occupies (db : Db) (k : Id) (t : LocalDateTime) (i : Id) : Prop :=
  ∃ c departure expectedReturn, db.contracts.get? i = some c ∧ c.carId = k ∧ Open c ∧
    c.departureDatetime = some departure ∧ c.expectedReturnDatetime = some expectedReturn ∧
    departure ≤ t ∧ t < expectedReturn

/-- **No double booking.** At most one open contract holds a car at any instant. -/
theorem no_double_booking (h : Reachable w) {k i j : Id} {t : LocalDateTime}
    (hi : Occupies w.db k t i) (hj : Occupies w.db k t j) : i = j := by
  obtain ⟨c, s, e, hc, hk, ho, hs, he, hst, hte⟩ := hi
  obtain ⟨c', s', e', hc', hk', ho', hs', he', hst', hte'⟩ := hj
  by_contra hne
  -- both periods contain `t`, so they overlap, and empty periods are out of the question
  have hclash : Clash c c' :=
    ⟨hk.trans hk'.symm, s, e, s', e', hs, he, hs', he', Int.lt_of_le_of_lt hst hte',
      Int.lt_of_le_of_lt hst' hte⟩
  exact (inv_of_reachable h).disjoint hc hc' hne ho ho' hclash

/-- The car leaves for a day, and is reserved for the day after. -/
def backToBack : List (Env × Call) :=
  firstRental ++
    [(.atTime 0, .contractCreate (booking secondsPerDay (some (2 * secondsPerDay)) 10000))]

/-- The instant at which the second contract takes over from the first is the second's. -/
theorem no_double_booking_backToBack :
    Occupies (World.after backToBack).db 1 0 1 ∧
    Occupies (World.after backToBack).db 1 secondsPerDay 2 ∧
    ∀ i, Occupies (World.after backToBack).db 1 secondsPerDay i → i = 2 := by
  have hfirst : Occupies (World.after backToBack).db 1 0 1 :=
    ⟨_, 0, secondsPerDay, rfl, rfl, by decide, rfl, rfl, by decide, by decide⟩
  have hsecond : Occupies (World.after backToBack).db 1 secondsPerDay 2 :=
    ⟨_, secondsPerDay, 2 * secondsPerDay, rfl, rfl, by decide, rfl, rfl, by decide, by decide⟩
  have hreach : Reachable (World.after backToBack) := reachable_after backToBack (by decide)
  exact ⟨hfirst, hsecond, fun i hi => no_double_booking hreach hi hsecond⟩

/-! ### The life of a contract -/

/-- The transitions of the status column of one contract. -/
inductive Next : ContractStatus → ContractStatus → Prop
  | activate : Next .inProgress .active
  | complete : Next .active .completed

/-- What a contract can have become. -/
structure Evolves (c c' : Contract) : Prop where
  status : Relation.ReflTransGen Next c.status c'.status
  /-- The archived flag is never lowered. -/
  deleted : c.deleted = true → c'.deleted = true
  /-- Once the car has left, the contract keeps it. -/
  car : c.status ≠ .inProgress → c'.carId = c.carId
  /-- A completed contract changes in its archived flag only ... -/
  frozen : c.status = .completed → c' = { c with deleted := c'.deleted }
  /-- ... and an archived one not at all. -/
  archived : c.deleted = true → c' = c

/-- No status leads back to the reserved state. -/
theorem next_ne_inProgress {s s' : ContractStatus} (h : Relation.ReflTransGen Next s s')
    (hs : s ≠ .inProgress) : s' ≠ .inProgress := by
  induction h with
  | refl => exact hs
  | tail _ hstep _ => cases hstep <;> decide

namespace Evolves

variable {c c' c'' : Contract}

theorem refl (c : Contract) : Evolves c c :=
  ⟨.refl, id, fun _ => rfl, fun _ => rfl, fun _ => rfl⟩

theorem trans (h : Evolves c c') (h' : Evolves c' c'') : Evolves c c'' where
  status := h.status.trans h'.status
  deleted := fun hdel => h'.deleted (h.deleted hdel)
  car := fun hst => (h'.car (next_ne_inProgress h.status hst)).trans (h.car hst)
  frozen := by
    intro hst
    have hc' := h.frozen hst
    have hst' : c'.status = .completed := by rw [hc']; exact hst
    rw [h'.frozen hst', hc']
  archived := fun hdel => (h'.archived (h.deleted hdel)).trans (h.archived hdel)

/-- A contract that is neither archived nor completed may change, as long as its status
moves forward and it keeps a car that has left. -/
theorem of_live (hdel : c.deleted = false) (hst : c.status ≠ .completed)
    (hnext : Relation.ReflTransGen Next c.status c'.status)
    (hcar : c.status ≠ .inProgress → c'.carId = c.carId) : Evolves c c' where
  status := hnext
  deleted := fun h => absurd h (by simp [hdel])
  car := hcar
  frozen := fun h => absurd h hst
  archived := fun h => absurd h (by simp [hdel])

end Evolves

/-- Each way of touching a contract is an evolution. -/
theorem evolves_of_move {env : Env} {a : Action} {db : Db} {ledger : Table IncomeRecord} {i : Id}
    {c c' : Contract} (hI : Inv db) (hc : db.contracts.get? i = some c)
    (h : ContractMove env db ledger i c a c') : Evolves c c' := by
  cases h with
  | edit hdel hncomp hst _ hsame _ _ _ =>
    refine .of_live hdel hncomp (by rw [hst]) fun hleft => hsame ?_
    exact ((hI.left_iff hc).mp hleft).resolve_right hncomp
  | activate hdel hst _ _ _ =>
    refine .of_live hdel (by rw [hst]; decide) ?_ (fun _ => rfl)
    rw [hst]
    exact .single .activate
  | complete hdel hst _ _ =>
    refine .of_live hdel (by rw [hst]; decide) ?_ (fun _ => rfl)
    rw [hst]
    exact .single .complete
  | archive hdel _ =>
    exact ⟨.refl, fun _ => rfl, fun _ => rfl, fun _ => rfl, fun h => absurd h (by simp [hdel])⟩

/-- No contract disappears, and each evolves. -/
def ContractsEvolve (db db' : Db) : Prop :=
  ∀ i c, db.contracts.get? i = some c →
    ∃ c', db'.contracts.get? i = some c' ∧ Evolves c c'

theorem contractsEvolve_act {env : Env} {a : Action} {db db' : Db} (hI : Inv db)
    (h : Act env a db db') : ContractsEvolve db db' := by
  intro i c hc
  rcases h.contracts_cases with hsame | ⟨c₀, _, _, -, -, -, -, -, hins⟩ |
    ⟨id, old, new, hget, hmove, hset⟩
  · exact ⟨c, hsame ▸ hc, .refl c⟩
  · exact ⟨c, hins ▸ Table.get?_insert_of_get? hc, .refl c⟩
  · rw [hset]
    by_cases hi : i = id
    · subst hi
      obtain rfl : old = c := Option.some.inj (hget.symm.trans hc)
      exact ⟨new, Table.get?_set_self hget, evolves_of_move hI hget hmove⟩
    · exact ⟨c, by rw [Table.get?_set_ne hi]; exact hc, .refl c⟩

/-- **The life cycle of a contract** along every run. No contract is ever `CANCELLED`; a
completed one has its actual return; an archived one is not `ACTIVE`; and from any reachable
state on, the contract stays and evolves: its status only moves forward, its archived flag is
never lowered, its car is fixed once it is `ACTIVE`, a completed contract is frozen up to the
archived flag, and an archived one is frozen altogether. -/
theorem contract_lifecycle (h : Reachable w) (hrun : Relation.ReflTransGen Step w w') {i : Id}
    {c : Contract} (hc : w.db.contracts.get? i = some c) :
    c.status ≠ .cancelled ∧ (c.status = .completed → c.actualReturnDatetime ≠ none) ∧
    (c.deleted = true → c.status ≠ .active) ∧
    ∃ c', w'.db.contracts.get? i = some c' ∧ Evolves c c' := by
  have hI := inv_of_reachable h
  have hevolve : ContractsEvolve w.db w'.db := by
    refine relates_of_act ?_ ?_ contractsEvolve_act h hrun
    · exact fun db i c hc => ⟨c, hc, .refl c⟩
    · intro db₁ db₂ db₃ h₁₂ h₂₃ i c hc
      obtain ⟨c', hc', hev⟩ := h₁₂ i c hc
      obtain ⟨c'', hc'', hev'⟩ := h₂₃ i c' hc'
      exact ⟨c'', hc'', hev.trans hev'⟩
  refine ⟨hI.notCancelled hc, hI.completedReturned hc, fun hdel hact => ?_, hevolve i c hc⟩
  rw [hI.activeNotDeleted hc hact] at hdel
  exact absurd hdel (by decide)

/-- The first rental is returned a day later and archived: the contract stays, with its car. -/
theorem contract_lifecycle_firstRental :
    ∃ c c', (World.after firstRental).db.contracts.get? 1 = some c ∧ c.status = .active ∧
      (runCalls [(.atTime secondsPerDay, .registerReturn 1),
        (.atTime secondsPerDay, .softDelete 1)] (World.after firstRental)).db.contracts.get? 1 =
          some c' ∧ c'.status = .completed ∧ c'.deleted = true ∧ Evolves c c' := by
  obtain ⟨c, hc, hst⟩ : ∃ c, (World.after firstRental).db.contracts.get? 1 = some c ∧
      c.status = .active := ⟨_, rfl, rfl⟩
  have hrun := runCalls_run [(.atTime secondsPerDay, .registerReturn 1),
    (.atTime secondsPerDay, .softDelete 1)] (World.after firstRental) (by decide)
  obtain ⟨-, -, -, c', hc', hev⟩ := contract_lifecycle firstRental_reachable hrun hc
  refine ⟨c, c', hc, hst, hc', ?_, ?_, hev⟩
  · obtain rfl := Option.some.inj hc'
    rfl
  · obtain rfl := Option.some.inj hc'
    rfl

/-! ### References -/

/-- Archiving a contract removes no client: the archived contract still refers to its own. -/
theorem softDelete_clients {env : Env} {id : Id} {db db' : Db}
    (h : softDelete env id db = .ok db') : db'.clients = db.clients := by
  unfold softDelete at h
  simp only [bind_eq_ok, throwIf_eq_ok, getContract_eq_ok] at h
  obtain ⟨c, ⟨hget, -⟩, -, -, h⟩ := h
  -- the booking before it touches neither contracts nor clients
  obtain ⟨db₁, hcontracts, hclients, hdb'⟩ : ∃ db₁ : Db, db₁.contracts = db.contracts ∧
      db₁.clients = db.clients ∧ OrphanClientService.removeClientIfOrphan c.clientId
        { db₁ with contracts := db₁.contracts.set id { c with deleted := true } } = db' := by
    split at h
    · rw [bind_eq_ok] at h
      obtain ⟨booked, hbook, h⟩ := h
      have hframe := booked_frame hbook
      refine ⟨booked, ?_, ?_, pure_eq_ok.mp h⟩
      · rw [← hframe]
      · rw [← hframe]
    · rw [bind_eq_ok] at h
      obtain ⟨_, hsame, h⟩ := h
      obtain rfl := pure_eq_ok.mp hsame
      exact ⟨db, rfl, rfl, pure_eq_ok.mp h⟩
  rcases OrphanClientService.removeClientIfOrphan_cases c.clientId
    { db₁ with contracts := db₁.contracts.set id { c with deleted := true } }
    with hkeep | ⟨hnone, -⟩
  · rw [hkeep] at hdb'
    rw [← hdb', ← hclients]
  · have hrow : (db₁.contracts.set id { c with deleted := true }).get? id =
        some { c with deleted := true } := by
      rw [hcontracts]
      exact Table.get?_set_self hget
    exact (hnone id _ hrow rfl).elim

/-- **No dangling reference** in any reachable state: every contract, archived or not, has its
car and its client, and every maintenance its car; and archiving a contract removes no
client. -/
theorem references_intact (h : Reachable w) :
    (∀ i c, w.db.contracts.get? i = some c →
      (∃ car, w.db.cars.get? c.carId = some car) ∧
      ∃ client, w.db.clients.get? c.clientId = some client) ∧
    (∀ i m, w.db.maintenances.get? i = some m → ∃ car, w.db.cars.get? m.carId = some car) ∧
    ∀ env id db', softDelete env id w.db = .ok db' → db'.clients = w.db.clients := by
  have hI := inv_of_reachable h
  refine ⟨fun i c hc => ⟨?_, hI.contractClient hc⟩, fun i m hm => ?_, fun env id db' hdel => ?_⟩
  · exact out_ne_none_iff.mp (hI.contractCar hc)
  · exact out_ne_none_iff.mp (hI.maintenanceCar hm)
  · exact softDelete_clients hdel

/-- The first rental is returned and archived, and its client stays. -/
theorem references_intact_archived :
    ∃ w db', Reachable w ∧ softDelete (.atTime secondsPerDay) 1 w.db = .ok db' ∧
      db'.clients = w.db.clients ∧ (w.db.clients.get? 1).isSome = true := by
  have hw : Reachable (runCalls [(.atTime secondsPerDay, .registerReturn 1)]
      (World.after firstRental)) :=
    firstRental_reachable.trans (runCalls_run _ _ (by decide))
  obtain ⟨db', hdel⟩ : ∃ db', softDelete (.atTime secondsPerDay) 1 (runCalls
      [(.atTime secondsPerDay, .registerReturn 1)] (World.after firstRental)).db = .ok db' :=
    ⟨_, rfl⟩
  exact ⟨_, db', hw, hdel, (references_intact hw).2.2 _ _ db' hdel, by decide⟩

/-! ### Deleting a client -/

section Deletion

variable {db db' : Db} {id : Id}

/-- Some contract, archived or not, is the client's. -/
def HasContract (db : Db) (clientId : Id) : Prop :=
  ∃ i c, db.contracts.get? i = some c ∧ c.clientId = clientId

/-- Some open contract is the client's. -/
def HasOpenContract (db : Db) (clientId : Id) : Prop :=
  ∃ i c, db.contracts.get? i = some c ∧ c.clientId = clientId ∧ Open c

theorem existsByClientIdAndDeletedFalseAndStatusIn_iff :
    ContractRepository.existsByClientIdAndDeletedFalseAndStatusIn db id [.inProgress, .active] =
      true ↔ HasOpenContract db id := by
  unfold ContractRepository.existsByClientIdAndDeletedFalseAndStatusIn HasOpenContract Open
  simp only [Table.any_iff, Bool.and_eq_true, decide_eq_true_eq, Bool.not_eq_true',
    List.contains_cons, List.contains_nil, Bool.or_false, Bool.or_eq_true, beq_iff_eq, and_assoc]

theorem countByClientId_pos_iff :
    0 < ContractRepository.countByClientId db id ↔ HasContract db id := by
  unfold ContractRepository.countByClientId HasContract
  rw [List.length_pos_iff_exists_mem]
  simp only [Table.mem_select, Prod.exists, decide_eq_true_eq]

/-- After the controlled removal the client is gone if it was gone before, or if no contract
is its own. -/
theorem removeClientIfOrphan_gone_iff :
    (OrphanClientService.removeClientIfOrphan id db).clients.get? id = none ↔
      db.clients.get? id = none ∨ ¬ HasContract db id := by
  rcases OrphanClientService.removeClientIfOrphan_cases id db with hkeep | ⟨hnone, hdel⟩
  · -- the removal gave up: a contract of the client, or no client
    have hgaveUp : db.clients.get? id = none ∨ HasContract db id := by
      by_contra hnot
      rw [not_or] at hnot
      have hcount : ¬ 0 < ContractRepository.countByDeletedFalseAndClientId db id := by
        intro hpos
        obtain ⟨r, hr⟩ := List.length_pos_iff_exists_mem.mp hpos
        obtain ⟨hget, hclient⟩ := Table.mem_select.mp hr
        exact hnot.2 ⟨r.1, r.2, hget, by simpa using (Bool.and_eq_true_iff.mp hclient).2⟩
      have hall : ¬ 0 < ContractRepository.countByClientId db id :=
        fun hpos => hnot.2 (countByClientId_pos_iff.mp hpos)
      have hsame := congrArg (fun db : Db => db.clients.get? id) hkeep
      simp only [OrphanClientService.removeClientIfOrphan, if_neg hcount,
        Option.isNone_iff_eq_none, if_neg hnot.1, if_neg hall, Table.get?_delete, if_true] at hsame
      exact hnot.1 hsame.symm
    rw [hkeep]
    tauto
  · rw [hdel]
    have hno : ¬ HasContract db id := by
      rintro ⟨i, c, hc, hclient⟩
      exact hnone i c hc hclient
    simp [Table.get?_delete, hno]

/-- A deletion returns exactly when the client exists and has no open contract. -/
theorem delete_eq_ok_iff : ClientService.delete id db = .ok db' ↔
    db.clients.get? id ≠ none ∧ ¬ HasOpenContract db id ∧
      OrphanClientService.removeClientIfOrphan id db = db' := by
  unfold ClientService.delete ClientService.getClient
  simp only [bind_eq_ok, throwIf_eq_ok, orThrow_eq_ok, pure_eq_ok,
    existsByClientIdAndDeletedFalseAndStatusIn_iff, Option.ne_none_iff_exists']
  simp only [exists_and_left, exists_and_right, exists_const]

/-- A deletion that returns has removed the client, and one that throws has changed
nothing. -/
def DeletionReported (env : Env) (db : Db) (id : Id) : Prop :=
  (∀ db', ClientService.delete id db = .ok db' →
    ((Call.clientDelete id).commit env db).clients.get? id = none) ∧
  ∀ e, ClientService.delete id db = .error e → (Call.clientDelete id).commit env db = db

/-- **The deletion of a client does what it reports exactly when** the client is unknown, has
an open contract, or has none at all. A client whose contracts are all completed or archived
is kept without a word. -/
theorem deletion_reported_iff (env : Env) (db : Db) (id : Id) :
    DeletionReported env db id ↔
      (db.clients.get? id ≠ none → HasContract db id → HasOpenContract db id) := by
  have hthrow : ∀ e, ClientService.delete id db = .error e →
      (Call.clientDelete id).commit env db = db := by
    intro e he
    simp only [Call.commit, Call.exec, he, settle_error]
  have hreturn : ∀ {db'}, ClientService.delete id db = .ok db' →
      (Call.clientDelete id).commit env db = db' := by
    intro db' hok
    simp only [Call.commit, Call.exec, hok, settle_ok]
  unfold DeletionReported
  rw [and_iff_left hthrow]
  constructor
  · intro hgone hclient hcontract
    by_contra hopen
    have hok := delete_eq_ok_iff.mpr ⟨hclient, hopen, rfl⟩
    have hleft := hgone _ hok
    rw [hreturn hok, removeClientIfOrphan_gone_iff] at hleft
    exact hleft.elim hclient (· hcontract)
  · intro hkept db' hok
    obtain ⟨hclient, hopen, rfl⟩ := delete_eq_ok_iff.mp hok
    rw [hreturn hok, removeClientIfOrphan_gone_iff]
    exact Or.inr fun hcontract => hopen (hkept hclient hcontract)

/-- The first rental is returned; its client is deleted, is told so, and is still there. -/
theorem deletion_keeps_client :
    ∃ w, Reachable w ∧ ClientService.delete 1 w.db = .ok w.db ∧
      ((Call.clientDelete 1).commit (.atTime secondsPerDay) w.db).clients.get? 1 ≠ none := by
  refine ⟨runCalls [(.atTime secondsPerDay, .registerReturn 1)] (World.after firstRental),
    firstRental_reachable.trans (runCalls_run _ _ (by decide)), rfl, by decide⟩

end Deletion

end CarRental
