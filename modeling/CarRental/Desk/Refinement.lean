import CarRental.Desk.Invariant

/-!
# CarRental.Desk.Refinement

The services **refine** the rental desk: what a call that returns has written is a
finite run of desk actions.

Each service operation is inverted once, with `bind_eq_ok` and its companions, into
the guards it went through and the tables it wrote; the guards are the premises of
the actions. `CarRental.Desk.Calls` puts the operations together.
-/

namespace CarRental.Desk

open Lib ContractService

/-- A run of the desk within one call. -/
abbrev Run (env : Env) : List Action → Db → Db → Prop := Trace (Act env)

variable {env : Env} {db db' booked : Db} {id : Id} {c : Contract}
  {contract : ContractOf Decimal} {car : Car}

/-! ### Booking -/

/-- Booking writes no table but the ledger. -/
theorem booked_frame {db₁ : Db}
    (h : FinancialService.ensureIncomeForContract env id contract db₁ = .ok booked) :
    { db₁ with incomeRecords := booked.incomeRecords } = booked := by
  rcases FinancialService.ensureIncomeForContract_cases h with
    ⟨-, rfl⟩ | ⟨-, -, rfl⟩ | ⟨-, total, client, -, -, -, rfl⟩ <;> rfl

theorem Act.activate_booked (hget : db.contracts.get? id = some c) (hdel : c.deleted = false)
    (hst : c.status = .inProgress) (hcar : db.cars.get? c.carId = some car)
    (havail : car.status = .available) (hrow : contract.stored = { c with status := .active })
    {total : Option Decimal} (htotal : contract.totalGeneral = total)
    (hbook : FinancialService.ensureIncomeForContract env id contract (rentOut id c car db) =
      .ok booked) : Act env (.activate id total) db booked := by
  have hact := Act.activate hget hdel hst hcar havail hrow htotal hbook
  rwa [booked_frame hbook] at hact

theorem Act.complete_booked {db₁ : Db} (hget : db.contracts.get? id = some c)
    (hdel : c.deleted = false) (hst : c.status = .active)
    (hcar : db.cars.get? c.carId = some car)
    (hdb₁ : db₁ = { db with
      cars := db.cars.set c.carId { car with status := .available }
      contracts := db.contracts.set id
        { c with actualReturnDatetime := some env.now, status := .completed } })
    (hbook : FinancialService.ensureIncomeForContract env id (ContractOf.loaded
      { c with actualReturnDatetime := some env.now, status := .completed }) db₁ = .ok booked) :
    Act env (.complete id) db booked := by
  have hact := Act.complete hget hdel hst hcar hdb₁ hbook
  rwa [booked_frame hbook] at hact

/-! ### The overlap check -/

/-- A period the overlap check lets through is free. -/
theorem free_of_not_overlapping {exclude : Option Id} {c : Contract}
    (h : ¬ hasOverlappingContract env db c.carId c.departureDatetime c.expectedReturnDatetime
      exclude = true) : Free db exclude c := by
  intro i c' hget hex hopen hclash
  obtain ⟨hcar, s, e, s', e', hs, he, hs', he', hlt, hlt'⟩ := hclash
  refine h ?_
  rw [hs, he, hasOverlappingContract_iff]
  exact ⟨i, c', hget, hcar.symm, hopen, hex, by simp [overlaps, hs', he', hlt, hlt']⟩

/-! ### The contract service -/

/-- The departure the request asks for is due. -/
def StartsNow (env : Env) (request : ContractRequest) : Prop :=
  ∃ departure, request.departureDatetime = some departure ∧ departure ≤ env.now

/-- The edit hands the car over: the contract is a reservation, and its new departure is
due. -/
def EditStartsNow (env : Env) (db : Db) (id : Id) (request : ContractRequest) : Prop :=
  StartsNow env request ∧ ∃ c, db.contracts.get? id = some c ∧ c.status = .inProgress

/-- A creation inserts a contract for a free period of the car it names. It reserves, and
hands the car over at once when the departure is due. -/
theorem create_run {request : ContractRequest} {response : ContractResponse}
    (h : create env request db = .ok (response, db')) :
    (∃ c, c.carId = request.carId ∧ Free db none c ∧ db'.contracts = db.contracts.insert c) ∧
    (¬ StartsNow env request ∧ Run env [.reserve] db db' ∨
      StartsNow env request ∧
        Run env [.reserve, .activate db.contracts.nextId request.totalGeneral] db db') := by
  unfold create at h
  simp only [bind_eq_ok, throwIf_eq_ok, findCar, findClient, orThrow_eq_ok] at h
  obtain ⟨car, hcar, -, hover, client, hclient, departure, hdeparture, -, hnow, h⟩ := h
  -- the contract as a name of its own: unfolded, it would be copied into every goal below
  obtain ⟨contract, hcontract⟩ : ∃ contract, contract = apply
    { carId := request.carId, clientId := request.clientId, createdAt := env.now } request :=
    ⟨_, rfl⟩
  have hcarId : contract.stored.carId = request.carId := by rw [hcontract]; rfl
  have hst : contract.stored.status = .inProgress := by rw [hcontract]; rfl
  have hdel : contract.stored.deleted = false := by rw [hcontract]; rfl
  have htotal : contract.totalGeneral = request.totalGeneral := by rw [hcontract]; rfl
  have hclient' : db.clients.get? contract.stored.clientId = some client := by
    rw [hcontract]
    exact hclient
  have hover' : ¬ hasOverlappingContract env db contract.stored.carId
      contract.stored.departureDatetime contract.stored.expectedReturnDatetime none = true := by
    rw [hcontract]
    exact hover
  have hfree := free_of_not_overlapping hover'
  rw [← hcontract] at h
  have hreserve : Act env .reserve db
      { db with contracts := db.contracts.insert contract.stored } :=
    .reserve hst hdel (hcarId ▸ hcar) hclient' hfree
  split at h
  · next hdue =>
    simp only [bind_eq_ok] at h
    obtain ⟨booked, hbook, _, -, h⟩ := h
    obtain ⟨-, rfl⟩ := Prod.mk.inj (pure_eq_ok.mp h)
    -- the departure is due, so the guard on the car has been passed
    have havail : car.status = .available := by
      by_contra hna
      exact hnow ⟨hdue, hna⟩
    refine ⟨⟨{ contract.stored with status := .active }, hcarId, hfree,
      by rw [← booked_frame hbook]; rfl⟩,
      Or.inr ⟨⟨departure, hdeparture, hdue⟩, .cons hreserve (.single ?_)⟩⟩
    have hrow : ({ contract with status := .active } : ContractOf Decimal).stored =
      { contract.stored with status := .active } := rfl
    refine Act.activate_booked Table.get?_insert_self hdel hst (hcarId ▸ hcar) havail hrow htotal ?_
    rw [← hbook, ← hcarId]
    -- the source writes the row once, as running; two writes of one row are one
    unfold rentOut
    rw [Table.insert_set]
    rfl
  · next hnotDue =>
    rw [bind_eq_ok] at h
    obtain ⟨_, -, h⟩ := h
    obtain ⟨-, rfl⟩ := Prod.mk.inj (pure_eq_ok.mp h)
    refine ⟨⟨contract.stored, hcarId, hfree, rfl⟩, Or.inl ⟨fun hstarts => ?_, .single hreserve⟩⟩
    obtain ⟨d, hd, hdue⟩ := hstarts
    obtain rfl : d = departure := Option.some.inj (hd.symm.trans hdeparture)
    exact hnotDue hdue

theorem updateStatus_active_run {response : ContractResponse}
    (h : updateStatus env id .active db = .ok (response, db')) :
    ∃ c : Contract, Run env [.activate id c.loaded.totalGeneral] db db' := by
  unfold updateStatus at h
  simp only [bind_eq_ok, throwIf_eq_ok, orThrow_eq_ok, getContract_eq_ok, not_not, ne_eq] at h
  obtain ⟨c, ⟨hget, hdel⟩, -, hst, car, hcar, -, havail, booked, hbook, _, -, h⟩ := h
  obtain ⟨-, rfl⟩ := Prod.mk.inj (pure_eq_ok.mp h)
  exact ⟨c, .single (Act.activate_booked hget hdel hst hcar havail
    (ContractOf.stored_loaded _) rfl hbook)⟩

theorem updateStatus_completed_run {response : ContractResponse}
    (h : updateStatus env id .completed db = .ok (response, db')) :
    Run env [.complete id] db db' := by
  unfold updateStatus at h
  simp only [bind_eq_ok, throwIf_eq_ok, orThrow_eq_ok, getContract_eq_ok, not_not, ne_eq] at h
  obtain ⟨c, ⟨hget, hdel⟩, -, hst, car, hcar, booked, hbook, _, -, h⟩ := h
  obtain ⟨-, rfl⟩ := Prod.mk.inj (pure_eq_ok.mp h)
  exact .single (Act.complete_booked hget hdel hst hcar rfl hbook)

/-- No other status can be asked for. -/
theorem updateStatus_ok {newStatus : ContractStatus} {response : ContractResponse}
    (h : updateStatus env id newStatus db = .ok (response, db')) :
    newStatus = .active ∨ newStatus = .completed := by
  cases newStatus with
  | active => exact Or.inl rfl
  | completed => exact Or.inr rfl
  | inProgress => simp [updateStatus] at h
  | cancelled => simp [updateStatus] at h

/-- An edit overwrites the contract, for a free period of the car it names. It changes the
terms, then hands the car over when the departure of a reservation is due, or marks the car of
a running contract rented once more. -/
theorem update_run {request : ContractRequest} {response : ContractResponse}
    (h : update env id request db = .ok (response, db')) :
    ∃ terms, terms.totalGeneral = request.totalGeneral.map Decimal.stored ∧
      (∃ old new, db.contracts.get? id = some old ∧ new.carId = request.carId ∧
        Free db (some id) new ∧ db'.contracts = db.contracts.set id new) ∧
      (EditStartsNow env db id request ∧
          Run env [.editContract id terms, .activate id request.totalGeneral] db db' ∨
        ¬ EditStartsNow env db id request ∧ (Run env [.editContract id terms] db db' ∨
          Run env [.editContract id terms, .keepRented request.carId] db db')) := by
  unfold update at h
  simp only [bind_eq_ok, throwIf_eq_ok, findCar, findClient, orThrow_eq_ok, getContract_eq_ok] at h
  obtain ⟨old, ⟨hget, hdel⟩, -, hncomp, car, hcar, -, hover, client, hclient, -, hsame, h⟩ := h
  obtain ⟨contract, hcontract⟩ : ∃ contract, contract = apply
    { old.loaded with carId := request.carId, clientId := request.clientId } request := ⟨_, rfl⟩
  rw [← hcontract] at h
  obtain ⟨terms, hterms⟩ : ∃ terms, terms = contract.stored := ⟨_, rfl⟩
  have hstatus : terms.status = old.status := by rw [hterms, hcontract]; rfl
  have hcarId : terms.carId = request.carId := by rw [hterms, hcontract]; rfl
  have hdeleted : terms.deleted = false := by rw [hterms, hcontract]; exact hdel
  have hdeparture : contract.departureDatetime = request.departureDatetime := by
    rw [hcontract]; rfl
  have htotal : contract.totalGeneral = request.totalGeneral := by rw [hcontract]; rfl
  have hst' : contract.status = terms.status := by rw [hterms]; rfl
  -- a running contract keeps its car, or the call would have thrown
  have hkeep : old.status = .active → terms.carId = old.carId := by
    intro hact
    by_contra hne
    exact hsame ⟨hact, fun heq => hne (hcarId.trans heq.symm)⟩
  have hclient' : db.clients.get? terms.clientId = some client := by
    rw [hterms, hcontract]
    exact hclient
  have hover' : ¬ hasOverlappingContract env db terms.carId terms.departureDatetime
      terms.expectedReturnDatetime (some id) = true := by
    rw [hterms, hcontract]
    exact hover
  have hfree := free_of_not_overlapping hover'
  have hedit : Act env (.editContract id terms) db
      { db with contracts := db.contracts.set id terms } :=
    .editContract hget hdel hncomp hstatus hdeleted hkeep (hcarId ▸ hcar) hclient' hfree
  -- only a reservation is started by an edit
  have hreserved : terms.status ≠ .inProgress → ¬ EditStartsNow env db id request := by
    rintro hne ⟨-, c, hc, hst⟩
    obtain rfl := Option.some.inj (hget.symm.trans hc)
    exact hne (hstatus.trans hst)
  rw [← hterms] at h
  refine ⟨terms, by rw [hterms, ← htotal]; rfl, ?_⟩
  -- the `switch` of the source, after the row has been overwritten
  cases hst : terms.status with
  | inProgress =>
    simp only [hst', hst, bind_eq_ok, throwIf_eq_ok, orThrow_eq_ok] at h
    obtain ⟨departure, hdep, -, hnow, h⟩ := h
    split at h
    · next hdue =>
      simp only [bind_eq_ok] at h
      obtain ⟨booked, hbook, _, -, h⟩ := h
      obtain ⟨-, rfl⟩ := Prod.mk.inj (pure_eq_ok.mp h)
      have havail : car.status = .available := by
        by_contra hna
        exact hnow ⟨hdue, hna⟩
      refine ⟨⟨old, { terms with status := .active }, hget, hcarId, hfree, ?_⟩,
        Or.inl ⟨⟨⟨departure, hdeparture.symm.trans hdep, hdue⟩, old, hget,
          hstatus.symm.trans hst⟩, .cons hedit (.single ?_)⟩⟩
      · rw [← booked_frame hbook]
        exact Table.set_set
      · have hrow : ({ contract with status := .active } : ContractOf Decimal).stored =
          { terms with status := .active } := by rw [hterms]; rfl
        exact Act.activate_booked (Table.get?_set_self hget) hdeleted hst (hcarId ▸ hcar) havail
          hrow htotal hbook
    · next hdue =>
      rw [bind_eq_ok] at h
      obtain ⟨_, -, h⟩ := h
      obtain ⟨-, rfl⟩ := Prod.mk.inj (pure_eq_ok.mp h)
      refine ⟨⟨old, terms, hget, hcarId, hfree, rfl⟩, Or.inr ⟨?_, Or.inl (.single hedit)⟩⟩
      rintro ⟨⟨departure', hdep', hdue'⟩, -⟩
      rw [← hdeparture, hdep] at hdep'
      exact hdue (Option.some.inj hdep' ▸ hdue')
  | active =>
    simp only [hst', hst, bind_eq_ok] at h
    obtain ⟨_, -, h⟩ := h
    obtain ⟨-, rfl⟩ := Prod.mk.inj (pure_eq_ok.mp h)
    have hcar' : contract.carId = request.carId := by rw [hcontract]; rfl
    refine ⟨⟨old, terms, hget, hcarId, hfree, rfl⟩,
      Or.inr ⟨hreserved (by simp [hst]), Or.inr (.cons hedit (.single ?_))⟩⟩
    rw [hcar']
    exact .keepRented hcar (Table.get?_set_self hget) hcarId hst
  | completed => exact absurd (hstatus.symm.trans hst) hncomp
  | cancelled =>
    simp only [hst', hst, bind_eq_ok] at h
    obtain ⟨_, -, h⟩ := h
    obtain ⟨-, rfl⟩ := Prod.mk.inj (pure_eq_ok.mp h)
    exact ⟨⟨old, terms, hget, hcarId, hfree, rfl⟩,
      Or.inr ⟨hreserved (by simp [hst]), Or.inl (.single hedit)⟩⟩

/-- Removing an orphan is one action or none. -/
theorem removeClientIfOrphan_run (clientId : Id) (db : Db) :
    Run env [] db (OrphanClientService.removeClientIfOrphan clientId db) ∨
    Run env [.removeClient clientId] db
      (OrphanClientService.removeClientIfOrphan clientId db) := by
  rcases OrphanClientService.removeClientIfOrphan_cases clientId db with hkeep | ⟨hnone, hdel⟩
  · rw [hkeep]
    exact Or.inl (.nil db)
  · rw [hdel]
    exact Or.inr (.single (.removeClient hnone))

/-- Archiving books a completed contract first, and may remove the client. -/
theorem softDelete_run (h : softDelete env id db = .ok db') :
    ∃ pre clientId, (pre = [] ∨ pre = [.book id]) ∧
      (Run env (pre ++ [.archive id]) db db' ∨
        Run env (pre ++ [.archive id, .removeClient clientId]) db db') := by
  unfold softDelete at h
  simp only [bind_eq_ok, throwIf_eq_ok, getContract_eq_ok] at h
  obtain ⟨c, ⟨hget, hdel⟩, -, hst, h⟩ := h
  -- the database the row is archived in: with the income booked, or as it was
  obtain ⟨pre, db₁, hpre, hrun, hget₁, hdb'⟩ : ∃ pre db₁, (pre = [] ∨ pre = [.book id]) ∧
      Run env pre db db₁ ∧ db₁.contracts.get? id = some c ∧
      OrphanClientService.removeClientIfOrphan c.clientId
        { db₁ with contracts := db₁.contracts.set id { c with deleted := true } } = db' := by
    split at h
    · next hcomp =>
      rw [bind_eq_ok] at h
      obtain ⟨booked, hbook, h⟩ := h
      have hact := Act.book hget hcomp hbook
      have hframe := booked_frame hbook
      rw [hframe] at hact
      refine ⟨[.book id], booked, Or.inr rfl, .single hact, ?_, pure_eq_ok.mp h⟩
      rw [← hframe]
      exact hget
    · rw [bind_eq_ok] at h
      obtain ⟨_, hsame, h⟩ := h
      obtain rfl := pure_eq_ok.mp hsame
      exact ⟨[], db, Or.inl rfl, .nil db, hget, pure_eq_ok.mp h⟩
  have harchive : Act env (.archive id) db₁
      { db₁ with contracts := db₁.contracts.set id { c with deleted := true } } :=
    .archive hget₁ hdel hst
  refine ⟨pre, c.clientId, hpre, ?_⟩
  rw [← hdb']
  rcases removeClientIfOrphan_run c.clientId
    { db₁ with contracts := db₁.contracts.set id { c with deleted := true } } with hrm | hrm
  · exact Or.inl (hrun.append (.cons harchive hrm))
  · exact Or.inr (hrun.append (.cons harchive hrm))

/-! ### The sweep -/

theorem activatePending_rollbackOnly {sweep : Sweep} {pending : Id × Contract}
    (h : (activatePending env sweep pending).rollbackOnly = false) :
    sweep.rollbackOnly = false := by
  unfold activatePending at h
  dsimp only at h
  split at h
  · exact h
  · split at h
    · split at h
      · simp at h
      · split at h
        · exact h
        · simp at h
    · exact h

/-- A sweep that will not be rolled back has not been marked so far. -/
theorem foldl_rollbackOnly : ∀ (pending : List (Id × Contract)) (sweep : Sweep),
    (pending.foldl (activatePending env) sweep).rollbackOnly = false →
      sweep.rollbackOnly = false := by
  intro pending
  induction pending with
  | nil => exact fun _ h => h
  | cons p rest ih => exact fun sweep h => activatePending_rollbackOnly (ih _ h)

/-- One iteration that leaves no mark: nothing is written, or the contract is activated. -/
theorem activatePending_cases {sweep : Sweep}
    (hok : (activatePending env sweep (id, c)).rollbackOnly = false) :
    activatePending env sweep (id, c) = sweep ∨
    ∃ car booked, sweep.db.cars.get? c.carId = some car ∧ car.status = .available ∧
      FinancialService.ensureIncomeForContract env id
        (ContractOf.loaded { c with status := .active }) (rentOut id c car sweep.db) = .ok booked ∧
      activatePending env sweep (id, c) = { sweep with db := booked } := by
  unfold activatePending at hok ⊢
  dsimp only at hok ⊢
  cases hcar : sweep.db.cars.get? c.carId with
  | none => exact Or.inl rfl
  | some car =>
    rw [hcar] at hok
    dsimp only at hok ⊢
    by_cases havail : car.status = .available
    · rw [if_pos havail] at hok ⊢
      by_cases hfaulty : env.faulty id = true
      · rw [if_pos hfaulty] at hok
        exact absurd hok (by simp)
      · rw [if_neg hfaulty] at hok ⊢
        cases hbook : FinancialService.ensureIncomeForContract env id
          (ContractOf.loaded { c with status := .active }) (rentOut id c car sweep.db) with
        | ok booked => exact Or.inr ⟨car, booked, rfl, havail, hbook, rfl⟩
        | error e =>
          rw [hbook] at hok
          exact absurd hok (by simp)
    · rw [if_neg havail]
      exact Or.inl rfl

/-- A contract that is due for activation, as the sweep has read it. -/
def Pending (db : Db) (p : Id × Contract) : Prop :=
  db.contracts.get? p.1 = some p.2 ∧ p.2.deleted = false ∧ p.2.status = .inProgress

theorem pending_of_mem {p : Id × Contract} (h : p ∈ pendingActivation env db) : Pending db p := by
  have hmem := (List.mem_filter.mp h).1
  rw [ContractRepository.findByDeletedFalseAndStatus, (env.listing_perm _).mem_iff,
    Table.mem_select] at hmem
  simpa [Pending] using hmem

theorem pendingActivation_nodup (env : Env) (db : Db) :
    ((pendingActivation env db).map Prod.fst).Nodup := by
  have hperm := (env.listing_perm (db.contracts.select fun _ c =>
    !c.deleted && c.status = .inProgress)).map Prod.fst
  have hnodup := hperm.nodup_iff.mpr (Table.select_nodup _ _)
  exact (List.Sublist.map Prod.fst List.filter_sublist).nodup hnodup

/-- The car of the contract is available. -/
def CarAvailable (db : Db) (c : Contract) : Prop :=
  ∃ car, db.cars.get? c.carId = some car ∧ car.status = .available

/-- The activation of a contract as it was loaded. -/
abbrev activateLoaded (p : Id × Contract) : Action := .activate p.1 p.2.loaded.totalGeneral

/-- The sweep takes its contracts one by one. They have different keys, so the rows of
those still to come are as they were read; and it makes no car available, so the cars it finds
available were so when it began. -/
theorem foldl_run (start : Db) : ∀ (pending : List (Id × Contract)) (sweep : Sweep),
    (pending.map Prod.fst).Nodup → (∀ p ∈ pending, Pending sweep.db p) →
    (∀ c, CarAvailable sweep.db c → CarAvailable start c) →
    (pending.foldl (activatePending env) sweep).rollbackOnly = false →
      ∃ taken : List (Id × Contract), (∀ p ∈ taken, p ∈ pending ∧ CarAvailable start p.2) ∧
        Run env (taken.map activateLoaded) sweep.db
          (pending.foldl (activatePending env) sweep).db := by
  intro pending
  induction pending with
  | nil => exact fun sweep _ _ _ _ => ⟨[], by simp, .nil _⟩
  | cons p rest ih =>
    intro sweep hnodup hpending havail₀ hok
    obtain ⟨id, c⟩ := p
    rw [List.map_cons, List.nodup_cons] at hnodup
    have hfirst := hpending (id, c) List.mem_cons_self
    have hrest : ∀ p ∈ rest, Pending sweep.db p := fun p hp =>
      hpending p (List.mem_cons_of_mem _ hp)
    have hmem : ∀ taken : List (Id × Contract),
        (∀ p ∈ taken, p ∈ rest ∧ CarAvailable start p.2) →
        ∀ p ∈ taken, p ∈ (id, c) :: rest ∧ CarAvailable start p.2 := by
      intro taken htaken p hp
      exact ⟨List.mem_cons_of_mem _ (htaken p hp).1, (htaken p hp).2⟩
    rw [List.foldl_cons] at hok ⊢
    -- the first contract is skipped or taken; that nothing is rolled back rules the rest out
    rcases activatePending_cases (foldl_rollbackOnly rest _ hok) with
      hskip | ⟨car, booked, hcar, havail, hbook, hdone⟩
    · rw [hskip] at hok ⊢
      obtain ⟨taken, htaken, hrun⟩ := ih sweep hnodup.2 hrest havail₀ hok
      exact ⟨taken, hmem taken htaken, hrun⟩
    · rw [hdone] at hok ⊢
      have hact : Act env (activateLoaded (id, c)) sweep.db booked :=
        Act.activate_booked hfirst.1 hfirst.2.1 hfirst.2.2 hcar havail
          (ContractOf.stored_loaded _) rfl hbook
      have hframe := booked_frame hbook
      -- the rows still to come are untouched, as their keys differ
      have hpending' : ∀ p ∈ rest, Pending booked p := by
        intro p hp
        have hne : p.1 ≠ id := by
          intro heq
          have hin : p.1 ∈ rest.map Prod.fst := List.mem_map_of_mem hp
          rw [heq] at hin
          exact hnodup.1 hin
        refine ⟨?_, (hrest p hp).2⟩
        rw [← hframe]
        change (sweep.db.contracts.set id _).get? p.1 = some p.2
        rw [Table.get?_set_ne hne]
        exact (hrest p hp).1
      -- a car handed over is rented, so it is not among the available ones
      have havail' : ∀ c', CarAvailable booked c' → CarAvailable start c' := by
        intro c' hc'
        obtain ⟨car', hget, hst⟩ := hc'
        rw [← hframe] at hget
        change (sweep.db.cars.set c.carId _).get? c'.carId = some car' at hget
        rcases (Table.get?_set_eq_some hcar).mp hget with ⟨-, rfl⟩ | ⟨-, hget⟩
        · exact absurd hst (by simp)
        · exact havail₀ c' ⟨car', hget, hst⟩
      obtain ⟨taken, htaken, hrun⟩ := ih { sweep with db := booked } hnodup.2 hpending' havail' hok
      refine ⟨(id, c) :: taken, ?_, .cons hact hrun⟩
      intro p hp
      rcases List.mem_cons.mp hp with rfl | hp
      · exact ⟨List.mem_cons_self, havail₀ c ⟨car, hcar, havail⟩⟩
      · exact hmem taken htaken p hp

/-- A sweep activates due reservations whose car was available when it began. -/
theorem autoActivateContracts_run (h : autoActivateContracts env db = .ok db') :
    ∃ taken : List (Id × Contract),
      (∀ p ∈ taken, p ∈ pendingActivation env db ∧ CarAvailable db p.2) ∧
      Run env (taken.map activateLoaded) db db' := by
  unfold autoActivateContracts sweepPending at h
  simp only [bind_eq_ok, throwIf_eq_ok, pure_eq_ok, Bool.not_eq_true] at h
  obtain ⟨-, hok, rfl⟩ := h
  exact foldl_run db _ _ (pendingActivation_nodup env db) (fun _ => pending_of_mem)
    (fun _ h => h) hok

/-- What a sweeping call writes is what the sweep writes. -/
theorem Call.sweeps_exec {call : Call} (hsweep : call.sweeps = true)
    (hexec : call.exec env db = .ok db') : autoActivateContracts env db = .ok db' := by
  cases call with
  | autoActivateContracts => exact hexec
  | scheduledAutoActivate => exact hexec
  | findInProgressFutureReservations =>
    obtain ⟨⟨_, _⟩, h, rfl⟩ := map_eq_ok.mp hexec
    exact (sweeping_eq_ok.mp h).1
  | contractFindAll =>
    obtain ⟨⟨_, _⟩, h, rfl⟩ := map_eq_ok.mp hexec
    exact (sweeping_eq_ok.mp h).1
  | findAllByCarId carId =>
    obtain ⟨⟨_, _⟩, h, rfl⟩ := map_eq_ok.mp hexec
    exact (sweeping_eq_ok.mp h).1
  | findCarRentalHistory carId =>
    obtain ⟨⟨_, _⟩, h, rfl⟩ := map_eq_ok.mp hexec
    exact (sweeping_eq_ok.mp h).1
  | contractFindById id =>
    obtain ⟨⟨_, _⟩, h, rfl⟩ := map_eq_ok.mp hexec
    exact (sweeping_eq_ok.mp h).1
  | findActive =>
    obtain ⟨⟨_, _⟩, h, rfl⟩ := map_eq_ok.mp hexec
    exact (sweeping_eq_ok.mp h).1
  | _ => exact absurd hsweep (by simp [Call.sweeps])

/-! ### The other services -/

/-- Reconciling writes no table but the cars. -/
theorem reconciled_frame (today : LocalDate) (id : Id) (db : Db) :
    MaintenanceService.reconcileCarStatus today id db =
      { db with cars := (MaintenanceService.reconcileCarStatus today id db).cars } := by
  obtain ⟨cars, hframe⟩ := MaintenanceService.reconcileCarStatus_frame today id db
  rw [hframe]

theorem reconcile_act (id : Id) (db : Db) : Act env (.reconcile id) db
    (MaintenanceService.reconcileCarStatus env.today id db) := by
  rw [reconciled_frame]
  exact .reconcile

theorem foldl_reconcile_run (ids : List Id) (db : Db) : Run env (ids.map .reconcile) db
    (ids.foldl (fun db carId => MaintenanceService.reconcileCarStatus env.today carId db) db) := by
  induction ids generalizing db with
  | nil => exact .nil db
  | cons id rest ih => exact .cons (reconcile_act id db) (ih _)

theorem reconcileAll_run (db : Db) : Run env ((db.cars.rows.map Prod.fst).map .reconcile) db
    (MaintenanceService.reconcileAllCarStatuses env.today db) :=
  foldl_reconcile_run _ db

theorem car_create_run {request : CarRequest} {image : Option MultipartFile}
    {response : CarResponse} (h : CarService.create env request image db = .ok (response, db')) :
    Run env [.addCar] db db' := by
  unfold CarService.create at h
  simp only [bind_eq_ok, throwIf_eq_ok, not_not, ne_eq] at h
  obtain ⟨car, -, -, hst, -, -, h⟩ := h
  obtain ⟨-, rfl⟩ := Prod.mk.inj (pure_eq_ok.mp h)
  exact .single (.addCar hst)

theorem car_update_run {request : CarRequest} {image : Option MultipartFile}
    {response : CarResponse}
    (h : CarService.update env id request image db = .ok (response, db')) :
    Run env [.editCar id] db db' := by
  unfold CarService.update at h
  simp only [bind_eq_ok, throwIf_eq_ok, CarService.getCar, orThrow_eq_ok] at h
  obtain ⟨saved, hsaved, car, -, -, -, h⟩ := h
  obtain ⟨-, rfl⟩ := Prod.mk.inj (pure_eq_ok.mp h)
  exact .single (.editCar hsaved rfl)

/-- A car is marked available after a maintenance, where this is what reconciling does,
or released. -/
theorem markAvailable_run {response : CarResponse}
    (h : CarService.markAvailable env id db = .ok (response, db')) :
    Run env [.reconcile id] db db' ∨ Run env [.release id] db db' := by
  unfold CarService.markAvailable at h
  simp only [bind_eq_ok, throwIf_eq_ok, CarService.getCar, orThrow_eq_ok] at h
  obtain ⟨car, hcar, -, hfrom, -, hmain, -, hopen, h⟩ := h
  obtain ⟨-, rfl⟩ := Prod.mk.inj (pure_eq_ok.mp h)
  by_cases hrented : car.status = .rented
  · refine Or.inr (.single (.release hcar hrented ?_))
    intro i c hget hcarId ho
    refine hopen ⟨hrented, Table.any_iff.mpr ⟨i, c, hget, ?_⟩⟩
    rcases ho with ⟨hdel, hst | hst⟩ <;> simp [hcarId, hdel, hst]
  · have hmaint : car.status = .maintenance := by
      by_contra hne
      exact hfrom ⟨hrented, hne⟩
    have hnone : ¬ MaintenanceService.hasOngoingMaintenance env.today db id = true :=
      fun hon => hmain ⟨hmaint, hon⟩
    have hact : Act env (.reconcile id) db _ := reconcile_act id db
    rw [MaintenanceService.reconcileCarStatus_eq hcar hrented,
      MaintenanceService.statusWhenNotRented, if_neg hnone] at hact
    exact Or.inl (.single hact)

theorem car_delete_run (h : CarService.delete id db = .ok db') :
    Run env [.removeCar id] db db' := by
  unfold CarService.delete at h
  simp only [bind_eq_ok, throwIf_eq_ok, pure_eq_ok] at h
  obtain ⟨car, -, -, -, -, hnone, rfl⟩ := h
  rw [not_or] at hnone
  refine .single (.removeCar ?_ ?_)
  · intro i c hget hcar
    have hmem : (i, c) ∈ db.contracts.select fun _ c => c.carId = id :=
      Table.mem_select.mpr ⟨hget, by simpa using hcar⟩
    exact hnone.1 (List.length_pos_of_mem hmem)
  · intro i m hget hcar
    have hmem : (i, m) ∈ db.maintenances.select fun _ m => m.carId = id :=
      Table.mem_select.mpr ⟨hget, by simpa using hcar⟩
    exact hnone.2 (List.length_pos_of_mem hmem)

/-- Recording an expense writes no table but the expenses. -/
theorem recorded_frame {db₂ recorded : Db} {m : Maintenance}
    (h : FinancialService.recordExpenseFromMaintenance id m db₂ = .ok recorded) :
    { db₂ with expenseRecords := recorded.expenseRecords } = recorded := by
  rcases FinancialService.recordExpenseFromMaintenance_cases h with
    ⟨-, rfl⟩ | ⟨cost, car, -, -, ⟨-, rfl⟩ | ⟨i, old, -, rfl⟩⟩ <;> rfl

theorem maintenance_create_run {request : MaintenanceRequest} {response : MaintenanceResponse}
    (h : MaintenanceService.create env request db = .ok (response, db')) :
    Run env [.addMaintenance] db db' := by
  unfold MaintenanceService.create at h
  simp only [bind_eq_ok, MaintenanceService.getCar, orThrow_eq_ok] at h
  obtain ⟨car, hcar, recorded, hrec, _, -, h⟩ := h
  obtain ⟨-, rfl⟩ := Prod.mk.inj (pure_eq_ok.mp h)
  refine .single ?_
  rw [← recorded_frame hrec]
  exact .addMaintenance hcar rfl (reconciled_frame env.today request.carId _) hrec

theorem maintenance_update_run {request : MaintenanceRequest} {response : MaintenanceResponse}
    (h : MaintenanceService.update env id request db = .ok (response, db')) :
    Run env [.editMaintenance id] db db' := by
  unfold MaintenanceService.update at h
  simp only [bind_eq_ok, throwIf_eq_ok, MaintenanceService.getCar,
    MaintenanceService.getMaintenance, orThrow_eq_ok] at h
  obtain ⟨old, hold, -, -, car, hcar, recorded, hrec, _, -, h⟩ := h
  obtain ⟨-, rfl⟩ := Prod.mk.inj (pure_eq_ok.mp h)
  refine .single ?_
  rw [← recorded_frame hrec]
  exact .editMaintenance hold hcar rfl (reconciled_frame env.today request.carId _) hrec

theorem maintenance_complete_run {response : MaintenanceResponse}
    (h : MaintenanceService.complete env id db = .ok (response, db')) :
    Run env [.editMaintenance id] db db' := by
  unfold MaintenanceService.complete at h
  simp only [bind_eq_ok, throwIf_eq_ok, MaintenanceService.getMaintenance, orThrow_eq_ok] at h
  obtain ⟨old, hold, -, -, car, hcar, recorded, hrec, _, -, h⟩ := h
  obtain ⟨-, rfl⟩ := Prod.mk.inj (pure_eq_ok.mp h)
  refine .single ?_
  rw [← recorded_frame hrec]
  exact .editMaintenance hold (by exact hcar) rfl (reconciled_frame env.today old.carId _) hrec

theorem maintenance_delete_run (h : MaintenanceService.delete env id db = .ok db') :
    Run env [.removeMaintenance id] db db' := by
  unfold MaintenanceService.delete at h
  simp only [bind_eq_ok, MaintenanceService.getMaintenance, orThrow_eq_ok, pure_eq_ok] at h
  obtain ⟨m, hm, car, -, rfl⟩ := h
  refine .single ?_
  rw [reconciled_frame]
  exact .removeMaintenance hm rfl

end CarRental.Desk
