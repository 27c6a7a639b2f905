import CarRental.Lib.Allocation
import CarRental.Rental

/-!
# CarRental.Sweep

The **activation sweep in closed form**.

`ContractService.autoActivateContracts` reads the due reservations once and then
goes through them, each iteration changing the cars the later ones look at. What
comes out is an allocation, first come first served: the cars that were available
are the resources, and each due contract asks for its own (`taken`). The database
that is left is `swept`, which writes the three tables row by row from the list
of taken contracts and does not mention the loop.

`autoActivateContracts_eq` is the whole specification: when the save or the
booking of a taken contract throws, the transaction is lost; otherwise it leaves
`swept`. Everything else here is read off it.
-/

namespace CarRental.ContractService

open Lib Desk

variable {env : Env} {db db' : Db} {id : Id} {c : Contract} {car : Car}
  {p q : Id × Contract} {pending chosen : List (Id × Contract)}

/-! ### Booking in closed form -/

/-- The record that booking the contract adds to the ledger: none when it has one already or
has nothing to pay. -/
def newIncome (env : Env) (db : Db) (p : Id × Contract) : Option IncomeRecord :=
  if IncomeRecordRepository.existsByContractId db p.1 then none
  else
    match p.2.totalGeneral, db.clients.get? p.2.clientId with
    | some total, some client =>
      if 0 < total then some (FinancialService.incomeRecord env p.1 p.2 client total) else none
    | _, _ => none

theorem newIncome_contractId {r : IncomeRecord} (h : newIncome env db p = some r) :
    r.contractId = p.1 := by
  unfold newIncome at h
  split at h
  · exact absurd h (by simp)
  · split at h
    · split at h
      · rw [← Option.some.inj h]
        rfl
      · exact absurd h (by simp)
    · exact absurd h (by simp)

/-- There is income to book, but the client it would name is gone. -/
def Unbookable (db : Db) (p : Id × Contract) : Prop :=
  IncomeRecordRepository.existsByContractId db p.1 = false ∧
    (∃ total, p.2.totalGeneral = some total ∧ 0 < total) ∧ db.clients.get? p.2.clientId = none

/-- Booking a row throws when the client is missed, and otherwise appends the new record, if
any. -/
theorem ensureIncomeForContract_eq (env : Env) (id : Id) (c : Contract) (db : Db) :
    (Unbookable db (id, c) ∧
      ∃ e, FinancialService.ensureIncomeForContract env id c.loaded db = .error e) ∨
    (¬ Unbookable db (id, c) ∧ FinancialService.ensureIncomeForContract env id c.loaded db =
      .ok { db with incomeRecords :=
        db.incomeRecords.insertAll (newIncome env db (id, c)).toList }) := by
  unfold FinancialService.ensureIncomeForContract newIncome Unbookable
  cases hex : IncomeRecordRepository.existsByContractId db id with
  | true => exact Or.inr ⟨by simp, by simp [pure, Except.pure]⟩
  | false =>
    have hnone : (IncomeRecordRepository.findAllByContractId db id).head? = none := by
      have hnil := Table.select_eq_nil_iff.mpr hex
      simp [IncomeRecordRepository.findAllByContractId, hnil]
    have hloaded : c.loaded.totalGeneral = c.totalGeneral.map Decimal.ofAmount := rfl
    have hclientId : c.loaded.clientId = c.clientId := rfl
    unfold FinancialService.recordIncomeFromContract
    rw [hloaded, hclientId]
    cases htotal : c.totalGeneral with
    | none => exact Or.inr ⟨by simp, by simp [pure, Except.pure]⟩
    | some total =>
      have hunscaled : (Decimal.ofAmount total).unscaled = total := rfl
      by_cases hpos : total ≤ 0
      · have hpos' : ¬ 0 < total := Int.not_lt.mpr hpos
        refine Or.inr ⟨by simpa using fun h => absurd h hpos', ?_⟩
        cases db.clients.get? c.clientId <;> simp [hunscaled, hpos, hpos', pure, Except.pure]
      · have hpos' : 0 < total := Int.not_le.mp hpos
        cases hclient : db.clients.get? c.clientId with
        | none =>
          refine Or.inl ⟨by simpa using hpos', .entityNotFound, ?_⟩
          simp [hunscaled, hpos, orThrow, bind, Except.bind]
        | some client =>
          refine Or.inr ⟨by simp, ?_⟩
          simp [hunscaled, hpos, hpos', hnone, orThrow, bind, Except.bind, pure, Except.pure,
            Table.insertAll]
          rfl

/-! ### What a sweep takes and what it leaves -/

/-- Is there such a car, and is it available? -/
def carFree (db : Db) (carId : Id) : Bool :=
  (db.cars.get? carId).any fun car => car.status = .available

theorem carFree_iff : carFree db c.carId = true ↔ CarAvailable db c := by
  unfold carFree CarAvailable
  cases db.cars.get? c.carId <;> simp

/-- The contracts out of `pending` that get their car: of each available car, the first. -/
def taken (db : Db) (pending : List (Id × Contract)) : List (Id × Contract) :=
  grants (fun p => p.2.carId) (carFree db) pending

/-- The save or the booking of the contract throws when the sweep reaches it. -/
def Throws (env : Env) (db : Db) (p : Id × Contract) : Prop :=
  env.faulty p.1 = true ∨
    ∃ e, FinancialService.ensureIncomeForContract env p.1
      (ContractOf.loaded { p.2 with status := .active }) db = .error e

/-- A car that has been handed over. -/
def rentedOut (car : Car) : Car := { car with status := .rented }

/-- A contract whose car has been handed over. -/
def activated (c : Contract) : Contract := { c with status := .active }

theorem rentedOut_idem (car : Car) : rentedOut (rentedOut car) = rentedOut car := rfl

theorem activated_idem (c : Contract) : activated (activated c) = activated c := rfl

/-- The database once the contracts of `chosen` have been handed their cars. -/
def swept (env : Env) (db : Db) (chosen : List (Id × Contract)) : Db :=
  { db with
    cars := db.cars.mapOn (chosen.map fun p => p.2.carId) rentedOut
    contracts := db.contracts.mapOn (chosen.map Prod.fst) activated
    incomeRecords := db.incomeRecords.insertAll (chosen.filterMap (newIncome env db)) }

/-- Booking does not look at the status of the contract. -/
theorem throws_iff : Throws env db p ↔ env.faulty p.1 = true ∨ Unbookable db p := by
  unfold Throws
  rcases ensureIncomeForContract_eq env p.1 { p.2 with status := .active } db with
    ⟨hun, herr⟩ | ⟨hun, hok⟩
  · exact or_congr_right ⟨fun _ => hun, fun _ => herr⟩
  · refine or_congr_right ⟨fun ⟨e, he⟩ => ?_, fun h => absurd h hun⟩
    rw [hok] at he
    exact absurd he (by simp)

instance : Decidable (Unbookable db p) :=
  decidable_of_iff (IncomeRecordRepository.existsByContractId db p.1 = false ∧
    p.2.totalGeneral.any (fun total => 0 < total) = true ∧ db.clients.get? p.2.clientId = none)
    (by simp [Unbookable, Option.any_eq_true])

instance : Decidable (Throws env db p) := decidable_of_iff _ throws_iff.symm

theorem swept_nil : swept env db [] = db := by
  simp [swept]

/-! ### One iteration -/

/-- The database after one hand-over. -/
def handOver (env : Env) (db : Db) (p : Id × Contract) (car : Car) : Db :=
  { rentOut p.1 p.2 car db with
    incomeRecords := db.incomeRecords.insertAll (newIncome env db p).toList }

/-- Booking the contract after its car was handed over. -/
theorem ensureIncomeForContract_rentOut (hbook : ¬ Unbookable db p) :
    FinancialService.ensureIncomeForContract env p.1
      (ContractOf.loaded { p.2 with status := .active }) (rentOut p.1 p.2 car db) =
        .ok (handOver env db p car) := by
  rcases ensureIncomeForContract_eq env p.1 { p.2 with status := .active }
    (rentOut p.1 p.2 car db) with ⟨hun, -⟩ | ⟨-, hok⟩
  · exact absurd hun hbook
  · exact hok

theorem activatePending_busy (h : carFree db p.2.carId = false) :
    activatePending env ⟨db, false⟩ p = ⟨db, false⟩ := by
  unfold activatePending
  unfold carFree at h
  dsimp only
  cases hcar : db.cars.get? p.2.carId with
  | none => rfl
  | some car =>
    have hna : car.status ≠ .available := by simpa [hcar] using h
    exact if_neg hna

theorem activatePending_throws (hcar : db.cars.get? p.2.carId = some car)
    (havail : car.status = .available) (hthrows : Throws env db p) :
    (activatePending env ⟨db, false⟩ p).rollbackOnly = true := by
  unfold activatePending
  dsimp only
  rw [hcar]
  dsimp only
  rw [if_pos havail]
  split
  · rfl
  · next hfaulty =>
    have hun : Unbookable db p := (throws_iff.mp hthrows).resolve_left hfaulty
    rcases ensureIncomeForContract_eq env p.1 { p.2 with status := .active }
      (rentOut p.1 p.2 car db) with ⟨-, e, herr⟩ | ⟨hbookable, -⟩
    · rw [herr]
    · exact absurd hun hbookable

theorem activatePending_free (hcar : db.cars.get? p.2.carId = some car)
    (havail : car.status = .available) (hthrows : ¬ Throws env db p) :
    activatePending env ⟨db, false⟩ p = ⟨handOver env db p car, false⟩ := by
  rw [throws_iff, not_or] at hthrows
  unfold activatePending
  dsimp only
  rw [hcar]
  dsimp only
  rw [if_pos havail, if_neg hthrows.1, ensureIncomeForContract_rentOut hthrows.2]

/-! ### What an iteration leaves for the later ones -/

/-- The car that was handed over is the one that is no longer free. -/
theorem carFree_handOver (hcar : db.cars.get? p.2.carId = some car) :
    carFree (handOver env db p car) = fun k => carFree db k && k ≠ p.2.carId := by
  funext k
  unfold carFree handOver rentOut
  by_cases hk : k = p.2.carId
  · subst hk
    simp [Table.get?_set_self hcar]
  · simp [Table.get?_set_ne hk, hk]

theorem pending_handOver (hne : q.1 ≠ p.1) (h : Pending db q) :
    Pending (handOver env db p car) q := by
  refine ⟨?_, h.2⟩
  change (db.contracts.set p.1 _).get? q.1 = some q.2
  rw [Table.get?_set_ne hne]
  exact h.1

/-- The record of another contract says nothing about this one. -/
theorem exists_handOver (hne : q.1 ≠ p.1) :
    IncomeRecordRepository.existsByContractId (handOver env db p car) q.1 =
      IncomeRecordRepository.existsByContractId db q.1 := by
  refine Table.any_insertAll fun r hr _ => decide_eq_false fun heq => ?_
  rw [Option.mem_toList] at hr
  exact hne (heq.symm.trans (newIncome_contractId hr))

theorem newIncome_handOver (hne : q.1 ≠ p.1) :
    newIncome env (handOver env db p car) q = newIncome env db q := by
  unfold newIncome
  rw [exists_handOver hne]
  rfl

theorem throws_handOver (hne : q.1 ≠ p.1) :
    Throws env (handOver env db p car) q ↔ Throws env db q := by
  rw [throws_iff, throws_iff]
  unfold Unbookable
  rw [exists_handOver hne]
  rfl

/-- Handing over one car and then those of `chosen` is handing over all of them. -/
theorem swept_handOver (hget : db.contracts.get? p.1 = some p.2)
    (hcar : db.cars.get? p.2.carId = some car) (hne : ∀ q ∈ chosen, q.1 ≠ p.1) :
    swept env (handOver env db p car) chosen = swept env db (p :: chosen) := by
  have hcars : (handOver env db p car).cars.mapOn (chosen.map fun p => p.2.carId) rentedOut =
      db.cars.mapOn ((p :: chosen).map fun p => p.2.carId) rentedOut := by
    rw [List.map_cons, ← Table.mapOn_cons rentedOut_idem, ← Table.set_eq_mapOn hcar]
    rfl
  have hcontracts : (handOver env db p car).contracts.mapOn (chosen.map Prod.fst) activated =
      db.contracts.mapOn ((p :: chosen).map Prod.fst) activated := by
    rw [List.map_cons, ← Table.mapOn_cons activated_idem, ← Table.set_eq_mapOn hget]
    rfl
  have hincome : (handOver env db p car).incomeRecords.insertAll
      (chosen.filterMap (newIncome env (handOver env db p car))) =
      db.incomeRecords.insertAll ((p :: chosen).filterMap (newIncome env db)) := by
    rw [List.filterMap_congr fun q hq => newIncome_handOver (hne q hq)]
    unfold handOver
    rw [← Table.insertAll_append]
    cases hnew : newIncome env db p <;> simp [hnew]
  unfold swept
  rw [hcars, hcontracts, hincome]
  rfl

/-! ### The whole sweep -/

/-- The loop takes what the allocation grants. It is an induction over the list of due
contracts: the first one that throws loses the transaction for good, and until then the cars
that are still free and the rows still to come are as the closed form expects them. -/
theorem foldl_activatePending (pending : List (Id × Contract)) (db : Db)
    (hnodup : (pending.map Prod.fst).Nodup) (hpending : ∀ p ∈ pending, Pending db p) :
    ((∃ p ∈ taken db pending, Throws env db p) ∧
      (pending.foldl (activatePending env) ⟨db, false⟩).rollbackOnly = true) ∨
    ((∀ p ∈ taken db pending, ¬ Throws env db p) ∧
      pending.foldl (activatePending env) ⟨db, false⟩ =
        ⟨swept env db (taken db pending), false⟩) := by
  induction pending generalizing db with
  | nil => exact Or.inr ⟨by simp [taken, grants], by simp [taken, grants, swept_nil]⟩
  | cons p rest ih =>
    rw [List.map_cons, List.nodup_cons] at hnodup
    have hne : ∀ q ∈ rest, q.1 ≠ p.1 := fun q hq heq =>
      hnodup.1 (heq ▸ List.mem_map_of_mem hq)
    have hrest : ∀ q ∈ rest, Pending db q := fun q hq => hpending q (List.mem_cons_of_mem _ hq)
    rw [List.foldl_cons]
    cases hfree : carFree db p.2.carId with
    | false =>
      -- a busy car: skipped by the loop, not granted by the allocation
      have htaken : taken db (p :: rest) = taken db rest := by simp [taken, grants, hfree]
      rw [htaken, activatePending_busy hfree]
      exact ih db hnodup.2 hrest
    | true =>
      obtain ⟨car, hcar, havail⟩ := carFree_iff.mp hfree
      -- a free one: granted, and no longer free for the rest of the list
      have htaken : taken db (p :: rest) = p :: taken (handOver env db p car) rest := by
        unfold taken
        rw [carFree_handOver hcar, grants, if_pos hfree]
      have hsub : ∀ q ∈ taken (handOver env db p car) rest, q.1 ≠ p.1 := fun q hq =>
        hne q (mem_of_mem_grants hq)
      by_cases hthrows : Throws env db p
      · refine Or.inl ⟨⟨p, by simp [htaken], hthrows⟩, ?_⟩
        -- the mark is never taken back
        have hmark := activatePending_throws hcar havail hthrows
        by_contra hunmarked
        rw [Bool.not_eq_true] at hunmarked
        rw [foldl_rollbackOnly rest _ hunmarked] at hmark
        exact Bool.false_ne_true hmark
      · rw [htaken, activatePending_free hcar havail hthrows]
        rcases ih (handOver env db p car) hnodup.2
          (fun q hq => pending_handOver (hne q hq) (hrest q hq)) with
          ⟨⟨q, hq, hthrowsq⟩, hmark⟩ | ⟨hnone, hdone⟩
        · exact Or.inl ⟨⟨q, List.mem_cons_of_mem _ hq, (throws_handOver (hsub q hq)).mp hthrowsq⟩,
            hmark⟩
        · refine Or.inr ⟨?_, ?_⟩
          · intro q hq
            rcases List.mem_cons.mp hq with rfl | hq
            · exact hthrows
            · exact fun h => hnone q hq ((throws_handOver (hsub q hq)).mpr h)
          · rw [hdone, swept_handOver (hpending p List.mem_cons_self).1 hcar hsub]

/-- The contracts the sweep takes at this moment. -/
def takes (env : Env) (db : Db) : List (Id × Contract) := taken db (pendingActivation env db)

/-- The sweep inside a transaction: it marks it, or leaves what the closed form says. -/
theorem sweepPending_eq (env : Env) (db : Db) :
    ((∃ p ∈ takes env db, Throws env db p) ∧ (sweepPending env db).rollbackOnly = true) ∨
    ((∀ p ∈ takes env db, ¬ Throws env db p) ∧
      sweepPending env db = ⟨swept env db (takes env db), false⟩) :=
  foldl_activatePending (pendingActivation env db) db (pendingActivation_nodup env db)
    (fun _ => pending_of_mem)

/-- The sweep in closed form. -/
theorem autoActivateContracts_eq (env : Env) (db : Db) :
    ((∃ p ∈ takes env db, Throws env db p) ∧
      autoActivateContracts env db = .error .unexpectedRollback) ∨
    ((∀ p ∈ takes env db, ¬ Throws env db p) ∧
      autoActivateContracts env db = .ok (swept env db (takes env db))) := by
  unfold autoActivateContracts
  rcases sweepPending_eq env db with ⟨hthrows, hmark⟩ | ⟨hnone, hdone⟩
  · refine Or.inl ⟨hthrows, ?_⟩
    simp [hmark, throwIf, bind, Except.bind]
  · refine Or.inr ⟨hnone, ?_⟩
    rw [hdone]
    rfl

/-- A contract is taken when it is the first of its car in the listing and the car is
available. -/
theorem mem_takes : p ∈ takes env db ↔ CarAvailable db p.2 ∧
    ∃ pre post, pendingActivation env db = pre ++ p :: post ∧ ∀ q ∈ pre, q.2.carId ≠ p.2.carId := by
  unfold takes taken
  rw [mem_grants, carFree_iff]

/-! ### The exact effect -/

/-- A reservation whose departure is due. -/
def Due (db : Db) (now : LocalDateTime) (p : Id × Contract) : Prop :=
  Pending db p ∧ ∃ departure, p.2.departureDatetime = some departure ∧ departure ≤ now

theorem mem_pendingActivation : p ∈ pendingActivation env db ↔ Due db env.now p := by
  unfold pendingActivation Due Pending
  rw [List.mem_filter, ContractRepository.findByDeletedFalseAndStatus,
    (env.listing_perm _).mem_iff, Table.mem_select, Option.any_eq_true]
  simp

theorem due_of_mem_takes (h : p ∈ takes env db) : Due db env.now p :=
  mem_pendingActivation.mp (mem_of_mem_grants h)

/-- A sweep that finds no car for its contracts writes nothing. -/
theorem autoActivateContracts_idle (h : ∀ p, Due db env.now p → ¬ CarAvailable db p.2) :
    autoActivateContracts env db = .ok db := by
  have hnil : takes env db = [] := by
    refine grants_eq_nil fun p hp => ?_
    rw [← Bool.not_eq_true, carFree_iff]
    exact h p (mem_pendingActivation.mp hp)
  rcases autoActivateContracts_eq env db with ⟨⟨p, hp, -⟩, -⟩ | ⟨-, hok⟩
  · rw [hnil] at hp
    exact absurd hp List.not_mem_nil
  · rw [hok, hnil, swept_nil]

/-- What is due after a hand-over was due before it and got no car. -/
theorem due_swept {now : LocalDateTime} (h : Due (swept env db chosen) now p) :
    Due db now p ∧ p ∉ chosen := by
  obtain ⟨⟨hget, hdel, hst⟩, hdue⟩ := h
  have hget' : (db.contracts.mapOn (chosen.map Prod.fst) activated).get? p.1 = some p.2 := hget
  rw [Table.get?_mapOn, Option.map_eq_some_iff] at hget'
  obtain ⟨c, hc, hrow⟩ := hget'
  by_cases hmem : p.1 ∈ chosen.map Prod.fst
  · rw [if_pos hmem] at hrow
    rw [← hrow] at hst
    exact absurd hst (by simp [activated])
  · rw [if_neg hmem] at hrow
    subst hrow
    exact ⟨⟨⟨hc, hdel, hst⟩, hdue⟩, fun hp => hmem (List.mem_map_of_mem hp)⟩

theorem carAvailable_swept :
    CarAvailable (swept env db chosen) c ↔
      CarAvailable db c ∧ c.carId ∉ chosen.map fun p => p.2.carId := by
  unfold CarAvailable swept
  simp only [Table.get?_mapOn, Option.map_eq_some_iff]
  constructor
  · intro h
    obtain ⟨car, ⟨old, hold, hrow⟩, havail⟩ := h
    split at hrow
    · subst hrow
      exact absurd havail (by simp [rentedOut])
    · next hmem =>
      subst hrow
      exact ⟨⟨old, hold, havail⟩, hmem⟩
  · intro h
    obtain ⟨⟨car, hcar, havail⟩, hmem⟩ := h
    exact ⟨car, ⟨car, hcar, if_neg hmem⟩, havail⟩

/-- After the sweep no due contract finds its car available: whoever was not served had no
car, or another contract got it. -/
theorem no_due_available (h : Due (swept env db (takes env db)) env.now p) :
    ¬ CarAvailable (swept env db (takes env db)) p.2 := by
  intro havail
  obtain ⟨hfree, hgone⟩ := carAvailable_swept.mp havail
  obtain ⟨q, hq, hkey⟩ : ∃ q ∈ takes env db, q.2.carId = p.2.carId :=
    exists_mem_grants (mem_pendingActivation.mpr (due_swept h).1) (carFree_iff.mpr hfree)
  exact hgone (List.mem_map.mpr ⟨q, hq, hkey⟩)

/-- A contract that can be booked is booked when it has a positive total and no record. -/
theorem newIncome_isSome (hthrow : ¬ Throws env db p) :
    (newIncome env db p).isSome ↔ IncomeRecordRepository.existsByContractId db p.1 = false ∧
      ∃ total, p.2.totalGeneral = some total ∧ 0 < total := by
  rw [throws_iff, not_or] at hthrow
  have hclient := hthrow.2
  unfold Unbookable at hclient
  unfold newIncome
  cases hex : IncomeRecordRepository.existsByContractId db p.1 with
  | true => simp
  | false =>
    cases htotal : p.2.totalGeneral with
    | none => simp
    | some total =>
      cases hget : db.clients.get? p.2.clientId with
      | none =>
        have hpos : ¬ 0 < total := by simpa [hex, htotal, hget] using hclient
        simp [hpos]
      | some client => simp

/-- The exact effect of a sweep in which no save and no booking throws. It takes exactly the
first listed due contract of each car that was available, and leaves every row but theirs and
their cars' as it was; `swept` adds one income record for each of them that has none and has
something to pay. Afterwards no due contract finds its car available, and a second sweep at the
same time, in whatever order it lists the contracts, changes nothing. -/
theorem sweep_exact (env : Env) (db : Db) (hthrow : ∀ p ∈ takes env db, ¬ Throws env db p) :
    autoActivateContracts env db = .ok (swept env db (takes env db)) ∧
    (∀ p, p ∈ takes env db ↔ CarAvailable db p.2 ∧ ∃ pre post,
      pendingActivation env db = pre ++ p :: post ∧ ∀ q ∈ pre, q.2.carId ≠ p.2.carId) ∧
    (∀ p ∈ takes env db, (newIncome env db p).isSome ↔
      IncomeRecordRepository.existsByContractId db p.1 = false ∧
        ∃ total, p.2.totalGeneral = some total ∧ 0 < total) ∧
    (∀ p, Due (swept env db (takes env db)) env.now p →
      ¬ CarAvailable (swept env db (takes env db)) p.2) ∧
    ∀ env' : Env, env'.now = env.now →
      autoActivateContracts env' (swept env db (takes env db)) =
        .ok (swept env db (takes env db)) := by
  refine ⟨?_, fun p => mem_takes, fun p hp => newIncome_isSome (hthrow p hp),
    fun p => no_due_available, ?_⟩
  · rcases autoActivateContracts_eq env db with ⟨⟨p, hp, hthrows⟩, -⟩ | ⟨-, hok⟩
    · exact absurd hthrows (hthrow p hp)
    · exact hok
  · intro env' hnow
    refine autoActivateContracts_idle fun p hp => ?_
    rw [hnow] at hp
    exact no_due_available hp

/-- The car comes back late, when one reservation is over and the next one has begun. -/
def lateReturn : List (Env × Call) :=
  fleetOfOne ++
    [(.atTime 0, .contractCreate (booking 0 (some 10) 10000)),
     (.atTime 1, .contractCreate (booking 20 (some 30) 20000)),
     (.atTime 2, .contractCreate (booking 40 (some 60) 30000)),
     (.atTime 45, .registerReturn 1)]

theorem lateReturn_reachable : Reachable (World.after lateReturn) :=
  reachable_after lateReturn (by decide)

/-- Two reservations are due and there is one car: the sweep takes the first. -/
theorem sweep_exact_lateReturn :
    (takes (.atTime 45) (World.after lateReturn).db).map Prod.fst = [2] ∧
    ∀ env' : Env, env'.now = 45 →
      autoActivateContracts env' (swept (.atTime 45) (World.after lateReturn).db
        (takes (.atTime 45) (World.after lateReturn).db)) =
      .ok (swept (.atTime 45) (World.after lateReturn).db
        (takes (.atTime 45) (World.after lateReturn).db)) :=
  ⟨by decide +kernel,
    (sweep_exact (.atTime 45) (World.after lateReturn).db (by decide +kernel)).2.2.2.2⟩

/-! ### Which rentals a sweep starts -/

/-- Of what a call did to the contracts: every contract it started is current, and a
reservation whose period is over was left alone and had no income booked. -/
structure StartsOnlyCurrent (now : LocalDateTime) (db db' : Db) : Prop where
  current : ∀ i c c', db.contracts.get? i = some c → c.status ≠ .active →
    db'.contracts.get? i = some c' → c'.status = .active →
      ∀ e, c'.expectedReturnDatetime = some e →
        ∃ d, c'.departureDatetime = some d ∧ d ≤ now ∧ now < e
  overWaits : ∀ i c e, db.contracts.get? i = some c → c.status = .inProgress →
    c.expectedReturnDatetime = some e → e ≤ now →
      db'.contracts.get? i = some c ∧
      IncomeRecordRepository.existsByContractId db' i =
        IncomeRecordRepository.existsByContractId db i

theorem get?_contracts_swept {i : Id} (hget : db.contracts.get? i = some c) :
    (swept env db chosen).contracts.get? i =
      some (if i ∈ chosen.map Prod.fst then activated c else c) := by
  unfold swept
  rw [Table.get?_mapOn, hget]
  rfl

/-- A contract that is not handed its car is not booked either. -/
theorem exists_swept {i : Id} (hi : i ∉ chosen.map Prod.fst) :
    IncomeRecordRepository.existsByContractId (swept env db chosen) i =
      IncomeRecordRepository.existsByContractId db i := by
  have hother : ∀ r ∈ chosen.filterMap (newIncome env db), r.contractId ≠ i := by
    intro r hr heq
    obtain ⟨p, hp, hrec⟩ := List.mem_filterMap.mp hr
    exact hi (List.mem_map.mpr ⟨p, hp, (newIncome_contractId hrec).symm.trans heq⟩)
  exact Table.any_insertAll fun r hr _ => decide_eq_false (hother r hr)

/-- The contracts are listed with contract `i` first, and nothing fails. -/
def servedFirst (now : LocalDateTime) (i : Id) : Env where
  now := now
  listing rows := rows.filter (fun r => r.1 = i) ++ rows.filter (fun r => !decide (r.1 = i))
  listing_perm rows := List.filter_append_perm _ rows

/-- Served first, a due contract gets its car. -/
theorem mem_takes_servedFirst {now : LocalDateTime} (hdue : Due db now p)
    (havail : CarAvailable db p.2) : p ∈ takes (servedFirst now p.1) db := by
  refine mem_takes.mpr ⟨havail, ?_⟩
  obtain ⟨rows, hrows⟩ : ∃ rows, rows = db.contracts.select fun _ c =>
    !c.deleted && c.status = .inProgress := ⟨_, rfl⟩
  have hsplit : pendingActivation (servedFirst now p.1) db =
      (rows.filter fun r => r.1 = p.1).filter (fun c =>
        c.2.departureDatetime.any fun departure => departure ≤ now) ++
      (rows.filter fun r => !decide (r.1 = p.1)).filter fun c =>
        c.2.departureDatetime.any fun departure => departure ≤ now := by
    rw [hrows, ← List.filter_append]
    rfl
  have hmem : p ∈ pendingActivation (servedFirst now p.1) db := mem_pendingActivation.mpr hdue
  have hnodup := pendingActivation_nodup (servedFirst now p.1) db
  rw [hsplit] at hmem hnodup ⊢
  -- the second half holds the other contracts, so `p` is in the first, and alone in it
  have hfirst : p ∈ (rows.filter fun r => r.1 = p.1).filter (fun c =>
      c.2.departureDatetime.any fun departure => departure ≤ now) := by
    rcases List.mem_append.mp hmem with h | h
    · exact h
    · simp at h
  obtain ⟨pre, post, hpre⟩ := List.append_of_mem hfirst
  rw [hpre, List.append_assoc, List.cons_append] at hnodup ⊢
  refine ⟨pre, _, rfl, fun q hq => ?_⟩
  have hsame : q.1 = p.1 := by
    have hq' : q ∈ (rows.filter fun r => r.1 = p.1).filter (fun c =>
        c.2.departureDatetime.any fun departure => departure ≤ now) := by
      rw [hpre]
      exact List.mem_append_left _ hq
    simpa using (List.mem_filter.mp (List.mem_filter.mp hq').1).2
  rw [List.map_append, List.nodup_append] at hnodup
  exact absurd hsame (hnodup.2.2 _ (List.mem_map_of_mem hq) _ (by simp))

/-- In a reachable state every contract has its client, so only the storage can fail. -/
theorem throws_iff_faulty {w : World} (h : Reachable w) (hp : Pending w.db p) :
    Throws env w.db p ↔ env.faulty p.1 = true := by
  rw [throws_iff, or_iff_left]
  intro hun
  obtain ⟨client, hclient⟩ := (inv_of_reachable h).contractClient hp.1
  rw [hun.2.2] at hclient
  exact absurd hclient (by simp)

/-- A row whose key is taken is the taken contract. -/
theorem mem_takes_of_get? {i : Id} (hget : db.contracts.get? i = some c)
    (hi : i ∈ (takes env db).map Prod.fst) : (i, c) ∈ takes env db := by
  obtain ⟨p, hp, rfl⟩ := List.mem_map.mp hi
  rw [(due_of_mem_takes hp).1.1] at hget
  obtain rfl := Option.some.inj hget
  exact hp

/-- A sweep that takes no contract whose period is over. -/
theorem startsOnlyCurrent_swept
    (htaken : ∀ p ∈ takes env db, ∀ e, p.2.expectedReturnDatetime = some e → env.now < e) :
    StartsOnlyCurrent env.now db (swept env db (takes env db)) := by
  refine ⟨?_, ?_⟩
  · intro i c c' hget hst hget' hst' e he
    rw [get?_contracts_swept hget] at hget'
    obtain rfl := Option.some.inj hget'
    split at hst' <;> rename_i hi
    · rw [if_pos hi] at he ⊢
      have hp := mem_takes_of_get? hget hi
      obtain ⟨-, d, hd, hle⟩ := due_of_mem_takes hp
      exact ⟨d, hd, hle, htaken (i, c) hp e he⟩
    · exact absurd hst' hst
  · intro i c e hget hst he hover
    have hi : i ∉ (takes env db).map Prod.fst := fun hi =>
      absurd (htaken (i, c) (mem_takes_of_get? hget hi) e he) (Int.not_lt.mpr hover)
    rw [get?_contracts_swept hget, if_neg hi]
    exact ⟨rfl, exists_swept hi⟩

/-- **When a sweep starts only current rentals.** In a reachable state, whatever the order of
the listing, this is so exactly when no due reservation of an available car is over. -/
theorem starts_only_current_iff {w : World} (h : Reachable w) (now : LocalDateTime) :
    (∀ env db', env.now = now → autoActivateContracts env w.db = .ok db' →
      StartsOnlyCurrent now w.db db') ↔
    ∀ p e, Due w.db now p → CarAvailable w.db p.2 → p.2.expectedReturnDatetime = some e →
      now < e := by
  constructor
  · -- list the contract first: nothing fails in that sweep, and it starts the contract
    intro hstarts p e hdue havail he
    have hp := mem_takes_servedFirst hdue havail
    rcases autoActivateContracts_eq (servedFirst now p.1) w.db with
      ⟨⟨q, hq, hthrows⟩, -⟩ | ⟨-, hok⟩
    · rw [throws_iff_faulty h (due_of_mem_takes hq).1] at hthrows
      exact absurd hthrows Bool.false_ne_true
    · have hrow : (swept (servedFirst now p.1) w.db
          (takes (servedFirst now p.1) w.db)).contracts.get? p.1 = some (activated p.2) := by
        rw [get?_contracts_swept hdue.1.1, if_pos (List.mem_map_of_mem hp)]
      have hres : p.2.status ≠ .active := by
        rw [hdue.1.2.2]
        decide
      obtain ⟨d, -, -, hlt⟩ :=
        (hstarts (servedFirst now p.1) _ rfl hok).current p.1 p.2 _ hdue.1.1 hres hrow rfl e he
      exact hlt
  · intro hcond env db' hnow hok
    rcases autoActivateContracts_eq env w.db with ⟨-, herr⟩ | ⟨-, hok'⟩
    · rw [hok] at herr
      exact absurd herr (by simp)
    rw [hok] at hok'
    obtain rfl := Except.ok.inj hok'
    subst hnow
    -- what is taken is due and has its car, so it is current
    exact startsOnlyCurrent_swept fun p hp e he =>
      hcond p e (due_of_mem_takes hp) (mem_takes.mp hp).1 he

/-- After the late return the reservation that was over at `30` is started at `45`: its income
is booked and its car is gone for the reservation from `40` to `60`. -/
theorem starts_over_reservation :
    Reachable (World.after lateReturn) ∧
    ∃ db', autoActivateContracts (.atTime 45) (World.after lateReturn).db = .ok db' ∧
      (∃ c, db'.contracts.get? 2 = some c ∧ c.status = .active ∧
        c.expectedReturnDatetime = some 30) ∧
      (∃ c, db'.contracts.get? 3 = some c ∧ c.status = .inProgress ∧
        c.departureDatetime = some 40 ∧ c.expectedReturnDatetime = some 60) ∧
      IncomeRecordRepository.existsByContractId db' 2 = true ∧
      ¬ StartsOnlyCurrent 45 (World.after lateReturn).db db' := by
  refine ⟨lateReturn_reachable, _, rfl, ⟨_, rfl, rfl, rfl⟩, ⟨_, rfl, rfl, rfl, rfl⟩,
    by decide +kernel, ?_⟩
  intro hstarts
  obtain ⟨d, -, -, hlt⟩ := hstarts.current 2 _ _ rfl (by decide +kernel) rfl rfl 30 rfl
  exact absurd hlt (by decide)

/-- The car comes back in time and leaves with the next client. -/
def promptReturn : List (Env × Call) :=
  fleetOfOne ++
    [(.atTime 0, .contractCreate (booking 0 (some 10) 10000)),
     (.atTime 1, .contractCreate (booking 20 (some 30) 20000)),
     (.atTime 10, .registerReturn 1)]

theorem starts_only_current_promptReturn :
    (takes (.atTime 25) (World.after promptReturn).db).map Prod.fst = [2] ∧
    ∀ env db', env.now = 25 → autoActivateContracts env (World.after promptReturn).db = .ok db' →
      StartsOnlyCurrent 25 (World.after promptReturn).db db' := by
  have hreach : Reachable (World.after promptReturn) := reachable_after promptReturn (by decide)
  have hreturn : ∀ p ∈ pendingActivation (.atTime 25) (World.after promptReturn).db,
      p.2.expectedReturnDatetime = some 30 := by decide +kernel
  refine ⟨by decide +kernel, (starts_only_current_iff hreach 25).mpr ?_⟩
  intro p e hdue _ he
  rw [hreturn p (mem_pendingActivation.mpr hdue)] at he
  obtain rfl := Option.some.inj he
  decide

/-! ### Failures -/

/-- The due contracts whose save and booking go through. -/
def soundOnes (env : Env) (db : Db) : List (Id × Contract) :=
  (pendingActivation env db).filter fun p => !decide (Throws env db p)

/-- The sweep returns; it leaves what the loop over the sound contracts alone leaves; and the
contracts that throw keep their rows, as do their cars unless a sound contract is due for them. -/
def Isolates (env : Env) (db : Db) : Prop :=
  ∃ db', autoActivateContracts env db = .ok db' ∧
    db' = ((soundOnes env db).foldl (activatePending env) ⟨db, false⟩).db ∧
    ∀ p ∈ pendingActivation env db, Throws env db p →
      db'.contracts.get? p.1 = some p.2 ∧
      ((∀ q ∈ soundOnes env db, q.2.carId ≠ p.2.carId) →
        db'.cars.get? p.2.carId = db.cars.get? p.2.carId)

theorem mem_soundOnes :
    p ∈ soundOnes env db ↔ p ∈ pendingActivation env db ∧ ¬ Throws env db p := by
  simp [soundOnes]

/-- The loop over the sound contracts runs through. -/
theorem foldl_soundOnes (env : Env) (db : Db) :
    (soundOnes env db).foldl (activatePending env) ⟨db, false⟩ =
      ⟨swept env db (taken db (soundOnes env db)), false⟩ := by
  have hnodup : ((soundOnes env db).map Prod.fst).Nodup :=
    (List.Sublist.map Prod.fst List.filter_sublist).nodup (pendingActivation_nodup env db)
  rcases foldl_activatePending (soundOnes env db) db hnodup
    (fun p hp => pending_of_mem (mem_soundOnes.mp hp).1) with ⟨⟨p, hp, hthrows⟩, -⟩ | ⟨-, hdone⟩
  · exact absurd hthrows (mem_soundOnes.mp (mem_of_mem_grants hp)).2
  · exact hdone

/-- **When failures are isolated.** A failure is harmless exactly when the sweep does not get
to it: when, of every available car, the first due contract goes through. Otherwise one failure
loses the hand-overs of all the others. -/
theorem isolates_iff (env : Env) (db : Db) :
    Isolates env db ↔ ∀ pre p post, pendingActivation env db = pre ++ p :: post →
      (∀ q ∈ pre, q.2.carId ≠ p.2.carId) → CarAvailable db p.2 → ¬ Throws env db p := by
  constructor
  · intro h pre p post hlist hfirst havail hthrows
    obtain ⟨db', hok, -⟩ := h
    rcases autoActivateContracts_eq env db with ⟨-, herr⟩ | ⟨hnone, -⟩
    · rw [hok] at herr
      exact absurd herr (by simp)
    · exact hnone p (mem_takes.mpr ⟨havail, pre, post, hlist, hfirst⟩) hthrows
  · intro h
    have hnone : ∀ p ∈ takes env db, ¬ Throws env db p := by
      intro p hp
      obtain ⟨havail, pre, post, hlist, hfirst⟩ := mem_takes.mp hp
      exact h pre p post hlist hfirst havail
    -- the contracts that throw would not have been served, so leaving them out changes nothing
    have hsame : taken db (soundOnes env db) = takes env db :=
      grants_filter fun p hp => by simpa using hnone p hp
    rcases autoActivateContracts_eq env db with ⟨⟨p, hp, hthrows⟩, -⟩ | ⟨-, hok⟩
    · exact absurd hthrows (hnone p hp)
    refine ⟨_, hok, by rw [foldl_soundOnes, hsame], fun p hp hthrows => ⟨?_, fun hcars => ?_⟩⟩
    · have hget := (pending_of_mem hp).1
      have hkey : p.1 ∉ (takes env db).map Prod.fst := fun hmem =>
        hnone p (mem_takes_of_get? hget hmem) hthrows
      rw [get?_contracts_swept hget, if_neg hkey]
    · have hcar : p.2.carId ∉ (takes env db).map fun p => p.2.carId := by
        intro hmem
        obtain ⟨q, hq, hkey⟩ := List.mem_map.mp hmem
        exact hcars q (mem_soundOnes.mpr ⟨mem_of_mem_grants hq, hnone q hq⟩) hkey
      unfold swept
      rw [Table.get?_mapOn]
      simp [hcar]

/-- Two cars, each reserved from `10` on. -/
def twoReservations : List (Env × Call) :=
  fleetOfOne ++
    [(.atTime 0, .carCreate
        { brand := "Dacia", fuelType := .diesel, matricule := "2-A-2", mileage := some 0 } none),
     (.atTime 0, .contractCreate (booking 10 (some 20) 10000)),
     (.atTime 0, .contractCreate { booking 10 (some 20) 10000 with carId := 2 })]

/-- The storage fails on one contract. -/
def failingOn (now : LocalDateTime) (i : Id) : Env :=
  { Env.atTime now with faulty := fun j => j = i }

/-- Contract 1 cannot be saved; the car of contract 2 stays in the yard as well. -/
theorem failure_not_isolated :
    Reachable (World.after twoReservations) ∧
    autoActivateContracts (failingOn 15 1) (World.after twoReservations).db =
      .error .unexpectedRollback ∧
    ((soundOnes (failingOn 15 1) (World.after twoReservations).db).map Prod.fst = [2]) ∧
    ¬ Isolates (failingOn 15 1) (World.after twoReservations).db := by
  have herr : autoActivateContracts (failingOn 15 1) (World.after twoReservations).db =
      .error .unexpectedRollback := rfl
  refine ⟨reachable_after twoReservations (by decide), herr, by decide +kernel, ?_⟩
  intro h
  obtain ⟨db', hok, -⟩ := h
  rw [herr] at hok
  exact absurd hok (by simp)

end CarRental.ContractService
