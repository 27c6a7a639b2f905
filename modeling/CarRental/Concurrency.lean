import CarRental.Lib.Snapshot
import CarRental.Rental

/-!
# CarRental.Concurrency

The services under **concurrency**. The code takes no lock, has no version column
and no database constraint on periods or on the contract of an income record, so
each call is a transaction on a snapshot (`CarRental.Lib.Snapshot`): it reads what
was committed when it began, and at its end the rows it changed or inserted are
written over whatever others have committed since (`Call.commitOn`).

Both guards of the back office are tests followed by an insertion, and both can be
passed twice. Two desks can book one car for the same period
(`double_booking_concurrent`), unless no two bookings that name the same car are in
flight together (`no_double_booking_concurrent`). Two sweeps can book the income of
one contract twice (`income_twice`), unless no record of a contract that a
transaction set out to activate appears behind its back (`income_once`).
-/

namespace CarRental

open Lib Lib.Table Desk ContractService

/-! ### A call on a snapshot -/

/-- The snapshot as a transaction works on it: keys are drawn from the counters of the
committed tables. -/
def Db.bump (snapshot committed : Db) : Db where
  collate := snapshot.collate
  cars := snapshot.cars.bump committed.cars.nextId
  clients := snapshot.clients.bump committed.clients.nextId
  contracts := snapshot.contracts.bump committed.contracts.nextId
  maintenances := snapshot.maintenances.bump committed.maintenances.nextId
  incomeRecords := snapshot.incomeRecords.bump committed.incomeRecords.nextId
  expenseRecords := snapshot.expenseRecords.bump committed.expenseRecords.nextId

/-- What is committed when a transaction that read `base` and left `mine` commits over
`theirs`. -/
def Db.merge (base mine theirs : Db) : Db where
  collate := theirs.collate
  cars := .merge base.cars mine.cars theirs.cars
  clients := .merge base.clients mine.clients theirs.clients
  contracts := .merge base.contracts mine.contracts theirs.contracts
  maintenances := .merge base.maintenances mine.maintenances theirs.maintenances
  incomeRecords := .merge base.incomeRecords mine.incomeRecords theirs.incomeRecords
  expenseRecords := .merge base.expenseRecords mine.expenseRecords theirs.expenseRecords

/-- The committed database after a call that has read `snapshot`. A call that throws writes
nothing. -/
def Call.commitOn (env : Env) (call : Call) (snapshot committed : Db) : Db :=
  match call.exec env (snapshot.bump committed) with
  | .ok db => Db.merge (snapshot.bump committed) db committed
  | .error _ => committed

/-! ### Concurrent bookings -/

/-- The calls that check a period and then write a contract. -/
inductive Booking
  | create (request : ContractRequest)
  | update (id : Id) (request : ContractRequest)

/-- The service call of a booking. -/
def Booking.call : Booking → Call
  | create request => .contractCreate request
  | update id request => .contractUpdate id request

/-- The car the booking names. -/
def Booking.carId : Booking → Id
  | create request => request.carId
  | update _ request => request.carId

/-- What is committed when a booking that read `snapshot` ends. -/
def bookingEffect (tx : Env × Booking) (snapshot committed : Db) : Db :=
  tx.2.call.commitOn tx.1 snapshot committed

/-- What is committed when a database has gone through some bookings. -/
abbrev afterBookings (db : Db) (events : List (Event (Env × Booking))) : Db :=
  (run bookingEffect ⟨db, []⟩ events).committed

/-- Two desks book the same car for the same two days. -/
def twoDesks : List (Event (Env × Booking)) :=
  [.start (.atTime 0, .create (booking secondsPerDay (some (3 * secondsPerDay)) 10000)),
   .start (.atTime 0, .create (booking secondsPerDay (some (3 * secondsPerDay)) 10000)),
   .finish 0, .finish 0]

/-- Both bookings are committed. -/
theorem double_booking_concurrent :
    Reachable (World.after fleetOfOne) ∧
    ∃ c c', (afterBookings (World.after fleetOfOne).db twoDesks).contracts.get? 1 = some c ∧
      (afterBookings (World.after fleetOfOne).db twoDesks).contracts.get? 2 = some c' ∧
      Open c ∧ Open c' ∧ c.carId = c'.carId ∧
      overlaps secondsPerDay (3 * secondsPerDay) c = true ∧
      c'.departureDatetime = some secondsPerDay ∧
      c'.expectedReturnDatetime = some (3 * secondsPerDay) :=
  ⟨reachable_after fleetOfOne (by decide), _, _, rfl, rfl, by decide, by decide, rfl, by decide,
    rfl, rfl⟩

/-- The open contracts of every car are disjoint. -/
def Disjoint (db : Db) : Prop :=
  ∀ i j c c', db.contracts.get? i = some c → db.contracts.get? j = some c' → i ≠ j →
    Open c → Open c' → ¬ Clash c c'

/-- The contracts of the car `tx` names are as `tx` has read them. -/
def BookingAgree (tx : Env × Booking) (snapshot committed : Db) : Prop :=
  ∀ i c, committed.contracts.get? i = some c → c.carId = tx.2.carId →
    snapshot.contracts.get? i = some c

/-- What a booking writes: at most the contract under `key`, for the car it names and for a
period that is free in its snapshot. -/
structure BookingWrites (carId key : Id) (snapshot committed db : Db) : Prop where
  others : ∀ i c, i ≠ key → db.contracts.get? i = some c → committed.contracts.get? i = some c
  own : ∀ c, db.contracts.get? key = some c → committed.contracts.get? key = some c ∨
    (c.carId = carId ∧ ∀ j c', j ≠ key → snapshot.contracts.get? j = some c' → Open c' →
      ¬ Clash c c')

variable {snapshot committed db mine : Db} {carId key : Id} {c : Contract}

theorem bookingWrites_insert (hcar : c.carId = carId)
    (hfree : Free (snapshot.bump committed) none c)
    (hmine : mine.contracts = (snapshot.bump committed).contracts.insert c) :
    BookingWrites carId (snapshot.bump committed).contracts.nextId snapshot committed
      (Db.merge (snapshot.bump committed) mine committed) where
  others := by
    intro i c' hne hc'
    have hsame : mine.contracts.get? i = (snapshot.bump committed).contracts.get? i := by
      rw [hmine, Table.get?_insert, if_neg hne]
    rwa [Db.merge, Table.get?_merge_same hsame] at hc'
  own := by
    intro c' hc'
    rcases Table.get?_merge_eq_some hc' with hold | ⟨hnew, -⟩
    · exact Or.inl hold
    · rw [hmine, Table.get?_insert_self] at hnew
      obtain rfl := Option.some.inj hnew
      exact Or.inr ⟨hcar, fun j c' _ hj => hfree j c' hj (by simp)⟩

theorem bookingWrites_set {old : Contract}
    (hold : (snapshot.bump committed).contracts.get? key = some old) (hcar : c.carId = carId)
    (hfree : Free (snapshot.bump committed) (some key) c)
    (hmine : mine.contracts = (snapshot.bump committed).contracts.set key c) :
    BookingWrites carId key snapshot committed
      (Db.merge (snapshot.bump committed) mine committed) where
  others := by
    intro i c' hne hc'
    have hsame : mine.contracts.get? i = (snapshot.bump committed).contracts.get? i := by
      rw [hmine, Table.get?_set_ne hne]
    rwa [Db.merge, Table.get?_merge_same hsame] at hc'
  own := by
    intro c' hc'
    rcases Table.get?_merge_eq_some hc' with hcommitted | ⟨hnew, -⟩
    · exact Or.inl hcommitted
    · rw [hmine, Table.get?_set_self hold] at hnew
      obtain rfl := Option.some.inj hnew
      exact Or.inr ⟨hcar, fun j c' hne hj => hfree j c' hj (by simpa using hne.symm)⟩

theorem bookingEffect_writes (tx : Env × Booking) (snapshot committed : Db) :
    ∃ key, BookingWrites tx.2.carId key snapshot committed
      (bookingEffect tx snapshot committed) := by
  obtain ⟨env, b⟩ := tx
  unfold bookingEffect Call.commitOn
  cases hexec : b.call.exec env (snapshot.bump committed) with
  | error e => exact ⟨0, fun i c _ hc => hc, fun c hc => Or.inl hc⟩
  | ok mine =>
    cases b with
    | create request =>
      obtain ⟨⟨_, mine⟩, hcall, rfl⟩ := map_eq_ok.mp hexec
      obtain ⟨c, hcar, hfree, hmine⟩ := (create_run hcall).1
      exact ⟨_, bookingWrites_insert hcar hfree hmine⟩
    | update id request =>
      obtain ⟨⟨_, mine⟩, hcall, rfl⟩ := map_eq_ok.mp hexec
      obtain ⟨_, -, ⟨old, c, hold, hcar, hfree, hmine⟩, -⟩ := update_run hcall
      exact ⟨id, bookingWrites_set hold hcar hfree hmine⟩

/-- A booking for another car does not touch what `tx` has read. -/
theorem BookingAgree.keep {tx u : Env × Booking} {other : Db} (hcar : tx.2.carId ≠ u.2.carId)
    (h : BookingAgree tx snapshot committed) :
    BookingAgree tx snapshot (bookingEffect u other committed) := by
  intro i c hc hk
  obtain ⟨key, hwrites⟩ := bookingEffect_writes u other committed
  by_cases hi : i = key
  · subst hi
    rcases hwrites.own c hc with hold | ⟨hcar', -⟩
    · exact h i c hold hk
    · exact absurd (hk.symm.trans hcar') hcar
  · exact h i c (hwrites.others i c hi hc) hk

/-- A booking whose snapshot is up to date for its car keeps the open contracts disjoint. -/
theorem Disjoint.booking {tx : Env × Booking} (hdisj : Disjoint committed)
    (hagree : BookingAgree tx snapshot committed) :
    Disjoint (bookingEffect tx snapshot committed) := by
  obtain ⟨key, hwrites⟩ := bookingEffect_writes tx snapshot committed
  -- one of two rows with different keys is an old one
  have hpair : ∀ i j c c', (bookingEffect tx snapshot committed).contracts.get? i = some c →
      committed.contracts.get? j = some c' → i ≠ j → Open c → Open c' → ¬ Clash c c' := by
    intro i j c c' hc hc' hij ho ho' hclash
    by_cases hi : i = key
    · subst hi
      rcases hwrites.own c hc with hold | ⟨hcar, hfree⟩
      · exact hdisj i j c c' hold hc' hij ho ho' hclash
      · have hread := hagree j c' hc' (hclash.1.symm.trans hcar)
        exact hfree j c' hij.symm hread ho' hclash
    · exact hdisj i j c c' (hwrites.others i c hi hc) hc' hij ho ho' hclash
  intro i j c c' hc hc' hij ho ho'
  by_cases hj : j = key
  · have hi : i ≠ key := fun hi => hij (hi.trans hj.symm)
    have hold := hwrites.others i c hi hc
    exact fun hclash => hpair j i c' c hc' hold hij.symm ho' ho hclash.symm
  · exact hpair i j c c' hc (hwrites.others j c' hj hc') hij ho ho'

/-- Two bookings conflict when they name the same car. -/
def BookingConflicts (tx u : Env × Booking) : Prop := tx.2.carId = u.2.carId

/-- **No double booking under concurrency**, as long as the bookings of one car do not race:
from any reachable database, in any interleaving of any number of `create` and `update` calls
in which no call that names the same car ends, committed or rolled back, between the snapshot of
a call and its own end, no two open contracts of a car overlap in the sense of
`hasOverlappingContract`. -/
theorem no_double_booking_concurrent {w : World} (h : Reachable w)
    (events : List (Event (Env × Booking)))
    (hguard : Guarded bookingEffect (Isolated BookingConflicts) ⟨w.db, []⟩ events)
    {i j : Id} {c c' : Contract} {s e : LocalDateTime}
    (hi : (afterBookings w.db events).contracts.get? i = some c)
    (hj : (afterBookings w.db events).contracts.get? j = some c')
    (hij : i ≠ j) (hcar : c.carId = c'.carId) (ho : Open c) (ho' : Open c')
    (hs : c.departureDatetime = some s) (he : c.expectedReturnDatetime = some e) :
    overlaps s e c' = false := by
  have hdisj : Disjoint (afterBookings w.db events) := by
    refine run_isolated BookingAgree ?_ ?_ ?_ hguard rfl ?_
    · exact fun tx db i c hc _ => hc
    · exact fun hne hagree => hagree.keep hne
    · exact fun hdisj hagree => hdisj.booking hagree
    · exact fun i j c c' hc hc' => (inv_of_reachable h).disjoint hc hc'
  by_contra hover
  refine hdisj i j c c' hi hj hij ho ho' ⟨hcar, ?_⟩
  cases hs' : c'.departureDatetime with
  | none => simp [overlaps, hs'] at hover
  | some s' =>
    cases he' : c'.expectedReturnDatetime with
    | none => simp [overlaps, hs', he'] at hover
    | some e' =>
      simp only [overlaps, hs', he', Bool.not_eq_false, Bool.and_eq_true,
        decide_eq_true_eq] at hover
      exact ⟨s, e, s', e', hs, he, rfl, rfl, hover.1, hover.2⟩

/-- Two cars. -/
def fleetOfTwo : List (Env × Call) :=
  fleetOfOne ++ [(.atTime 0, .carCreate
    { brand := "Dacia", fuelType := .diesel, matricule := "2-A-1", mileage := some 0 } none)]

/-- Bookings of the two cars cross; the first car is booked again later. -/
def crossingDesks : List (Event (Env × Booking)) :=
  [.start (.atTime 0, .create (booking secondsPerDay (some (3 * secondsPerDay)) 10000)),
   .start (.atTime 0, .create
     { booking secondsPerDay (some (3 * secondsPerDay)) 10000 with carId := 2 }),
   .finish 1, .finish 0,
   .start (.atTime 0, .create (booking (3 * secondsPerDay) (some (5 * secondsPerDay)) 10000)),
   .finish 0]

theorem no_double_booking_concurrent_crossing :
    ∃ c c', (afterBookings (World.after fleetOfTwo).db crossingDesks).contracts.get? 2 = some c ∧
      (afterBookings (World.after fleetOfTwo).db crossingDesks).contracts.get? 3 = some c' ∧
      overlaps secondsPerDay (3 * secondsPerDay) c' = false := by
  have hguard : Guarded bookingEffect (Isolated BookingConflicts) ⟨(World.after fleetOfTwo).db, []⟩
      crossingDesks := by
    refine .start (.start (.finish rfl ?_ (.finish rfl ?_ (.start (.finish rfl ?_ trivial)))))
    · exact fun u hu => absurd hu (by simp)
    · intro u hu
      obtain rfl := List.mem_singleton.mp hu
      intro hcar
      have hsame : (1 : Nat) = 2 := hcar
      omega
    · exact fun u hu => absurd hu (by simp)
  obtain ⟨c, hc, hcar, ho, hs, he⟩ : ∃ c, (afterBookings (World.after fleetOfTwo).db
      crossingDesks).contracts.get? 2 = some c ∧ c.carId = 1 ∧ Open c ∧
      c.departureDatetime = some secondsPerDay ∧
      c.expectedReturnDatetime = some (3 * secondsPerDay) := ⟨_, rfl, rfl, by decide, rfl, rfl⟩
  obtain ⟨c', hc', hcar', ho'⟩ : ∃ c', (afterBookings (World.after fleetOfTwo).db
      crossingDesks).contracts.get? 3 = some c' ∧ c'.carId = 1 ∧ Open c' :=
    ⟨_, rfl, rfl, by decide⟩
  exact ⟨c, c', hc, hc', no_double_booking_concurrent (reachable_after fleetOfTwo (by decide))
    crossingDesks hguard hc hc' (by decide) (hcar.trans hcar'.symm) ho ho' hs he⟩

/-! ### Concurrent activations -/

/-- The calls that sweep, and the explicit activation. -/
def Call.activates : Call → Bool
  | .updateStatus _ .active => true
  | call => call.sweeps

/-- A transaction that activates contracts. -/
structure Activation where
  env : Env
  call : Call
  activates : call.activates = true

/-- What is committed when an activation that read `snapshot` ends. -/
def activationEffect (tx : Activation) (snapshot committed : Db) : Db :=
  tx.call.commitOn tx.env snapshot committed

/-- What is committed when a database has gone through some activations. -/
abbrev afterActivations (db : Db) (events : List (Event Activation)) : Db :=
  (run activationEffect ⟨db, []⟩ events).committed

/-- A reservation whose departure is due at time 10. -/
def oneReservation : List (Env × Call) :=
  fleetOfOne ++ [(.atTime 0, .contractCreate (booking 10 (some secondsPerDay) 10000))]

/-- The scheduler and a read of the contracts sweep at the same time. -/
def twoSweeps : List (Event Activation) :=
  [.start ⟨.atTime 10, .scheduledAutoActivate, rfl⟩,
   .start ⟨.atTime 10, .contractFindAll, rfl⟩, .finish 0, .finish 0]

/-- The income of the contract is booked twice. -/
theorem income_twice :
    Reachable (World.after oneReservation) ∧
    ∃ r r', (afterActivations (World.after oneReservation).db twoSweeps).incomeRecords.rows =
        [(1, r), (2, r')] ∧
      r.contractId = 1 ∧ r'.contractId = 1 :=
  ⟨reachable_after oneReservation (by decide), _, _, rfl, rfl, rfl⟩

/-- The contracts a call sets out to activate: the one it names, or the due reservations
whose car is available. -/
def Targets (env : Env) (db : Db) : Call → Id → Prop
  | .updateStatus id _, i => i = id
  | _, i => ∃ c, (i, c) ∈ pendingActivation env db ∧ CarAvailable db c

/-- If the transaction commits, every contract it set out to activate that has an income record
by now had it in the snapshot. -/
def Unraced (t : InFlight Activation Db) (committed : Db) : Prop :=
  ∀ mine, t.tx.call.exec t.tx.env (t.snapshot.bump committed) = .ok mine →
    ∀ id, Targets t.tx.env t.snapshot t.tx.call id →
      IncomeRecordRepository.existsByContractId committed id = true →
        IncomeRecordRepository.existsByContractId t.snapshot id = true

/-- An activating call is a run of activations of its targets. -/
theorem activates_run {env : Env} {call : Call} {db db' : Db} (hcall : call.activates = true)
    (hexec : call.exec env db = .ok db') :
    ∃ as : List Action, (∀ a ∈ as, ∃ id total, a = .activate id total ∧ Targets env db call id) ∧
      Run env as db db' := by
  have hsweep : call.sweeps = true →
      (∀ id, (∃ c, (id, c) ∈ pendingActivation env db ∧ CarAvailable db c) →
        Targets env db call id) →
        ∃ as : List Action,
          (∀ a ∈ as, ∃ id total, a = .activate id total ∧ Targets env db call id) ∧
            Run env as db db' := by
    intro hsweep htargets
    obtain ⟨taken, htaken, hrun⟩ := autoActivateContracts_run (Desk.Call.sweeps_exec hsweep hexec)
    refine ⟨_, fun a ha => ?_, hrun⟩
    obtain ⟨p, hp, rfl⟩ := List.mem_map.mp ha
    exact ⟨p.1, _, rfl, htargets p.1 ⟨p.2, htaken p hp⟩⟩
  cases call with
  | updateStatus id newStatus =>
    cases newStatus with
    | active =>
      obtain ⟨⟨_, db'⟩, h, rfl⟩ := map_eq_ok.mp hexec
      obtain ⟨c, hrun⟩ := updateStatus_active_run h
      exact ⟨_, List.forall_mem_singleton.mpr ⟨id, _, rfl, rfl⟩, hrun⟩
    | _ => exact absurd hcall (by simp [Call.activates, Call.sweeps])
  | _ => exact hsweep hcall (fun _ h => h)

/-- What an activation appends to the ledger: at most a record of its contract, which had
none. -/
theorem activate_appends {env : Env} {id : Id} {total : Option Decimal} {P : Id → Prop}
    {db db' : Db} (h : Act env (.activate id total) db db') (hid : P id) :
    AppendsOnce IncomeRecord.contractId P db.incomeRecords db'.incomeRecords := by
  cases h with
  | activate _ _ _ _ _ _ _ hbook =>
    rcases FinancialService.ensureIncomeForContract_cases hbook with
      ⟨-, rfl⟩ | ⟨-, -, rfl⟩ | ⟨hnone, total, client, -, -, -, rfl⟩
    · exact .refl _
    · exact .refl _
    · refine .insert hid fun i r hr => ?_
      have habsent : r.contractId ≠ id := by simpa using Table.any_eq_false_iff.mp hnone i r hr
      exact habsent

/-- An activating call appends to the ledger, and records of its targets only. -/
theorem activates_appends {env : Env} {call : Call} {db db' : Db} (hcall : call.activates = true)
    (hexec : call.exec env db = .ok db') :
    AppendsOnce IncomeRecord.contractId (Targets env db call) db.incomeRecords
      db'.incomeRecords := by
  obtain ⟨as, htargets, hrun⟩ := activates_run hcall hexec
  refine Trace.relates (I := fun _ => True) (R := fun s t => AppendsOnce IncomeRecord.contractId
    (Targets env db call) s.incomeRecords t.incomeRecords) hrun (fun _ => .refl _) ?_
    (fun _ _ _ _ _ _ => trivial) ?_ trivial
  · exact fun h₁ h₂ => AppendsOnce.trans h₁ h₂
  · intro a ha s t hact _
    obtain ⟨id, total, rfl, hid⟩ := htargets a ha
    exact activate_appends hact hid

/-- An activation that was not raced books no contract a second time. -/
theorem uniqueOn_activation {t : InFlight Activation Db} {committed : Db}
    (hunique : UniqueOn IncomeRecord.contractId committed.incomeRecords)
    (hunraced : Unraced t committed) :
    UniqueOn IncomeRecord.contractId
      (activationEffect t.tx t.snapshot committed).incomeRecords := by
  unfold activationEffect Call.commitOn
  cases hexec : t.tx.call.exec t.tx.env (t.snapshot.bump committed) with
  | error e => exact hunique
  | ok mine =>
    refine hunique.merge (activates_appends t.tx.activates hexec) fun i r hr htarget => ?_
    have hex := hunraced mine hexec r.contractId htarget (Table.any_iff.mpr ⟨i, r, hr, by simp⟩)
    obtain ⟨j, r', hr', hsame⟩ := Table.any_iff.mp hex
    exact ⟨j, r', hr', by simpa using hsame⟩

/-- **The income of a contract is booked once** in every interleaving of sweeps and explicit
activations in which no transaction commits after another has booked one of the contracts it
set out to activate. -/
theorem income_once {w : World} (h : Reachable w) (events : List (Event Activation))
    (hguard : Guarded activationEffect Unraced ⟨w.db, []⟩ events) {j j' : Id}
    {r r' : IncomeRecord}
    (hr : (afterActivations w.db events).incomeRecords.get? j = some r)
    (hr' : (afterActivations w.db events).incomeRecords.get? j' = some r')
    (hsame : r.contractId = r'.contractId) : j = j' := by
  have hunique := run_invariant
    (I := fun s => UniqueOn IncomeRecord.contractId s.committed.incomeRecords) hguard ?_ ?_ ?_
  · exact hunique hr hr' hsame
  · exact fun s tx hs => hs
  · intro s k t hk hunraced hs
    simp only [fire, hk]
    exact uniqueOn_activation hs hunraced
  · exact fun i j a b ha hb hab => (inv_of_reachable h).incomeUnique ha hb hab

/-- One due reservation for each of two cars. -/
def dueReservations : List (Env × Call) :=
  fleetOfTwo ++ [(.atTime 0, .contractCreate (booking 10 (some secondsPerDay) 10000)),
    (.atTime 0, .contractCreate
      { booking 10 (some secondsPerDay) 10000 with carId := 2 })]

/-- The two contracts are activated at the same time, and a sweep follows. -/
def twoActivations : List (Event Activation) :=
  [.start ⟨.atTime 10, .updateStatus 1 .active, rfl⟩,
   .start ⟨.atTime 10, .updateStatus 2 .active, rfl⟩, .finish 0, .finish 0,
   .start ⟨.atTime 10, .scheduledAutoActivate, rfl⟩, .finish 0]

theorem income_once_twoActivations :
    ∃ r r', (afterActivations (World.after dueReservations).db twoActivations).incomeRecords.rows =
        [(1, r), (2, r')] ∧ r.contractId ≠ r'.contractId := by
  have hguard : Guarded activationEffect Unraced ⟨(World.after dueReservations).db, []⟩
      twoActivations := by
    refine .start (.start (.finish rfl ?_ (.finish rfl ?_ (.start (.finish rfl ?_ trivial)))))
    · intro _ _ id hid hex
      obtain rfl := hid
      exact hex
    · intro _ _ id hid hex
      obtain rfl := hid
      exact absurd hex (by decide)
    · exact fun _ _ id _ hex => hex
  obtain ⟨r, r', hrows, hr, hr'⟩ : ∃ r r',
      (afterActivations (World.after dueReservations).db twoActivations).incomeRecords.rows =
        [(1, r), (2, r')] ∧
      (afterActivations (World.after dueReservations).db twoActivations).incomeRecords.get? 1 =
        some r ∧
      (afterActivations (World.after dueReservations).db twoActivations).incomeRecords.get? 2 =
        some r' := ⟨_, _, rfl, rfl, rfl⟩
  refine ⟨r, r', hrows, fun hsame => ?_⟩
  have hkeys := income_once (reachable_after dueReservations (by decide)) twoActivations hguard
    hr hr' hsame
  exact absurd hkeys (by decide)

end CarRental
