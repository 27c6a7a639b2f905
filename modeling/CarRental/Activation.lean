import CarRental.Sweep

/-!
# CarRental.Activation

**The paths to an active contract.**

An edit, the explicit status change and the sweep each repeat the activation with
guards of their own: the edit checks the period for overlaps and copies every
field, the status change looks at neither, the sweep looks at the departure.
`activation_paths_agree` says that on a due reservation whose car is available
they are one operation: each is the hand-over of `CarRental.Sweep`. For the edit
this rests on the invariant: that the contract does not clash with the others is
what lets it through its own overlap check.
-/

namespace CarRental.ContractService

open Lib Desk

variable {env : Env} {db : Db} {id : Id} {c : Contract} {car : Car} {p : Id × Contract}

/-- The edit that repeats what is stored. -/
def repeated (c : Contract) : ContractRequest where
  carId := c.carId
  clientId := c.clientId
  additionalDriverName := c.additionalDriverName
  additionalDriverLicense := c.additionalDriverLicense
  additionalDriverPassport := c.additionalDriverPassport
  departurePlace := c.departurePlace
  returnPlace := c.returnPlace
  departureDatetime := c.departureDatetime
  expectedReturnDatetime := c.expectedReturnDatetime
  actualReturnDatetime := c.actualReturnDatetime
  durationDays := c.durationDays
  pricePerDay := c.loaded.pricePerDay
  pricePerWeek := c.loaded.pricePerWeek
  pricePerMonth := c.loaded.pricePerMonth
  pricePerHour := c.loaded.pricePerHour
  withInsurance := some c.withInsurance
  totalPrice := c.loaded.totalPrice
  supplement := c.loaded.supplement
  totalGeneral := c.loaded.totalGeneral
  paymentCash := c.loaded.paymentCash
  paymentCheck := c.loaded.paymentCheck
  paymentDeposit := c.loaded.paymentDeposit
  vehicleConditionDeparture := c.vehicleConditionDeparture
  vehicleConditionReturn := c.vehicleConditionReturn
  damagesIdentified := c.damagesIdentified

theorem apply_repeated (c : Contract) :
    apply { c.loaded with carId := (repeated c).carId, clientId := (repeated c).clientId }
      (repeated c) = c.loaded := by
  simp [apply, repeated, ContractOf.loaded, ContractOf.mapAmounts]

/-- The period a contract holds already does not stand in the way of its edit. -/
theorem not_overlapping_self (hI : Inv db) (hget : db.contracts.get? id = some c) (hopen : Open c) :
    ¬ hasOverlappingContract env db c.carId c.departureDatetime c.expectedReturnDatetime
      (some id) = true := by
  intro hover
  cases hs : c.departureDatetime with
  | none => simp [hasOverlappingContract, hs] at hover
  | some s =>
    cases he : c.expectedReturnDatetime with
    | none => simp [hasOverlappingContract, hs, he] at hover
    | some e =>
      rw [hs, he, hasOverlappingContract_iff] at hover
      obtain ⟨i, c', hget', hcar, hopen', hne, hov⟩ := hover
      refine hI.disjoint hget hget' (fun heq => hne (heq ▸ rfl)) hopen hopen' ⟨hcar.symm, ?_⟩
      unfold overlaps at hov
      split at hov
      · next s' e' hs' he' =>
        rw [Bool.and_eq_true, decide_eq_true_eq, decide_eq_true_eq] at hov
        exact ⟨s, e, s', e', hs, he, hs', he', hov.1, hov.2⟩
      · exact absurd hov Bool.false_ne_true

/-- Only the time matters to what is booked. -/
theorem handOver_congr {env' : Env} (h : env'.now = env.now) :
    handOver env' db p car = handOver env db p car := by
  unfold handOver newIncome FinancialService.incomeRecord
  rw [h]

/-- **The activation paths agree.** In a reachable state, a due reservation whose car is
available is started by the edit that repeats its own fields, by the explicit status change and
by a sweep that finds no other due contract, and the three leave the same database. The answers
of the first two are the same as well. -/
theorem activation_paths_agree {w : World} (h : Reachable w) (env env' env'' : Env)
    (hnow' : env'.now = env.now) (hnow'' : env''.now = env.now) (hdue : Due w.db env.now (id, c))
    (havail : CarAvailable w.db c) :
    ∃ response db', update env id (repeated c) w.db = .ok (response, db') ∧
      updateStatus env' id .active w.db = .ok (response, db') ∧
      (pendingActivation env'' w.db = [(id, c)] → env''.faulty id = false →
        autoActivateContracts env'' w.db = .ok db') := by
  have hI := inv_of_reachable h
  obtain ⟨⟨hget, hdel, hst⟩, departure, hdep, hle⟩ := hdue
  obtain ⟨car, hcar, hcarst⟩ := havail
  obtain ⟨client, hclient⟩ := hI.contractClient hget
  dsimp only at hget hdel hst hdep hclient
  -- the income can be booked, because contracts refer to clients on file
  have hbook : ¬ Unbookable w.db (id, c) := by
    intro hun
    rw [hun.2.2] at hclient
    exact absurd hclient (by simp)
  have hcar' : (handOver env w.db (id, c) car).cars.get? c.carId = some (rentedOut car) :=
    Table.get?_set_self hcar
  have hclient' : (handOver env w.db (id, c) car).clients.get? c.clientId = some client := hclient
  obtain ⟨response, hresponse⟩ :
      ∃ response, map (handOver env w.db (id, c) car) id
        (ContractOf.loaded { c with status := .active }) = .ok response := by
    unfold map
    simp only [ContractOf.loaded, ContractOf.mapAmounts, hcar', hclient']
    exact ⟨_, rfl⟩
  refine ⟨response, handOver env w.db (id, c) car, ?_, ?_, ?_⟩
  · -- the edit: nothing clashes, and the row it writes first is the one that is there
    have hover : ¬ hasOverlappingContract env w.db c.carId c.departureDatetime
        c.expectedReturnDatetime (some id) = true :=
      not_overlapping_self hI hget ⟨hdel, Or.inl hst⟩
    unfold update
    simp only [bind_eq_ok, throwIf_eq_ok, findCar, findClient, orThrow_eq_ok, getContract_eq_ok]
    refine ⟨c, ⟨hget, hdel⟩, (), by simp [hst], car, hcar, (), hover, client, hclient, (),
      by simp [hst], ?_⟩
    have hst' : c.loaded.status = .inProgress := hst
    rw [apply_repeated, ContractOf.stored_loaded, Table.set_get? hget, hst']
    simp only [bind_eq_ok, throwIf_eq_ok, orThrow_eq_ok]
    refine ⟨departure, hdep, (), by simp [hcarst], ?_⟩
    rw [if_pos hle]
    exact bind_eq_ok.mpr ⟨_, ensureIncomeForContract_rentOut hbook,
      bind_eq_ok.mpr ⟨response, hresponse, rfl⟩⟩
  -- the status change: the same guards, and the same row
  · unfold updateStatus
    simp only [bind_eq_ok, throwIf_eq_ok, orThrow_eq_ok, getContract_eq_ok]
    refine ⟨c, ⟨hget, hdel⟩, (), by simp [hst], car, hcar, (), by simp [hcarst],
      handOver env w.db (id, c) car, ?_, response, hresponse, rfl⟩
    rw [← handOver_congr hnow']
    exact ensureIncomeForContract_rentOut hbook
  · intro honly hfaulty
    -- the sweep: it takes this contract and no other
    have htakes : takes env'' w.db = [(id, c)] := by
      have hfree : carFree w.db c.carId = true := carFree_iff.mpr ⟨car, hcar, hcarst⟩
      simp [takes, taken, honly, grants, hfree]
    rcases autoActivateContracts_eq env'' w.db with ⟨⟨p, hp, hthrows⟩, -⟩ | ⟨-, hok⟩
    · rw [htakes, List.mem_singleton] at hp
      subst hp
      rw [throws_iff] at hthrows
      rcases hthrows with hthrows | hthrows
      · rw [hfaulty] at hthrows
        exact absurd hthrows Bool.false_ne_true
      · exact absurd hthrows hbook
    · rw [hok, htakes, ← swept_handOver hget hcar (by simp), swept_nil, handOver_congr hnow'']

/-- The reservation of the second client, due at `25`. -/
theorem activation_paths_agree_promptReturn :
    ∃ c, (World.after promptReturn).db.contracts.get? 2 = some c ∧ ∃ response db',
      update (.atTime 25) 2 (repeated c) (World.after promptReturn).db = .ok (response, db') ∧
      updateStatus (.atTime 25) 2 .active (World.after promptReturn).db = .ok (response, db') ∧
      autoActivateContracts (.atTime 25) (World.after promptReturn).db = .ok db' := by
  have hreach : Reachable (World.after promptReturn) := reachable_after promptReturn (by decide)
  obtain ⟨c, hget, hdue, honly⟩ : ∃ c, (World.after promptReturn).db.contracts.get? 2 = some c ∧
      Due (World.after promptReturn).db 25 (2, c) ∧
      pendingActivation (.atTime 25) (World.after promptReturn).db = [(2, c)] :=
    ⟨_, rfl, ⟨⟨rfl, rfl, rfl⟩, 20, rfl, by decide⟩, rfl⟩
  have havail : CarAvailable (World.after promptReturn).db c := by
    obtain rfl := Option.some.inj hget
    exact ⟨_, rfl, rfl⟩
  obtain ⟨response, db', hupdate, hstatus, hsweep⟩ := activation_paths_agree hreach
    (.atTime 25) (.atTime 25) (.atTime 25) rfl rfl hdue havail
  exact ⟨c, hget, response, db', hupdate, hstatus, hsweep honly rfl⟩

end CarRental.ContractService
