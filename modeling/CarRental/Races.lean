import CarRental.Concurrency
import CarRental.Fleet
import CarRental.Ledger
import CarRental.Lib.Commit

/-!
# CarRental.Races

**All calls at once.** `CarRental.Concurrency` shows what the missing locks cost: the
guards of the services, tests followed by a write, can be passed twice. This module
asks what is left of the system when any number of any of its calls race.

* `races_keep_records`: what each row says by itself, and what is on record. No
  interleaving makes a contract that is running and archived, cancels one, books a
  negative amount, loses a contract or an expense, or touches an income record once it
  is committed.
* `unraced_serial`: calls that overlap only with calls that wrote nothing act as if
  they had come one after the other, in the order in which they finished; if that is
  the order of their clocks, all that is proved of serial runs holds of their
  interleavings.

What lies in between is lost: a late edit writes the whole row it has read, and takes
a completed contract back to the road (`late_edit_reopens`).

Foreign keys and unique indexes of the database are not part of the picture. A commit
they refuse is a transaction that never finishes, which is among the interleavings.
-/

namespace CarRental

open Lib Lib.Table Desk ContractService FinancialService

variable {env : Env} {a : Action} {call : Call} {db db' db₁ db₂ recorded : Db}
  {snapshot committed mine : Db} {w : World}

/-- A call, in its circumstances, as a transaction. -/
def callEffect (tx : Env × Call) (snapshot committed : Db) : Db :=
  tx.2.commitOn tx.1 snapshot committed

/-- What is committed when a database has gone through an interleaving of calls. -/
abbrev afterCalls (db : Db) (events : List (Event (Env × Call))) : Db :=
  (run callEffect ⟨db, []⟩ events).committed

/-! ### How a call changes the tables -/

/-- Every table is one after some insertions, changes and deletions. -/
structure Db.Descends (db db' : Db) : Prop where
  collate : db'.collate = db.collate
  cars : Table.Descends db.cars db'.cars
  clients : Table.Descends db.clients db'.clients
  contracts : Table.Descends db.contracts db'.contracts
  maintenances : Table.Descends db.maintenances db'.maintenances
  incomeRecords : Table.Descends db.incomeRecords db'.incomeRecords
  expenseRecords : Table.Descends db.expenseRecords db'.expenseRecords

theorem Db.Descends.refl (db : Db) : Db.Descends db db :=
  ⟨rfl, .refl _, .refl _, .refl _, .refl _, .refl _, .refl _⟩

theorem Db.Descends.trans (h : Db.Descends db db₁) (h' : Db.Descends db₁ db₂) :
    Db.Descends db db₂ :=
  ⟨h'.collate.trans h.collate, h.cars.trans h'.cars, h.clients.trans h'.clients,
    h.contracts.trans h'.contracts, h.maintenances.trans h'.maintenances,
    h.incomeRecords.trans h'.incomeRecords, h.expenseRecords.trans h'.expenseRecords⟩

theorem reconciled_descends (today : LocalDate) (id : Id) {t : Table Car} (hdb : db.cars = t) :
    Table.Descends t (MaintenanceService.reconcileCarStatus today id db).cars := by
  subst hdb
  cases hcar : db.cars.get? id with
  | none =>
    rw [MaintenanceService.reconcileCarStatus_none hcar]
    exact .refl _
  | some car =>
    by_cases hrented : car.status = .rented
    · rw [MaintenanceService.reconcileCarStatus_rented hcar hrented]
      exact .refl _
    · rw [MaintenanceService.reconcileCarStatus_eq hcar hrented]
      exact .set _ _ _

theorem Desk.Act.income_descends (h : Act env a db db') :
    Table.Descends db.incomeRecords db'.incomeRecords := by
  rcases h.income_cases with hsame | ⟨_, _, _, _, -, -, -, -, -, hins⟩
  · exact hsame ▸ .refl _
  · exact hins ▸ .insert _ _

/-- An expense is added or rewritten, never removed. -/
theorem recorded_expense {id : Id} {m : Maintenance}
    (h : recordExpenseFromMaintenance id m db₁ = .ok recorded) :
    Table.Descends db₁.expenseRecords recorded.expenseRecords ∧
      KeepsKeys db₁.expenseRecords recorded.expenseRecords := by
  rcases recordExpenseFromMaintenance_cases h with ⟨-, rfl⟩ | ⟨cost, car, -, -, hwrite⟩
  · exact ⟨.refl _, fun _ hi => hi⟩
  · rcases hwrite with ⟨-, rfl⟩ | ⟨k, old, -, rfl⟩
    · exact ⟨.insert _ _, .insert _ _⟩
    · exact ⟨.set _ _ _, .set _ _ _⟩

theorem Desk.Act.descends (h : Act env a db db') : Db.Descends db db' := by
  have hsame := Db.Descends.refl db
  have hincome := h.income_descends
  cases h with
  | addCar => exact { hsame with cars := .insert _ _ }
  | editCar => exact { hsame with cars := .set _ _ _ }
  | removeCar => exact { hsame with cars := .delete _ _ }
  | reconcile => exact { hsame with cars := reconciled_descends _ _ rfl }
  | release => exact { hsame with cars := .set _ _ _ }
  | keepRented => exact { hsame with cars := .set _ _ _ }
  | addClient => exact { hsame with clients := .insert _ _ }
  | editClient => exact { hsame with clients := .set _ _ _ }
  | removeClient => exact { hsame with clients := .delete _ _ }
  | reserve => exact { hsame with contracts := .insert _ _ }
  | editContract => exact { hsame with contracts := .set _ _ _ }
  | activate =>
    exact { hsame with
      cars := .set _ _ _
      contracts := .set _ _ _
      incomeRecords := hincome }
  | complete _ _ _ _ hdb₁ _ =>
    subst hdb₁
    exact { hsame with
      cars := .set _ _ _
      contracts := .set _ _ _
      incomeRecords := hincome }
  | book => exact { hsame with incomeRecords := hincome }
  | archive => exact { hsame with contracts := .set _ _ _ }
  | addMaintenance _ hdb₁ hdb₂ hrecord =>
    subst hdb₁ hdb₂
    exact { hsame with
      cars := reconciled_descends _ _ rfl
      maintenances := .insert _ _
      expenseRecords := (recorded_expense hrecord).1 }
  | editMaintenance _ _ hdb₁ hdb₂ hrecord =>
    subst hdb₁ hdb₂
    exact { hsame with
      cars := reconciled_descends _ _ rfl
      maintenances := .set _ _ _
      expenseRecords := (recorded_expense hrecord).1 }
  | removeMaintenance _ hdb₁ =>
    subst hdb₁
    exact { hsame with cars := reconciled_descends _ _ rfl, maintenances := .delete _ _ }

/-- What every action of the desk moves forward, a call does. -/
theorem Call.exec_relates {R : Db → Db → Prop} (hexec : call.exec env db = .ok db')
    (hrefl : ∀ db, R db db) (htrans : ∀ {db₁ db₂ db₃}, R db₁ db₂ → R db₂ db₃ → R db₁ db₃)
    (hact : ∀ {a db db'}, Act env a db db' → R db db') : R db db' := by
  obtain ⟨as, -, hrun⟩ := Call.exec_performed hexec
  exact hrun.relates (I := fun _ => True) hrefl htrans (fun _ _ _ _ _ _ => trivial)
    (fun _ _ _ _ h _ => hact h) trivial

theorem Call.exec_descends (hexec : call.exec env db = .ok db') : Db.Descends db db' :=
  Call.exec_relates hexec .refl .trans fun h => h.descends

/-! ### What is on record -/

/-- No contract and no expense is gone, and the income ledger has only been appended to. -/
structure OnRecord (db db' : Db) : Prop where
  contracts : KeepsKeys db.contracts db'.contracts
  ledger : db.incomeRecords.rows <+: db'.incomeRecords.rows
  expenses : KeepsKeys db.expenseRecords db'.expenseRecords

theorem OnRecord.refl (db : Db) : OnRecord db db :=
  ⟨fun _ hi => hi, List.prefix_rfl, fun _ hi => hi⟩

theorem OnRecord.trans (h : OnRecord db db₁) (h' : OnRecord db₁ db₂) : OnRecord db db₂ :=
  ⟨fun i hi => h'.contracts i (h.contracts i hi), h.ledger.trans h'.ledger,
    fun i hi => h'.expenses i (h.expenses i hi)⟩

theorem Desk.Act.onRecord (h : Act env a db db') : OnRecord db db' where
  contracts := by
    rcases h.contracts_cases with hsame | ⟨c, _, _, -, -, -, -, -, hins⟩ | ⟨_, _, _, -, -, hset⟩
    · exact hsame ▸ fun _ hi => hi
    · exact hins ▸ .insert _ _
    · exact hset ▸ .set _ _ _
  ledger := h.income_grows
  expenses := by
    cases h with
    | addMaintenance _ hdb₁ hdb₂ hrecord =>
      subst hdb₁ hdb₂
      exact (recorded_expense hrecord).2
    | editMaintenance _ _ hdb₁ hdb₂ hrecord =>
      subst hdb₁ hdb₂
      exact (recorded_expense hrecord).2
    | complete _ _ _ _ hdb₁ _ =>
      subst hdb₁
      exact fun _ hi => hi
    | removeMaintenance _ hdb₁ =>
      subst hdb₁
      exact fun _ hi => hi
    | _ => exact fun _ hi => hi

theorem Call.exec_onRecord (hexec : call.exec env db = .ok db') : OnRecord db db' :=
  Call.exec_relates hexec .refl .trans fun h => h.onRecord

/-! ### What a row says by itself -/

/-- A contract, whatever the other rows are. -/
structure ContractRow (c : Contract) : Prop where
  activeNotDeleted : c.status = .active → c.deleted = false
  notCancelled : c.status ≠ .cancelled
  completedReturned : c.status = .completed → c.actualReturnDatetime ≠ none

/-- A car, whatever the other rows are. -/
structure CarRow (car : Car) : Prop where
  mileage : 0 ≤ car.mileage
  stamp : car.mileageUpdatedAt ≠ none
  picture : ∀ url, car.imageUrl = some url → StoredPicture url

/-- Every row is in order by itself, and the income on record is that of contracts on
record. -/
structure SoundRows (db : Db) : Prop where
  contracts : AllRows ContractRow db.contracts
  cars : AllRows CarRow db.cars
  income : AllRows (fun r => 0 ≤ r.amount) db.incomeRecords
  incomeContract : ∀ {i r}, db.incomeRecords.get? i = some r →
    db.contracts.get? r.contractId ≠ none

theorem SoundRows.empty (collate : String → String) : SoundRows (Db.empty collate) where
  contracts := by intro i c h; simp [Db.empty] at h
  cars := by intro i car h; simp [Db.empty] at h
  income := by intro i r h; simp [Db.empty] at h
  incomeContract := by intro i r h; simp [Db.empty] at h

theorem Desk.ContractMove.row {ledger : Table IncomeRecord} {id : Id} {old new : Contract}
    (h : ContractMove env db ledger id old a new) (hold : ContractRow old) : ContractRow new := by
  cases h with
  | edit _ hncomp hst hdel _ _ _ _ =>
    exact ⟨fun _ => hdel, hst ▸ hold.notCancelled, fun hcomp => absurd (hst ▸ hcomp) hncomp⟩
  | activate hdel _ _ _ _ => exact ⟨fun _ => hdel, by simp, by simp⟩
  | complete _ _ _ _ => exact ⟨by simp, by simp, by simp⟩
  | archive _ hna =>
    exact ⟨fun hact => absurd hact hna, hold.notCancelled, hold.completedReturned⟩

theorem Desk.Act.contractRows (h : Act env a db db') (hrows : AllRows ContractRow db.contracts) :
    AllRows ContractRow db'.contracts := by
  intro i c hc
  rcases h.contract_cases hc with hold | ⟨hst, hdel, -⟩ | ⟨old, hget, hmove⟩
  · exact hrows hold
  · exact ⟨fun _ => hdel, by rw [hst]; decide, by rw [hst]; simp⟩
  · exact hmove.row (hrows hget)

section Cars

variable {collate : String → String} {now : LocalDateTime} {t t' : Table Car}

theorem Applied.carRow {saved : Bool} {old car : Car} {request : CarRequest}
    (h : Applied now saved old request car) (hstamp : saved = true → old.mileageUpdatedAt ≠ none)
    (hpicture : ∀ url, old.imageUrl = some url → StoredPicture url) : CarRow car where
  mileage := h.nonneg
  stamp := by
    rcases h.stamp with ⟨hsaved, -, hkept⟩ | ⟨hnew, -⟩
    · rw [hkept]
      exact hstamp hsaved
    · simp [hnew]
  picture := by
    intro url hurl
    rcases h.picture with hkept | ⟨stored, hnew, hstored⟩
    · exact hpicture url (hkept.symm.trans hurl)
    · rw [hnew] at hurl
      exact Option.some.inj hurl ▸ hstored

theorem RegisterMove.carRows (h : RegisterMove collate now t t') (hrows : AllRows CarRow t) :
    AllRows CarRow t' := by
  intro k car hk
  cases h with
  | same hsame =>
    obtain ⟨s, hget⟩ := hsame.origin hk
    obtain ⟨hmileage, hstamp, hpicture⟩ := hrows hget
    exact ⟨hmileage, hstamp, hpicture⟩
  | added happlied _ ht' =>
    rw [ht', Table.get?_insert_eq_some] at hk
    rcases hk with ⟨-, rfl⟩ | hk
    · exact happlied.carRow (by simp) (by simp [blankCar])
    · exact hrows hk
  | edited hget happlied _ ht' =>
    rw [ht', Table.get?_set_eq_some hget] at hk
    rcases hk with ⟨-, rfl⟩ | ⟨-, hk⟩
    · exact happlied.carRow (fun _ => (hrows hget).stamp) (hrows hget).picture
    · exact hrows hk
  | @removed j ht' =>
    rw [ht', Table.get?_delete] at hk
    split at hk
    · exact absurd hk (by simp)
    · exact hrows hk

end Cars

/-- Every call keeps the rows in order, on any database. -/
theorem Call.exec_soundRows (hexec : call.exec env db = .ok db') (h : SoundRows db) :
    SoundRows db' := by
  obtain ⟨as, -, hrun⟩ := Call.exec_performed hexec
  have hdesk := hrun.invariant (I := fun db => AllRows ContractRow db.contracts ∧
      AllRows (fun r => 0 ≤ r.amount) db.incomeRecords ∧
      ∀ i r, db.incomeRecords.get? i = some r → db.contracts.get? r.contractId ≠ none) ?_
    ⟨h.contracts, h.income, fun _ _ => h.incomeContract⟩
  · have hregister := Call.commit_register env call db
    rw [Call.commit, hexec, settle_ok] at hregister
    exact ⟨hdesk.1, hregister.carRows h.cars, hdesk.2.1, fun hr => hdesk.2.2 _ _ hr⟩
  · rintro a - s t hact ⟨hcontracts, hincome, hrefers⟩
    refine ⟨hact.contractRows hcontracts, fun i r hr => ?_, fun i r hr => ?_⟩
    · rcases hact.income_origin hr with hold | ⟨-, hpos | ⟨hzero, -⟩, -, -⟩
      · exact hincome hold
      · exact Int.le_of_lt hpos
      · exact Int.le_of_eq hzero.symm
    · rcases hact.income_origin hr with hold | ⟨-, -, ⟨c, hc, -, -⟩, -⟩
      · exact hact.onRecord.contracts _ (hrefers i r hold)
      · simp [hc]

theorem soundRows_of_reachable (h : Reachable w) : SoundRows w.db := by
  refine h.induction (I := fun w => SoundRows w.db) (fun _ collate => .empty collate) ?_
  intro w env call _ hrows _ _
  show SoundRows (call.commit env w.db)
  unfold Call.commit
  cases hexec : call.exec env w.db with
  | error e => exact hrows
  | ok db' => exact Call.exec_soundRows hexec hrows

/-! ### Races -/

/-- What a commit leaves of the rows and of what is on record, if the transaction has read a
state that the committed one has moved on from. -/
theorem callEffect_keeps {tx : Env × Call} (hread : SoundRows snapshot)
    (hrows : SoundRows committed) (hsince : OnRecord snapshot committed) :
    SoundRows (callEffect tx snapshot committed) ∧
      OnRecord committed (callEffect tx snapshot committed) := by
  unfold callEffect Call.commitOn
  cases hexec : tx.2.exec tx.1 (snapshot.bump committed) with
  | error e => exact ⟨hrows, .refl _⟩
  | ok mine =>
    have hbase : SoundRows (snapshot.bump committed) :=
      ⟨hread.contracts, hread.cars, hread.income, hread.incomeContract⟩
    have hmine := Call.exec_soundRows hexec hbase
    have hdescends := Call.exec_descends hexec
    have hkept := Call.exec_onRecord hexec
    have honRecord : OnRecord committed (Db.merge (snapshot.bump committed) mine committed) :=
      ⟨hkept.contracts.merge,
        rows_prefix_merge hdescends.incomeRecords (le_nextId_bump _ _) hkept.ledger,
        hkept.expenses.merge⟩
    refine ⟨⟨hmine.contracts.merge hrows.contracts, hmine.cars.merge hrows.cars,
      hmine.income.merge hrows.income, fun {i r} hr => ?_⟩, honRecord⟩
    -- the contract of a record is on record where the record comes from
    rcases get?_merge_eq_some hr with hold | ⟨hnew, -⟩
    · exact honRecord.contracts _ (hrows.incomeContract hold)
    · exact merge_keeps_mine hdescends.contracts (le_nextId_bump _ _) hsince.contracts
        hkept.contracts _ (hmine.incomeContract hnew)

/-- **What races cannot break.** In every interleaving of any number of calls, from any
reachable database, the committed rows are in order by themselves: a running contract is not
archived, no contract is cancelled, a completed one has a return date, the mileage of a car is
not negative and was read at a known time, a picture on file was stored, and income is not
negative and that of a contract on record. And nothing committed is lost later on: contracts
and expenses stay, an income record is never touched again, and so the total income never
decreases. -/
theorem races_keep_records (h : Reachable w) (events more : List (Event (Env × Call))) :
    SoundRows (afterCalls w.db events) ∧
    OnRecord (afterCalls w.db events) (afterCalls w.db (events ++ more)) ∧
    totalIncome (afterCalls w.db events) ≤ totalIncome (afterCalls w.db (events ++ more)) := by
  have hstart : Coherent SoundRows OnRecord (⟨w.db, []⟩ : Interleaving (Env × Call) Db) :=
    ⟨soundRows_of_reachable h, by simp⟩
  have hrun : ∀ {s : Interleaving (Env × Call) Db}, Coherent SoundRows OnRecord s → ∀ events,
      Coherent SoundRows OnRecord (run callEffect s events) ∧
        OnRecord s.committed (run callEffect s events).committed :=
    fun hs events => hs.run .refl .trans callEffect_keeps events
  obtain ⟨hmiddle, -⟩ := hrun hstart events
  obtain ⟨hend, hmoved⟩ := hrun hmiddle more
  rw [afterCalls, afterCalls, run_append]
  exact ⟨hmiddle.committed, hmoved,
    totalIncome_mono (fun _ _ hr => hend.committed.income hr) hmoved.ledger⟩

/-- The scheduler and a read of the contracts sweep at the same time; the scheduler commits
first. -/
def sweepFirst : List (Event (Env × Call)) :=
  [.start (.atTime 10, .scheduledAutoActivate), .start (.atTime 10, .contractFindAll), .finish 0]

/-- The record of the scheduler outlives the commit of the other sweep, which overwrites the
contract. -/
theorem races_keep_records_sweeps :
    Reachable (World.after oneReservation) ∧
    ∃ c r, (afterCalls (World.after oneReservation).db sweepFirst).incomeRecords.get? 1 = some r ∧
      (afterCalls (World.after oneReservation).db (sweepFirst ++ [.finish 0])).incomeRecords.get? 1
        = some r ∧
      (afterCalls (World.after oneReservation).db sweepFirst).contracts.get? 1 = some c ∧
      c.status = .active ∧ c.deleted = false := by
  have hreach : Reachable (World.after oneReservation) :=
    reachable_after oneReservation (by decide)
  obtain ⟨hrows, hkept, -⟩ := races_keep_records hreach sweepFirst [.finish 0]
  obtain ⟨r, hr⟩ : ∃ r, (afterCalls (World.after oneReservation).db
      sweepFirst).incomeRecords.get? 1 = some r := ⟨_, rfl⟩
  obtain ⟨c, hc, hactive⟩ : ∃ c, (afterCalls (World.after oneReservation).db
      sweepFirst).contracts.get? 1 = some c ∧ c.status = .active := ⟨_, rfl, rfl⟩
  exact ⟨hreach, c, r, hr, mem_rows.mp (hkept.ledger.subset (mem_rows.mpr hr)), hc, hactive,
    (hrows.contracts hc).activeNotDeleted hactive⟩

/-- A running contract is prolonged while it is completed; the edit commits last. -/
def lateEdit : List (Event (Env × Call)) :=
  [.start (.atTime 10, .contractUpdate 1 (booking 0 (some (2 * secondsPerDay)) 12000)),
   .start (.atTime 20, .updateStatus 1 .completed), .finish 1, .finish 0]

/-- The contract is running again, without a return date, and its car is free for the next
client. -/
theorem late_edit_reopens :
    Reachable (World.after firstRental) ∧
    ∃ c car, (afterCalls (World.after firstRental).db lateEdit).contracts.get? 1 = some c ∧
      (afterCalls (World.after firstRental).db lateEdit).cars.get? 1 = some car ∧
      c.carId = 1 ∧ c.status = .active ∧ c.actualReturnDatetime = none ∧
      car.status = .available :=
  ⟨firstRental_reachable, _, _, rfl, rfl, rfl, rfl, rfl, rfl⟩

/-! ### Calls that do not race -/

theorem Db.bump_self (db : Db) : db.bump db = db := by
  simp [Db.bump]

theorem Db.Descends.merge_eq (h : Db.Descends db db') : Db.merge db db' db = db' := by
  simp [Db.merge, ← h.collate, h.cars.merge_eq, h.clients.merge_eq, h.contracts.merge_eq,
    h.maintenances.merge_eq, h.incomeRecords.merge_eq, h.expenseRecords.merge_eq]

/-- A call that has read what is committed acts as it does alone. -/
theorem commitOn_self (env : Env) (call : Call) (db : Db) :
    call.commitOn env db db = call.commit env db := by
  unfold Call.commitOn Call.commit
  rw [Db.bump_self]
  cases hexec : call.exec env db with
  | error e => rfl
  | ok db' => exact (Call.exec_descends hexec).merge_eq

/-- What a transaction has read is what is committed when it finishes. -/
def UpToDate (t : InFlight (Env × Call) Db) (committed : Db) : Prop := t.snapshot = committed

theorem runCalls_db (calls : List (Env × Call)) (w : World) :
    (runCalls calls w).db = calls.foldl (fun db tx => tx.2.commit tx.1 db) w.db := by
  induction calls generalizing w with
  | nil => rfl
  | cons tx rest ih => exact ih _

/-- **Calls that do not race are serial.** An interleaving in which every call finishes on the
state it has read, that is, in which it overlaps only with calls that failed or wrote nothing,
commits what its calls leave one after the other in the order in which they finish. When this
is also the order of their clocks, none of them before the clock of the start, that is a run
of the system. -/
theorem unraced_serial (w : World) (events : List (Event (Env × Call)))
    (hguard : Guarded callEffect UpToDate ⟨w.db, []⟩ events) :
    afterCalls w.db events = (runCalls (finished callEffect ⟨w.db, []⟩ events) w).db ∧
    ((w.clock :: (finished callEffect ⟨w.db, []⟩ events).map
        fun tx => tx.1.now).Pairwise (· ≤ ·) →
      Relation.ReflTransGen Step w (runCalls (finished callEffect ⟨w.db, []⟩ events) w)) := by
  refine ⟨?_, runCalls_run _ w⟩
  rw [runCalls_db, afterCalls, run_serial (fun tx db => tx.2.commit tx.1 db) hguard]
  intro t committed hsame
  obtain rfl : t.snapshot = committed := hsame
  exact commitOn_self _ _ _

/-- A booking, and a change of status for a contract that does not exist. -/
def bookingAndTypo : List (Event (Env × Call)) :=
  [.start (.atTime 0, .contractCreate (booking secondsPerDay (some (3 * secondsPerDay)) 10000)),
   .start (.atTime 0, .updateStatus 7 .active), .finish 1, .finish 0]

/-- The change fails first, the booking is then as good as alone. -/
theorem unraced_serial_typo :
    finished callEffect ⟨(World.after fleetOfOne).db, []⟩ bookingAndTypo =
      [(.atTime 0, .updateStatus 7 .active),
       (.atTime 0, .contractCreate (booking secondsPerDay (some (3 * secondsPerDay)) 10000))] ∧
    ∃ w', Relation.ReflTransGen Step (World.after fleetOfOne) w' ∧
      w'.db = afterCalls (World.after fleetOfOne).db bookingAndTypo ∧
      ∃ c, w'.db.contracts.get? 1 = some c ∧ c.status = .inProgress := by
  have hguard : Guarded callEffect UpToDate ⟨(World.after fleetOfOne).db, []⟩
      bookingAndTypo :=
    .start (.start (.finish rfl rfl (.finish rfl rfl trivial)))
  obtain ⟨hdb, hrun⟩ := unraced_serial (World.after fleetOfOne) bookingAndTypo hguard
  obtain ⟨c, hc, hst⟩ : ∃ c, (afterCalls (World.after fleetOfOne).db
      bookingAndTypo).contracts.get? 1 = some c ∧ c.status = .inProgress := ⟨_, rfl, rfl⟩
  exact ⟨rfl, _, hrun (by decide), hdb.symm, c, by rw [← hdb]; exact hc, hst⟩

end CarRental
