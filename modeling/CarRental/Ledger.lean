import Mathlib.Algebra.Order.BigOperators.Group.List
import CarRental.Rental

/-!
# CarRental.Ledger

The **income ledger** over whole runs.

`income_ledger` is what the guard in front of the booking achieves: one record per
contract at most, none before the car has left, one for every completed contract
with something to book, and no record is ever touched again.

The guard also means to keep out records without an amount, and does not quite: it
looks at the total of the request, the column keeps two decimals. A car handed over
on the spot for less than half a cent leaves a record of zero (`nothing_recorded`),
and that is the only way to get one.

Whether the books also *agree* with the contracts is another matter. A record is
written once, with the total of that moment, and `ContractService.update` accepts
a new total for a running contract (`books_disagree`). `books_agree` says what is
left: each record holds the total its contract had when it was written, and as
long as no edit changes the total of a running contract, the ledger is the sum of
the contracts.
-/

namespace CarRental

open Lib Desk ContractService FinancialService

variable {w w' : World} {env : Env} {a : Action} {db db' : Db}

/-! ### The ledger only grows -/

theorem totalIncome_mono (hnonneg : ∀ j r, db'.incomeRecords.get? j = some r → 0 ≤ r.amount)
    (h : db.incomeRecords.rows <+: db'.incomeRecords.rows) : totalIncome db ≤ totalIncome db' := by
  obtain ⟨new, hnew⟩ := h
  unfold totalIncome IncomeRecordRepository.sumAll
  rw [← hnew, List.map_append, List.sum_append]
  have hsum : 0 ≤ (new.map fun r => r.2.amount).sum := by
    refine List.sum_nonneg fun x hx => ?_
    obtain ⟨r, hr, rfl⟩ := List.mem_map.mp hx
    have hmem : r ∈ db'.incomeRecords.rows := by
      rw [← hnew]
      exact List.mem_append_right _ hr
    exact hnonneg r.1 r.2 (Table.mem_rows.mp hmem)
  exact Int.le_add_of_nonneg_right hsum

theorem ledger_grows (h : Reachable w) (hrun : Relation.ReflTransGen Step w w') :
    w.db.incomeRecords.rows <+: w'.db.incomeRecords.rows :=
  relates_of_act (R := fun db db' => db.incomeRecords.rows <+: db'.incomeRecords.rows)
    (fun _ => List.prefix_rfl) (fun h₁ h₂ => h₁.trans h₂) (fun _ hact => hact.income_grows) h hrun

/-- A record stays as it was written. -/
theorem records_stay (h : Reachable w) (hrun : Relation.ReflTransGen Step w w') {j : Id}
    {r : IncomeRecord} (hr : w.db.incomeRecords.get? j = some r) :
    w'.db.incomeRecords.get? j = some r :=
  Table.mem_rows.mp ((ledger_grows h hrun).subset (Table.mem_rows.mpr hr))

/-! ### Records of zero -/

/-- The call returns, and has handed over a car on the spot for a total that is positive and
of which nothing is left in the column. -/
def BooksTiny (w : World) (env : Env) (call : Call) : Prop :=
  (∃ db', call.exec env w.db = .ok db') ∧
    ∃ id request total, HandsOver env w.db call id request ∧
      request.totalGeneral = some total ∧ total.Tiny

/-- A total read back from its row is not tiny, so one that is comes with the request. -/
theorem Desk.Action.BooksTiny.request {call : Call} (h : a.BooksTiny)
    (ha : a.PerformedBy env db call) :
    ∃ id request total, HandsOver env db call id request ∧
      request.totalGeneral = some total ∧ total.Tiny := by
  cases a with
  | activate id total =>
    obtain ⟨total, rfl, htiny⟩ := h
    rcases ha with ⟨-, c, htotal⟩ | ⟨request, hover, htotal⟩
    · obtain ⟨amount, -, rfl⟩ := Option.map_eq_some_iff.mp htotal.symm
      exact absurd htiny (Decimal.not_tiny_ofAmount amount)
    · exact ⟨id, request, total, hover, htotal.symm, htiny⟩
  | _ => exact h.elim

/-- Any other call leaves the records positive. -/
theorem commit_positive {call : Call}
    (hpos : ∀ j r, w.db.incomeRecords.get? j = some r → 0 < r.amount)
    (htiny : ¬ BooksTiny w env call) :
    ∀ j r, (call.commit env w.db).incomeRecords.get? j = some r → 0 < r.amount := by
  unfold Call.commit
  cases hexec : call.exec env w.db with
  | error e => exact hpos
  | ok db' =>
    obtain ⟨as, has, hrun⟩ := Desk.Call.exec_performed hexec
    refine hrun.invariant
      (I := fun db => ∀ j r, db.incomeRecords.get? j = some r → 0 < r.amount) ?_ hpos
    intro a ha s t hact hs j r hr
    rcases hact.income_origin hr with hold | ⟨-, hnew | ⟨-, hbooks⟩, -, -⟩
    · exact hs j r hold
    · exact hnew
    · exact absurd ⟨⟨db', hexec⟩, hbooks.request (has a ha)⟩ htiny

/-- A car handed over for a tiny total is booked with nothing. -/
theorem Desk.Act.activate_tiny {id : Id} {total : Decimal} (hI : Inv db) (htiny : total.Tiny)
    (h : Act env (.activate id (some total)) db db') :
    ∃ j r, db'.incomeRecords.get? j = some r ∧ r.contractId = id ∧ r.amount = 0 := by
  cases h with
  | activate hget _ hst _ _ _ htotal hbook =>
    rcases ensureIncomeForContract_cases hbook with
      ⟨hex, -⟩ | ⟨-, hle, -⟩ | ⟨-, total', client, htotal', -, -, hrec⟩
    · -- a reservation has no record yet
      obtain ⟨j, r, hr, hri⟩ := Table.any_iff.mp hex
      obtain ⟨c, hc, hleft⟩ := hI.incomeContract hr
      rw [of_decide_eq_true hri, hget] at hc
      exact absurd (Option.some.inj hc ▸ hst) hleft
    · exact absurd htiny.1 (Int.not_lt.mpr (hle total htotal))
    · obtain rfl : total = total' := Option.some.inj (htotal.symm.trans htotal')
      rw [hrec]
      exact ⟨_, _, Table.get?_insert_self, rfl, htiny.2⟩

/-- A call that books a tiny total leaves a record of zero. -/
theorem commit_tiny {call : Call} (hI : Inv w.db) (h : BooksTiny w env call) :
    ∃ j r, (call.commit env w.db).incomeRecords.get? j = some r ∧ r.amount = 0 := by
  obtain ⟨⟨db', hexec⟩, id, request, total, hover, htotal, htiny⟩ := h
  -- either way the hand-over is the second and last action of the call
  obtain ⟨a, db₁, hfirst, hlast⟩ : ∃ a db₁, Act env a w.db db₁ ∧
      Act env (.activate id (some total)) db₁ db' := by
    rcases hover with ⟨rfl, rfl, hnow⟩ | ⟨rfl, hnow⟩
    · obtain ⟨⟨_, db'⟩, hcall, rfl⟩ := map_eq_ok.mp hexec
      obtain ⟨-, hrun⟩ := (create_run hcall).2.resolve_left fun hlater => hlater.1 hnow
      rw [htotal] at hrun
      cases hrun with
      | cons hfirst hrest => exact ⟨_, _, hfirst, hrest.of_single⟩
    · obtain ⟨⟨_, db'⟩, hcall, rfl⟩ := map_eq_ok.mp hexec
      obtain ⟨terms, -, -, hrun⟩ := update_run hcall
      replace hrun := (hrun.resolve_right fun hlater => hlater.1 hnow).2
      rw [htotal] at hrun
      cases hrun with
      | cons hfirst hrest => exact ⟨_, _, hfirst, hrest.of_single⟩
  obtain ⟨j, r, hr, -, hzero⟩ := hlast.activate_tiny (hfirst.inv hI) htiny
  exact ⟨j, r, by rw [Call.commit, hexec]; exact hr, hzero⟩

/-- A rental of one day for four tenths of a cent. -/
def fewMills : ContractRequest :=
  { booking 0 (some secondsPerDay) 0 with totalGeneral := some ⟨4, 3⟩ }

/-- The car leaves at once, for a total of 0.004. -/
def almostFree : List (Env × Call) := fleetOfOne ++ [(.atTime 0, .contractCreate fewMills)]

/-- The guard lets the total pass, and the ledger holds a record of zero. -/
theorem nothing_recorded :
    Reachable (World.after almostFree) ∧
    (∃ total, fewMills.totalGeneral = some total ∧ 0 < total.unscaled) ∧
    ∃ r, (World.after almostFree).db.incomeRecords.rows = [(1, r)] ∧ r.contractId = 1 ∧
      r.amount = 0 :=
  ⟨reachable_after almostFree (by decide), ⟨_, rfl, by decide⟩, ⟨_, rfl, rfl, rfl⟩⟩

/-- Without such a call every record is positive. -/
theorem positive_of_reachableBy (h : ReachableBy (fun w env call => ¬ BooksTiny w env call) w)
    {j : Id} {r : IncomeRecord} (hr : w.db.incomeRecords.get? j = some r) : 0 < r.amount := by
  have hall : ∀ j r, w.db.incomeRecords.get? j = some r → 0 < r.amount := by
    refine h.induction
      (I := fun w => ∀ j r, w.db.incomeRecords.get? j = some r → 0 < r.amount) ?_ ?_
    · intro _ collate j r hr
      simp [Db.empty] at hr
    · intro w env call _ hpos _ htiny
      exact commit_positive hpos htiny
  exact hall j r hr

/-- **The income ledger.** In every reachable state a contract has at most one record, whose
amount is not negative; a reserved contract has none; a completed contract with a positive
total has exactly one; and from then on the records stay as they are, so the total never
decreases. The amounts are positive in every run in which no call books a tiny total, and
only in those: such a call leaves a record of zero. -/
theorem income_ledger (h : Reachable w) :
    (∀ j j' r r', w.db.incomeRecords.get? j = some r → w.db.incomeRecords.get? j' = some r' →
      r.contractId = r'.contractId → j = j') ∧
    (∀ j r, w.db.incomeRecords.get? j = some r → 0 ≤ r.amount) ∧
    (∀ i c, w.db.contracts.get? i = some c → c.status = .inProgress →
      ∀ j r, w.db.incomeRecords.get? j = some r → r.contractId ≠ i) ∧
    (∀ i c total, w.db.contracts.get? i = some c → c.status = .completed →
      c.totalGeneral = some total → 0 < total →
        ∃! j, ∃ r, w.db.incomeRecords.get? j = some r ∧ r.contractId = i) ∧
    (∀ w', Relation.ReflTransGen Step w w' →
      (∀ j r, w.db.incomeRecords.get? j = some r → w'.db.incomeRecords.get? j = some r) ∧
      totalIncome w.db ≤ totalIncome w'.db) ∧
    (ReachableBy (fun w env call => ¬ BooksTiny w env call) w →
      ∀ j r, w.db.incomeRecords.get? j = some r → 0 < r.amount) ∧
    ∀ env call, BooksTiny w env call →
      ∃ j r, (call.commit env w.db).incomeRecords.get? j = some r ∧ r.amount = 0 := by
  have hI := inv_of_reachable h
  refine ⟨fun j j' r r' hr hr' => hI.incomeUnique hr hr', fun j r hr => hI.incomeNonneg hr,
    ?_, ?_, ?_, fun hby j r hr => positive_of_reachableBy hby hr,
    fun env call htiny => commit_tiny hI htiny⟩
  · intro i c hc hst j r hr hri
    obtain ⟨c', hc', hst'⟩ := hI.incomeContract hr
    rw [hri, hc] at hc'
    obtain rfl := Option.some.inj hc'
    exact hst' hst
  · intro i c total hc hst htotal hpos
    obtain ⟨j, r, hr, hri⟩ := hI.completedBooked hc hst total htotal hpos
    refine ⟨j, ⟨r, hr, hri⟩, fun j' hj' => ?_⟩
    obtain ⟨r', hr', hri'⟩ := hj'
    exact hI.incomeUnique hr' hr (hri'.trans hri.symm)
  · intro w' hrun
    have hI' := inv_of_reachable (Reachable.trans h hrun)
    exact ⟨fun j r hr => records_stay h hrun hr,
      totalIncome_mono (fun j r hr => hI'.incomeNonneg hr) (ledger_grows h hrun)⟩

/-- The first rental brings in its total, for good, and its record is positive. -/
theorem income_ledger_firstRental :
    totalIncome (World.after firstRental).db = 10000 ∧
    (∀ w', Relation.ReflTransGen Step (World.after firstRental) w' →
      10000 ≤ totalIncome w'.db) ∧
    ∀ j r, (World.after firstRental).db.incomeRecords.get? j = some r → 0 < r.amount := by
  have htotal : totalIncome (World.after firstRental).db = 10000 := by decide
  obtain ⟨-, -, -, -, hlater, hpositive, -⟩ := income_ledger firstRental_reachable
  refine ⟨htotal, fun w' hrun => ?_, hpositive (reachableBy_after firstRental ?_ (by decide))⟩
  · rw [← htotal]
    exact (hlater w' hrun).2
  · rintro call hcall w ⟨-, id, request, total, hover, htotal, htiny⟩
    simp only [firstRental, fleetOfOne, List.cons_append, List.nil_append, List.mem_cons,
      List.not_mem_nil, or_false] at hcall
    rcases hcall with rfl | rfl | rfl <;> rcases hover with ⟨hcall, -⟩ | ⟨hcall, -⟩ <;> cases hcall
    obtain rfl := Option.some.inj htotal
    exact Decimal.not_tiny_ofAmount 10000 htiny

/-! ### The books and the contracts -/

/-- The total of a running contract is raised from 100 to 200. -/
def raisedTotal : List (Env × Call) :=
  firstRental ++ [(.atTime 0, .contractUpdate 1 (booking 0 (some secondsPerDay) 20000))]

/-- The new total never reaches the ledger. -/
theorem books_disagree :
    Reachable (World.after raisedTotal) ∧
    (∃ c, (World.after raisedTotal).db.contracts.get? 1 = some c ∧ c.status = .active ∧
      c.totalGeneral = some 20000) ∧
    (∃ r, (World.after raisedTotal).db.incomeRecords.rows = [(1, r)] ∧ r.contractId = 1 ∧
      r.amount = 10000) ∧
    totalIncome (World.after raisedTotal).db = 10000 :=
  ⟨reachable_after raisedTotal (by decide), ⟨_, rfl, rfl, rfl⟩, ⟨_, rfl, rfl, rfl⟩, by decide⟩

/-- The call, if it succeeds in editing a running contract, keeps its total, as far as the
column goes. -/
def KeepsTotals (w : World) (env : Env) (call : Call) : Prop :=
  ∀ id request c db', call = .contractUpdate id request → call.exec env w.db = .ok db' →
    w.db.contracts.get? id = some c → c.status = .active →
      request.totalGeneral.map Decimal.stored = c.totalGeneral

/-- The ledger and the contracts agree row by row. -/
structure Exact (db : Db) : Prop where
  /-- A record holds the current total of its contract. -/
  amount : ∀ {j r c}, db.incomeRecords.get? j = some r →
    db.contracts.get? r.contractId = some c → c.totalGeneral = some r.amount
  /-- A contract that has left the reserved state is booked. -/
  booked : ∀ {i c}, db.contracts.get? i = some c → c.status ≠ .inProgress →
    Booked db.incomeRecords i c

theorem Exact.empty (collate : String → String) : Exact (Db.empty collate) where
  amount := by intro j r c h; simp [Db.empty] at h
  booked := by intro i c h; simp [Db.empty] at h

/-- Only an edit of its terms changes the total of a contract. -/
theorem Desk.Act.total_eq (h : Act env a db db') {i : Id} {c c' : Contract}
    (hc : db.contracts.get? i = some c) (hc' : db'.contracts.get? i = some c') :
    c'.totalGeneral = c.totalGeneral ∨ a = .editContract i c' := by
  have hsame : db.contracts.get? i = some c' → c'.totalGeneral = c.totalGeneral := by
    intro hold
    rw [hc] at hold
    rw [Option.some.inj hold]
  rcases h.contracts_cases with heq | ⟨c₀, _, _, -, -, -, -, -, hins⟩ |
    ⟨id, old, new, hget, hmove, hset⟩
  · exact Or.inl (hsame (heq ▸ hc'))
  · rw [hins, Table.get?_insert_of_get? hc] at hc'
    rw [Option.some.inj hc']
    exact Or.inl rfl
  · rw [hset, Table.get?_set_eq_some hget] at hc'
    rcases hc' with ⟨rfl, rfl⟩ | ⟨-, hold⟩
    · obtain rfl : old = c := Option.some.inj (hget.symm.trans hc)
      cases hmove with
      | edit _ _ _ _ _ _ _ _ => exact Or.inr rfl
      | activate _ _ _ _ _ => exact Or.inl rfl
      | complete _ _ _ _ => exact Or.inl rfl
      | archive _ _ => exact Or.inl rfl
    · exact Or.inl (hsame hold)

/-- The action, if it edits a running contract, keeps its total. -/
def Desk.Action.KeepsTotals (db : Db) (a : Action) : Prop :=
  ∀ id terms c, a = .editContract id terms → db.contracts.get? id = some c →
    c.status = .active → terms.totalGeneral = c.totalGeneral

theorem Desk.Action.Routine.keepsTotals (h : a.Routine) : a.KeepsTotals db :=
  fun id terms _ ha => absurd ha (h.ne_editContract id terms)

/-- A contract that has left the reserved state keeps its total. -/
theorem Desk.Act.total_kept (hI : Inv db) (hkeep : a.KeepsTotals db) (h : Act env a db db') {i : Id}
    {c c' : Contract} (hc : db.contracts.get? i = some c) (hst : c.status ≠ .inProgress)
    (hc' : db'.contracts.get? i = some c') : c'.totalGeneral = c.totalGeneral := by
  rcases h.total_eq hc hc' with heq | rfl
  · exact heq
  · cases h with
    | @editContract _ _ old _ _ _ hget _ hncomp _ _ _ _ _ _ =>
      obtain rfl : old = c := Option.some.inj (hget.symm.trans hc)
      have hrunning := ((hI.left_iff hc).mp hst).resolve_right hncomp
      exact hkeep i c' old rfl hc hrunning

theorem Desk.Act.exact (hI : Inv db) (hE : Exact db) (hkeep : a.KeepsTotals db)
    (h : Act env a db db') : Exact db' where
  amount := by
    intro j r c' hr hc'
    rcases h.income_origin hr with hold | ⟨-, -, ⟨c, hc, -, htotal⟩, -⟩
    · -- an old record: its contract had left the reserved state
      obtain ⟨c, hc, hst⟩ := hI.incomeContract hold
      rw [h.total_kept hI hkeep hc hst hc']
      exact hE.amount hold hc
    · rw [hc] at hc'
      rw [← Option.some.inj hc', htotal]
  booked := by
    intro i c' hc' hst
    have hold : ∀ c, db.contracts.get? i = some c → c.status ≠ .inProgress →
        Booked db'.incomeRecords i c' := by
      intro c hc hleft total htotal hpos
      rw [h.total_kept hI hkeep hc hleft hc'] at htotal
      obtain ⟨j, r, hr, hri⟩ := hE.booked hc hleft total htotal hpos
      exact ⟨j, r, h.income_mono hr, hri⟩
    rcases h.contract_cases hc' with hc | ⟨hnew, -, -⟩ | ⟨old, hget, hmove⟩
    · exact hold c' hc hst
    · exact absurd hnew hst
    · have hkept := hold old hget
      cases hmove with
      | edit _ _ hsame _ _ _ _ _ => exact hkept (by rwa [← hsame])
      | activate _ _ _ _ hbook => exact hbook
      | complete _ _ _ hbook => exact hbook
      | archive _ _ => exact hkept hst

/-- A call that keeps the totals of running contracts keeps the agreement. -/
theorem exact_exec {call : Call} (hI : Inv w.db) (hE : Exact w.db)
    (hkeep : KeepsTotals w env call) (hexec : call.exec env w.db = .ok db') : Exact db' := by
  have hroutine : ∀ {as : List Action} {db db' : Db}, (∀ a ∈ as, a.Routine) → Run env as db db' →
      Inv db → Exact db → Exact db' := by
    intro as db db' has hrun hI hE
    refine (hrun.invariant (I := fun db => Inv db ∧ Exact db) ?_ ⟨hI, hE⟩).2
    intro a ha s t hact hs
    exact ⟨hact.inv hs.1, hact.exact hs.1 hs.2 (has a ha).keepsTotals⟩
  have hsingle : ∀ {a : Action} {db' : Db}, Run env [a] w.db db' → a.KeepsTotals w.db →
      Exact db' := by
    intro a db' hrun ha
    exact hrun.of_single.exact hI hE ha
  cases Call.exec_run hexec with
  | routine has hrun => exact hroutine (fun a ha => (has a ha).1) hrun hI hE
  | @edit id request terms as hcall htotal has hrun =>
    cases hrun with
    | cons hact hrest =>
      refine hroutine (fun a ha => (has a ha).1) hrest (hact.inv hI) (hact.exact hI hE ?_)
      intro id' terms' c heq hc hst
      obtain ⟨rfl, rfl⟩ := Action.editContract.inj heq
      rw [htotal]
      exact hkeep id request c db' hcall hexec hc hst
  | complete _ hrun => exact hsingle hrun (by intro id terms c h; cases h)
  | maintenance ha _ hrun =>
    refine hsingle hrun ?_
    rcases ha with rfl | ⟨id, rfl⟩ | ⟨id, rfl⟩ <;> (intro id terms c h; cases h)

theorem exact_of_reachableBy (h : ReachableBy KeepsTotals w) : Exact w.db := by
  refine h.induction (I := fun w => Exact w.db) (fun _ collate => Exact.empty collate) ?_
  intro w env call hw hE _ hkeep
  show Exact (settle w.db (call.exec env w.db))
  cases hexec : call.exec env w.db with
  | error e => exact hE
  | ok db' => exact exact_exec (inv_of_reachable hw.reachable) hE hkeep hexec

/-- The contract has earned its total: it is running or completed, and the total is
positive. -/
def earns (c : Contract) : Bool :=
  (c.status = .active || c.status = .completed) && c.totalGeneral.any fun total => 0 < total

/-- The sum of the totals of all contracts, archived or not, that have earned them. -/
def earnedTotal (db : Db) : Amount :=
  ((db.contracts.rows.filter fun r => earns r.2).map fun r => r.2.totalGeneral.getD 0).sum

theorem earns_iff {c : Contract} : earns c = true ↔
    (c.status = .active ∨ c.status = .completed) ∧
      ∃ total, c.totalGeneral = some total ∧ 0 < total := by
  simp [earns, Option.any_eq_true]

/-- When the ledger and the contracts agree row by row, they agree in total: but for records
of zero, both sums run over the same pairs of contract and amount. -/
theorem totalIncome_eq (hI : Inv db) (hE : Exact db) : totalIncome db = earnedTotal db := by
  have hperm : ((db.incomeRecords.rows.filter fun r => r.2.amount != 0).map
      fun r => (r.2.contractId, r.2.amount)).Perm
      ((db.contracts.rows.filter fun r => earns r.2).map
        fun r => (r.1, r.2.totalGeneral.getD 0)) := by
    have hledger := Table.map_rows_nodup (t := db.incomeRecords)
      (f := fun r => (r.2.contractId, r.2.amount))
      (fun hr hr' heq => hI.incomeUnique hr hr' (Prod.mk.inj heq).1) (fun r => r.2.amount != 0)
    have hcontracts := Table.map_rows_nodup (t := db.contracts)
      (f := fun r => (r.1, r.2.totalGeneral.getD 0)) (fun _ _ heq => (Prod.mk.inj heq).1)
      (fun r => earns r.2)
    -- neither list repeats a pair, so it is enough that they have the same members
    refine (List.perm_ext_iff_of_nodup hledger hcontracts).mpr ?_
    intro p
    simp only [List.mem_map, List.mem_filter, earns_iff, bne_iff_ne]
    constructor
    · intro h
      obtain ⟨r, ⟨hr, hne⟩, rfl⟩ := h
      have hget := Table.mem_rows.mp hr
      obtain ⟨c, hc, hst⟩ := hI.incomeContract hget
      have htotal := hE.amount hget hc
      have hpos : 0 < r.2.amount := lt_of_le_of_ne (hI.incomeNonneg hget) (Ne.symm hne)
      exact ⟨(r.2.contractId, c), ⟨Table.mem_rows.mpr hc, (hI.left_iff hc).mp hst, r.2.amount,
        htotal, hpos⟩, by simp [htotal]⟩
    · intro h
      obtain ⟨⟨i, c⟩, ⟨hmem, hst, total, htotal, hpos⟩, rfl⟩ := h
      have hc := Table.mem_rows.mp hmem
      obtain ⟨j, r, hr, hri⟩ := hE.booked hc ((hI.left_iff hc).mpr hst) total htotal hpos
      subst hri
      have hamount := hE.amount hr hc
      obtain rfl : total = r.amount := Option.some.inj (htotal.symm.trans hamount)
      exact ⟨(j, r), ⟨Table.mem_rows.mpr hr, Int.ne_of_gt hpos⟩, by simp [hamount]⟩
  have hsum := (hperm.map Prod.snd).sum_eq
  rw [List.map_map, List.map_map] at hsum
  calc totalIncome db
      = ((db.incomeRecords.rows.map fun r => r.2.amount).filter (· != 0)).sum :=
        (List.sum_filter_bne_zero _).symm
    _ = ((db.incomeRecords.rows.filter fun r => r.2.amount != 0).map fun r => r.2.amount).sum := by
        rw [List.filter_map]
        rfl
    _ = earnedTotal db := hsum

/-! ### What a record holds -/

/-- Every record a run of the desk has added holds the total of its contract, and no
contract has changed its total on the way. -/
def RecordsTotals (db db' : Db) : Prop :=
  (∀ j r, db'.incomeRecords.get? j = some r → db.incomeRecords.get? j = some r ∨
    ∃ c, db'.contracts.get? r.contractId = some c ∧ c.totalGeneral = some r.amount) ∧
  ∀ i c, db.contracts.get? i = some c →
    ∃ c', db'.contracts.get? i = some c' ∧ c'.totalGeneral = c.totalGeneral

theorem RecordsTotals.trans {db₁ db₂ db₃ : Db} (h : RecordsTotals db₁ db₂)
    (h' : RecordsTotals db₂ db₃) : RecordsTotals db₁ db₃ := by
  refine ⟨fun j r hr => ?_, fun i c hc => ?_⟩
  · rcases h'.1 j r hr with hr₂ | hnew
    · rcases h.1 j r hr₂ with hr₁ | ⟨c, hc, htotal⟩
      · exact Or.inl hr₁
      · obtain ⟨c', hc', hkept⟩ := h'.2 _ c hc
        exact Or.inr ⟨c', hc', hkept.trans htotal⟩
    · exact Or.inr hnew
  · obtain ⟨c', hc', hkept⟩ := h.2 i c hc
    obtain ⟨c'', hc'', hkept'⟩ := h'.2 i c' hc'
    exact ⟨c'', hc'', hkept'.trans hkept⟩

theorem Desk.Act.recordsTotals (hI : Inv db) (hedit : ∀ id terms, a ≠ .editContract id terms)
    (h : Act env a db db') : RecordsTotals db db' := by
  refine ⟨fun j r hr => ?_, fun i c hc => ?_⟩
  · rcases h.income_origin hr with hold | ⟨-, -, ⟨c, hc, -, htotal⟩, -⟩
    · exact Or.inl hold
    · exact Or.inr ⟨c, hc, htotal⟩
  · obtain ⟨c', hc', -⟩ := contractsEvolve_act hI h i c hc
    rcases h.total_eq hc hc' with heq | ha
    · exact ⟨c', hc', heq⟩
    · exact absurd ha (hedit i c')

/-- A record a call has added holds the total its contract has after the call. -/
theorem commit_records {call : Call} (hI : Inv w.db) {j : Id} {r : IncomeRecord}
    (hr : (call.commit env w.db).incomeRecords.get? j = some r) :
    w.db.incomeRecords.get? j = some r ∨
    ∃ c, (call.commit env w.db).contracts.get? r.contractId = some c ∧
      c.totalGeneral = some r.amount := by
  have hroutine : ∀ {as : List Action} {db db' : Db},
      (∀ a ∈ as, ∀ id terms, a ≠ .editContract id terms) → Run env as db db' → Inv db →
        RecordsTotals db db' := by
    intro as db db' has hrun hI
    refine hrun.relates (fun db => ⟨fun j r hr => Or.inl hr, fun i c hc => ⟨c, hc, rfl⟩⟩)
      (fun h h' => h.trans h') (fun _ _ _ _ hact hI => hact.inv hI) ?_ hI
    intro a ha s t hact hI
    exact hact.recordsTotals hI (has a ha)
  cases Call.commit_run env call w.db with
  | routine has hrun =>
    exact (hroutine (fun a ha => (has a ha).1.ne_editContract) hrun hI).1 j r hr
  | edit _ _ has hrun =>
    cases hrun with
    | cons hact hrest =>
      have hsame :=
        (hroutine (fun a ha => (has a ha).1.ne_editContract) hrest (hact.inv hI)).1 j r hr
      -- the edit itself books nothing
      cases hact with
      | editContract => exact hsame
  | complete _ hrun => exact (hroutine (by simp) hrun hI).1 j r hr
  | maintenance ha _ hrun =>
    refine (hroutine ?_ hrun hI).1 j r hr
    rcases ha with rfl | ⟨id, rfl⟩ | ⟨id, rfl⟩ <;> simp

/-- **Written once, with the total of that moment.** In every run a record, when it is
written, holds the total of its contract, and it is never rewritten. So in every run that
does not change the total of a running contract, each running or completed contract with a
positive total has a record of exactly that total, and the ledger adds up to the
contracts. -/
theorem books_agree :
    (∀ (w : World) (env : Env) (call : Call) j r, Reachable w → w.clock ≤ env.now →
      w.db.incomeRecords.get? j = none → (call.commit env w.db).incomeRecords.get? j = some r →
        ∃ c, (call.commit env w.db).contracts.get? r.contractId = some c ∧
          c.totalGeneral = some r.amount) ∧
    (∀ (w w' : World) j r, Reachable w → Relation.ReflTransGen Step w w' →
      w.db.incomeRecords.get? j = some r → w'.db.incomeRecords.get? j = some r) ∧
    ∀ w : World, ReachableBy KeepsTotals w →
      (∀ i c total, w.db.contracts.get? i = some c →
        (c.status = .active ∨ c.status = .completed) → c.totalGeneral = some total → 0 < total →
          ∃ j r, w.db.incomeRecords.get? j = some r ∧ r.contractId = i ∧ r.amount = total) ∧
      totalIncome w.db = earnedTotal w.db := by
  refine ⟨fun w env call j r hw _ hnone hr => ?_, fun w w' j r hw hrun hr => ?_, fun w hw => ?_⟩
  · rcases commit_records (inv_of_reachable hw) hr with hold | hnew
    · rw [hnone] at hold
      exact absurd hold (by simp)
    · exact hnew
  · exact records_stay hw hrun hr
  · have hI := inv_of_reachable hw.reachable
    have hE := exact_of_reachableBy hw
    refine ⟨fun i c total hc hst htotal hpos => ?_, totalIncome_eq hI hE⟩
    obtain ⟨j, r, hr, hri⟩ := hE.booked hc ((hI.left_iff hc).mpr hst) total htotal hpos
    subst hri
    have hamount := hE.amount hr hc
    rw [htotal] at hamount
    exact ⟨j, r, hr, rfl, (Option.some.inj hamount).symm⟩

/-- The first rental with a new expected return and the same total. -/
theorem books_agree_extended :
    ∃ w : World, ReachableBy KeepsTotals w ∧ w.db.contracts.rows.length = 1 ∧
      totalIncome w.db = earnedTotal w.db ∧ earnedTotal w.db = 10000 := by
  have hfirst : ReachableBy KeepsTotals (World.after firstRental) := by
    refine reachableBy_after firstRental ?_ (by decide)
    intro call hcall w id request c db' heq
    simp only [firstRental, fleetOfOne, List.cons_append, List.nil_append, List.mem_cons,
      List.not_mem_nil, or_false] at hcall
    rcases hcall with rfl | rfl | rfl <;> cases heq
  have hkeep : KeepsTotals (World.after firstRental) (.atTime 0)
      (.contractUpdate 1 (booking 0 (some (2 * secondsPerDay)) 10000)) := by
    intro id request c db' heq _ hc _
    obtain ⟨rfl, rfl⟩ := Call.contractUpdate.inj heq
    obtain rfl := Option.some.inj hc
    rfl
  have hw := hfirst.step (by decide) hkeep
  exact ⟨_, hw, by decide, (books_agree.2.2 _ hw).2, by decide⟩

end CarRental
