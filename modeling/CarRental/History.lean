import Mathlib.Data.List.Perm.Basic
import CarRental.Rental

/-!
# CarRental.History

**The history of a car**: `CarService.history` merges the contracts of a car, archived
ones included, with its maintenances, and sorts them by start.

In a reachable state the contracts are never the trouble: each has its client. But
a start is dereferenced, once per maintenance by the conversion and once per item
by the comparator, and the request of a maintenance may leave it out. So the page
of a car is complete and ordered exactly when the starts are recorded
(`history_iff`), and one undated maintenance anywhere in the past of the car makes
it fail for good (`history_undated`).
-/

namespace CarRental

open Lib Desk CarService

variable {env : Env} {db : Db} {k : Id} {items : List CarHistoryItemResponse} {w : World}

/-! ### What the page should be -/

/-- The contracts of a car, archived ones included. -/
def contractsOf (db : Db) (k : Id) : List (Id × Contract) :=
  db.contracts.select fun _ c => c.carId = k

/-- The page of a car: one item for each of its contracts, one for each of its maintenances
and nothing else, latest start first. -/
structure HistoryOf (db : Db) (k : Id) (items : List CarHistoryItemResponse) : Prop where
  entries : ∃ rentals maintenance,
    List.Forall₂ (fun c item => rentalItem db c.2 = .ok item) (contractsOf db k) rentals ∧
    List.Forall₂ (fun m item => maintenanceItem m.2 = .ok item)
      (MaintenanceRepository.findByCarId db k) maintenance ∧
    items.Perm (rentals ++ maintenance)
  ordered : items.Pairwise fun a b =>
    ∃ s t, a.startDate = some s ∧ b.startDate = some t ∧ t ≤ s

/-- Every maintenance of the car has its start and, unless the page has a single item, so has
every contract. -/
def StartsRecorded (db : Db) (k : Id) : Prop :=
  (∀ m ∈ MaintenanceRepository.findByCarId db k, m.2.startDate ≠ none) ∧
  (2 ≤ (contractsOf db k).length + (MaintenanceRepository.findByCarId db k).length →
    ∀ c ∈ contractsOf db k, c.2.departureDatetime ≠ none)

instance (db : Db) (k : Id) : Decidable (StartsRecorded db k) :=
  inferInstanceAs (Decidable (_ ∧ _))

/-! ### The conversions -/

theorem rentalItem_startDate {c : Contract} {item : CarHistoryItemResponse}
    (h : rentalItem db c = .ok item) : item.startDate = c.departureDatetime := by
  unfold rentalItem at h
  rw [bind_eq_ok] at h
  obtain ⟨client, -, h⟩ := h
  rw [← pure_eq_ok.mp h]

theorem maintenanceItem_startDate {m : Maintenance} {item : CarHistoryItemResponse}
    (h : maintenanceItem m = .ok item) :
    m.startDate ≠ none ∧ item.startDate ≠ none := by
  unfold maintenanceItem at h
  rw [bind_eq_ok] at h
  obtain ⟨start, hstart, h⟩ := h
  rw [← pure_eq_ok.mp h, orThrow_eq_ok.mp hstart]
  simp

theorem exists_maintenanceItem {m : Maintenance} (h : m.startDate ≠ none) :
    ∃ item, maintenanceItem m = .ok item := by
  obtain ⟨start, hstart⟩ := Option.ne_none_iff_exists'.mp h
  unfold maintenanceItem
  rw [hstart]
  exact ⟨_, rfl⟩

theorem maintenanceItem_undated {m : Maintenance} (h : m.startDate = none) :
    maintenanceItem m = .error .nullPointer := by
  unfold maintenanceItem
  rw [h]
  rfl

/-- The client of a contract is there in a reachable state. -/
theorem exists_rentalItem (hI : Inv db) {c : Id × Contract} (hc : c ∈ contractsOf db k) :
    ∃ item, rentalItem db c.2 = .ok item := by
  obtain ⟨client, hclient⟩ := hI.contractClient (Table.mem_select.mp hc).1
  unfold rentalItem
  rw [hclient]
  exact ⟨_, rfl⟩

/-- The fetch joins of the query drop nothing in a reachable state. -/
theorem findByCarIdForHistory_perm (hI : Inv db) (env : Env) (k : Id) :
    (ContractRepository.findByCarIdForHistory env db k).Perm (contractsOf db k) := by
  unfold ContractRepository.findByCarIdForHistory
  refine (List.mergeSort_perm _ _).trans ((env.listing_perm _).trans (.of_eq ?_))
  refine List.filter_congr fun r hr => ?_
  have hget := Table.mem_rows.mp hr
  obtain ⟨car, hcar⟩ := out_ne_none_iff.mp (hI.contractCar hget)
  obtain ⟨client, hclient⟩ := hI.contractClient hget
  simp [hcar, hclient]

/-! ### The page -/

/-- Sorting succeeds unless two or more items meet a missing start. -/
theorem sortByStartDate_eq_ok {sorted : List CarHistoryItemResponse} :
    sortByStartDate items = .ok sorted ↔
      (2 ≤ items.length → ∀ item ∈ items, item.startDate ≠ none) ∧
      (items.mergeSort fun a b => b.startDate.getD 0 ≤ a.startDate.getD 0) = sorted := by
  unfold sortByStartDate
  simp [-bind_pure_comp]

theorem mergeSort_ordered (h : 2 ≤ items.length → ∀ item ∈ items, item.startDate ≠ none) :
    (items.mergeSort fun a b => b.startDate.getD 0 ≤ a.startDate.getD 0).Pairwise fun a b =>
      ∃ s t, a.startDate = some s ∧ b.startDate = some t ∧ t ≤ s := by
  have hperm := List.mergeSort_perm items fun a b =>
    decide (b.startDate.getD 0 ≤ a.startDate.getD 0)
  have hpair : (items.mergeSort fun a b => b.startDate.getD 0 ≤ a.startDate.getD 0).Pairwise
      fun a b => decide (b.startDate.getD 0 ≤ a.startDate.getD 0) = true := by
    refine List.pairwise_mergeSort ?_ ?_ items
    · intro a b c hab hbc
      simp only [decide_eq_true_eq] at hab hbc ⊢
      exact Int.le_trans hbc hab
    · intro a b
      simp only [Bool.or_eq_true, decide_eq_true_eq]
      exact Int.le_total _ _
  generalize (items.mergeSort fun a b => decide (b.startDate.getD 0 ≤ a.startDate.getD 0)) = sorted
    at hperm hpair ⊢
  by_cases hlen : 2 ≤ items.length
  · refine hpair.imp_of_mem fun {a b} ha hb hle => ?_
    obtain ⟨s, hs⟩ := Option.ne_none_iff_exists'.mp (h hlen a (hperm.mem_iff.mp ha))
    obtain ⟨t, ht⟩ := Option.ne_none_iff_exists'.mp (h hlen b (hperm.mem_iff.mp hb))
    refine ⟨s, t, hs, ht, ?_⟩
    simpa [hs, ht] using hle
  · -- a page of one item is ordered whatever its start
    rw [← hperm.length_eq] at hlen
    match sorted, hlen with
    | [], _ => exact .nil
    | [_], _ => exact List.pairwise_singleton _ _
    | _ :: _ :: _, hlen => simp at hlen

/-- Converted rows and their starts, in the same order. -/
theorem startDates_rentals {rows : List (Id × Contract)}
    (h : List.Forall₂ (fun c item => rentalItem db c.2 = .ok item) rows items) :
    items.map (·.startDate) = rows.map (·.2.departureDatetime) := by
  induction h with
  | nil => rfl
  | cons hitem _ ih => rw [List.map_cons, List.map_cons, rentalItem_startDate hitem, ih]

theorem startDates_maintenance {rows : List (Id × Maintenance)}
    (h : List.Forall₂ (fun m item => maintenanceItem m.2 = .ok item) rows items) :
    (∀ m ∈ rows, m.2.startDate ≠ none) ∧ ∀ item ∈ items, item.startDate ≠ none := by
  induction h with
  | nil => simp
  | cons hitem _ ih =>
    obtain ⟨hm, hi⟩ := maintenanceItem_startDate hitem
    exact ⟨List.forall_mem_cons.mpr ⟨hm, ih.1⟩, List.forall_mem_cons.mpr ⟨hi, ih.2⟩⟩

/-- The rows of the page, converted one for one. -/
structure Converted (env : Env) (db : Db) (k : Id)
    (rentals maintenance : List CarHistoryItemResponse) : Prop where
  rentals : List.Forall₂ (fun c item => rentalItem db c.2 = .ok item)
    (ContractRepository.findByCarIdForHistory env db k) rentals
  maintenance : List.Forall₂ (fun m item => maintenanceItem m.2 = .ok item)
    (MaintenanceRepository.findByCarId db k) maintenance

section Converted

variable {rentals maintenance : List CarHistoryItemResponse}

/-- The items miss a start exactly when a contract of the car does. -/
theorem Converted.starts (h : Converted env db k rentals maintenance) (hI : Inv db) :
    (∀ item ∈ rentals ++ maintenance, item.startDate ≠ none) ↔
      ∀ c ∈ contractsOf db k, c.2.departureDatetime ≠ none := by
  have hperm := findByCarIdForHistory_perm hI env k
  rw [List.forall_mem_append, and_iff_left (startDates_maintenance h.maintenance).2]
  calc (∀ item ∈ rentals, item.startDate ≠ none)
      ↔ none ∉ rentals.map (·.startDate) := by simp
    _ ↔ none ∉ (ContractRepository.findByCarIdForHistory env db k).map
          (·.2.departureDatetime) := by rw [startDates_rentals h.rentals]
    _ ↔ none ∉ (contractsOf db k).map (·.2.departureDatetime) := by
          rw [(hperm.map _).mem_iff]
    _ ↔ ∀ c ∈ contractsOf db k, c.2.departureDatetime ≠ none := by simp

theorem Converted.length (h : Converted env db k rentals maintenance) (hI : Inv db) :
    (rentals ++ maintenance).length =
      (contractsOf db k).length + (MaintenanceRepository.findByCarId db k).length := by
  rw [List.length_append, ← h.rentals.length_eq, ← h.maintenance.length_eq,
    (findByCarIdForHistory_perm hI env k).length_eq]

end Converted

/-- The page, when there is one, is the sorted list of the converted rows. -/
theorem history_eq_ok {car : Car} (hcar : db.cars.get? k = some car) :
    history env k db = .ok items ↔ ∃ rentals maintenance,
      Converted env db k rentals maintenance ∧
      sortByStartDate (rentals ++ maintenance) = .ok items := by
  unfold history
  simp only [getCar, hcar, orThrow, bind_eq_ok, Except.ok.injEq, exists_eq_left', mapM_eq_ok_iff]
  constructor
  · rintro ⟨rentals, hr, maintenance, hm, hsort⟩
    exact ⟨rentals, maintenance, ⟨hr, hm⟩, hsort⟩
  · rintro ⟨rentals, maintenance, ⟨hr, hm⟩, hsort⟩
    exact ⟨rentals, hr, maintenance, hm, hsort⟩

/-- A page that is returned is complete and ordered. -/
theorem historyOf_of_ok (hI : Inv db) {car : Car} (hcar : db.cars.get? k = some car)
    (h : history env k db = .ok items) : HistoryOf db k items := by
  obtain ⟨rentals, maintenance, hconv, hsort⟩ := (history_eq_ok hcar).mp h
  obtain ⟨hstarts, rfl⟩ := sortByStartDate_eq_ok.mp hsort
  refine ⟨?_, mergeSort_ordered hstarts⟩
  obtain ⟨listed, hlisted, hperm⟩ :=
    List.perm_comp_forall₂ (findByCarIdForHistory_perm hI env k).symm hconv.rentals
  refine ⟨listed, maintenance, hlisted, hconv.maintenance, ?_⟩
  exact (List.mergeSort_perm _ _).trans (hperm.symm.append_right maintenance)

/-- A page is returned exactly when the starts are recorded. -/
theorem exists_history (hI : Inv db) (env : Env) {car : Car} (hcar : db.cars.get? k = some car) :
    (∃ items, history env k db = .ok items) ↔ StartsRecorded db k := by
  constructor
  · rintro ⟨items, hitems⟩
    obtain ⟨rentals, maintenance, hconv, hsort⟩ := (history_eq_ok hcar).mp hitems
    obtain ⟨hsort, -⟩ := sortByStartDate_eq_ok.mp hsort
    rw [hconv.length hI, hconv.starts hI] at hsort
    exact ⟨(startDates_maintenance hconv.maintenance).1, hsort⟩
  · rintro ⟨hdated, hdeparted⟩
    have hperm := findByCarIdForHistory_perm hI env k
    obtain ⟨rentals, hr⟩ := mapM_eq_ok fun c hc => exists_rentalItem hI (hperm.mem_iff.mp hc)
    obtain ⟨maintenance, hm⟩ := mapM_eq_ok fun m hm => exists_maintenanceItem (hdated m hm)
    have hconv : Converted env db k rentals maintenance :=
      ⟨mapM_eq_ok_iff.mp hr, mapM_eq_ok_iff.mp hm⟩
    rw [← hconv.length hI, ← hconv.starts hI] at hdeparted
    exact ⟨_, (history_eq_ok hcar).mpr
      ⟨rentals, maintenance, hconv, sortByStartDate_eq_ok.mpr ⟨hdeparted, rfl⟩⟩⟩

/-- **The history of a car is total, complete and ordered exactly when its starts are
recorded**, in any reachable state and for any car in it. -/
theorem history_iff (h : Reachable w) (env : Env) {car : Car} (hcar : w.db.cars.get? k = some car) :
    (∃ items, history env k w.db = .ok items ∧ HistoryOf w.db k items) ↔
      StartsRecorded w.db k := by
  have hI := inv_of_reachable h
  rw [← exists_history hI env hcar]
  constructor
  · rintro ⟨items, hitems, -⟩
    exact ⟨items, hitems⟩
  · rintro ⟨items, hitems⟩
    exact ⟨items, hitems, historyOf_of_ok hI hcar hitems⟩

/-- The car is out, reserved for the day after, and due for an oil change three days later. -/
def busyCar : List (Env × Call) :=
  backToBack ++ [(.atTime 0, .maintenanceCreate
    { carId := 1, type := "Vidange", startDate := some 4, cost := some (.ofAmount 30000) })]

/-- The page of that car is there, with its two rentals and its maintenance. -/
theorem history_busyCar :
    (contractsOf (World.after busyCar).db 1).length = 2 ∧
    (MaintenanceRepository.findByCarId (World.after busyCar).db 1).length = 1 ∧
    ∃ items, history (.atTime 0) 1 (World.after busyCar).db = .ok items ∧
      HistoryOf (World.after busyCar).db 1 items := by
  have hreach : Reachable (World.after busyCar) := reachable_after busyCar (by decide)
  exact ⟨by decide, by decide, (history_iff hreach (.atTime 0) rfl).mpr (by decide)⟩

/-- One maintenance without a start makes the page of its car fail, whatever else is in it. -/
theorem history_undated (hI : Inv db) {car : Car} (hcar : db.cars.get? k = some car) {i : Id}
    {m : Maintenance} (hm : db.maintenances.get? i = some m) (hk : m.carId = k)
    (hstart : m.startDate = none) : history env k db = .error .nullPointer := by
  have hperm := findByCarIdForHistory_perm hI env k
  obtain ⟨rentals, hr⟩ := mapM_eq_ok fun c hc => exists_rentalItem hI (hperm.mem_iff.mp hc)
  have hfail : (MaintenanceRepository.findByCarId db k).mapM (fun m => maintenanceItem m.2) =
      .error .nullPointer := by
    refine mapM_eq_error (a := (i, m)) (Table.mem_select.mpr ⟨hm, by simpa using hk⟩)
      (maintenanceItem_undated hstart) ?_
    intro row _ e he
    by_cases hrow : row.2.startDate = none
    · rw [maintenanceItem_undated hrow] at he
      exact (Except.error.inj he).symm
    · obtain ⟨item, hitem⟩ := exists_maintenanceItem hrow
      exact absurd (hitem.symm.trans he) (by simp)
  unfold history
  rw [getCar, hcar, hr, hfail]
  rfl

/-- A maintenance is entered without a start, as its request allows. -/
def undatedMaintenance : List (Env × Call) :=
  fleetOfOne ++ [(.atTime 0, .maintenanceCreate
    { carId := 1, type := "Vidange", cost := some (.ofAmount 30000) })]

/-- The page of that car throws from then on. -/
theorem history_breaks : ∃ w car, Reachable w ∧ w.db.cars.get? 1 = some car ∧
    ∀ env, history env 1 w.db = .error .nullPointer := by
  have hw : Reachable (World.after undatedMaintenance) := reachable_after _ (by decide)
  refine ⟨_, _, hw, rfl, fun env => ?_⟩
  exact history_undated (inv_of_reachable hw) rfl (i := 1) rfl rfl rfl

end CarRental
