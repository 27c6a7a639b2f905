import CarRental.Calendar
import CarRental.Service.Dashboard
import CarRental.Sweep

/-!
# CarRental.Alerts

**Dashboard alerts over time.** An alert is about a car or, when it warns of a
return, about a contract of a car (`key`). Its windows open and never close again:
a return becomes due and then overdue, an expiry comes near and then lies behind,
an oil change gets older. What could still take an alert back is the sweep that
runs inside each call. It starts rentals, and that touches nothing an alert is
computed from (`Keeps`).

So an alert that is shown once is shown by every later call, at least as severe
(`alerts_escalate`).
-/

namespace CarRental.DashboardService

open Lib Desk ContractService

variable {env env' : Env} {db db' : Db} {now now' : LocalDateTime} {today today' : LocalDate}
  {a b : DashboardAlertResponse}

/-! ### What an alert is about, and how grave it is -/

/-- The subject of an alert. -/
def key (a : DashboardAlertResponse) : AlertType × Id × Option Id := (a.type, a.carId, a.contractId)

/-- `MEDIUM` is below `HIGH`. -/
def rank : Severity → Nat
  | .medium => 0
  | .high => 1

/-- `b` is about the same as `a` and at least as severe. -/
def Escalates (a b : DashboardAlertResponse) : Prop :=
  key b = key a ∧ rank a.severity ≤ rank b.severity

theorem rank_le_high (s : Severity) : rank s ≤ rank .high := by
  cases s <;> decide

/-! ### The windows only open -/

theorem returnAlert_contractId {row : Id × Contract} (h : returnAlert now db row = some a) :
    a.contractId = some row.1 := by
  unfold returnAlert at h
  simp only [Option.bind_eq_bind, Option.bind_eq_some_iff] at h
  obtain ⟨car, -, client, -, returnTime, -, h⟩ := h
  split at h
  · rw [← Option.some.inj h]
  · split at h
    · rw [← Option.some.inj h]
    · exact absurd h (by simp)

/-- The car and the client only have to be there; they are not what the alert is about. -/
theorem returnAlert_escalates {row : Id × Contract} (hnow : now ≤ now')
    (hcar : ∀ car, db.cars.get? row.2.carId = some car → db'.cars.get? row.2.carId ≠ none)
    (hclients : db'.clients = db.clients) (h : returnAlert now db row = some a) :
    ∃ b, returnAlert now' db' row = some b ∧ Escalates a b := by
  unfold returnAlert at h ⊢
  simp only [Option.bind_eq_bind, Option.bind_eq_some_iff] at h
  obtain ⟨car, hget, client, hclient, returnTime, hreturn, h⟩ := h
  obtain ⟨car', hcar'⟩ := Option.ne_none_iff_exists'.mp (hcar car hget)
  simp only [Option.bind_eq_bind, hcar', hclients, hclient, hreturn, Option.bind_some]
  split at h
  · next hover =>
    have hover' : returnTime < now' := Int.lt_of_lt_of_le hover hnow
    rw [if_pos hover', ← Option.some.inj h]
    exact ⟨_, rfl, rfl, Nat.le_refl _⟩
  · split at h
    · next hdue =>
      have hdue' : returnTime - secondsPerDay < now' := Int.lt_of_lt_of_le hdue hnow
      rw [if_pos hdue', ← Option.some.inj h]
      split
      · exact ⟨_, rfl, rfl, rank_le_high _⟩
      · exact ⟨_, rfl, rfl, Nat.le_refl _⟩
    · exact absurd h (by simp)

theorem expiryAlert_eq_some {type : AlertType} {message : String} {days : Int} {id : Id} {car : Car}
    {date : Option LocalDate} :
    expiryAlert type message days today id car date = some a ↔
      ∃ day, date = some day ∧ day ≤ today + days ∧
        a = ⟨type, id, carLabel car, message, if day < today then .high else .medium, day,
          none⟩ := by
  unfold expiryAlert
  simp only [Option.bind_eq_bind, Option.bind_eq_some_iff, Option.ite_none_right_eq_some,
    Option.some.injEq, eq_comm (a := a)]

theorem oilChangeAlert_eq_some {id : Id} {car : Car} :
    oilChangeAlert today id car = some a ↔
      ∃ day, car.lastOilChangeDate = some day ∧ day < today - oilChangeDelayDays ∧
        a = ⟨.oilChange, id, carLabel car, "Vidange en retard", .medium, day, none⟩ := by
  unfold oilChangeAlert
  simp only [Option.bind_eq_bind, Option.bind_eq_some_iff, Option.ite_none_right_eq_some,
    Option.some.injEq, eq_comm (a := a)]

theorem expiryAlert_escalates {type : AlertType} {message : String} {days : Int} {id : Id}
    {car car' : Car} {date : Option LocalDate} (htoday : today ≤ today')
    (h : expiryAlert type message days today id car date = some a) :
    ∃ b, expiryAlert type message days today' id car' date = some b ∧ Escalates a b := by
  obtain ⟨day, hdate, hnear, rfl⟩ := expiryAlert_eq_some.mp h
  have hnear' : day ≤ today' + days := Int.le_trans hnear (Int.add_le_add_right htoday days)
  refine ⟨_, expiryAlert_eq_some.mpr ⟨day, hdate, hnear', rfl⟩, rfl, ?_⟩
  show rank (if day < today then .high else .medium) ≤
    rank (if day < today' then .high else .medium)
  by_cases hpast : day < today
  · rw [if_pos hpast, if_pos (Int.lt_of_lt_of_le hpast htoday)]
  · rw [if_neg hpast]
    exact Nat.zero_le _

theorem oilChangeAlert_escalates {id : Id} {car car' : Car} (htoday : today ≤ today')
    (hdate : car'.lastOilChangeDate = car.lastOilChangeDate)
    (h : oilChangeAlert today id car = some a) :
    ∃ b, oilChangeAlert today' id car' = some b ∧ Escalates a b := by
  obtain ⟨day, hday, hlate, rfl⟩ := oilChangeAlert_eq_some.mp h
  have hlate' : day < today' - oilChangeDelayDays :=
    Int.lt_of_lt_of_le hlate (Int.sub_le_sub_right htoday _)
  exact ⟨_, oilChangeAlert_eq_some.mpr ⟨day, hdate.trans hday, hlate', rfl⟩, rfl, Nat.le_refl _⟩

/-- A car with its three dates. -/
structure SameDates (car car' : Car) : Prop where
  insurance : car'.insuranceExpiryDate = car.insuranceExpiryDate
  inspection : car'.nextInspectionDate = car.nextInspectionDate
  oilChange : car'.lastOilChangeDate = car.lastOilChangeDate

theorem mem_vehicleAlerts {row : Id × Car} : a ∈ vehicleAlerts today row ↔
    insuranceAlert today row.1 row.2 = some a ∨ inspectionAlert today row.1 row.2 = some a ∨
      oilChangeAlert today row.1 row.2 = some a := by
  simp [vehicleAlerts]

theorem vehicleAlerts_escalates {id : Id} {car car' : Car} (htoday : today ≤ today')
    (hdates : SameDates car car') (h : a ∈ vehicleAlerts today (id, car)) :
    ∃ b ∈ vehicleAlerts today' (id, car'), Escalates a b := by
  simp only [mem_vehicleAlerts] at h ⊢
  rcases h with h | h | h
  · obtain ⟨b, hb, hesc⟩ := expiryAlert_escalates htoday h
    refine ⟨b, Or.inl ?_, hesc⟩
    unfold insuranceAlert
    rw [hdates.insurance]
    exact hb
  · obtain ⟨b, hb, hesc⟩ := expiryAlert_escalates htoday h
    refine ⟨b, Or.inr (Or.inl ?_), hesc⟩
    unfold inspectionAlert
    rw [hdates.inspection]
    exact hb
  · obtain ⟨b, hb, hesc⟩ := oilChangeAlert_escalates htoday hdates.oilChange h
    exact ⟨b, Or.inr (Or.inr hb), hesc⟩

/-! ### The sweep takes nothing back -/

/-- Running contracts, clients and the dates of cars are kept. -/
structure Keeps (db db' : Db) : Prop where
  active : ∀ {i c}, db.contracts.get? i = some c → c.status = .active →
    db'.contracts.get? i = some c
  clients : db'.clients = db.clients
  cars : ∀ {k car}, db.cars.get? k = some car →
    ∃ car', db'.cars.get? k = some car' ∧ SameDates car car'

theorem keeps_swept (env : Env) (db : Db) (chosen : List (Id × Contract)) :
    Keeps db (swept env db chosen) where
  active := by
    intro i c hget hst
    rw [get?_contracts_swept hget]
    split
    · -- activating a running contract writes the status it has
      have hsame : activated c = c := by
        unfold activated
        rw [← hst]
      rw [hsame]
    · rfl
  clients := rfl
  cars := by
    intro k car hget
    have hrow : (swept env db chosen).cars.get? k = _ := Table.get?_mapOn
    rw [hget] at hrow
    refine ⟨_, hrow, ?_⟩
    split
    · exact ⟨rfl, rfl, rfl⟩
    · exact ⟨rfl, rfl, rfl⟩

theorem autoActivateContracts_ok (h : autoActivateContracts env db = .ok db') :
    db' = swept env db (takes env db) := by
  rcases autoActivateContracts_eq env db with ⟨-, herr⟩ | ⟨-, hok⟩
  · exact absurd (herr.symm.trans h) (by simp)
  · exact Except.ok.inj (h.symm.trans hok)

/-! ### The list of alerts -/

/-- What is listed once the sweep is through. -/
def listed (env : Env) (db : Db) : List DashboardAlertResponse :=
  (ContractRepository.findDetailedByStatus env db .active).filterMap (returnAlert env.now db) ++
    db.cars.rows.flatMap (vehicleAlerts env.today)

theorem alerts_eq_ok {as : List DashboardAlertResponse} :
    alerts env db = .ok (as, db') ↔
      autoActivateContracts env db = .ok db' ∧ as = listed env db' := by
  unfold alerts
  simp only [bind_eq_ok, pure_eq_ok, Prod.mk.injEq]
  constructor
  · intro h
    obtain ⟨db₁, hsweep, has, rfl⟩ := h
    exact ⟨hsweep, has.symm⟩
  · intro h
    exact ⟨db', h.1, h.2.symm, rfl⟩

theorem mem_findDetailedByStatus {status : ContractStatus} {row : Id × Contract} :
    row ∈ ContractRepository.findDetailedByStatus env db status ↔
      db.contracts.get? row.1 = some row.2 ∧ row.2.deleted = false ∧ row.2.status = status ∧
        db.cars.get? row.2.carId ≠ none ∧ db.clients.get? row.2.clientId ≠ none := by
  unfold ContractRepository.findDetailedByStatus
  rw [(env.listing_perm _).mem_iff, Table.mem_select]
  simp [and_assoc, Option.isSome_iff_ne_none]

/-- Every alert of the list comes again, at least as severe, in a later list over tables that
keep what the first one was computed from. -/
theorem mem_alerts_escalates (hkeeps : Keeps db db') (hnow : env.now ≤ env'.now)
    (h : a ∈ listed env db) : ∃ b ∈ listed env' db', Escalates a b := by
  rcases List.mem_append.mp h with hret | hveh
  · obtain ⟨row, hrow, hret⟩ := List.mem_filterMap.mp hret
    obtain ⟨hget, hdel, hst, hcar, hclient⟩ := mem_findDetailedByStatus.mp hrow
    have hcar' : ∀ car, db.cars.get? row.2.carId = some car →
        db'.cars.get? row.2.carId ≠ none := by
      intro car hcar
      obtain ⟨car', hcar', -⟩ := hkeeps.cars hcar
      simp [hcar']
    obtain ⟨b, hb, hesc⟩ := returnAlert_escalates hnow hcar' hkeeps.clients hret
    refine ⟨b, List.mem_append_left _ (List.mem_filterMap.mpr ⟨row, ?_, hb⟩), hesc⟩
    obtain ⟨car, hcar⟩ := Option.ne_none_iff_exists'.mp hcar
    rw [mem_findDetailedByStatus, hkeeps.clients]
    exact ⟨hkeeps.active hget hst, hdel, hst, hcar' car hcar, hclient⟩
  · obtain ⟨⟨k, car⟩, hrow, hveh⟩ := List.mem_flatMap.mp hveh
    obtain ⟨car', hcar', hdates⟩ := hkeeps.cars (Table.mem_rows.mp hrow)
    have htoday : env.today ≤ env'.today := toLocalDate_mono hnow
    obtain ⟨b, hb, hesc⟩ := vehicleAlerts_escalates htoday hdates hveh
    refine ⟨b, List.mem_append_right _ (List.mem_flatMap.mpr ⟨(k, car'), ?_, hb⟩), hesc⟩
    exact Table.mem_rows.mpr hcar'

/-! ### One alert for each subject -/

theorem filterMap_contractId_sublist (rows : List (Id × Contract)) :
    ((rows.filterMap (returnAlert now db)).map (·.contractId)).Sublist
      (rows.map fun row => some row.1) := by
  induction rows with
  | nil => exact .slnil
  | cons row rest ih =>
    cases h : returnAlert now db row with
    | none =>
      rw [List.filterMap_cons_none h]
      exact ih.cons _
    | some a =>
      rw [List.filterMap_cons_some h, List.map_cons, List.map_cons, returnAlert_contractId h]
      exact ih.cons_cons _

theorem returnAlerts_nodup (now : LocalDateTime) (env : Env) (db : Db) :
    (((ContractRepository.findDetailedByStatus env db .active).filterMap
      (returnAlert now db)).map (·.contractId)).Nodup := by
  refine (filterMap_contractId_sublist _).nodup ?_
  have hids : ((ContractRepository.findDetailedByStatus env db .active).map Prod.fst).Nodup :=
    ((env.listing_perm _).map _).nodup_iff.mpr (Table.select_nodup _ _)
  have hmap : (ContractRepository.findDetailedByStatus env db .active).map (fun row => some row.1) =
      ((ContractRepository.findDetailedByStatus env db .active).map Prod.fst).map some := by
    rw [List.map_map]
    rfl
  rw [hmap]
  exact hids.map fun _ _ h => Option.some.inj h

theorem expiryAlert_key {type : AlertType} {message : String} {days : Int} {id : Id} {car : Car}
    {date : Option LocalDate} (h : expiryAlert type message days today id car date = some a) :
    key a = (type, id, none) := by
  obtain ⟨_, -, -, rfl⟩ := expiryAlert_eq_some.mp h
  rfl

theorem oilChangeAlert_key {id : Id} {car : Car} (h : oilChangeAlert today id car = some a) :
    key a = (.oilChange, id, none) := by
  obtain ⟨_, -, -, rfl⟩ := oilChangeAlert_eq_some.mp h
  rfl

theorem toList_keys_sublist {o : Option DashboardAlertResponse} {x : AlertType × Id × Option Id}
    (h : ∀ a, o = some a → key a = x) : (o.toList.map key).Sublist [x] := by
  cases o with
  | none => exact List.nil_sublist _
  | some a =>
    rw [Option.toList_some, List.map_singleton, h a rfl]

/-- What the alerts about one car have as their subjects: at most one of each kind. -/
theorem vehicleAlerts_keys (today : LocalDate) (row : Id × Car) :
    ((vehicleAlerts today row).map key).Sublist
      [(.insurance, row.1, none), (.inspection, row.1, none), (.oilChange, row.1, none)] := by
  unfold vehicleAlerts
  rw [List.map_append, List.map_append]
  have hins := toList_keys_sublist fun a (h : insuranceAlert today row.1 row.2 = some a) =>
    expiryAlert_key h
  have hinsp := toList_keys_sublist fun a (h : inspectionAlert today row.1 row.2 = some a) =>
    expiryAlert_key h
  have hoil := toList_keys_sublist fun a (h : oilChangeAlert today row.1 row.2 = some a) =>
    oilChangeAlert_key h
  exact (hins.append hinsp).append hoil

theorem key_of_mem_vehicleAlerts {row : Id × Car} (h : a ∈ vehicleAlerts today row) :
    a.carId = row.1 ∧ a.contractId = none := by
  have hmem := (vehicleAlerts_keys today row).subset (List.mem_map_of_mem h)
  simp only [key, List.mem_cons, Prod.mk.injEq, List.not_mem_nil, or_false] at hmem
  rcases hmem with ⟨-, hcar, hcon⟩ | ⟨-, hcar, hcon⟩ | ⟨-, hcar, hcon⟩
  · exact ⟨hcar, hcon⟩
  · exact ⟨hcar, hcon⟩
  · exact ⟨hcar, hcon⟩

theorem vehicleAlerts_nodup (today : LocalDate) (db : Db) :
    ((db.cars.rows.flatMap (vehicleAlerts today)).map key).Nodup := by
  rw [List.map_flatMap, List.nodup_flatMap]
  refine ⟨fun row _ => ?_, ?_⟩
  · exact (vehicleAlerts_keys today row).nodup (by simp)
  · refine (List.pairwise_map.mp db.cars.nodup).imp fun {row row'} hne => ?_
    intro x hx hx'
    obtain ⟨a, ha, rfl⟩ := List.mem_map.mp hx
    obtain ⟨b, hb, hkey⟩ := List.mem_map.mp hx'
    have hcar : b.carId = a.carId := congrArg (fun k => k.2.1) hkey
    rw [(key_of_mem_vehicleAlerts ha).1, (key_of_mem_vehicleAlerts hb).1] at hcar
    exact hne hcar.symm

theorem alerts_nodup {as : List DashboardAlertResponse} (h : alerts env db = .ok (as, db')) :
    (as.map key).Nodup := by
  obtain ⟨-, rfl⟩ := alerts_eq_ok.mp h
  unfold listed
  rw [List.map_append]
  refine List.Nodup.append ?_ (vehicleAlerts_nodup _ _) ?_
  · have hnodup := returnAlerts_nodup env.now env db'
    have hmap : ∀ as : List DashboardAlertResponse,
        as.map (·.contractId) = (as.map key).map fun k => k.2.2 := by
      intro as
      rw [List.map_map]
      rfl
    rw [hmap] at hnodup
    exact hnodup.of_map
  · -- a warning of a return names a contract, the others do not
    intro x hx hx'
    obtain ⟨a, ha, rfl⟩ := List.mem_map.mp hx
    obtain ⟨b, hb, hkey⟩ := List.mem_map.mp hx'
    obtain ⟨row, -, ha⟩ := List.mem_filterMap.mp ha
    obtain ⟨car, -, hb⟩ := List.mem_flatMap.mp hb
    have hcon : b.contractId = a.contractId := congrArg (fun k => k.2.2) hkey
    rw [returnAlert_contractId ha, (key_of_mem_vehicleAlerts hb).2] at hcon
    exact absurd hcon (by simp)

/-! ### Calls that return -/

/-- The foreign keys of the contracts, which the schema enforces. -/
def ForeignKeys (db : Db) : Prop :=
  ∀ i c, db.contracts.get? i = some c →
    db.cars.get? c.carId ≠ none ∧ db.clients.get? c.clientId ≠ none

theorem foreignKeys_swept (h : ForeignKeys db) (chosen : List (Id × Contract)) :
    ForeignKeys (swept env db chosen) := by
  intro i c hget
  have hrow : (db.contracts.mapOn (chosen.map Prod.fst) activated).get? i = some c := hget
  rw [Table.get?_mapOn, Option.map_eq_some_iff] at hrow
  obtain ⟨old, hold, rfl⟩ := hrow
  have hkeys : (if i ∈ chosen.map Prod.fst then activated old else old).carId = old.carId ∧
      (if i ∈ chosen.map Prod.fst then activated old else old).clientId = old.clientId := by
    split
    · exact ⟨rfl, rfl⟩
    · exact ⟨rfl, rfl⟩
  rw [hkeys.1, hkeys.2]
  obtain ⟨hcar, hclient⟩ := h i old hold
  refine ⟨?_, hclient⟩
  obtain ⟨car, hcar⟩ := Option.ne_none_iff_exists'.mp hcar
  obtain ⟨car', hcar', -⟩ := (keeps_swept env db chosen).cars hcar
  simp [hcar']

/-- With its foreign keys in place and a storage that does not fail, the sweep returns. -/
theorem sweep_returns (h : ForeignKeys db) (hsound : ∀ i, env.faulty i = false) :
    autoActivateContracts env db = .ok (swept env db (takes env db)) := by
  rcases autoActivateContracts_eq env db with ⟨⟨p, hp, hthrows⟩, -⟩ | ⟨-, hok⟩
  · rcases throws_iff.mp hthrows with hfaulty | hun
    · exact absurd hfaulty (by simp [hsound])
    · exact absurd hun.2.2 (h p.1 p.2 (due_of_mem_takes hp).1.1).2
  · exact hok

/-- **Alerts only escalate.** On any database, for a call and a later one on the database it
left: every alert of the first is in the second about the same car and contract, at least as
severe, and neither has two alerts about the same. The calls return whenever the foreign keys
hold and the storage does not fail. -/
theorem alerts_escalate (env env' : Env) (db : Db) (hclock : env.now ≤ env'.now) :
    (∀ as as' db₁ db₂, alerts env db = .ok (as, db₁) → alerts env' db₁ = .ok (as', db₂) →
      (∀ a ∈ as, ∃ b ∈ as', Escalates a b) ∧ (as.map key).Nodup ∧ (as'.map key).Nodup) ∧
    (ForeignKeys db → (∀ i, env.faulty i = false) → (∀ i, env'.faulty i = false) →
      ∃ as as' db₁ db₂, alerts env db = .ok (as, db₁) ∧ alerts env' db₁ = .ok (as', db₂)) := by
  refine ⟨fun as as' db₁ db₂ hfirst hsecond => ⟨fun a ha => ?_, ?_, ?_⟩, fun hkeys hok hok' => ?_⟩
  · obtain ⟨-, rfl⟩ := alerts_eq_ok.mp hfirst
    obtain ⟨hsweep, rfl⟩ := alerts_eq_ok.mp hsecond
    have hkeeps : Keeps db₁ db₂ := by
      rw [autoActivateContracts_ok hsweep]
      exact keeps_swept env' db₁ _
    exact mem_alerts_escalates hkeeps hclock ha
  · exact alerts_nodup hfirst
  · exact alerts_nodup hsecond
  · have hsweep := sweep_returns hkeys hok
    have hkeys' : ForeignKeys (swept env db (takes env db)) := foreignKeys_swept hkeys _
    have hsweep' := sweep_returns hkeys' hok'
    exact ⟨_, _, _, _, alerts_eq_ok.mpr ⟨hsweep, rfl⟩, alerts_eq_ok.mpr ⟨hsweep', rfl⟩⟩

/-- The first rental is due back in less than a day, and two days later it is overdue. -/
theorem alerts_escalate_firstRental : ∃ as as' db₁ db₂,
    alerts (.atTime 10) (World.after firstRental).db = .ok (as, db₁) ∧
    alerts (.atTime (2 * secondsPerDay)) db₁ = .ok (as', db₂) ∧
    as.map (·.severity) = [.medium] ∧ as'.map (·.severity) = [.high] ∧
    ∀ a ∈ as, ∃ b ∈ as', Escalates a b := by
  have hesc := (alerts_escalate (.atTime 10) (.atTime (2 * secondsPerDay))
    (World.after firstRental).db (by decide)).1
  exact ⟨_, _, _, _, rfl, rfl, rfl, rfl, (hesc _ _ _ _ rfl rfl).1⟩

end CarRental.DashboardService
