import CarRental.Rental

/-!
# CarRental.Calendar

The **calendar** (`CarService.availabilityOnDate`) against the **booking check**
(`ContractService.hasOverlappingContract`).

The calendar works on whole days, closed at both ends, with the actual return of a
contract in place of the expected one and without an end when it has neither. The
booking check works on instants, half-open, with the expected return only, and
skips a contract that has none. They part where a contract has no expected return
or an actual return on another day, and where its return precedes its departure
(`calendar_disagrees`); everywhere else they agree on whole days
(`calendar_agrees`).
-/

namespace CarRental

open Lib ContractService CarService

variable {env : Env} {db : Db} {k : Id} {c : Contract} {date : LocalDate} {s e : LocalDateTime}

/-- The calendar shows the car as available on `date`. -/
def ShownAvailable (env : Env) (date : LocalDate) (db : Db) (k : Id) : Prop :=
  ∃ item ∈ availabilityOnDate env date db, item.carId = k ∧ item.currentStatus = .available

/-! ### Days and instants -/

theorem toLocalDate_mono (h : s ≤ e) : s.toLocalDate ≤ e.toLocalDate :=
  Int.ediv_le_ediv (by decide) h

theorem lt_of_toLocalDate_lt (h : s.toLocalDate < e.toLocalDate) : s < e := by
  by_contra hle
  exact absurd (toLocalDate_mono (Int.not_lt.mp hle)) (Int.not_le.mpr h)

/-- An open contract covers the days between its departure and its return. -/
theorem contractCoversDate_iff {departure fin : LocalDateTime} (hopen : Open c)
    (hdep : c.departureDatetime = some departure)
    (hfin : (c.actualReturnDatetime <|> c.expectedReturnDatetime) = some fin) :
    contractCoversDate c date = true ↔
      departure.toLocalDate ≤ date ∧ date ≤ fin.toLocalDate := by
  have hst : c.status ≠ .completed := by
    rcases hopen.2 with hs | hs <;> rw [hs] <;> decide
  simp [contractCoversDate, hdep, hfin, hst]

/-- A car is not shown as available on a day that one of its open contracts covers. -/
theorem not_shownAvailable {i : Id} (hc : db.contracts.get? i = some c) (hcar : c.carId = k)
    (hopen : Open c) (hcovers : contractCoversDate c date = true) :
    ¬ ShownAvailable env date db k := by
  intro hshown
  obtain ⟨item, hitem, hk, hst⟩ := hshown
  obtain ⟨⟨id, car⟩, -, rfl⟩ := List.mem_map.mp hitem
  have hid : id = k := by
    rw [← hk]
    dsimp only [availability]
    split
    · rfl
    · split <;> rfl
  have hlisted : (i, c) ∈ ContractRepository.findByDeletedFalse env db := by
    rw [ContractRepository.findByDeletedFalse, (env.listing_perm _).mem_iff, Table.mem_select]
    exact ⟨hc, by simp [hopen.1]⟩
  have hrented : (ContractRepository.findByDeletedFalse env db).any (fun c => c.2.carId = id &&
      (c.2.status = .inProgress || c.2.status = .active || c.2.status = .completed) &&
      contractCoversDate c.2 date) = true := by
    refine List.any_eq_true.mpr ⟨(i, c), hlisted, ?_⟩
    rcases hopen.2 with hs | hs <;> simp [hid, hcar, hs, hcovers]
  dsimp only [availability] at hst
  split at hst
  · exact absurd hst (by simp)
  · exact absurd hst (by simp)

/-! ### Where they part -/

/-- Four reservations. The first is from day 10 to day 20 with the actual return filled in as
day 12; the second returns on day 7 and leaves on day 8; the third is from day 22 to day 24
with the actual return on day 28; the fourth leaves on day 30 and has no expected return. -/
def oddReservations : List (Env × Call) :=
  fleetOfOne ++
    [(.atTime 0, .contractCreate
        { booking (10 * secondsPerDay) (some (20 * secondsPerDay)) 10000 with
          actualReturnDatetime := some (12 * secondsPerDay) }),
     (.atTime 0, .contractCreate (booking (8 * secondsPerDay) (some (7 * secondsPerDay)) 10000)),
     (.atTime 0, .contractCreate
        { booking (22 * secondsPerDay) (some (24 * secondsPerDay)) 10000 with
          actualReturnDatetime := some (28 * secondsPerDay) }),
     (.atTime 0, .contractCreate (booking (30 * secondsPerDay) none 10000))]

/-- Because of the first two, the car is shown as available from day 14 to day 16 and from
day 6 to day 9, and cannot be booked; the last two cover days inside the periods from day 25
to day 27 and from day 31 to day 40, and it can. -/
theorem calendar_disagrees :
    Reachable (World.after oddReservations) ∧
    ((∀ date, 14 ≤ date → date ≤ 16 →
        ShownAvailable (.atTime 0) date (World.after oddReservations).db 1) ∧
      hasOverlappingContract (.atTime 0) (World.after oddReservations).db 1
        (some (14 * secondsPerDay)) (some (16 * secondsPerDay)) none = true) ∧
    ((∀ date, 6 ≤ date → date ≤ 9 →
        ShownAvailable (.atTime 0) date (World.after oddReservations).db 1) ∧
      hasOverlappingContract (.atTime 0) (World.after oddReservations).db 1
        (some (6 * secondsPerDay)) (some (9 * secondsPerDay)) none = true) ∧
    ((∃ c, (World.after oddReservations).db.contracts.get? 3 = some c ∧ c.carId = 1 ∧ Open c ∧
        contractCoversDate c 26 = true) ∧
      hasOverlappingContract (.atTime 0) (World.after oddReservations).db 1
        (some (25 * secondsPerDay)) (some (27 * secondsPerDay)) none = false) ∧
    ((∃ c, (World.after oddReservations).db.contracts.get? 4 = some c ∧ c.carId = 1 ∧ Open c ∧
        contractCoversDate c 35 = true) ∧
      hasOverlappingContract (.atTime 0) (World.after oddReservations).db 1
        (some (31 * secondsPerDay)) (some (40 * secondsPerDay)) none = false) := by
  have hshown : ∀ date ∈ ([6, 7, 8, 9, 14, 15, 16] : List LocalDate),
      ShownAvailable (.atTime 0) date (World.after oddReservations).db 1 := by
    intro date hdate
    simp only [List.mem_cons, List.not_mem_nil, or_false] at hdate
    rcases hdate with rfl | rfl | rfl | rfl | rfl | rfl | rfl <;>
      exact ⟨_, List.mem_singleton.mpr rfl, rfl, by decide⟩
  refine ⟨reachable_after oddReservations (by decide), ⟨fun date hfrom hto => ?_, by decide⟩,
    ⟨fun date hfrom hto => ?_, by decide⟩, ⟨⟨_, rfl, rfl, by decide, by decide⟩, by decide⟩,
    ⟨⟨_, rfl, rfl, by decide, by decide⟩, by decide⟩⟩
  · obtain rfl | rfl | rfl : date = 14 ∨ date = 15 ∨ date = 16 := by grind
    all_goals exact hshown _ (by decide)
  · obtain rfl | rfl | rfl | rfl : date = 6 ∨ date = 7 ∨ date = 8 ∨ date = 9 := by grind
    all_goals exact hshown _ (by decide)

/-! ### Where they agree -/

/-- The calendar covers the booked days of the contract: its departure is not after the day
of its expected return, and an actual return is not before that day. -/
def CoversBooking (c : Contract) : Prop :=
  ∀ departure expected, c.departureDatetime = some departure →
    c.expectedReturnDatetime = some expected →
      departure.toLocalDate ≤ expected.toLocalDate ∧
      ∀ actual, c.actualReturnDatetime = some actual → expected.toLocalDate ≤ actual.toLocalDate

/-- The calendar covers no day after the booked ones: the contract has an expected return, and
an actual return is not after its day. -/
def WithinBooking (c : Contract) : Prop :=
  ∃ expected, c.expectedReturnDatetime = some expected ∧
    ∀ actual, c.actualReturnDatetime = some actual → actual.toLocalDate ≤ expected.toLocalDate

/-- A contract that overlaps a period covers one of its days. -/
theorem covers_of_overlaps (hopen : Open c) (hbooking : CoversBooking c) (hse : s < e)
    (hover : overlaps s e c = true) :
    ∃ date, s.toLocalDate ≤ date ∧ date ≤ e.toLocalDate ∧ contractCoversDate c date = true := by
  cases hdep : c.departureDatetime with
  | none => simp [overlaps, hdep] at hover
  | some departure =>
    cases hexp : c.expectedReturnDatetime with
    | none => simp [overlaps, hdep, hexp] at hover
    | some expected =>
      simp only [overlaps, hdep, hexp, Bool.and_eq_true, decide_eq_true_eq] at hover
      obtain ⟨hday, hactual⟩ := hbooking departure expected hdep hexp
      obtain ⟨fin, hfin, hle⟩ : ∃ fin,
          (c.actualReturnDatetime <|> c.expectedReturnDatetime) = some fin ∧
            expected.toLocalDate ≤ fin.toLocalDate := by
        cases hact : c.actualReturnDatetime with
        | none => exact ⟨expected, by simp [hexp], Int.le_refl _⟩
        | some actual => exact ⟨actual, rfl, hactual actual hact⟩
      -- the later of the two first days is a day of both
      have hs := toLocalDate_mono (Int.le_of_lt hover.1)
      have he := toLocalDate_mono (Int.le_of_lt hover.2)
      have hown := toLocalDate_mono (Int.le_of_lt hse)
      refine ⟨max s.toLocalDate departure.toLocalDate, Int.le_max_left _ _,
        Int.max_le.mpr ⟨hown, he⟩, ?_⟩
      rw [contractCoversDate_iff hopen hdep hfin]
      exact ⟨Int.le_max_right _ _,
        Int.max_le.mpr ⟨Int.le_trans hs hle, Int.le_trans hday hle⟩⟩

/-- A contract that covers a day strictly inside a period overlaps the period. -/
theorem overlaps_of_covers (hopen : Open c) (hbooking : WithinBooking c)
    (hcovers : contractCoversDate c date = true) (hs : s.toLocalDate < date)
    (he : date < e.toLocalDate) : overlaps s e c = true := by
  obtain ⟨expected, hexp, hactual⟩ := hbooking
  cases hdep : c.departureDatetime with
  | none => simp [contractCoversDate, hdep] at hcovers
  | some departure =>
    obtain ⟨fin, hfin, hle⟩ : ∃ fin,
        (c.actualReturnDatetime <|> c.expectedReturnDatetime) = some fin ∧
          fin.toLocalDate ≤ expected.toLocalDate := by
      cases hact : c.actualReturnDatetime with
      | none => exact ⟨expected, by simp [hexp], Int.le_refl _⟩
      | some actual => exact ⟨actual, rfl, hactual actual hact⟩
    obtain ⟨hfrom, hto⟩ := (contractCoversDate_iff hopen hdep hfin).mp hcovers
    have hstart : s < expected :=
      lt_of_toLocalDate_lt (Int.lt_of_lt_of_le hs (Int.le_trans hto hle))
    have hend : departure < e := lt_of_toLocalDate_lt (Int.lt_of_le_of_lt hfrom he)
    simp [overlaps, hdep, hexp, hstart, hend]

/-- **The calendar and the booking check agree on whole days**, for every car and every
proposed period: (i) where the calendar covers the booked days of the open contracts of the
car, a period on whose days the car is shown as available overlaps none of them; (ii) an open
contract the calendar keeps within its booked days overlaps every period with a day that it
covers strictly inside. -/
theorem calendar_agrees (env env' : Env) (db : Db) (k : Id) (s e : LocalDateTime) (hse : s < e) :
    ((∀ i c, db.contracts.get? i = some c → c.carId = k → Open c → CoversBooking c) →
      (∀ date, s.toLocalDate ≤ date → date ≤ e.toLocalDate → ShownAvailable env date db k) →
        hasOverlappingContract env' db k (some s) (some e) none = false) ∧
    (∀ i c date, db.contracts.get? i = some c → c.carId = k → Open c → WithinBooking c →
      contractCoversDate c date = true → s.toLocalDate < date → date < e.toLocalDate →
        hasOverlappingContract env' db k (some s) (some e) none = true) := by
  constructor
  · intro hbooking hshown
    by_contra hover
    rw [Bool.not_eq_false, hasOverlappingContract_iff] at hover
    obtain ⟨i, c, hc, hcar, hopen, -, hover⟩ := hover
    obtain ⟨date, hfrom, hto, hcovers⟩ :=
      covers_of_overlaps hopen (hbooking i c hc hcar hopen) hse hover
    exact not_shownAvailable hc hcar hopen hcovers (hshown date hfrom hto)
  · intro i c date hc hcar hopen hbooking hcovers hs he
    rw [hasOverlappingContract_iff]
    exact ⟨i, c, hc, hcar, hopen, by simp, overlaps_of_covers hopen hbooking hcovers hs he⟩

/-- The first rental lasts from day 0 to day 1: both refuse days 0 to 2, and both leave days 2
to 3 free. -/
theorem calendar_agrees_firstRental :
    hasOverlappingContract (.atTime 0) (World.after firstRental).db 1
      (some (2 * secondsPerDay)) (some (3 * secondsPerDay)) none = false ∧
    hasOverlappingContract (.atTime 0) (World.after firstRental).db 1
      (some (-secondsPerDay)) (some (2 * secondsPerDay)) none = true := by
  obtain ⟨c, hrows, hdep, hexp, hactual, hcar, hopen⟩ :
      ∃ c, (World.after firstRental).db.contracts.rows = [(1, c)] ∧
        c.departureDatetime = some 0 ∧ c.expectedReturnDatetime = some secondsPerDay ∧
        c.actualReturnDatetime = none ∧ c.carId = 1 ∧ Open c :=
    ⟨_, rfl, rfl, rfl, rfl, rfl, by decide⟩
  refine ⟨(calendar_agrees (.atTime 0) (.atTime 0) _ 1 _ _ (by decide)).1 ?_ ?_,
    (calendar_agrees (.atTime 0) (.atTime 0) _ 1 _ _ (by decide)).2 1 c 1 ?_ hcar hopen ?_ ?_
      (by decide) (by decide)⟩
  · intro i c' hc' _ _ departure expected hdep' hexp'
    have hmem := Table.mem_rows.mpr hc'
    rw [hrows, List.mem_singleton] at hmem
    obtain ⟨rfl, rfl⟩ := Prod.mk.inj hmem
    rw [hdep] at hdep'
    rw [hexp] at hexp'
    obtain rfl := Option.some.inj hdep'
    obtain rfl := Option.some.inj hexp'
    exact ⟨by decide, by simp [hactual]⟩
  · intro date hfrom hto
    have hlow : 2 ≤ date := hfrom
    have hhigh : date ≤ 3 := hto
    obtain rfl | rfl : date = 2 ∨ date = 3 := by grind
    · exact ⟨_, List.mem_singleton.mpr rfl, rfl, by decide⟩
    · exact ⟨_, List.mem_singleton.mpr rfl, rfl, by decide⟩
  · exact Table.mem_rows.mp (by simp [hrows])
  · exact ⟨_, hexp, by simp [hactual]⟩
  · have hfin : (c.actualReturnDatetime <|> c.expectedReturnDatetime) = some secondsPerDay := by
      simp [hactual, hexp]
    exact (contractCoversDate_iff hopen hdep hfin).mpr (by decide)

end CarRental
