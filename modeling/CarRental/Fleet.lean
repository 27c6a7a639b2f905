import CarRental.Lib.RowHistory
import CarRental.Rental

/-!
# CarRental.Fleet

**The register of the fleet**: what is on file about a car, apart from its status.

Many calls write to the car table, nearly all of them only the status of one car. The
register, everything else in the row, is written by `CarService.create` and
`CarService.update` alone, and both go through `CarService.apply`. `Applied` is what
`apply` leaves; from it follow the facts about every car of a reachable state
(`fleet_register`) and about a car over a whole run (`odometer_forward`).
-/

namespace CarRental

open Lib Desk

variable {env : Env} {a : Action} {db db' : Db} {id k : Id} {w w' : World}

/-! ### What the form leaves -/

/-- The pictures `storeImage` can leave on file. -/
def StoredPicture (url : String) : Prop :=
  ∃ name ext, ext ∈ [".jpg", ".jpeg", ".png"] ∧ url = "/uploads/cars/" ++ (name ++ ext)

/-- What `CarService.apply` makes of a car at the time `now`. -/
structure Applied (now : LocalDateTime) (saved : Bool) (car : Car) (request : CarRequest)
    (new : Car) : Prop where
  matricule : new.matricule = request.matricule
  nonneg : 0 ≤ new.mileage
  forward : saved = true → car.mileage ≤ new.mileage
  stamp : saved = true ∧ new.mileage = car.mileage ∧
      new.mileageUpdatedAt = car.mileageUpdatedAt ∨
    new.mileageUpdatedAt = some now ∧ (saved = true → new.mileage ≠ car.mileage)
  picture : new.imageUrl = car.imageUrl ∨ ∃ url, new.imageUrl = some url ∧ StoredPicture url

section Apply

variable {saved allowStatusOnCreate : Bool} {car new : Car} {request : CarRequest}
  {image : Option MultipartFile}

theorem applyMileage_ok {mileage : Option Int}
    (h : CarService.applyMileage env saved car mileage = .ok new) :
    0 ≤ new.mileage ∧ (saved = true → car.mileage ≤ new.mileage) ∧
      ((saved = true ∧ new = car) ∨
        (saved = true → new.mileage ≠ car.mileage) ∧
        new = { car with mileage := new.mileage, mileageUpdatedAt := some env.now }) := by
  unfold CarService.applyMileage at h
  simp only [bind_eq_ok, throwIf_eq_ok, orThrow_eq_ok, not_and, Int.not_lt] at h
  obtain ⟨m, -, -, hpos, -, hforward, h⟩ := h
  split at h
  · next hmoved =>
    obtain rfl := pure_eq_ok.mp h
    refine ⟨hpos, hforward, Or.inr ⟨fun hsaved => ?_, rfl⟩⟩
    exact hmoved.resolve_left (by simp [hsaved])
  · next hsame =>
    obtain rfl := pure_eq_ok.mp h
    rw [not_or, not_not] at hsame
    have hsaved : saved = true := by simpa using hsame.1
    exact ⟨hsame.2 ▸ hpos, fun _ => Int.le_refl _, Or.inl ⟨hsaved, rfl⟩⟩

theorem storeImage_ok {file : MultipartFile} {url : String}
    (h : CarService.storeImage env file = .ok url) : StoredPicture url := by
  unfold CarService.storeImage at h
  simp only [bind_eq_ok, throwIf_eq_ok, not_not] at h
  obtain ⟨-, hext, h⟩ := h
  cases herr : env.copyError with
  | some message =>
    rw [herr] at h
    exact absurd h (by simp)
  | none =>
    rw [herr, pure_eq_ok] at h
    exact ⟨env.uuid, _, List.contains_iff_mem.mp hext, h.symm⟩

/-- The car with the fields of the form that are copied as they are. -/
def filled (car : Car) (request : CarRequest) : Car :=
  { car with
    brand := request.brand
    fuelType := request.fuelType
    matricule := request.matricule
    nextInspectionDate := request.nextInspectionDate
    lastOilChangeDate := request.lastOilChangeDate
    insuranceExpiryDate := request.insuranceExpiryDate }

/-- The picture of the car after the form: a new one, or the one on file. -/
def picture (env : Env) (car : Car) : Option MultipartFile → Except ServiceError (Option String)
  | some file => if file.isEmpty then pure car.imageUrl else some <$> CarService.storeImage env file
  | none => pure car.imageUrl

/-- `apply`, step by step. -/
theorem apply_eq : CarService.apply env saved car request image allowStatusOnCreate = (do
    let driven ← CarService.applyMileage env saved (filled car request) request.mileage
    let url ← picture env driven image
    pure { driven with
      imageUrl := url
      status :=
        if allowStatusOnCreate then request.status.getD .available else driven.status }) := by
  simp only [CarService.apply, picture, filled]
  cases image with
  | none => cases allowStatusOnCreate <;> rfl
  | some file =>
    obtain ⟨_, isEmpty⟩ := file
    cases allowStatusOnCreate <;> cases isEmpty <;> rfl

theorem picture_ok {url : Option String} (h : picture env car image = .ok url) :
    url = car.imageUrl ∨ ∃ u, url = some u ∧ StoredPicture u := by
  cases image with
  | none => exact Or.inl (pure_eq_ok.mp h).symm
  | some file =>
    simp only [picture] at h
    split at h
    · exact Or.inl (pure_eq_ok.mp h).symm
    · obtain ⟨u, hu, rfl⟩ := map_eq_ok.mp h
      exact Or.inr ⟨u, rfl, storeImage_ok hu⟩

theorem apply_ok
    (h : CarService.apply env saved car request image allowStatusOnCreate = .ok new) :
    Applied env.now saved car request new := by
  simp only [apply_eq, bind_eq_ok, pure_eq_ok] at h
  obtain ⟨driven, hdriven, url, hurl, rfl⟩ := h
  obtain ⟨hpos, hforward, hstamp⟩ := applyMileage_ok hdriven
  have hurl := picture_ok hurl
  rcases hstamp with ⟨hsaved, rfl⟩ | ⟨hmoved, hdriven⟩
  · exact ⟨rfl, hpos, hforward, Or.inl ⟨hsaved, rfl, rfl⟩, hurl⟩
  · rw [hdriven] at hurl
    exact ⟨by rw [hdriven]; rfl, hpos, hforward, Or.inr ⟨by rw [hdriven], hmoved⟩, hurl⟩

end Apply

/-! ### Who writes to the register -/

/-- What is on file about a car, whatever its status. -/
def onFile (car : Car) : Car := { car with status := .available }

/-- The tables differ in the statuses of the cars only. -/
structure SameRegister (t t' : Table Car) : Prop where
  nextId : t'.nextId = t.nextId
  onFile : ∀ k, (t'.get? k).map onFile = (t.get? k).map onFile

namespace SameRegister

variable {t t' t'' : Table Car} {car car' : Car}

theorem refl (t : Table Car) : SameRegister t t := ⟨rfl, fun _ => rfl⟩

theorem trans (h : SameRegister t t') (h' : SameRegister t' t'') : SameRegister t t'' :=
  ⟨h'.nextId.trans h.nextId, fun k => (h'.onFile k).trans (h.onFile k)⟩

theorem restate (hget : t.get? k = some car) (s : CarStatus) :
    SameRegister t (t.set k { car with status := s }) := by
  refine ⟨rfl, fun j => ?_⟩
  by_cases hj : j = k
  · subst hj
    simp [Table.get?_set_self hget, hget, CarRental.onFile]
  · rw [Table.get?_set_ne hj]

theorem reconcile (today : LocalDate) (id : Id) (hdb : db.cars = t) :
    SameRegister t (MaintenanceService.reconcileCarStatus today id db).cars := by
  subst hdb
  cases hcar : db.cars.get? id with
  | none =>
    rw [MaintenanceService.reconcileCarStatus_none hcar]
    exact .refl _
  | some car =>
    by_cases hrented : car.status = .rented
    · rw [MaintenanceService.reconcileCarStatus_rented hcar hrented]
      exact .refl _
    · rw [MaintenanceService.reconcileCarStatus_eq hcar hrented]
      exact .restate hcar _

/-- A car of the new table was in the old one, with the same things on file. -/
theorem origin (h : SameRegister t t') (hget : t'.get? k = some car') :
    ∃ s, t.get? k = some { car' with status := s } := by
  have hk := h.onFile k
  rw [hget, Option.map_some, eq_comm, Option.map_eq_some_iff] at hk
  obtain ⟨car, hcar, hfile⟩ := hk
  refine ⟨car.status, hcar.trans (congrArg some ?_)⟩
  cases car
  cases car'
  simpa [CarRental.onFile] using hfile

/-- What does not look at the status holds between a car and what becomes of it. -/
theorem rowKept {R : Car → Car → Prop} (h : SameRegister t t')
    (hR : ∀ (car : Car) (s : CarStatus), R { car with status := s } car) (k : Id) :
    Table.RowKept R k t t' := by
  refine ⟨Nat.le_of_eq h.nextId.symm, fun hk _ => ?_⟩
  obtain ⟨s, hget⟩ := h.origin hk
  exact ⟨_, hget, hR _ s⟩

end SameRegister

/-- Only three actions touch the register. -/
theorem Desk.Act.sameRegister (h : Act env a db db') (hadd : a ≠ .addCar)
    (hedit : ∀ id, a ≠ .editCar id) (hremove : ∀ id, a ≠ .removeCar id) :
    SameRegister db.cars db'.cars := by
  cases h with
  | addCar => exact absurd rfl hadd
  | editCar => exact absurd rfl (hedit _)
  | removeCar => exact absurd rfl (hremove _)
  | reconcile => exact .reconcile _ _ rfl
  | release hcar _ _ => exact .restate hcar _
  | keepRented hcar _ _ _ => exact .restate hcar _
  | activate _ _ _ hcar _ _ _ _ => exact .restate hcar _
  | complete _ _ _ hcar hdb₁ _ =>
    subst hdb₁
    exact .restate hcar _
  | addMaintenance _ hdb₁ hdb₂ _ =>
    subst hdb₂
    exact .reconcile _ _ (by rw [hdb₁])
  | editMaintenance _ _ hdb₁ hdb₂ _ =>
    subst hdb₂
    exact .reconcile _ _ (by rw [hdb₁])
  | removeMaintenance _ hdb₁ =>
    exact .reconcile _ _ (by rw [hdb₁])
  | _ => exact .refl _

/-- No car of the table but `k` has the matricule, up to the collation. -/
def MatriculeFree (collate : String → String) (t : Table Car) (k : Option Id)
    (matricule : String) : Prop :=
  ∀ j car, t.get? j = some car → some j ≠ k → collate car.matricule ≠ collate matricule

theorem matriculeFree_of_not_taken {k : Option Id} {matricule : String}
    (h : ¬ CarRepository.matriculeTaken db k matricule = true) :
    MatriculeFree db.collate db.cars k matricule := by
  intro j car hget hj hsame
  exact h (Table.any_iff.mpr ⟨j, car, hget, by simp [hj, hsame]⟩)

/-- The car `CarService.create` begins with. -/
def blankCar : Car := { brand := "", fuelType := .essence, matricule := "" }

/-- What a call can do to the register. -/
inductive RegisterMove (collate : String → String) (now : LocalDateTime) (t t' : Table Car) : Prop
  | same : SameRegister t t' → RegisterMove collate now t t'
  | added {request : CarRequest} {car : Car} : Applied now false blankCar request car →
      MatriculeFree collate t none car.matricule → t' = t.insert car →
      RegisterMove collate now t t'
  | edited {k : Id} {request : CarRequest} {old car : Car} : t.get? k = some old →
      Applied now true old request car → MatriculeFree collate t (some k) car.matricule →
      t' = t.set k car → RegisterMove collate now t t'
  | removed {k : Id} : t' = t.delete k → RegisterMove collate now t t'

theorem register_created {request : CarRequest} {image : Option MultipartFile}
    {response : CarResponse} (h : CarService.create env request image db = .ok (response, db')) :
    RegisterMove db.collate env.now db.cars db'.cars := by
  simp only [CarService.create, bind_eq_ok, throwIf_eq_ok] at h
  obtain ⟨car, happly, -, -, -, hfree, h⟩ := h
  obtain ⟨-, rfl⟩ := Prod.mk.inj (pure_eq_ok.mp h)
  exact .added (apply_ok happly) (matriculeFree_of_not_taken hfree) rfl

theorem register_updated {request : CarRequest} {image : Option MultipartFile}
    {response : CarResponse}
    (h : CarService.update env id request image db = .ok (response, db')) :
    RegisterMove db.collate env.now db.cars db'.cars := by
  simp only [CarService.update, bind_eq_ok, throwIf_eq_ok, CarService.getCar, orThrow_eq_ok] at h
  obtain ⟨saved, hsaved, car, happly, -, hfree, h⟩ := h
  obtain ⟨-, rfl⟩ := Prod.mk.inj (pure_eq_ok.mp h)
  obtain ⟨hmatricule, hpos, hforward, hstamp, hpicture⟩ := apply_ok happly
  -- the status of the saved car is put back
  have happlied : Applied env.now true saved request { car with status := saved.status } :=
    ⟨hmatricule, hpos, hforward, hstamp, hpicture⟩
  exact .edited hsaved happlied (matriculeFree_of_not_taken hfree) rfl

/-- What a call leaves of the register, whether it returned or was undone. -/
theorem Call.commit_register (env : Env) (call : Call) (db : Db) :
    RegisterMove db.collate env.now db.cars (call.commit env db).cars := by
  simp only [Call.commit]
  cases hexec : call.exec env db with
  | error e => exact .same (.refl _)
  | ok db' =>
    obtain ⟨as, has, hrun⟩ := Call.exec_performed hexec
    by_cases hcreate : ∃ request image, call = .carCreate request image
    · obtain ⟨request, image, rfl⟩ := hcreate
      obtain ⟨⟨_, db'⟩, h, rfl⟩ := map_eq_ok.mp hexec
      exact register_created h
    by_cases hupdate : ∃ id request image, call = .carUpdate id request image
    · obtain ⟨id, request, image, rfl⟩ := hupdate
      obtain ⟨⟨_, db'⟩, h, rfl⟩ := map_eq_ok.mp hexec
      exact register_updated h
    by_cases hdelete : ∃ id, call = .carDelete id
    · obtain ⟨id, rfl⟩ := hdelete
      have hremove : Run env [.removeCar id] db db' := car_delete_run hexec
      cases hremove.of_single
      exact .removed rfl
    · -- the actions of all other calls leave the register alone
      have htrans : ∀ {db₁ db₂ db₃ : Db}, SameRegister db₁.cars db₂.cars →
          SameRegister db₂.cars db₃.cars → SameRegister db₁.cars db₃.cars := fun h h' => h.trans h'
      refine .same (hrun.relates (I := fun _ => True) (R := fun s t => SameRegister s.cars t.cars)
        (fun _ => .refl _) htrans (fun _ _ _ _ _ _ => trivial) ?_ trivial)
      intro a ha s t hact _
      refine hact.sameRegister ?_ ?_ ?_
      · rintro rfl
        exact hcreate (has _ ha)
      · rintro id rfl
        exact hupdate ⟨id, has _ ha⟩
      · rintro id rfl
        exact hdelete ⟨id, has _ ha⟩

/-! ### The register of a reachable state -/

/-- What holds of the register at the time `clock`. -/
structure Registered (collate : String → String) (clock : LocalDateTime) (t : Table Car) :
    Prop where
  mileage : ∀ {k car}, t.get? k = some car → 0 ≤ car.mileage
  stamp : ∀ {k car}, t.get? k = some car → ∃ s, car.mileageUpdatedAt = some s ∧ s ≤ clock
  picture : ∀ {k car url}, t.get? k = some car → car.imageUrl = some url → StoredPicture url
  matricule : ∀ {j k car car'}, t.get? j = some car → t.get? k = some car' →
    collate car.matricule = collate car'.matricule → j = k

theorem Registered.empty (collate : String → String) (clock : LocalDateTime) :
    Registered collate clock .empty where
  mileage := by simp
  stamp := by simp
  picture := by simp
  matricule := by simp

section Moves

variable {collate : String → String} {clock now : LocalDateTime} {t t' : Table Car}

theorem Registered.later (h : Registered collate clock t) (hclock : clock ≤ now) :
    Registered collate now t where
  mileage := h.mileage
  stamp hk := by
    obtain ⟨s, hs, hle⟩ := h.stamp hk
    exact ⟨s, hs, Int.le_trans hle hclock⟩
  picture := h.picture
  matricule := h.matricule

theorem Registered.same (h : Registered collate clock t) (hsame : SameRegister t t') :
    Registered collate clock t' where
  mileage hk := by
    obtain ⟨s, hget⟩ := hsame.origin hk
    have hmileage := h.mileage hget
    exact hmileage
  stamp hk := by
    obtain ⟨s, hget⟩ := hsame.origin hk
    have hstamp := h.stamp hget
    exact hstamp
  picture hk hurl := by
    obtain ⟨s, hget⟩ := hsame.origin hk
    exact h.picture hget hurl
  matricule hj hk heq := by
    obtain ⟨s, hget⟩ := hsame.origin hj
    obtain ⟨s', hget'⟩ := hsame.origin hk
    exact h.matricule hget hget' heq

/-- The row a form has written keeps the register as it should be, if no other row has its
matricule. -/
theorem Registered.written (h : Registered collate now t) {saved : Bool} {request : CarRequest}
    {old car : Car} (happlied : Applied now saved old request car)
    (hold : saved = true → t.get? k = some old) (hpicture : saved = false → old.imageUrl = none)
    (hfree : MatriculeFree collate t (some k) car.matricule)
    (hrow : ∀ j c, t'.get? j = some c ↔ (j = k ∧ car = c) ∨ (j ≠ k ∧ t.get? j = some c)) :
    Registered collate now t' where
  mileage hj := by
    rcases (hrow _ _).mp hj with ⟨-, rfl⟩ | ⟨-, hj⟩
    · exact happlied.nonneg
    · exact h.mileage hj
  stamp hj := by
    rcases (hrow _ _).mp hj with ⟨-, rfl⟩ | ⟨-, hj⟩
    · rcases happlied.stamp with ⟨hsaved, -, hstamp⟩ | ⟨hstamp, -⟩
      · rw [hstamp]
        exact h.stamp (hold hsaved)
      · exact ⟨now, hstamp, Int.le_refl _⟩
    · exact h.stamp hj
  picture hj hurl := by
    rcases (hrow _ _).mp hj with ⟨-, rfl⟩ | ⟨-, hj⟩
    · rcases happlied.picture with hkept | ⟨url, hnew, hstored⟩
      · cases saved with
        | true => exact h.picture (hold rfl) (hkept.symm.trans hurl)
        | false =>
          rw [hkept, hpicture rfl] at hurl
          exact absurd hurl (by simp)
      · rw [hnew] at hurl
        exact Option.some.inj hurl ▸ hstored
    · exact h.picture hj hurl
  matricule hi hj heq := by
    rcases (hrow _ _).mp hi with ⟨rfl, rfl⟩ | ⟨hik, hi⟩ <;>
      rcases (hrow _ _).mp hj with ⟨rfl, rfl⟩ | ⟨hjk, hj⟩
    · rfl
    · exact absurd heq.symm (hfree _ _ hj (by simpa using hjk))
    · exact absurd heq (hfree _ _ hi (by simpa using hik))
    · exact h.matricule hi hj heq

theorem RegisterMove.registered (hmove : RegisterMove collate now t t')
    (h : Registered collate now t) : Registered collate now t' := by
  cases hmove with
  | same hsame => exact h.same hsame
  | @added request car happlied hfree ht' =>
    refine h.written (k := t.nextId) happlied (by simp) (fun _ => rfl) ?_ ?_
    · exact fun j c hget _ => hfree j c hget (by simp)
    · intro j c
      rw [ht', Table.get?_insert_eq_some]
      constructor
      · rintro (⟨rfl, rfl⟩ | hget)
        · exact Or.inl ⟨rfl, rfl⟩
        · exact Or.inr ⟨Nat.ne_of_lt (Table.get?_lt hget), hget⟩
      · rintro (⟨rfl, rfl⟩ | ⟨-, hget⟩)
        · exact Or.inl ⟨rfl, rfl⟩
        · exact Or.inr hget
  | edited hget happlied hfree ht' =>
    refine h.written happlied (fun _ => hget) (by simp) hfree ?_
    intro j c
    rw [ht', Table.get?_set_eq_some hget]
  | @removed k ht' =>
    have hback : ∀ {j car}, t'.get? j = some car → t.get? j = some car := by
      intro j car hj
      rw [ht', Table.get?_delete] at hj
      split at hj
      · exact absurd hj (by simp)
      · exact hj
    exact ⟨fun hj => h.mileage (hback hj), fun hj => h.stamp (hback hj),
      fun hj => h.picture (hback hj), fun hi hj => h.matricule (hback hi) (hback hj)⟩

end Moves

/-- **The register of the fleet.** In every reachable state each car has a mileage that is not
negative and was read at a known time, not later than now; a picture on file is one
that was stored, under a name with an accepted extension; and no two cars have the same
matricule, nor two that the collation takes for the same. -/
theorem fleet_register (h : Reachable w) : Registered w.db.collate w.clock w.db.cars := by
  refine h.induction (I := fun w => Registered w.db.collate w.clock w.db.cars)
    (fun start collate => .empty collate start) ?_
  intro w env call _ hreg hclock _
  rw [Call.commit_collate]
  exact (Call.commit_register env call w.db).registered (hreg.later hclock)

theorem fleet_register_firstRental :
    Reachable (World.after firstRental) ∧
    ∃ car s, (World.after firstRental).db.cars.get? 1 = some car ∧
      car.mileageUpdatedAt = some s ∧ s ≤ (World.after firstRental).clock := by
  obtain ⟨car, hcar⟩ : ∃ car, (World.after firstRental).db.cars.get? 1 = some car := ⟨_, rfl⟩
  obtain ⟨s, hs, hle⟩ := (fleet_register firstRental_reachable).stamp hcar
  exact ⟨firstRental_reachable, car, s, hcar, hs, hle⟩

/-! ### The register over a run -/

/-- What becomes of a car between two moments: its mileage stays, with the time it was read at,
or it grows and was read on the way. -/
inductive Drives (start stop : LocalDateTime) (car car' : Car) : Prop
  | parked : car'.mileage = car.mileage → car'.mileageUpdatedAt = car.mileageUpdatedAt →
      Drives start stop car car'
  | driven {s : LocalDateTime} : car.mileage < car'.mileage →
      car'.mileageUpdatedAt = some s → start ≤ s → s ≤ stop → Drives start stop car car'

namespace Drives

variable {t₁ t₂ t₃ : LocalDateTime} {car car' car'' : Car}

theorem refl (car : Car) : Drives t₁ t₂ car car := .parked rfl rfl

theorem trans (h : Drives t₁ t₂ car car') (h' : Drives t₂ t₃ car' car'') (h₁₂ : t₁ ≤ t₂)
    (h₂₃ : t₂ ≤ t₃) : Drives t₁ t₃ car car'' := by
  cases h with
  | parked hm hs =>
    cases h' with
    | parked hm' hs' => exact .parked (hm'.trans hm) (hs'.trans hs)
    | driven hm' hs' hle hle' =>
      exact .driven (hm ▸ hm') hs' (Int.le_trans h₁₂ hle) hle'
  | driven hm hs hle hle' =>
    cases h' with
    | parked hm' hs' =>
      exact .driven (hm' ▸ hm) (hs'.trans hs) hle (Int.le_trans hle' h₂₃)
    | driven hm' hs' hle₂ hle₃ =>
      exact .driven (Int.lt_trans hm hm') hs' (Int.le_trans h₁₂ hle₂) hle₃

theorem le (h : Drives t₁ t₂ car car') : car.mileage ≤ car'.mileage := by
  cases h with
  | parked hm _ => exact Int.le_of_eq hm.symm
  | driven hm _ _ _ => exact Int.le_of_lt hm

end Drives

/-- The cars of the later table that are not new were in the earlier one and have been driven
since. -/
structure FleetDrives (w w' : World) : Prop where
  clock : w.clock ≤ w'.clock
  car : ∀ k, Table.RowKept (Drives w.clock w'.clock) k w.db.cars w'.db.cars

theorem FleetDrives.refl (w : World) : FleetDrives w w :=
  ⟨Int.le_refl _, fun k => .refl .refl k _⟩

theorem FleetDrives.trans {w'' : World} (h : FleetDrives w w') (h' : FleetDrives w' w'') :
    FleetDrives w w'' :=
  ⟨Int.le_trans h.clock h'.clock,
    fun k => (h.car k).trans (fun hd hd' => hd.trans hd' h.clock h'.clock) (h'.car k)⟩

/-- An edit leaves the mileage with its time, or reads a larger one now. -/
theorem Applied.drives {start now : LocalDateTime} {old car : Car} {request : CarRequest}
    (h : Applied now true old request car) (hclock : start ≤ now) : Drives start now old car := by
  rcases h.stamp with ⟨-, hsame, hstamp⟩ | ⟨hstamp, hmoved⟩
  · exact .parked hsame hstamp
  · exact .driven (Int.lt_iff_le_and_ne.mpr ⟨h.forward rfl, (hmoved rfl).symm⟩) hstamp hclock
      (Int.le_refl _)

theorem RegisterMove.drives {collate : String → String} {start now : LocalDateTime}
    {t t' : Table Car} (h : RegisterMove collate now t t') (hclock : start ≤ now) (k : Id) :
    Table.RowKept (Drives start now) k t t' := by
  cases h with
  | same hsame => exact hsame.rowKept (fun _ _ => .parked rfl rfl) k
  | added _ _ ht' => exact ht' ▸ .insert .refl k t _
  | edited hget happlied _ ht' => exact ht' ▸ .set .refl hget fun _ => happlied.drives hclock
  | removed ht' => exact ht' ▸ .delete .refl k _ t

theorem fleetDrives_of_run (hrun : Relation.ReflTransGen Step w w') : FleetDrives w w' := by
  induction hrun with
  | refl => exact .refl w
  | tail _ hstep ih =>
    obtain ⟨env, call, hclock, -, rfl⟩ := hstep
    exact ih.trans ⟨hclock, (Call.commit_register env call _).drives hclock⟩

/-- **Odometers run forward.** Over any run, from any state, a car that is in the fleet before
and after has a mileage that is not smaller; as long as it is the same, so is the time it was read
at, and when it has grown it was read during the run. A car that was removed does
not come back: a key below the next one that is vacant stays vacant. -/
theorem odometer_forward (hrun : Relation.ReflTransGen Step w w') :
    (∀ k car car', w.db.cars.get? k = some car → w'.db.cars.get? k = some car' →
      car.mileage ≤ car'.mileage ∧ Drives w.clock w'.clock car car') ∧
    ∀ k, k < w.db.cars.nextId → w.db.cars.get? k = none → w'.db.cars.get? k = none := by
  have hfleet := fleetDrives_of_run hrun
  refine ⟨fun k car car' hget hget' => ?_, fun k hlt hnone => ?_⟩
  · obtain ⟨old, hold, hdrives⟩ := (hfleet.car k).row hget' (Table.get?_lt hget)
    obtain rfl := Option.some.inj (hold.symm.trans hget)
    exact ⟨hdrives.le, hdrives⟩
  · cases hget' : w'.db.cars.get? k with
    | none => rfl
    | some car' =>
      obtain ⟨car, hcar, -⟩ := (hfleet.car k).row hget' hlt
      exact absurd (hnone.symm.trans hcar) (by simp)

/-- The car of the fleet comes back from a drive of 120 kilometres. -/
def drive : List (Env × Call) :=
  [(.atTime 10, .carUpdate 1
      { brand := "Dacia", fuelType := .diesel, matricule := "1-A-1", mileage := some 120 } none)]

theorem odometer_forward_drive :
    ∃ car car', (World.after fleetOfOne).db.cars.get? 1 = some car ∧
      (runCalls drive (World.after fleetOfOne)).db.cars.get? 1 = some car' ∧
      car'.mileage = 120 ∧ Drives 0 10 car car' := by
  have hrun := runCalls_run drive (World.after fleetOfOne) (by decide)
  exact ⟨_, _, rfl, rfl, rfl, ((odometer_forward hrun).1 1 _ _ rfl rfl).2⟩

end CarRental
