import CarRental.Rental
import CarRental.Text

/-!
# CarRental.Dialog.NewContract

**The second step of the dialog for a new contract**, `_showUnifiedContractSheet` with a
pending client: what its buttons do to the server, press after press.

The first step collects a client without storing it. "Enregistrer" makes two calls,
one that stores the client and one that stores the contract for it. When the second
one fails the button is enabled again, the client stays pending, and the next press
stores it once more.

* `save`, `post` — the two halves of the button's handler, before and after the
  answer to the first call; other users' calls may come in between;
* `clients_per_contract` — every press that gets as far as the contract leaves a client
  behind, whatever becomes of the contract;
* `refused_leaves_client` — a run in which this can be seen.
-/

namespace CarRental.NewContract

open Lib Dart

/-! ### The forms -/

/-- `ClientFormPayload`: the client as typed in the first step. -/
structure ClientFormPayload where
  fullName : String
  birthDate : String := ""
  addressMorocco : String := ""
  addressAbroad : String := ""
  profession : String := ""
  drivingLicenseNumber : String := ""
  drivingLicenseIssuedAt : String := ""
  cinNumber : String := ""
  passportNumber : String := ""
  passportIssuedAt : String := ""
  phone : String
  additionalDriverFullName : String := ""
  additionalDriverDrivingLicenseNumber : String := ""
  additionalDriverDrivingLicenseIssuedAt : String := ""
  additionalDriverPassportNumber : String := ""

/-- A date as typed: day, month, year, hour and minute. -/
structure DateGrid where
  j : String := ""
  m : String := ""
  a : String := ""
  h : String := ""
  mn : String := ""
  deriving DecidableEq

/-- The contract as typed. -/
structure ContractForm where
  selectedCarId : Id
  dep : DateGrid
  prev : DateGrid
  ret : DateGrid := {}
  durJ : String := "0"
  qHour : String := "0"
  pHour : String := "0"
  qDay : String := "0"
  pDay : String := "0"
  qWeek : String := "1"
  pWeek : String := "0"
  qMonth : String := "1"
  pMonth : String := "0"
  qInsurance : String := "0"
  pInsurance : String := "0"
  supplement : String := "0"
  paymentCash : String := "0"
  paymentCheck : String := "0"
  paymentDeposit : String := "0"
  departurePlace : String := ""
  returnPlace : String := ""

/-- How texts are read, by the app and by the server that gets them. A text the server
cannot read makes the call fail. A double is the decimal number it is sent as. -/
structure Reader where
  /-- `_formBuildIsoDateTime` -/
  dateTime : DateGrid → Option LocalDateTime
  /-- `_formParseDouble` -/
  double : String → Decimal
  /-- `_formCalcLine` -/
  line : String → String → Decimal
  /-- The sum of some doubles, from left to right. -/
  sum : List Decimal → Decimal
  /-- `_formParseInt` -/
  int : String → Int
  date : String → LocalDate

/-- `_formHasAnyDatePart` -/
def formHasAnyDatePart (grid : DateGrid) : Bool :=
  [grid.j, grid.m, grid.a, grid.h, grid.mn].any fun value => !(trimString value).isEmpty

variable (reader : Reader)

/-- The body `createClient` sends. A missing identity card is sent as an empty text. -/
def clientRequest (client : ClientFormPayload) : ClientRequest where
  fullName := trimString client.fullName
  birthDate := (trimOrNull client.birthDate).map reader.date
  addressMorocco := trimOrNull client.addressMorocco
  addressAbroad := trimOrNull client.addressAbroad
  profession := trimOrNull client.profession
  drivingLicenseNumber := trimOrNull client.drivingLicenseNumber
  drivingLicenseIssuedAt := trimOrNull client.drivingLicenseIssuedAt
  cinNumber := some ((trimOrNull client.cinNumber).getD "")
  passportNumber := trimOrNull client.passportNumber
  passportIssuedAt := (trimOrNull client.passportIssuedAt).map reader.date
  phone := some (trimString client.phone)
  additionalDriverFullName := trimOrNull client.additionalDriverFullName
  additionalDriverDrivingLicenseNumber := trimOrNull client.additionalDriverDrivingLicenseNumber
  additionalDriverDrivingLicenseIssuedAt :=
    (trimOrNull client.additionalDriverDrivingLicenseIssuedAt).map reader.date
  additionalDriverPassportNumber := trimOrNull client.additionalDriverPassportNumber

/-- The dates of the form, or the warning that is shown. -/
def checkDates (form : ContractForm) :
    Except String (LocalDateTime × LocalDateTime × Option LocalDateTime) :=
  match reader.dateTime form.dep, reader.dateTime form.prev with
  | some departureDatetime, some expectedReturnDatetime =>
    if formHasAnyDatePart form.ret ∧ reader.dateTime form.ret = none then
      .error ("Date de retour definitif invalide. Completez tous les champs J, M, A, H et mn " ++
        "ou laissez cette ligne vide.")
    else .ok (departureDatetime, expectedReturnDatetime, reader.dateTime form.ret)
  | _, _ =>
    .error ("Date de depart ou date de retour prevu invalide. Renseignez " ++
      "jour, mois, annee, heure et minute" ++
      " avec des valeurs correctes. Exemple : 11 | 06 | 2026 | 14 | 30.")

/-- The body `createContract` sends. -/
def contractRequest (form : ContractForm) (clientId : Id)
    (dates : LocalDateTime × LocalDateTime × Option LocalDateTime) : ContractRequest :=
  let total := reader.sum
    [reader.line form.qHour form.pHour, reader.line form.qDay form.pDay,
      reader.line form.qWeek form.pWeek, reader.line form.qMonth form.pMonth,
      reader.line form.qInsurance form.pInsurance]
  let supplement := reader.double form.supplement
  { carId := form.selectedCarId
    clientId := clientId
    departureDatetime := some dates.1
    expectedReturnDatetime := some dates.2.1
    actualReturnDatetime := dates.2.2
    durationDays := some (reader.int form.durJ)
    pricePerHour := some (reader.double form.pHour)
    pricePerDay := some (reader.double form.pDay)
    pricePerWeek := some (reader.double form.pWeek)
    pricePerMonth := some (reader.double form.pMonth)
    withInsurance := some (decide (0 < (reader.double form.qInsurance).unscaled))
    totalPrice := some total
    supplement := some supplement
    totalGeneral := some (reader.sum [total, supplement])
    paymentCash := some (reader.double form.paymentCash)
    paymentCheck := some (reader.double form.paymentCheck)
    paymentDeposit := some (reader.double form.paymentDeposit)
    departurePlace := some (trimString form.departurePlace)
    returnPlace := some (trimString form.returnPlace) }

/-! ### The dialog -/

/-- What becomes of a call to the server. -/
inductive Delivery
  /-- The server handles it and the app gets the answer. -/
  | answered
  /-- It does not reach the service: it is lost, or turned down before. -/
  | failed
  /-- The server handles it and the answer is lost. -/
  | unanswered
  deriving DecidableEq

/-- How the server decided on a contract. -/
inductive Attempt
  | refused
  | accepted
  deriving DecidableEq

/-- The dialog and the server. While the handler of "Enregistrer" waits for the answer to
its second call, `posting` is that call and `isSaving` disables the button. -/
structure Screen where
  pendingClient : ClientFormPayload
  mounted : Bool := true
  posting : Option ContractRequest := none
  db : Db
  /-- The contracts asked for, in order. -/
  attempts : List Attempt := []
  /-- The clients stored without the app knowing. -/
  unanswered : Nat := 0

/-- The button is disabled. -/
def Screen.isSaving (s : Screen) : Bool := s.posting.isSome

/-- "Enregistrer" up to the answer to `createClient`. An error is shown and the button is
enabled again. -/
def save (form : ContractForm) (delivery : Delivery) (s : Screen) : Screen :=
  if s.mounted ∧ ¬ s.isSaving then
    match checkDates reader form with
    | .error _ => s
    | .ok dates =>
      let (created, db) := ClientService.create (clientRequest reader s.pendingClient) s.db
      match delivery with
      | .answered =>
        { s with db := db, posting := some (contractRequest reader form created.id dates) }
      | .failed => s
      | .unanswered => { s with db := db, unanswered := s.unanswered + 1 }
  else s

/-- The rest of the handler, from `createContract` on. The dialog closes when the app
learns that the contract is stored; otherwise the button is enabled again and the
client is still pending. -/
def post (env : Env) (delivery : Delivery) (s : Screen) : Screen :=
  match s.posting with
  | none => s
  | some request =>
    let s := { s with posting := none }
    if delivery = .failed then { s with attempts := s.attempts ++ [.refused] }
    else
      match ContractService.create env request s.db with
      | .error _ => { s with attempts := s.attempts ++ [.refused] }
      | .ok (_, db) =>
        { s with
          db := db
          attempts := s.attempts ++ [.accepted]
          mounted := s.mounted && decide (delivery = .unanswered) }

/-- What can happen while the dialog is open. -/
inductive Event
  | save (form : ContractForm) (delivery : Delivery)
  | post (env : Env) (delivery : Delivery)
  /-- "Annuler", which stays enabled while the handler runs. -/
  | annuler
  /-- "Précédent" -/
  | precedent
  /-- A call of another user. -/
  | other (env : Env) (call : Call)

/-- One event. -/
def Event.step (s : Screen) : Event → Screen
  | .save form delivery => NewContract.save reader form delivery s
  | .post env delivery => NewContract.post env delivery s
  | .annuler => { s with mounted := false }
  | .precedent => if s.isSaving then s else { s with mounted := false }
  | .other env call => { s with db := call.commit env s.db }

/-- Some events in turn. -/
def run (events : List Event) (s : Screen) : Screen := events.foldl (Event.step reader) s

/-- The client rows an event adds. Those of other users do not count. -/
def Event.added (s : Screen) (event : Event) : Int :=
  match event with
  | .other _ _ => 0
  | _ => (event.step reader s).db.clients.rows.length - s.db.clients.rows.length

/-- The client rows a run of the dialog adds. -/
def rowsAdded : List Event → Screen → Int
  | [], _ => 0
  | event :: events, s => event.added reader s + rowsAdded events (event.step reader s)

/-! ### One press, one client -/

variable {reader} {env : Env} {db db' : Db} {s : Screen}

theorem create_clients {request : ContractRequest} {response : ContractResponse}
    (h : ContractService.create env request db = .ok (response, db')) :
    db'.clients = db.clients := by
  simp only [ContractService.create, bind_eq_ok] at h
  obtain ⟨car, -, _, -, client, -, departure, -, _, -, h⟩ := h
  split at h
  · simp only [bind_eq_ok] at h
    obtain ⟨booked, hbook, _, -, h⟩ := h
    obtain ⟨-, rfl⟩ := Prod.mk.inj (pure_eq_ok.mp h)
    rcases FinancialService.ensureIncomeForContract_cases hbook with
      ⟨-, rfl⟩ | ⟨-, -, rfl⟩ | ⟨-, total, client, -, -, -, rfl⟩ <;> rfl
  · rw [bind_eq_ok] at h
    obtain ⟨_, -, h⟩ := h
    obtain ⟨-, rfl⟩ := Prod.mk.inj (pure_eq_ok.mp h)
    rfl

/-- The clients the server was asked to store for the dialog. -/
def Screen.stored (s : Screen) : Int :=
  s.attempts.length + s.unanswered + if s.isSaving then 1 else 0

theorem Screen.stored_congr (s : Screen) {t : Screen} (hposting : t.posting = s.posting)
    (hattempts : t.attempts = s.attempts) (hunanswered : t.unanswered = s.unanswered) :
    t.stored = s.stored := by
  rw [Screen.stored, Screen.stored, Screen.isSaving, Screen.isSaving, hposting, hattempts,
    hunanswered]

theorem created_rows (request : ClientRequest) (db : Db) :
    ((ClientService.create request db).2.clients.rows.length : Int) =
      db.clients.rows.length + 1 := by
  simp [ClientService.create, Table.rows_insert]

theorem save_added (form : ContractForm) (delivery : Delivery) (s : Screen) :
    ((save reader form delivery s).db.clients.rows.length : Int) - s.db.clients.rows.length =
      (save reader form delivery s).stored - s.stored := by
  unfold save
  split
  · next hidle =>
    have hsaving : s.isSaving = false := by simpa using hidle.2
    have hrows := created_rows (clientRequest reader s.pendingClient) s.db
    split
    · omega
    · cases delivery with
      | answered =>
        simp only [Screen.stored, hsaving]
        simp only [Screen.isSaving, Option.isSome_some, if_true, Bool.false_eq_true, if_false]
        omega
      | failed => simp only [Int.sub_self]
      | unanswered =>
        simp only [Screen.stored, hsaving]
        simp only [Screen.isSaving] at hsaving ⊢
        simp only [hsaving, Bool.false_eq_true, if_false]
        omega
  · omega

/-- Whatever the server decides, the contract takes the place of the call that waited, and
the clients stay as they are. -/
theorem post_added (env : Env) (delivery : Delivery) (s : Screen) :
    (post env delivery s).db.clients = s.db.clients ∧ (post env delivery s).stored = s.stored := by
  unfold post
  split
  · exact ⟨rfl, rfl⟩
  · next request hposting =>
    have hstored : s.stored = s.attempts.length + s.unanswered + 1 := by
      simp [Screen.stored, Screen.isSaving, hposting]
    have hanswered : ∀ (t : Screen) (a : Attempt), t.posting = none →
        t.attempts = s.attempts ++ [a] → t.unanswered = s.unanswered → t.stored = s.stored := by
      intro t a hnone hattempts hunanswered
      rw [hstored, Screen.stored, Screen.isSaving, hnone, hattempts, hunanswered]
      simp only [List.length_append, List.length_singleton, Option.isSome_none,
        Bool.false_eq_true, if_false]
      omega
    dsimp only
    split
    · exact ⟨rfl, hanswered _ .refused rfl rfl rfl⟩
    · split
      · exact ⟨rfl, hanswered _ .refused rfl rfl rfl⟩
      · next db' hcreate =>
        exact ⟨create_clients hcreate, hanswered _ .accepted rfl rfl rfl⟩

/-- **Step lemma.** An event adds the clients it has the server store. -/
theorem Event.added_eq (s : Screen) (event : Event) :
    event.added reader s = (event.step reader s).stored - s.stored := by
  cases event with
  | save form delivery => exact save_added form delivery s
  | post env delivery =>
    obtain ⟨hclients, hstored⟩ := post_added env delivery s
    simp only [Event.added, Event.step, hclients, hstored, Int.sub_self]
  | annuler =>
    have hstored : (Event.annuler.step reader s).stored = s.stored := s.stored_congr rfl rfl rfl
    rw [hstored, Int.sub_self]
    exact Int.sub_self _
  | precedent =>
    have hframe : (Event.precedent.step reader s).db = s.db ∧
        (Event.precedent.step reader s).stored = s.stored := by
      simp only [Event.step]
      split
      · exact ⟨rfl, rfl⟩
      · exact ⟨rfl, s.stored_congr rfl rfl rfl⟩
    simp only [Event.added, hframe, Int.sub_self]
  | other env call =>
    have hstored : ((Event.other env call).step reader s).stored = s.stored :=
      s.stored_congr rfl rfl rfl
    rw [hstored, Int.sub_self]
    rfl

/-- **Run lemma.** So does a whole run. -/
theorem rowsAdded_eq (events : List Event) (s : Screen) :
    rowsAdded reader events s = (run reader events s).stored - s.stored := by
  induction events generalizing s with
  | nil => simp [rowsAdded, run]
  | cons event events ih =>
    have hrun : run reader (event :: events) s = run reader events (event.step reader s) := rfl
    rw [rowsAdded, Event.added_eq, ih, hrun]
    omega

/-- The second step as it opens. -/
def Screen.opened (client : ClientFormPayload) (db : Db) : Screen where
  pendingClient := client
  db := db

/-- **Every contract asked for leaves a client behind**, as does every client call whose
answer is lost. A run that ends with a stored contract has added one client exactly when
no contract was refused before, and an abandoned run none exactly when no contract was
asked for. -/
theorem clients_per_contract {client : ClientFormPayload} {events : List Event}
    (hdone : (run reader events (.opened client db)).isSaving = false) :
    rowsAdded reader events (.opened client db) =
      (run reader events (.opened client db)).attempts.length +
        (run reader events (.opened client db)).unanswered ∧
    (∀ k, (run reader events (.opened client db)).attempts =
        List.replicate k .refused ++ [.accepted] →
      (rowsAdded reader events (.opened client db) = 1 ↔
        k = 0 ∧ (run reader events (.opened client db)).unanswered = 0)) ∧
    (∀ k, (run reader events (.opened client db)).attempts = List.replicate k .refused →
      (rowsAdded reader events (.opened client db) = 0 ↔
        k = 0 ∧ (run reader events (.opened client db)).unanswered = 0)) := by
  have hopened : (Screen.opened client db).stored = 0 := rfl
  have hrows : rowsAdded reader events (.opened client db) =
      (run reader events (.opened client db)).attempts.length +
        (run reader events (.opened client db)).unanswered := by
    rw [rowsAdded_eq, hopened, Screen.stored, hdone]
    simp
  refine ⟨hrows, fun k hk => ?_, fun k hk => ?_⟩
  · have hlength := congrArg List.length hk
    rw [List.length_append, List.length_replicate, List.length_singleton] at hlength
    omega
  · have hlength := congrArg List.length hk
    rw [List.length_replicate] at hlength
    omega

/-! ### A refusal -/

/-- The 11th, the 12th, the 21st and the 22nd of January 1970 at midnight, in seconds of
that year. -/
def januaryReader : Reader where
  dateTime := fun grid =>
    if grid = ⟨"11", "1", "1970", "0", "0"⟩ then some (10 * secondsPerDay)
    else if grid = ⟨"12", "1", "1970", "0", "0"⟩ then some (11 * secondsPerDay)
    else if grid = ⟨"21", "1", "1970", "0", "0"⟩ then some (20 * secondsPerDay)
    else if grid = ⟨"22", "1", "1970", "0", "0"⟩ then some (21 * secondsPerDay)
    else none
  double := fun _ => .ofAmount 0
  line := fun _ _ => .ofAmount 0
  sum := fun _ => .ofAmount 0
  int := fun _ => 0
  date := fun _ => 0

/-- The only car is booked from the 11th to the 12th. -/
def bookedCar : Db :=
  (World.after (fleetOfOne ++ [(.atTime 0, .contractCreate
    (booking (10 * secondsPerDay) (some (11 * secondsPerDay)) 10000))])).db

/-- The second step for a new client, at that desk. -/
def walkIn : Screen := .opened { fullName := "Nouveau", phone := "0600000000" } bookedCar

/-- "Enregistrer", with both calls answered, for the days from `first` to `last`. -/
def press (first last : String) : List Event :=
  [.save
    { selectedCarId := 1, dep := ⟨first, "1", "1970", "0", "0"⟩,
      prev := ⟨last, "1", "1970", "0", "0"⟩ } .answered,
   .post (.atTime 0) .answered]

/-- Once the first dates are refused, changing them stores the client twice, and giving up
leaves it stored. -/
theorem refused_leaves_client :
    (run januaryReader (press "11" "12" ++ press "21" "22") walkIn).attempts =
      [.refused, .accepted] ∧
    (run januaryReader (press "11" "12" ++ press "21" "22") walkIn).mounted = false ∧
    rowsAdded januaryReader (press "11" "12" ++ press "21" "22") walkIn = 2 ∧
    (run januaryReader (press "11" "12" ++ [.annuler]) walkIn).attempts = [.refused] ∧
    (run januaryReader (press "11" "12" ++ [.annuler]) walkIn).mounted = false ∧
    rowsAdded januaryReader (press "11" "12" ++ [.annuler]) walkIn = 1 := by
  decide +kernel

/-- With dates that are free at once, one client is added. -/
theorem clients_per_contract_accepted :
    rowsAdded januaryReader (press "21" "22") walkIn = 1 := by
  have hdone : (run januaryReader (press "21" "22") walkIn).isSaving = false := by decide +kernel
  have hattempts : (run januaryReader (press "21" "22") walkIn).attempts =
      List.replicate 0 .refused ++ [.accepted] := by decide +kernel
  have hanswered : (run januaryReader (press "21" "22") walkIn).unanswered = 0 := by
    decide +kernel
  exact ((clients_per_contract hdone).2.1 0 hattempts).mpr ⟨rfl, hanswered⟩

end CarRental.NewContract
