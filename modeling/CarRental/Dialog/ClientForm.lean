import CarRental.Dates.CarDate
import CarRental.Saved

/-!
# CarRental.Dialog.ClientForm

**The card of a client**, from the fields of the dialog to the table and back.

The dialog trims what was typed, checks two fields that must not be empty and three that
must be dates (`submit`). The texts are trimmed once more, empty ones are left out, and
the server reads the dates (`sent`). Much later somebody opens the dialog again: the row
is written out (`ClientService.findById`), decoded (`ClientModel.fromJson`) and put into
the fields.

A date is a text on one side and a number of days on the other. What the dialog lets
through is a date of four, two and two digits (`isValidIsoDate_cases`), and on those
reading and writing are inverse to each other (`readDate_writeDate`). So the fields show
what was typed, and saving them unchanged changes nothing (`client_card_round_trip`).

The three date fields are lists of code units, because they are read sign by sign; the
other texts only travel and are strings of whole characters.
-/

namespace CarRental

open Lib Lib.Civil

/-! ### Dates that are typed -/

namespace DateInputValidator

open Dart Matcher

/-- `null` when the text may stay; the outer layer is an exception of the clock. -/
def validateOptionalIsoDate (zone : Zone) (value : Text) (label : String) :
    Option (Option String) :=
  if Dart.trim value = [] then some none
  else do
    if ← isValidIsoDate zone (Dart.trim value) then return none
    return some (label ++ " invalide. Utilisez le format AAAA-MM-JJ, exemple 2026-06-11.")

/-- `firstInvalidIsoDate`: the message for the first field that is wrong. -/
def firstInvalidIsoDate (zone : Zone) : List (String × Text) → Option (Option String)
  | [] => some none
  | (label, value) :: fields => do
    match ← validateOptionalIsoDate zone value label with
    | some error => return some error
    | none => firstInvalidIsoDate zone fields

theorem isoDateFormat_shape {text y m d rest : Text}
    (h : isoDateFormat.first text = some ((y, m, d), rest)) :
    text = y ++ dash :: (m ++ dash :: d) ∧ y.length = 4 ∧ m.length = 2 ∧ d.length = 2 ∧
      (∀ c ∈ y, isDigit c = true) ∧ (∀ c ∈ m, isDigit c = true) ∧ ∀ c ∈ d, isDigit c = true := by
  have hdash : ∀ {c : CodeUnit}, [dash].contains c = true → c = dash := by simp
  obtain ⟨y', afterYear, hyear, h⟩ := mem_bind.mp (mem_of_first h)
  obtain ⟨c, afterDash, hc, h⟩ := mem_bind.mp h
  obtain ⟨m', afterMonth, hmonth, h⟩ := mem_bind.mp h
  obtain ⟨c', afterDash', hc', h⟩ := mem_bind.mp h
  obtain ⟨d', afterDay, hday, h⟩ := mem_bind.mp h
  obtain ⟨_, _, hend, h⟩ := mem_bind.mp h
  cases mem_pure.mp h
  obtain ⟨rfl, hymin, hymax, hydigits⟩ := split_of_mem_run hyear
  obtain ⟨rfl, hsign⟩ := mem_satisfy.mp hc
  obtain ⟨rfl, hmmin, hmmax, hmdigits⟩ := split_of_mem_run hmonth
  obtain ⟨rfl, hsign'⟩ := mem_satisfy.mp hc'
  obtain ⟨rfl, hdmin, hdmax, hddigits⟩ := split_of_mem_run hday
  obtain ⟨rfl, -⟩ := mem_endOfText.mp hend
  refine ⟨?_, by omega, by omega, by omega, hydigits, hmdigits, hddigits⟩
  rw [hdash hsign, hdash hsign', List.append_nil]

/-- Digits of the width of a field are read, and are the numeral of what was read. -/
theorem tryParse_width {text : Text} {w : Nat} (hlength : text.length = w) (hw : 0 < w)
    (hw' : w ≤ 4) (hdigits : ∀ c ∈ text, isDigit c = true) :
    ∃ n : Nat, n < 10 ^ w ∧ text = fixed w n ∧ tryParse text = some (n : Int) := by
  obtain ⟨hfixed, hlt⟩ := fixed_numeral hdigits
  rw [hlength] at hfixed hlt
  have hpow : 10 ^ w ≤ 10 ^ 4 := Nat.pow_le_pow_right (by decide) hw'
  refine ⟨numeral text, hlt, hfixed.symm, ?_⟩
  exact tryParse_digits (List.ne_nil_of_length_pos (hlength ▸ hw)) hdigits (by omega)

/-- A valid text is empty, or the date of a calendar with a year of four digits. -/
theorem isValidIsoDate_cases {zone : Zone} {value : Text}
    (h : isValidIsoDate zone value = some true) :
    Dart.trim value = [] ∨ ∃ (date : Date) (y m d : Nat), date.year = y ∧ date.month = m ∧
      date.day = d ∧ y < 10000 ∧ Dart.trim value = isoDate y m d := by
  unfold isValidIsoDate at h
  dsimp only at h
  split at h
  · next hempty => exact Or.inl hempty
  · right
    split at h
    · exact absurd h (by simp)
    · next yText mText dText rest hformat =>
      obtain ⟨htext, hylen, hmlen, hdlen, hydigits, hmdigits, hddigits⟩ :=
        isoDateFormat_shape hformat
      obtain ⟨y, hy, rfl, hyparse⟩ := tryParse_width hylen (by decide) (by decide) hydigits
      obtain ⟨m, hm, rfl, hmparse⟩ := tryParse_width hmlen (by decide) (by decide) hmdigits
      obtain ⟨d, hd, rfl, hdparse⟩ := tryParse_width hdlen (by decide) (by decide) hddigits
      rw [hyparse, hmparse, hdparse] at h
      obtain ⟨parsed, hnew, hfields⟩ := Option.bind_eq_some_iff.mp h
      have hshown := (DateTime.new_date_iff hnew).mp (by simpa [and_assoc] using hfields)
      obtain ⟨date, hyear, hmonth, hday, -⟩ := hshown
      exact ⟨date, y, m, d, hyear, hmonth, hday, hy, htext⟩

theorem validateOptionalIsoDate_eq_none {zone : Zone} {value : Text} {label : String} :
    validateOptionalIsoDate zone value label = some none ↔
      isValidIsoDate zone (Dart.trim value) = some true := by
  have hnil : isValidIsoDate zone [] = some true := rfl
  unfold validateOptionalIsoDate
  split
  · next hempty => simp [hempty, hnil]
  · cases isValidIsoDate zone (Dart.trim value) with
    | none => simp
    | some valid => cases valid <;> simp

/-- No field is named when all of them are valid. -/
theorem firstInvalidIsoDate_eq_none {zone : Zone} {fields : List (String × Text)} :
    firstInvalidIsoDate zone fields = some none ↔
      ∀ field ∈ fields, isValidIsoDate zone (Dart.trim field.2) = some true := by
  induction fields with
  | nil => simp [firstInvalidIsoDate]
  | cons field fields ih =>
    obtain ⟨label, value⟩ := field
    rw [List.forall_mem_cons, ← ih, ← validateOptionalIsoDate_eq_none]
    rw [firstInvalidIsoDate]
    cases validateOptionalIsoDate zone value label with
    | none => simp
    | some error => cases error <;> simp

end DateInputValidator

namespace ClientForm

open Dart (trimString trimOrNull)

/-! ### The dialog -/

/-- The texts of the fields. -/
structure ClientFormPayload where
  fullName : String
  birthDate : Text := []
  addressMorocco : String := ""
  addressAbroad : String := ""
  profession : String := ""
  drivingLicenseNumber : String := ""
  drivingLicenseIssuedAt : String := ""
  cinNumber : String := ""
  passportNumber : String := ""
  passportIssuedAt : Text := []
  phone : String
  additionalDriverFullName : String := ""
  additionalDriverDrivingLicenseNumber : String := ""
  additionalDriverDrivingLicenseIssuedAt : Text := []
  additionalDriverPassportNumber : String := ""

/-- The texts without white space around them. -/
def ClientFormPayload.trimmed (fields : ClientFormPayload) : ClientFormPayload where
  fullName := trimString fields.fullName
  birthDate := Dart.trim fields.birthDate
  addressMorocco := trimString fields.addressMorocco
  addressAbroad := trimString fields.addressAbroad
  profession := trimString fields.profession
  drivingLicenseNumber := trimString fields.drivingLicenseNumber
  drivingLicenseIssuedAt := trimString fields.drivingLicenseIssuedAt
  cinNumber := trimString fields.cinNumber
  passportNumber := trimString fields.passportNumber
  passportIssuedAt := Dart.trim fields.passportIssuedAt
  phone := trimString fields.phone
  additionalDriverFullName := trimString fields.additionalDriverFullName
  additionalDriverDrivingLicenseNumber := trimString fields.additionalDriverDrivingLicenseNumber
  additionalDriverDrivingLicenseIssuedAt := Dart.trim fields.additionalDriverDrivingLicenseIssuedAt
  additionalDriverPassportNumber := trimString fields.additionalDriverPassportNumber

/-- The fields that must be dates, with their labels. -/
def ClientFormPayload.dates (fields : ClientFormPayload) : List (String × Text) :=
  [("Date de naissance", fields.birthDate),
   ("Date de delivrance du passeport", fields.passportIssuedAt),
   ("Date du permis conducteur supplementaire", fields.additionalDriverDrivingLicenseIssuedAt)]

/-- What the button hands on, or the message that is shown. An exception of the clock shows
none. -/
def submit (zone : Dart.Zone) (fields : ClientFormPayload) :
    Except (Option String) ClientFormPayload :=
  if trimString fields.fullName = "" ∨ trimString fields.phone = "" then
    .error (some "Champ obligatoire")
  else
    match DateInputValidator.firstInvalidIsoDate zone fields.dates with
    | none => .error none
    | some (some dateError) => .error (some dateError)
    | some none => .ok fields.trimmed

/-! ### What is sent -/

/-- `trimOrNull` of a date -/
def trimDateOrNull (value : Text) : Option Text :=
  if Dart.trim value = [] then none else some (Dart.trim value)

/-- How the server reads a date, which may be missing. -/
def readDate : Option Text → Option (Option LocalDate)
  | none => some none
  | some date => (Java.parseIsoDate (Java.trim date)).map fun date => some date.dayNumber

/-- The body of the request, as the server reads it. A missing identity card is sent as an empty
text. -/
def sent (client : ClientFormPayload) : Option ClientRequest := do
  let birthDate ← readDate (trimDateOrNull client.birthDate)
  let passportIssuedAt ← readDate (trimDateOrNull client.passportIssuedAt)
  let licenseIssuedAt ← readDate (trimDateOrNull client.additionalDriverDrivingLicenseIssuedAt)
  return {
    fullName := trimString client.fullName
    birthDate := birthDate
    addressMorocco := trimOrNull client.addressMorocco
    addressAbroad := trimOrNull client.addressAbroad
    profession := trimOrNull client.profession
    drivingLicenseNumber := trimOrNull client.drivingLicenseNumber
    drivingLicenseIssuedAt := trimOrNull client.drivingLicenseIssuedAt
    cinNumber := some ((trimOrNull client.cinNumber).getD "")
    passportNumber := trimOrNull client.passportNumber
    passportIssuedAt := passportIssuedAt
    phone := some (trimString client.phone)
    additionalDriverFullName := trimOrNull client.additionalDriverFullName
    additionalDriverDrivingLicenseNumber := trimOrNull client.additionalDriverDrivingLicenseNumber
    additionalDriverDrivingLicenseIssuedAt := licenseIssuedAt
    additionalDriverPassportNumber := trimOrNull client.additionalDriverPassportNumber }

/-! ### What comes back -/

/-- How the server writes a date, and what the app makes of a missing one. -/
def writeDate (date : Option LocalDate) : Text :=
  (date.map fun date => Java.dateText (.ofDayNumber date)).getD []

/-- The client as the app has it; its texts are put into the fields. -/
structure ClientModel extends ClientFormPayload where
  id : Id

/-- `ClientModel.fromJson`: a missing text is an empty one. -/
def ClientModel.fromJson (json : ClientResponse) : ClientModel where
  id := json.id
  fullName := json.fullName
  birthDate := writeDate json.birthDate
  addressMorocco := json.addressMorocco.getD ""
  addressAbroad := json.addressAbroad.getD ""
  profession := json.profession.getD ""
  drivingLicenseNumber := json.drivingLicenseNumber.getD ""
  drivingLicenseIssuedAt := json.drivingLicenseIssuedAt.getD ""
  phone := json.phone.getD ""
  cinNumber := json.cinNumber.getD ""
  passportNumber := json.passportNumber.getD ""
  passportIssuedAt := writeDate json.passportIssuedAt
  additionalDriverFullName := json.additionalDriverFullName.getD ""
  additionalDriverDrivingLicenseNumber := json.additionalDriverDrivingLicenseNumber.getD ""
  additionalDriverDrivingLicenseIssuedAt := writeDate json.additionalDriverDrivingLicenseIssuedAt
  additionalDriverPassportNumber := json.additionalDriverPassportNumber.getD ""

/-! ### Field by field -/

@[simp] theorem trimOrNull_getD (s : String) : (trimOrNull s).getD "" = trimString s := by
  unfold trimOrNull
  split
  · next hempty => rw [hempty, Option.getD_none]
  · rfl

/-- **A date goes through.** The server reads every date the dialog lets through, and writes it
as it was typed, but for the blanks around it. -/
theorem readDate_writeDate {zone : Dart.Zone} {value : Text}
    (h : DateInputValidator.isValidIsoDate zone value = some true) :
    ∃ date, readDate (trimDateOrNull value) = some date ∧ writeDate date = Dart.trim value := by
  rcases DateInputValidator.isValidIsoDate_cases h with hempty | ⟨date, y, m, d, hyear, hmonth,
    hday, hy, htext⟩
  · refine ⟨none, ?_, hempty.symm⟩
    rw [trimDateOrNull, if_pos hempty]
    rfl
  · refine ⟨some date.dayNumber, ?_, ?_⟩
    · rw [trimDateOrNull, htext, if_neg isoDate_ne_nil]
      show (Java.parseIsoDate (Java.trim (isoDate y m d))).map _ = _
      rw [java_trim_isoDate, Java.parseIsoDate_isoDate hyear hmonth hday hy]
      rfl
    · have hback : Date.ofDayNumber date.dayNumber = date :=
        Date.dayNumber_injective (dayNumber_ofDayNumber _)
      show Java.dateText (.ofDayNumber date.dayNumber) = Dart.trim value
      rw [hback, Java.dateText_eq hyear hmonth hday hy, htext]

/-! ### The whole card -/

variable {zone : Dart.Zone} {fields payload : ClientFormPayload}

@[simp] theorem trimmed_trimmed (fields : ClientFormPayload) :
    fields.trimmed.trimmed = fields.trimmed := by
  simp [ClientFormPayload.trimmed]

/-- The dialog hands on the trimmed texts, when the two are there and the three are dates. -/
theorem submit_eq_ok : submit zone fields = .ok payload ↔
    trimString fields.fullName ≠ "" ∧ trimString fields.phone ≠ "" ∧
      (∀ field ∈ fields.dates,
        DateInputValidator.isValidIsoDate zone (Dart.trim field.2) = some true) ∧
      payload = fields.trimmed := by
  rw [← DateInputValidator.firstInvalidIsoDate_eq_none]
  unfold submit
  split
  · next hmissing =>
    simp only [reduceCtorEq, false_iff]
    rintro ⟨hname, hphone, -⟩
    exact hmissing.elim hname hphone
  · next hthere =>
    rw [not_or] at hthere
    cases DateInputValidator.firstInvalidIsoDate zone fields.dates with
    | none => simp
    | some error => cases error <;> simp [hthere.1, hthere.2, eq_comm]

/-- What was handed on is accepted as it is. -/
theorem submit_again (h : submit zone fields = .ok payload) :
    submit zone payload = .ok payload := by
  obtain ⟨hname, hphone, hdates, rfl⟩ := submit_eq_ok.mp h
  refine submit_eq_ok.mpr ⟨?_, ?_, ?_, (trimmed_trimmed fields).symm⟩
  · simpa [ClientFormPayload.trimmed] using hname
  · simpa [ClientFormPayload.trimmed] using hphone
  · simpa [ClientFormPayload.dates, ClientFormPayload.trimmed] using hdates

/-- The server reads what was handed on, and a row made of it shows it. -/
theorem sent_shown (h : submit zone fields = .ok payload) :
    ∃ request, sent payload = some request ∧ ∀ k,
      (ClientModel.fromJson (ClientService.map k (ClientService.apply request))).toClientFormPayload
        = payload := by
  obtain ⟨-, -, hdates, rfl⟩ := submit_eq_ok.mp h
  simp only [ClientFormPayload.dates, List.forall_mem_cons, List.not_mem_nil, false_implies,
    implies_true, and_true] at hdates
  obtain ⟨hbirth, hpassport, hlicense⟩ := hdates
  obtain ⟨birthDate, hreadBirth, hwriteBirth⟩ := readDate_writeDate hbirth
  obtain ⟨passportIssuedAt, hreadPassport, hwritePassport⟩ := readDate_writeDate hpassport
  obtain ⟨licenseIssuedAt, hreadLicense, hwriteLicense⟩ := readDate_writeDate hlicense
  simp only [sent, ClientFormPayload.trimmed, hreadBirth, hreadPassport, hreadLicense,
    Option.bind_eq_bind, Option.bind_some, Option.pure_def, Option.some.injEq, exists_eq_left']
  intro k
  simp [ClientModel.fromJson, ClientService.map, ClientService.apply, hwriteBirth, hwritePassport,
    hwriteLicense]

/-- **The card of a client comes back as it was typed.** Let the dialog hand on what was typed.
The server can read it. Let it be saved, for a new client or for one on file, and let any calls
follow, none of which saves another card for this client. As long as the client is on file, the
dialog shows what was typed, but for the blanks around it; it can be saved as it is, and that
changes nothing. -/
theorem client_card_round_trip (hsubmit : submit zone fields = .ok payload) :
    ∃ request, sent payload = some request ∧
      ∀ {call : Call} {env : Env} {db db' : Db} {k : Id} {w' : World} {response : ClientResponse},
        call.entry db = some (.client k request) → call.exec env db = .ok db' →
        Relation.ReflTransGen (StepBy fun w env later => later.Spares (.client k) w env)
          ⟨env.now, db'⟩ w' →
        ClientService.findById k w'.db = .ok response →
        (ClientModel.fromJson response).toClientFormPayload = payload ∧
          submit zone (ClientModel.fromJson response).toClientFormPayload = .ok payload ∧
          ∀ env', Call.exec env' w'.db (.clientUpdate k request) = .ok w'.db := by
  obtain ⟨request, hsent, hshown⟩ := sent_shown hsubmit
  refine ⟨request, hsent, ?_⟩
  intro call env db db' k w' response hentry hexec hrun hfind
  obtain ⟨hsaved, hused⟩ := Call.exec_saved hexec hentry
  have hfile : (Entry.client k request).OnFile w'.db :=
    Entry.OnFile.run (w := ⟨env.now, db'⟩) hsaved hused hrun
  simp only [ClientService.findById, ClientService.getClient, bind_eq_ok, orThrow_eq_ok,
    pure_eq_ok] at hfind
  obtain ⟨client, hclient, rfl⟩ := hfind
  obtain rfl := hfile client hclient
  refine ⟨hshown k, ?_, fun env' => ?_⟩
  · rw [hshown k]
    exact submit_again hsubmit
  · simp [Call.exec, ClientService.update, ClientService.getClient, hclient, orThrow, Except.map,
      Table.set_get? hclient, bind, Except.bind, pure, Except.pure]

/-- A name, a phone number and a birth date, with a blank in front of the name and of the date. -/
def typedCard : ClientFormPayload where
  fullName := " Client"
  birthDate := ' ' :: isoDate 1990 2 28
  phone := "0612"

/-- The client rents the car, and cannot be deleted any more. -/
def keptOnFile : List (Env × Call) :=
  [(.atTime 0, .contractCreate (booking secondsPerDay none 10000)), (.atTime 0, .clientDelete 1)]

theorem client_card_round_trip_typed :
    ∃ request db' response, sent typedCard.trimmed = some request ∧
      Call.exec (.atTime 0) (World.after fleetOfOne).db (.clientUpdate 1 request) = .ok db' ∧
      ClientService.findById 1 (runCalls keptOnFile ⟨0, db'⟩).db = .ok response ∧
      (ClientModel.fromJson response).toClientFormPayload = typedCard.trimmed := by
  have hsubmit : submit (.fixed 0 (by decide)) typedCard = .ok typedCard.trimmed :=
    submit_eq_ok.mpr ⟨by decide, by decide, by decide, rfl⟩
  obtain ⟨request, hsent, hback⟩ := client_card_round_trip hsubmit
  obtain ⟨db', hexec, response, hfind⟩ : ∃ db', Call.exec (.atTime 0) (World.after fleetOfOne).db
      (.clientUpdate 1 request) = .ok db' ∧ ∃ response,
        ClientService.findById 1 (runCalls keptOnFile ⟨0, db'⟩).db = .ok response :=
    ⟨_, rfl, _, rfl⟩
  have hsorted : (0 :: keptOnFile.map fun c => c.1.now).Pairwise (· ≤ ·) := by decide
  have hentry : (Call.clientUpdate 1 request).entry (World.after fleetOfOne).db =
      some (.client 1 request) := rfl
  have hshown := hback hentry hexec (runCalls_runBy keptOnFile ⟨0, db'⟩
    (by simp [keptOnFile, Call.Spares, Call.entry, Entry.row]) hsorted) hfind
  exact ⟨request, db', response, hsent, hexec, hfind, hshown.1⟩

end ClientForm

end CarRental
