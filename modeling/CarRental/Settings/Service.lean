import CarRental.Domain
import CarRental.Lib.Transaction

/-!
# CarRental.Settings.Service

The **settings of the company**: the row of `company_settings`, `SettingsService` over
it, and the choice of a mail account by `EmailService`.

There is one row, with the key 1. The migration `V2` inserts it and no code deletes it,
so `createDefaults` is not reached and a state is the row itself.

One `PUT` writes the company's fields and the mail account. Some of its fields are
written whatever they are, others only when they are sent (`updateCompanyInfo`).
-/

namespace CarRental

open Lib

/-! ### Text columns -/

/-- A value of a `VARCHAR(n)` column. -/
structure VarChar (n : Nat) where
  val : String
  fits : val.toList.length ≤ n
  deriving DecidableEq

namespace VarChar

variable {n : Nat}

/-- Blanks beyond the length of the column are cut off, anything else there is an error. -/
def fitting (n : Nat) (s : String) : Bool := (s.toList.drop n).all (· = ' ')

/-- What the column keeps of a text: blanks beyond its width are dropped, other signs refuse it. -/
def store (n : Nat) (s : String) : Option (VarChar n) :=
  if fitting n s then
    some ⟨String.ofList (s.toList.take n), by
      rw [String.toList_ofList, List.length_take]
      exact Nat.min_le_left _ _⟩
  else none

@[simp] theorem fitting_val (v : VarChar n) : fitting n v.val = true := by
  have hdrop : v.val.toList.drop n = [] := List.drop_eq_nil_of_le v.fits
  unfold fitting
  rw [hdrop]
  rfl

/-- A value of the column is stored as it is. -/
@[simp] theorem store_val (v : VarChar n) : store n v.val = some v := by
  have htake : String.ofList (v.val.toList.take n) = v.val := by
    rw [List.take_of_length_le v.fits, String.ofList_toList]
  unfold store
  simp only [fitting_val, if_true, htake]

theorem exists_store {s : String} : (∃ v, store n s = some v) ↔ fitting n s = true := by
  unfold store
  split <;> simp [*]

end VarChar

/-- What saving the settings throws. -/
inductive SettingsError
  /-- `HttpMessageNotReadableException` -/
  | notReadable
  /-- `DataIntegrityViolationException`: the text is too long for the column. -/
  | dataTooLong (column : String)
  deriving DecidableEq

/-- The text for a column, or the exception that names it. -/
def varchar (column : String) (n : Nat) (s : String) : Except SettingsError (VarChar n) :=
  orThrow (VarChar.store n s) (.dataTooLong column)

/-- A column that may be `NULL`. -/
def nullable (column : String) (n : Nat) : Option String →
    Except SettingsError (Option (VarChar n))
  | none => .ok none
  | some s => (varchar column n s).map some

section Columns

variable {column s : String} {n : Nat}

@[simp] theorem nullable_none {v : Option (VarChar n)} :
    nullable column n none = .ok v ↔ v = none := by
  unfold nullable
  rw [Except.ok.injEq, eq_comm]

@[simp] theorem nullable_some {v : Option (VarChar n)} :
    nullable column n (some s) = .ok v ↔ ∃ w, VarChar.store n s = some w ∧ some w = v := by
  simp [nullable, varchar]

/-- A value read from the column can be written back. -/
@[simp] theorem nullable_map_val {v w : Option (VarChar n)} :
    nullable column n (v.map VarChar.val) = .ok w ↔ w = v := by
  cases v with
  | none => exact nullable_none
  | some v =>
    rw [Option.map_some, nullable_some, VarChar.store_val]
    constructor
    · rintro ⟨u, hu, rfl⟩
      exact hu.symm
    · rintro rfl
      exact ⟨v, rfl, rfl⟩

end Columns

/-! ### The row -/

/-- The one row of `company_settings`. -/
structure CompanySettings where
  companyName : VarChar 200
  address : Option (VarChar 500)
  phone : Option (VarChar 50)
  fax : Option (VarChar 50)
  gsm : Option (VarChar 200)
  email : Option (VarChar 200)
  website : Option (VarChar 300)
  logoPath : Option (VarChar 500)
  smtpHost : Option (VarChar 200)
  smtpPort : Option Int
  smtpUsername : Option (VarChar 200)
  smtpPassword : Option (VarChar 200)
  smtpAuth : Bool
  smtpStarttls : Bool
  smtpActive : Bool
  updatedAt : Option LocalDateTime
  deriving DecidableEq

/-- The fields about the company. -/
structure CompanyInfo where
  companyName : VarChar 200
  address : Option (VarChar 500)
  phone : Option (VarChar 50)
  fax : Option (VarChar 50)
  gsm : Option (VarChar 200)
  email : Option (VarChar 200)
  website : Option (VarChar 300)
  logoPath : Option (VarChar 500)
  deriving DecidableEq

/-- The fields about the mail account. -/
structure SmtpAccount where
  host : Option (VarChar 200)
  port : Option Int
  username : Option (VarChar 200)
  password : Option (VarChar 200)
  auth : Bool
  starttls : Bool
  active : Bool
  deriving DecidableEq

/-- The columns the first page shows. -/
def CompanySettings.company (s : CompanySettings) : CompanyInfo :=
  ⟨s.companyName, s.address, s.phone, s.fax, s.gsm, s.email, s.website, s.logoPath⟩

/-- The columns of the mail account. -/
def CompanySettings.smtp (s : CompanySettings) : SmtpAccount :=
  ⟨s.smtpHost, s.smtpPort, s.smtpUsername, s.smtpPassword, s.smtpAuth, s.smtpStarttls,
    s.smtpActive⟩

/-- The body of `PUT /settings`; what a page does not send is `null`. -/
structure SettingsRequest where
  companyName : Option String
  address : Option String
  phone : Option String
  fax : Option String
  gsm : Option String
  email : Option String
  website : Option String
  smtpHost : Option String := none
  smtpPort : Option Int := none
  smtpUsername : Option String := none
  smtpPassword : Option String := none
  smtpAuth : Option Bool := none
  smtpStarttls : Option Bool := none
  smtpActive : Option Bool := none

/-- The answer to `GET /settings`. -/
structure SettingsResponse where
  id : Id
  companyName : String
  address : Option String
  phone : Option String
  fax : Option String
  gsm : Option String
  email : Option String
  website : Option String
  logoUrl : Option String
  smtpHost : Option String
  smtpPort : Option Int
  smtpUsername : Option String
  smtpPassword : Option String
  smtpAuth : Bool
  smtpStarttls : Bool
  smtpActive : Bool
  updatedAt : Option LocalDateTime
  deriving DecidableEq

namespace SettingsService

/-- `Character.isWhitespace` -/
def isWhitespace (c : Char) : Bool :=
  let n := c.toNat
  (0x9 ≤ n && n ≤ 0xD) || (0x1C ≤ n && n ≤ 0x20) || n = 0x1680 || (0x2000 ≤ n && n ≤ 0x2006) ||
    (0x2008 ≤ n && n ≤ 0x200A) || n = 0x2028 || n = 0x2029 || n = 0x205F || n = 0x3000

/-- `s.isBlank()` -/
def isBlank (s : String) : Bool := s.toList.all isWhitespace

/-- `Paths.get(path).getFileName()` -/
def getFileName (path : String) : String :=
  String.ofList (path.toList.reverse.takeWhile fun c => c ≠ '/' && c ≠ '\\').reverse

/-- Where logos are served from. -/
def uploadsPrefix : String := "/uploads/logo/"

/-- `map`: the password is part of the answer. -/
def map (s : CompanySettings) : SettingsResponse where
  id := 1
  companyName := s.companyName.val
  address := s.address.map VarChar.val
  phone := s.phone.map VarChar.val
  fax := s.fax.map VarChar.val
  gsm := s.gsm.map VarChar.val
  email := s.email.map VarChar.val
  website := s.website.map VarChar.val
  logoUrl := (s.logoPath.filter fun path => !isBlank path.val).map
    fun path => uploadsPrefix ++ getFileName path.val
  smtpHost := s.smtpHost.map VarChar.val
  smtpPort := s.smtpPort
  smtpUsername := s.smtpUsername.map VarChar.val
  smtpPassword := s.smtpPassword.map VarChar.val
  smtpAuth := s.smtpAuth
  smtpStarttls := s.smtpStarttls
  smtpActive := s.smtpActive
  updatedAt := s.updatedAt

/-- `repository.save`: `@PreUpdate` stamps a row that has changed. -/
def save (now : LocalDateTime) (old new : CompanySettings) : CompanySettings :=
  if new = old then old else { new with updatedAt := some now }

/-- A blank name is not written. -/
def companyName (requested : Option String) (current : VarChar 200) :
    Except SettingsError (VarChar 200) :=
  match requested with
  | none => .ok current
  | some name => if isBlank name then .ok current else varchar "company_name" 200 name

/-- A number of the request is read as an `Integer`. -/
def integer : Option Int → Except SettingsError (Option Int)
  | none => .ok none
  | some i => if -0x80000000 ≤ i ∧ i < 0x80000000 then .ok (some i) else .error .notReadable

/-- The setters of `updateCompanyInfo`. -/
def assign (req : SettingsRequest) (s : CompanySettings) :
    Except SettingsError CompanySettings := do
  let smtpPort ← integer req.smtpPort
  let companyName ← companyName req.companyName s.companyName
  let address ← nullable "address" 500 req.address
  let phone ← nullable "phone" 50 req.phone
  let fax ← nullable "fax" 50 req.fax
  let gsm ← nullable "gsm" 200 req.gsm
  let email ← nullable "email" 200 req.email
  let website ← nullable "website" 300 req.website
  let smtpHost ← nullable "smtp_host" 200 req.smtpHost
  let smtpUsername ← nullable "smtp_username" 200 req.smtpUsername
  let smtpPassword ← nullable "smtp_password" 200 req.smtpPassword
  pure
    { s with
      companyName := companyName
      address := address
      phone := phone
      fax := fax
      gsm := gsm
      email := email
      website := website
      smtpHost := smtpHost
      smtpPort := smtpPort
      smtpUsername := smtpUsername
      smtpPassword := smtpPassword
      smtpAuth := req.smtpAuth.getD s.smtpAuth
      smtpStarttls := req.smtpStarttls.getD s.smtpStarttls
      smtpActive := req.smtpActive.getD s.smtpActive }

/-- `updateCompanyInfo`: the fields are assigned, and the row is written if it has changed. -/
def updateCompanyInfo (now : LocalDateTime) (req : SettingsRequest) (s : CompanySettings) :
    Except SettingsError CompanySettings :=
  (assign req s).map (save now s)

@[simp] theorem company_save (now : LocalDateTime) (old new : CompanySettings) :
    (save now old new).company = new.company := by
  unfold save
  split
  · next h => rw [h]
  · rfl

@[simp] theorem smtp_save (now : LocalDateTime) (old new : CompanySettings) :
    (save now old new).smtp = new.smtp := by
  unfold save
  split
  · next h => rw [h]
  · rfl

/-- A company with a mail account. -/
def configured : CompanySettings where
  companyName := ⟨"AGENCE", by decide⟩
  address := VarChar.store 500 "1, rue du Port"
  phone := VarChar.store 50 "05 00 00 00 01"
  fax := VarChar.store 50 "05 00 00 00 02"
  gsm := VarChar.store 200 "06 00 00 00 01 / 06 00 00 00 02"
  email := VarChar.store 200 "bureau@agence.test"
  website := none
  logoPath := none
  smtpHost := VarChar.store 200 "smtp.agence.test"
  smtpPort := some 587
  smtpUsername := VarChar.store 200 "contact@agence.test"
  smtpPassword := VarChar.store 200 "secret"
  smtpAuth := true
  smtpStarttls := true
  smtpActive := true
  updatedAt := none

section Fields

variable {req : SettingsRequest} {s : CompanySettings} {name : String} {current v : VarChar 200}

@[simp] theorem companyName_some : companyName (some name) current = .ok v ↔
    if isBlank name then v = current else VarChar.store 200 name = some v := by
  unfold companyName
  dsimp only
  by_cases hblank : isBlank name
  · rw [if_pos hblank, if_pos hblank, Except.ok.injEq, eq_comm]
  · rw [if_neg hblank, if_neg hblank]
    exact orThrow_eq_ok

theorem exists_companyName : (∃ v, companyName (some name) current = .ok v) ↔
    (isBlank name || VarChar.fitting 200 name) = true := by
  simp only [companyName_some]
  cases isBlank name with
  | true => simp
  | false => simpa using VarChar.exists_store

theorem exists_nullable {column text : String} {n : Nat} :
    (∃ v, nullable column n (some text) = .ok v) ↔ VarChar.fitting n text = true := by
  rw [← VarChar.exists_store]
  simp only [nullable_some]
  constructor
  · rintro ⟨-, w, hw, -⟩
    exact ⟨w, hw⟩
  · rintro ⟨w, hw⟩
    exact ⟨some w, w, hw, rfl⟩

@[simp] theorem integer_none {i : Option Int} : integer none = .ok i ↔ i = none := by
  unfold integer
  rw [Except.ok.injEq, eq_comm]

theorem exists_integer {i : Option Int} : (∃ j, integer i = .ok j) ↔
    (i.all fun i => -0x80000000 ≤ i ∧ i < 0x80000000) = true := by
  cases i with
  | none => simp
  | some i =>
    unfold integer
    dsimp only
    split
    · next hrange => simp [hrange]
    · next hrange => simp [hrange]

end Fields

end SettingsService

/-! ### The mail account in use -/

namespace EmailService

/-- What `sendPasswordResetCode` sends a mail with. -/
inductive Sender
  /-- The account of the settings. -/
  | account (host : String) (port : Int) (username password : Option String)
      (auth starttls : Bool)
  /-- What the deployment is configured with, or the log. -/
  | system
  deriving DecidableEq

/-- Where a mail is sent from: the account of the settings if it is active and has a host. -/
def sender (s : CompanySettings) : Sender :=
  match s.smtpActive, s.smtpHost with
  | true, some host =>
    if SettingsService.isBlank host.val then .system
    else .account host.val (s.smtpPort.getD 587) (s.smtpUsername.map VarChar.val)
      (s.smtpPassword.map VarChar.val) s.smtpAuth s.smtpStarttls
  | _, _ => .system

end EmailService

end CarRental
