import CarRental.Account.Domain

/-!
# CarRental.Account.Login

**Logging in and being recognised**: `AuthController.login`, `AdminController` over
`AdminService`, `JwtProvider` and `JwtAuthenticationFilter`.

The status of an account is looked at when a token is handed out. The filter that
recognises a request by its token looks at the token only: it validates the
signature and the expiry, and takes the e-mail in the token for the principal.

The signing library is a parameter (`Jwt`) with its documented behaviour: it accepts
exactly the tokens signed with the key of the server that have not expired.
-/

namespace CarRental

open Lib

/-! ### Tokens -/

/-- What a token says. -/
structure Claims where
  subject : String
  issuedAt : LocalDateTime
  expiration : LocalDateTime
  deriving DecidableEq

/-- Signing and parsing with the key of the server. -/
structure Jwt where
  sign : Claims → String
  parse : LocalDateTime → String → Option Claims
  parse_iff : ∀ now token claims, parse now token = some claims ↔
    sign claims = token ∧ now ≤ claims.expiration

namespace JwtProvider

/-- `jwt.expiration-ms`, in seconds. -/
def expiration : Int := 86400

/-- A token says who it is for, and lasts a day. -/
def claims (now : LocalDateTime) (email : String) : Claims := ⟨email, now, now + expiration⟩

/-- `generateToken`: the signed claims. -/
def generateToken (jwt : Jwt) (now : LocalDateTime) (email : String) : String :=
  jwt.sign (claims now email)

/-- `validateToken`: does the library accept it? -/
def validateToken (jwt : Jwt) (now : LocalDateTime) (token : String) : Bool :=
  (jwt.parse now token).isSome

/-- An invalid token throws. -/
def getEmailFromToken (jwt : Jwt) (now : LocalDateTime) (token : String) : Option String :=
  (jwt.parse now token).map Claims.subject

end JwtProvider

/-- `StringUtils.hasText` -/
def hasText (s : String) : Bool := s.toList.any fun c => !c.isWhitespace

/-- `JwtAuthenticationFilter.doFilterInternal`: the principal of a request with this
`Authorization` header, if it is authenticated. -/
def authenticate (jwt : Jwt) (now : LocalDateTime) : Option String → Option String
  | none => none
  | some header =>
    if hasText header && "Bearer ".toList.isPrefixOf header.toList then
      let token := String.ofList (header.toList.drop 7)
      if JwtProvider.validateToken jwt now token then JwtProvider.getEmailFromToken jwt now token
      else none
    else none

/-! ### Accounts -/

variable {p : Platform}

namespace AdminService

/-- E-mails are stored in lower case, so they are looked up in lower case. -/
def findByEmail (db : AccountDb p) (email : String) : Option (Id × Admin) :=
  AdminRepository.findByEmail db (p.toLowerCase email)

/-- `passwordEncoder.matches` -/
def checkPassword (p : Platform) (admin : Admin) (rawPassword : String) : Bool :=
  p.passwordMatches rawPassword admin.passwordHash

/-- The account is stamped with the time of the login. -/
def updateLastLogin (env : AccountEnv) (id : Id) (admin : Admin) (db : AccountDb p) :
    Except AccountError (AccountDb p) :=
  AdminRepository.save id { admin with lastLogin := some env.now } db

/-- A new account is active and has never logged in. -/
def createAdmin (env : AccountEnv) (fullName email : String) (phone : Option String)
    (rawPassword : String) (db : AccountDb p) : Except AccountError (AccountDb p) := do
  let admins ← orThrow
    (db.admins.insert?
      { fullName := fullName
        email := p.toLowerCase email
        phone := phone
        passwordHash := env.encode rawPassword
        createdAt := env.now })
    (.dataIntegrityViolation "uk_admins_email")
  pure { db with admins := admins }

/-- The password is kept as what the encoder makes of it. -/
def changePassword (env : AccountEnv) (id : Id) (admin : Admin) (rawPassword : String)
    (db : AccountDb p) : Except AccountError (AccountDb p) :=
  AdminRepository.save id { admin with passwordHash := env.encode rawPassword } db

/-- `setStatus` -/
def setStatus (id : Id) (admin : Admin) (status : AdminStatus) (db : AccountDb p) :
    Except AccountError (AccountDb p) :=
  AdminRepository.save id { admin with status := status } db

/-- Name, e-mail and phone are replaced, the rest is kept. -/
def updateAdmin (id : Id) (admin : Admin) (fullName email : String) (phone : Option String)
    (db : AccountDb p) : Except AccountError (AccountDb p) :=
  AdminRepository.save id
    { admin with fullName := fullName, email := p.toLowerCase email, phone := phone } db

end AdminService

/-- What the endpoints answer. -/
inductive AccountResponse
  | refused (status : Nat) (body : String)
  | notFound
  | done
  | loggedIn (token : String) (id : Id) (fullName email : String)
  deriving DecidableEq

namespace AuthController

/-- `POST /auth/login`. The status is looked at before the password: a wrong password for a disabled
account tells that it is disabled. -/
def login (jwt : Jwt) (env : AccountEnv) (email password : String) (db : AccountDb p) :
    Except AccountError (AccountResponse × AccountDb p) :=
  match AdminService.findByEmail db email with
  | none => pure (.refused 401 "Identifiants invalides", db)
  | some (id, admin) =>
    if admin.status ≠ .active then pure (.refused 403 "Compte désactivé", db)
    else if ¬ AdminService.checkPassword p admin password then
      pure (.refused 401 "Identifiants invalides", db)
    else do
      let token := JwtProvider.generateToken jwt env.now admin.email
      let db ← AdminService.updateLastLogin env id admin db
      pure (.loggedIn token id admin.fullName admin.email, db)

end AuthController

namespace AdminController

/-- `POST /admins` -/
def create (env : AccountEnv) (fullName email : String) (phone : Option String)
    (password confirmPassword : String) (db : AccountDb p) :
    Except AccountError (AccountResponse × AccountDb p) :=
  if password ≠ confirmPassword then
    pure (.refused 400 "La confirmation du mot de passe ne correspond pas.", db)
  else if (AdminService.findByEmail db email).isSome then
    pure (.refused 400 "Email déjà utilisé.", db)
  else do
    let db ← AdminService.createAdmin env fullName email phone password db
    pure (.done, db)

/-- `PUT /admins/{id}`. The account's own e-mail, in whatever case, is not looked up. -/
def update (id : Id) (fullName email : String) (phone : Option String) (db : AccountDb p) :
    Except AccountError (AccountResponse × AccountDb p) :=
  match db.admins.get? id with
  | none => pure (.notFound, db)
  | some existing =>
    if ¬ p.equalsIgnoreCase existing.email email ∧ (AdminService.findByEmail db email).isSome then
      pure (.refused 400 "Email déjà utilisé par un autre compte.", db)
    else do
      let db ← AdminService.updateAdmin id existing fullName email phone db
      pure (.done, db)

/-- The status a request names. -/
def parseStatus (p : Platform) (status : String) : Option AdminStatus :=
  if p.equalsIgnoreCase "ACTIVE" status then some .active
  else if p.equalsIgnoreCase "DISABLED" status then some .disabled
  else none

/-- `PATCH /admins/{id}/status` -/
def toggleStatus (id : Id) (status : Option String) (db : AccountDb p) :
    Except AccountError (AccountResponse × AccountDb p) :=
  match db.admins.get? id with
  | none => pure (.notFound, db)
  | some admin =>
    match status.bind (parseStatus p) with
    | none => pure (.refused 400 "Statut invalide. Utilisez ACTIVE ou DISABLED.", db)
    | some status => do
      let db ← AdminService.setStatus id admin status db
      pure (.done, db)

/-- `PATCH /admins/{id}/password`. Unlike a reset, it takes weak passwords. -/
def changePassword (env : AccountEnv) (id : Id) (currentPassword newPassword
    confirmNewPassword : String) (db : AccountDb p) :
    Except AccountError (AccountResponse × AccountDb p) :=
  match db.admins.get? id with
  | none => pure (.notFound, db)
  | some admin =>
    if ¬ AdminService.checkPassword p admin currentPassword then
      pure (.refused 400 "Le mot de passe actuel est incorrect.", db)
    else if newPassword ≠ confirmNewPassword then
      pure (.refused 400
        "Le nouveau mot de passe et sa confirmation ne correspondent pas.", db)
    else do
      let db ← AdminService.changePassword env id admin newPassword db
      pure (.done, db)

end AdminController

end CarRental
