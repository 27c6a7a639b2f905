import CarRental.Domain
import CarRental.Lib.Transaction
import CarRental.Lib.UniqueTable

/-!
# CarRental.Account.Domain

The **administrator accounts**: `Admin`, `PasswordResetToken`, their tables and the
queries of `AdminRepository` and `PasswordResetTokenRepository`.

Text columns are declared with the collation `utf8mb4_unicode_ci`, which tells
apart neither letter case nor accents. So a query by text, and a unique key over a
text column, compare *collation keys* (`Platform.collate`) and not the texts. The
Java code compares the texts themselves.

Both tables have a unique key (`uk_admins_email`, `uk_password_reset_code_hash`),
carried by their type.
-/

namespace CarRental

open Lib

/-- `"ACTIVE".equalsIgnoreCase(status)`, or not: the only question the code asks of it. -/
inductive AdminStatus
  | active
  | disabled
  deriving DecidableEq

/-- The columns of `admins` but the key. -/
structure Admin where
  fullName : String
  email : String
  phone : Option String := none
  passwordHash : String
  status : AdminStatus := .active
  createdAt : LocalDateTime
  lastLogin : Option LocalDateTime := none
  deriving DecidableEq

/-- A code that was mailed, by its hash. -/
structure PasswordResetToken where
  adminId : Id
  requestedEmail : String
  codeHash : String
  createdAt : LocalDateTime
  expiresAt : LocalDateTime
  usedAt : Option LocalDateTime := none
  failedAttempts : Nat := 0
  deriving DecidableEq

/-- What the runtime, the libraries and the database bring along. -/
structure Platform where
  /-- `String.toLowerCase()` -/
  toLowerCase : String → String
  /-- `a.equalsIgnoreCase(b)` -/
  equalsIgnoreCase : String → String → Bool
  /-- The collation key of a text: to the database two texts are equal when their keys are. -/
  collate : String → String
  /-- The SHA-256 digest of the UTF-8 bytes, in hexadecimal. -/
  sha256 : String → String
  /-- `BCryptPasswordEncoder.matches(raw, encoded)` -/
  passwordMatches : String → String → Bool

/-- The tables of the accounts. -/
structure AccountDb (p : Platform) where
  admins : UniqueTable fun admin : Admin => p.collate admin.email
  tokens : UniqueTable fun token : PasswordResetToken => p.collate token.codeHash

/-- What a call reads from outside the database. -/
structure AccountEnv where
  now : LocalDateTime
  /-- What `secureRandom.nextInt(1_000_000)` returns, call after call. -/
  draws : List (Fin 1000000) := []
  /-- The reason why a mail could not be sent, if any. -/
  mailError : Option String := none
  /-- `BCryptPasswordEncoder.encode`, whose salt is drawn anew in each call. -/
  encode : String → String := id
  /-- The order in which rows with equal sort keys are listed. -/
  listing : List (Id × PasswordResetToken) → List (Id × PasswordResetToken) := id
  listing_perm : ∀ rows, (listing rows).Perm rows := by exact fun _ => List.Perm.refl _

/-- The environment at time `now` in which the given numbers are drawn and mails arrive. -/
def AccountEnv.atTime (now : LocalDateTime) (draws : List (Fin 1000000)) : AccountEnv where
  now := now
  draws := draws

/-- What the services of the accounts throw. -/
inductive AccountError
  /-- `IllegalArgumentException` -/
  | illegalArgument (message : String)
  /-- A unique key refuses the row. -/
  | dataIntegrityViolation (key : String)
  /-- `EntityNotFoundException` -/
  | entityNotFound
  /-- `MailException` -/
  | mail (message : String)
  deriving DecidableEq

variable {p : Platform}

namespace AdminRepository

/-- The account of an e-mail, as the collation of the column compares them. -/
def findByEmail (db : AccountDb p) (email : String) : Option (Id × Admin) :=
  db.admins.find? (p.collate email)

/-- `save` of a row on file; the unique key may refuse it. -/
def save (id : Id) (admin : Admin) (db : AccountDb p) : Except AccountError (AccountDb p) := do
  let admins ← orThrow (db.admins.set? id admin) (.dataIntegrityViolation "uk_admins_email")
  pure { db with admins := admins }

end AdminRepository

namespace PasswordResetTokenRepository

/-- Is the hash taken, by whomever? -/
def existsByCodeHash (db : AccountDb p) (codeHash : String) : Bool :=
  (db.tokens.find? (p.collate codeHash)).isSome

/-- How many codes were asked for since then. -/
def countByRequestedEmailAndCreatedAtAfter (db : AccountDb p) (requestedEmail : String)
    (after : LocalDateTime) : Nat :=
  (db.tokens.table.select fun _ token =>
    p.collate token.requestedEmail = p.collate requestedEmail && after < token.createdAt).length

/-- The code with this hash, if it is the account's own. -/
def findByAdminAndCodeHash (db : AccountDb p) (adminId : Id) (codeHash : String) :
    Option (Id × PasswordResetToken) :=
  (db.tokens.find? (p.collate codeHash)).filter fun token => token.2.adminId = adminId

/-- The first of the rows with the latest creation. -/
def latest : List (Id × PasswordResetToken) → Option (Id × PasswordResetToken)
  | [] => none
  | token :: rest =>
    match latest rest with
    | none => some token
    | some best => if token.2.createdAt < best.2.createdAt then some best else some token

/-- The latest unused code of the account. Between codes of one instant the order of the listing
decides. -/
def findTopByAdminAndUsedAtIsNullOrderByCreatedAtDesc (env : AccountEnv) (db : AccountDb p)
    (adminId : Id) : Option (Id × PasswordResetToken) :=
  latest (env.listing (db.tokens.table.select fun _ token =>
    token.adminId = adminId && token.usedAt.isNone))

/-- What has expired before the given time is removed. -/
def deleteByExpiresAtBefore (dateTime : LocalDateTime) (db : AccountDb p) : AccountDb p :=
  { db with tokens := db.tokens.filter fun _ token => !decide (token.expiresAt < dateTime) }

/-- `save` of a new row. -/
def insert (token : PasswordResetToken) (db : AccountDb p) :
    Except AccountError (AccountDb p) := do
  let tokens ← orThrow (db.tokens.insert? token)
    (.dataIntegrityViolation "uk_password_reset_code_hash")
  pure { db with tokens := tokens }

/-- `save` of a row on file. -/
def save (id : Id) (token : PasswordResetToken) (db : AccountDb p) :
    Except AccountError (AccountDb p) := do
  let tokens ← orThrow (db.tokens.set? id token)
    (.dataIntegrityViolation "uk_password_reset_code_hash")
  pure { db with tokens := tokens }

end PasswordResetTokenRepository

end CarRental
