import Mathlib.Algebra.Ring.Nat
import CarRental.Account.Domain
import CarRental.Text

/-!
# CarRental.Account.PasswordReset

`PasswordResetService`: **reset codes by mail**.

A call is a transaction, and an unchecked exception that leaves it undoes what it
wrote to the database (`transactional`). The bodies below therefore return the
database they have written up to the point where they return *or throw*: the
failed-attempt counter of a token is written on the way to an exception, and so is
undone with it.

The request attempts are kept in memory and not in the database; nothing undoes
them.
-/

namespace CarRental.PasswordResetService

open Lib

variable {p : Platform}

/-- How long a code lasts, in seconds. -/
def codeTtl : Int := 10 * 60
/-- `MAX_REQUESTS_PER_HOUR` -/
def maxRequestsPerHour : Nat := 3
/-- `MAX_FAILED_ATTEMPTS` -/
def maxFailedAttempts : Nat := 5
/-- The window of the limit. -/
def oneHour : Int := 60 * 60
/-- How long expired codes are left on file. -/
def oneMinute : Int := 60

/-- The running application: its database, and the attempts it remembers for each e-mail. -/
structure Server (p : Platform) where
  db : AccountDb p
  attempts : String → List LocalDateTime

/-- `emailService.sendPasswordResetCode(to, code)` -/
structure Mail where
  recipient : String
  code : String
  deriving DecidableEq

/-! ### Texts -/

/-- `email == null ? "" : email.trim().toLowerCase()` -/
def normalizeEmail (p : Platform) : Option String → String
  | none => ""
  | some email => p.toLowerCase (Java.trimString email)

/-- `String.format("%06d", n)` -/
def formatCode (n : Fin 1000000) : String :=
  String.ofList ([5, 4, 3, 2, 1, 0].map fun i => Nat.digitChar (n.val / 10 ^ i % 10))

/-- What `.` matches in a pattern: anything but a line terminator. -/
def isDot (c : Char) : Bool :=
  !(c = '\n' || c = '\r' || c = '\u0085' || c = '\u2028' || c = '\u2029')

/-- `s.matches(".*[class].*")` -/
def matchesAround (inClass : Char → Bool) : List Char → Bool
  | [] => false
  | c :: rest => (inClass c && rest.all isDot) || (isDot c && matchesAround inClass rest)

/-- `s.length()`, in UTF-16 units. -/
def utf16Length (s : List Char) : Nat := (s.map fun c => if c.toNat < 0x10000 then 1 else 2).sum

/-- Eight code units, and one each of the four kinds of signs. -/
def isStrongPassword (password : String) : Bool :=
  let s := password.toList
  8 ≤ utf16Length s &&
  matchesAround Char.isLower s &&
  matchesAround Char.isUpper s &&
  matchesAround Char.isDigit s &&
  matchesAround (fun c => !(Char.isUpper c || Char.isLower c || Char.isDigit c)) s

/-! ### Transactions -/

/-- The database once the transaction has ended: an exception undoes its writes. -/
def transactional {α : Type} (body : AccountDb p → Except AccountError α × AccountDb p)
    (db : AccountDb p) : Except AccountError α × AccountDb p :=
  match body db with
  | (.ok a, written) => (.ok a, written)
  | (.error e, _) => (.error e, db)

/-- Run at the start of each request for a code, and after a reset. -/
def cleanupExpiredTokens (env : AccountEnv) (db : AccountDb p) : AccountDb p :=
  PasswordResetTokenRepository.deleteByExpiresAtBefore (env.now - oneMinute) db

/-! ### Using a code -/

/-- A code that no token of the admin has counts against the latest unused one. -/
def countFailure (env : AccountEnv) (adminId : Id) (db : AccountDb p) :
    Except AccountError (AccountDb p) :=
  match PasswordResetTokenRepository.findTopByAdminAndUsedAtIsNullOrderByCreatedAtDesc env db
      adminId with
  | none => pure db
  | some (id, latestToken) =>
    PasswordResetTokenRepository.save id
      { latestToken with failedAttempts := latestToken.failedAttempts + 1 } db

/-- The code presented, if it can be used. A code that matches none counts as a failed attempt on
the latest one; what was written for it comes back next to the exception. -/
def findValidToken (env : AccountEnv) (email : Option String) (code : String)
    (db : AccountDb p) : Except AccountError (Id × PasswordResetToken) × AccountDb p :=
  match (AdminRepository.findByEmail db (normalizeEmail p email)).filter
      fun admin => admin.2.status = .active with
  | none => (.error (.illegalArgument "INVALID_RESET_CODE"), db)
  | some (adminId, _) =>
    match PasswordResetTokenRepository.findByAdminAndCodeHash db adminId (p.sha256 code) with
    | none =>
      match countFailure env adminId db with
      | .error e => (.error e, db)
      | .ok written => (.error (.illegalArgument "INVALID_RESET_CODE"), written)
    | some (id, token) =>
      if token.usedAt.isSome then (.error (.illegalArgument "RESET_CODE_ALREADY_USED"), db)
      else if token.expiresAt < env.now then (.error (.illegalArgument "RESET_CODE_EXPIRED"), db)
      else if maxFailedAttempts ≤ token.failedAttempts then
        (.error (.illegalArgument "RESET_CODE_BLOCKED"), db)
      else (.ok (id, token), db)

/-- `verifyCode`: the token is found and left alone. -/
def verifyCode (env : AccountEnv) (email : Option String) (code : String) (db : AccountDb p) :
    Except AccountError Unit × AccountDb p :=
  transactional (fun db =>
    let (found, written) := findValidToken env email code db
    (found.map fun _ => (), written)) db

/-- The new password is stored and the token is used up. -/
def usePassword (env : AccountEnv) (newPassword : String) (id : Id) (token : PasswordResetToken)
    (db : AccountDb p) : Except AccountError (AccountDb p) := do
  let admin ← orThrow (db.admins.get? token.adminId) .entityNotFound
  let db ← AdminRepository.save token.adminId
    { admin with passwordHash := env.encode newPassword } db
  let db ← PasswordResetTokenRepository.save id { token with usedAt := some env.now } db
  pure (cleanupExpiredTokens env db)

/-- `resetPassword`: both texts are checked before the code is. -/
def resetPassword (env : AccountEnv) (email : Option String) (code newPassword
    confirmNewPassword : String) (db : AccountDb p) : Except AccountError Unit × AccountDb p :=
  transactional (fun db =>
    if newPassword ≠ confirmNewPassword then
      (.error (.illegalArgument "PASSWORD_CONFIRMATION_MISMATCH"), db)
    else if ¬ isStrongPassword newPassword then (.error (.illegalArgument "WEAK_PASSWORD"), db)
    else
      match findValidToken env email code db with
      | (.error e, written) => (.error e, written)
      | (.ok (id, token), db) =>
        match usePassword env newPassword id token db with
        | .error e => (.error e, db)
        | .ok written => (.ok (), written)) db

/-! ### Asking for a code -/

/-- The times of the last hour are kept for each e-mail, in memory. At three of them the request is
turned away; it is not counted itself. -/
def registerRequestAttempt (now : LocalDateTime) (email : String)
    (attempts : String → List LocalDateTime) :
    Except AccountError Unit × (String → List LocalDateTime) :=
  let kept := (attempts email).filter fun dateTime => !decide (dateTime < now - oneHour)
  if maxRequestsPerHour ≤ kept.length then
    (.error (.illegalArgument "RESET_REQUEST_LIMIT_REACHED"), Function.update attempts email kept)
  else (.ok (), Function.update attempts email (kept ++ [now]))

/-- Draws until the code is not in use. There is no answer while the draws have not brought
one. -/
def generateUniqueCode (db : AccountDb p) : List (Fin 1000000) → Option String
  | [] => none
  | n :: draws =>
    if PasswordResetTokenRepository.existsByCodeHash db (p.sha256 (formatCode n)) then
      generateUniqueCode db draws
    else some (formatCode n)

/-- A token for the admin is stored and its code sent. -/
def issue (env : AccountEnv) (normalizedEmail code : String) (adminId : Id) (admin : Admin)
    (db : AccountDb p) : Except AccountError (Mail × AccountDb p) := do
  let db ← PasswordResetTokenRepository.insert
    { adminId := adminId
      requestedEmail := normalizedEmail
      codeHash := p.sha256 code
      createdAt := env.now
      expiresAt := env.now + codeTtl } db
  match env.mailError with
  | some message => .error (.mail message)
  | none => pure (⟨admin.email, code⟩, db)

/-- The answer is missing while no unused code has been drawn. An exception undoes what was
written to the database, not the attempts. -/
def requestReset (env : AccountEnv) (email : Option String) (server : Server p) :
    Option (Except AccountError (Option Mail) × Server p) :=
  let normalizedEmail := normalizeEmail p email
  let db := cleanupExpiredTokens env server.db
  match registerRequestAttempt env.now normalizedEmail server.attempts with
  | (.error e, attempts) => some (.error e, { server with attempts := attempts })
  | (.ok (), attempts) =>
    if maxRequestsPerHour ≤
        PasswordResetTokenRepository.countByRequestedEmailAndCreatedAtAfter db normalizedEmail
          (env.now - oneHour) then
      some (.error (.illegalArgument "RESET_REQUEST_LIMIT_REACHED"),
        { server with attempts := attempts })
    else
      match (AdminRepository.findByEmail db normalizedEmail).filter
          fun admin => admin.2.status = .active with
      | none => some (.ok none, ⟨db, attempts⟩)
      | some (adminId, admin) => do
        let code ← generateUniqueCode db env.draws
        match issue env normalizedEmail code adminId admin db with
        | .error e => some (.error e, { server with attempts := attempts })
        | .ok (mail, written) => some (.ok (some mail), ⟨written, attempts⟩)

/-! ### What the calls do -/

section Specs

variable {env : AccountEnv} {email : Option String} {code newPassword confirmNewPassword : String}
  {db db' : AccountDb p} {server server' : Server p} {n : Id} {token : PasswordResetToken}

/-- The token that the database has for an admin and a code. -/
theorem findByAdminAndCodeHash_eq_some {adminId : Id} {codeHash : String} :
    PasswordResetTokenRepository.findByAdminAndCodeHash db adminId codeHash = some (n, token) ↔
      db.tokens.get? n = some token ∧ p.collate token.codeHash = p.collate codeHash ∧
        token.adminId = adminId := by
  unfold PasswordResetTokenRepository.findByAdminAndCodeHash
  rw [Option.filter_eq_some_iff, UniqueTable.find?_eq_some, decide_eq_true_eq, and_assoc]

/-- The admin of an e-mail, if active. -/
def activeAdmin (db : AccountDb p) (email : Option String) : Option (Id × Admin) :=
  (AdminRepository.findByEmail db (normalizeEmail p email)).filter
    fun admin => admin.2.status = .active

theorem activeAdmin_eq_some {adminId : Id} {admin : Admin} :
    activeAdmin db email = some (adminId, admin) ↔
      db.admins.get? adminId = some admin ∧
        p.collate admin.email = p.collate (normalizeEmail p email) ∧ admin.status = .active := by
  unfold activeAdmin AdminRepository.findByEmail
  rw [Option.filter_eq_some_iff, UniqueTable.find?_eq_some, decide_eq_true_eq, and_assoc]

/-- The code is one of an unused, unexpired token of the active admin of the e-mail that has
not been guessed at too often. -/
structure Valid (env : AccountEnv) (email : Option String) (code : String) (db : AccountDb p)
    (n : Id) (token : PasswordResetToken) (admin : Admin) : Prop where
  ofAdmin : activeAdmin db email = some (token.adminId, admin)
  stored : db.tokens.get? n = some token
  hashed : p.collate token.codeHash = p.collate (p.sha256 code)
  unused : token.usedAt = none
  unexpired : env.now ≤ token.expiresAt
  unblocked : token.failedAttempts < maxFailedAttempts

/-- The lookup succeeds exactly on a valid code, and then writes nothing. -/
theorem findValidToken_ok {written : AccountDb p} :
    findValidToken env email code db = (.ok (n, token), written) ↔
      written = db ∧ ∃ admin, Valid env email code db n token admin := by
  have hactive : (AdminRepository.findByEmail db (normalizeEmail p email)).filter
      (fun admin => admin.2.status = .active) = activeAdmin db email := rfl
  unfold findValidToken
  rw [hactive]
  cases hadmin : activeAdmin db email with
  | none =>
    refine ⟨fun h => absurd h (by simp), fun ⟨_, _, hvalid⟩ => ?_⟩
    exact absurd (hadmin.symm.trans hvalid.ofAdmin) (by simp)
  | some found =>
    obtain ⟨adminId, admin⟩ := found
    dsimp only
    cases htoken : PasswordResetTokenRepository.findByAdminAndCodeHash db adminId
        (p.sha256 code) with
    | none =>
      refine ⟨fun h => ?_, fun ⟨_, _, hvalid⟩ => ?_⟩
      · dsimp only at h
        split at h <;> simp at h
      · have hid := (Prod.mk.inj (Option.some.inj (hadmin.symm.trans hvalid.ofAdmin))).1
        have hsome := findByAdminAndCodeHash_eq_some.mpr ⟨hvalid.stored, hvalid.hashed, hid.symm⟩
        exact absurd (htoken.symm.trans hsome) (by simp)
    | some row =>
      obtain ⟨id, t⟩ := row
      obtain ⟨hget, hcode, rfl⟩ := findByAdminAndCodeHash_eq_some.mp htoken
      dsimp only
      constructor
      · intro h
        split at h
        · simp at h
        · next hunused =>
          split at h
          · simp at h
          · next hunexpired =>
            split at h
            · simp at h
            · next hunblocked =>
              simp only [Prod.mk.injEq, Except.ok.injEq] at h
              obtain ⟨⟨rfl, rfl⟩, rfl⟩ := h
              exact ⟨rfl, admin, hadmin, hget, hcode, by simpa using hunused,
                Int.not_lt.mp hunexpired, Nat.not_le.mp hunblocked⟩
      · rintro ⟨rfl, admin', hvalid⟩
        -- the code hash is a unique key
        obtain rfl : id = n := written.tokens.unique hget hvalid.stored
          (hcode.trans hvalid.hashed.symm)
        obtain rfl : t = token := Option.some.inj (hget.symm.trans hvalid.stored)
        rw [if_neg (by simp [hvalid.unused]), if_neg (Int.not_lt.mpr hvalid.unexpired),
          if_neg (Nat.not_le.mpr hvalid.unblocked)]

theorem cleanup_tokens : (cleanupExpiredTokens env db).tokens.table =
    db.tokens.table.filter fun _ token => !decide (token.expiresAt < env.now - oneMinute) := rfl

theorem cleanup_admins : (cleanupExpiredTokens env db).admins = db.admins := rfl

theorem transactional_error {α : Type} {body : AccountDb p → Except AccountError α × AccountDb p}
    {e : AccountError} (h : (transactional body db).1 = .error e) :
    (transactional body db).2 = db := by
  unfold transactional at h ⊢
  split at h
  · exact absurd h (by simp)
  · rfl

theorem transactional_ok {α : Type} {body : AccountDb p → Except AccountError α × AccountDb p}
    {a : α} : transactional body db = (.ok a, db') ↔ body db = (.ok a, db') := by
  unfold transactional
  split
  · next hbody => rw [hbody]
  · next hbody => rw [hbody]; simp

/-- Verifying a code writes nothing, whatever it answers. -/
theorem verifyCode_db : (verifyCode env email code db).2 = db := by
  cases hanswer : verifyCode env email code db with
  | mk answer written =>
    cases answer with
    | error e =>
      have hundone := transactional_error (congrArg Prod.fst hanswer)
      rwa [show transactional _ db = _ from hanswer] at hundone
    | ok u =>
      have hbody := transactional_ok.mp hanswer
      dsimp only at hbody
      cases hfound : findValidToken env email code db with
      | mk found written' =>
        rw [hfound] at hbody
        obtain ⟨hmap, rfl⟩ := Prod.mk.inj hbody
        obtain ⟨⟨n, token⟩, rfl, -⟩ := map_eq_ok.mp hmap
        exact (findValidToken_ok.mp hfound).1

theorem verifyCode_ok : (verifyCode env email code db).1 = .ok () ↔
    ∃ n token admin, Valid env email code db n token admin := by
  constructor
  · intro h
    have hanswer : verifyCode env email code db = (.ok (), db) :=
      Prod.ext h verifyCode_db
    have hbody := transactional_ok.mp hanswer
    dsimp only at hbody
    cases hfound : findValidToken env email code db with
    | mk found written =>
      rw [hfound] at hbody
      obtain ⟨⟨n, token⟩, rfl, -⟩ := map_eq_ok.mp (Prod.mk.inj hbody).1
      obtain ⟨-, admin, hvalid⟩ := findValidToken_ok.mp hfound
      exact ⟨n, token, admin, hvalid⟩
  · rintro ⟨n, token, admin, hvalid⟩
    have hfound := findValidToken_ok.mpr ⟨rfl, admin, hvalid⟩
    have hanswer : verifyCode env email code db = (.ok (), db) := by
      refine transactional_ok.mpr ?_
      dsimp only
      rw [hfound]
      rfl
    rw [hanswer]

/-- What using a valid code leaves: a new password for the admin of the token, the token used
up, and the expired tokens gone. -/
structure Used (env : AccountEnv) (newPassword : String) (n : Id) (token : PasswordResetToken)
    (admin : Admin) (db db' : AccountDb p) : Prop where
  admins : db'.admins.table =
    db.admins.table.set token.adminId { admin with passwordHash := env.encode newPassword }
  tokens : db'.tokens.table = (db.tokens.table.set n { token with usedAt := some env.now }).filter
    fun _ token => !decide (token.expiresAt < env.now - oneMinute)

theorem usePassword_ok {admin : Admin} (hvalid : Valid env email code db n token admin) :
    ∃ db', usePassword env newPassword n token db = .ok db' ∧
      Used env newPassword n token admin db db' := by
  obtain ⟨hadmin, -, -⟩ := activeAdmin_eq_some.mp hvalid.ofAdmin
  obtain ⟨admins, hadmins, hadminTable⟩ := UniqueTable.set?_of_same
    (b := { admin with passwordHash := env.encode newPassword }) hadmin rfl
  obtain ⟨tokens, htokens, htokenTable⟩ := UniqueTable.set?_of_same
    (b := { token with usedAt := some env.now }) hvalid.stored rfl
  refine ⟨cleanupExpiredTokens env ⟨admins, tokens⟩, ?_, hadminTable, ?_⟩
  · simp only [usePassword, AdminRepository.save, PasswordResetTokenRepository.save, hadmin,
      hadmins, htokens, orThrow, bind, Except.bind, pure, Except.pure]
  · rw [cleanup_tokens, htokenTable]

theorem resetPassword_eq_ok :
    resetPassword env email code newPassword confirmNewPassword db = (.ok (), db') ↔
      newPassword = confirmNewPassword ∧ isStrongPassword newPassword = true ∧
        ∃ n token admin, Valid env email code db n token admin ∧
          usePassword env newPassword n token db = .ok db' := by
  unfold resetPassword
  rw [transactional_ok]
  by_cases hconfirmed : newPassword = confirmNewPassword
  · by_cases hstrong : isStrongPassword newPassword = true
    · rw [if_neg (not_not.mpr hconfirmed), if_neg (not_not.mpr hstrong)]
      constructor
      · intro h
        split at h
        · simp at h
        · next n token written hfound =>
          obtain ⟨rfl, admin, hvalid⟩ := findValidToken_ok.mp hfound
          split at h
          · simp at h
          · next hused =>
            obtain ⟨-, rfl⟩ := Prod.mk.inj h
            exact ⟨hconfirmed, hstrong, n, token, admin, hvalid, hused⟩
      · rintro ⟨-, -, n, token, admin, hvalid, hused⟩
        rw [findValidToken_ok.mpr ⟨rfl, admin, hvalid⟩]
        dsimp only
        rw [hused]
    · rw [if_neg (not_not.mpr hconfirmed), if_pos hstrong]
      exact ⟨fun h => absurd h (by simp), fun h => absurd h.2.1 hstrong⟩
  · rw [if_pos hconfirmed]
    exact ⟨fun h => absurd h (by simp), fun h => absurd h.1 hconfirmed⟩

/-- A password is reset exactly when it is confirmed, strong and comes with a valid code. -/
theorem resetPassword_ok :
    (resetPassword env email code newPassword confirmNewPassword db).1 = .ok () ↔
      newPassword = confirmNewPassword ∧ isStrongPassword newPassword = true ∧
        ∃ n token admin, Valid env email code db n token admin := by
  constructor
  · intro h
    obtain ⟨hconfirmed, hstrong, n, token, admin, hvalid, -⟩ :=
      resetPassword_eq_ok.mp (Prod.ext h rfl)
    exact ⟨hconfirmed, hstrong, n, token, admin, hvalid⟩
  · rintro ⟨hconfirmed, hstrong, n, token, admin, hvalid⟩
    obtain ⟨db', hused, -⟩ : ∃ db', usePassword env newPassword n token db = .ok db' ∧
        Used env newPassword n token admin db db' := usePassword_ok hvalid
    rw [resetPassword_eq_ok.mpr ⟨hconfirmed, hstrong, n, token, admin, hvalid, hused⟩]

/-- A password change that returns has used a valid code. -/
theorem resetPassword_used
    (h : resetPassword env email code newPassword confirmNewPassword db = (.ok (), db')) :
    ∃ n token admin, Valid env email code db n token admin ∧
      Used env newPassword n token admin db db' := by
  obtain ⟨-, -, n, token, admin, hvalid, hused⟩ := resetPassword_eq_ok.mp h
  obtain ⟨db₁, hused₁, hafter⟩ : ∃ db₁, usePassword env newPassword n token db = .ok db₁ ∧
      Used env newPassword n token admin db db₁ := usePassword_ok hvalid
  obtain rfl : db₁ = db' := Except.ok.inj (hused₁.symm.trans hused)
  exact ⟨n, token, admin, hvalid, hafter⟩

theorem resetPassword_error {e : AccountError}
    (h : (resetPassword env email code newPassword confirmNewPassword db).1 = .error e) :
    (resetPassword env email code newPassword confirmNewPassword db).2 = db :=
  transactional_error h

/-- The code that is drawn is not in use. -/
theorem generateUniqueCode_unused {draws : List (Fin 1000000)}
    (h : generateUniqueCode db draws = some code) :
    PasswordResetTokenRepository.existsByCodeHash db (p.sha256 code) = false ∧
      ∃ n ∈ draws, code = formatCode n := by
  induction draws with
  | nil => simp [generateUniqueCode] at h
  | cons n draws ih =>
    unfold generateUniqueCode at h
    split at h
    · obtain ⟨hunused, m, hm, hcode⟩ := ih h
      exact ⟨hunused, m, List.mem_cons_of_mem _ hm, hcode⟩
    · next hfree =>
      obtain rfl := Option.some.inj h
      exact ⟨by simpa using hfree, n, List.mem_cons_self, rfl⟩

/-- The token that a request stores. -/
def freshToken (env : AccountEnv) (p : Platform) (email : Option String) (code : String)
    (adminId : Id) : PasswordResetToken where
  adminId := adminId
  requestedEmail := normalizeEmail p email
  codeHash := p.sha256 code
  createdAt := env.now
  expiresAt := env.now + codeTtl

theorem issue_ok {adminId : Id} {admin : Admin} {mail : Mail}
    (h : issue env (normalizeEmail p email) code adminId admin db = .ok (mail, db')) :
    mail = ⟨admin.email, code⟩ ∧ db'.admins = db.admins ∧
      db'.tokens.table = db.tokens.table.insert (freshToken env p email code adminId) := by
  simp only [issue, PasswordResetTokenRepository.insert, bind_eq_ok, orThrow_eq_ok,
    pure_eq_ok] at h
  obtain ⟨written, ⟨tokens, hinsert, rfl⟩, h⟩ := h
  cases hmail : env.mailError with
  | some message =>
    rw [hmail] at h
    simp at h
  | none =>
    rw [hmail] at h
    obtain ⟨rfl, rfl⟩ := Prod.mk.inj (pure_eq_ok.mp h)
    exact ⟨rfl, rfl, (UniqueTable.insert?_eq_some.mp hinsert).2⟩

/-- What a request can do: be refused, which leaves the database alone; do nothing, for lack of
an active account; or issue a token for the account. -/
inductive Requested (env : AccountEnv) (email : Option String) (db db' : AccountDb p) :
    Except AccountError (Option Mail) → Prop
  | refused {e : AccountError} : db' = db → Requested env email db db' (.error e)
  | ignored : db' = cleanupExpiredTokens env db → Requested env email db db' (.ok none)
  | issued {adminId : Id} {admin : Admin} {code : String} :
      activeAdmin db email = some (adminId, admin) →
      generateUniqueCode (cleanupExpiredTokens env db) env.draws = some code →
      db'.admins = db.admins →
      db'.tokens.table = (cleanupExpiredTokens env db).tokens.table.insert
        (freshToken env p email code adminId) →
      Requested env email db db' (.ok (some ⟨admin.email, code⟩))

theorem requestReset_cases {answer : Except AccountError (Option Mail)}
    (h : requestReset env email server = some (answer, server')) :
    server'.attempts =
        (registerRequestAttempt env.now (normalizeEmail p email) server.attempts).2 ∧
      (∀ mail, answer = .ok mail →
        (registerRequestAttempt env.now (normalizeEmail p email) server.attempts).1 = .ok ()) ∧
      Requested env email server.db server'.db answer := by
  unfold requestReset at h
  dsimp only at h
  cases hregister : registerRequestAttempt env.now (normalizeEmail p email) server.attempts with
  | mk answer' attempts =>
    rw [hregister] at h
    cases answer' with
    | error e =>
      obtain ⟨rfl, rfl⟩ := Prod.mk.inj (Option.some.inj h)
      exact ⟨rfl, by simp, .refused rfl⟩
    | ok u =>
      dsimp only at h
      split at h
      · obtain ⟨rfl, rfl⟩ := Prod.mk.inj (Option.some.inj h)
        exact ⟨rfl, fun _ _ => rfl, .refused rfl⟩
      · split at h
        · obtain ⟨rfl, rfl⟩ := Prod.mk.inj (Option.some.inj h)
          exact ⟨rfl, fun _ _ => rfl, .ignored rfl⟩
        · next adminId admin hadmin =>
          obtain ⟨code, hcode, h⟩ := Option.bind_eq_some_iff.mp h
          split at h
          · obtain ⟨rfl, rfl⟩ := Prod.mk.inj (Option.some.inj h)
            exact ⟨rfl, fun _ _ => rfl, .refused rfl⟩
          · next mail written hissue =>
            obtain ⟨rfl, rfl⟩ := Prod.mk.inj (Option.some.inj h)
            obtain ⟨rfl, hadmins, htokens⟩ := issue_ok hissue
            exact ⟨rfl, fun _ _ => rfl, .issued hadmin hcode hadmins htokens⟩

end Specs

end CarRental.PasswordResetService
