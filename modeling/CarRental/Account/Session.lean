import Mathlib.Logic.Equiv.Nat
import CarRental.Account.Login
import CarRental.Account.ResetLimit

/-!
# CarRental.Account.Session

**What an authenticated request says about its account**, over whole runs.

A token is handed out to an active account and names it by its e-mail of that
moment. It is accepted for a day, whatever becomes of the account in the meantime:
the account may have been disabled, or have another e-mail by then
(`authenticated_disabled`). `authenticated_active` says what an authenticated
request does guarantee, and that it guarantees an active account in runs that
disable or rename no account while it has an unexpired token.
-/

namespace CarRental

open Lib PasswordResetService

variable {p : Platform} {jwt : Jwt} {env : AccountEnv} {db db' : AccountDb p}

/-! ### Runs -/

/-- The requests to `AuthController` and `AdminController` that write. -/
inductive AccountCall
  | login (email password : String)
  | create (fullName email : String) (phone : Option String) (password confirmPassword : String)
  | update (id : Id) (fullName email : String) (phone : Option String)
  | toggleStatus (id : Id) (status : Option String)
  | changePassword (id : Id) (currentPassword newPassword confirmNewPassword : String)

/-- The controller that serves it. -/
def AccountCall.exec (jwt : Jwt) (env : AccountEnv) (db : AccountDb p) :
    AccountCall → Except AccountError (AccountResponse × AccountDb p)
  | .login email password => AuthController.login jwt env email password db
  | .create fullName email phone password confirmPassword =>
    AdminController.create env fullName email phone password confirmPassword db
  | .update id fullName email phone => AdminController.update id fullName email phone db
  | .toggleStatus id status => AdminController.toggleStatus id status db
  | .changePassword id currentPassword newPassword confirmNewPassword =>
    AdminController.changePassword env id currentPassword newPassword confirmNewPassword db

/-- A token that was handed out: to whom, when, and how the account was then. -/
structure Grant where
  token : String
  adminId : Id
  admin : Admin
  time : LocalDateTime

/-- The last moment at which the token is accepted. -/
def Grant.expiration (g : Grant) : LocalDateTime := g.time + JwtProvider.expiration

/-- A state of a run: the time of the last call, the accounts and the tokens handed out. -/
structure Accounts (p : Platform) where
  clock : LocalDateTime
  db : AccountDb p
  grants : List Grant

/-- The token an answer hands out, with the account it is for. -/
def granted (env : AccountEnv) (db : AccountDb p) : AccountResponse → List Grant
  | .loggedIn token id _ _ =>
    ((db.admins.get? id).map fun admin => ⟨token, id, admin, env.now⟩).toList
  | _ => []

/-- The accounts after a call; one that throws leaves them as they are. -/
def AccountCall.after (jwt : Jwt) (env : AccountEnv) (call : AccountCall) (s : Accounts p) :
    Accounts p :=
  match call.exec jwt env s.db with
  | .ok (response, db) => ⟨env.now, db, s.grants ++ granted env s.db response⟩
  | .error _ => { s with clock := env.now }

/-- The runs from any accounts, before any token, whose calls all meet `P`. -/
inductive Running (jwt : Jwt) (P : Accounts p → AccountEnv → AccountCall → Prop) :
    Accounts p → Prop
  | start (clock : LocalDateTime) (db : AccountDb p) : Running jwt P ⟨clock, db, []⟩
  | call {s : Accounts p} {env : AccountEnv} {call : AccountCall} :
      Running jwt P s → s.clock ≤ env.now → P s env call →
      Running jwt P (call.after jwt env s)

/-! ### Tokens and the filter -/

/-- A signature stands for one set of claims. -/
theorem Jwt.sign_injective (jwt : Jwt) {c c' : Claims} (h : jwt.sign c = jwt.sign c') :
    c = c' := by
  have hc : jwt.parse (min c.expiration c'.expiration) (jwt.sign c') = some c :=
    (jwt.parse_iff _ _ _).mpr ⟨h, Int.min_le_left _ _⟩
  have hc' : jwt.parse (min c.expiration c'.expiration) (jwt.sign c') = some c' :=
    (jwt.parse_iff _ _ _).mpr ⟨rfl, Int.min_le_right _ _⟩
  exact Option.some.inj (hc.symm.trans hc')

/-- The filter reads the token after the word that announces it. -/
theorem authenticate_bearer (jwt : Jwt) (now : LocalDateTime) (token : String) :
    authenticate jwt now (some ("Bearer " ++ token)) =
      (jwt.parse now token).map Claims.subject := by
  have hlist : ("Bearer " ++ token).toList = "Bearer ".toList ++ token.toList :=
    String.toList_append
  have htext : hasText ("Bearer " ++ token) = true := by
    simp [hasText, hlist]
  have hdrop : String.ofList (("Bearer " ++ token).toList.drop 7) = token := by
    rw [hlist, show 7 = "Bearer ".toList.length from rfl, List.drop_left, String.ofList_toList]
  have hstart : "Bearer ".toList.isPrefixOf ("Bearer " ++ token).toList = true := by
    rw [hlist, List.isPrefixOf_iff_prefix]
    exact List.prefix_append _ _
  unfold authenticate
  dsimp only
  rw [htext, hstart, hdrop]
  unfold JwtProvider.validateToken JwtProvider.getEmailFromToken
  cases jwt.parse now token <;> rfl

/-- A token of the server is accepted until it expires, for the e-mail it was made for. -/
theorem authenticate_generated {now time : LocalDateTime} {email principal : String} :
    authenticate jwt now (some ("Bearer " ++ JwtProvider.generateToken jwt time email)) =
        some principal ↔
      principal = email ∧ now ≤ time + JwtProvider.expiration := by
  rw [authenticate_bearer, Option.map_eq_some_iff]
  constructor
  · rintro ⟨claims, hparse, rfl⟩
    obtain ⟨hsign, hnow⟩ := (jwt.parse_iff _ _ _).mp hparse
    obtain rfl := jwt.sign_injective hsign
    exact ⟨rfl, hnow⟩
  · rintro ⟨rfl, hnow⟩
    exact ⟨JwtProvider.claims time principal, (jwt.parse_iff _ _ _).mpr ⟨rfl, hnow⟩, rfl⟩

/-! ### What a call does to an account -/

variable {k id : Id} {admin old new : Admin} {call : AccountCall} {response : AccountResponse}

theorem AdminRepository.save_row (h : AdminRepository.save id new db = .ok db')
    (hid : db.admins.get? id = some old) (hk : db.admins.get? k = some admin) :
    (k = id ∧ admin = old ∧ db'.admins.get? k = some new) ∨
      (k ≠ id ∧ db'.admins.get? k = some admin) := by
  simp only [AdminRepository.save, bind_eq_ok, orThrow_eq_ok, pure_eq_ok] at h
  obtain ⟨admins, hset, rfl⟩ := h
  have htable := (UniqueTable.set?_eq_some.mp hset).2
  have hold : db.admins.table.get? id = some old := hid
  have hadmin : db.admins.table.get? k = some admin := hk
  have hrow : admins.get? k = if k = id then some new else some admin := by
    rw [UniqueTable.get?, htable, Table.get?_set, hold, hadmin, Option.map_some]
  by_cases hkid : k = id
  · subst hkid
    rw [if_pos rfl] at hrow
    exact Or.inl ⟨rfl, Option.some.inj (hk.symm.trans hid), hrow⟩
  · rw [if_neg hkid] at hrow
    exact Or.inr ⟨hkid, hrow⟩

/-- The ways in which a call changes the e-mail and the status of the account `k`. -/
inductive AccountMove (p : Platform) (k : Id) (admin new : Admin) : AccountCall → Prop
  | kept {call : AccountCall} (email : new.email = admin.email)
      (status : new.status = admin.status) : AccountMove p k admin new call
  | updated {fullName email : String} {phone : Option String}
      (renamed : new.email = p.toLowerCase email) (status : new.status = admin.status) :
      AccountMove p k admin new (.update k fullName email phone)
  | toggled {text : Option String} {status : AdminStatus}
      (parsed : text.bind (AdminController.parseStatus p) = some status)
      (email : new.email = admin.email) (toggled : new.status = status) :
      AccountMove p k admin new (.toggleStatus k text)

/-- No account is removed, and each one changes only as the call may change it. -/
def AccountsMove (db db' : AccountDb p) (call : AccountCall) : Prop :=
  ∀ k admin, db.admins.get? k = some admin →
    ∃ admin', db'.admins.get? k = some admin' ∧ AccountMove p k admin admin' call

namespace AccountsMove

/-- An answer given without a write. -/
theorem answered {r : AccountResponse}
    (h : (pure (r, db) : Except AccountError (AccountResponse × AccountDb p)) =
      .ok (response, db')) : AccountsMove db db' call := by
  obtain ⟨-, rfl⟩ := Prod.mk.inj (pure_eq_ok.mp h)
  exact fun k admin hk => ⟨admin, hk, .kept rfl rfl⟩

/-- An answer given after the row that was loaded has been saved. -/
theorem saved {r : AccountResponse}
    (h : (do
      let db ← AdminRepository.save id new db
      pure (r, db)) = .ok (response, db'))
    (hid : db.admins.get? id = some old) (hmove : AccountMove p id old new call) :
    AccountsMove db db' call := by
  obtain ⟨db₁, hsave, hresult⟩ := bind_eq_ok.mp h
  obtain ⟨-, rfl⟩ := Prod.mk.inj (pure_eq_ok.mp hresult)
  intro k admin hk
  rcases AdminRepository.save_row hsave hid hk with ⟨rfl, rfl, hrow⟩ | ⟨-, hrow⟩
  · exact ⟨new, hrow, hmove⟩
  · exact ⟨admin, hrow, .kept rfl rfl⟩

/-- An answer given after a row has been appended. -/
theorem created {r : AccountResponse} {fullName email rawPassword : String}
    {phone : Option String}
    (h : (do
      let db ← AdminService.createAdmin env fullName email phone rawPassword db
      pure (r, db)) = .ok (response, db')) : AccountsMove db db' call := by
  obtain ⟨db₁, hcreate, hresult⟩ := bind_eq_ok.mp h
  obtain ⟨-, rfl⟩ := Prod.mk.inj (pure_eq_ok.mp hresult)
  simp only [AdminService.createAdmin, bind_eq_ok, orThrow_eq_ok, pure_eq_ok] at hcreate
  obtain ⟨admins, hinsert, rfl⟩ := hcreate
  intro k admin hk
  have hrow : admins.get? k = some admin := by
    rw [UniqueTable.get?, (UniqueTable.insert?_eq_some.mp hinsert).2]
    exact Table.get?_insert_of_get? hk
  exact ⟨admin, hrow, .kept rfl rfl⟩

end AccountsMove

theorem AdminService.findByEmail_row {email : String}
    (h : AdminService.findByEmail db email = some (id, admin)) : db.admins.get? id = some admin :=
  (UniqueTable.find?_eq_some.mp (show db.admins.find? _ = some (id, admin) from h)).1

/-- Only two of the calls change the e-mail or the status of an account. -/
theorem AccountCall.exec_move (hexec : call.exec jwt env db = .ok (response, db')) :
    AccountsMove db db' call := by
  cases call with
  | login email password =>
    simp only [AccountCall.exec, AuthController.login] at hexec
    split at hexec
    · exact .answered hexec
    · next id old hfind =>
      split at hexec
      · exact .answered hexec
      split at hexec
      · exact .answered hexec
      exact .saved hexec (AdminService.findByEmail_row hfind) (.kept rfl rfl)
  | create fullName email phone password confirmPassword =>
    simp only [AccountCall.exec, AdminController.create] at hexec
    split at hexec
    · exact .answered hexec
    split at hexec
    · exact .answered hexec
    exact .created hexec
  | update id fullName email phone =>
    simp only [AccountCall.exec, AdminController.update] at hexec
    split at hexec
    · exact .answered hexec
    · next old hid =>
      split at hexec
      · exact .answered hexec
      exact .saved hexec hid (.updated rfl rfl)
  | toggleStatus id text =>
    simp only [AccountCall.exec, AdminController.toggleStatus] at hexec
    split at hexec
    · exact .answered hexec
    · next old hid =>
      split at hexec
      · exact .answered hexec
      · next status hparsed => exact .saved hexec hid (.toggled hparsed rfl rfl)
  | changePassword id currentPassword newPassword confirmNewPassword =>
    simp only [AccountCall.exec, AdminController.changePassword] at hexec
    split at hexec
    · exact .answered hexec
    · next old hid =>
      split at hexec
      · exact .answered hexec
      split at hexec
      · exact .answered hexec
      exact .saved hexec hid (.kept rfl rfl)

/-! ### Tokens that were handed out -/

/-- A token is handed out by a login, to an active account under its e-mail. -/
theorem AccountCall.exec_loggedIn {token fullName email : String}
    (hexec : call.exec jwt env db = .ok (.loggedIn token id fullName email, db')) :
    ∃ admin typed password, db.admins.get? id = some admin ∧ admin.status = .active ∧
      token = JwtProvider.generateToken jwt env.now admin.email ∧
      call = .login typed password := by
  cases call with
  | login typed password =>
    simp only [AccountCall.exec, AuthController.login] at hexec
    split at hexec
    · simp at hexec
    · next id' admin hfind =>
      split at hexec
      · simp at hexec
      · next hactive =>
        split at hexec
        · simp at hexec
        · obtain ⟨db₁, -, hresult⟩ := bind_eq_ok.mp hexec
          obtain ⟨hanswer, -⟩ := Prod.mk.inj (pure_eq_ok.mp hresult)
          obtain ⟨rfl, rfl, -, -⟩ := AccountResponse.loggedIn.inj hanswer
          exact ⟨admin, typed, password, AdminService.findByEmail_row hfind,
            not_not.mp hactive, rfl, rfl⟩
  | create =>
    simp only [AccountCall.exec, AdminController.create] at hexec
    split_ifs at hexec <;> simp [-bind_pure_comp] at hexec
  | update =>
    simp only [AccountCall.exec, AdminController.update] at hexec
    split at hexec
    · simp at hexec
    · split_ifs at hexec <;> simp [-bind_pure_comp] at hexec
  | toggleStatus =>
    simp only [AccountCall.exec, AdminController.toggleStatus] at hexec
    split at hexec
    · simp at hexec
    · split at hexec <;> simp [-bind_pure_comp] at hexec
  | changePassword =>
    simp only [AccountCall.exec, AdminController.changePassword] at hexec
    split at hexec
    · simp at hexec
    · split_ifs at hexec <;> simp [-bind_pure_comp] at hexec

/-- What is known of a token that was handed out. -/
structure Grant.Issued (jwt : Jwt) (clock : LocalDateTime) (g : Grant) : Prop where
  token : g.token = JwtProvider.generateToken jwt g.time g.admin.email
  active : g.admin.status = .active
  time : g.time ≤ clock

theorem Grant.Issued.later {g : Grant} {clock now : LocalDateTime} (h : g.Issued jwt clock)
    (hnow : clock ≤ now) : g.Issued jwt now :=
  ⟨h.token, h.active, Int.le_trans h.time hnow⟩

/-- A token handed out by a call: the account is active, and the call leaves it so. -/
theorem AccountCall.granted_spec {g : Grant} (hexec : call.exec jwt env db = .ok (response, db'))
    (hg : g ∈ granted env db response) :
    g.Issued jwt env.now ∧ ∃ admin, db'.admins.get? g.adminId = some admin ∧
      admin.email = g.admin.email ∧ admin.status = .active := by
  cases response with
  | loggedIn token id fullName email =>
    obtain ⟨admin, typed, password, hid, hactive, rfl, rfl⟩ := AccountCall.exec_loggedIn hexec
    simp only [granted, hid, Option.map_some, Option.toList_some, List.mem_singleton] at hg
    subst hg
    refine ⟨⟨rfl, hactive, Int.le_refl _⟩, ?_⟩
    obtain ⟨admin', hrow, hmove⟩ := AccountCall.exec_move hexec id admin hid
    cases hmove with
    | kept email status => exact ⟨admin', hrow, email, status.trans hactive⟩
  | refused | notFound | done => simp [granted] at hg

theorem AccountCall.after_clock (jwt : Jwt) (env : AccountEnv) (call : AccountCall)
    (s : Accounts p) : (call.after jwt env s).clock = env.now := by
  unfold AccountCall.after
  split <;> rfl

/-- A call that throws leaves the accounts as they are. -/
theorem AccountCall.after_db (jwt : Jwt) (env : AccountEnv) (call : AccountCall)
    (s : Accounts p) :
    (call.after jwt env s).db = s.db ∨
      ∃ response, call.exec jwt env s.db = .ok (response, (call.after jwt env s).db) := by
  unfold AccountCall.after
  split
  · next response db' hexec => exact Or.inr ⟨response, hexec⟩
  · exact Or.inl rfl

/-- A token was handed out before the call or by it. -/
theorem AccountCall.mem_after {s : Accounts p} {g : Grant}
    (hg : g ∈ (call.after jwt env s).grants) :
    g ∈ s.grants ∨ ∃ response, g ∈ granted env s.db response ∧
      call.exec jwt env s.db = .ok (response, (call.after jwt env s).db) := by
  unfold AccountCall.after at hg ⊢
  split at hg
  · next response db' hexec =>
    exact (List.mem_append.mp hg).imp_right fun hnew => ⟨response, hnew, hexec⟩
  · exact Or.inl hg

/-! ### Every run -/

variable {P : Accounts p → AccountEnv → AccountCall → Prop} {s : Accounts p}

theorem Running.issued (h : Running jwt P s) : ∀ g ∈ s.grants, g.Issued jwt s.clock := by
  induction h with
  | start => simp
  | @call s env call _ hclock _ ih =>
    intro g hg
    rw [AccountCall.after_clock]
    rcases AccountCall.mem_after hg with hold | ⟨response, hnew, hexec⟩
    · exact (ih g hold).later hclock
    · exact (AccountCall.granted_spec hexec hnew).1

/-- The call, if it succeeds, disables or renames no account that has an unexpired token. -/
def Undisturbed (jwt : Jwt) (s : Accounts p) (env : AccountEnv) (call : AccountCall) : Prop :=
  ∀ result, call.exec jwt env s.db = .ok result → ∀ g ∈ s.grants, env.now ≤ g.expiration →
    match call with
    | .update id _ email _ => id = g.adminId →
      ∀ admin, s.db.admins.get? id = some admin → p.toLowerCase email = admin.email
    | .toggleStatus id status => id = g.adminId →
      status.bind (AdminController.parseStatus p) ≠ some .disabled
    | _ => True

/-- The account of the token is active and has the e-mail it was handed out under. -/
def Grant.Current (db : AccountDb p) (g : Grant) : Prop :=
  ∃ admin, db.admins.get? g.adminId = some admin ∧ admin.email = g.admin.email ∧
    admin.status = .active

/-- A call that does not disturb the token's account keeps it current. -/
theorem Grant.Current.after {g : Grant} (h : g.Current s.db) (hg : g ∈ s.grants)
    (hlive : env.now ≤ g.expiration) (hcall : Undisturbed jwt s env call) :
    g.Current (call.after jwt env s).db := by
  rcases call.after_db jwt env s with hsame | ⟨response, hexec⟩
  · rw [hsame]
    exact h
  obtain ⟨admin, hrow, hemail, hactive⟩ := h
  obtain ⟨admin', hrow', hmove⟩ := AccountCall.exec_move hexec g.adminId admin hrow
  have hquiet := hcall _ hexec g hg hlive
  refine ⟨admin', hrow', ?_⟩
  cases hmove with
  | kept email status => exact ⟨email.trans hemail, status.trans hactive⟩
  | updated renamed status =>
    exact ⟨renamed.trans ((hquiet rfl admin hrow).trans hemail), status.trans hactive⟩
  | @toggled text status parsed email toggled =>
    refine ⟨email.trans hemail, toggled.trans ?_⟩
    cases status with
    | active => rfl
    | disabled => exact absurd parsed (hquiet rfl)

theorem Running.current (h : Running jwt (Undisturbed jwt) s) :
    ∀ g ∈ s.grants, s.clock ≤ g.expiration → g.Current s.db := by
  induction h with
  | start => simp
  | @call s env call _ hclock hcall ih =>
    intro g hg hlive
    rw [AccountCall.after_clock] at hlive
    rcases AccountCall.mem_after hg with hold | ⟨response, hnew, hexec⟩
    · exact (ih g hold (Int.le_trans hclock hlive)).after hold hlive hcall
    · exact (AccountCall.granted_spec hexec hnew).2

/-- **An authenticated request** speaks for the account its token was handed out to, as
the account was then: active, under that e-mail, at most a day ago. It speaks for the
account as it is if no account with an unexpired token was disabled or renamed. -/
theorem authenticated_active (h : Running jwt P s) {g : Grant} (hg : g ∈ s.grants)
    {now : LocalDateTime} (hnow : s.clock ≤ now) {principal : String}
    (hauth : authenticate jwt now (some ("Bearer " ++ g.token)) = some principal) :
    (principal = g.admin.email ∧ g.admin.status = .active ∧
      g.time ≤ now ∧ now ≤ g.time + JwtProvider.expiration) ∧
    (Running jwt (Undisturbed jwt) s → ∃ admin, s.db.admins.get? g.adminId = some admin ∧
      principal = admin.email ∧ admin.status = .active) := by
  have hissued := h.issued g hg
  rw [hissued.token] at hauth
  obtain ⟨rfl, hlive⟩ := authenticate_generated.mp hauth
  refine ⟨⟨rfl, hissued.active, Int.le_trans hissued.time hnow, hlive⟩, fun hquiet => ?_⟩
  obtain ⟨admin, hrow, hemail, hactive⟩ := hquiet.current g hg (Int.le_trans hnow hlive)
  exact ⟨admin, hrow, hemail.symm, hactive⟩

/-! ### A run -/

namespace PlainJwt

/-- A time in unary, closed by a dot. -/
def stroke (t : LocalDateTime) : List Char :=
  List.replicate (Equiv.intEquivNat t) '1' ++ ['.']

/-- How many strokes the text begins with. -/
def strokes (cs : List Char) : Nat := (cs.takeWhile (· = '1')).length

theorem strokes_stroke (t : LocalDateTime) (cs : List Char) :
    strokes (stroke t ++ cs) = Equiv.intEquivNat t := by
  have hall : ∀ c ∈ List.replicate (Equiv.intEquivNat t) '1', decide (c = '1') = true := by
    intro c hc
    simp [List.eq_of_mem_replicate hc]
  rw [strokes, stroke, List.append_assoc, List.takeWhile_append_of_pos hall]
  simp

theorem drop_stroke (t : LocalDateTime) (cs : List Char) :
    (stroke t ++ cs).drop (Equiv.intEquivNat t + 1) = cs := by
  have hlength : (stroke t).length = Equiv.intEquivNat t + 1 := by simp [stroke]
  rw [← hlength, List.drop_left]

/-- A token that can be read back: two times, then the e-mail. -/
def sign (claims : Claims) : String :=
  String.ofList (stroke claims.issuedAt ++ (stroke claims.expiration ++ claims.subject.toList))

/-- What such a token says. -/
def read (token : String) : Claims :=
  let issued := strokes token.toList
  let rest := token.toList.drop (issued + 1)
  let expires := strokes rest
  { subject := String.ofList (rest.drop (expires + 1))
    issuedAt := Equiv.intEquivNat.symm issued
    expiration := Equiv.intEquivNat.symm expires }

theorem read_sign (claims : Claims) : read (sign claims) = claims := by
  simp only [read, sign, String.toList_ofList, strokes_stroke, drop_stroke,
    String.ofList_toList, Equiv.symm_apply_apply]

end PlainJwt

/-- Tokens that are their claims in plain text. They meet the law of the library; that
others cannot make them is no part of it. -/
def plainJwt : Jwt where
  sign := PlainJwt.sign
  parse := fun now token =>
    if PlainJwt.sign (PlainJwt.read token) = token ∧ now ≤ (PlainJwt.read token).expiration
    then some (PlainJwt.read token) else none
  parse_iff := by
    intro now token claims
    constructor
    · intro h
      split at h
      · next hvalid =>
        obtain rfl := Option.some.inj h
        exact hvalid
      · exact absurd h (by simp)
    · rintro ⟨rfl, hnow⟩
      rw [PlainJwt.read_sign, if_pos ⟨rfl, hnow⟩]

/-- The accounts once the holder of the only one has logged in. -/
def signedIn (jwt : Jwt) : Accounts accentBlind :=
  (AccountCall.login "Gerant@agence.test" "").after jwt (.atTime 0 [])
    ⟨0, (serverWith (some onlyAdmin)).db, []⟩

theorem signedIn_running (P : Accounts accentBlind → AccountEnv → AccountCall → Prop)
    (hP : P ⟨0, (serverWith (some onlyAdmin)).db, []⟩ (.atTime 0 [])
      (.login "Gerant@agence.test" "")) : Running jwt P (signedIn jwt) :=
  .call (.start 0 _) (Int.le_refl 0) hP

/-- The token of that login. -/
def firstGrant (jwt : Jwt) : Grant :=
  ⟨JwtProvider.generateToken jwt 0 "gerant@agence.test", 1, onlyAdmin, 0⟩

theorem signedIn_grants (jwt : Jwt) : (signedIn jwt).grants = [firstGrant jwt] := rfl

/-- The account gets another e-mail and is then disabled. -/
def renamedDisabled (jwt : Jwt) : Accounts accentBlind :=
  (AccountCall.toggleStatus 1 (some "DISABLED")).after jwt (.atTime 7200 [])
    ((AccountCall.update 1 "Gerant" "gerance@agence.test" none).after jwt (.atTime 3600 [])
      (signedIn jwt))

theorem renamedDisabled_account (jwt : Jwt) : (renamedDisabled jwt).db.admins.get? 1 =
    some { onlyAdmin with
      email := "gerance@agence.test", status := .disabled, lastLogin := some 0 } := rfl

/-- The token still speaks for the e-mail the account no longer has, and for an account
that is disabled. -/
theorem authenticated_disabled :
    Running plainJwt (fun _ _ _ => True) (renamedDisabled plainJwt) ∧
    (renamedDisabled plainJwt).clock = 7200 ∧
    ∃ g ∈ (renamedDisabled plainJwt).grants, ∃ admin,
      (renamedDisabled plainJwt).db.admins.get? g.adminId = some admin ∧
      admin.email = "gerance@agence.test" ∧ admin.status = .disabled ∧
      authenticate plainJwt 7200 (some ("Bearer " ++ g.token)) = some "gerant@agence.test" := by
  refine ⟨?_, rfl, firstGrant plainJwt, List.mem_cons_self, _, renamedDisabled_account plainJwt,
    rfl, rfl, authenticate_generated.mpr ⟨rfl, by decide⟩⟩
  have hin : Running plainJwt (fun _ _ _ => True) (signedIn plainJwt) := signedIn_running _ trivial
  have hrenamed : Running plainJwt (fun _ _ _ => True)
      ((AccountCall.update 1 "Gerant" "gerance@agence.test" none).after plainJwt (.atTime 3600 [])
        (signedIn plainJwt)) := hin.call (show (0 : Int) ≤ 3600 by decide) trivial
  exact hrenamed.call (show (3600 : Int) ≤ 7200 by decide) trivial

/-- Within the day, and with the account left alone, the token speaks for the account. -/
theorem authenticated_active_signedIn :
    ∃ admin, (signedIn plainJwt).db.admins.get? (firstGrant plainJwt).adminId = some admin ∧
      "gerant@agence.test" = admin.email ∧ admin.status = .active := by
  have hquiet : Running plainJwt (Undisturbed plainJwt) (signedIn plainJwt) :=
    signedIn_running _ fun _ _ g hg => absurd hg (by simp)
  have hg : firstGrant plainJwt ∈ (signedIn plainJwt).grants := by
    rw [signedIn_grants]
    exact List.mem_singleton_self _
  have hauth : authenticate plainJwt 100 (some ("Bearer " ++ (firstGrant plainJwt).token)) =
      some "gerant@agence.test" := authenticate_generated.mpr ⟨rfl, by decide⟩
  exact (authenticated_active hquiet hg (show (0 : Int) ≤ 100 by decide) hauth).2 hquiet

end CarRental
