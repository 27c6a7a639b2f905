import CarRental.Account.ResetSafety
import CarRental.Account.Session

/-!
# CarRental.Account.Site

The **accounts as a site**: every request that can touch an account, in any order, with
the gate of `SecurityConfig` in front and restarts of the application in between.

Logging in and the three steps of a password reset are open to everybody. Everything
under `/api/admins` needs a bearer token that the filter accepts. A restart forgets the
attempts in memory and runs `AdminInitializer`, which creates an account if there is none.
The only thing assumed of the outside world is that a token the filter accepts has been
handed out before: nobody else has the key.

* `lockout_permanent`: once all accounts are disabled and all tokens have expired, no
  request and no restart ever changes an account again.
* `password_provenance`: the password of an account changes by a request that presents the
  current one, or by a code that was mailed to the account at most ten minutes before.
-/

namespace CarRental

open Lib PasswordResetService

variable {p : Platform} {jwt : Jwt} {env : AccountEnv}

/-! ### The first account -/

/-- The account that is built in, for installations that allow it. -/
structure FallbackAdmin where
  email : String
  phone : String
  password : String

/-- What `AdminInitializer` reads: the three `INITIAL_ADMIN_` variables, and the built-in
account if `app.security.allow-fallback-admin` is set. -/
structure InitialAdmin where
  email : Option String
  password : Option String
  name : Option String
  fallback : Option FallbackAdmin

namespace AdminInitializer

/-- `AdminInitializer.run`: an empty table gets an account, from the environment or as the source
has it. -/
def run (initial : InitialAdmin) (env : AccountEnv) (db : AccountDb p) :
    Except AccountError (AccountDb p) :=
  if db.admins.table.rows.length = 0 then
    match initial.email, initial.password with
    | some email, some password =>
      AdminService.createAdmin env (initial.name.getD "Administrateur") email (some "") password db
    | _, _ =>
      match initial.fallback with
      | some admin =>
        AdminService.createAdmin env "Administrateur Principal" admin.email (some admin.phone)
          admin.password db
      | none => pure db
  else pure db

end AdminInitializer

/-! ### Requests -/

/-- What reaches the site. -/
inductive SiteCall
  /-- A request to `AuthController` or `AdminController`, with its `Authorization` header. -/
  | account (header : Option String) (call : AccountCall)
  | reset (call : ResetCall)
  | restart (initial : InitialAdmin)

/-- What it answers. -/
inductive SiteAnswer
  /-- The gate lets the request not pass. -/
  | denied
  | account (answer : Except AccountError AccountResponse)
  | reset (answer : Except AccountError (Option Mail))
  | restarted (answer : Except AccountError Unit)

/-- Does `SecurityConfig` let the request pass? -/
def AccountCall.permitted (jwt : Jwt) (now : LocalDateTime) (header : Option String) :
    AccountCall → Bool
  | .login _ _ => true
  | _ => (authenticate jwt now header).isSome

/-- The running application with its history, and the tokens it has handed out. -/
structure Site (p : Platform) where
  watch : Watch p
  grants : List Grant

namespace Site

/-- The time of the last request. -/
abbrev clock (s : Site p) : LocalDateTime := s.watch.clock

/-- The tables of the accounts. -/
abbrev db (s : Site p) : AccountDb p := s.watch.server.db

/-- The site at a later time, with another database. -/
def moved (s : Site p) (now : LocalDateTime) (db : AccountDb p) : Site p :=
  { s with watch := { s.watch with clock := now, server.db := db } }

end Site

/-- The answer and the site after it; a reset request that is still looking for an unused code
has not answered yet. -/
def SiteCall.exec (jwt : Jwt) (env : AccountEnv) (s : Site p) :
    SiteCall → Option (SiteAnswer × Site p)
  | .account header call =>
    if call.permitted jwt env.now header then
      match call.exec jwt env s.db with
      | .ok (response, db) =>
        some (.account (.ok response),
          { s.moved env.now db with grants := s.grants ++ granted env s.db response })
      | .error e => some (.account (.error e), s.moved env.now s.db)
    else some (.denied, s.moved env.now s.db)
  | .reset call => do
    let (answer, server) ← call.exec env s.watch.server
    some (.reset answer,
      { s with watch :=
          ⟨env.now, server, s.watch.history ++ call.events env s.watch.server answer⟩ })
  | .restart initial =>
    let forgotten : Site p := { s with watch.server.attempts := fun _ => [] }
    match AdminInitializer.run initial env s.db with
    | .ok db => some (.restarted (.ok ()), forgotten.moved env.now db)
    | .error e => some (.restarted (.error e), forgotten.moved env.now s.db)

/-- A token that the filter accepts has been handed out. -/
def SiteCall.Unforged (jwt : Jwt) (env : AccountEnv) (s : Site p) : SiteCall → Prop
  | .account (some header) _ => ∀ principal, authenticate jwt env.now (some header) =
      some principal → ∃ g ∈ s.grants, header = "Bearer " ++ g.token
  | _ => True

/-- One request with its answer, not before the last one. -/
structure SiteStep (jwt : Jwt) (label : AccountEnv × SiteCall × SiteAnswer) (s s' : Site p) :
    Prop where
  clock : s.clock ≤ label.1.now
  unforged : label.2.1.Unforged jwt label.1 s
  exec : label.2.1.exec jwt label.1 s = some (label.2.2, s')

/-- The sites that requests lead to, from any accounts. -/
def SiteReachable (jwt : Jwt) (s : Site p) : Prop :=
  ∃ labels clock admins, Trace (SiteStep jwt) labels
    ⟨⟨clock, ⟨⟨admins, .empty⟩, fun _ => []⟩, []⟩, []⟩ s

/-! ### What a request does -/

section Moves

variable {s s' : Site p}

/-- What a request that was answered has done. -/
inductive SiteMove (jwt : Jwt) (env : AccountEnv) (s s' : Site p) : SiteCall → SiteAnswer → Prop
  | denied {header : Option String} {call : AccountCall} :
      call.permitted jwt env.now header = false → s' = s.moved env.now s.db →
      SiteMove jwt env s s' (.account header call) .denied
  | failed {header : Option String} {call : AccountCall} {e : AccountError} :
      call.permitted jwt env.now header = true → call.exec jwt env s.db = .error e →
      s' = s.moved env.now s.db →
      SiteMove jwt env s s' (.account header call) (.account (.error e))
  | answered {header : Option String} {call : AccountCall} {response : AccountResponse}
      {db' : AccountDb p} : call.permitted jwt env.now header = true →
      call.exec jwt env s.db = .ok (response, db') →
      s' = { s.moved env.now db' with grants := s.grants ++ granted env s.db response } →
      SiteMove jwt env s s' (.account header call) (.account (.ok response))
  | reset {call : ResetCall} {answer : Except AccountError (Option Mail)} {server' : Server p} :
      call.exec env s.watch.server = some (answer, server') →
      s' = { s with watch :=
        ⟨env.now, server', s.watch.history ++ call.events env s.watch.server answer⟩ } →
      SiteMove jwt env s s' (.reset call) (.reset answer)
  | restarted {initial : InitialAdmin} {db' : AccountDb p} :
      AdminInitializer.run initial env s.db = .ok db' →
      s' = { s with watch := ⟨env.now, ⟨db', fun _ => []⟩, s.watch.history⟩ } →
      SiteMove jwt env s s' (.restart initial) (.restarted (.ok ()))

/-- The first account can be stored: no e-mail is taken in an empty table. -/
theorem AdminService.createAdmin_first {db : AccountDb p} (h : db.admins.table.rows = [])
    (env : AccountEnv) (fullName email : String) (phone : Option String) (rawPassword : String) :
    ∃ db', AdminService.createAdmin env fullName email phone rawPassword db = .ok db' := by
  have hfree : ∀ i admin, db.admins.get? i = some admin → False := by
    intro i admin hi
    have hmem := Table.mem_rows.mpr hi
    rw [h] at hmem
    exact List.not_mem_nil hmem
  obtain ⟨admins, hadmins⟩ := db.admins.insert?_of_unused
    (a := { fullName := fullName, email := p.toLowerCase email, phone := phone,
            passwordHash := env.encode rawPassword, createdAt := env.now })
    fun i admin hi => (hfree i admin hi).elim
  refine ⟨{ db with admins := admins }, ?_⟩
  simp only [AdminService.createAdmin, hadmins, orThrow]
  rfl

/-- The initializer does not fail, and does nothing once there is an account. -/
theorem AdminInitializer.run_cases (initial : InitialAdmin) (env : AccountEnv)
    (db : AccountDb p) :
    AdminInitializer.run initial env db = .ok db ∨
      (db.admins.table.rows = [] ∧ ∃ fullName email phone password db',
        AdminInitializer.run initial env db = .ok db' ∧
        AdminService.createAdmin env fullName email phone password db = .ok db') := by
  unfold AdminInitializer.run
  split
  · next hcount =>
    have hrows := List.length_eq_zero_iff.mp hcount
    split
    · next email password _ _ =>
      obtain ⟨db', hcreate⟩ := AdminService.createAdmin_first hrows env
        (initial.name.getD "Administrateur") email (some "") password
      exact Or.inr ⟨hrows, _, _, _, _, db', hcreate, hcreate⟩
    · split
      · next admin _ =>
        obtain ⟨db', hcreate⟩ := AdminService.createAdmin_first hrows env
          "Administrateur Principal" admin.email (some admin.phone) admin.password
        exact Or.inr ⟨hrows, _, _, _, _, db', hcreate, hcreate⟩
      · exact Or.inl rfl
  · exact Or.inl rfl

theorem SiteCall.exec_move {call : SiteCall} {answer : SiteAnswer}
    (h : call.exec jwt env s = some (answer, s')) : SiteMove jwt env s s' call answer := by
  cases call with
  | account header call =>
    simp only [SiteCall.exec] at h
    split at h
    · next hpermitted =>
      cases hexec : call.exec jwt env s.db with
      | error e =>
        rw [hexec] at h
        obtain ⟨rfl, rfl⟩ := Prod.mk.inj (Option.some.inj h)
        exact .failed hpermitted hexec rfl
      | ok result =>
        rw [hexec] at h
        obtain ⟨rfl, rfl⟩ := Prod.mk.inj (Option.some.inj h)
        exact .answered hpermitted hexec rfl
    · next hdenied =>
      obtain ⟨rfl, rfl⟩ := Prod.mk.inj (Option.some.inj h)
      exact .denied (Bool.not_eq_true _ ▸ hdenied) rfl
  | reset call =>
    obtain ⟨⟨answer', server'⟩, hexec, h⟩ := Option.bind_eq_some_iff.mp h
    obtain ⟨rfl, rfl⟩ := Prod.mk.inj (Option.some.inj h)
    exact .reset hexec rfl
  | restart initial =>
    have hrun : ∃ db', AdminInitializer.run initial env s.db = .ok db' := by
      rcases AdminInitializer.run_cases initial env s.db with hrun | ⟨-, _, _, _, _, db', hrun, -⟩
      · exact ⟨_, hrun⟩
      · exact ⟨db', hrun⟩
    obtain ⟨db', hrun⟩ := hrun
    simp only [SiteCall.exec, hrun] at h
    obtain ⟨rfl, rfl⟩ := Prod.mk.inj (Option.some.inj h)
    exact .restarted hrun rfl

/-- A request that passes the gate and does not fail. -/
theorem SiteStep.of_account {header : Option String} {call : AccountCall}
    {response : AccountResponse} {db' : AccountDb p} (hclock : s.clock ≤ env.now)
    (hunforged : (SiteCall.account header call).Unforged jwt env s)
    (hpermitted : call.permitted jwt env.now header = true)
    (hexec : call.exec jwt env s.db = .ok (response, db')) :
    SiteStep jwt (env, .account header call, .account (.ok response)) s
      { s.moved env.now db' with grants := s.grants ++ granted env s.db response } := by
  refine ⟨hclock, hunforged, ?_⟩
  simp only [SiteCall.exec, hpermitted, if_true, hexec]

theorem SiteMove.clock_eq {call : SiteCall} {answer : SiteAnswer}
    (h : SiteMove jwt env s s' call answer) : s'.clock = env.now := by
  cases h with
  | denied _ hs' | failed _ _ hs' | answered _ _ hs' | reset _ hs' | restarted _ hs' =>
    subst hs'
    rfl

end Moves

/-! ### What a request writes to the accounts -/

section Writes

variable {db db' : AccountDb p} {k id : Id} {admin old new : Admin} {call : AccountCall}
  {response : AccountResponse}

/-- The password stays, unless the call changes it and presents the current one. -/
def AccountCall.Keeps (p : Platform) (env : AccountEnv) (id : Id) (old new : Admin)
    (call : AccountCall) : Prop :=
  new.passwordHash = old.passwordHash ∨ ∃ current password,
    call = .changePassword id current password password ∧
      p.passwordMatches current old.passwordHash = true ∧
      new.passwordHash = env.encode password

/-- A call saves at most one row, or appends one. -/
inductive AccountCall.Writes (env : AccountEnv) (db db' : AccountDb p) (call : AccountCall) : Prop
  | nothing : db' = db → AccountCall.Writes env db db' call
  | saved {id : Id} {old new : Admin} : db.admins.get? id = some old →
      AdminRepository.save id new db = .ok db' → call.Keeps p env id old new →
      AccountCall.Writes env db db' call
  | created {fullName email : String} {phone : Option String} {password : String} :
      AdminService.createAdmin env fullName email phone password db = .ok db' →
      AccountCall.Writes env db db' call

namespace AccountCall.Writes

theorem of_answered {r : AccountResponse}
    (h : (pure (r, db) : Except AccountError (AccountResponse × AccountDb p)) =
      .ok (response, db')) : call.Writes env db db' :=
  .nothing (Prod.mk.inj (pure_eq_ok.mp h)).2.symm

theorem of_saved {r : AccountResponse}
    (h : (do
      let db ← AdminRepository.save id new db
      pure (r, db)) = .ok (response, db'))
    (hid : db.admins.get? id = some old) (hkeeps : call.Keeps p env id old new) :
    call.Writes env db db' := by
  obtain ⟨db₁, hsave, hresult⟩ := bind_eq_ok.mp h
  obtain ⟨-, rfl⟩ := Prod.mk.inj (pure_eq_ok.mp hresult)
  exact .saved hid hsave hkeeps

end AccountCall.Writes

theorem AccountCall.exec_writes (hexec : call.exec jwt env db = .ok (response, db')) :
    call.Writes env db db' := by
  cases call with
  | login email password =>
    simp only [AccountCall.exec, AuthController.login] at hexec
    split at hexec
    · exact .of_answered hexec
    · next id old hfind =>
      split at hexec
      · exact .of_answered hexec
      split at hexec
      · exact .of_answered hexec
      exact .of_saved hexec (AdminService.findByEmail_row hfind) (Or.inl rfl)
  | create fullName email phone password confirmPassword =>
    simp only [AccountCall.exec, AdminController.create] at hexec
    split at hexec
    · exact .of_answered hexec
    split at hexec
    · exact .of_answered hexec
    obtain ⟨db₁, hcreate, hresult⟩ := bind_eq_ok.mp hexec
    obtain ⟨-, rfl⟩ := Prod.mk.inj (pure_eq_ok.mp hresult)
    exact .created hcreate
  | update id fullName email phone =>
    simp only [AccountCall.exec, AdminController.update] at hexec
    split at hexec
    · exact .of_answered hexec
    · next old hid =>
      split at hexec
      · exact .of_answered hexec
      exact .of_saved hexec hid (Or.inl rfl)
  | toggleStatus id text =>
    simp only [AccountCall.exec, AdminController.toggleStatus] at hexec
    split at hexec
    · exact .of_answered hexec
    · next old hid =>
      split at hexec
      · exact .of_answered hexec
      exact .of_saved hexec hid (Or.inl rfl)
  | changePassword id currentPassword newPassword confirmNewPassword =>
    simp only [AccountCall.exec, AdminController.changePassword] at hexec
    split at hexec
    · exact .of_answered hexec
    · next old hid =>
      split at hexec
      · exact .of_answered hexec
      · next hcurrent =>
        split at hexec
        · exact .of_answered hexec
        · next hconfirmed =>
          -- the only branch that changes a password has seen the current one
          obtain rfl := not_not.mp hconfirmed
          exact .of_saved hexec hid (Or.inr ⟨_, _, rfl, not_not.mp hcurrent, rfl⟩)

theorem AdminRepository.save_tokens (h : AdminRepository.save id new db = .ok db') :
    db'.tokens = db.tokens := by
  simp only [AdminRepository.save, bind_eq_ok, orThrow_eq_ok, pure_eq_ok] at h
  obtain ⟨admins, -, rfl⟩ := h
  rfl

theorem AdminService.createAdmin_spec {fullName email password : String} {phone : Option String}
    (h : AdminService.createAdmin env fullName email phone password db = .ok db') :
    db'.tokens = db.tokens ∧
      ∀ k admin, db.admins.get? k = some admin → db'.admins.get? k = some admin := by
  simp only [AdminService.createAdmin, bind_eq_ok, orThrow_eq_ok, pure_eq_ok] at h
  obtain ⟨admins, hinsert, rfl⟩ := h
  refine ⟨rfl, fun k admin hk => ?_⟩
  rw [UniqueTable.get?, (UniqueTable.insert?_eq_some.mp hinsert).2]
  exact Table.get?_insert_of_get? hk

/-- A restart leaves the accounts that it finds. -/
theorem AdminInitializer.run_keeps {initial : InitialAdmin}
    (h : AdminInitializer.run initial env db = .ok db') : db'.tokens = db.tokens ∧
      ∀ k admin, db.admins.get? k = some admin → db'.admins.get? k = some admin := by
  rcases AdminInitializer.run_cases initial env db with hsame | ⟨-, _, _, _, _, db₁, hok, hnew⟩
  · obtain rfl := Except.ok.inj (h.symm.trans hsame)
    exact ⟨rfl, fun _ _ hk => hk⟩
  · obtain rfl := Except.ok.inj (h.symm.trans hok)
    exact AdminService.createAdmin_spec hnew

theorem AccountCall.Writes.tokens (h : call.Writes env db db') : db'.tokens = db.tokens := by
  cases h with
  | nothing h => rw [h]
  | saved _ hsave _ => exact AdminRepository.save_tokens hsave
  | created hcreate => exact (AdminService.createAdmin_spec hcreate).1

/-- Every account is still there, and its password was changed as the call may change it. -/
theorem AccountCall.Writes.account (h : call.Writes env db db')
    (hk : db.admins.get? k = some admin) :
    ∃ admin', db'.admins.get? k = some admin' ∧ call.Keeps p env k admin admin' := by
  cases h with
  | nothing h => exact ⟨admin, h ▸ hk, Or.inl rfl⟩
  | saved hid hsave hkeeps =>
    rcases AdminRepository.save_row hsave hid hk with ⟨rfl, rfl, hrow⟩ | ⟨-, hrow⟩
    · exact ⟨_, hrow, hkeeps⟩
    · exact ⟨admin, hrow, Or.inl rfl⟩
  | created hcreate =>
    exact ⟨admin, (AdminService.createAdmin_spec hcreate).2 k admin hk, Or.inl rfl⟩

end Writes

/-! ### Every run -/

section Runs

variable {s s' : Site p} {call : SiteCall} {answer : SiteAnswer}

/-- What the codes and tokens that were handed out have to do with the history. -/
structure Site.Sound (jwt : Jwt) (s : Site p) : Prop where
  codes : PasswordResetService.Sound Set.univ s.watch
  grants : ∀ g ∈ s.grants, g.Issued jwt s.clock

/-- The codes are as sound as before when their tokens are the same. -/
theorem Site.Sound.same_tokens (h : s.Sound jwt) (hclock : s.clock ≤ env.now) {db' : AccountDb p}
    (htokens : db'.tokens = s.db.tokens) (attempts : String → List LocalDateTime) :
    PasswordResetService.Sound Set.univ ⟨env.now, ⟨db', attempts⟩, s.watch.history⟩ := by
  have hidle : PasswordResetService.Sound Set.univ
      ⟨env.now, ⟨db', attempts⟩, s.watch.history ++ []⟩ :=
    h.codes.idle hclock (fun _ => rfl) (fun n token hn => by rwa [htokens] at hn)
      (by rw [htokens])
  rwa [List.append_nil] at hidle

/-- What a call to the reset endpoints does to the codes. -/
theorem ResetCall.exec_sound {w : Watch p} {codes : Set String} {call : ResetCall}
    {answer : Except AccountError (Option Mail)} {server' : Server p}
    (h : PasswordResetService.Sound codes w) (hclock : w.clock ≤ env.now)
    (hdraws : ∀ n ∈ env.draws, formatCode n ∈ codes)
    (hexec : call.exec env w.server = some (answer, server')) :
    PasswordResetService.Sound codes
      ⟨env.now, server', w.history ++ call.events env w.server answer⟩ := by
  cases ResetCall.exec_moved hexec with
  | idle hdb hevents =>
    refine h.idle hclock (resets_missed hevents) (fun n token hn => ?_) ?_
    · rcases hdb with hdb | hdb
      · rwa [hdb] at hn
      · rw [hdb] at hn
        exact (UniqueTable.get?_filter_eq_some.mp hn).1
    · rcases hdb with hdb | hdb
      · rw [hdb]
      · rw [hdb]
        rfl
  | issued _ hcode _ htokens hevents =>
    rw [hevents]
    obtain ⟨-, n, hn, rfl⟩ := generateUniqueCode_unused hcode
    exact h.insert hclock (hdraws n hn) htokens
  | reset hvalid hused hevents =>
    rw [hevents]
    exact h.use hclock hvalid hused

theorem SiteStep.sound (hstep : SiteStep jwt (env, call, answer) s s') (h : s.Sound jwt) :
    s'.Sound jwt := by
  have hold : ∀ g ∈ s.grants, g.Issued jwt env.now := fun g hg =>
    (h.grants g hg).later hstep.clock
  cases SiteCall.exec_move hstep.exec with
  | denied _ hs' | failed _ _ hs' =>
    subst hs'
    exact ⟨h.same_tokens hstep.clock rfl _, hold⟩
  | answered _ hexec hs' =>
    subst hs'
    refine ⟨h.same_tokens hstep.clock (AccountCall.exec_writes hexec).tokens _, fun g hg => ?_⟩
    rcases List.mem_append.mp hg with hg | hg
    · exact hold g hg
    · exact (AccountCall.granted_spec hexec hg).1
  | reset hexec hs' =>
    subst hs'
    exact ⟨ResetCall.exec_sound h.codes hstep.clock (fun _ _ => Set.mem_univ _) hexec, hold⟩
  | restarted hrun hs' =>
    subst hs'
    exact ⟨h.same_tokens hstep.clock (AdminInitializer.run_keeps hrun).1 _, hold⟩

theorem SiteReachable.sound (h : SiteReachable jwt s) : s.Sound jwt := by
  obtain ⟨labels, clock, admins, hrun⟩ := h
  refine hrun.invariant (fun label _ _ _ hstep => hstep.sound) ⟨?_, by simp⟩
  exact (Watched.start clock admins).sound

end Runs

/-! ### The holder of the only account -/

/-- The site with one account, before any request. -/
def oneAccount : Site accentBlind := ⟨⟨0, serverWith (some onlyAdmin), []⟩, []⟩

/-- The site once the holder of the account has logged in. -/
def signedInSite (jwt : Jwt) : Site accentBlind :=
  { oneAccount.moved 0 (signedIn jwt).db with grants := [firstGrant jwt] }

theorem signedInSite_step (jwt : Jwt) : SiteStep jwt
    (.atTime 0 [], .account none (.login "Gerant@agence.test" ""),
      .account (.ok (.loggedIn (firstGrant jwt).token 1 "Gerant" "gerant@agence.test")))
    oneAccount (signedInSite jwt) := ⟨Int.le_refl 0, trivial, rfl⟩

theorem signedInSite_reachable (jwt : Jwt) : SiteReachable jwt (signedInSite jwt) :=
  ⟨_, 0, (serverWith (some onlyAdmin)).db.admins, .single (signedInSite_step jwt)⟩

/-- A request of the holder, within the day. -/
theorem signedInSite_request (jwt : Jwt) (env : AccountEnv) (call : AccountCall)
    {response : AccountResponse} {db' : AccountDb accentBlind}
    (hnow : 0 ≤ env.now) (hday : env.now ≤ 86400)
    (hexec : call.exec jwt env (signedIn jwt).db = .ok (response, db'))
    (hgranted : granted env (signedIn jwt).db response = []) :
    SiteStep jwt
      (env, .account (some ("Bearer " ++ (firstGrant jwt).token)) call, .account (.ok response))
      (signedInSite jwt) ((signedInSite jwt).moved env.now db') := by
  have hauth : authenticate jwt env.now (some ("Bearer " ++ (firstGrant jwt).token)) =
      some "gerant@agence.test" :=
    authenticate_generated.mpr ⟨rfl, by simpa [JwtProvider.expiration] using hday⟩
  have hpermitted :
      call.permitted jwt env.now (some ("Bearer " ++ (firstGrant jwt).token)) = true := by
    cases call <;> simp [AccountCall.permitted, hauth]
  have hunforged : (SiteCall.account (some ("Bearer " ++ (firstGrant jwt).token)) call).Unforged
      jwt env (signedInSite jwt) := fun _ _ => ⟨firstGrant jwt, List.mem_singleton_self _, rfl⟩
  have hstep := SiteStep.of_account hnow hunforged hpermitted hexec
  rwa [show (signedInSite jwt).db = (signedIn jwt).db from rfl, hgranted, List.append_nil] at hstep

/-! ### Where a password comes from -/

section Provenance

variable {s s' : Site p} {call : SiteCall} {answer : SiteAnswer} {k : Id} {admin : Admin}

/-- The request presents a token that was handed out within the last day, and the current
password of the account. -/
def ChangedByHolder (s : Site p) (env : AccountEnv) (k : Id) (admin : Admin) (password : String)
    (call : SiteCall) : Prop :=
  ∃ g ∈ s.grants, ∃ current, g.admin.status = .active ∧ env.now ≤ g.expiration ∧
    p.passwordMatches current admin.passwordHash = true ∧
    call = .account (some ("Bearer " ++ g.token)) (.changePassword k current password password)

/-- The account is active, and the request presents the code of a token that was issued to it
within the last ten minutes and that nobody has used. -/
def ChangedByCode (s : Site p) (env : AccountEnv) (k : Id) (admin : Admin) (password : String)
    (call : SiteCall) : Prop :=
  ∃ email code n mailed time, admin.status = .active ∧
    Event.issued n k mailed time ∈ s.watch.history ∧
    p.collate (p.sha256 code) = p.collate (p.sha256 mailed) ∧
    env.now - codeTtl ≤ time ∧ time ≤ env.now ∧ resets n s.watch.history = [] ∧
    call = .reset (.confirm email code password password)

/-- A request to an endpoint of the accounts that passes the gate carries a token. -/
theorem AccountCall.permitted_grant {header : Option String} {call : AccountCall}
    (hlogin : ∀ email password, call ≠ .login email password)
    (hpermitted : call.permitted jwt env.now header = true)
    (hunforged : (SiteCall.account header call).Unforged jwt env s) :
    ∃ g ∈ s.grants, header = some ("Bearer " ++ g.token) ∧
      (jwt.parse env.now g.token).isSome := by
  have hauth : (authenticate jwt env.now header).isSome := by
    cases call with
    | login email password => exact absurd rfl (hlogin email password)
    | create | update | toggleStatus | changePassword => exact hpermitted
  cases header with
  | none => exact absurd hauth (by simp [authenticate])
  | some text =>
    obtain ⟨principal, hprincipal⟩ := Option.isSome_iff_exists.mp hauth
    obtain ⟨g, hg, rfl⟩ := hunforged principal hprincipal
    rw [authenticate_bearer, Option.isSome_map] at hauth
    exact ⟨g, hg, rfl, hauth⟩

/-- A token that was handed out is read until it expires. -/
theorem Grant.Issued.parse_isSome {g : Grant} {clock now : LocalDateTime}
    (h : g.Issued jwt clock) : (jwt.parse now g.token).isSome ↔ now ≤ g.expiration := by
  rw [h.token, Option.isSome_iff_exists]
  constructor
  · rintro ⟨claims, hparse⟩
    obtain ⟨hsign, hnow⟩ := (jwt.parse_iff _ _ _).mp hparse
    obtain rfl := jwt.sign_injective hsign
    exact hnow
  · intro hnow
    exact ⟨JwtProvider.claims g.time g.admin.email, (jwt.parse_iff _ _ _).mpr ⟨rfl, hnow⟩⟩

/-- What a call to the reset endpoints does to an account. -/
theorem ResetCall.exec_account {server server' : Server p} {call : ResetCall}
    {answer : Except AccountError (Option Mail)}
    (hexec : call.exec env server = some (answer, server'))
    (hk : server.db.admins.get? k = some admin) :
    server'.db.admins.get? k = some admin ∨
      ∃ email code password n token, call = .confirm email code password password ∧
        Valid env email code server.db n token admin ∧ token.adminId = k ∧
        server'.db.admins.get? k = some { admin with passwordHash := env.encode password } := by
  by_cases hcall : (∃ e, answer = .error e) ∨
      ∀ email code new confirm, call ≠ .confirm email code new confirm
  · rw [ResetCall.exec_admins hexec hcall]
    exact Or.inl hk
  · simp only [not_or, not_exists, not_forall, not_not] at hcall
    obtain ⟨hanswer, email, code, new, confirm, rfl⟩ := hcall
    dsimp only [ResetCall.exec] at hexec
    cases hreset : resetPassword env email code new confirm server.db with
    | mk result db' =>
      rw [hreset] at hexec
      obtain ⟨rfl, rfl⟩ := Prod.mk.inj (Option.some.inj hexec)
      cases result with
      | error e => exact absurd rfl (hanswer e)
      | ok u =>
        obtain ⟨rfl, -⟩ := resetPassword_eq_ok.mp hreset
        obtain ⟨n, token, owner, hvalid, hused⟩ := resetPassword_used hreset
        have howner := (activeAdmin_eq_some.mp hvalid.ofAdmin).1
        by_cases hid : token.adminId = k
        · subst hid
          obtain rfl := Option.some.inj (hk.symm.trans howner)
          refine Or.inr ⟨email, code, new, n, token, rfl, hvalid, rfl, ?_⟩
          rw [UniqueTable.get?, hused.admins]
          exact Table.get?_set_self howner
        · refine Or.inl ?_
          rw [UniqueTable.get?, hused.admins]
          exact (Table.get?_set_ne (Ne.symm hid)).trans hk

/-- **Where a password comes from**, whatever requests and restarts came before. No account is
ever removed. Its password changes in two ways only: its holder presents a token of the last day
together with the current password, or somebody presents a code that was mailed to the account
within the last ten minutes, and then for the first time. -/
theorem password_provenance (h : SiteReachable jwt s)
    (hstep : SiteStep jwt (env, call, answer) s s') (hk : s.db.admins.get? k = some admin) :
    ∃ admin', s'.db.admins.get? k = some admin' ∧
      (admin'.passwordHash = admin.passwordHash ∨
        ∃ password, admin'.passwordHash = env.encode password ∧
          (ChangedByHolder s env k admin password call ∨
            ChangedByCode s env k admin password call)) := by
  have hsound := h.sound
  cases SiteCall.exec_move hstep.exec with
  | denied _ hs' | failed _ _ hs' =>
    subst hs'
    exact ⟨admin, hk, Or.inl rfl⟩
  | answered hpermitted hexec hs' =>
    subst hs'
    obtain ⟨admin', hk', hkeeps⟩ := (AccountCall.exec_writes hexec).account hk
    refine ⟨admin', hk', hkeeps.imp_right ?_⟩
    rintro ⟨current, password, rfl, hcurrent, hnew⟩
    obtain ⟨g, hg, rfl, hparse⟩ :=
      AccountCall.permitted_grant (by simp) hpermitted hstep.unforged
    have hissued := hsound.grants g hg
    exact ⟨password, hnew, Or.inl ⟨g, hg, current, hissued.active,
      hissued.parse_isSome.mp hparse, hcurrent, rfl⟩⟩
  | reset hexec hs' =>
    subst hs'
    rcases ResetCall.exec_account hexec hk with
      hsame | ⟨email, code, password, n, token, rfl, hvalid, rfl, hnew⟩
    · exact ⟨admin, hsame, Or.inl rfl⟩
    · refine ⟨_, hnew, Or.inr ⟨password, rfl, Or.inr ?_⟩⟩
      obtain ⟨mailed, -, hmem, hhash⟩ := hsound.codes.issued n token hvalid.stored
      obtain ⟨hexpires, hcreated⟩ := hsound.codes.lifetime n token hvalid.stored
      have hunexpired := hvalid.unexpired
      rw [hexpires] at hunexpired
      refine ⟨email, code, n, mailed, token.createdAt,
        (activeAdmin_eq_some.mp hvalid.ofAdmin).2.2, hmem, ?_,
        Int.sub_right_le_of_le_add hunexpired, Int.le_trans hcreated hstep.clock,
        hsound.codes.unused n token hvalid.stored hvalid.unused, rfl⟩
      rw [← hhash]
      exact hvalid.hashed.symm
  | restarted hrun hs' =>
    subst hs'
    exact ⟨admin, (AdminInitializer.run_keeps hrun).2 k admin hk, Or.inl rfl⟩

/-- The holder of the account changes the password. -/
theorem password_provenance_signedIn :
    ∃ s' : Site accentBlind, (∃ admin', s'.db.admins.get? 1 = some admin' ∧
        admin'.passwordHash = "Motdepasse1!") ∧
      ∃ password, ChangedByHolder (signedInSite plainJwt) (.atTime 60 []) 1
        { onlyAdmin with lastLogin := some 0 } password
        (.account (some ("Bearer " ++ (firstGrant plainJwt).token))
          (.changePassword 1 "" "Motdepasse1!" "Motdepasse1!")) := by
  have hstep := signedInSite_request plainJwt (.atTime 60 [])
    (.changePassword 1 "" "Motdepasse1!" "Motdepasse1!") (by decide) (by decide) rfl rfl
  obtain ⟨admin', hk, hchanged⟩ := password_provenance (k := 1)
    (signedInSite_reachable plainJwt) hstep rfl
  have hhash : admin'.passwordHash = "Motdepasse1!" := by
    obtain rfl := Option.some.inj hk
    rfl
  refine ⟨_, ⟨admin', hk, hhash⟩, ?_⟩
  rcases hchanged with hsame | ⟨password, -, hholder | ⟨_, _, _, _, _, _, _, _, _, _, _, hcall⟩⟩
  · rw [hhash] at hsame
    exact absurd hsame (by decide)
  · exact ⟨password, hholder⟩
  · exact absurd hcall (by simp)

end Provenance

/-! ### Locked out -/

section Lockout

variable {s s' : Site p} {call : SiteCall} {answer : SiteAnswer}

/-- There are accounts, all of them disabled, and every token has expired. -/
structure Site.Locked (s : Site p) : Prop where
  exists_account : ∃ k admin, s.db.admins.get? k = some admin
  disabled : ∀ k admin, s.db.admins.get? k = some admin → admin.status = .disabled
  expired : ∀ g ∈ s.grants, g.expiration < s.clock

/-- The request gets nothing: it is stopped at the gate, the login or the code is refused, or no
mail is sent. A restart goes as usual. -/
def SiteCall.Turned : SiteCall → SiteAnswer → Prop
  | .account _ (.login _ _), .account (.ok (.refused _ _)) => True
  | .account _ _, .denied => True
  | .reset (.request _), .reset (.ok none) => True
  | .reset _, .reset (.error _) => True
  | .restart _, .restarted (.ok ()) => True
  | _, _ => False

theorem Site.Locked.not_active (h : s.Locked) (email : Option String) :
    activeAdmin s.db email = none := by
  cases hadmin : activeAdmin s.db email with
  | none => rfl
  | some found =>
    obtain ⟨hrow, -, hactive⟩ := activeAdmin_eq_some.mp hadmin
    exact absurd (hactive.symm.trans (h.disabled _ _ hrow)) (by simp)

theorem Site.Locked.invalid (h : s.Locked) {email : Option String} {code : String} {n : Id}
    {token : PasswordResetToken} {admin : Admin} : ¬ Valid env email code s.db n token admin := by
  intro hvalid
  exact absurd (hvalid.ofAdmin.symm.trans (h.not_active email)) (by simp)

/-- Nobody can log in. -/
theorem Site.Locked.login (h : s.Locked) (jwt : Jwt) (env : AccountEnv)
    (email password : String) :
    ∃ status body, (AccountCall.login email password).exec jwt env s.db =
      .ok (.refused status body, s.db) := by
  simp only [AccountCall.exec, AuthController.login]
  cases hfind : AdminService.findByEmail s.db email with
  | none => exact ⟨_, _, rfl⟩
  | some found =>
    have hdisabled := h.disabled _ _ (AdminService.findByEmail_row hfind)
    refine ⟨403, "Compte désactivé", ?_⟩
    simp [hdisabled, pure, Except.pure]

/-- Nothing but a login passes the gate. -/
theorem Site.Locked.stopped (h : s.Locked) (hsound : s.Sound jwt) (hclock : s.clock ≤ env.now)
    {header : Option String} {call : AccountCall}
    (hlogin : ∀ email password, call ≠ .login email password)
    (hunforged : (SiteCall.account header call).Unforged jwt env s) :
    call.permitted jwt env.now header = false := by
  by_contra hpermitted
  obtain ⟨g, hg, -, hparse⟩ :=
    AccountCall.permitted_grant hlogin (by simpa using hpermitted) hunforged
  have hlive := (hsound.grants g hg).parse_isSome.mp hparse
  exact absurd (Int.le_trans hclock hlive) (Int.not_le.mpr (h.expired g hg))

/-- No code is sent, and none is accepted. -/
theorem Site.Locked.reset (h : s.Locked) {call : ResetCall}
    {result : Except AccountError (Option Mail)} {server' : Server p}
    (hexec : call.exec env s.watch.server = some (result, server')) :
    server'.db.admins = s.db.admins ∧ SiteCall.Turned (.reset call) (.reset result) := by
  cases call with
  | request email =>
    obtain ⟨-, -, hrequested⟩ := requestReset_cases hexec
    cases hrequested with
    | refused hdb => exact ⟨by rw [hdb], trivial⟩
    | ignored hdb => exact ⟨by rw [hdb, cleanup_admins], trivial⟩
    | issued hadmin => exact absurd (hadmin.symm.trans (h.not_active email)) (by simp)
  | verify email code =>
    refine ⟨ResetCall.exec_admins hexec (Or.inr (by simp)), ?_⟩
    cases hanswer : (verifyCode env email code s.db).1 with
    | error e =>
      simp only [ResetCall.exec, hanswer, Option.some.injEq, Prod.mk.injEq] at hexec
      obtain ⟨rfl, -⟩ := hexec
      trivial
    | ok u =>
      obtain ⟨n, token, admin, hvalid⟩ := verifyCode_ok.mp hanswer
      exact absurd hvalid h.invalid
  | confirm email code newPassword confirmNewPassword =>
    cases hanswer : (resetPassword env email code newPassword confirmNewPassword s.db).1 with
    | error e =>
      have herror : result = .error e := by
        simp only [ResetCall.exec, hanswer, Option.some.injEq, Prod.mk.injEq] at hexec
        exact hexec.1.symm
      subst herror
      exact ⟨ResetCall.exec_admins hexec (Or.inl ⟨e, rfl⟩), trivial⟩
    | ok u =>
      obtain ⟨-, -, n, token, admin, hvalid⟩ := resetPassword_ok.mp hanswer
      exact absurd hvalid h.invalid

/-- A restart finds accounts, and so creates none. -/
theorem Site.Locked.restart (h : s.Locked) (initial : InitialAdmin) :
    AdminInitializer.run initial env s.db = .ok s.db := by
  rcases AdminInitializer.run_cases initial env s.db with hsame | ⟨hrows, -⟩
  · exact hsame
  · obtain ⟨k, admin, hk⟩ := h.exists_account
    have hmem := Table.mem_rows.mpr hk
    rw [hrows] at hmem
    exact absurd hmem List.not_mem_nil

theorem Site.Locked.step (h : s.Locked) (hsound : s.Sound jwt)
    (hstep : SiteStep jwt (env, call, answer) s s') :
    s'.db.admins = s.db.admins ∧ s'.grants = s.grants ∧ call.Turned answer := by
  cases SiteCall.exec_move hstep.exec with
  | @denied header call _ hs' =>
    subst hs'
    refine ⟨rfl, rfl, ?_⟩
    cases call <;> trivial
  | @failed header call e hpermitted hexec hs' =>
    cases call with
    | login email password =>
      obtain ⟨status, body, hlogin⟩ := h.login jwt env email password
      exact absurd (hexec.symm.trans hlogin) (by simp)
    | create | update | toggleStatus | changePassword =>
      have hstopped := h.stopped hsound hstep.clock (by simp) hstep.unforged
      exact absurd (hpermitted.symm.trans hstopped) (by simp)
  | @answered header call response db' hpermitted hexec hs' =>
    cases call with
    | login email password =>
      obtain ⟨status, body, hlogin⟩ := h.login jwt env email password
      obtain ⟨rfl, rfl⟩ := Prod.mk.inj (Except.ok.inj (hexec.symm.trans hlogin))
      subst hs'
      exact ⟨rfl, List.append_nil _, trivial⟩
    | create | update | toggleStatus | changePassword =>
      have hstopped := h.stopped hsound hstep.clock (by simp) hstep.unforged
      exact absurd (hpermitted.symm.trans hstopped) (by simp)
  | reset hexec hs' =>
    subst hs'
    obtain ⟨hadmins, hturned⟩ := h.reset hexec
    exact ⟨hadmins, rfl, hturned⟩
  | restarted hrun hs' =>
    subst hs'
    obtain rfl := Except.ok.inj ((h.restart _).symm.trans hrun)
    exact ⟨rfl, rfl, trivial⟩

theorem Site.Locked.of_step (h : s.Locked) (hsound : s.Sound jwt)
    (hstep : SiteStep jwt (env, call, answer) s s') : s'.Locked := by
  obtain ⟨hadmins, hgrants, -⟩ := h.step hsound hstep
  refine ⟨?_, ?_, ?_⟩
  · rw [hadmins]
    exact h.exists_account
  · rw [hadmins]
    exact h.disabled
  · rw [hgrants, (SiteCall.exec_move hstep.exec).clock_eq]
    intro g hg
    exact Int.lt_of_lt_of_le (h.expired g hg) hstep.clock

/-- **Locked out for good.** Once every account is disabled and every token has expired, no
sequence of requests and restarts, with whatever variables set, creates, enables or changes an
account, hands out a token or sends a code. -/
theorem lockout_permanent {labels : List (AccountEnv × SiteCall × SiteAnswer)}
    (hreach : SiteReachable jwt s) (h : s.Locked) (hrun : Trace (SiteStep jwt) labels s s') :
    s'.db.admins = s.db.admins ∧ s'.grants = s.grants ∧
      ∀ label ∈ labels, label.2.1.Turned label.2.2 := by
  have hsound := hreach.sound
  clear hreach
  induction hrun with
  | nil => exact ⟨rfl, rfl, by simp⟩
  | cons hstep _ ih =>
    obtain ⟨hadmins, hgrants, hturned⟩ := h.step hsound hstep
    obtain ⟨hadmins', hgrants', hrest⟩ := ih (h.of_step hsound hstep) (hstep.sound hsound)
    refine ⟨hadmins'.trans hadmins, hgrants'.trans hgrants, fun label hlabel => ?_⟩
    rcases List.mem_cons.mp hlabel with rfl | hlabel
    · exact hturned
    · exact hrest label hlabel

/-- The site after the holder of the only account has disabled it, and a day more. -/
def lockedSite (jwt : Jwt) : Site accentBlind :=
  (signedInSite jwt).moved 90000
    ((AccountCall.toggleStatus 1 (some "DISABLED")).after jwt (.atTime 60 []) (signedIn jwt)).db

theorem lockedSite_reachable (jwt : Jwt) : SiteReachable jwt (lockedSite jwt) := by
  have hdisabled := signedInSite_request jwt (.atTime 60 []) (.toggleStatus 1 (some "DISABLED"))
    (by decide) (by decide) rfl rfl
  have hlater : SiteStep jwt (.atTime 90000 [], .account none (.login "Gerant@agence.test" ""),
      .account (.ok (.refused 403 "Compte désactivé")))
      ((signedInSite jwt).moved 60 (lockedSite jwt).db) (lockedSite jwt) :=
    ⟨show (60 : Int) ≤ 90000 by decide, trivial, rfl⟩
  exact ⟨_, 0, (serverWith (some onlyAdmin)).db.admins,
    .cons (signedInSite_step jwt) (.cons hdisabled (.single hlater))⟩

theorem lockedSite_locked (jwt : Jwt) : (lockedSite jwt).Locked := by
  refine ⟨⟨1, _, rfl⟩, fun k admin hk => ?_, fun g hg => ?_⟩
  · have hmem : (k, admin) ∈
        [(1, { onlyAdmin with status := .disabled, lastLogin := some 0 })] := Table.mem_rows.mpr hk
    obtain ⟨-, rfl⟩ := Prod.mk.inj (List.mem_singleton.mp hmem)
    rfl
  · obtain rfl := List.mem_singleton.mp hg
    show (0 : Int) + JwtProvider.expiration < 90000
    decide

/-- Not even a restart with the variables of a first account set opens the site again. -/
theorem lockout_permanent_disabled :
    SiteReachable plainJwt (lockedSite plainJwt) ∧ (lockedSite plainJwt).Locked ∧
      ∃ s' : Site accentBlind, s'.clock = 90060 ∧
        s'.db.admins = (lockedSite plainJwt).db.admins ∧
        s'.grants = (lockedSite plainJwt).grants := by
  have hrestart : SiteStep plainJwt (.atTime 90060 [],
      .restart ⟨some "nouveau@agence.test", some "Motdepasse1!", none, none⟩,
      .restarted (.ok ())) (lockedSite plainJwt)
      { lockedSite plainJwt with watch :=
          ⟨90060, ⟨(lockedSite plainJwt).db, fun _ => []⟩, []⟩ } :=
    ⟨show (90000 : Int) ≤ 90060 by decide, trivial, rfl⟩
  obtain ⟨hadmins, hgrants, -⟩ := lockout_permanent (lockedSite_reachable plainJwt)
    (lockedSite_locked plainJwt) (.single hrestart)
  exact ⟨lockedSite_reachable plainJwt, lockedSite_locked plainJwt, _, rfl, hadmins, hgrants⟩

end Lockout

end CarRental
