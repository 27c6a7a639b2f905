import CarRental.Account.ResetLimit

/-!
# CarRental.Account.ResetSafety

**Who can change a password by a reset code.** Runs of requests, verifications and
resets by any parties, with a history of the codes that were issued and used.

* `password_reset_sound`: a password is only changed by a code that was issued to its
  account within the last ten minutes and has not been used.
* A code cannot be guessed at forever, or so the counter of failed attempts says. It
  is written by a transaction that the failure then undoes, so it is zero in every
  state of every run (`Sound.unblocked`), and a code keeps working however many wrong
  ones were tried (`guessing_unbounded`, `rejected_iff`).
-/

namespace CarRental.PasswordResetService

open Lib

variable {p : Platform} {env : AccountEnv} {server server' : Server p} {codes : Set String}

/-! ### Runs -/

/-- The three endpoints of `PasswordResetController`. -/
inductive ResetCall
  | request (email : Option String)
  | verify (email : Option String) (code : String)
  | confirm (email : Option String) (code newPassword confirmNewPassword : String)

/-- What is remembered of a run. -/
inductive Event
  /-- A token was stored for an account, and its code sent. -/
  | issued (token adminId : Id) (code : String) (time : LocalDateTime)
  /-- A token was used to change the password of an account. -/
  | reset (token adminId : Id) (code : String) (time : LocalDateTime)
  /-- A code that no token of the account has was presented while this was its latest unused
  token. -/
  | missed (token : Id)
  deriving DecidableEq

/-- The call, with the mail it sends. A request fails to return when no unused code is drawn. -/
def ResetCall.exec (env : AccountEnv) (server : Server p) :
    ResetCall → Option (Except AccountError (Option Mail) × Server p)
  | .request email => requestReset env email server
  | .verify email code =>
    let (answer, db) := verifyCode env email code server.db
    some (answer.map fun _ => none, { server with db := db })
  | .confirm email code newPassword confirmNewPassword =>
    let (answer, db) := resetPassword env email code newPassword confirmNewPassword server.db
    some (answer.map fun _ => none, { server with db := db })

/-- The code a call presents. -/
def ResetCall.presents : ResetCall → Option String
  | .request _ => none
  | .verify _ code => some code
  | .confirm _ code _ _ => some code

/-- The event a code leaves that matches no token of the account. -/
def missedBy (env : AccountEnv) (db : AccountDb p) (email : Option String) (code : String) :
    List Event :=
  match activeAdmin db email with
  | none => []
  | some (adminId, _) =>
    match PasswordResetTokenRepository.findByAdminAndCodeHash db adminId (p.sha256 code),
        PasswordResetTokenRepository.findTopByAdminAndUsedAtIsNullOrderByCreatedAtDesc env db
          adminId with
    | none, some (id, _) => [.missed id]
    | _, _ => []

/-- What there is to remember of a call. -/
def ResetCall.events (env : AccountEnv) (server : Server p)
    (answer : Except AccountError (Option Mail)) : ResetCall → List Event
  | .request email =>
    match answer, activeAdmin server.db email with
    | .ok (some mail), some (adminId, _) =>
      [.issued server.db.tokens.table.nextId adminId mail.code env.now]
    | _, _ => []
  | .verify email code => missedBy env server.db email code
  | .confirm email code _ _ =>
    match answer, findValidToken env email code server.db with
    | .ok _, (.ok (id, token), _) => [.reset id token.adminId code env.now]
    | _, _ => missedBy env server.db email code

/-- A state of a run: the time of the last call, the server and the history. -/
structure Watch (p : Platform) where
  clock : LocalDateTime
  server : Server p
  history : List Event

/-- The runs from any accounts without tokens, in which every code that is drawn or presented
is one of `codes`. -/
inductive Watched (codes : Set String) : Watch p → Prop
  | start (clock : LocalDateTime)
      (admins : UniqueTable fun admin : Admin => p.collate admin.email) :
      Watched codes ⟨clock, ⟨⟨admins, .empty⟩, fun _ => []⟩, []⟩
  | call {w : Watch p} {env : AccountEnv} {call : ResetCall}
      {answer : Except AccountError (Option Mail)} {server' : Server p} :
      Watched codes w → w.clock ≤ env.now →
      (∀ code, call.presents = some code → code ∈ codes) →
      (∀ n ∈ env.draws, formatCode n ∈ codes) →
      call.exec env w.server = some (answer, server') →
      Watched codes ⟨env.now, server', w.history ++ call.events env w.server answer⟩

/-! ### What a call does -/

/-- The three kinds of calls, with what they leave and what is remembered of them. -/
inductive Moved (env : AccountEnv) (db db' : AccountDb p) (events : List Event) : Prop
  | idle : (db' = db ∨ db' = cleanupExpiredTokens env db) →
      (∀ event ∈ events, ∃ n, event = .missed n) → Moved env db db' events
  | issued {email : Option String} {adminId : Id} {admin : Admin} {code : String} :
      activeAdmin db email = some (adminId, admin) →
      generateUniqueCode (cleanupExpiredTokens env db) env.draws = some code →
      db'.admins = db.admins →
      db'.tokens.table = (cleanupExpiredTokens env db).tokens.table.insert
        (freshToken env p email code adminId) →
      events = [.issued db.tokens.table.nextId adminId code env.now] → Moved env db db' events
  | reset {email : Option String} {code newPassword : String} {n : Id}
      {token : PasswordResetToken} {admin : Admin} :
      Valid env email code db n token admin → Used env newPassword n token admin db db' →
      events = [.reset n token.adminId code env.now] → Moved env db db' events

theorem missedBy_missed {db : AccountDb p} {email : Option String} {code : String} {event : Event}
    (h : event ∈ missedBy env db email code) : ∃ n, event = .missed n := by
  unfold missedBy at h
  split at h
  · exact absurd h List.not_mem_nil
  · split at h
    · exact ⟨_, List.mem_singleton.mp h⟩
    · exact absurd h List.not_mem_nil

theorem ResetCall.exec_moved {call : ResetCall} {answer : Except AccountError (Option Mail)}
    (h : call.exec env server = some (answer, server')) :
    Moved env server.db server'.db (call.events env server answer) := by
  cases call with
  | request email =>
    obtain ⟨-, -, hrequested⟩ := requestReset_cases h
    cases hrequested with
    | refused hdb => exact .idle (Or.inl hdb) (by simp [ResetCall.events])
    | ignored hdb => exact .idle (Or.inr hdb) (by simp [ResetCall.events])
    | issued hadmin hcode hadmins htokens =>
      exact .issued hadmin hcode hadmins htokens (by simp [ResetCall.events, hadmin])
  | verify email code =>
    obtain ⟨-, rfl⟩ := Prod.mk.inj (Option.some.inj h)
    exact .idle (Or.inl verifyCode_db) fun event hevent => missedBy_missed hevent
  | confirm email code newPassword confirmNewPassword =>
    dsimp only [ResetCall.exec] at h
    cases hreset : resetPassword env email code newPassword confirmNewPassword server.db with
    | mk answer db' =>
      rw [hreset] at h
      obtain ⟨rfl, rfl⟩ := Prod.mk.inj (Option.some.inj h)
      cases answer with
      | error e =>
        have hundone := resetPassword_error (congrArg Prod.fst hreset)
        rw [hreset] at hundone
        exact .idle (Or.inl hundone) fun event hevent => missedBy_missed hevent
      | ok u =>
        obtain ⟨n, token, admin, hvalid, hused⟩ := resetPassword_used hreset
        have hfound := findValidToken_ok.mpr ⟨rfl, admin, hvalid⟩
        refine .reset hvalid hused ?_
        simp [ResetCall.events, hfound, Except.map]

/-! ### The invariant -/

/-- The uses of a token. -/
def resets (n : Id) (history : List Event) : List Event :=
  history.filter fun
    | .reset token _ _ _ => token = n
    | _ => false

/-- What the tokens and the history have to do with each other. -/
structure Sound (codes : Set String) (w : Watch p) : Prop where
  /-- No failed attempt is on record. -/
  unblocked : ∀ n token, w.server.db.tokens.get? n = some token → token.failedAttempts = 0
  /-- Every token was issued to its account, with its code, when it was created. -/
  issued : ∀ n token, w.server.db.tokens.get? n = some token →
    ∃ code ∈ codes, Event.issued n token.adminId code token.createdAt ∈ w.history ∧
      token.codeHash = p.sha256 code
  lifetime : ∀ n token, w.server.db.tokens.get? n = some token →
    token.expiresAt = token.createdAt + codeTtl ∧ token.createdAt ≤ w.clock
  unused : ∀ n token, w.server.db.tokens.get? n = some token → token.usedAt = none →
    resets n w.history = []
  once : ∀ n, (resets n w.history).length ≤ 1
  fresh : ∀ n, w.server.db.tokens.table.nextId ≤ n → resets n w.history = []

theorem resets_append (n : Id) (history events : List Event) :
    resets n (history ++ events) = resets n history ++ resets n events := List.filter_append ..

theorem resets_missed {events : List Event} (h : ∀ event ∈ events, ∃ n, event = .missed n)
    (n : Id) : resets n events = [] := by
  refine List.filter_eq_nil_iff.mpr fun event hevent => ?_
  obtain ⟨m, rfl⟩ := h event hevent
  simp

/-- Fewer tokens and no use of one. -/
theorem Sound.idle {w : Watch p} {events : List Event} (hS : Sound codes w)
    (hclock : w.clock ≤ env.now) (hevents : ∀ n, resets n events = [])
    (hstored : ∀ n token, server'.db.tokens.get? n = some token →
      w.server.db.tokens.get? n = some token)
    (hnext : server'.db.tokens.table.nextId = w.server.db.tokens.table.nextId) :
    Sound codes ⟨env.now, server', w.history ++ events⟩ := by
  have hsame : ∀ n, resets n (w.history ++ events) = resets n w.history := by
    intro n
    rw [resets_append, hevents, List.append_nil]
  refine ⟨fun n token hn => hS.unblocked n token (hstored n token hn), fun n token hn => ?_,
    fun n token hn => ?_, fun n token hn hunused => ?_, fun n => ?_, fun n hn => ?_⟩
  · obtain ⟨code, hcode, hmem, hhash⟩ := hS.issued n token (hstored n token hn)
    exact ⟨code, hcode, List.mem_append_left _ hmem, hhash⟩
  · obtain ⟨hexpires, hcreated⟩ := hS.lifetime n token (hstored n token hn)
    exact ⟨hexpires, Int.le_trans hcreated hclock⟩
  · rw [hsame]
    exact hS.unused n token (hstored n token hn) hunused
  · rw [hsame]
    exact hS.once n
  · rw [hsame]
    exact hS.fresh n (hnext ▸ hn)

/-- A new token. -/
theorem Sound.insert {w : Watch p} {email : Option String} {code : String} {adminId : Id}
    (hS : Sound codes w) (hclock : w.clock ≤ env.now) (hcode : code ∈ codes)
    (htokens : server'.db.tokens.table = (cleanupExpiredTokens env w.server.db).tokens.table.insert
      (freshToken env p email code adminId)) :
    Sound codes ⟨env.now, server', w.history ++
      [.issued w.server.db.tokens.table.nextId adminId code env.now]⟩ := by
  have hsame : ∀ n, resets n (w.history ++
      [.issued w.server.db.tokens.table.nextId adminId code env.now]) = resets n w.history := by
    intro n
    simp [resets]
  -- a token on file afterwards is the new one or was there before; some may have been swept away
  have hstored : ∀ n token, server'.db.tokens.get? n = some token →
      (n = w.server.db.tokens.table.nextId ∧ token = freshToken env p email code adminId) ∨
      w.server.db.tokens.get? n = some token := by
    intro n token hn
    rw [UniqueTable.get?, htokens, Table.get?_insert_eq_some] at hn
    rcases hn with ⟨hn, htoken⟩ | hn
    · exact Or.inl ⟨hn, htoken.symm⟩
    · exact Or.inr (UniqueTable.get?_filter_eq_some.mp hn).1
  refine ⟨fun n token hn => ?_, fun n token hn => ?_, fun n token hn => ?_,
    fun n token hn hunused => ?_, fun n => ?_, fun n hn => ?_⟩
  · rcases hstored n token hn with ⟨-, rfl⟩ | hn
    · rfl
    · exact hS.unblocked n token hn
  · rcases hstored n token hn with ⟨rfl, rfl⟩ | hn
    · exact ⟨code, hcode, List.mem_append_right _ (List.mem_singleton.mpr rfl), rfl⟩
    · obtain ⟨code', hcode', hmem, hhash⟩ := hS.issued n token hn
      exact ⟨code', hcode', List.mem_append_left _ hmem, hhash⟩
  · rcases hstored n token hn with ⟨-, rfl⟩ | hn
    · exact ⟨rfl, Int.le_refl _⟩
    · obtain ⟨hexpires, hcreated⟩ := hS.lifetime n token hn
      exact ⟨hexpires, Int.le_trans hcreated hclock⟩
  · rw [hsame]
    rcases hstored n token hn with ⟨rfl, -⟩ | hn
    · exact hS.fresh _ (Nat.le_refl _)
    · exact hS.unused n token hn hunused
  · rw [hsame]
    exact hS.once n
  · rw [hsame]
    refine hS.fresh n (Nat.le_of_succ_le ?_)
    rw [htokens] at hn
    exact hn

/-- A token is used. -/
theorem Sound.use {w : Watch p} {email : Option String} {code newPassword : String} {n : Id}
    {token : PasswordResetToken} {admin : Admin} (hS : Sound codes w) (hclock : w.clock ≤ env.now)
    (hvalid : Valid env email code w.server.db n token admin)
    (hused : Used env newPassword n token admin w.server.db server'.db) :
    Sound codes ⟨env.now, server', w.history ++ [.reset n token.adminId code env.now]⟩ := by
  have hother : ∀ m, m ≠ n → resets m (w.history ++ [.reset n token.adminId code env.now]) =
      resets m w.history := by
    intro m hm
    simp [resets, hm.symm]
  have hstored : ∀ m t, server'.db.tokens.get? m = some t →
      (m = n ∧ t = { token with usedAt := some env.now }) ∨
      (m ≠ n ∧ w.server.db.tokens.get? m = some t) := by
    intro m t hm
    rw [UniqueTable.get?, hused.tokens, Table.get?_filter_eq_some] at hm
    rcases (Table.get?_set_eq_some hvalid.stored).mp hm.1 with ⟨rfl, rfl⟩ | ⟨hne, hm⟩
    · exact Or.inl ⟨rfl, rfl⟩
    · exact Or.inr ⟨hne, hm⟩
  -- the token had not been used before, so this use is its first
  have hnone := hS.unused n token hvalid.stored hvalid.unused
  refine ⟨fun m t hm => ?_, fun m t hm => ?_, fun m t hm => ?_, fun m t hm hunused => ?_,
    fun m => ?_, fun m hm => ?_⟩
  · rcases hstored m t hm with ⟨rfl, rfl⟩ | ⟨-, hm⟩
    · exact hS.unblocked _ token hvalid.stored
    · exact hS.unblocked m t hm
  -- being used changes neither the account, nor the time, nor the hash
  · have hold : ∃ t₀, w.server.db.tokens.get? m = some t₀ ∧ t₀.adminId = t.adminId ∧
        t₀.createdAt = t.createdAt ∧ t₀.codeHash = t.codeHash := by
      rcases hstored m t hm with ⟨rfl, rfl⟩ | ⟨-, hm⟩
      · exact ⟨token, hvalid.stored, rfl, rfl, rfl⟩
      · exact ⟨t, hm, rfl, rfl, rfl⟩
    obtain ⟨t₀, ht₀, hadmin, hcreated, hhash⟩ := hold
    obtain ⟨code', hcode', hmem, hhash'⟩ := hS.issued m t₀ ht₀
    rw [hadmin, hcreated] at hmem
    exact ⟨code', hcode', List.mem_append_left _ hmem, hhash ▸ hhash'⟩
  · rcases hstored m t hm with ⟨rfl, rfl⟩ | ⟨-, hm⟩
    · obtain ⟨hexpires, hcreated⟩ := hS.lifetime _ token hvalid.stored
      exact ⟨hexpires, Int.le_trans hcreated hclock⟩
    · obtain ⟨hexpires, hcreated⟩ := hS.lifetime m t hm
      exact ⟨hexpires, Int.le_trans hcreated hclock⟩
  · rcases hstored m t hm with ⟨rfl, rfl⟩ | ⟨hne, hm⟩
    · exact absurd hunused (by simp)
    · rw [hother m hne]
      exact hS.unused m t hm hunused
  · by_cases hm : m = n
    · rw [hm, resets_append, hnone, List.nil_append]
      exact List.length_filter_le _ _
    · rw [hother m hm]
      exact hS.once m
  · have hbelow := Table.get?_lt hvalid.stored
    rw [hused.tokens] at hm
    have hm' : w.server.db.tokens.table.nextId ≤ m := hm
    rw [hother m (Nat.ne_of_gt (Nat.lt_of_lt_of_le hbelow hm'))]
    exact hS.fresh m hm'

theorem Watched.sound {w : Watch p} (h : Watched codes w) : Sound codes w := by
  induction h with
  | start clock admins =>
    have hnone : ∀ n token,
        (UniqueTable.empty : UniqueTable fun token : PasswordResetToken =>
          p.collate token.codeHash).get? n = some token → False := by
      intro n token hn
      simp [UniqueTable.get?, UniqueTable.empty] at hn
    exact ⟨fun n token hn => (hnone n token hn).elim, fun n token hn => (hnone n token hn).elim,
      fun n token hn => (hnone n token hn).elim, fun _ _ _ _ => rfl, fun _ => Nat.zero_le 1,
      fun _ _ => rfl⟩
  | @call w env call answer server' _ hclock _ hdraws hexec ih =>
    cases ResetCall.exec_moved hexec with
    | idle hdb hevents =>
      refine ih.idle hclock (resets_missed hevents) (fun n token hn => ?_) ?_
      · rcases hdb with hdb | hdb
        · rwa [hdb] at hn
        · rw [hdb] at hn
          exact (UniqueTable.get?_filter_eq_some.mp hn).1
      · rcases hdb with hdb | hdb
        · rw [hdb]
        · rw [hdb]
          rfl
    | issued _ hcode _ htokens hevents =>
      rw [hevents]
      obtain ⟨-, n, hn, rfl⟩ := generateUniqueCode_unused hcode
      exact ih.insert hclock (hdraws n hn) htokens
    | reset hvalid hused hevents =>
      rw [hevents]
      exact ih.use hclock hvalid hused

/-! ### Soundness -/

/-- The accounts are only changed by a password change that returns. -/
theorem ResetCall.exec_admins {call : ResetCall} {answer : Except AccountError (Option Mail)}
    (h : call.exec env server = some (answer, server'))
    (hcall : (∃ e, answer = .error e) ∨ ∀ email code new confirm,
      call ≠ .confirm email code new confirm) :
    server'.db.admins = server.db.admins := by
  cases call with
  | request email =>
    obtain ⟨-, -, hrequested⟩ := requestReset_cases h
    cases hrequested with
    | refused hdb => rw [hdb]
    | ignored hdb => rw [hdb, cleanup_admins]
    | issued _ _ hadmins _ => exact hadmins
  | verify email code =>
    obtain ⟨-, rfl⟩ := Prod.mk.inj (Option.some.inj h)
    exact congrArg AccountDb.admins verifyCode_db
  | confirm email code newPassword confirmNewPassword =>
    obtain ⟨e, rfl⟩ := hcall.resolve_right fun hne => hne _ _ _ _ rfl
    dsimp only [ResetCall.exec] at h
    obtain ⟨hanswer, rfl⟩ := Prod.mk.inj (Option.some.inj h)
    cases hreset : (resetPassword env email code newPassword confirmNewPassword server.db).1 with
    | error e => exact congrArg AccountDb.admins (resetPassword_error hreset)
    | ok u =>
      rw [hreset] at hanswer
      exact absurd hanswer (by simp [Except.map])

/-- **Soundness of the password reset**, in every state of every run. A reset that returns is
for an active account, to which a token with the presented code was issued within the last ten
minutes that nobody has used; it changes the password of this account and of no other. A token
is used at most once. A call that throws, and any call but a reset, leaves all accounts as they
are. -/
theorem password_reset_sound {w : Watch p}
    (hinj : Set.InjOn (fun code => p.collate (p.sha256 code)) codes) (h : Watched codes w) :
    (∀ env email code newPassword confirmNewPassword db', w.clock ≤ env.now → code ∈ codes →
      resetPassword env email code newPassword confirmNewPassword w.server.db = (.ok (), db') →
      ∃ adminId admin n time, activeAdmin w.server.db email = some (adminId, admin) ∧
        admin.status = .active ∧ Event.issued n adminId code time ∈ w.history ∧
        env.now - codeTtl ≤ time ∧ time ≤ env.now ∧ resets n w.history = [] ∧
        db'.admins.get? adminId = some { admin with passwordHash := env.encode newPassword } ∧
        ∀ other, other ≠ adminId → db'.admins.get? other = w.server.db.admins.get? other) ∧
    (∀ n, (resets n w.history).length ≤ 1) ∧
    ∀ env (call : ResetCall) answer server', call.exec env w.server = some (answer, server') →
      ((∃ e, answer = .error e) ∨ ∀ email code new confirm,
        call ≠ .confirm email code new confirm) →
      server'.db.admins = w.server.db.admins := by
  have hS := h.sound
  refine ⟨fun env email code newPassword confirm db' hclock hcode hreset => ?_, hS.once,
    fun env call answer server' hexec hcall => ResetCall.exec_admins hexec hcall⟩
  obtain ⟨n, token, admin, hvalid, hused⟩ := resetPassword_used hreset
  obtain ⟨hadmin, -, hactive⟩ := activeAdmin_eq_some.mp hvalid.ofAdmin
  obtain ⟨code', hcode', hmem, hhash⟩ := hS.issued n token hvalid.stored
  obtain ⟨hexpires, hcreated⟩ := hS.lifetime n token hvalid.stored
  -- the code that was issued is the one that is presented
  obtain rfl : code' = code := by
    refine hinj hcode' hcode ?_
    dsimp only
    rw [← hhash]
    exact hvalid.hashed
  have hunexpired := hvalid.unexpired
  rw [hexpires] at hunexpired
  refine ⟨token.adminId, admin, n, token.createdAt, hvalid.ofAdmin, hactive, hmem,
    Int.sub_right_le_of_le_add hunexpired, Int.le_trans hcreated hclock,
    hS.unused n token hvalid.stored hvalid.unused, ?_, fun other hne => ?_⟩
  · rw [UniqueTable.get?, hused.admins]
    exact Table.get?_set_self hadmin
  · rw [UniqueTable.get?, hused.admins]
    exact Table.get?_set_ne hne

/-! ### Concrete runs -/

/-- A list of calls, each with its environment, run in turn. -/
def watchCalls : List (AccountEnv × ResetCall) → Watch p → Option (Watch p)
  | [], w => some w
  | c :: rest, w => do
    let (answer, server) ← c.2.exec c.1 w.server
    watchCalls rest ⟨c.1.now, server, w.history ++ c.2.events c.1 w.server answer⟩

theorem Watched.calls {w w' : Watch p} (h : Watched codes w)
    (calls : List (AccountEnv × ResetCall))
    (hsorted : (w.clock :: calls.map fun c => c.1.now).Pairwise (· ≤ ·))
    (hpresented : ∀ c ∈ calls, ∀ code, c.2.presents = some code → code ∈ codes)
    (hdrawn : ∀ c ∈ calls, ∀ n ∈ c.1.draws, formatCode n ∈ codes)
    (hrun : watchCalls calls w = some w') : Watched codes w' := by
  induction calls generalizing w with
  | nil =>
    obtain rfl := Option.some.inj hrun
    exact h
  | cons c rest ih =>
    rw [List.map_cons, List.pairwise_cons] at hsorted
    obtain ⟨⟨answer, server⟩, hexec, hrest⟩ := Option.bind_eq_some_iff.mp hrun
    exact ih (h.call (hsorted.1 _ List.mem_cons_self) (hpresented c List.mem_cons_self)
      (hdrawn c List.mem_cons_self) hexec) hsorted.2
      (fun c hc => hpresented c (List.mem_cons_of_mem _ hc))
      (fun c hc => hdrawn c (List.mem_cons_of_mem _ hc)) hrest

/-- A code is requested, and five times a wrong one is tried. -/
def fiveGuesses : List (AccountEnv × ResetCall) :=
  (.atTime 0 [⟨1, by decide⟩], .request (some "gerant@agence.test")) ::
    List.replicate 5 (.atTime 60 [], .verify (some "gerant@agence.test") "000002")

/-- One account, and nothing asked for yet. -/
def beforeGuesses : Watch accentBlind := ⟨0, serverWith (some onlyAdmin), []⟩

theorem fiveGuesses_served : ∃ w, watchCalls fiveGuesses beforeGuesses = some w :=
  Option.isSome_iff_exists.mp (by decide +kernel)

theorem fiveGuesses_watched {w : Watch accentBlind}
    (h : watchCalls fiveGuesses beforeGuesses = some w) :
    Watched {"000001", "000002"} w := by
  refine (Watched.start 0 (serverWith (some onlyAdmin)).db.admins).calls fiveGuesses
    (by decide) ?_ ?_ h
  · intro c hc code hcode
    rcases List.mem_cons.mp hc with rfl | hc
    · exact absurd hcode (by simp [ResetCall.presents])
    · obtain rfl := List.eq_of_mem_replicate hc
      obtain rfl := Option.some.inj hcode
      exact Or.inr rfl
  · intro c hc n hn
    rcases List.mem_cons.mp hc with rfl | hc
    · obtain rfl := List.mem_singleton.mp hn
      exact Or.inl (by decide)
    · obtain rfl := List.eq_of_mem_replicate hc
      exact absurd hn List.not_mem_nil

/-- The code still opens the account. -/
theorem password_reset_sound_guessed :
    ∃ (w : Watch accentBlind) (db' : AccountDb accentBlind), Watched {"000001", "000002"} w ∧
      resetPassword (.atTime 600 []) (some "gerant@agence.test") "000001" "Motdepasse1!"
        "Motdepasse1!" w.server.db = (.ok (), db') ∧
      ∃ adminId admin n time, activeAdmin w.server.db (some "gerant@agence.test") =
          some (adminId, admin) ∧ Event.issued n adminId "000001" time ∈ w.history ∧
        600 - codeTtl ≤ time ∧ time ≤ 600 := by
  obtain ⟨w, hw⟩ := fiveGuesses_served
  have hwatched := fiveGuesses_watched hw
  have hok : (watchCalls fiveGuesses beforeGuesses).map (fun w =>
      (w.clock, (resetPassword (.atTime 600 []) (some "gerant@agence.test") "000001" "Motdepasse1!"
        "Motdepasse1!" w.server.db).1)) = some (60, .ok ()) := by decide +kernel
  rw [hw, Option.map_some, Option.some.injEq, Prod.mk.injEq] at hok
  have hinj : Set.InjOn (fun code => accentBlind.collate (accentBlind.sha256 code))
      {"000001", "000002"} := by
    have hne : accentBlind.collate (accentBlind.sha256 "000001") ≠
        accentBlind.collate (accentBlind.sha256 "000002") := by decide +kernel
    rintro a (rfl | rfl) b (rfl | rfl) heq
    · rfl
    · exact absurd heq hne
    · exact absurd heq hne.symm
    · rfl
  obtain ⟨db', hreset⟩ : ∃ db', resetPassword (.atTime 600 []) (some "gerant@agence.test") "000001"
      "Motdepasse1!" "Motdepasse1!" w.server.db = (.ok (), db') := ⟨_, Prod.ext hok.2 rfl⟩
  obtain ⟨adminId, admin, n, time, hadmin, -, hissued, hfrom, hto, -⟩ :=
    (password_reset_sound hinj hwatched).1 (.atTime 600 []) _ _ _ _ _ (by rw [hok.1]; decide)
      (Or.inl rfl) hreset
  exact ⟨w, db', hwatched, hreset, adminId, admin, n, time, hadmin, hissued, hfrom, hto⟩

/-! ### Guessing -/

/-- An unused token of the active account of the e-mail has the code, and has not expired. -/
def Usable (env : AccountEnv) (email : Option String) (code : String) (db : AccountDb p) : Prop :=
  ∃ n token admin, activeAdmin db email = some (token.adminId, admin) ∧
    db.tokens.get? n = some token ∧ p.collate token.codeHash = p.collate (p.sha256 code) ∧
    token.usedAt = none ∧ env.now ≤ token.expiresAt

theorem Sound.usable_iff {w : Watch p} (hS : Sound codes w) (env : AccountEnv)
    (email : Option String) (code : String) : Usable env email code w.server.db ↔
      ∃ n token admin, Valid env email code w.server.db n token admin := by
  constructor
  · rintro ⟨n, token, admin, hadmin, hstored, hhash, hunused, hunexpired⟩
    have hzero := hS.unblocked n token hstored
    exact ⟨n, token, admin, hadmin, hstored, hhash, hunused, hunexpired, by rw [hzero]; decide⟩
  · rintro ⟨n, token, admin, hvalid⟩
    exact ⟨n, token, admin, hvalid.ofAdmin, hvalid.stored, hvalid.hashed, hvalid.unused,
      hvalid.unexpired⟩

theorem error_iff {answer : Except AccountError Unit} :
    (∃ e, answer = .error e) ↔ answer ≠ .ok () := by
  cases answer <;> simp

/-- Five wrong codes, each while the token was the latest unused one, and the right one is
accepted. -/
theorem guessing_unbounded :
    ∃ w : Watch accentBlind, Watched {"000001", "000002"} w ∧
      Event.issued 1 1 "000001" 0 ∈ w.history ∧ w.history.count (.missed 1) = 5 ∧
      (verifyCode (.atTime 60 []) (some "gerant@agence.test") "000001" w.server.db).1 = .ok () ∧
      (resetPassword (.atTime 60 []) (some "gerant@agence.test") "000001" "Motdepasse1!"
        "Motdepasse1!" w.server.db).1 = .ok () := by
  obtain ⟨w, hw⟩ := fiveGuesses_served
  have hfacts : (watchCalls fiveGuesses beforeGuesses).map (fun w =>
      (w.history, (verifyCode (.atTime 60 []) (some "gerant@agence.test") "000001" w.server.db).1,
        (resetPassword (.atTime 60 []) (some "gerant@agence.test") "000001" "Motdepasse1!"
          "Motdepasse1!" w.server.db).1)) =
      some (.issued 1 1 "000001" 0 :: List.replicate 5 (.missed 1), .ok (), .ok ()) := by
    decide +kernel
  rw [hw, Option.map_some, Option.some.injEq, Prod.mk.injEq, Prod.mk.injEq] at hfacts
  obtain ⟨hhistory, hverify, hreset⟩ := hfacts
  exact ⟨w, fiveGuesses_watched hw, by rw [hhistory]; decide, by rw [hhistory]; decide, hverify,
    hreset⟩

/-- **When a code is rejected**, in every state of every run and however many wrong codes were
tried before: a verification when no unused and unexpired token of the active account has the
code, a reset also when the new password is not confirmed or weak. -/
theorem rejected_iff {w : Watch p} (h : Watched codes w) (env : AccountEnv)
    (email : Option String) (code : String) :
    ((∃ e, (verifyCode env email code w.server.db).1 = .error e) ↔
      ¬ Usable env email code w.server.db) ∧
    ∀ newPassword confirmNewPassword,
      (∃ e, (resetPassword env email code newPassword confirmNewPassword w.server.db).1 =
        .error e) ↔
      newPassword ≠ confirmNewPassword ∨ isStrongPassword newPassword = false ∨
        ¬ Usable env email code w.server.db := by
  have husable := h.sound.usable_iff env email code
  refine ⟨?_, fun newPassword confirmNewPassword => ?_⟩
  · rw [error_iff, ne_eq, verifyCode_ok, husable]
  · rw [error_iff, ne_eq, resetPassword_ok, husable, not_and_or, not_and_or, Bool.not_eq_true]

/-- After five wrong codes the right one is rejected too, once it is ten minutes old. -/
theorem rejected_iff_expired :
    ∃ w : Watch accentBlind, Watched {"000001", "000002"} w ∧ w.history.count (.missed 1) = 5 ∧
      ∃ e, (verifyCode (.atTime 601 []) (some "gerant@agence.test") "000001" w.server.db).1 =
        .error e := by
  obtain ⟨w, hw⟩ := fiveGuesses_served
  have hwatched := fiveGuesses_watched hw
  have hfacts : (watchCalls fiveGuesses beforeGuesses).map (fun w =>
      (w.history.count (.missed 1), w.server.db.tokens.table.rows.map fun row => row.2.expiresAt)) =
      some (5, [600]) := by decide +kernel
  rw [hw, Option.map_some, Option.some.injEq, Prod.mk.injEq] at hfacts
  obtain ⟨hmissed, hexpire⟩ := hfacts
  refine ⟨w, hwatched, hmissed, (rejected_iff hwatched _ _ _).1.mpr ?_⟩
  rintro ⟨n, token, -, -, hstored, -, -, hunexpired⟩
  have hmem := List.mem_map_of_mem (f := fun row => row.2.expiresAt) (Table.mem_rows.mpr hstored)
  rw [hexpire, List.mem_singleton] at hmem
  rw [hmem] at hunexpired
  exact absurd hunexpired (by decide)

end CarRental.PasswordResetService
