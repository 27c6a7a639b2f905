import CarRental.Account.Site

/-!
# CarRental.Account.AppSession

The **session of the app**: `AuthNotifier`, the storage of the device it keeps its token in, the
screens that `main.dart` shows for it, and the site at the other end.

Nothing in the app happens at once. `_loadFromStorage`, `login` and `logout` wait for the
storage or for the network between any two of their statements, and meanwhile the user goes on.
So a call to the storage is a step of its own, and so is its reply; a request is sent, served
and answered in three steps, and requests overtake each other. Storage and network may fail. The
app may be closed at any moment and opened again. Other people use the site all the time.

Of the storage it is assumed that it replies in the order in which it acts. An answer that the
network loses is a request that fails here, while the site serves the same request for somebody
else.

* `session_consistent`: requests carry the token shown, but for the check at the start, which
  carries the stored one; every token in the app was handed out by the site, and at rest the
  storage holds the token shown.
* `relaunch_resumes`: what the app shows when it is opened again.
* `signed_out_stays`: an app without tokens does not get one back by itself.
-/

namespace CarRental

open Lib

variable {p : Platform} {jwt : Jwt} {env : AccountEnv}

/-- `GET /auth/me`. Spring names the user of a request without a valid token. -/
def AuthController.me (jwt : Jwt) (now : LocalDateTime) (header : Option String)
    (db : AccountDb p) : Option (Id × Admin) :=
  AdminService.findByEmail db ((authenticate jwt now header).getD "anonymousUser")

/-! ### The site under the app -/

section Site

variable {s s' : Site p}

/-- The token was handed out. -/
def Site.Granted (s : Site p) (token : String) : Prop := ∃ g ∈ s.grants, g.token = token

theorem SiteMove.grants_subset {call : SiteCall} {answer : SiteAnswer}
    (h : SiteMove jwt env s s' call answer) : s.grants ⊆ s'.grants := by
  cases h with
  | denied _ hs' | failed _ _ hs' | reset _ hs' | restarted _ hs' =>
    subst hs'
    exact List.Subset.refl _
  | answered _ _ hs' =>
    subst hs'
    exact List.subset_append_left _ _

theorem Site.Granted.run {labels : List (AccountEnv × SiteCall × SiteAnswer)} {token : String}
    (h : s.Granted token) (hrun : Trace (SiteStep jwt) labels s s') : s'.Granted token := by
  refine hrun.invariant (I := fun s => s.Granted token) ?_ h
  rintro label - s s' hstep ⟨g, hg, htoken⟩
  exact ⟨g, (SiteCall.exec_move hstep.exec).grants_subset hg, htoken⟩

theorem SiteReachable.run {labels : List (AccountEnv × SiteCall × SiteAnswer)}
    (h : SiteReachable jwt s) (hrun : Trace (SiteStep jwt) labels s s') : SiteReachable jwt s' := by
  obtain ⟨before, clock, admins, hbefore⟩ := h
  exact ⟨before ++ labels, clock, admins, hbefore.append hrun⟩

/-- Time passes, as for a request that is turned away. -/
theorem SiteStep.idle (hclock : s.clock ≤ env.now) :
    SiteStep jwt (env, .account none (.toggleStatus 0 none), .denied) s (s.moved env.now s.db) :=
  ⟨hclock, trivial, rfl⟩

/-- A login is answered with a token that has been handed out. -/
theorem Site.granted_of_loggedIn {header : Option String} {call : AccountCall}
    {token fullName email : String} {id : Id}
    (h : (SiteCall.account header call).exec jwt env s =
      some (.account (.ok (.loggedIn token id fullName email)), s')) : s'.Granted token := by
  cases SiteCall.exec_move h with
  | answered _ hexec hs' =>
    obtain ⟨admin, -, -, hadmin, -⟩ := AccountCall.exec_loggedIn hexec
    subst hs'
    refine ⟨⟨token, id, admin, env.now⟩, List.mem_append_right _ ?_, rfl⟩
    simp [granted, hadmin]

end Site

namespace AuthNotifier

/-! ### The app -/

/-- What the app remembers of the account. -/
structure AdminInfo where
  id : Id
  fullName : String
  email : String
  deriving DecidableEq

/-- The fields of an account that `/auth/me`, a login and a change answer with. -/
def AdminInfo.of (account : Id × Admin) : AdminInfo :=
  ⟨account.1, account.2.fullName, account.2.email⟩

/-- What the screens watch. -/
structure AuthState where
  token : Option String := none
  admin : Option AdminInfo := none
  isInitialized : Bool := false
  deriving DecidableEq

/-- What `main.dart` shows. -/
inductive Screen
  | spinner
  | loginScreen
  | homeShell
  deriving DecidableEq

/-- What `build` chooses. -/
def AuthState.screen (state : AuthState) : Screen :=
  if !state.isInitialized then .spinner
  else if state.token = none then .loginScreen
  else .homeShell

/-- Where `_loadFromStorage` stands: what it waits for, or what it has got. -/
inductive LoadStage
  | reading
  | read (value : Option (Option String))
  | asking (token : String)
  | answered (token : String) (admin : Option AdminInfo)
  | discarding
  | discarded (done : Bool)

/-- The tokens it holds meanwhile. -/
def LoadStage.tokens : LoadStage → List String
  | .read value => (value.getD none).toList
  | .asking token | .answered token _ => [token]
  | .reading | .discarding | .discarded _ => []

/-- What `login` and `logout` want from the storage. -/
inductive StorageOp
  | write (token : String) (admin : AdminInfo)
  | delete

/-- The token under `jwt_token` afterwards. -/
def StorageOp.value : StorageOp → Option String
  | .write token _ => some token
  | .delete => none

/-- The token that is on its way to the storage. -/
def StorageOp.tokens : StorageOp → List String
  | .write token _ => [token]
  | .delete => []

/-- The requests whose answers change the session. -/
inductive Request
  | login (email password : String)
  | updateAdmin (id : Id) (fullName email : String) (phone : Option String)

/-- What the site makes of it. -/
def Request.call : Request → AccountCall
  | .login email password => .login email password
  | .updateAdmin id fullName email phone => .update id fullName email phone

/-- What the app goes on with, after the network. -/
inductive Answer
  | loggedIn (token : String) (admin : AdminInfo)
  | updated (admin : AdminInfo)
  | failed

/-- Only a login answers with a token. -/
def Answer.tokens : Answer → List String
  | .loggedIn token _ => [token]
  | _ => []

/-- What the app gets to see of an answer. A change is answered with the row it has made. -/
def Request.answer (db : AccountDb p) : Request → SiteAnswer → Answer
  | .login _ _, .account (.ok (.loggedIn token id fullName email)) =>
    .loggedIn token ⟨id, fullName, email⟩
  | .updateAdmin id _ _ _, .account (.ok .done) =>
    ((db.admins.get? id).map fun admin => .updated (.of (id, admin))).getD .failed
  | _, _ => .failed

/-- The app with the storage and the site. What waits is in the order in which it was asked for;
the replies of the storage are in the order in which it acted. -/
structure Session (p : Platform) where
  site : Site p
  stored : Option String := none
  state : AuthState := {}
  header : Option String := none
  load : Option LoadStage := some .reading
  calls : List StorageOp := []
  replies : List (StorageOp × Bool) := []
  requests : List (Option String × Request) := []
  answers : List Answer := []

namespace Session

variable (s : Session p)

/-- The app is opened; what it was doing before is gone. -/
def launch : Session p := { site := s.site, stored := s.stored }

/-- The `Authorization` header for a token. -/
def bearer (token : String) : String := "Bearer " ++ token

/-- The end of `login`, and of a start with a valid token. -/
def signIn (token : String) (admin : AdminInfo) : Session p :=
  { s with header := some (bearer token), state := ⟨some token, some admin, true⟩ }

/-- The end of `logout`, and of a start with an invalid token. -/
def signOut : Session p := { s with header := none, state := ⟨none, none, true⟩ }

/-- `_loadFromStorage`, from what it has got to what it waits for next. -/
def resumeLoad : LoadStage → Option (Session p)
  | .read (some (some token)) => some { s with load := some (.asking token) }
  | .read _ => some { s with load := none, state := ⟨none, none, true⟩ }
  | .answered token (some admin) => some { s.signIn token admin with load := none }
  | .answered _ none => some { s with load := some .discarding }
  | .discarded true => some { s.signOut with load := none }
  -- the exception of the clean-up ends in the outer handler, which leaves the header alone
  | .discarded false => some { s with load := none, state := ⟨none, none, true⟩ }
  | .reading | .asking _ | .discarding => none

/-- `login` and `logout`, once the storage has replied. -/
def resume : StorageOp × Bool → Session p
  | (.write token admin, true) => s.signIn token admin
  | (.delete, true) => s.signOut
  | (_, false) => s

/-- `updateLocalAdminInfo`, which does nothing when nobody is signed in. -/
def updateLocalAdminInfo (adminInfo : AdminInfo) : Session p :=
  if s.state.token = none then s
  else { s with state := ⟨s.state.token, some adminInfo, true⟩ }

/-- What happens when an answer arrives; an error is shown and changes nothing here. -/
def deliver : Answer → Session p
  | .loggedIn token admin => { s with calls := s.calls ++ [.write token admin] }
  | .updated admin => s.updateLocalAdminInfo admin
  | .failed => s

/-- The answer to `GET /auth/me` is on its way. -/
def serveMe (jwt : Jwt) (env : AccountEnv) (token : String) : Session p :=
  { s with
    site := s.site.moved env.now s.site.db
    load := some (.answered token
      ((AuthController.me jwt env.now (some (bearer token)) s.site.db).map .of)) }

end Session

/-- What can happen next; the labels of the steps. -/
inductive Event
  | launch
  | login
  | logout
  | updateAdmin
  | storage (done : Bool)
  | resume
  | serve
  | lose
  | deliver
  | elsewhere

/-- One thing happens. -/
inductive Step (jwt : Jwt) : Event → Session p → Session p → Prop
  | launch (s : Session p) : Step jwt .launch s s.launch
  | login {s : Session p} (email password : String) : s.state.screen = .loginScreen →
      Step jwt .login s { s with requests := s.requests ++ [(s.header, .login email password)] }
  | logout {s : Session p} : s.state.screen = .homeShell →
      Step jwt .logout s { s with calls := s.calls ++ [.delete] }
  | updateAdmin {s : Session p} {admin : AdminInfo} (fullName email : String)
      (phone : Option String) : s.state.screen = .homeShell → s.state.admin = some admin →
      Step jwt .updateAdmin s
        { s with
          requests := s.requests ++ [(s.header, .updateAdmin admin.id fullName email phone)] }
  | read {s : Session p} (done : Bool) : s.load = some .reading →
      Step jwt (.storage done) s
        { s with load := some (.read (if done then some s.stored else none)) }
  | discard {s : Session p} (done : Bool) : s.load = some .discarding →
      Step jwt (.storage done) s
        { s with load := some (.discarded done), stored := if done then none else s.stored }
  | write {s : Session p} {before after : List StorageOp} {op : StorageOp} (done : Bool) :
      s.calls = before ++ op :: after →
      Step jwt (.storage done) s
        { s with
          calls := before ++ after
          replies := s.replies ++ [(op, done)]
          stored := if done then op.value else s.stored }
  | resumeLoad {s s' : Session p} {stage : LoadStage} : s.load = some stage →
      s.resumeLoad stage = some s' → Step jwt .resume s s'
  | resume {s : Session p} {reply : StorageOp × Bool} {replies : List (StorageOp × Bool)} :
      s.replies = reply :: replies → Step jwt .resume s ({ s with replies := replies }.resume reply)
  | serveMe {s : Session p} {token : String} (env : AccountEnv) : s.load = some (.asking token) →
      s.site.clock ≤ env.now → Step jwt .serve s (s.serveMe jwt env token)
  | serve {s : Session p} {before after : List (Option String × Request)}
      {header : Option String} {request : Request} (env : AccountEnv) {answer : SiteAnswer}
      {site : Site p} : s.requests = before ++ (header, request) :: after →
      s.site.clock ≤ env.now →
      (SiteCall.account header request.call).exec jwt env s.site = some (answer, site) →
      Step jwt .serve s
        { s with
          site := site
          requests := before ++ after
          answers := s.answers ++ [request.answer site.db answer] }
  | loseMe {s : Session p} {token : String} : s.load = some (.asking token) →
      Step jwt .lose s { s with load := some (.answered token none) }
  | lose {s : Session p} {before after : List (Option String × Request)}
      {request : Option String × Request} : s.requests = before ++ request :: after →
      Step jwt .lose s
        { s with requests := before ++ after, answers := s.answers ++ [.failed] }
  | deliver {s : Session p} {before after : List Answer} {answer : Answer} :
      s.answers = before ++ answer :: after →
      Step jwt .deliver s ({ s with answers := before ++ after }.deliver answer)
  | elsewhere {s : Session p} {label : AccountEnv × SiteCall × SiteAnswer} {site : Site p} :
      SiteStep jwt label s.site site → Step jwt .elsewhere s { s with site := site }

/-- The app right after it was installed and opened. -/
def installed (site : Site p) : Session p := { site := site }

variable {e : Event} {s s' : Session p}

theorem Session.resumeLoad_cases {stage : LoadStage} (h : s.resumeLoad stage = some s') :
    (∃ token, stage = .read (some (some token)) ∧ s' = { s with load := some (.asking token) }) ∨
    (∃ token, stage = .answered token none ∧ s' = { s with load := some .discarding }) ∨
    (∃ token admin, stage = .answered token (some admin) ∧
      s' = { s.signIn token admin with load := none }) ∨
    (stage = .discarded true ∧ s' = { s.signOut with load := none }) ∨
    ((stage = .read none ∨ stage = .read (some none) ∨ stage = .discarded false) ∧
      s' = { s with load := none, state := ⟨none, none, true⟩ }) := by
  cases stage with
  | reading | asking | discarding => simp [resumeLoad] at h
  | read value =>
    rcases value with _ | _ | token
    · exact .inr (.inr (.inr (.inr ⟨.inl rfl, (Option.some.inj h).symm⟩)))
    · exact .inr (.inr (.inr (.inr ⟨.inr (.inl rfl), (Option.some.inj h).symm⟩)))
    · exact .inl ⟨token, rfl, (Option.some.inj h).symm⟩
  | answered token admin =>
    cases admin with
    | none => exact .inr (.inl ⟨token, rfl, (Option.some.inj h).symm⟩)
    | some admin => exact .inr (.inr (.inl ⟨token, admin, rfl, (Option.some.inj h).symm⟩))
  | discarded done =>
    cases done with
    | true => exact .inr (.inr (.inr (.inl ⟨rfl, (Option.some.inj h).symm⟩)))
    | false =>
      exact .inr (.inr (.inr (.inr ⟨.inr (.inr rfl), (Option.some.inj h).symm⟩)))

/-! ### What one step does -/

namespace Session

/-- The app sends nothing when it has got what it waited for. -/
theorem resumeLoad_frame {stage : LoadStage} (h : s.resumeLoad stage = some s') :
    s'.site = s.site ∧ s'.requests = s.requests := by
  rcases resumeLoad_cases h with ⟨_, -, rfl⟩ | ⟨_, -, rfl⟩ | ⟨_, _, -, rfl⟩ | ⟨-, rfl⟩ |
    ⟨-, rfl⟩ <;> exact ⟨rfl, rfl⟩

theorem resume_frame (s : Session p) (reply : StorageOp × Bool) :
    (s.resume reply).site = s.site ∧ (s.resume reply).requests = s.requests := by
  obtain ⟨op, done⟩ := reply
  cases op <;> cases done <;> exact ⟨rfl, rfl⟩

theorem deliver_frame (s : Session p) (answer : Answer) :
    (s.deliver answer).site = s.site ∧ (s.deliver answer).requests = s.requests := by
  cases answer with
  | loggedIn | failed => exact ⟨rfl, rfl⟩
  | updated =>
    simp only [deliver, updateLocalAdminInfo]
    split <;> exact ⟨rfl, rfl⟩

/-- The tokens in the app and in its storage. -/
def tokens (s : Session p) : List String :=
  s.stored.toList ++ (s.state.token.toList ++ (s.load.toList.flatMap LoadStage.tokens ++
    (s.calls.flatMap StorageOp.tokens ++ (s.replies.flatMap (fun reply => reply.1.tokens) ++
      s.answers.flatMap Answer.tokens))))

theorem mem_tokens {token : String} : token ∈ s.tokens ↔
    s.stored = some token ∨ s.state.token = some token ∨
      (∃ stage, s.load = some stage ∧ token ∈ stage.tokens) ∨
      (∃ op ∈ s.calls, token ∈ op.tokens) ∨ (∃ reply ∈ s.replies, token ∈ reply.1.tokens) ∨
      ∃ answer ∈ s.answers, token ∈ answer.tokens := by
  simp only [tokens, List.mem_append, List.mem_flatMap, Option.mem_toList]

end Session

@[simp] theorem StorageOp.value_eq_some {op : StorageOp} {token : String} :
    op.value = some token ↔ token ∈ op.tokens := by
  cases op <;> simp [StorageOp.value, StorageOp.tokens, eq_comm]

/-- A request is sent by the user, with the header of that moment. -/
theorem Step.requests (hstep : Step jwt e s s') {sent : Option String × Request}
    (hsent : sent ∈ s'.requests) :
    sent ∈ s.requests ∨ (sent.1 = s.header ∧
      ((∃ email password, sent.2 = .login email password) → e = .login)) := by
  cases hstep with
  | launch => simp [Session.launch] at hsent
  | login =>
    refine (List.mem_append.mp hsent).imp_right fun hnew => ?_
    obtain rfl := List.mem_singleton.mp hnew
    exact ⟨rfl, fun _ => rfl⟩
  | updateAdmin =>
    refine (List.mem_append.mp hsent).imp_right fun hnew => ?_
    obtain rfl := List.mem_singleton.mp hnew
    exact ⟨rfl, by simp⟩
  | logout | read | discard | write | serveMe | loseMe | elsewhere => exact .inl hsent
  | resumeLoad _ hresume => exact .inl (by rwa [(Session.resumeLoad_frame hresume).2] at hsent)
  | resume => exact .inl (by rwa [(Session.resume_frame _ _).2] at hsent)
  | deliver => exact .inl (by rwa [(Session.deliver_frame _ _).2] at hsent)
  | serve _ hrequests | lose hrequests =>
    left
    rw [hrequests]
    exact List.mem_append.mpr ((List.mem_append.mp hsent).imp_right (List.mem_cons_of_mem _))

/-- What always holds, besides what the storage holds. -/
structure Session.Inv (jwt : Jwt) (s : Session p) : Prop where
  site : SiteReachable jwt s.site
  header : s.header = s.state.token.map Session.bearer
  /-- Nothing else goes on while the app loads. -/
  loading : s.load ≠ none →
    s.state = {} ∧ s.calls = [] ∧ s.replies = [] ∧ s.requests = [] ∧ s.answers = []
  sent : ∀ header request, (some header, request) ∈ s.requests →
    ∃ token, s.site.Granted token ∧ header = Session.bearer token
  tokens : ∀ token ∈ s.tokens, s.site.Granted token

namespace Session.Inv

variable (h : s.Inv jwt)

include h

theorem load_of_screen (hscreen : s.state.screen ≠ .spinner) : s.load = none := by
  by_contra hload
  apply hscreen
  rw [(h.loading hload).1]
  rfl

theorem load_of_calls (hcalls : s.calls ≠ []) : s.load = none := by
  by_contra hload
  exact hcalls (h.loading hload).2.1

theorem load_of_replies (hreplies : s.replies ≠ []) : s.load = none := by
  by_contra hload
  exact hreplies (h.loading hload).2.2.1

theorem load_of_requests (hrequests : s.requests ≠ []) : s.load = none := by
  by_contra hload
  exact hrequests (h.loading hload).2.2.2.1

theorem load_of_answers (hanswers : s.answers ≠ []) : s.load = none := by
  by_contra hload
  exact hanswers (h.loading hload).2.2.2.2

/-- To the site a step of the app is a run of requests, none of them forged. -/
theorem site_run (hstep : Step jwt e s s') :
    ∃ labels, Trace (SiteStep jwt) labels s.site s'.site := by
  have hsame : ∃ labels, Trace (SiteStep jwt) labels s.site s.site := ⟨[], .nil _⟩
  cases hstep with
  | launch | login | logout | updateAdmin | read | discard | write | loseMe | lose => exact hsame
  | resumeLoad _ hresume => rwa [(Session.resumeLoad_frame hresume).1]
  | resume => rwa [(Session.resume_frame _ _).1]
  | deliver => rwa [(Session.deliver_frame _ _).1]
  | serveMe env _ hclock => exact ⟨_, .single (.idle hclock)⟩
  | @serve _ _ _ header request env _ _ hrequests hclock hexec =>
    refine ⟨[(env, .account header request.call, _)], .single ⟨hclock, ?_, hexec⟩⟩
    cases header with
    | none => trivial
    | some header =>
      obtain ⟨token, ⟨g, hg, htoken⟩, hheader⟩ := h.sent header request (by simp [hrequests])
      exact fun _ _ => ⟨g, hg, by rw [hheader, htoken, Session.bearer]⟩
  | elsewhere hsite => exact ⟨_, .single hsite⟩

theorem header_step (hstep : Step jwt e s s') :
    s'.header = s'.state.token.map Session.bearer := by
  have hloading : s.load ≠ none → s.header = none := by
    intro hload
    rw [h.header, (h.loading hload).1]
    rfl
  cases hstep with
  | login | logout | updateAdmin | read | discard | write | serveMe | serve | loseMe | lose |
    elsewhere => exact h.header
  | launch => rfl
  | resumeLoad hload hresume =>
    have hload' : s.load ≠ none := by simp [hload]
    rcases Session.resumeLoad_cases hresume with ⟨_, -, rfl⟩ | ⟨_, -, rfl⟩ | ⟨_, _, -, rfl⟩ |
      ⟨-, rfl⟩ | ⟨-, rfl⟩
    · exact h.header
    · exact h.header
    · rfl
    · rfl
    · exact hloading hload'
  | @resume _ reply =>
    obtain ⟨op, done⟩ := reply
    cases done with
    | false => cases op <;> exact h.header
    | true => cases op <;> rfl
  | @deliver _ _ _ answer =>
    cases answer with
    | loggedIn | failed => exact h.header
    | updated =>
      simp only [Session.deliver, Session.updateLocalAdminInfo]
      split <;> exact h.header

theorem loading_step (hstep : Step jwt e s s') : s'.load ≠ none →
    s'.state = {} ∧ s'.calls = [] ∧ s'.replies = [] ∧ s'.requests = [] ∧ s'.answers = [] := by
  -- whatever else is under way, the app has been loaded
  have hnot : s.load = none → s.load ≠ none → False := fun hload hload' => hload' hload
  cases hstep with
  | launch => exact fun _ => ⟨rfl, rfl, rfl, rfl, rfl⟩
  | login _ _ hscreen | logout hscreen | updateAdmin _ _ _ hscreen =>
    exact fun hload => (hnot (h.load_of_screen (by simp [hscreen])) hload).elim
  | read _ hload | discard _ hload | serveMe _ hload | loseMe hload =>
    exact fun _ => h.loading (by simp [hload])
  | write _ hcalls => exact fun hload => (hnot (h.load_of_calls (by simp [hcalls])) hload).elim
  | resumeLoad hload hresume =>
    have hloading := h.loading (by simp [hload])
    rcases Session.resumeLoad_cases hresume with ⟨_, -, rfl⟩ | ⟨_, -, rfl⟩ | ⟨_, _, -, rfl⟩ |
      ⟨-, rfl⟩ | ⟨-, rfl⟩
    · exact fun _ => hloading
    · exact fun _ => hloading
    · exact fun hload' => absurd rfl hload'
    · exact fun hload' => absurd rfl hload'
    · exact fun hload' => absurd rfl hload'
  | @resume _ reply _ hreplies =>
    have hload := h.load_of_replies (by simp [hreplies])
    obtain ⟨op, done⟩ := reply
    cases done <;> cases op <;> exact fun hload' => (hnot hload hload').elim
  | serve _ hrequests | lose hrequests =>
    exact fun hload => (hnot (h.load_of_requests (by simp [hrequests])) hload).elim
  | @deliver _ _ _ answer hanswers =>
    have hload := h.load_of_answers (by simp [hanswers])
    cases answer with
    | loggedIn | failed => exact fun hload' => (hnot hload hload').elim
    | updated =>
      simp only [Session.deliver, Session.updateLocalAdminInfo]
      split <;> exact fun hload' => (hnot hload hload').elim
  | elsewhere => exact h.loading

/-- The app sends the token that it shows, if any. -/
theorem sent_step (hstep : Step jwt e s s') {header : String} {request : Request}
    (hsent : (some header, request) ∈ s'.requests) :
    (some header, request) ∈ s.requests ∨
      ∃ token, s.state.token = some token ∧ header = Session.bearer token := by
  refine (hstep.requests hsent).imp_right fun ⟨hheader, _⟩ => ?_
  rw [h.header, eq_comm, Option.map_eq_some_iff] at hheader
  obtain ⟨token, htoken, rfl⟩ := hheader
  exact ⟨token, htoken, rfl⟩

end Session.Inv

/-- Only the answer to a login brings a token. -/
theorem Request.tokens_answer {request : Request} {db : AccountDb p} {answer : SiteAnswer}
    {token : String} (h : token ∈ (request.answer db answer).tokens) :
    ∃ email password id fullName email', request = .login email password ∧
      answer = .account (.ok (.loggedIn token id fullName email')) := by
  unfold Request.answer at h
  split at h
  · next email password token' id fullName email' =>
    obtain rfl := List.mem_singleton.mp h
    exact ⟨email, password, id, fullName, email', rfl, rfl⟩
  · next id _ _ _ => cases hrow : db.admins.get? id <;> simp [hrow, Answer.tokens] at h
  · simp [Answer.tokens] at h

/-- A token comes into the app with the answer to a login only. -/
theorem Step.tokens (hstep : Step jwt e s s') {token : String} (htoken : token ∈ s'.tokens) :
    token ∈ s.tokens ∨ (s'.site.Granted token ∧
      ∃ header email password, (header, .login email password) ∈ s.requests) := by
  rw [Session.mem_tokens] at htoken ⊢
  cases hstep with
  | login | updateAdmin | elsewhere => exact .inl htoken
  | launch => simp_all [Session.launch, LoadStage.tokens]
  | logout => grind [StorageOp.tokens]
  | read done hload => cases done <;> grind [LoadStage.tokens]
  | discard done hload => cases done <;> grind [LoadStage.tokens]
  | @write _ _ _ op done hcalls => cases done <;> grind [StorageOp.value_eq_some]
  | resumeLoad hload hresume =>
    rcases Session.resumeLoad_cases hresume with ⟨_, rfl, rfl⟩ | ⟨_, rfl, rfl⟩ | ⟨_, _, rfl, rfl⟩ |
      ⟨rfl, rfl⟩ | ⟨hstage, rfl⟩ <;> grind [LoadStage.tokens, Session.signIn, Session.signOut]
  | @resume _ reply _ hreplies =>
    have hmem : reply ∈ s.replies := by simp [hreplies]
    obtain ⟨op, done⟩ := reply
    cases done <;> cases op <;>
      grind [Session.resume, StorageOp.tokens, Session.signIn, Session.signOut]
  | serveMe _ hload => grind [LoadStage.tokens, Session.serveMe]
  | loseMe hload => grind [LoadStage.tokens]
  | lose hrequests => grind [Answer.tokens]
  | @deliver _ _ _ answer hanswers =>
    have hmem : answer ∈ s.answers := by simp [hanswers]
    cases answer with
    | loggedIn => grind [Session.deliver, Answer.tokens, StorageOp.tokens]
    | failed => grind [Session.deliver]
    | updated => grind [Session.deliver, Session.updateLocalAdminInfo]
  | @serve _ _ _ header request _ answer site hrequests _ hexec =>
    -- only a login answers with a token, and the site has just handed it out
    by_cases hnew : token ∈ (request.answer site.db answer).tokens
    · obtain ⟨email, password, _, _, _, rfl, rfl⟩ := Request.tokens_answer hnew
      exact .inr ⟨Site.granted_of_loggedIn hexec, header, email, password, by simp [hrequests]⟩
    · grind

theorem Session.Inv.step (h : s.Inv jwt) (hstep : Step jwt e s s') : s'.Inv jwt := by
  obtain ⟨labels, hrun⟩ := h.site_run hstep
  have hkept : ∀ token ∈ s.tokens, s'.site.Granted token :=
    fun token htoken => (h.tokens token htoken).run hrun
  refine ⟨h.site.run hrun, h.header_step hstep, h.loading_step hstep, ?_, ?_⟩
  · intro header request hsent
    rcases h.sent_step hstep hsent with hold | ⟨token, htoken, hheader⟩
    · obtain ⟨token, hgranted, hheader⟩ := h.sent header request hold
      exact ⟨token, hgranted.run hrun, hheader⟩
    · exact ⟨token, hkept token (Session.mem_tokens.mpr (.inr (.inl htoken))), hheader⟩
  · intro token htoken
    rcases hstep.tokens htoken with hold | ⟨hgranted, -⟩
    · exact hkept token hold
    · exact hgranted

/-! ### What the storage holds -/

/-- The token that is shown once the app has seen the replies. -/
def settled (token : Option String) (replies : List (StorageOp × Bool)) : Option String :=
  replies.foldl (fun token reply => if reply.2 then reply.1.value else token) token

/-- The storage holds what will be shown, unless it has failed (`faulty`) and nothing was stored
since the app was opened. -/
def Session.Kept (faulty : Prop) (s : Session p) : Prop :=
  match s.load with
  | some .reading | some .discarding => True
  | some (.read value) => value = some s.stored ∨ (faulty ∧ value = none)
  | some (.asking token) | some (.answered token _) => s.stored = some token
  | some (.discarded true) => s.stored = none
  | some (.discarded false) => faulty
  | none => settled s.state.token s.replies = s.stored ∨
      (faulty ∧ s.state.token = none ∧ ∀ reply ∈ s.replies, reply.2 = false)

theorem Session.Kept.step {faulty : Prop} (h : s.Kept faulty) (hinv : s.Inv jwt)
    (hstep : Step jwt e s s') (hfault : e = .storage false → faulty) : s'.Kept faulty := by
  cases hstep with
  | launch => trivial
  | login | logout | updateAdmin | serve | lose | elsewhere => exact h
  | read done hload =>
    cases done with
    | true => exact .inl rfl
    | false => exact .inr ⟨hfault rfl, rfl⟩
  | discard done hload =>
    cases done with
    | true => rfl
    | false => exact hfault rfl
  | serveMe _ hload | loseMe hload =>
    simp only [Session.Kept, hload] at h
    exact h
  | @write _ _ _ op done hcalls =>
    have hload := hinv.load_of_calls (by simp [hcalls])
    simp only [Session.Kept, hload] at h ⊢
    cases done with
    | true =>
      left
      simp [settled]
    | false =>
      -- a failed call leaves the storage alone, and its reply will leave the token alone
      rcases h with hsettled | ⟨hfaulty, htoken, hreplies⟩
      · left
        simpa [settled] using hsettled
      · right
        refine ⟨hfaulty, htoken, ?_⟩
        simpa [or_imp, forall_and] using hreplies
  | resumeLoad hload hresume =>
    have hreplies := (hinv.loading (by simp [hload])).2.2.1
    rw [Session.Kept, hload] at h
    rcases Session.resumeLoad_cases hresume with ⟨_, rfl, rfl⟩ | ⟨_, rfl, rfl⟩ | ⟨_, _, rfl, rfl⟩ |
      ⟨rfl, rfl⟩ | ⟨hstage, rfl⟩
    · rcases h with hvalue | ⟨-, hvalue⟩
      · exact (Option.some.inj hvalue).symm
      · exact absurd hvalue (by simp)
    · trivial
    · left
      show settled _ s.replies = s.stored
      rw [hreplies]
      exact h.symm
    · left
      show settled none s.replies = s.stored
      rw [hreplies]
      exact h.symm
    · rcases hstage with rfl | rfl | rfl
      · exact .inr ⟨(h.resolve_left (by simp)).1, rfl, by simp [hreplies]⟩
      · left
        show settled none s.replies = s.stored
        rw [hreplies]
        exact Option.some.inj (h.resolve_right (by simp))
      · exact .inr ⟨h, rfl, by simp [hreplies]⟩
  | @resume _ reply replies hreplies =>
    have hload := hinv.load_of_replies (by simp [hreplies])
    obtain ⟨op, done⟩ := reply
    rw [Session.Kept, hload, hreplies] at h
    cases done with
    | true =>
      -- a reply that reports success has been preceded by the write
      have hsettled : settled op.value replies = s.stored :=
        h.resolve_right fun hnone => absurd (hnone.2.2 _ List.mem_cons_self) (by simp)
      cases op with
      | write | delete =>
        simp only [Session.Kept, Session.resume, Session.signIn, Session.signOut, hload]
        exact .inl hsettled
    | false =>
      have hkept : settled s.state.token replies = s.stored ∨
          (faulty ∧ s.state.token = none ∧ ∀ reply ∈ replies, reply.2 = false) :=
        h.imp_right fun hnone => ⟨hnone.1, hnone.2.1, fun r hr =>
          hnone.2.2 r (List.mem_cons_of_mem _ hr)⟩
      cases op with
      | write | delete =>
        simp only [Session.Kept, Session.resume, hload]
        exact hkept
  | @deliver _ _ _ answer =>
    cases answer with
    | loggedIn | failed => exact h
    | updated =>
      simp only [Session.deliver, Session.updateLocalAdminInfo]
      split <;> exact h

/-- Nothing goes on between the app and the storage. -/
structure Session.Resting (s : Session p) : Prop where
  load : s.load = none
  calls : s.calls = []
  replies : s.replies = []

theorem Session.Kept.resting {faulty : Prop} (h : s.Kept faulty) (hrest : s.Resting) :
    s.stored = s.state.token ∨ (faulty ∧ s.state.token = none) := by
  rw [Session.Kept, hrest.load, hrest.replies] at h
  rcases h with hsettled | ⟨hfaulty, htoken, -⟩
  · exact .inl hsettled.symm
  · exact .inr ⟨hfaulty, htoken⟩

/-! ### Whole runs -/

variable {site : Site p} {events : List Event}

theorem installed_inv (h : SiteReachable jwt site) : (installed site).Inv jwt := by
  refine ⟨h, rfl, fun _ => ⟨rfl, rfl, rfl, rfl, rfl⟩, ?_, ?_⟩
  · simp [installed]
  · simp [installed, Session.tokens, LoadStage.tokens]

theorem Session.Inv.run (h : s.Inv jwt) (hrun : Trace (Step jwt) events s s') : s'.Inv jwt :=
  hrun.invariant (fun _ _ _ _ hstep hinv => Session.Inv.step hinv hstep) h

theorem Session.Kept.run {faulty : Prop} (h : s.Kept faulty) (hinv : s.Inv jwt)
    (hrun : Trace (Step jwt) events s s') (hfault : .storage false ∈ events → faulty) :
    s'.Kept faulty := by
  have hboth : s'.Inv jwt ∧ s'.Kept faulty := by
    refine hrun.invariant (I := fun s => s.Inv jwt ∧ s.Kept faulty) ?_ ⟨hinv, h⟩
    rintro e he s s' hstep ⟨hinv, hkept⟩
    exact ⟨hinv.step hstep, hkept.step hinv hstep fun heq => hfault (heq ▸ he)⟩
  exact hboth.2

/-- **The session is consistent**, however storage, network, user and site take turns. The site
is in a state that its requests lead to. What the user asks for is sent with the token that is
shown then, or with none when none is shown; only the check at the start is made with the token in
the storage, before one is shown. All tokens of the app were handed out by the site. When nothing
goes on between app and storage, the storage holds the token that is shown, or has failed and
nobody is signed in. -/
theorem session_consistent (hsite : SiteReachable jwt site)
    (hrun : Trace (Step jwt) events (installed site) s) :
    SiteReachable jwt s.site ∧
      s.header = s.state.token.map Session.bearer ∧
      (∀ e s', Step jwt e s s' → ∀ sent ∈ s'.requests,
        sent ∈ s.requests ∨ sent.1 = s.state.token.map Session.bearer) ∧
      (∀ token, s.load = some (.asking token) → s.stored = some token ∧ s.state.token = none) ∧
      (∀ token ∈ s.tokens, s.site.Granted token) ∧
      (s.Resting → s.stored = s.state.token ∨
        (.storage false ∈ events ∧ s.state.token = none)) := by
  have hstart := installed_inv hsite
  have hinv := hstart.run hrun
  have hkept : s.Kept (.storage false ∈ events) :=
    Session.Kept.run (s := installed site) trivial hstart hrun id
  refine ⟨hinv.site, hinv.header, ?_, ?_, hinv.tokens, hkept.resting⟩
  · intro e s' hstep sent hsent
    rw [← hinv.header]
    exact (hstep.requests hsent).imp_right And.left
  · intro token hload
    rw [Session.Kept, hload] at hkept
    rw [(hinv.loading (by simp [hload])).1]
    exact ⟨hkept, rfl⟩

variable {later : List Event}

/-- **Signed out for good.** Let nobody be signed in, with no login under way and nothing going
on between app and storage, which has not failed. Then no token gets into the app until somebody
logs in, whatever else happens: the home screen is not shown, requests carry no header, and the
app may be closed and opened again. -/
theorem signed_out_stays (hsite : SiteReachable jwt site)
    (hrun : Trace (Step jwt) events (installed site) s) (hsound : .storage false ∉ events)
    (hrest : s.Resting) (hanswers : ∀ token admin, .loggedIn token admin ∉ s.answers)
    (hlogins : ∀ header email password, (header, .login email password) ∉ s.requests)
    (htoken : s.state.token = none) (hlater : Trace (Step jwt) later s s')
    (hquiet : .login ∉ later) :
    s'.stored = none ∧ s'.header = none ∧ s'.state.screen ≠ .homeShell := by
  have hinv := (installed_inv hsite).run hrun
  have hkept : s.Kept (.storage false ∈ events) :=
    Session.Kept.run (s := installed site) trivial (installed_inv hsite) hrun id
  have hstored : s.stored = none := by
    rcases hkept.resting hrest with hsame | ⟨hfault, -⟩
    · rw [hsame, htoken]
    · exact absurd hfault hsound
  have hstart : ∀ token, token ∉ s.tokens := by
    intro token hmem
    rw [Session.mem_tokens, hstored, htoken, hrest.load, hrest.calls, hrest.replies] at hmem
    -- all the other places are empty
    obtain ⟨answer, hanswer, htokens⟩ : ∃ answer ∈ s.answers, token ∈ answer.tokens := by
      simpa using hmem
    cases answer with
    | loggedIn token' admin => exact hanswers token' admin hanswer
    | updated | failed => simp [Answer.tokens] at htokens
  obtain ⟨hnone, -⟩ : (∀ token, token ∉ s'.tokens) ∧
      ∀ header email password, (header, .login email password) ∉ s'.requests := by
    refine hlater.invariant (I := fun s => (∀ token, token ∉ s.tokens) ∧
      ∀ header email password, (header, .login email password) ∉ s.requests) ?_ ⟨hstart, hlogins⟩
    rintro e he s s' hstep ⟨hnone, hlogins⟩
    have he' : e ≠ .login := fun heq => hquiet (heq ▸ he)
    constructor
    · intro token htoken
      rcases hstep.tokens htoken with hold | ⟨-, header, email, password, hsent⟩
      · exact hnone token hold
      · exact hlogins header email password hsent
    · intro header email password hsent
      rcases hstep.requests hsent with hold | ⟨-, hlogin⟩
      · exact hlogins header email password hold
      · exact he' (hlogin ⟨email, password, rfl⟩)
  have hstored' : s'.stored = none :=
    Option.eq_none_iff_forall_ne_some.mpr fun token h =>
      hnone token (Session.mem_tokens.mpr (.inl h))
  have htoken' : s'.state.token = none :=
    Option.eq_none_iff_forall_ne_some.mpr fun token h =>
      hnone token (Session.mem_tokens.mpr (.inr (.inl h)))
  refine ⟨hstored', ?_, ?_⟩
  · rw [(hinv.run hlater).header, htoken']
    rfl
  · unfold AuthState.screen
    rw [htoken']
    split <;> simp

/-! ### Opening the app again -/

/-- What `/auth/me` finds for a token that was handed out. -/
theorem me_granted {g : Grant} {clock now : LocalDateTime} (hg : g.Issued jwt clock)
    (db : AccountDb p) :
    AuthController.me jwt now (some (Session.bearer g.token)) db =
      AdminService.findByEmail db
        (if now ≤ g.expiration then g.admin.email else "anonymousUser") := by
  have hprincipal : (authenticate jwt now (some (Session.bearer g.token))).getD "anonymousUser" =
      if now ≤ g.expiration then g.admin.email else "anonymousUser" := by
    rw [Session.bearer, hg.token]
    split
    · next hlive =>
      rw [authenticate_generated.mpr ⟨rfl, hlive⟩]
      rfl
    · next hexpired =>
      have hnone : authenticate jwt now
          (some ("Bearer " ++ JwtProvider.generateToken jwt g.time g.admin.email)) = none :=
        Option.eq_none_iff_forall_ne_some.mpr fun principal h =>
          hexpired (authenticate_generated.mp h).2
      rw [hnone]
      rfl
  rw [AuthController.me, hprincipal]

/-- In the run from `start` to `s`, `/auth/me` was served for the token and found this account. -/
def Seen (jwt : Jwt) (start : Session p) (events : List Event) (token : String)
    (account : Option (Id × Admin)) (s : Session p) : Prop :=
  ∃ before after env t, events = before ++ .serve :: after ∧
    Trace (Step jwt) before start t ∧ t.load = some (.asking token) ∧ t.site.clock ≤ env.now ∧
    Trace (Step jwt) after (t.serveMe jwt env token) s ∧
    AuthController.me jwt env.now (some (Session.bearer token)) t.site.db = account

variable {start : Session p} {token : String} {account : Option (Id × Admin)}

theorem Seen.step (h : Seen jwt start events token account s) (hstep : Step jwt e s s') :
    Seen jwt start (events ++ [e]) token account s' := by
  obtain ⟨before, after, env, t, rfl, hbefore, hload, hclock, hafter, hme⟩ := h
  exact ⟨before, after ++ [e], env, t, by simp, hbefore, hload, hclock,
    hafter.append (.single hstep), hme⟩

/-- How far the app is with the token from its storage, if `/auth/me` has found one of the
accounts that were `seen`. -/
abbrev Session.Resuming (s : Session p) (token : String)
    (seen : Option (Id × Admin) → Prop) : Prop :=
  match s.load with
  | some .reading => s.stored = some token
  | some (.read value) => value = some (some token) ∧ s.stored = some token
  | some (.asking t) => t = token ∧ s.stored = some token
  | some (.answered t admin) => t = token ∧ s.stored = some token ∧
      ∃ account, seen account ∧ admin = account.map .of
  | some .discarding => seen none
  | some (.discarded done) => done = true ∧ s.stored = none ∧ seen none
  | none => ∃ account, seen account ∧ s.stored = account.map (fun _ => token) ∧
      s.state = ⟨account.map fun _ => token, account.map .of, true⟩

theorem Session.Resuming.imp {seen seen' : Option (Id × Admin) → Prop}
    (h : s.Resuming token seen) (hseen : ∀ {account}, seen account → seen' account) :
    s.Resuming token seen' := by
  unfold Session.Resuming at h ⊢
  cases hload : s.load with
  | none =>
    rw [hload] at h
    obtain ⟨account, hfound, hshown⟩ := h
    exact ⟨account, hseen hfound, hshown⟩
  | some stage =>
    rw [hload] at h
    cases stage with
    | reading | read | asking => exact h
    | answered =>
      obtain ⟨htoken, hstored, account, hfound, hadmin⟩ := h
      exact ⟨htoken, hstored, account, hseen hfound, hadmin⟩
    | discarding => exact hseen h
    | discarded => exact ⟨h.1, h.2.1, hseen h.2.2⟩

/-- The app has been opened with the token in its storage, and nobody has touched it. -/
structure Relaunched (jwt : Jwt) (start : Session p) (token : String) (events : List Event)
    (s : Session p) : Prop where
  run : Trace (Step jwt) events start s
  idle : s.calls = [] ∧ s.replies = [] ∧ s.requests = [] ∧ s.answers = []
  stage : s.Resuming token fun account => Seen jwt start events token account s

/-- What moves an app that is left alone, when nothing fails. -/
def Event.Undisturbed (e : Event) : Prop :=
  e = .storage true ∨ e = .resume ∨ e = .serve ∨ e = .elsewhere

theorem Relaunched.step (h : Relaunched jwt start token events s) (hstep : Step jwt e s s')
    (he : e.Undisturbed) : Relaunched jwt start token (events ++ [e]) s' := by
  have hrun := h.run.append (.single hstep)
  have hseen : ∀ {account}, Seen jwt start events token account s →
      Seen jwt start (events ++ [e]) token account s' := fun hseen => hseen.step hstep
  obtain ⟨hbefore, ⟨hcalls, hreplies, hrequests, hanswers⟩, hstage⟩ := h
  cases hstep with
  | launch | login | logout | updateAdmin | loseMe | lose | deliver =>
    simp [Event.Undisturbed] at he
  | read done hload =>
    obtain rfl : done = true := by simpa [Event.Undisturbed] using he
    rw [Session.Resuming, hload] at hstage
    exact ⟨hrun, ⟨hcalls, hreplies, hrequests, hanswers⟩, congrArg some hstage, hstage⟩
  | discard done hload =>
    obtain rfl : done = true := by simpa [Event.Undisturbed] using he
    rw [Session.Resuming, hload] at hstage
    exact ⟨hrun, ⟨hcalls, hreplies, hrequests, hanswers⟩, rfl, rfl, hseen hstage⟩
  | write _ hop => simp [hcalls] at hop
  | resume hreply => simp [hreplies] at hreply
  | serve _ hrequest => simp [hrequests] at hrequest
  | resumeLoad hload hresume =>
    rw [Session.Resuming, hload] at hstage
    rcases Session.resumeLoad_cases hresume with ⟨_, rfl, rfl⟩ | ⟨_, rfl, rfl⟩ | ⟨_, _, rfl, rfl⟩ |
      ⟨rfl, rfl⟩ | ⟨hend, rfl⟩
    · refine ⟨hrun, ⟨hcalls, hreplies, hrequests, hanswers⟩, ?_, hstage.2⟩
      simpa using hstage.1
    · obtain ⟨-, -, account, hfound, hnone⟩ := hstage
      rw [eq_comm, Option.map_eq_none_iff] at hnone
      exact ⟨hrun, ⟨hcalls, hreplies, hrequests, hanswers⟩, hseen (hnone ▸ hfound)⟩
    · obtain ⟨rfl, hstored, account, hfound, hsome⟩ := hstage
      obtain ⟨found, rfl, rfl⟩ := Option.map_eq_some_iff.mp hsome.symm
      exact ⟨hrun, ⟨hcalls, hreplies, hrequests, hanswers⟩, some found, hseen hfound, hstored, rfl⟩
    · exact ⟨hrun, ⟨hcalls, hreplies, hrequests, hanswers⟩, none, hseen hstage.2.2, hstage.2.1, rfl⟩
    · rcases hend with rfl | rfl | rfl <;> simp at hstage
  -- the request is served: this is the moment that was seen
  | @serveMe _ token' env hload hclock =>
    rw [Session.Resuming, hload] at hstage
    obtain ⟨rfl, hstored⟩ := hstage
    refine ⟨hrun, ⟨hcalls, hreplies, hrequests, hanswers⟩, rfl, hstored, _, ?_, rfl⟩
    exact ⟨events, [], env, s, rfl, hbefore, hload, hclock, .nil _, rfl⟩
  | elsewhere hmove =>
    exact ⟨hrun, ⟨hcalls, hreplies, hrequests, hanswers⟩, Session.Resuming.imp hstage hseen⟩

theorem Relaunched.steps (h : Relaunched jwt start token events s)
    (hlater : Trace (Step jwt) later s s') (hquiet : ∀ e ∈ later, e.Undisturbed) :
    Relaunched jwt start token (events ++ later) s' := by
  induction hlater generalizing events with
  | nil => rwa [List.append_nil]
  | @cons e rest _ _ _ hstep _ ih =>
    have hrest := ih (h.step hstep (hquiet e List.mem_cons_self))
      fun e' he' => hquiet e' (List.mem_cons_of_mem _ he')
    rwa [List.append_assoc, List.singleton_append] at hrest

/-- **Opening the app again.** Let it be closed while somebody is signed in and nothing goes on
between app and storage, and be opened again later, whatever happens on the site meanwhile. When
it has loaded, and nothing has failed, the site has served its `/auth/me` at one moment of the
run. The app shows the account that had, at that moment, the e-mail the token was made for, if the
token had not expired then, and keeps the token. If there was no such account, it shows the login
screen and has removed the token. An expired token stands for the e-mail `anonymousUser`. -/
theorem relaunch_resumes (hsite : SiteReachable jwt site)
    (hrun : Trace (Step jwt) events (installed site) s) (hrest : s.Resting)
    (htoken : s.state.token = some token) (hlater : Trace (Step jwt) later s.launch s')
    (hquiet : ∀ e ∈ later, e.Undisturbed) (hloaded : s'.load = none) :
    ∃ g ∈ s.site.grants, g.token = token ∧ ∃ before after env t,
      later = before ++ .serve :: after ∧ Trace (Step jwt) before s.launch t ∧
      t.load = some (.asking token) ∧ t.site.clock ≤ env.now ∧
      Trace (Step jwt) after (t.serveMe jwt env token) s' ∧ ∃ account,
        AdminService.findByEmail t.site.db
          (if env.now ≤ g.expiration then g.admin.email else "anonymousUser") = account ∧
        s'.stored = account.map (fun _ => token) ∧
        s'.state = ⟨account.map fun _ => token, account.map .of, true⟩ := by
  have hinv := (installed_inv hsite).run hrun
  have hkept : s.Kept True := Session.Kept.run (s := installed site) trivial (installed_inv hsite)
    hrun fun _ => trivial
  have hstored : s.stored = some token := by
    rcases hkept.resting hrest with hsame | ⟨-, hnone⟩
    · rw [hsame, htoken]
    · exact absurd (htoken.symm.trans hnone) (by simp)
  obtain ⟨g, hg, rfl⟩ := hinv.tokens token (Session.mem_tokens.mpr (.inl hstored))
  have hstart : Relaunched jwt s.launch g.token [] s.launch :=
    ⟨.nil _, ⟨rfl, rfl, rfl, rfl⟩, hstored⟩
  have hstage := (hstart.steps hlater hquiet).stage
  rw [Session.Resuming, hloaded] at hstage
  obtain ⟨account, ⟨before, after, env, t, hsplit, hbefore, hload, hclock, hafter, hme⟩, hstored',
    hstate⟩ := hstage
  rw [me_granted (hinv.site.sound.grants g hg)] at hme
  exact ⟨g, hg, rfl, before, after, env, t, hsplit, hbefore, hload, hclock, hafter, account, hme,
    hstored', hstate⟩

/-! ### The holder of the only account, in the app -/

/-- The account as the app remembers it. -/
def onlyAdminInfo : AdminInfo := ⟨1, "Gerant", "gerant@agence.test"⟩

/-- The app once the holder of the account has signed in. -/
def signedInApp (jwt : Jwt) : Session PasswordResetService.accentBlind :=
  { installed (signedInSite jwt) with
    stored := some (firstGrant jwt).token
    state := ⟨some (firstGrant jwt).token, some onlyAdminInfo, true⟩
    header := some (Session.bearer (firstGrant jwt).token)
    load := none }

/-- A first start, a login, and the token put into the storage. -/
def signingIn : List Event :=
  [.storage true, .resume, .login, .serve, .deliver, .storage true, .resume]

theorem signedInApp_run (jwt : Jwt) :
    Trace (Step jwt) signingIn (installed oneAccount) (signedInApp jwt) := by
  refine .cons (.read true rfl) (.cons (.resumeLoad rfl rfl) ?_)
  refine .cons (.login "Gerant@agence.test" "" rfl) ?_
  refine .cons (@Step.serve _ _ _ [] [] _ _ (.atTime 0 []) _ _ rfl (Int.le_refl 0)
    (signedInSite_step jwt).exec) ?_
  refine .cons (@Step.deliver _ _ _ [] [] _ rfl) ?_
  exact .cons (@Step.write _ _ _ [] [] _ true rfl) (.cons (.resume rfl) (.nil _))

theorem oneAccount_reachable (jwt : Jwt) : SiteReachable jwt oneAccount :=
  ⟨[], 0, oneAccount.db.admins, .nil _⟩

theorem signedInApp_resting (jwt : Jwt) : (signedInApp jwt).Resting := ⟨rfl, rfl, rfl⟩

theorem session_consistent_signedIn :
    (signedInApp plainJwt).Resting ∧
      (signedInApp plainJwt).stored = (signedInApp plainJwt).state.token ∧
      (signedInSite plainJwt).Granted (firstGrant plainJwt).token := by
  obtain ⟨-, -, -, -, hgranted, hstored⟩ :=
    session_consistent (oneAccount_reachable plainJwt) (signedInApp_run plainJwt)
  have hrest := signedInApp_resting plainJwt
  refine ⟨hrest, (hstored hrest).resolve_right fun hfault => ?_, hgranted _ ?_⟩
  · exact absurd hfault.1 (by simp [signingIn])
  · exact Session.mem_tokens.mpr (.inl rfl)

/-- The app once the holder of the account has signed out again. -/
def signedOutApp (jwt : Jwt) : Session PasswordResetService.accentBlind :=
  { installed (signedInSite jwt) with state := ⟨none, none, true⟩, load := none }

theorem signedOutApp_run (jwt : Jwt) :
    Trace (Step jwt) (signingIn ++ [.logout, .storage true, .resume]) (installed oneAccount)
      (signedOutApp jwt) := by
  refine (signedInApp_run jwt).append (.cons (.logout rfl) ?_)
  exact .cons (@Step.write _ _ _ [] [] _ true rfl) (.cons (.resume rfl) (.nil _))

/-- Closed and opened again, the app asks for a password. -/
theorem signed_out_stays_reopened :
    ∃ s' : Session PasswordResetService.accentBlind,
      Trace (Step plainJwt) [.launch, .storage true, .resume] (signedOutApp plainJwt) s' ∧
      s'.state.screen = .loginScreen ∧ s'.stored = none ∧ s'.header = none := by
  have hlater : Trace (Step plainJwt) [.launch, .storage true, .resume] (signedOutApp plainJwt)
      (signedOutApp plainJwt) :=
    .cons (.launch _) (.cons (.read true rfl) (.cons (.resumeLoad rfl rfl) (.nil _)))
  obtain ⟨hstored, hheader, -⟩ := signed_out_stays (oneAccount_reachable plainJwt)
    (signedOutApp_run plainJwt) (by simp [signingIn]) ⟨rfl, rfl, rfl⟩
    (by simp [signedOutApp, installed]) (by simp [signedOutApp, installed]) rfl hlater (by simp)
  exact ⟨_, hlater, rfl, hstored, hheader⟩

/-- The account, as `/auth/me` finds it a minute later. -/
theorem signedInSite_me : AuthController.me plainJwt 60
    (some (Session.bearer (firstGrant plainJwt).token)) (signedInSite plainJwt).db =
      some (1, { PasswordResetService.onlyAdmin with lastLogin := some 0 }) := by
  have hissued := (signedInSite_reachable plainJwt).sound.grants _ (List.mem_singleton_self _)
  rw [me_granted hissued]
  rfl

/-- Opened again after a minute, the app shows the account. -/
theorem relaunch_resumes_nextMinute :
    ∃ s' : Session PasswordResetService.accentBlind,
      Trace (Step plainJwt) [.storage true, .resume, .serve, .resume]
        (signedInApp plainJwt).launch s' ∧
      s'.state.screen = .homeShell ∧ s'.stored = s'.state.token := by
  have hlater : Trace (Step plainJwt) [.storage true, .resume, .serve, .resume]
      (signedInApp plainJwt).launch
      { signedInApp plainJwt with
        site := (signedInSite plainJwt).moved 60 (signedInSite plainJwt).db } := by
    refine .cons (.read true rfl) (.cons (.resumeLoad rfl rfl) ?_)
    refine .cons (.serveMe (.atTime 60 []) rfl (by decide)) (.cons (.resumeLoad rfl ?_) (.nil _))
    show Session.resumeLoad _ (.answered _ (Option.map _ (AuthController.me plainJwt 60
      (some (Session.bearer (firstGrant plainJwt).token)) (signedInSite plainJwt).db))) = _
    rw [signedInSite_me]
    rfl
  obtain ⟨-, -, -, -, -, -, -, -, -, -, -, -, account, -, hstored, hstate⟩ :=
    relaunch_resumes (oneAccount_reachable plainJwt) (signedInApp_run plainJwt)
      (signedInApp_resting plainJwt) rfl hlater (by simp [Event.Undisturbed]) rfl
  exact ⟨_, hlater, rfl, by rw [hstored, hstate]⟩

end AuthNotifier

end CarRental
