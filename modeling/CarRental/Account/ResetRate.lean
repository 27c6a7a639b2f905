import Mathlib.Data.Int.Order.Basic
import CarRental.Lib.SlidingWindow
import CarRental.Account.ResetLimit

/-!
# CarRental.Account.ResetRate

**At most three reset requests an hour.** `registerRequestAttempt` is the sliding
window of `CarRental.Lib.SlidingWindow` with one list for each normalised address.
`reset_rate_limited` is its promise over whole histories of `requestReset`: whatever
the spellings, three requests for an address get past it in any hour, and only a
fourth one is turned away.

The hour is closed: an attempt that is exactly an hour old still counts.
-/

namespace CarRental.PasswordResetService

open Lib

variable {p : Platform} {env : AccountEnv} {email : Option String} {server : Server p}

/-- The beginning of the hour that ends now. -/
def oneHourAgo (now : LocalDateTime) : LocalDateTime := now - oneHour

theorem oneHourAgo_le {now later : LocalDateTime} (h : now ≤ later) :
    oneHourAgo now ≤ oneHourAgo later :=
  Int.sub_le_sub_right h _

/-- Does the request get past `registerRequestAttempt`? -/
def getsPast (env : AccountEnv) (email : Option String) (server : Server p) : Bool :=
  match (registerRequestAttempt env.now (normalizeEmail p email) server.attempts).1 with
  | .ok _ => true
  | .error _ => false

/-- The server after a request. One that is still looking for an unused code has been counted
already. -/
def served (env : AccountEnv) (email : Option String) (server : Server p) : Server p :=
  match requestReset env email server with
  | some (_, server') => server'
  | none =>
    { server with
      attempts := (registerRequestAttempt env.now (normalizeEmail p email) server.attempts).2 }

/-- The requests of a run with their times and normalised addresses, and whether they got past
the limit. -/
def requestHistory : List (AccountEnv × Option String) → Server p →
    List (Logged LocalDateTime String)
  | [], _ => []
  | c :: rest, server =>
    ⟨c.1.now, normalizeEmail p c.2, getsPast c.1 c.2 server⟩ ::
      requestHistory rest (served c.1 c.2 server)

/-! ### The limit is a sliding window -/

/-- The attempts are pruned, tested and extended as the window does. -/
theorem registerRequestAttempt_eq (now : LocalDateTime) (e : String)
    (attempts : String → List LocalDateTime) :
    registerRequestAttempt now e attempts =
      (if (registerCall oneHourAgo maxRequestsPerHour now e attempts).1 then .ok ()
        else .error (.illegalArgument "RESET_REQUEST_LIMIT_REACHED"),
      (registerCall oneHourAgo maxRequestsPerHour now e attempts).2) := by
  have hkept : (attempts e).filter (fun dateTime => !decide (dateTime < now - oneHour)) =
      (attempts e).filter fun τ => oneHourAgo now ≤ τ := by
    refine List.filter_congr fun τ _ => ?_
    rw [← decide_not, decide_eq_decide]
    exact Int.not_lt
  unfold registerRequestAttempt registerCall
  dsimp only
  rw [hkept]
  split
  · rfl
  · rfl

theorem getsPast_eq : getsPast env email server =
    (registerCall oneHourAgo maxRequestsPerHour env.now (normalizeEmail p email)
      server.attempts).1 := by
  unfold getsPast
  rw [registerRequestAttempt_eq]
  cases (registerCall oneHourAgo maxRequestsPerHour env.now (normalizeEmail p email)
    server.attempts).1 <;> rfl

/-- Whatever becomes of a request, its attempt has been registered. -/
theorem served_attempts : (served env email server).attempts =
    (registerCall oneHourAgo maxRequestsPerHour env.now (normalizeEmail p email)
      server.attempts).2 := by
  have hregister := congrArg Prod.snd
    (registerRequestAttempt_eq env.now (normalizeEmail p email) server.attempts)
  unfold served
  split
  · next hreset =>
    rw [(requestReset_cases hreset).1]
    exact hregister
  · exact hregister

theorem requestHistory_eq (calls : List (AccountEnv × Option String)) (server : Server p) :
    requestHistory calls server = callLog oneHourAgo maxRequestsPerHour
      (calls.map fun c => (c.1.now, normalizeEmail p c.2)) server.attempts := by
  induction calls generalizing server with
  | nil => rfl
  | cons c rest ih =>
    show _ :: requestHistory rest (served c.1 c.2 server) = _
    rw [ih, served_attempts, getsPast_eq]
    rfl

/-! ### Whole histories -/

/-- **The rate limit.** On a server that has just started, in any sequence of requests with a
non-decreasing clock: within any closed hour at most three requests for one normalised address
get past `registerRequestAttempt`, and a request is turned away there only when three requests
for its address got past it within the closed hour before it. -/
theorem reset_rate_limited (calls : List (AccountEnv × Option String)) (server : Server p)
    (hstart : server.attempts = fun _ => [])
    (hclock : (calls.map fun c => c.1.now).Pairwise (· ≤ ·)) :
    (∀ e t, (passes e t (t + oneHour) (requestHistory calls server)).length ≤ 3) ∧
    ∀ pre a post, requestHistory calls server = pre ++ a :: post → a.passed = false →
      3 ≤ (passes a.key (a.time - oneHour) a.time pre).length := by
  have hclock' : ((calls.map fun c => (c.1.now, normalizeEmail p c.2)).map Prod.fst).Pairwise
      (· ≤ ·) := by
    rw [List.map_map]
    exact hclock
  rw [requestHistory_eq, hstart]
  obtain ⟨hbound, hfull⟩ :=
    callLog_limited maxRequestsPerHour (fun _ _ h => oneHourAgo_le h) _ hclock'
  refine ⟨fun e t => hbound e t (t + oneHour) ?_, hfull⟩
  show t + oneHour - oneHour ≤ t
  rw [Int.add_sub_cancel]

/-- Four requests in a row for one address: three get past the limit, the fourth does not. -/
theorem reset_rate_limited_fourRequests :
    ((requestHistory (fourRequests "gerant@agence.test") (serverWith (some onlyAdmin))).map
      Logged.passed = [true, true, true, false]) ∧
    ∀ e t, (passes e t (t + oneHour)
      (requestHistory (fourRequests "gerant@agence.test")
        (serverWith (some onlyAdmin)))).length ≤ 3 :=
  ⟨by rw [requestHistory_eq]; decide +kernel, (reset_rate_limited _ _ rfl (by decide)).1⟩

end CarRental.PasswordResetService
