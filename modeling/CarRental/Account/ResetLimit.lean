import Mathlib.Data.Set.Function
import CarRental.Account.PasswordReset

/-!
# CarRental.Account.ResetLimit

**What a reset request tells about an account.** The answer of the endpoint is the
same sentence whether or not the address has an account, so the only thing left to
see is whether the request was refused.

Two limits can refuse it. One is kept in memory for every address, under the
normalised text. The other counts stored tokens, which only accounts have. As long
as the database and the Java code take the same addresses for equal, the second
never decides: a token is only stored by a request that the first limit has counted
(`Bounded`), so the answers are those of the first limit alone
(`requests_reveal_nothing`).

They do not take the same addresses for equal: the collation of the column ignores
accents. Spelling an address in two ways passes the first limit and runs into the
second, but only if there is an account (`requests_reveal_account`).
-/

namespace CarRental.PasswordResetService

open Lib

variable {p : Platform} {env : AccountEnv} {email : Option String} {server server' : Server p}
  {emails : Set String} {clock : LocalDateTime}

/-- The number of tokens requested for `e` and created after `τ`. -/
abbrev requested (db : AccountDb p) (e : String) (τ : LocalDateTime) : Nat :=
  PasswordResetTokenRepository.countByRequestedEmailAndCreatedAtAfter db e τ

/-! ### Requests one after the other -/

/-- The outcomes of a sequence of requests, if all of them return. -/
def serve : List (AccountEnv × Option String) → Server p →
    Option (List (Except AccountError Unit))
  | [], _ => some []
  | c :: rest, server => do
    let (answer, server) ← requestReset c.1 c.2 server
    let answers ← serve rest server
    pure (answer.map (fun _ => ()) :: answers)

/-- The outcomes if there were only the limit in memory. -/
def attemptAnswers : List (LocalDateTime × String) → (String → List LocalDateTime) →
    List (Except AccountError Unit)
  | [], _ => []
  | c :: rest, attempts =>
    (registerRequestAttempt c.1 c.2 attempts).1 ::
      attemptAnswers rest (registerRequestAttempt c.1 c.2 attempts).2

/-! ### Tokens are bounded by attempts -/

/-- Within the last hour no address has more tokens than remembered attempts. -/
structure Bounded (emails : Set String) (clock : LocalDateTime) (server : Server p) : Prop where
  known : ∀ i token, server.db.tokens.get? i = some token → token.requestedEmail ∈ emails
  bound : ∀ e ∈ emails, ∀ τ, clock - oneHour ≤ τ →
    requested server.db e τ ≤ ((server.attempts e).filter fun time => τ < time).length

theorem requested_cleanup (env : AccountEnv) (db : AccountDb p) (e : String) (τ : LocalDateTime) :
    requested (cleanupExpiredTokens env db) e τ ≤ requested db e τ :=
  (List.filter_sublist.filter _).length_le

theorem requested_insert {db db' : AccountDb p} {token : PasswordResetToken} {e : String}
    {τ : LocalDateTime} (h : db'.tokens.table = db.tokens.table.insert token) :
    requested db' e τ = requested db e τ +
      if p.collate token.requestedEmail = p.collate e ∧ τ < token.createdAt then 1 else 0 := by
  unfold requested PasswordResetTokenRepository.countByRequestedEmailAndCreatedAtAfter Table.select
  rw [h, Table.rows_insert, List.filter_append, List.length_append]
  split
  · next hcounts => simp [hcounts]
  · next hnot =>
    rw [List.filter_cons_of_neg (by simpa using hnot)]
    simp

/-- Dropping the attempts before the last hour does not change the later ones. -/
theorem filter_kept {times : List LocalDateTime} {now τ : LocalDateTime} (h : now - oneHour ≤ τ) :
    (times.filter fun time => !decide (time < now - oneHour)).filter (fun time => τ < time) =
      times.filter fun time => τ < time := by
  rw [List.filter_filter]
  refine List.filter_congr fun time _ => ?_
  by_cases hτ : τ < time
  · have hkept : ¬ time < now - oneHour := Int.not_lt.mpr (Int.le_of_lt (Int.lt_of_le_of_lt h hτ))
    simp [hτ, hkept]
  · simp [hτ]

/-- The attempts of an address after a request, counted after `τ`. -/
theorem attempts_after {e e' : String} {attempts : String → List LocalDateTime}
    {now τ : LocalDateTime} (h : now - oneHour ≤ τ) :
    ((((registerRequestAttempt now e attempts).2) e').filter fun time => τ < time).length =
      ((attempts e').filter fun time => τ < time).length +
        if (registerRequestAttempt now e attempts).1 = .ok () ∧ e' = e ∧ τ < now then 1 else 0 := by
  unfold registerRequestAttempt
  dsimp only
  by_cases he : e' = e
  · subst he
    split
    · simp [filter_kept h]
    · dsimp only
      rw [Function.update_self, List.filter_append, filter_kept h, List.length_append]
      by_cases hτ : τ < now <;> simp [hτ]
  · split <;> simp [he]

/-- One request keeps the bound. -/
theorem Bounded.step {answer : Except AccountError (Option Mail)} (hB : Bounded emails clock server)
    (hinj : Set.InjOn p.collate emails) (hclock : clock ≤ env.now)
    (hemail : normalizeEmail p email ∈ emails)
    (h : requestReset env email server = some (answer, server')) :
    Bounded emails env.now server' := by
  obtain ⟨hattempts, hcounted, hrequested⟩ := requestReset_cases h
  have hbefore : ∀ e ∈ emails, ∀ τ, env.now - oneHour ≤ τ →
      requested server.db e τ ≤ ((server.attempts e).filter fun time => τ < time).length :=
    fun e he τ hτ => hB.bound e he τ (Int.le_trans (Int.sub_le_sub_right hclock _) hτ)
  cases hrequested with
  | refused hdb =>
    refine ⟨by rw [hdb]; exact hB.known, fun e he τ hτ => ?_⟩
    rw [hdb, hattempts, attempts_after hτ]
    exact Nat.le_trans (hbefore e he τ hτ) (Nat.le_add_right _ _)
  | ignored hdb =>
    refine ⟨fun i token hi => ?_, fun e he τ hτ => ?_⟩
    · rw [hdb] at hi
      exact hB.known i token (UniqueTable.get?_filter_eq_some.mp hi).1
    · rw [hdb, hattempts, attempts_after hτ]
      exact Nat.le_trans (Nat.le_trans (requested_cleanup env _ e τ) (hbefore e he τ hτ))
        (Nat.le_add_right _ _)
  | @issued adminId admin code _ _ _ htokens =>
    refine ⟨fun i token hi => ?_, fun e he τ hτ => ?_⟩
    · rw [UniqueTable.get?, htokens, Table.get?_insert_eq_some] at hi
      rcases hi with ⟨-, rfl⟩ | hi
      · exact hemail
      · exact hB.known i token (UniqueTable.get?_filter_eq_some.mp hi).1
    · rw [requested_insert htokens, hattempts, attempts_after hτ]
      have hold := Nat.le_trans (requested_cleanup env server.db e τ) (hbefore e he τ hτ)
      refine Nat.add_le_add hold ?_
      -- a token that counts for the address comes with an attempt that counts for it
      split
      · next hcounts =>
        have hsame : e = normalizeEmail p email := (hinj hemail he hcounts.1).symm
        rw [if_pos ⟨hcounted _ rfl, hsame, hcounts.2⟩]
      · exact Nat.zero_le _

/-! ### The second limit never decides -/

theorem kept_lt {e : String} {attempts : String → List LocalDateTime} {now : LocalDateTime}
    (h : (registerRequestAttempt now e attempts).1 = .ok ()) :
    ((attempts e).filter fun time => !decide (time < now - oneHour)).length <
      maxRequestsPerHour := by
  unfold registerRequestAttempt at h
  dsimp only at h
  split at h
  · exact absurd h (by simp)
  · next hlt => exact Nat.not_le.mp hlt

theorem Bounded.requested_lt (hB : Bounded emails clock server) (hclock : clock ≤ env.now)
    (hemail : normalizeEmail p email ∈ emails)
    (hregister : (registerRequestAttempt env.now (normalizeEmail p email) server.attempts).1 =
      .ok ()) :
    requested (cleanupExpiredTokens env server.db) (normalizeEmail p email) (env.now - oneHour) <
      maxRequestsPerHour := by
  have hbound := hB.bound _ hemail (env.now - oneHour) (Int.sub_le_sub_right hclock _)
  have hkept := kept_lt hregister
  have hlater : ((server.attempts (normalizeEmail p email)).filter
        fun time => env.now - oneHour < time).length ≤
      ((server.attempts (normalizeEmail p email)).filter
        fun time => !decide (time < env.now - oneHour)).length := by
    rw [← filter_kept (Int.le_refl (env.now - oneHour))]
    exact List.filter_sublist.length_le
  calc requested (cleanupExpiredTokens env server.db) _ _
      ≤ requested server.db _ _ := requested_cleanup _ _ _ _
    _ ≤ _ := hbound
    _ ≤ _ := hlater
    _ < maxRequestsPerHour := hkept

/-- A mail that arrives with a code that is not in use is sent. -/
theorem issue_succeeds {db : AccountDb p} {code : String} (e : String) (adminId : Id)
    (admin : Admin) (hmail : env.mailError = none)
    (hunused : PasswordResetTokenRepository.existsByCodeHash db (p.sha256 code) = false) :
    ∃ r, issue env e code adminId admin db = .ok r := by
  have hnone : db.tokens.find? (p.collate (p.sha256 code)) = none := by
    simpa [PasswordResetTokenRepository.existsByCodeHash] using hunused
  let token : PasswordResetToken :=
    { adminId := adminId, requestedEmail := e, codeHash := p.sha256 code, createdAt := env.now,
      expiresAt := env.now + codeTtl }
  obtain ⟨tokens, hinsert⟩ := UniqueTable.insert?_of_unused (u := db.tokens) (a := token)
    (UniqueTable.find?_eq_none.mp hnone)
  refine ⟨(⟨admin.email, code⟩, { db with tokens := tokens }), ?_⟩
  simp only [issue, PasswordResetTokenRepository.insert]
  rw [show db.tokens.insert? _ = some tokens from hinsert, hmail]
  rfl

/-- The answer to a request is the answer of the limit in memory. -/
theorem Bounded.answer {answer : Except AccountError (Option Mail)}
    (hB : Bounded emails clock server) (hclock : clock ≤ env.now)
    (hemail : normalizeEmail p email ∈ emails) (hmail : env.mailError = none)
    (h : requestReset env email server = some (answer, server')) :
    answer.map (fun _ => ()) =
      (registerRequestAttempt env.now (normalizeEmail p email) server.attempts).1 := by
  have hlt := hB.requested_lt hclock hemail
  unfold requestReset at h
  dsimp only at h
  cases hregister : registerRequestAttempt env.now (normalizeEmail p email) server.attempts with
  | mk answer' attempts =>
    rw [hregister] at h hlt
    cases answer' with
    | error e =>
      obtain ⟨rfl, -⟩ := Prod.mk.inj (Option.some.inj h)
      rfl
    | ok u =>
      dsimp only at h
      rw [if_neg (Nat.not_le.mpr (hlt rfl))] at h
      split at h
      · obtain ⟨rfl, -⟩ := Prod.mk.inj (Option.some.inj h)
        rfl
      · next adminId admin _ =>
        obtain ⟨code, hcode, h⟩ := Option.bind_eq_some_iff.mp h
        obtain ⟨r, hissue⟩ := issue_succeeds (normalizeEmail p email) adminId admin hmail
          (generateUniqueCode_unused hcode).1
        rw [hissue] at h
        obtain ⟨rfl, -⟩ := Prod.mk.inj (Option.some.inj h)
        rfl

/-- The outcomes of a sequence of requests are those of the limit in memory. -/
theorem serve_eq {answers : List (Except AccountError Unit)}
    (calls : List (AccountEnv × Option String)) (hB : Bounded emails clock server)
    (hinj : Set.InjOn p.collate emails)
    (hsorted : (clock :: calls.map fun c => c.1.now).Pairwise (· ≤ ·))
    (hemails : ∀ c ∈ calls, normalizeEmail p c.2 ∈ emails)
    (hmail : ∀ c ∈ calls, c.1.mailError = none) (h : serve calls server = some answers) :
    answers = attemptAnswers (calls.map fun c => (c.1.now, normalizeEmail p c.2))
      server.attempts := by
  induction calls generalizing server clock answers with
  | nil => exact (Option.some.inj h).symm
  | cons c rest ih =>
    rw [List.map_cons, List.pairwise_cons] at hsorted
    obtain ⟨⟨answer, server'⟩, hanswer, h⟩ := Option.bind_eq_some_iff.mp h
    obtain ⟨answers', hrest, h⟩ := Option.bind_eq_some_iff.mp h
    obtain rfl := Option.some.inj h
    have hclock := hsorted.1 _ List.mem_cons_self
    have hemail := hemails c List.mem_cons_self
    have hnext := hB.step hinj hclock hemail hanswer
    rw [List.map_cons, attemptAnswers, hB.answer hclock hemail (hmail c List.mem_cons_self) hanswer,
      ← (requestReset_cases hanswer).1]
    congr 1
    exact ih hnext hsorted.2 (fun c hc => hemails c (List.mem_cons_of_mem _ hc))
      (fun c hc => hmail c (List.mem_cons_of_mem _ hc)) hrest

theorem attemptAnswers_mem (calls : List (LocalDateTime × String))
    (attempts : String → List LocalDateTime) {answer : Except AccountError Unit}
    (h : answer ∈ attemptAnswers calls attempts) :
    answer = .ok () ∨ answer = .error (.illegalArgument "RESET_REQUEST_LIMIT_REACHED") := by
  induction calls generalizing attempts with
  | nil => exact absurd h List.not_mem_nil
  | cons c rest ih =>
    rcases List.mem_cons.mp h with rfl | h
    · unfold registerRequestAttempt
      dsimp only
      split
      · exact Or.inr rfl
      · exact Or.inl rfl
    · exact ih _ h

/-- No token is stored and no attempt remembered. -/
def Server.Untouched (server : Server p) : Prop :=
  (∀ i, server.db.tokens.get? i = none) ∧ ∀ e, server.attempts e = []

theorem Server.Untouched.bounded (h : server.Untouched) : Bounded emails clock server := by
  have hrows : server.db.tokens.table.rows = [] := by
    refine List.eq_nil_iff_forall_not_mem.mpr fun r hr => ?_
    exact absurd ((h.1 r.1).symm.trans (Table.mem_rows.mp hr)) (by simp)
  refine ⟨fun i token hi => absurd ((h.1 i).symm.trans hi) (by simp), fun e _ τ _ => ?_⟩
  simp [requested, PasswordResetTokenRepository.countByRequestedEmailAndCreatedAtAfter,
    Table.select, hrows]

/-- **Requests reveal nothing about accounts** as long as the database tells apart the
addresses that differ. Two servers with any accounts, asked the same at the same times, give
the same outcomes. -/
theorem requests_reveal_nothing {server₁ server₂ : Server p}
    {calls₁ calls₂ : List (AccountEnv × Option String)}
    {answers₁ answers₂ : List (Except AccountError Unit)}
    (hstart₁ : server₁.Untouched) (hstart₂ : server₂.Untouched)
    (hsame : calls₁.map (fun c => (c.1.now, c.2)) = calls₂.map fun c => (c.1.now, c.2))
    (hsorted : (calls₁.map fun c => c.1.now).Pairwise (· ≤ ·))
    (hmail : ∀ c ∈ calls₁ ++ calls₂, c.1.mailError = none)
    (hinj : Set.InjOn p.collate {e | ∃ c ∈ calls₁, e = normalizeEmail p c.2})
    (h₁ : serve calls₁ server₁ = some answers₁) (h₂ : serve calls₂ server₂ = some answers₂) :
    answers₁ = answers₂ ∧ ∀ answer ∈ answers₁, answer = .ok () ∨
      answer = .error (.illegalArgument "RESET_REQUEST_LIMIT_REACHED") := by
  have hinput : calls₁.map (fun c => (c.1.now, normalizeEmail p c.2)) =
      calls₂.map fun c => (c.1.now, normalizeEmail p c.2) := by
    have hmap := congrArg (List.map fun q => (q.1, normalizeEmail p q.2)) hsame
    rwa [List.map_map, List.map_map] at hmap
  have hemails₂ : ∀ c ∈ calls₂,
      normalizeEmail p c.2 ∈ {e | ∃ c ∈ calls₁, e = normalizeEmail p c.2} := by
    intro c hc
    have hmem : (c.1.now, c.2) ∈ calls₁.map fun c => (c.1.now, c.2) := by
      rw [hsame]
      exact List.mem_map_of_mem hc
    obtain ⟨c', hc', heq⟩ := List.mem_map.mp hmem
    exact ⟨c', hc', by rw [(Prod.mk.inj heq).2]⟩
  have htimes : calls₂.map (fun c => c.1.now) = calls₁.map fun c => c.1.now := by
    have hmap := congrArg (List.map Prod.fst) hsame
    rw [List.map_map, List.map_map] at hmap
    exact hmap.symm
  -- a clock no call precedes
  obtain ⟨clock, hclock⟩ : ∃ clock, (clock :: calls₁.map fun c => c.1.now).Pairwise (· ≤ ·) := by
    cases hcalls : calls₁ with
    | nil => exact ⟨0, by simp⟩
    | cons c rest =>
      rw [hcalls, List.map_cons] at hsorted
      refine ⟨c.1.now, List.pairwise_cons.mpr ⟨fun t ht => ?_, hsorted⟩⟩
      rcases List.mem_cons.mp ht with rfl | ht
      · exact Int.le_refl _
      · exact (List.pairwise_cons.mp hsorted).1 t ht
  have heq₁ := serve_eq calls₁ hstart₁.bounded hinj hclock
    (fun c hc => ⟨c, hc, rfl⟩) (fun c hc => hmail c (List.mem_append_left _ hc)) h₁
  have heq₂ := serve_eq calls₂ hstart₂.bounded hinj (by rw [htimes]; exact hclock)
    hemails₂ (fun c hc => hmail c (List.mem_append_right _ hc)) h₂
  have hattempts : server₁.attempts = server₂.attempts := by
    funext e
    rw [hstart₁.2, hstart₂.2]
  refine ⟨?_, fun answer hanswer => attemptAnswers_mem _ _ (heq₁ ▸ hanswer)⟩
  rw [heq₁, heq₂, hinput, hattempts]

/-! ### Two spellings of an address -/

/-- A platform as far as the addresses and codes below go: the collation takes `é` for `e`. -/
def accentBlind : Platform where
  toLowerCase := fun s => String.ofList (s.toList.map Char.toLower)
  equalsIgnoreCase := fun a b => a.toList.map Char.toLower = b.toList.map Char.toLower
  collate := fun s => String.ofList (s.toList.map fun c => if c = 'é' then 'e' else c)
  sha256 := fun code =>
    if code = "000001" then "a7fda0b61e2047f0f1057d1f5f064c272fd5d490961c531f4df64b0dd354683a"
    else if code = "000002" then
      "f9200e0934f3c98a0a6b7dcfbc5753aa0d6e4a401a89db72cccd84e2845d057a"
    else if code = "000003" then
      "86e0fa410d1c284b13d7b123ff1484fac76b17c4087bad575b8471b7624e0d59"
    else code
  passwordMatches := fun raw encoded => raw = encoded

/-- A server with one active account, or with none. -/
def serverWith (account : Option Admin) : Server accentBlind where
  db :=
    { admins := (account.bind fun admin => UniqueTable.empty.insert? admin).getD .empty
      tokens := .empty }
  attempts := fun _ => []

/-- An active account. -/
def onlyAdmin : Admin where
  fullName := "Gerant"
  email := "gerant@agence.test"
  passwordHash := ""
  createdAt := 0

/-- Three requests for the account, and a fourth one. -/
def fourRequests (last : String) : List (AccountEnv × Option String) :=
  [(.atTime 0 [1], some "gerant@agence.test"), (.atTime 0 [2], some "gerant@agence.test"),
   (.atTime 0 [3], some "gerant@agence.test"), (.atTime 0 [], some last)]

theorem serverWith_untouched (account : Option Admin) : (serverWith account).Untouched :=
  ⟨fun _ => rfl, fun _ => rfl⟩

/-- Spelt with an accent, the fourth request is refused if there is an account, and only
then. -/
theorem requests_reveal_account :
    (serverWith (some onlyAdmin)).Untouched ∧ (serverWith none).Untouched ∧
    serve (fourRequests "gérant@agence.test") (serverWith (some onlyAdmin)) =
      some [.ok (), .ok (), .ok (),
        .error (.illegalArgument "RESET_REQUEST_LIMIT_REACHED")] ∧
    serve (fourRequests "gérant@agence.test") (serverWith none) =
      some [.ok (), .ok (), .ok (), .ok ()] :=
  ⟨serverWith_untouched _, serverWith_untouched _, by decide +kernel, by decide +kernel⟩

/-- Spelt the same, it is refused in both cases. -/
theorem requests_reveal_nothing_same :
    ∃ answers₁ answers₂,
      serve (fourRequests "gerant@agence.test") (serverWith (some onlyAdmin)) = some answers₁ ∧
      serve (fourRequests "gerant@agence.test") (serverWith none) = some answers₂ ∧
      answers₁ = answers₂ := by
  obtain ⟨answers₁, h₁⟩ := Option.isSome_iff_exists.mp (by decide +kernel :
    (serve (fourRequests "gerant@agence.test") (serverWith (some onlyAdmin))).isSome = true)
  obtain ⟨answers₂, h₂⟩ := Option.isSome_iff_exists.mp (by decide +kernel :
    (serve (fourRequests "gerant@agence.test") (serverWith none)).isSome = true)
  have hemail : ∀ c ∈ fourRequests "gerant@agence.test",
      normalizeEmail accentBlind c.2 = "gerant@agence.test" := by
    intro c hc
    simp only [fourRequests, List.mem_cons, List.not_mem_nil, or_false] at hc
    rcases hc with rfl | rfl | rfl | rfl <;> decide
  have hinj : Set.InjOn accentBlind.collate
      {e | ∃ c ∈ fourRequests "gerant@agence.test", e = normalizeEmail accentBlind c.2} := by
    rintro e ⟨c, hc, rfl⟩ e' ⟨c', hc', rfl⟩ _
    rw [hemail c hc, hemail c' hc']
  refine ⟨answers₁, answers₂, h₁, h₂, (requests_reveal_nothing (serverWith_untouched _)
    (serverWith_untouched _) rfl (by decide) ?_ hinj h₁ h₂).1⟩
  intro c hc
  simp only [fourRequests, List.mem_append, List.mem_cons, List.not_mem_nil, or_false] at hc
  rcases hc with (rfl | rfl | rfl | rfl) | rfl | rfl | rfl | rfl <;> rfl

end CarRental.PasswordResetService
