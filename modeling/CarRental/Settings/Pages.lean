import CarRental.Settings.Service
import CarRental.Text

/-!
# CarRental.Settings.Pages

**The two settings pages.** The page about the company and the page about the mail account
save through one call, `SettingsRepository.updateCompanyInfo`, which sends every field.

The page about the mail account sends the company's fields along as they are. The page about
the company does not send the mail account, and what is not sent is written as `NULL`: saving
it erases host, port, user and password (`smtp_companySave`). So the pages are independent
only when saving the first has no effect, or when there is nothing to erase
(`pages_independent_iff`).

* `companySave`, `emailSave` — "Enregistrer" on either page;
* `company_saves` — over any sequence of saves the company's fields are those of the first
  page alone;
* `sender_companySave` — after a save of the first page, mails leave the configured account.
-/

namespace CarRental.SettingsPages

open Lib SettingsService
open Dart (trimString)

/-- `_save` of either page: a form that passes its validators is sent. An error is shown, and
nothing has changed. -/
def submit (now : LocalDateTime) (valid : Bool) (req : SettingsRequest) (s : CompanySettings) :
    CompanySettings :=
  if valid then settle s (updateCompanyInfo now req s) else s

/-! ### The page about the company -/

/-- `CompanyInfoPage` as typed. -/
structure CompanyForm where
  name : String
  address : String
  phone : String
  fax : String
  gsm : String
  email : String
  website : String

namespace CompanyForm

/-- `_populate` -/
def populate (s : SettingsResponse) : CompanyForm where
  name := s.companyName
  address := s.address.getD ""
  phone := s.phone.getD ""
  fax := s.fax.getD ""
  gsm := s.gsm.getD ""
  email := s.email.getD ""
  website := s.website.getD ""

/-- The one field of the page that has to be filled in. -/
def validate (form : CompanyForm) : Bool := !(trimString form.name).isEmpty

/-- The arguments of `updateCompanyInfo`; those left out are `null`. -/
def request (form : CompanyForm) : SettingsRequest where
  companyName := some (trimString form.name)
  address := some (trimString form.address)
  phone := some (trimString form.phone)
  fax := some (trimString form.fax)
  gsm := some (trimString form.gsm)
  email := some (trimString form.email)
  website := some (trimString form.website)

/-- Are the texts short enough for their columns? A name that is blank to the server is not
written. -/
def storable (form : CompanyForm) : Bool :=
  (isBlank (trimString form.name) || VarChar.fitting 200 (trimString form.name)) &&
    VarChar.fitting 500 (trimString form.address) && VarChar.fitting 50 (trimString form.phone) &&
    VarChar.fitting 50 (trimString form.fax) && VarChar.fitting 200 (trimString form.gsm) &&
    VarChar.fitting 200 (trimString form.email) && VarChar.fitting 300 (trimString form.website)

/-- The form is sent and stored. -/
def accepted (form : CompanyForm) : Bool := form.validate && form.storable

end CompanyForm

/-- "Enregistrer" on the page about the company. -/
def companySave (now : LocalDateTime) (form : CompanyForm) (s : CompanySettings) :
    CompanySettings :=
  submit now form.validate form.request s

/-! ### The page about the mail account -/

/-- `EmailConfigPage` as typed. -/
structure EmailForm where
  host : String
  port : String
  user : String
  pass : String
  auth : Bool
  starttls : Bool
  active : Bool

namespace EmailForm

/-- `_populate` -/
def populate (s : SettingsResponse) : EmailForm where
  host := s.smtpHost.getD ""
  port := (s.smtpPort.map toString).getD "587"
  user := s.smtpUsername.getD ""
  pass := s.smtpPassword.getD ""
  auth := s.smtpAuth
  starttls := s.smtpStarttls
  active := s.smtpActive

/-- Only an account that is to be used is looked at. `tryParse` is `int.tryParse`. -/
def validate (tryParse : String → Option Int) (form : EmailForm) : Bool :=
  !form.active ||
    (!(trimString form.host).isEmpty && !(trimString form.port).isEmpty &&
      (tryParse form.port).isSome && !(trimString form.user).isEmpty && !form.pass.isEmpty)

/-- The arguments of `updateCompanyInfo`, with the current settings of the company. -/
def request (tryParse : String → Option Int) (form : EmailForm) (current : SettingsResponse) :
    SettingsRequest where
  companyName := some current.companyName
  address := current.address
  phone := current.phone
  fax := current.fax
  gsm := current.gsm
  email := current.email
  website := current.website
  smtpHost := some (trimString form.host)
  smtpPort := tryParse (trimString form.port)
  smtpUsername := some (trimString form.user)
  smtpPassword := some form.pass
  smtpAuth := some form.auth
  smtpStarttls := some form.starttls
  smtpActive := some form.active

/-- The server can read and keep what the page sends. -/
def storable (tryParse : String → Option Int) (form : EmailForm) : Bool :=
  (tryParse (trimString form.port)).all (fun i => -0x80000000 ≤ i ∧ i < 0x80000000) &&
    VarChar.fitting 200 (trimString form.host) && VarChar.fitting 200 (trimString form.user) &&
    VarChar.fitting 200 form.pass

/-- The form is sent and stored. -/
def accepted (tryParse : String → Option Int) (form : EmailForm) : Bool :=
  form.validate tryParse && form.storable tryParse

end EmailForm

/-- "Enregistrer" on the page about the mail account, opened on the current settings. -/
def emailSave (tryParse : String → Option Int) (now : LocalDateTime) (form : EmailForm)
    (s : CompanySettings) : CompanySettings :=
  submit now (form.validate tryParse) (form.request tryParse (map s)) s

/-! ### What a save writes -/

variable {tryParse : String → Option Int} {now : LocalDateTime} {form : CompanyForm}
  {eform : EmailForm} {s s' : CompanySettings}

/-- An account of which only the three switches are left. -/
def erased (account : SmtpAccount) : SmtpAccount :=
  { account with host := none, port := none, username := none, password := none }

theorem exists_assign_company : (∃ s', assign form.request s = .ok s') ↔ form.storable = true := by
  simp only [assign, CompanyForm.request, exists_bind_ok, pure_eq_ok, exists_eq', and_true,
    exists_and_right, exists_nullable, exists_companyName, nullable_none, integer_none, exists_eq,
    true_and, CompanyForm.storable, Bool.and_eq_true, and_assoc]

/-- The page about the company does not send the mail account. -/
theorem assign_company (h : assign form.request s = .ok s') : s'.smtp = erased s.smtp := by
  simp only [assign, CompanyForm.request, bind_eq_ok, pure_eq_ok, nullable_none, integer_none] at h
  obtain ⟨_, rfl, _, -, _, -, _, -, _, -, _, -, _, -, _, -, _, rfl, _, rfl, _, rfl, rfl⟩ := h
  rfl

theorem exists_assign_email : (∃ s', assign (eform.request tryParse (map s)) s = .ok s') ↔
    eform.storable tryParse = true := by
  simp only [assign, EmailForm.request, map, exists_bind_ok, pure_eq_ok, exists_eq', and_true,
    exists_and_right, exists_nullable, exists_companyName, nullable_map_val, exists_integer,
    exists_eq, true_and, EmailForm.storable, Bool.and_eq_true, and_assoc, VarChar.fitting_val,
    Bool.or_true]

/-- The page about the mail account sends the company's fields back, and always a host. -/
theorem assign_email (h : assign (eform.request tryParse (map s)) s = .ok s') :
    s'.company = s.company ∧ s'.smtp.host ≠ none := by
  simp only [assign, EmailForm.request, map, bind_eq_ok, pure_eq_ok, nullable_map_val,
    companyName_some, nullable_some, VarChar.store_val] at h
  obtain ⟨_, -, name, hname, _, rfl, _, rfl, _, rfl, _, rfl, _, rfl, _, rfl, _, ⟨host, -, rfl⟩, _,
    -, _, -, rfl⟩ := h
  have hsame : name = s.companyName := by
    split at hname
    · exact hname
    · exact (Option.some.inj hname).symm
  subst hsame
  exact ⟨rfl, by simp [CompanySettings.smtp]⟩

section Submit

variable {valid storable : Bool} {req : SettingsRequest}

/-- A form that is not sent, or that the server cannot store. -/
theorem submit_refused (hstorable : (∃ new, assign req s = .ok new) ↔ storable = true)
    (h : (valid && storable) = false) : submit now valid req s = s := by
  unfold submit updateCompanyInfo
  split
  · next hvalid =>
    cases hassign : assign req s with
    | error e => rfl
    | ok new =>
      rw [hvalid, hstorable.mp ⟨new, hassign⟩] at h
      exact absurd h.symm Bool.false_ne_true
  · rfl

theorem submit_accepted (hstorable : (∃ new, assign req s = .ok new) ↔ storable = true)
    (h : (valid && storable) = true) :
    ∃ new, assign req s = .ok new ∧ ∀ now, submit now valid req s = save now s new := by
  rw [Bool.and_eq_true] at h
  obtain ⟨new, hnew⟩ := hstorable.mpr h.2
  refine ⟨new, hnew, fun now => ?_⟩
  rw [submit, if_pos h.1, updateCompanyInfo, hnew]
  rfl

end Submit

theorem companySave_refused (h : form.accepted = false) : companySave now form s = s :=
  submit_refused exists_assign_company h

theorem companySave_accepted (s : CompanySettings) (h : form.accepted = true) :
    ∃ new, assign form.request s = .ok new ∧ ∀ now, companySave now form s = save now s new :=
  submit_accepted exists_assign_company h

theorem emailSave_refused (h : eform.accepted tryParse = false) :
    emailSave tryParse now eform s = s :=
  submit_refused exists_assign_email h

theorem emailSave_accepted (s : CompanySettings) (h : eform.accepted tryParse = true) :
    ∃ new, assign (eform.request tryParse (map s)) s = .ok new ∧
      ∀ now, emailSave tryParse now eform s = save now s new :=
  submit_accepted exists_assign_email h

/-- **The page about the company erases the mail account.** -/
theorem smtp_companySave (h : form.accepted = true) :
    (companySave now form s).smtp = erased s.smtp := by
  obtain ⟨new, hnew, hsave⟩ := companySave_accepted s h
  rw [hsave, smtp_save, assign_company hnew]

/-- The page about the mail account leaves the company alone. -/
theorem company_emailSave : (emailSave tryParse now eform s).company = s.company := by
  cases h : eform.accepted tryParse with
  | false => rw [emailSave_refused h]
  | true =>
    obtain ⟨new, hnew, hsave⟩ := emailSave_accepted s h
    rw [hsave, company_save, (assign_email hnew).1]

theorem host_emailSave (h : eform.accepted tryParse = true) :
    (emailSave tryParse now eform s).smtp.host ≠ none := by
  obtain ⟨new, hnew, hsave⟩ := emailSave_accepted s h
  rw [hsave, smtp_save]
  exact (assign_email hnew).2

/-! ### Both pages -/

/-- The same settings, whenever they were stamped. -/
def SameSettings (s s' : CompanySettings) : Prop := s.company = s'.company ∧ s.smtp = s'.smtp

/-- The pages do not interfere: neither changes a field of the other, and the order of the two
saves does not matter. -/
structure Independent (tryParse : String → Option Int) (t₁ t₂ : LocalDateTime)
    (form : CompanyForm) (eform : EmailForm) (s : CompanySettings) : Prop where
  smtp_kept : (companySave t₁ form s).smtp = s.smtp
  company_kept : (emailSave tryParse t₁ eform s).company = s.company
  same : SameSettings (emailSave tryParse t₂ eform (companySave t₁ form s))
    (companySave t₂ form (emailSave tryParse t₁ eform s))

theorem sameSettings_save (t₁ t₂ : LocalDateTime) (old new : CompanySettings) :
    SameSettings (save t₁ old new) (save t₂ old new) :=
  ⟨by rw [company_save, company_save], by rw [smtp_save, smtp_save]⟩

/-- When a page is saved does not matter. -/
theorem sameSettings_submit {valid : Bool} {req : SettingsRequest} (t₁ t₂ : LocalDateTime) :
    SameSettings (submit t₁ valid req s) (submit t₂ valid req s) := by
  unfold submit updateCompanyInfo
  split
  · cases assign req s with
    | error e => exact ⟨rfl, rfl⟩
    | ok new => exact sameSettings_save t₁ t₂ s new
  · exact ⟨rfl, rfl⟩

/-- **When the pages are independent.** Either the page about the company saves nothing, or
there is no account to erase and the page about the mail account saves nothing. -/
theorem pages_independent_iff (tryParse : String → Option Int) (t₁ t₂ : LocalDateTime)
    (form : CompanyForm) (eform : EmailForm) (s : CompanySettings) :
    Independent tryParse t₁ t₂ form eform s ↔
      form.accepted = false ∨
        (eform.accepted tryParse = false ∧ s.smtpHost = none ∧ s.smtpPort = none ∧
          s.smtpUsername = none ∧ s.smtpPassword = none) := by
  constructor
  · intro h
    cases hform : form.accepted with
    | false => exact Or.inl rfl
    | true =>
      have herased : erased s.smtp = s.smtp := (smtp_companySave hform).symm.trans h.smtp_kept
      obtain ⟨hhost, hport, husername, hpassword, -⟩ := SmtpAccount.mk.inj herased
      refine Or.inr ⟨?_, hhost.symm, hport.symm, husername.symm, hpassword.symm⟩
      cases heform : eform.accepted tryParse with
      | false => rfl
      | true =>
        -- whichever page is saved last decides whether there is a host
        have hlast := congrArg SmtpAccount.host h.same.2
        rw [smtp_companySave hform] at hlast
        exact absurd hlast (host_emailSave heform)
  · rintro (hform | ⟨heform, hhost, hport, husername, hpassword⟩)
    · refine ⟨by rw [companySave_refused hform], company_emailSave, ?_⟩
      rw [companySave_refused hform, companySave_refused hform]
      exact sameSettings_submit t₂ t₁
    · refine ⟨?_, company_emailSave, ?_⟩
      · cases hform : form.accepted with
        | false => rw [companySave_refused hform]
        | true =>
          rw [smtp_companySave hform]
          simp [erased, CompanySettings.smtp, hhost, hport, husername, hpassword]
      · rw [emailSave_refused heform, emailSave_refused heform]
        exact sameSettings_submit t₁ t₂

/-- `int.tryParse`, as far as the run below asks it. -/
def readPort (s : String) : Option Int := if s = "587" then some 587 else none

/-- The two pages as they are opened on these settings. -/
def companyPage : CompanyForm := .populate (map configured)

/-- The page for mails, opened on these settings. -/
def emailPage : EmailForm := .populate (map configured)

/-- Saving the page about the company as it was opened erases the mail account, and saving both
pages leaves an account in one order and none in the other. -/
theorem company_page_erases_account :
    configured.smtp.host ≠ none ∧
    (companySave 0 companyPage configured).smtp.host = none ∧
    (emailSave readPort 1 emailPage (companySave 0 companyPage configured)).smtp.host ≠ none ∧
    (companySave 1 companyPage (emailSave readPort 0 emailPage configured)).smtp.host = none ∧
    ¬ Independent readPort 0 1 companyPage emailPage configured := by
  have hcompany : companyPage.accepted = true := by decide +kernel
  have hemail : emailPage.accepted readPort = true := by decide +kernel
  have hhost : configured.smtp.host ≠ none := by decide +kernel
  have herased : ∀ now s, (companySave now companyPage s).smtp.host = none := by
    intro now s
    rw [smtp_companySave hcompany]
    rfl
  have hstored : ∀ now s, (emailSave readPort now emailPage s).smtp.host ≠ none :=
    fun _ _ => host_emailSave hemail
  have hindependent : ¬ Independent readPort 0 1 companyPage emailPage configured := by
    intro h
    apply hhost
    rw [← h.smtp_kept, herased]
  exact ⟨hhost, herased 0 _, hstored 1 _, herased 1 _, hindependent⟩

/-! ### Any number of saves -/

/-- What is saved, with what the page shows. -/
inductive Save
  | company (form : CompanyForm)
  | email (form : EmailForm)

/-- Is it the page with the company? -/
def Save.isCompany : Save → Bool
  | .company _ => true
  | .email _ => false

/-- The settings after a save. -/
def Save.exec (tryParse : String → Option Int) (s : CompanySettings) :
    LocalDateTime × Save → CompanySettings
  | (now, .company form) => companySave now form s
  | (now, .email form) => emailSave tryParse now form s

/-- The company's fields are set from the request and from the company's fields. -/
theorem assign_company_congr (req : SettingsRequest) (h : s.company = s'.company) :
    (assign req s).map CompanySettings.company = (assign req s').map CompanySettings.company := by
  obtain ⟨hname, -, -, -, -, -, -, hlogo⟩ := CompanyInfo.mk.inj h
  simp only [assign, map_bind_eq, hname]
  simp only [Except.map, pure, Except.pure, CompanySettings.company, hlogo]

theorem company_companySave_congr (h : s.company = s'.company) :
    (companySave now form s).company = (companySave now form s').company := by
  cases hform : form.accepted with
  | false => rw [companySave_refused hform, companySave_refused hform, h]
  | true =>
    obtain ⟨new, hnew, hsave⟩ := companySave_accepted s hform
    obtain ⟨new', hnew', hsave'⟩ := companySave_accepted s' hform
    have hcongr := assign_company_congr form.request h
    rw [hnew, hnew'] at hcongr
    rw [hsave, hsave', company_save, company_save]
    exact Except.ok.inj hcongr

/-- A run without the saves of the other page is behind by those, which the company's fields do
not show. -/
theorem company_saves_congr (tryParse : String → Option Int)
    (saves : List (LocalDateTime × Save)) (h : s.company = s'.company) :
    (saves.foldl (Save.exec tryParse) s).company =
      ((saves.filter fun save => save.2.isCompany).foldl (Save.exec tryParse) s').company := by
  induction saves generalizing s s' with
  | nil => exact h
  | cons save rest ih =>
    obtain ⟨now, save⟩ := save
    cases save with
    | company form =>
      rw [List.filter_cons_of_pos rfl, List.foldl_cons, List.foldl_cons]
      exact ih (company_companySave_congr h)
    | email form =>
      rw [List.filter_cons_of_neg Bool.false_ne_true, List.foldl_cons]
      exact ih (company_emailSave.trans h)

/-- **The company's fields over any sequence of saves** are those that the saves of its own page
give. -/
theorem company_saves (tryParse : String → Option Int) (saves : List (LocalDateTime × Save))
    (s : CompanySettings) :
    (saves.foldl (Save.exec tryParse) s).company =
      ((saves.filter fun save => save.2.isCompany).foldl (Save.exec tryParse) s).company :=
  company_saves_congr tryParse saves rfl

/-- After a save of the page about the company, mails are not sent with the account of the
settings any more. -/
theorem sender_companySave (h : form.accepted = true) :
    EmailService.sender (companySave now form s) = .system := by
  have hhost : (companySave now form s).smtp.host = none := by
    rw [smtp_companySave h]
    rfl
  generalize companySave now form s = saved at hhost ⊢
  have hnone : saved.smtpHost = none := hhost
  unfold EmailService.sender
  rw [hnone]
  cases saved.smtpActive <;> rfl

end CarRental.SettingsPages
