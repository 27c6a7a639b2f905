import CarRental.Account.ResetRate
import CarRental.Account.Session
import CarRental.Settings.Service

/-!
# CarRental.Account.PublicApi

**What the endpoints without a token tell**: logging in, the three steps of a password reset
and `GET /api/settings`, with the answers `GlobalExceptionHandler` makes of exceptions.

None of them writes to the settings, and only two read them. A reset request sends its mail
with the stored account, so the password of the account decides at most whether the mail
arrives. `GET /api/settings` returns the row as `SettingsService.map` gives it, password
included. `public_answers_iff` puts the two together: runs from settings that differ in the
password, with the same mails delivered, are told apart exactly by a `GET /api/settings`.
-/

namespace CarRental

open Lib PasswordResetService

variable {p : Platform}

/-! ### Answers -/

/-- The body of an answer. -/
inductive Body
  /-- A plain text. -/
  | text (s : String)
  | message (message : String)
  | error (error : String) (code : Option String)
  | fields (error : String) (fields : List (String × String))
  | login (token : String) (id : Id) (fullName email : String)
  | settings (settings : SettingsResponse)
  deriving DecidableEq

/-- What the client gets to see. -/
structure Response where
  status : Nat
  body : Body
  deriving DecidableEq

namespace GlobalExceptionHandler

/-- The messages with a translation of their own. -/
def translations : List (String × String) :=
  [("NEW_CAR_MUST_BE_AVAILABLE", "Un nouveau véhicule doit avoir le statut « Disponible »."),
   ("ONLY_RENTED_OR_MAINTENANCE_CAN_BECOME_AVAILABLE",
    "Seuls les véhicules en location ou en maintenance peuvent être remis disponibles."),
   ("MAINTENANCE_NOT_FINISHED",
    "Impossible : une maintenance est toujours en cours. Terminez-la d'abord dans le module " ++
    "Maintenance."),
   ("CAR_HAS_ACTIVE_CONTRACT",
    "Impossible : ce véhicule est lié à un contrat actif. Clôturez le contrat d'abord."),
   ("CAR_HAS_RENTAL_HISTORY",
    "Impossible de supprimer cette voiture, car elle contient un historique de locations ou de " ++
    "maintenance. Cette restriction protège les contrats, les PDF et les données financières. " ++
    "Vous pouvez la retirer de l'utilisation en l'archivant."),
   ("MILEAGE_REQUIRED", "Le kilométrage est obligatoire."),
   ("MILEAGE_MUST_BE_POSITIVE", "Le kilométrage doit être un nombre positif."),
   ("MILEAGE_CANNOT_DECREASE",
    "Le kilométrage ne peut pas être inférieur au kilométrage actuel."),
   ("Unsupported image format", "Format d'image non supporté. Utilisez JPG, JPEG ou PNG."),
   ("USE_COMPLETE_ENDPOINT",
    "Pour terminer une maintenance, utilisez le bouton « Terminer » dédié."),
   ("MAINTENANCE_ALREADY_COMPLETED", "Cette maintenance est déjà marquée comme terminée."),
   ("Seul un contrat IN_PROGRESS peut passer en ACTIVE",
    "Seul un contrat en préparation peut être activé."),
   ("Seul un contrat ACTIVE peut être terminé", "Seul un contrat actif peut être clôturé."),
   ("Impossible de modifier un contrat déjà terminé",
    "Ce contrat est déjà terminé et ne peut plus être modifié."),
   ("Impossible : terminez le contrat avant de le supprimer",
    "Impossible de supprimer un contrat actif. Clôturez-le d'abord."),
   ("Cannot change assigned car while contract is active",
    "Impossible de changer le véhicule d'un contrat en cours d'activité."),
   ("Impossible de supprimer : client a des contrats en cours",
    "Impossible de supprimer ce client : il a des contrats en cours ou actifs."),
   ("Format non supporté. Utilisez JPG ou PNG.",
    "Format de logo non supporté. Veuillez utiliser un fichier JPG ou PNG."),
   ("RESET_REQUEST_LIMIT_REACHED",
    "Trop de demandes de réinitialisation. Veuillez réessayer dans une heure."),
   ("INVALID_RESET_CODE", "Code de vérification invalide."),
   ("RESET_CODE_ALREADY_USED", "Ce code a déjà été utilisé. Demandez un nouveau code."),
   ("RESET_CODE_EXPIRED", "Ce code a expiré. Demandez un nouveau code."),
   ("RESET_CODE_BLOCKED", "Trop de tentatives incorrectes. Demandez un nouveau code."),
   ("PASSWORD_CONFIRMATION_MISMATCH",
    "Le nouveau mot de passe et sa confirmation ne correspondent pas."),
   ("WEAK_PASSWORD",
    "Le mot de passe doit contenir au moins 8 caractères, une majuscule, une minuscule, un " ++
    "chiffre et un caractère spécial.")]

/-- Does the piece occur from some place on? -/
def containsFrom (piece : List Char) : List Char → Bool
  | [] => piece.isEmpty
  | c :: rest => piece.isPrefixOf (c :: rest) || containsFrom piece rest

/-- `raw.contains(piece)` -/
def contains (raw piece : String) : Bool := containsFrom piece.toList raw.toList

/-- The translations of messages that are known by pieces of them, in the order in which they are
tried. One of the groups has to occur, with all of its pieces. -/
def partialTranslations : List (List (List String) × String) :=
  [([["est déjà réservée"], ["réservée ou louée"]],
    "Ce véhicule est déjà réservé ou loué sur cette période. Choisissez une autre date ou un " ++
    "autre véhicule."),
   ([["n'est pas disponible pour une location"], ["statut actuel"]],
    "Ce véhicule n'est pas disponible actuellement. Vérifiez son statut dans la liste des " ++
    "véhicules."),
   ([["n'est pas disponible", "matricule"]],
    "Ce véhicule n'est plus disponible. Rafraîchissez la liste et réessayez."),
   ([["Transition de statut non autorisée"]],
    "Changement de statut non autorisé pour ce contrat."),
   ([["Impossible de supprimer"], ["contrat en cours"]],
    "Suppression impossible : ce contrat a des dépendances actives."),
   ([["Unable to store image"], ["Impossible d'enregistrer"]],
    "Erreur lors de l'enregistrement du fichier. Vérifiez les permissions du dossier uploads.")]

/-- Is the message one that a row of `partialTranslations` is about? -/
def recognised (raw : String) (row : List (List String) × String) : Bool :=
  row.1.any fun group => group.all (contains raw)

/-- What is known neither as a whole nor by a piece is passed on. -/
def translateMessage (raw : String) : String :=
  match translations.lookup (Java.trimString raw) with
  | some translation => translation
  | none =>
    match partialTranslations.find? (recognised raw) with
    | some row => row.2
    | none => raw

/-- What is said about an exception nobody has thought of. -/
def unexpected : String :=
  "Une erreur inattendue s'est produite. Veuillez réessayer ou contacter le support."

/-- The answers to the exceptions of the account services. -/
def handle : AccountError → Response
  | .illegalArgument raw => ⟨400, .error (translateMessage raw) (some raw)⟩
  | .mail _ =>
    ⟨503, .error ("L'envoi de l'e-mail a échoué. Vérifiez votre connexion ou réessayez dans " ++
      "quelques instants.") (some "MAIL_SEND_FAILED")⟩
  | .dataIntegrityViolation _ | .entityNotFound => ⟨500, .error unexpected none⟩

/-- The answer to a body that does not pass validation. -/
def handleValidation (fields : List (String × String)) : Response :=
  ⟨400, .fields "Données invalides. Veuillez corriger les champs ci-dessous." fields⟩

end GlobalExceptionHandler

/-! ### The endpoints -/

/-- The requests that need no token. -/
inductive PublicRequest
  | login (email password : String)
  | requestReset (email : Option String)
  | verifyCode (email : Option String) (code : String)
  | confirmReset (email : Option String) (code newPassword confirmNewPassword : String)
  | getSettings
  /-- Any of them, with a body in which validation finds fault with these fields. -/
  | invalid (fields : List (String × String))
  deriving DecidableEq

/-- A request with what is outside of the database when it arrives. -/
structure PublicCall where
  env : AccountEnv
  /-- The reason why a mail cannot be sent, if any. -/
  deliver : EmailService.Sender → Mail → Option String
  request : PublicRequest

/-- The running application with the settings. -/
structure App (p : Platform) where
  server : Server p
  settings : CompanySettings

/-- The mail a reset request hands over to `EmailService`. -/
def handedOver (env : AccountEnv) (email : Option String) (server : Server p) : Option Mail :=
  match requestReset { env with mailError := none } email server with
  | some (.ok mail, _) => mail
  | _ => none

namespace PublicCall

/-- What `deliver` says of the mail that is sent during the call, if there is one. -/
def delivery (call : PublicCall) (app : App p) : Option (Option String) :=
  match call.request with
  | .requestReset email =>
    (handedOver call.env email app.server).map (call.deliver (EmailService.sender app.settings))
  | _ => none

/-- The surroundings of a call, with what becomes of its mail. -/
def envOf (call : PublicCall) (app : App p) : AccountEnv :=
  { call.env with mailError := (call.delivery app).join }

/-- The answers of the controllers. -/
def answerOf : AccountResponse → Response
  | .refused status body => ⟨status, .text body⟩
  | .notFound => ⟨404, .text ""⟩
  | .done => ⟨200, .text ""⟩
  | .loggedIn token id fullName email => ⟨200, .login token id fullName email⟩

/-- The answer when the service returns, or what the exception is turned into. -/
def answered {α : Type} (message : String) : Except AccountError α → Response
  | .ok _ => ⟨200, .message message⟩
  | .error e => GlobalExceptionHandler.handle e

/-- The answer to a request for a code, with an account or without. -/
def publicRequestMessage : String :=
  "Si cette adresse correspond à un compte actif, un code de vérification a été envoyé."

/-- The answer, and the application after it. A reset request that is still looking for an unused
code has not answered yet. -/
def exec (jwt : Jwt) (call : PublicCall) (app : App p) : Option Response × App p :=
  match call.request with
  | .login email password =>
    match AuthController.login jwt call.env email password app.server.db with
    | .ok (response, db) => (some (answerOf response), { app with server.db := db })
    | .error e => (some (GlobalExceptionHandler.handle e), app)
  | .requestReset email =>
    ((requestReset (call.envOf app) email app.server).map fun r =>
        answered publicRequestMessage r.1,
      { app with server := served (call.envOf app) email app.server })
  | .verifyCode email code =>
    let (result, db) := verifyCode call.env email code app.server.db
    (some (answered "Code vérifié avec succès." result), { app with server.db := db })
  | .confirmReset email code newPassword confirmNewPassword =>
    let (result, db) :=
      resetPassword call.env email code newPassword confirmNewPassword app.server.db
    (some (answered "Mot de passe réinitialisé avec succès." result), { app with server.db := db })
  | .getSettings => (some ⟨200, .settings (SettingsService.map app.settings)⟩, app)
  | .invalid fields => (some (GlobalExceptionHandler.handleValidation fields), app)

end PublicCall

/-- The answers to a sequence of requests. -/
def publicAnswers (jwt : Jwt) : List PublicCall → App p → List (Option Response)
  | [], _ => []
  | call :: rest, app => (call.exec jwt app).1 :: publicAnswers jwt rest (call.exec jwt app).2

/-- The outcomes of the mail deliveries on the way: which mails arrive. -/
def deliveries (jwt : Jwt) : List PublicCall → App p → List (Option Bool)
  | [], _ => []
  | call :: rest, app =>
    (call.delivery app).map Option.isNone :: deliveries jwt rest (call.exec jwt app).2

/-! ### Two runs -/

variable {jwt : Jwt} {call : PublicCall} {server : Server p} {s s' : CompanySettings}

/-- No public endpoint writes to the settings. -/
theorem PublicCall.exec_settings (jwt : Jwt) (call : PublicCall) (app : App p) :
    (call.exec jwt app).2.settings = app.settings := by
  unfold PublicCall.exec
  cases call.request with
  | login email password => dsimp only; split <;> rfl
  | _ => rfl

/-- Why a mail could not be sent is not told. -/
theorem requestReset_mail_congr (env : AccountEnv) (email : Option String) (server : Server p)
    (text : String) {m m' : Option String} (h : m.isNone = m'.isNone) :
    (requestReset { env with mailError := m } email server).map
        (fun r => (PublicCall.answered text r.1, r.2)) =
      (requestReset { env with mailError := m' } email server).map
        (fun r => (PublicCall.answered text r.1, r.2)) := by
  cases m with
  | none =>
    cases m' with
    | none => rfl
    | some _ => exact absurd h (by simp)
  | some _ =>
    cases m' with
    | none => exact absurd h (by simp)
    | some _ =>
      have hcleanup : ∀ m, cleanupExpiredTokens { env with mailError := m } server.db =
        cleanupExpiredTokens env server.db := fun _ => rfl
      unfold requestReset
      simp only [hcleanup]
      cases registerRequestAttempt env.now (normalizeEmail p email) server.attempts with
      | mk answer attempts =>
        cases answer with
        | error e => rfl
        | ok _ =>
          dsimp only
          split
          · rfl
          · split
            · rfl
            · cases generateUniqueCode (cleanupExpiredTokens env server.db) env.draws with
              | none => rfl
              | some code =>
                -- the token is stored or not, and then the mail fails in both
                simp only [issue, bind, Option.bind]
                generalize PasswordResetTokenRepository.insert _ _ = stored
                cases stored <;> rfl

theorem served_eq (env : AccountEnv) (email : Option String) (server : Server p) :
    served env email server = ((requestReset env email server).map Prod.snd).getD
      { server with
        attempts :=
          (registerRequestAttempt env.now (normalizeEmail p email) server.attempts).2 } := by
  unfold served
  cases requestReset env email server <;> rfl

/-- The settings matter to a call by the outcome of its mail delivery only, unless it asks for
them. -/
theorem PublicCall.exec_congr (jwt : Jwt)
    (h : (call.delivery ⟨server, s⟩).map Option.isNone =
      (call.delivery ⟨server, s'⟩).map Option.isNone) :
    (call.request ≠ .getSettings →
      (call.exec jwt ⟨server, s⟩).1 = (call.exec jwt ⟨server, s'⟩).1) ∧
    (call.exec jwt ⟨server, s⟩).2.server = (call.exec jwt ⟨server, s'⟩).2.server := by
  have hmail : (call.envOf ⟨server, s⟩).mailError.isNone =
      (call.envOf ⟨server, s'⟩).mailError.isNone := by
    show (call.delivery _).join.isNone = (call.delivery _).join.isNone
    generalize call.delivery ⟨server, s⟩ = o, call.delivery ⟨server, s'⟩ = o' at h ⊢
    cases o <;> cases o' <;> simp_all
  unfold PublicCall.exec
  cases call.request with
  | login email password => dsimp only; split <;> exact ⟨fun _ => rfl, rfl⟩
  | requestReset email =>
    have hreset := requestReset_mail_congr call.env email server publicRequestMessage hmail
    refine ⟨fun _ => ?_, ?_⟩
    · have hanswers := congrArg (Option.map Prod.fst) hreset
      rw [Option.map_map, Option.map_map] at hanswers
      exact hanswers
    · have hservers : (requestReset (call.envOf ⟨server, s⟩) email server).map Prod.snd =
          (requestReset (call.envOf ⟨server, s'⟩) email server).map Prod.snd := by
        have hboth := congrArg (Option.map Prod.snd) hreset
        rw [Option.map_map, Option.map_map] at hboth
        exact hboth
      show served (call.envOf _) email server = served (call.envOf _) email server
      rw [served_eq, served_eq, hservers]
      rfl
  | getSettings => exact ⟨fun hne => absurd rfl hne, rfl⟩
  | _ => exact ⟨fun _ => rfl, rfl⟩

/-- The answer to `GET /api/settings` shows the password. -/
theorem map_password_inj {password : Option (VarChar 200)}
    (h : SettingsService.map s = SettingsService.map { s with smtpPassword := password }) :
    s.smtpPassword = password := by
  have hval : s.smtpPassword.map VarChar.val = password.map VarChar.val :=
    congrArg SettingsResponse.smtpPassword h
  refine Option.map_injective (fun v w hvw => ?_) hval
  cases v
  cases w
  cases hvw
  rfl

/-- **What the public endpoints tell about the mail account's password.** Take any sequence of
requests and two states that differ in the stored password, and let every mail have the same
outcome in both runs. The answers are the same exactly if nobody asks for the settings or the
passwords do not differ. -/
theorem public_answers_iff (jwt : Jwt) (calls : List PublicCall) (server : Server p)
    (s : CompanySettings) (password : Option (VarChar 200))
    (hmails : deliveries jwt calls ⟨server, s⟩ =
      deliveries jwt calls ⟨server, { s with smtpPassword := password }⟩) :
    publicAnswers jwt calls ⟨server, s⟩ =
        publicAnswers jwt calls ⟨server, { s with smtpPassword := password }⟩ ↔
      (∀ call ∈ calls, call.request ≠ .getSettings) ∨ s.smtpPassword = password := by
  by_cases hpassword : s.smtpPassword = password
  · subst hpassword
    exact ⟨fun _ => Or.inr rfl, fun _ => rfl⟩
  rw [or_iff_left hpassword]
  induction calls generalizing server with
  | nil => simp [publicAnswers]
  | cons call rest ih =>
    obtain ⟨hdelivery, hmails⟩ := List.cons.inj hmails
    obtain ⟨hanswer, hserver⟩ := PublicCall.exec_congr jwt hdelivery
    -- both runs go on with the same server and their own settings
    have hleft : (call.exec jwt ⟨server, s⟩).2 = ⟨(call.exec jwt ⟨server, s⟩).2.server, s⟩ :=
      congrArg (App.mk _) (call.exec_settings jwt ⟨server, s⟩)
    have hright : (call.exec jwt ⟨server, { s with smtpPassword := password }⟩).2 =
        ⟨(call.exec jwt ⟨server, s⟩).2.server, { s with smtpPassword := password }⟩ := by
      rw [hserver]
      exact congrArg (App.mk _) (call.exec_settings jwt ⟨server, _⟩)
    rw [hleft, hright] at hmails
    rw [publicAnswers, publicAnswers, List.cons.injEq, hleft, hright, ih _ hmails,
      List.forall_mem_cons]
    refine and_congr_left fun _ => ?_
    by_cases hget : call.request = .getSettings
    · refine iff_of_false (fun hsame => hpassword ?_) (not_not_intro hget)
      unfold PublicCall.exec at hsame
      rw [hget] at hsame
      exact map_password_inj (Body.settings.inj (Response.mk.inj (Option.some.inj hsame)).2)
    · exact iff_of_true (hanswer hget) hget

/-- Anybody can read the password. -/
theorem settings_reveal_password :
    let calls : List PublicCall := [⟨.atTime 0 [], fun _ _ => none, .getSettings⟩]
    let s := SettingsService.configured
    let s' := { s with smtpPassword := none }
    deliveries plainJwt calls ⟨serverWith none, s⟩ =
      deliveries plainJwt calls ⟨serverWith none, s'⟩ ∧
    publicAnswers plainJwt calls ⟨serverWith none, s⟩ ≠
      publicAnswers plainJwt calls ⟨serverWith none, s'⟩ := by
  refine ⟨rfl, fun h => ?_⟩
  have hbody := Body.settings.inj (Response.mk.inj (Option.some.inj (List.cons.inj h).1)).2
  exact absurd (map_password_inj hbody) (by decide +kernel)

/-- A failed login and a reset request that sends a mail do not show it. -/
theorem public_answers_iff_reset :
    let calls : List PublicCall :=
      [⟨.atTime 0 [], fun _ _ => none, .login "gerant@agence.test" "guess"⟩,
       ⟨.atTime 0 [1], fun _ _ => none, .requestReset (some "gerant@agence.test")⟩]
    let s := SettingsService.configured
    let s' := { s with smtpPassword := none }
    deliveries plainJwt calls ⟨serverWith (some onlyAdmin), s⟩ = [none, some true] ∧
    publicAnswers plainJwt calls ⟨serverWith (some onlyAdmin), s⟩ =
      publicAnswers plainJwt calls ⟨serverWith (some onlyAdmin), s'⟩ := by
  intro calls s s'
  have hs : deliveries plainJwt calls ⟨serverWith (some onlyAdmin), s⟩ = [none, some true] := by
    decide +kernel
  have hs' : deliveries plainJwt calls ⟨serverWith (some onlyAdmin), s'⟩ = [none, some true] := by
    decide +kernel
  refine ⟨hs, (public_answers_iff plainJwt calls _ s none (hs.trans hs'.symm)).mpr (Or.inl ?_)⟩
  simp [calls]

end CarRental
