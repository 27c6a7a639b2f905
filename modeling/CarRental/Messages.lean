import CarRental.Account.PublicApi
import CarRental.Refusals

/-!
# CarRental.Messages

**What the user is told when a call fails.**

The text passes four hands. The service makes an exception, `GlobalExceptionHandler`
translates its message and puts it into the body of the answer, the interceptor of
`DioClient` takes it out again and `AppErrorHandler` decides what the screen shows. The
handler knows some messages by heart and others by a piece of their text; what it does not
know it passes on. So whether a technical code can reach a screen depends on every
message the services make, which is what `Refusal` lists.
-/

namespace CarRental

open Lib

/-! ### The server -/

namespace GlobalExceptionHandler

/-- The answers to the exceptions of the services. -/
def handleService : ServiceError → Response
  | .resourceNotFound message => ⟨404, .error (translateMessage message) none⟩
  | .illegalArgument raw => ⟨400, .error (translateMessage raw) (some raw)⟩
  | .nullPointer | .entityNotFound | .dataIntegrityViolation _ | .incorrectResultSize
  | .unexpectedRollback => ⟨500, .error unexpected none⟩

end GlobalExceptionHandler

/-! ### The client -/

/-- The body of an answer as the client sees it: a map with these keys, or something else. -/
inductive Data
  | map (fields : Option (List (String × String))) (error message : Option String)
  | other

/-- How the client reads the bodies of the server. -/
def Body.decoded : Body → Data
  | .error s _ => .map none (some s) none
  | .fields s rows => .map (some rows) (some s) none
  | .message s => .map none none (some s)
  | .login _ _ _ _ | .settings _ => .map none none none
  | .text _ => .other

/-- The kinds of failure `dio` tells apart. -/
inductive DioExceptionType
  | connectionTimeout
  | sendTimeout
  | receiveTimeout
  | badCertificate
  | badResponse
  | cancel
  | connectionError
  | unknown
  deriving DecidableEq

/-- A failed request, as the client sees it. -/
structure DioException where
  type : DioExceptionType
  response : Option (Nat × Data)
  message : Option String

/-- The exception `dio` makes of an answer that is no success; its own text is in English. -/
def badResponse (message : Option String) (response : Response) : DioException where
  type := .badResponse
  response := some (response.status, response.body.decoded)
  message := message

/-- What the interceptor and the error handler write for each field. -/
def listed (line : String × String → String) (fields : List (String × String)) : String :=
  String.join (fields.map fun field => line field ++ "\n")

namespace DioClient

/-- The text of an answer, for the interceptor. -/
def bodyMessage : Data → String
  | .map (some fields) _ _ =>
    Dart.trimString ("Erreur de validation :\n" ++
      listed (fun field => "- " ++ field.1 ++ " : " ++ field.2) fields)
  | .map none (some error) _ => error
  | .map none none (some message) => message
  | .map none none none | .other => ""

/-- The text the interceptor writes. -/
def cleanMessage (e : DioException) : String :=
  let body := (e.response.map fun response => bodyMessage response.2).getD ""
  if body ≠ "" then body
  else if e.type = .connectionTimeout ∨ e.type = .receiveTimeout then
    "Délai d'attente dépassé. Veuillez vérifier la connexion au serveur."
  else if e.type = .connectionError then
    "Impossible de se connecter au serveur. Assurez-vous que le backend est démarré."
  else e.message.getD "Erreur inconnue de l'API"

/-- The exception is passed on with the text of the interceptor. -/
def onError (e : DioException) : DioException := { e with message := some (cleanMessage e) }

end DioClient

namespace AppErrorHandler

/-- The fields with a name of their own. -/
def fieldLabels : List (String × String) :=
  [("email", "Adresse e-mail"), ("password", "Mot de passe"), ("fullName", "Nom complet"),
   ("brand", "Marque"), ("matricule", "Immatriculation"), ("mileage", "Kilométrage"),
   ("fuelType", "Type de carburant"), ("carId", "Véhicule"), ("clientId", "Client"),
   ("totalGeneral", "Total général"), ("departureDatetime", "Date de départ"),
   ("expectedReturnDatetime", "Date de retour prévue"), ("companyName", "Nom de la société"),
   ("phone", "Téléphone"), ("address", "Adresse"), ("type", "Type de maintenance"),
   ("startDate", "Date de début"), ("cost", "Coût")]

/-- Other fields keep their technical name. -/
def fieldLabel (field : String) : String := (fieldLabels.lookup field).getD field

/-- The text for an answer without one. -/
def httpStatusMessage : Option Nat → String
  | some 400 => "Données incorrectes envoyées au serveur. Vérifiez les champs saisis."
  | some 401 => "Session expirée ou identifiants incorrects. Veuillez vous reconnecter."
  | some 403 => "Accès refusé. Vous n'avez pas les permissions pour cette action."
  | some 404 => "Élément introuvable. Il a peut-être été supprimé."
  | some 409 => "Conflit : cet élément existe déjà ou est utilisé par un autre enregistrement."
  | some 413 => "Fichier trop volumineux. La taille maximale autorisée est 10 Mo."
  | some 422 => "Données non traitables. Vérifiez les informations saisies."
  | some 500 => "Erreur interne du serveur. Veuillez réessayer ou contacter le support."
  | some 502 | some 503 | some 504 =>
    "Le serveur est temporairement indisponible. Veuillez réessayer dans quelques instants."
  | some code => "Erreur serveur (code " ++ toString code ++ "). Veuillez réessayer."
  | none => "Erreur serveur (code null). Veuillez réessayer."

/-- What the body of an answer says. -/
def bodyMessage : Data → Option String
  | .map (some fields) _ _ =>
    some (Dart.trimString ("Données invalides :\n" ++
      listed (fun field => "• " ++ fieldLabel field.1 ++ " : " ++ field.2) fields))
  | .map none (some error) _ => some error
  | .map none none (some message) => some message
  | .map none none none | .other => none

/-- The text for an exception that has passed the interceptor. Such an exception is printed as
its message, so an empty one leaves nothing to show. -/
def getMessage (e : DioException) : String :=
  match e.response.bind fun response => bodyMessage response.2 with
  | some text => text
  | none =>
    match e.type with
    | .connectionTimeout | .sendTimeout | .receiveTimeout =>
      "Délai de connexion dépassé. Vérifiez que le serveur est démarré et que la connexion " ++
        "réseau est active."
    | .connectionError =>
      "Impossible de joindre le serveur. Assurez-vous que le backend est démarré sur le port 8080."
    | .badResponse => httpStatusMessage (e.response.map Prod.fst)
    | .cancel => "La requête a été annulée."
    | .badCertificate | .unknown =>
      match e.message with
      | some message => if message = "" then "Une erreur s'est produite." else message
      | none => "Une erreur s'est produite."

end AppErrorHandler

/-- What the screen shows for an answer that is no success. -/
def shown (message : Option String) (response : Response) : String :=
  AppErrorHandler.getMessage (DioClient.onError (badResponse message response))

/-- The text of an error passes through all hands unchanged. -/
theorem shown_error (message : Option String) (status : Nat) (text : String)
    (code : Option String) : shown message ⟨status, .error text code⟩ = text := rfl

/-! ### What the handler knows -/

namespace GlobalExceptionHandler

theorem containsFrom_iff {piece l : List Char} : containsFrom piece l = true ↔ piece <:+: l := by
  induction l with
  | nil => simp [containsFrom, List.isEmpty_iff]
  | cons c rest ih =>
    rw [containsFrom, Bool.or_eq_true, ih, List.isPrefixOf_iff_prefix, List.infix_cons_iff]

theorem contains_between (before piece after : String) :
    contains (before ++ piece ++ after) piece = true := by
  rw [contains, containsFrom_iff, String.toList_append, String.toList_append]
  exact ⟨before.toList, after.toList, rfl⟩

/-- The French sentences of the handler. -/
def sentences : List String :=
  unexpected :: translations.map Prod.snd ++ partialTranslations.map Prod.snd

theorem mem_sentences_of_lookup {key text : String} (h : translations.lookup key = some text) :
    text ∈ sentences := by
  obtain ⟨before, after, hrows, -⟩ := List.lookup_eq_some_iff.mp h
  have hmem : text ∈ translations.map Prod.snd :=
    List.mem_map.mpr ⟨(key, text), by simp [hrows], rfl⟩
  exact List.mem_append_left _ (List.mem_cons_of_mem _ hmem)

/-- A message is answered with a sentence of the handler, unless it is neither known as a whole
nor by a piece; then it is passed on. -/
theorem translateMessage_cases (raw : String) :
    translateMessage raw ∈ sentences ∨
      translations.lookup (Java.trimString raw) = none ∧
        (∀ row ∈ partialTranslations, recognised raw row = false) ∧
        translateMessage raw = raw := by
  unfold translateMessage
  cases hlookup : translations.lookup (Java.trimString raw) with
  | some text => exact Or.inl (mem_sentences_of_lookup hlookup)
  | none =>
    dsimp only
    cases hfind : partialTranslations.find? (recognised raw) with
    | some row =>
      have hmem := List.mem_map_of_mem (f := Prod.snd) (List.mem_of_find?_eq_some hfind)
      exact Or.inl (List.mem_append_right _ hmem)
    | none => exact Or.inr ⟨rfl, by simpa using hfind, rfl⟩

theorem translated_of_known {raw : String}
    (h : (translations.lookup (Java.trimString raw)).isSome = true) :
    translateMessage raw ∈ sentences := by
  rcases translateMessage_cases raw with hmem | ⟨hnone, -, -⟩
  · exact hmem
  · exact absurd h (by simp [hnone])

/-- One of these pieces is enough to know a message by. -/
def pieces : List String :=
  partialTranslations.flatMap fun row => row.1.filterMap fun group =>
    match group with
    | [piece] => some piece
    | _ => none

theorem translated_of_piece {raw piece : String} (before after : String) (hpiece : piece ∈ pieces)
    (hraw : raw = before ++ piece ++ after) : translateMessage raw ∈ sentences := by
  rcases translateMessage_cases raw with hmem | ⟨-, hunknown, -⟩
  · exact hmem
  · obtain ⟨row, hrow, hgroup⟩ := List.mem_flatMap.mp hpiece
    obtain ⟨group, hmem, hsingle⟩ := List.mem_filterMap.mp hgroup
    have hknown : recognised raw row = true := by
      refine List.any_eq_true.mpr ⟨group, hmem, ?_⟩
      split at hsingle
      · rw [Option.some.inj hsingle, hraw]
        simpa using contains_between before piece after
      · exact absurd hsingle (by simp)
    exact absurd hknown (by simp [hunknown row hrow])

end GlobalExceptionHandler

open GlobalExceptionHandler

/-! ### Every failure -/

/-- What a screen can show: a sentence of the handler, or one of the two kinds of messages it
passes on. -/
inductive Told : String → Prop
  | sentence {text : String} : text ∈ sentences → Told text
  | missing (kind : String) (id : Id) : kind ∈ ["Car", "Client", "Contract", "Maintenance"] →
      Told (kind ++ " not found: " ++ toString id)
  | unavailable (matricule : String) : Told ("La voiture n'est pas disponible: " ++ matricule)

theorem shown_notFound (message : Option String) (raw : String) :
    shown message (handleService (.resourceNotFound raw)) = translateMessage raw :=
  shown_error _ _ _ _

theorem shown_illegalArgument (message : Option String) (raw : String) :
    shown message (handleService (.illegalArgument raw)) = translateMessage raw :=
  shown_error _ _ _ _

/-- A message that may be passed on is shown, translated or as it is. -/
theorem told_raw {raw : String} (h : Told raw) : Told (translateMessage raw) := by
  rcases translateMessage_cases raw with hmem | ⟨-, -, hraw⟩
  · exact .sentence hmem
  · rwa [hraw]

/-- **Every refusal has its words.** -/
theorem told_of_refusal {e : ServiceError} (h : Refusal e) (message : Option String) :
    Told (shown message (handleService e)) := by
  cases h with
  | carNotFound id =>
    rw [shown_notFound]
    exact told_raw (.missing "Car" id (by simp))
  | clientNotFound id =>
    rw [shown_notFound]
    exact told_raw (.missing "Client" id (by simp))
  | contractNotFound id =>
    rw [shown_notFound]
    exact told_raw (.missing "Contract" id (by simp))
  | maintenanceNotFound id =>
    rw [shown_notFound]
    exact told_raw (.missing "Maintenance" id (by simp))
  | carNotAvailable car =>
    rw [shown_illegalArgument]
    exact told_raw (.unavailable _)
  | booked car =>
    rw [ContractService.alreadyBooked, shown_illegalArgument]
    have hpiece : "est déjà réservée" ∈ pieces := by simp [pieces, partialTranslations]
    refine .sentence (translated_of_piece ("La voiture " ++ car.matricule ++ " ")
      " ou louée sur cette période." hpiece ?_)
    simp only [String.append_assoc]
    rfl
  | busy car =>
    rw [ContractService.notAvailableNow, shown_illegalArgument]
    have hpiece : "statut actuel" ∈ pieces := by simp [pieces, partialTranslations]
    refine .sentence (translated_of_piece
      "La voiture n'est pas disponible pour une location immédiate ("
      (": " ++ car.status.name ++ ").") hpiece ?_)
    simp only [← String.append_assoc]
    rfl
  | transition status =>
    rw [shown_illegalArgument]
    have hpiece : "Transition de statut non autorisée" ∈ pieces := by
      simp [pieces, partialTranslations]
    refine .sentence (translated_of_piece "" (" vers " ++ status.name) hpiece ?_)
    simp only [String.empty_append, ← String.append_assoc]
    rfl
  | imageNotStored m =>
    rw [shown_illegalArgument]
    have hpiece : "Unable to store image" ∈ pieces := by simp [pieces, partialTranslations]
    refine .sentence (translated_of_piece "" (": " ++ m) hpiece ?_)
    simp only [String.empty_append, ← String.append_assoc]
    rfl
  | carHasOpenContract =>
    rw [shown_illegalArgument]
    have hpiece : "contrat en cours" ∈ pieces := by simp [pieces, partialTranslations]
    exact .sentence (translated_of_piece "Impossible : voiture avec " "" hpiece rfl)
  | _ =>
    rw [shown_illegalArgument]
    exact .sentence (translated_of_known (by decide +kernel))

/-- **No failure is shown as a technical code.** In every state of a run of calls that passed
validation, when such a call fails the screen shows a French sentence of the handler, the
message of a missing row or that of an unavailable car. -/
theorem failures_told {w : World} (h : ReachableBy (fun _ _ call => call.validated) w) (env : Env)
    {call : Call} (hvalid : call.validated) {e : ServiceError}
    (herr : call.exec env w.db = .error e) (message : Option String) :
    Told (shown message (handleService e)) := by
  obtain ⟨removed, haudit⟩ := Audited.of_reachableBy (h.mono fun _ _ _ hv => hv.priced)
  have hI := Desk.inv_of_reachable h.reachable
  rcases Call.exec_refuses hI haudit.settled hvalid e herr with hrefusal | hbreak
  · exact told_of_refusal hrefusal message
  · have hunexpected : unexpected ∈ sentences := List.mem_append_left _ List.mem_cons_self
    cases hbreak with
    | storage | start | added | edited => exact .sentence hunexpected

theorem failures_told_firstRental :
    ∃ e, (Call.markAvailable 1).exec (.atTime 0) (World.after firstRental).db = .error e ∧
      Told (shown none (handleService e)) := by
  have hrun : ReachableBy (fun _ _ call => call.validated) (World.after firstRental) := by
    refine reachableBy_after firstRental ?_ (by decide)
    simp [firstRental, fleetOfOne, booking, Call.validated]
  have hvalid : (Call.markAvailable 1).validated := trivial
  exact ⟨_, rfl, failures_told hrun (.atTime 0) hvalid rfl none⟩

end CarRental
