import CarRental.Progress

/-!
# CarRental.Dialog.ContractDetail

**The screen of a contract, however old it is.**

`ContractDetailScreen` reads a contract once and offers buttons by the status it has read.
The desk goes on in the meantime: the scheduler activates what is due every ten seconds,
and other clerks edit, return and archive. When a button is pressed, the server decides on
the contract as it is then.

`stale_screen` compares the two. It says exactly when each button works, and that the
server refuses whatever the screen would not offer if it were loaded again at that moment.
There are two exceptions. The form of a reservation still saves when the reservation has
become a running contract, which the screen calls impossible. And loading the screen is a
read that sweeps: a reservation that is due can be deleted as long as nobody looks at it,
and is out on the road as soon as somebody does.
-/

namespace CarRental

open Lib Desk ContractService

/-! ### The document -/

namespace ContractRepository

/-- The fetch joins drop a row whose car or client is gone. -/
def findDetailedById (db : Db) (id : Id) : Option Contract :=
  (db.contracts.get? id).filter fun c =>
    !c.deleted && (db.clients.get? c.clientId).isSome && (db.cars.get? c.carId).isSome

end ContractRepository

/-- What the document is drawn from. -/
structure ContractDocument where
  contract : Contract
  car : Car
  client : Client

/-- A document needs a contract that has left the reserved state. -/
def PdfService.generateContractPdf (id : Id) (db : Db) :
    Except ServiceError ContractDocument := do
  let contract ← orThrow (ContractRepository.findDetailedById db id)
    (.resourceNotFound ("Contract not found: " ++ toString id))
  throwIf (contract.status ≠ .active ∧ contract.status ≠ .completed)
    (.illegalArgument
      "Le PDF est disponible uniquement après activation du contrat (statut ACTIVE ou termine)")
  let car ← orThrow (db.cars.get? contract.carId) .entityNotFound
  let client ← orThrow (db.clients.get? contract.clientId) .entityNotFound
  pure ⟨contract, car, client⟩

namespace ContractController

/-- The class `[\s/\\?%*:|"<>]` of the pattern. -/
def unsafeInName (c : Char) : Bool :=
  c ∈ [' ', '\t', '\n', '\x0b', '\x0c', '\r', '/', '\\', '?', '%', '*', ':', '|', '"', '<', '>']

/-- `s.replaceAll("[...]+", "_")`: each run of such characters becomes one underscore. -/
def replaceRuns (inRun : Bool) : List Char → List Char
  | [] => []
  | c :: rest =>
    if unsafeInName c then
      if inRun then replaceRuns true rest else '_' :: replaceRuns true rest
    else c :: replaceRuns false rest

/-- A part of a file name. -/
def safeName (s : String) : String := String.ofList (replaceRuns false s.toList)

/-- The name the document is sent under. -/
def fileName (contract : ContractResponse) : String :=
  "Contrat_" ++ safeName contract.clientName ++ "_" ++ safeName contract.carMatricule ++ ".pdf"

/-- Reading the contract is a transaction of its own, and what it swept stays when there is no
document. -/
def pdf (env : Env) (id : Id) (db : Db) : Except ServiceError (String × ContractDocument) × Db :=
  match findById env id db with
  | .error e => (.error e, db)
  | .ok (contract, db) =>
    ((PdfService.generateContractPdf id db).map fun document => (fileName contract, document), db)

end ContractController

/-! ### The buttons -/

namespace ContractDetailScreen

/-- What the screen lets the clerk ask for. -/
inductive Button
  | activate
  | complete
  /-- The form, filled in so that it passes the validation of the controller. -/
  | edit (request : ContractRequest) (dated : request.departureDatetime ≠ none)
  | delete
  | downloadPdf

/-- The buttons that are enabled on a contract of this status. -/
def offered (status : ContractStatus) : Button → Bool
  | .activate => status = .inProgress
  | .complete => status = .active
  | .edit _ _ => status ≠ .active && status ≠ .completed
  | .delete => status ≠ .active
  | .downloadPdf => status = .active || status = .completed

/-- What is sent, for the buttons that are a call. -/
def Button.call (id : Id) : Button → Option Call
  | .activate => some (.updateStatus id .active)
  | .complete => some (.updateStatus id .completed)
  | .edit request _ => some (.contractUpdate id request)
  | .delete => some (.softDelete id)
  | .downloadPdf => none

/-- The answer to a button that was pressed and confirmed, and the database after it. -/
def press (env : Env) (id : Id) (db : Db) (button : Button) : Except ServiceError Unit × Db :=
  match button.call id with
  | some call => ((call.exec env db).map fun _ => (), call.commit env db)
  | none =>
    let (answer, db) := ContractController.pdf env id db
    (answer.map fun _ => (), db)

end ContractDetailScreen

open ContractDetailScreen

variable {env : Env} {db db' : Db} {id : Id} {c : Contract} {request : ContractRequest}
  {w w' : World}

/-! ### When a button works -/

/-- The reservation or running contract can get these terms. -/
structure Editable (env : Env) (db : Db) (id : Id) (c : Contract) (request : ContractRequest) :
    Prop where
  kept : c.deleted = false
  live : c.status ≠ .completed
  sameCar : c.status = .active → c.carId = request.carId
  free : hasOverlappingContract env db request.carId request.departureDatetime
    request.expectedReturnDatetime (some id) = false
  client : ∃ client, db.clients.get? request.clientId = some client
  car : ∃ car, db.cars.get? request.carId = some car ∧
    (c.status = .inProgress → ∃ departure, request.departureDatetime = some departure ∧
      (departure ≤ env.now → car.status = .available))

/-- The contract as it is, and what a button needs of it. -/
def Allowed (env : Env) (db : Db) (id : Id) (c : Contract) : Button → Prop
  | .activate => c.deleted = false ∧ c.status = .inProgress ∧ CarAvailable db c
  | .complete => c.status = .active
  | .edit request _ => Editable env db id c request
  | .delete => c.deleted = false ∧ c.status ≠ .active
  | .downloadPdf => c.deleted = false ∧ (c.status = .active ∨ c.status = .completed) ∧
      ∃ db', autoActivateContracts env db = .ok db'

theorem activate_returns_iff (hI : Inv db) (hget : db.contracts.get? id = some c) :
    (∃ db', (Call.updateStatus id .active).exec env db = .ok db') ↔
      c.deleted = false ∧ c.status = .inProgress ∧ CarAvailable db c := by
  constructor
  · rintro ⟨db', hexec⟩
    obtain ⟨⟨response, written⟩, hupdate, -⟩ := map_eq_ok.mp hexec
    simp only [updateStatus, bind_eq_ok, throwIf_eq_ok, orThrow_eq_ok, getContract_eq_ok, not_not,
      ne_eq] at hupdate
    obtain ⟨c', ⟨hget', hdel⟩, -, hst, car, hcar, -, havail, -⟩ := hupdate
    obtain rfl := Option.some.inj (hget.symm.trans hget')
    exact ⟨hdel, hst, car, hcar, havail⟩
  · rintro ⟨hdel, hst, car, hcar, havail⟩
    obtain ⟨db', hexec, -⟩ := activate_returns env hI hget hdel hst hcar havail
    exact ⟨db', hexec⟩

theorem complete_returns_iff (hI : Inv db) (hget : db.contracts.get? id = some c) :
    (∃ db', (Call.updateStatus id .completed).exec env db = .ok db') ↔ c.status = .active := by
  constructor
  · rintro ⟨db', hexec⟩
    obtain ⟨⟨response, written⟩, hupdate, -⟩ := map_eq_ok.mp hexec
    simp only [updateStatus, bind_eq_ok, throwIf_eq_ok, getContract_eq_ok, not_not,
      ne_eq] at hupdate
    obtain ⟨c', ⟨hget', -⟩, -, hst, -⟩ := hupdate
    obtain rfl := Option.some.inj (hget.symm.trans hget')
    exact hst
  · intro hst
    obtain ⟨db', hexec, -⟩ := return_returns env hI hget hst
    exact ⟨db', hexec⟩

theorem delete_returns_iff (hI : Inv db) (hget : db.contracts.get? id = some c) :
    (∃ db', (Call.softDelete id).exec env db = .ok db') ↔
      c.deleted = false ∧ c.status ≠ .active := by
  constructor
  · rintro ⟨db', hexec⟩
    simp only [Call.exec, softDelete, bind_eq_ok, throwIf_eq_ok, getContract_eq_ok] at hexec
    obtain ⟨c', ⟨hget', hdel⟩, -, hst, -⟩ := hexec
    obtain rfl := Option.some.inj (hget.symm.trans hget')
    exact ⟨hdel, hst⟩
  · rintro ⟨hdel, hst⟩
    have hclient : ∃ client, db.clients.get? c.loaded.clientId = some client :=
      hI.contractClient hget
    obtain ⟨ledger, hledger⟩ := ensure_returns env id hclient
    show ∃ db', softDelete env id db = .ok db'
    unfold softDelete
    simp only [exists_bind_ok, throwIf_eq_ok, getContract_eq_ok]
    refine ⟨c, ⟨hget, hdel⟩, (), hst, ?_⟩
    split
    · simp only [exists_bind_ok]
      exact ⟨_, hledger, _, rfl⟩
    · exact ⟨_, rfl⟩

/-- A form that is saved meets the checks, one by one. -/
theorem editable_of_update {response : ContractResponse} (hget : db.contracts.get? id = some c)
    (h : update env id request db = .ok (response, db')) : Editable env db id c request := by
  simp only [update, bind_eq_ok, throwIf_eq_ok, findCar, findClient, orThrow_eq_ok,
    getContract_eq_ok] at h
  obtain ⟨c', ⟨hget', hdel⟩, -, hncomp, car, hcar, -, hover, client, hclient, -, hsame, h⟩ := h
  obtain rfl := Option.some.inj (hget.symm.trans hget')
  refine ⟨hdel, hncomp, fun hact => ?_, by simpa using hover, ⟨client, hclient⟩, car, hcar,
    fun hst => ?_⟩
  · by_contra hne
    exact hsame ⟨hact, hne⟩
  · have hterms : (apply { c.loaded with carId := request.carId, clientId := request.clientId }
        request).status = .inProgress := hst
    rw [hterms] at h
    simp only [bind_eq_ok, throwIf_eq_ok, orThrow_eq_ok] at h
    obtain ⟨departure, hdeparture, -, hnow, -⟩ := h
    refine ⟨departure, hdeparture, fun hdue => ?_⟩
    by_contra hna
    exact hnow ⟨hdue, hna⟩

theorem update_of_editable (hget : db.contracts.get? id = some c)
    (h : Editable env db id c request) : ∃ result, update env id request db = .ok result := by
  obtain ⟨client, hclient⟩ := h.client
  obtain ⟨car, hcar, hdue⟩ := h.car
  obtain ⟨terms, hterms⟩ : ∃ terms, terms = apply
    { c.loaded with carId := request.carId, clientId := request.clientId } request := ⟨_, rfl⟩
  have hcar' : db.cars.get? terms.carId = some car := by rw [hterms]; exact hcar
  have hclient' : db.clients.get? terms.clientId = some client := by rw [hterms]; exact hclient
  have hstatus : terms.status = c.status := by rw [hterms]; rfl
  have hdeparture : terms.departureDatetime = request.departureDatetime := by rw [hterms]; rfl
  -- every guard of the source is a field of `Editable`; what follows them cannot fail
  unfold update
  simp only [exists_bind_ok, throwIf_eq_ok, findCar, findClient, orThrow_eq_ok, getContract_eq_ok]
  refine ⟨c, ⟨hget, h.kept⟩, (), h.live, car, hcar, (), by simp [h.free], client, hclient, (),
    fun hchanged => hchanged.2 (h.sameCar hchanged.1), ?_⟩
  rw [← hterms]
  cases hst : terms.status with
  | inProgress =>
    obtain ⟨departure, hrequest, havail⟩ := hdue (hstatus.symm.trans hst)
    simp only [exists_bind_ok, throwIf_eq_ok, orThrow_eq_ok]
    refine ⟨departure, hdeparture.trans hrequest, (), fun hbusy => hbusy.2 (havail hbusy.1), ?_⟩
    split
    · have href : References (rentOut id terms.stored car { db with
          contracts := db.contracts.set id terms.stored }) { terms with status := .active } :=
        ⟨exists_car_set hcar' ⟨car, hcar'⟩, client, hclient'⟩
      obtain ⟨response, ledger, hfinish⟩ := finish_returns env id href
      exact ⟨_, hfinish⟩
    · obtain ⟨response, hresponse⟩ := map_returns
        { db with contracts := db.contracts.set id terms.stored } id
        ⟨⟨car, hcar'⟩, client, hclient'⟩
      exact ⟨_, bind_eq_ok.mpr ⟨_, hresponse, rfl⟩⟩
  | active =>
    have href : References { db with
        cars := db.cars.set terms.carId { car with status := .rented }
        contracts := db.contracts.set id terms.stored } terms :=
      ⟨exists_car_set hcar' ⟨car, hcar'⟩, client, hclient'⟩
    obtain ⟨response, hresponse⟩ := map_returns _ id href
    exact ⟨_, bind_eq_ok.mpr ⟨_, hresponse, rfl⟩⟩
  | completed => exact absurd (hstatus.symm.trans hst) h.live
  | cancelled =>
    obtain ⟨response, hresponse⟩ := map_returns
      { db with contracts := db.contracts.set id terms.stored } id ⟨⟨car, hcar'⟩, client, hclient'⟩
    exact ⟨_, bind_eq_ok.mpr ⟨_, hresponse, rfl⟩⟩

theorem edit_returns_iff (hget : db.contracts.get? id = some c) :
    (∃ db', (Call.contractUpdate id request).exec env db = .ok db') ↔
      Editable env db id c request := by
  constructor
  · rintro ⟨db', hexec⟩
    obtain ⟨⟨response, written⟩, hupdate, -⟩ := map_eq_ok.mp hexec
    exact editable_of_update hget hupdate
  · intro h
    obtain ⟨result, hupdate⟩ := update_of_editable hget h
    exact ⟨result.2, map_eq_ok.mpr ⟨result, hupdate, rfl⟩⟩

/-! ### The document of a contract -/

/-- The sweep leaves a contract that is not a reservation alone. -/
theorem sweep_keeps (hget : db.contracts.get? id = some c) (hst : c.status ≠ .inProgress)
    (h : autoActivateContracts env db = .ok db') : db'.contracts.get? id = some c := by
  rcases autoActivateContracts_eq env db with ⟨-, herr⟩ | ⟨-, hok⟩
  · exact absurd (herr.symm.trans h) (by simp)
  · obtain rfl := Except.ok.inj (hok.symm.trans h)
    rw [get?_contracts_swept hget, if_neg]
    intro hmem
    obtain ⟨p, hp, rfl⟩ := List.mem_map.mp hmem
    obtain ⟨hget', -, hst'⟩ := (due_of_mem_takes hp).1
    obtain rfl := Option.some.inj (hget.symm.trans hget')
    exact hst hst'

theorem generateContractPdf_eq_ok {document : ContractDocument} :
    PdfService.generateContractPdf id db = .ok document ↔
      db.contracts.get? id = some document.contract ∧ document.contract.deleted = false ∧
      (document.contract.status = .active ∨ document.contract.status = .completed) ∧
      db.cars.get? document.contract.carId = some document.car ∧
      db.clients.get? document.contract.clientId = some document.client := by
  obtain ⟨contract, car, client⟩ := document
  simp only [PdfService.generateContractPdf, ContractRepository.findDetailedById, bind_eq_ok,
    orThrow_eq_ok, throwIf_eq_ok, pure_eq_ok, Option.filter_eq_some_iff, Bool.and_eq_true,
    Bool.not_eq_true', ContractDocument.mk.injEq]
  constructor
  · rintro ⟨c, ⟨hget, ⟨hdel, -⟩, -⟩, -, hst, car', hcar, client', hclient, rfl, rfl, rfl⟩
    refine ⟨hget, hdel, ?_, hcar, hclient⟩
    by_contra hneither
    exact hst (not_or.mp hneither)
  · rintro ⟨hget, hdel, hst, hcar, hclient⟩
    refine ⟨contract, ⟨hget, ⟨hdel, by rw [hclient]; rfl⟩, by rw [hcar]; rfl⟩, (), ?_, car, hcar,
      client, hclient, rfl, rfl, rfl⟩
    exact fun hneither => not_or.mpr hneither hst

theorem findById_eq_ok {response : ContractResponse} :
    findById env id db = .ok (response, db') ↔ autoActivateContracts env db = .ok db' ∧
      ∃ c, db'.contracts.get? id = some c ∧ c.deleted = false ∧
        ContractService.map db' id c.loaded = .ok response := by
  simp only [findById, sweeping_eq_ok, bind_eq_ok, getContract_eq_ok, and_assoc]

theorem inv_of_sweep (hI : Inv db) (h : autoActivateContracts env db = .ok db') : Inv db' := by
  obtain ⟨taken, -, hrun⟩ := autoActivateContracts_run h
  exact Run.inv hrun hI

/-- The document of a contract that has left is drawn from its row. -/
theorem pdf_eq_ok (hget : db.contracts.get? id = some c) (hst : c.status ≠ .inProgress)
    {name : String} {document : ContractDocument} :
    (ContractController.pdf env id db).1 = .ok (name, document) ↔
      ∃ response db', findById env id db = .ok (response, db') ∧
        name = ContractController.fileName response ∧ document.contract = c ∧
        PdfService.generateContractPdf id db' = .ok document := by
  unfold ContractController.pdf
  constructor
  · intro h
    split at h
    · exact absurd h (by simp)
    · next response db' hfind =>
      obtain ⟨document', hdocument, hname⟩ := map_eq_ok.mp h
      obtain ⟨rfl, rfl⟩ := Prod.mk.inj hname
      refine ⟨response, db', hfind, rfl, ?_, hdocument⟩
      have hkept := sweep_keeps hget hst (findById_eq_ok.mp hfind).1
      exact Option.some.inj ((generateContractPdf_eq_ok.mp hdocument).1.symm.trans hkept)
  · rintro ⟨response, db', hfind, rfl, -, hdocument⟩
    rw [hfind]
    exact map_eq_ok.mpr ⟨document, hdocument, rfl⟩

/-- There is a document for every contract that has left, until it is archived. -/
theorem pdf_returns_iff (hI : Inv db) (hget : db.contracts.get? id = some c)
    (hst : c.status ≠ .inProgress) :
    (∃ answer, (ContractController.pdf env id db).1 = .ok answer) ↔
      Allowed env db id c .downloadPdf := by
  constructor
  · rintro ⟨⟨name, document⟩, hpdf⟩
    obtain ⟨response, db', hfind, -, rfl, hdocument⟩ := (pdf_eq_ok hget hst).mp hpdf
    obtain ⟨-, hdel, hleft, -, -⟩ := generateContractPdf_eq_ok.mp hdocument
    exact ⟨hdel, hleft, db', (findById_eq_ok.mp hfind).1⟩
  · rintro ⟨hdel, hleft, db', hsweep⟩
    have hI' := inv_of_sweep hI hsweep
    have hget' := sweep_keeps hget hst hsweep
    have href : References db' c.loaded := references_of_inv hI' hget'
    obtain ⟨response, hresponse⟩ := map_returns db' id href
    obtain ⟨⟨car, hcar⟩, client, hclient⟩ := href
    have hdocument : PdfService.generateContractPdf id db' = .ok ⟨c, car, client⟩ :=
      generateContractPdf_eq_ok.mpr ⟨hget', hdel, hleft, hcar, hclient⟩
    have hfind := findById_eq_ok.mpr ⟨hsweep, c, hget', hdel, hresponse⟩
    exact ⟨_, (pdf_eq_ok hget hst).mpr ⟨response, db', hfind, rfl, rfl, hdocument⟩⟩

theorem replaceRuns_safe (inRun : Bool) (s : List Char) :
    ∀ c ∈ ContractController.replaceRuns inRun s, ContractController.unsafeInName c = false := by
  induction s generalizing inRun with
  | nil => simp [ContractController.replaceRuns]
  | cons c rest ih =>
    intro x hx
    unfold ContractController.replaceRuns at hx
    split at hx
    · split at hx
      · exact ih true x hx
      · rcases List.mem_cons.mp hx with rfl | hx
        · decide
        · exact ih true x hx
    · next hsafe =>
      rcases List.mem_cons.mp hx with rfl | hx
      · simpa using hsafe
      · exact ih false x hx

/-- The file can be saved under its name. -/
theorem fileName_safe (response : ContractResponse) :
    ∀ c ∈ (ContractController.fileName response).toList,
      ContractController.unsafeInName c = false := by
  have hname : ∀ s, ∀ c ∈ (ContractController.safeName s).toList,
      ContractController.unsafeInName c = false := by
    intro s c hc
    rw [ContractController.safeName, String.toList_ofList] at hc
    exact replaceRuns_safe false _ c hc
  have hall : ("Contrat_".toList ++ "_".toList ++ ".pdf".toList).all
      (fun c => !ContractController.unsafeInName c) = true := by decide
  have hfixed : ∀ c ∈ "Contrat_".toList ++ "_".toList ++ ".pdf".toList,
      ContractController.unsafeInName c = false := by
    intro c hc
    simpa using List.all_eq_true.mp hall c hc
  intro c hc
  simp only [ContractController.fileName, String.toList_append, List.mem_append] at hc
  rcases hc with (((hc | hc) | hc) | hc) | hc
  · exact hfixed c (List.mem_append_left _ (List.mem_append_left _ hc))
  · exact hname _ c hc
  · exact hfixed c (List.mem_append_left _ (List.mem_append_right _ hc))
  · exact hname _ c hc
  · exact hfixed c (List.mem_append_right _ hc)

/-! ### Pressing a button -/

theorem press_ok_iff (hI : Inv db) (hget : db.contracts.get? id = some c) {button : Button}
    (hpdf : button = .downloadPdf → c.status ≠ .inProgress) :
    (press env id db button).1 = .ok () ↔ Allowed env db id c button := by
  have hmap : ∀ {α : Type} {x : Except ServiceError α},
      x.map (fun _ => ()) = .ok () ↔ ∃ a, x = .ok a := by
    intro α x
    cases x <;> simp [Except.map]
  cases button with
  | activate => exact hmap.trans (activate_returns_iff hI hget)
  | complete => exact hmap.trans (complete_returns_iff hI hget)
  | edit request dated => exact hmap.trans (edit_returns_iff hget)
  | delete => exact hmap.trans (delete_returns_iff hI hget)
  | downloadPdf => exact hmap.trans (pdf_returns_iff hI hget (hpdf rfl))

/-- What works on the contract as it is, is what a screen that shows it would offer; only that
a running contract can be edited, as long as it keeps its car. -/
theorem offered_of_allowed {button : Button} (h : Allowed env db id c button) :
    offered c.status button = true ∨
      ∃ request dated, button = .edit request dated ∧ c.status = .active ∧
        c.carId = request.carId := by
  cases button with
  | activate => exact Or.inl (decide_eq_true h.2.1)
  | complete => exact Or.inl (decide_eq_true h)
  | edit request dated =>
    by_cases hact : c.status = .active
    · exact Or.inr ⟨request, dated, rfl, hact, h.sameCar hact⟩
    · exact Or.inl (by simp [offered, hact, h.live])
  | delete => exact Or.inl (decide_eq_true h.2)
  | downloadPdf => exact Or.inl (by simpa [offered] using h.2.1)

theorem map_status {response : ContractResponse}
    (h : ContractService.map db id c.loaded = .ok response) : response.status = c.status := by
  simp only [ContractService.map, bind_eq_ok, pure_eq_ok] at h
  obtain ⟨car, -, client, -, rfl⟩ := h
  rfl

/-- A screen that is loaded shows the contract as it is, unless the loading activates it. -/
theorem fresh_status (hget : db.contracts.get? id = some c) {view : ContractResponse}
    (h : findById env id db = .ok (view, db')) :
    view.status = c.status ∨ Due db env.now (id, c) ∧ view.status = .active := by
  obtain ⟨hsweep, c', hget', -, hmap⟩ := findById_eq_ok.mp h
  rw [map_status hmap]
  rcases autoActivateContracts_eq env db with ⟨-, herr⟩ | ⟨-, hok⟩
  · exact absurd (herr.symm.trans hsweep) (by simp)
  · obtain rfl := Except.ok.inj (hok.symm.trans hsweep)
    rw [get?_contracts_swept hget, Option.some.injEq] at hget'
    subst hget'
    split
    · next hmem =>
      obtain ⟨⟨id', c'⟩, hp, rfl⟩ := List.mem_map.mp hmem
      have hdue := due_of_mem_takes hp
      obtain rfl := Option.some.inj (hget.symm.trans hdue.1.1)
      exact Or.inr ⟨hdue, rfl⟩
    · exact Or.inl rfl

theorem contractsEvolve_run (h : Reachable w) (hrun : Relation.ReflTransGen Step w w') :
    ContractsEvolve w.db w'.db := by
  refine relates_of_act ?_ ?_ contractsEvolve_act h hrun
  · exact fun db i c hc => ⟨c, hc, .refl c⟩
  · intro db₁ db₂ db₃ h₁₂ h₂₃ i c hc
    obtain ⟨c', hc', hev⟩ := h₁₂ i c hc
    obtain ⟨c'', hc'', hev'⟩ := h₂₃ i c' hc'
    exact ⟨c'', hc'', hev.trans hev'⟩

/-- The world after a contract was read. -/
theorem reachable_findById (h : Reachable w) (hclock : w.clock ≤ env.now)
    {view : ContractResponse} (hview : findById env id w.db = .ok (view, db')) :
    Reachable ⟨env.now, db'⟩ := by
  have hexec : (Call.contractFindById id).exec env w.db = .ok db' :=
    map_eq_ok.mpr ⟨_, hview, rfl⟩
  have hstep : Reachable ⟨env.now, (Call.contractFindById id).commit env w.db⟩ :=
    h.step hclock trivial
  rwa [Call.commit, hexec] at hstep

/-- **The buttons of a screen that may be out of date.** Let a contract be read in a reachable
state, let anything happen since, and let a button that was offered be pressed. The contract is
still there and its status has only moved forward. The button works exactly when the contract as
it is now allows it. Whatever works would also be offered by a screen that is loaded at this
moment, with two exceptions: a contract that is running by now can still be edited, if it keeps
its car, and a reservation that is due is activated by the very loading. A document is drawn
from the contract as it is now, under a name that any system can store. -/
theorem stale_screen (h : Reachable w) (hclock : w.clock ≤ env.now) {view : ContractResponse}
    (hview : findById env id w.db = .ok (view, db'))
    (hrun : Relation.ReflTransGen Step ⟨env.now, db'⟩ w') {button : Button}
    (hoffered : offered view.status button = true) (env' : Env) :
    ∃ c, w'.db.contracts.get? id = some c ∧ Relation.ReflTransGen Next view.status c.status ∧
      ((press env' id w'.db button).1 = .ok () ↔ Allowed env' w'.db id c button) ∧
      (∀ fresh db'', findById env' id w'.db = .ok (fresh, db'') →
        (press env' id w'.db button).1 = .ok () → offered fresh.status button = true ∨
          (∃ request dated, button = .edit request dated ∧ c.status = .active ∧
            c.carId = request.carId) ∨
          Due w'.db env'.now (id, c) ∧ fresh.status = .active) ∧
      (button = .downloadPdf → ∀ name document,
        (ContractController.pdf env' id w'.db).1 = .ok (name, document) →
        document.contract = c ∧
          ∀ ch ∈ name.toList, ContractController.unsafeInName ch = false) := by
  have hread := reachable_findById h hclock hview
  obtain ⟨-, shown, hshown, -, hmap⟩ := findById_eq_ok.mp hview
  obtain ⟨c, hget, hevolves⟩ := contractsEvolve_run hread hrun id shown hshown
  have hI := inv_of_reachable (hread.trans hrun)
  have hnext : Relation.ReflTransGen Next view.status c.status := by
    rw [map_status hmap]
    exact hevolves.status
  -- a contract that had left when it was shown is no reservation now
  have hleft : button = .downloadPdf → c.status ≠ .inProgress := by
    rintro rfl
    refine next_ne_inProgress hnext fun hst => ?_
    rw [hst] at hoffered
    exact absurd hoffered (by decide)
  have hiff : (press env' id w'.db button).1 = .ok () ↔ Allowed env' w'.db id c button :=
    press_ok_iff hI hget hleft
  refine ⟨c, hget, hnext, hiff, fun fresh db'' hfresh hok => ?_, ?_⟩
  · rcases fresh_status hget hfresh with hst | hdue
    · rw [hst]
      exact (offered_of_allowed (hiff.mp hok)).imp_right Or.inl
    · exact Or.inr (Or.inr hdue)
  · intro hbutton name document hpdf
    obtain ⟨response, db₁, -, rfl, hcontract, -⟩ := (pdf_eq_ok hget (hleft hbutton)).mp hpdf
    exact ⟨hcontract, fileName_safe response⟩

/-- A reservation for the next day. -/
def reservedForTomorrow : List (Env × Call) :=
  fleetOfOne ++
    [(.atTime 0, .contractCreate (booking secondsPerDay (some (2 * secondsPerDay)) 10000))]

/-- The form of the reservation, with another price. -/
def dearer : Button :=
  .edit (booking secondsPerDay (some (2 * secondsPerDay)) 20000) (by simp [booking])

/-- The reservation is shown today. Tomorrow, as long as nobody looks, it can be deleted, although
a screen loaded then shows it running. Once it is activated, its form, still open, can be
saved. -/
theorem stale_screen_activated :
    ∃ view db', findById (.atTime 0) 1 (World.after reservedForTomorrow).db = .ok (view, db') ∧
      view.status = .inProgress ∧
      (∃ c fresh db'', db'.contracts.get? 1 = some c ∧
        Allowed (.atTime secondsPerDay) db' 1 c .delete ∧
        findById (.atTime secondsPerDay) 1 db' = .ok (fresh, db'') ∧ fresh.status = .active ∧
        Due db' secondsPerDay (1, c)) ∧
      ∃ w' c, w' = runCalls [(.atTime secondsPerDay, .scheduledAutoActivate)] ⟨0, db'⟩ ∧
        w'.db.contracts.get? 1 = some c ∧ c.status = .active ∧
        Allowed (.atTime secondsPerDay) w'.db 1 c dearer := by
  have hreach : Reachable (World.after reservedForTomorrow) :=
    reachable_after reservedForTomorrow (by decide)
  obtain ⟨view, db', hview, hst⟩ : ∃ view db', findById (.atTime 0) 1
      (World.after reservedForTomorrow).db = .ok (view, db') ∧ view.status = .inProgress :=
    ⟨_, _, rfl, rfl⟩
  have hclock : (World.after reservedForTomorrow).clock ≤ (Env.atTime 0).now := by decide
  have hsorted : ((0 : LocalDateTime) ::
      [((Env.atTime secondsPerDay, Call.scheduledAutoActivate) : Env × Call)].map
        fun c => c.1.now).Pairwise (· ≤ ·) := by decide
  have hrun := runCalls_run [(.atTime secondsPerDay, .scheduledAutoActivate)] ⟨0, db'⟩ hsorted
  have hdelete : offered view.status .delete = true := by rw [hst]; rfl
  have hedit : offered view.status dearer = true := by rw [hst]; rfl
  obtain ⟨c₁, hget₁, -, hiff₁, hfresh, -⟩ := stale_screen hreach hclock hview .refl hdelete
    (.atTime secondsPerDay)
  obtain ⟨c₂, hget₂, -, hiff₂, -⟩ := stale_screen hreach hclock hview hrun hedit
    (.atTime secondsPerDay)
  obtain ⟨-, rfl⟩ := Prod.mk.inj (Except.ok.inj hview)
  refine ⟨view, _, hview, hst, ⟨c₁, _, _, hget₁, hiff₁.mp rfl, rfl, rfl, ?_⟩, _, c₂, rfl, hget₂,
    ?_, hiff₂.mp rfl⟩
  · rcases hfresh _ _ rfl rfl with hno | ⟨request, dated, hno, -⟩ | ⟨hdue, -⟩
    · exact absurd hno (by decide)
    · exact absurd hno (by simp)
    · exact hdue
  · obtain rfl := Option.some.inj hget₂
    rfl

end CarRental
