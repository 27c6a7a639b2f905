import CarRental.Repository

/-!
# CarRental.Service.Client

`ClientService` and `OrphanClientService`: the clients, and the **controlled
removal** of those no contract refers to.
-/

namespace CarRental

open Lib

namespace OrphanClientService

/-- Removes the client only when no contract, archived or not, is left: archived
contracts stay in the rental history of their car. -/
def removeClientIfOrphan (clientId : Id) (db : Db) : Db :=
  if 0 < ContractRepository.countByDeletedFalseAndClientId db clientId then db
  else if (db.clients.get? clientId).isNone then db
  else if 0 < ContractRepository.countByClientId db clientId then db
  else { db with clients := db.clients.delete clientId }

/-- The removal either does nothing or deletes a client no contract refers to. -/
theorem removeClientIfOrphan_cases (clientId : Id) (db : Db) :
    removeClientIfOrphan clientId db = db ∨
    ((∀ id c, db.contracts.get? id = some c → c.clientId ≠ clientId) ∧
      removeClientIfOrphan clientId db = { db with clients := db.clients.delete clientId }) := by
  unfold removeClientIfOrphan
  by_cases hopen : 0 < ContractRepository.countByDeletedFalseAndClientId db clientId
  · exact Or.inl (if_pos hopen)
  rw [if_neg hopen]
  by_cases hgone : (db.clients.get? clientId).isNone = true
  · exact Or.inl (if_pos hgone)
  rw [if_neg hgone]
  by_cases hany : 0 < ContractRepository.countByClientId db clientId
  · exact Or.inl (if_pos hany)
  rw [if_neg hany]
  refine Or.inr ⟨?_, rfl⟩
  intro id c hc hclient
  have hmem : (id, c) ∈ db.contracts.select fun _ c => c.clientId = clientId :=
    Table.mem_select.mpr ⟨hc, by simpa using hclient⟩
  exact hany (List.length_pos_of_mem hmem)

end OrphanClientService

namespace ClientService

/-- The client, or the exception that names the key. -/
def getClient (id : Id) (db : Db) : Except ServiceError Client :=
  orThrow (db.clients.get? id) (.resourceNotFound ("Client not found: " ++ toString id))

/-- Every field of the request is copied. -/
def apply (request : ClientRequest) : Client where
  fullName := request.fullName
  birthDate := request.birthDate
  addressMorocco := request.addressMorocco
  addressAbroad := request.addressAbroad
  profession := request.profession
  drivingLicenseNumber := request.drivingLicenseNumber
  drivingLicenseIssuedAt := request.drivingLicenseIssuedAt
  cinNumber := request.cinNumber
  passportNumber := request.passportNumber
  passportIssuedAt := request.passportIssuedAt
  phone := request.phone
  additionalDriverFullName := request.additionalDriverFullName
  additionalDriverDrivingLicenseNumber := request.additionalDriverDrivingLicenseNumber
  additionalDriverDrivingLicenseIssuedAt := request.additionalDriverDrivingLicenseIssuedAt
  additionalDriverPassportNumber := request.additionalDriverPassportNumber

/-- `map`: the row with its key. -/
def map (id : Id) (client : Client) : ClientResponse where
  id := id
  fullName := client.fullName
  birthDate := client.birthDate
  addressMorocco := client.addressMorocco
  addressAbroad := client.addressAbroad
  profession := client.profession
  drivingLicenseNumber := client.drivingLicenseNumber
  drivingLicenseIssuedAt := client.drivingLicenseIssuedAt
  cinNumber := client.cinNumber
  passportNumber := client.passportNumber
  passportIssuedAt := client.passportIssuedAt
  phone := client.phone
  additionalDriverFullName := client.additionalDriverFullName
  additionalDriverDrivingLicenseNumber := client.additionalDriverDrivingLicenseNumber
  additionalDriverDrivingLicenseIssuedAt := client.additionalDriverDrivingLicenseIssuedAt
  additionalDriverPassportNumber := client.additionalDriverPassportNumber

/-- Only clients with a contract that is not archived are listed. -/
def findAll (db : Db) : List ClientResponse :=
  (db.clients.rows.filter fun c =>
    0 < ContractRepository.countByDeletedFalseAndClientId db c.1).map fun c => map c.1 c.2

/-- `findById` -/
def findById (id : Id) (db : Db) : Except ServiceError ClientResponse := do
  let client ← getClient id db
  pure (map id client)

/-- Nothing is checked here: two clients may have one name and one document. -/
def create (request : ClientRequest) (db : Db) : ClientResponse × Db :=
  let client := apply request
  (map db.clients.nextId client, { db with clients := db.clients.insert client })

/-- The whole card is replaced. -/
def update (id : Id) (request : ClientRequest) (db : Db) :
    Except ServiceError (ClientResponse × Db) := do
  let _ ← getClient id db
  let client := apply request
  pure (map id client, { db with clients := db.clients.set id client })

/-- A client with open contracts stays. One with closed contracts stays too, but silently: only an
orphan is removed. -/
def delete (id : Id) (db : Db) : Except ServiceError Db := do
  let _ ← getClient id db
  throwIf (ContractRepository.existsByClientIdAndDeletedFalseAndStatusIn db id
      [.inProgress, .active])
    (.illegalArgument "Impossible de supprimer : client a des contrats en cours")
  pure (OrphanClientService.removeClientIfOrphan id db)

end ClientService

end CarRental
