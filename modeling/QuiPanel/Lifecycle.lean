import QuiPanel.Provision

namespace QuiPanel

namespace Clients

open Keyed Outcome

def errNotFound : String := "record not found"

def DB.effectiveFlow (db : DB) (clientId : Int) : String :=
  let flows := (db.links.filter fun l => l.clientId == clientId && l.flowOverride != "").insertionSort
    fun a b => a.inboundId ≤ b.inboundId
  (flows.head?.map (·.flowOverride)).getD ""

section stats

variable (traffics : List ClientTraffic)

def updateClientStat (email : String) (client : Client) : Except String (List ClientTraffic) := do
  let moved := client.email ≠ email ∧ traffics.any (·.email == email) ∧ traffics.any (·.email == client.email)
  check (!decide moved) "UNIQUE constraint failed: client_traffics.email"
  return traffics.map fun t =>
    if t.email = email then
      { t with
        enable := client.enable, email := client.email, total := client.totalGB
        expiryTime := client.expiryTime, reset := client.reset }
    else t

def delClientStat (email : String) : List ClientTraffic := traffics.filter (·.email != email)

def resetStat (email : String) : List ClientTraffic :=
  traffics.map fun t => if t.email = email then { t with enable := true, up := 0, down := 0 } else t

end stats

section inboundClient

variable (o : Attempt) (db : DB)

def emailUsedByOtherInbounds (email : String) (exceptInboundId : Int) : Bool :=
  email != "" && db.inbounds.rows.any fun ib =>
    ib.id != exceptInboundId && (ib.clients.getD []).any fun c => Text.toLower c.email == Text.toLower email

def restampEntry (oldClient client : Client) : Client :=
  { client with
    createdAt := if oldClient.createdAt = 0 then o.now else oldClient.createdAt
    updatedAt := o.now
    subID :=
      if Text.trimSpace client.subID ≠ "" then client.subID
      else if Text.trimSpace oldClient.subID ≠ "" then oldClient.subID
      else o.subID }

def moveStat (inboundId : Int) (oldEmail : String) (client : Client) : Except String (List ClientTraffic) :=
  if Text.equalFold oldEmail client.email ∨ !db.traffics.any (·.email == client.email) then
    updateClientStat db.traffics oldEmail client
  else
    let kept :=
      if emailUsedByOtherInbounds db oldEmail inboundId then db.traffics
      else delClientStat db.traffics oldEmail
    updateClientStat kept client.email client

def updateInboundClient (inboundId : Int) (client : Client) (oldEmail : String) : Except String DB := do
  check o.read.isNone (o.read.getD "")
  let oldInbound ← orErr (db.inbounds.find inboundId) errNotFound
  let oldClients := oldInbound.clients.getD []
  let index := oldClients.findIdx fun c => Text.equalFold c.email oldEmail
  let located := if credential oldInbound.protocol client = "" then none else oldClients[index]?
  let oldClient ← orErr located "empty client ID\n"
  check (Text.trimSpace client.email != "") "client email is required\n"
  let existEmail := if client.email = oldClient.email then none else checkEmailsExist db [client] []
  check existEmail.isNone ("Duplicate email: " ++ existEmail.getD "" ++ "\n")
  let clients := oldClients.set index (restampEntry o oldClient client)
  let traffics ← moveStat db inboundId oldClient.email client
  let _ ← o.plan
  check o.write.isNone (o.write.getD "")
  syncInbound (saveClients { db with traffics } inboundId clients) inboundId clients

def delInboundClientByEmail (inboundId : Int) (email : String) (keepTraffic : Bool) :
    DB × Except String Bool :=
  match (db.inbounds.find inboundId).map (·.clients) with
  | none => (db, .error errNotFound)
  | some none => (db, .error "invalid clients format in inbound settings\n")
  | some (some clients) =>
    if !clients.any (·.email == email) then (db, .ok false)
    else
      let newClients := compactOrphans db (clients.filter (·.email != email))
      let shared := emailUsedByOtherInbounds db email inboundId
      let db :=
        if email ≠ "" ∧ !shared ∧ !keepTraffic then
          { db with traffics := delClientStat db.traffics email }
        else db
      match o.plan, o.write with
      | .error e, _ => (db, .error e)
      | _, some e => (db, .error e)
      | .ok _, none =>
        let saved := saveClients db inboundId newClients
        match syncInbound saved inboundId newClients with
        | .error e => (saved, .error e)
        | .ok db => (db, .ok true)

def resetClientTraffic (inboundId : Int) (email : String) : Except String DB := do
  let traffic ← orErr (db.traffics.find? (·.email = email)) "invalid memory address or nil pointer dereference"
  check (traffic.enable || (db.inbounds.find inboundId).isSome) errNotFound
  let _ ← o.plan
  check o.write.isNone (o.write.getD "")
  return { db with traffics := resetStat db.traffics email }

end inboundClient

section service

variable (env : Env) (d : Draws)

def prepareUpdate (db : DB) (existing : ClientRecord) (updated : Client) : Except String Client := do
  check (Text.trimSpace updated.email != "") "client email is required\n"
  check (!hasForbiddenClientChar updated.email)
    ("client email contains an invalid character: " ++ updated.email ++ "\n")
  check (!hasForbiddenClientChar updated.subID)
    ("client subId contains an invalid character: " ++ updated.subID ++ "\n")
  let subID := if updated.subID = "" then existing.subID else updated.subID
  let updated := { updated with
    subID := if subID = "" then d.uuid else subID
    updatedAt := d.now
    createdAt := if updated.createdAt = 0 then existing.createdAt else updated.createdAt
    id := if updated.id = "" then existing.id else updated.id
    password := if updated.password = "" then existing.password else updated.password
    auth := if updated.auth = "" then existing.auth else updated.auth }
  let collision := updated.email ≠ existing.email ∧
    db.records.rows.any fun r => r.email == updated.email && r.recordId != existing.recordId
  check (!decide collision) errEmailInUse
  return updated

def renameRecord (db : DB) (recordId : Int) (email : String) : DB :=
  { db with
    records := db.records.modify (·.recordId == recordId) (fun r => { r with email }) fun _ => rfl }

def updateInInbounds (oldEmail : String) (clientId : Int) :
    Nat → DB → Client → List Int → DB × Except String Client
  | _, db, updated, [] => (db, .ok updated)
  | k, db, updated, ibId :: ids =>
    match db.inbounds.find ibId with
    | none =>
      let links := db.links.filter fun l => !(l.clientId == clientId && l.inboundId == ibId)
      updateInInbounds oldEmail clientId (k + 1) { db with links } updated ids
    | some inbound =>
      if oldEmail = "" then updateInInbounds oldEmail clientId (k + 1) db updated ids
      else
        let updated := fillProtocolDefaults env (d.attempts k) updated inbound
        match updateInboundClient (d.attempts k) db ibId (clientWithInboundFlow updated inbound) oldEmail with
        | .error e => (db, .error e)
        | .ok db => updateInInbounds oldEmail clientId (k + 1) db updated ids

def setReverse (db : DB) (recordId : Int) (reverse : Option String) (now : Int) : DB :=
  { db with
    records := db.records.modify (·.recordId == recordId)
      (fun r => { r with reverse, updatedAt := now }) fun _ => rfl }

def update (db : DB) (id : Int) (updated : Client) (inboundFilter : List Int) : DB × Except String Unit :=
  match db.records.find id with
  | none => (db, .error errNotFound)
  | some existing =>
    let linked := db.inboundIdsOf id
    let inboundIds := if inboundFilter = [] then linked else linked.filter inboundFilter.contains
    match prepareUpdate d db existing updated with
    | .error e => (db, .error e)
    | .ok updated =>
      let db := if updated.email = existing.email then db else renameRecord db id updated.email
      if db.records.rows.any fun r => r.subID == updated.subID && r.recordId != id then
        (db, .error errSubIdInUse)
      else
        andThen (updateInInbounds env d existing.email id 0 db updated inboundIds) fun db updated =>
          match d.stamp with
          | some e => (db, .error e)
          | none => (setReverse db id (updated.reverse.filter (Text.trimSpace · != "")) d.now, .ok ())

def updateByEmail (db : DB) (email : String) (updated : Client) (inboundFilter : List Int) :
    DB × Except String Unit :=
  match if email = "" then none else db.record email with
  | none => (db, .error errNotFound)
  | some rec => update env d db rec.recordId updated inboundFilter

structure RotateOptions where
  newEmail : String
  enable : Option Bool
  regenerate : Bool

def rotated (rec : ClientRecord) (opts : RotateOptions) : Client :=
  let updated := rec.toClient
  let updated :=
    if Text.trimSpace opts.newEmail ≠ "" then { updated with email := Text.trimSpace opts.newEmail } else updated
  let updated := { updated with enable := opts.enable.getD updated.enable }
  if opts.regenerate then { updated with subID := d.subID, id := "", password := "", auth := "" } else updated

def rotate (db : DB) (email : String) (opts : RotateOptions) : DB × Except String Unit :=
  match db.record email with
  | none => (db, .error errNotFound)
  | some rec => updateByEmail env d db email (rotated d rec opts) []

def attachToInbounds (attached : List Int) (wire : Client) : Nat → DB → List Int → DB × Except String Unit
  | _, db, [] => (db, .ok ())
  | k, db, ibId :: ids =>
    if attached.contains ibId then attachToInbounds attached wire (k + 1) db ids
    else
      match addTo env (d.attempts k) db wire ibId with
      | .error e => (db, .error e)
      | .ok (db, _) => attachToInbounds attached wire (k + 1) db ids

def attachByEmail (db : DB) (email : String) (inboundIds : List Int) : DB × Except String Unit :=
  match if email = "" then none else db.record email with
  | none => (db, .error errNotFound)
  | some existing =>
    let wire := { existing.toClient with flow := db.effectiveFlow existing.recordId, updatedAt := d.now }
    attachToInbounds env d (db.inboundIdsOf existing.recordId) wire 0 db inboundIds

def delFromInbounds (email : String) : Nat → DB → List Int → DB × Except String Unit
  | _, db, [] => (db, .ok ())
  | k, db, ibId :: ids =>
    if (db.inbounds.find ibId).isNone ∨ email = "" then delFromInbounds email (k + 1) db ids
    else
      match delInboundClientByEmail (d.attempts k) db ibId email false with
      | (db, .error e) => (db, .error e)
      | (db, .ok _) => delFromInbounds email (k + 1) db ids

def deleteByEmail (db : DB) (email : String) (keepTraffic : Bool) : DB × Except String Unit :=
  match if email = "" then none else db.record email with
  | some existing =>
    andThen (delFromInbounds d email 0 db (db.inboundIdsOf existing.recordId)) fun db _ =>
      match d.stamp with
      | some e => (db, .error e)
      | none =>
        ({ db with
            records := db.records.delete (·.recordId == existing.recordId)
            links := db.links.filter (·.clientId != existing.recordId)
            traffics := if keepTraffic then db.traffics else delClientStat db.traffics email }, .ok ())
  | none =>
    let holders := (db.inbounds.rows.filter fun ib => (ib.clients.getD []).any (·.email == email)).map (·.id)
    if email = "" ∨ holders = [] then (db, .error ("client not found in any inbound or client record\n"))
    else
      andThen (delFromInbounds d email 0 db holders) fun db _ =>
        ({ db with traffics := if keepTraffic then db.traffics else delClientStat db.traffics email }, .ok ())

def resetInInbounds (email : String) : Nat → DB → List Int → DB × Except String Unit
  | _, db, [] => (db, .ok ())
  | k, db, ibId :: ids =>
    match resetClientTraffic (d.attempts k) db ibId email with
    | .error e => (db, .error e)
    | .ok db => resetInInbounds email (k + 1) db ids

def enableForReset (db : DB) (rec : ClientRecord) : DB :=
  if rec.enable then db else (update env d db rec.recordId { rec.toClient with enable := true } []).1

def resetTrafficByEmail (reset : Draws) (db : DB) (email : String) : DB × Except String Unit :=
  match if email = "" then none else db.record email with
  | none => (db, .error errNotFound)
  | some rec =>
    let inboundIds := db.inboundIdsOf rec.recordId
    let db := enableForReset env d db rec
    if inboundIds = [] then
      match reset.stamp with
      | some e => (db, .error e)
      | none => ({ db with traffics := resetStat db.traffics email }, .ok ())
    else resetInInbounds reset email 0 db inboundIds

end service

end Clients

end QuiPanel
