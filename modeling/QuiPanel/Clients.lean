import QuiPanel.Ports

namespace QuiPanel

namespace Clients

open Keyed Outcome List
open Ports (Protocol)

structure Client where
  id : String
  security : String
  password : String
  flow : String
  reverse : Option String
  auth : String
  email : String
  limitIP : Int
  totalGB : Int
  expiryTime : Int
  enable : Bool
  tgID : Int
  subID : String
  group : String
  comment : String
  reset : Int
  createdAt : Int
  updatedAt : Int
  deriving DecidableEq

structure ClientRecord extends Client where
  recordId : Int
  ownerId : Int
  tenantId : Int
  deriving DecidableEq

structure Inbound where
  id : Int
  protocol : Protocol
  nodeId : Option Int
  method : String
  tlsFlowCapable : Bool
  clients : Option (List Client)

structure ClientInbound where
  clientId : Int
  inboundId : Int
  flowOverride : String
  deriving DecidableEq

structure ClientTraffic where
  inboundId : Int
  email : String
  up : Int
  down : Int
  total : Int
  expiryTime : Int
  enable : Bool
  reset : Int
  deriving DecidableEq

structure DB where
  inbounds : Table Inbound Inbound.id
  records : Table ClientRecord ClientRecord.recordId
  links : List ClientInbound
  traffics : List ClientTraffic

abbrev Token := { s : String // s ≠ "" ∧ s.toList.all fun c => c.isAlphanum || c == '-' }

structure Attempt where
  now : Int
  uuid : Token
  secret : Token
  shadowsocksKey : String → { s : String // s ≠ "" }
  subID : Token
  read : Option String
  plan : Except String Bool
  write : Option String

structure Env where
  validShadowsocksClientKey : String → String → Bool
  visionFlow : String
  addDate : Int → Int → Int

namespace DB

variable (db : DB)

def record (email : String) : Option ClientRecord := db.records.rows.find? (·.email = email)

def recorded (email : String) : Bool := db.records.rows.any (·.email == email)

def inboundIdsOf (clientId : Int) : List Int :=
  ((db.links.filter (·.clientId == clientId)).map (·.inboundId)).insertionSort (· ≤ ·)

def clientsOf (inboundId : Int) : Option (List Client) :=
  (db.inbounds.find inboundId).bind (·.clients)

def settingsClients (inboundId : Int) : List Client := (db.clientsOf inboundId).getD []

def entries (inboundId : Int) (email : String) : List Client :=
  (db.settingsClients inboundId).filter (·.email == email)

end DB

section sync

def named (clients : List Client) : List Client := clients.filter (Text.trimSpace ·.email != "")

def mergeRecord (incoming : Client) (row : ClientRecord) : ClientRecord :=
  { row with
    id := if incoming.id ≠ "" then incoming.id else row.id
    password := if incoming.password ≠ "" then incoming.password else row.password
    auth := if incoming.auth ≠ "" then incoming.auth else row.auth
    flow := incoming.flow
    security := if incoming.security ≠ "" then incoming.security else row.security
    reverse := incoming.reverse.or row.reverse
    subID := incoming.subID
    limitIP := incoming.limitIP
    totalGB := incoming.totalGB
    expiryTime := incoming.expiryTime
    enable := incoming.enable
    tgID := incoming.tgID
    group := if incoming.group ≠ "" then incoming.group else row.group
    comment := incoming.comment
    reset := incoming.reset
    createdAt :=
      if 0 < incoming.createdAt ∧ (row.createdAt = 0 ∨ incoming.createdAt < row.createdAt) then
        incoming.createdAt
      else row.createdAt
    updatedAt := max incoming.updatedAt row.updatedAt }

theorem mergeRecord_recordId (incoming : Client) (row : ClientRecord) :
    (mergeRecord incoming row).recordId = row.recordId :=
  rfl

abbrev Records := Table ClientRecord ClientRecord.recordId

def mergeRecords (records : Records) (clients : List Client) : Records :=
  clients.foldl (fun t c =>
    t.modify (fun r => r.email == Text.trimSpace c.email) (mergeRecord c)
      (mergeRecord_recordId c)) records

def firstByEmail : List Client → List String → List Client
  | [], _ => []
  | c :: cs, seen =>
    let email := Text.trimSpace c.email
    if seen.contains email then firstByEmail cs seen else c :: firstByEmail cs (email :: seen)

def toCreate (records : Records) (clients : List Client) : List Client :=
  firstByEmail (clients.filter fun c => !records.rows.any (·.email == Text.trimSpace c.email)) []

def createRecord (records : Records) (c : Client) : Except String Records := do
  check (!records.rows.any (·.email == c.email)) "UNIQUE constraint failed: clients.email"
  return records.insert (fun recordId => { c with recordId, ownerId := 0, tenantId := 0 }) fun _ => rfl

def linkClients (records : Records) (inboundId : Int) : List Client → List Int → List ClientInbound
  | [], _ => []
  | c :: cs, linked =>
    match records.rows.find? (·.email = Text.trimSpace c.email) with
    | none => linkClients records inboundId cs linked
    | some r =>
      if linked.contains r.recordId then linkClients records inboundId cs linked
      else ⟨r.recordId, inboundId, c.flow⟩ :: linkClients records inboundId cs (r.recordId :: linked)

def syncInbound (db : DB) (inboundId : Int) (clients : List Client) : Except String DB := do
  let clients := named clients
  let merged := mergeRecords db.records clients
  let records ← (toCreate db.records clients).foldlM createRecord merged
  return { db with
    records
    links := db.links.filter (·.inboundId != inboundId) ++ linkClients records inboundId clients [] }

end sync

section add

variable (env : Env) (o : Attempt)

def allClients (db : DB) : List Client := db.inbounds.rows.flatMap fun ib => ib.clients.getD []

def noteSubID (result : List (String × String)) (c : Client) : List (String × String) :=
  let email := Text.toLower c.email
  if email = "" then result
  else if result.any (·.1 == email) then
    result.map fun r => if r.1 = email ∧ r.2 ≠ c.subID then (r.1, "") else r
  else result ++ [(email, c.subID)]

def emailSubIDs (db : DB) : List (String × String) := (allClients db).foldl noteSubID []

def checkEmailsExist (db : DB) : List Client → List (String × String) → Option String
  | [], _ => none
  | client :: clients, seen =>
    let key := Text.toLower client.email
    if client.email = "" then checkEmailsExist db clients seen
    else match seen.find? (·.1 = key) with
      | some (_, prev) =>
        if prev ≠ client.subID ∨ client.subID = "" then some client.email
        else checkEmailsExist db clients seen
      | none =>
        match (emailSubIDs db).find? (·.1 = key) with
        | some (_, existingSub) =>
          if client.subID = "" ∨ existingSub = "" ∨ existingSub ≠ client.subID then some client.email
          else checkEmailsExist db clients ((key, client.subID) :: seen)
        | none => checkEmailsExist db clients ((key, client.subID) :: seen)

def credential (protocol : Protocol) (client : Client) : String :=
  match protocol with
  | .trojan => client.password
  | .shadowsocks => client.email
  | .hysteria => client.auth
  | _ => client.id

def checkCredentials (protocol : Protocol) : List Client → Except String Unit
  | [] => .ok ()
  | client :: clients => do
    check (Text.trimSpace client.email != "") "client email is required\n"
    check (credential protocol client != "") "empty client ID\n"
    checkCredentials protocol clients

def compactOrphans (db : DB) (clients : List Client) : List Client :=
  clients.filter fun c => c.email == "" || db.recorded c.email

def stampEntry (client : Client) : Client :=
  { client with
    createdAt := if client.createdAt = 0 then o.now else client.createdAt
    updatedAt := o.now
    subID := if Text.trimSpace client.subID = "" then o.subID else client.subID }

def addClientStat (inboundId : Int) (traffics : List ClientTraffic) (client : Client) :
    List ClientTraffic :=
  if traffics.any (·.email == client.email) then traffics
  else traffics ++
    [⟨inboundId, client.email, 0, 0, client.totalGB, client.expiryTime, client.enable, client.reset⟩]

def saveClients (db : DB) (inboundId : Int) (clients : List Client) : DB :=
  { db with
    inbounds := db.inbounds.modify (·.id == inboundId) (fun ib => { ib with clients := some clients })
      fun _ => rfl }

def addInboundClient (db : DB) (inboundId : Int) (clients : List Client) : Except String DB := do
  let existEmail := checkEmailsExist db clients []
  check existEmail.isNone ("Duplicate email: " ++ existEmail.getD "" ++ "\n")
  let oldInbound ← orErr (db.inbounds.find inboundId) "record not found"
  checkCredentials oldInbound.protocol clients
  let oldClients ← orErr oldInbound.clients "interface conversion: interface {} is nil, not []interface {}"
  let newClients := compactOrphans db oldClients ++ clients.map (stampEntry o)
  let push ← o.plan
  let traffics :=
    if oldInbound.nodeId.isSome ∨ push then clients.foldl (addClientStat inboundId) db.traffics
    else db.traffics
  check o.write.isNone (o.write.getD "")
  syncInbound (saveClients { db with traffics } inboundId newClients) inboundId newClients

def fillProtocolDefaults (c : Client) (ib : Inbound) : Client :=
  match ib.protocol with
  | .vmess | .vless => if c.id = "" then { c with id := o.uuid } else c
  | .trojan => if c.password = "" then { c with password := o.secret } else c
  | .shadowsocks =>
    if c.password = "" ∨ !env.validShadowsocksClientKey ib.method c.password then
      { c with password := o.shadowsocksKey ib.method }
    else c
  | .hysteria => if c.auth = "" then { c with auth := o.secret } else c
  | _ => c

def clientWithInboundFlow (c : Client) (ib : Inbound) : Client :=
  if ib.tlsFlowCapable then c else { c with flow := "" }

def addTo (db : DB) (client : Client) (inboundId : Int) : Except String (DB × Client) := do
  check o.read.isNone (o.read.getD "")
  let inbound ← orErr (db.inbounds.find inboundId) "record not found"
  let client := fillProtocolDefaults env o client inbound
  let db ← addInboundClient o db inboundId [clientWithInboundFlow client inbound]
  return (db, client)

end add

section emailSubIDs

variable {db : DB} {client c : Client} {result : List (String × String)} {key sub : String}

def subIDOf (result : List (String × String)) (key : String) : Option String :=
  (result.find? (·.1 = key)).map (·.2)

attribute [local grind =] mergeRecords firstByEmail syncInbound saveClients addInboundClient checkCredentials

theorem subIDOf_cons (k v : String) :
    subIDOf ((k, v) :: result) key = if k = key then some v else subIDOf result key := by
  by_cases hk : k = key <;> simp [subIDOf, hk]

theorem subIDOf_append (k v : String) :
    subIDOf (result ++ [(k, v)]) key = (subIDOf result key).or (if k = key then some v else none) := by
  induction result with
  | nil =>
    rw [nil_append, subIDOf_cons]
    rfl
  | cons r result ih =>
    obtain ⟨l, w⟩ := r
    rw [cons_append, subIDOf_cons, subIDOf_cons, ih]
    split <;> rfl

theorem subIDOf_blank (email : String) :
    subIDOf (result.map fun r => if r.1 = email ∧ r.2 ≠ sub then (r.1, "") else r) key =
      (subIDOf result key).map fun v => if key = email ∧ v ≠ sub then "" else v := by
  induction result with
  | nil => rfl
  | cons r result ih =>
    obtain ⟨l, w⟩ := r
    rw [map_cons, subIDOf_cons]
    split
    · rw [subIDOf_cons]
      split
      case isTrue hl => simp_all
      case isFalse => exact ih
    · rw [subIDOf_cons]
      split
      case isTrue hl => simp_all
      case isFalse => exact ih

theorem subIDOf_none : subIDOf result key = none ↔ result.any (·.1 == key) = false := by
  simp [subIDOf]

def Agrees (result : List (String × String)) (key sub : String) : Prop :=
  ∀ v, subIDOf result key = some v → v = sub

theorem agrees_noteSubID (hkey : key ≠ "") (hsub : sub ≠ "") :
    Agrees (noteSubID result c) key sub ↔
      Agrees result key sub ∧ (Text.toLower c.email = key → c.subID = sub) := by
  simp only [noteSubID]
  split
  case isTrue hblank =>
    have hne : Text.toLower c.email ≠ key := fun he => hkey (he.symm.trans hblank)
    simp [hne]
  case isFalse =>
    split
    case isTrue hany =>
      simp only [Agrees, subIDOf_blank]
      by_cases hc : Text.toLower c.email = key
      · cases hv : subIDOf result key with
        | none =>
          rw [subIDOf_none, ← hc, hany] at hv
          cases hv
        | some v =>
          by_cases hvs : v = c.subID
          · simp [hc, hvs]
          · have hsub' : "" ≠ sub := hsub.symm
            simp only [Option.map_some, hc, hvs, ne_eq, not_false_eq_true, and_self, if_true,
              Option.some.injEq, forall_eq', hsub', forall_const, false_iff, not_and]
            intro hv' he
            exact hvs (hv'.trans he.symm)
      · have hc' : key ≠ Text.toLower c.email := fun he => hc he.symm
        simp [hc, hc']
    case isFalse hany =>
      simp only [Agrees, subIDOf_append]
      by_cases hc : Text.toLower c.email = key
      · have hnone : subIDOf result key = none := by
          rw [subIDOf_none, ← hc]
          exact eq_false_of_ne_true hany
        simp [hc, hnone]
      · cases hv : subIDOf result key <;> simp [hc]

theorem agrees_emailSubIDs (hkey : key ≠ "") (hsub : sub ≠ "") :
    Agrees (emailSubIDs db) key sub ↔
      ∀ c ∈ allClients db, Text.toLower c.email = key → c.subID = sub := by
  have hfold : ∀ (cs : List Client) result, Agrees (cs.foldl noteSubID result) key sub ↔
      Agrees result key sub ∧ ∀ c ∈ cs, Text.toLower c.email = key → c.subID = sub := by
    intro cs
    induction cs with
    | nil => simp
    | cons c cs ih =>
      intro result
      rw [foldl_cons, ih, agrees_noteSubID hkey hsub, and_assoc, forall_mem_cons]
  rw [emailSubIDs, hfold]
  simp [Agrees, subIDOf]

theorem toLower_ne (hne : client.email ≠ "") : Text.toLower client.email ≠ "" :=
  fun h => hne (Text.toLower_eq_empty h)

theorem checkEmailsExist_single (hne : client.email ≠ "") (hsub : client.subID ≠ "") :
    checkEmailsExist db [client] [] = none ↔
      ∀ c ∈ allClients db, Text.toLower c.email = Text.toLower client.email →
        c.subID = client.subID := by
  rw [← agrees_emailSubIDs (toLower_ne hne) hsub]
  simp only [checkEmailsExist, hne, if_false, find?_nil, Agrees, subIDOf]
  cases h : (emailSubIDs db).find? (·.1 = Text.toLower client.email) with
  | none => simp
  | some r =>
    obtain ⟨k, v⟩ := r
    simp only [hsub, false_or, Option.map_some, Option.some.injEq, forall_eq']
    by_cases hv : v = client.subID
    · simp [hv, hsub]
    · simp [hv]

end emailSubIDs

section records

variable {db db' : DB} {t t' : Records} {c : Client} {cs : List Client} {m : String}

def emails (t : Records) : List String := t.rows.map (·.email)

theorem recorded_iff : db.recorded m = true ↔ m ∈ emails db.records := by
  simp [DB.recorded, emails]

theorem mergeRecords_emails (t : Records) (cs : List Client) : emails (mergeRecords t cs) = emails t := by
  induction cs generalizing t with
  | nil => rfl
  | cons c cs ih =>
    rw [mergeRecords, foldl_cons]
    refine (ih _).trans ?_
    rw [emails, emails, Table.rows_modify, map_map]
    apply map_congr_left
    intro r _
    simp only [Function.comp_apply]
    split <;> rfl

theorem createRecord_ok : createRecord t c = .ok t' ↔
    c.email ∉ emails t ∧
      t' = t.insert (fun recordId => { c with recordId, ownerId := 0, tenantId := 0 }) fun _ => rfl := by
  simp only [createRecord, bind_ok, check_ok, emails]
  constructor
  · rintro ⟨_, hfresh, h⟩
    cases h
    refine ⟨?_, rfl⟩
    simpa using hfresh
  · rintro ⟨hfresh, rfl⟩
    refine ⟨(), ?_, rfl⟩
    simpa using hfresh

theorem createRecords_emails (h : cs.foldlM createRecord t = .ok t') :
    emails t' = emails t ++ cs.map (·.email) := by
  induction cs generalizing t with
  | nil =>
    cases h
    simp
  | cons c cs ih =>
    rw [foldlM_cons, bind_ok] at h
    obtain ⟨mid, hc, hrest⟩ := h
    obtain ⟨-, rfl⟩ := createRecord_ok.mp hc
    rw [ih hrest]
    simp [emails, Table.rows_insert]

theorem createRecords_fresh (h : cs.foldlM createRecord t = .ok t') (hc : c ∈ cs) :
    c.email ∉ emails t := by
  induction cs generalizing t with
  | nil => cases hc
  | cons c' cs ih =>
    rw [foldlM_cons, bind_ok] at h
    obtain ⟨mid, hcreate, hrest⟩ := h
    obtain ⟨hfresh, rfl⟩ := createRecord_ok.mp hcreate
    rcases mem_cons.mp hc with rfl | hc
    · exact hfresh
    · intro hin
      apply ih hrest hc
      rw [emails, Table.rows_insert, map_append]
      exact mem_append_left _ hin

theorem firstByEmail_subset {seen : List String} (h : c ∈ firstByEmail cs seen) : c ∈ cs := by
  induction cs generalizing seen with
  | nil => cases h
  | cons c' cs ih =>
    simp only [firstByEmail] at h
    split at h
    · exact mem_cons_of_mem _ (ih h)
    · rcases mem_cons.mp h with rfl | h
      · exact mem_cons_self
      · exact mem_cons_of_mem _ (ih h)

theorem firstByEmail_covers {seen : List String} (rest : List Client) (hc : c ∈ cs)
    (hseen : Text.trimSpace c.email ∉ seen) : ∃ c' ∈ cs, c' ∈ firstByEmail (cs ++ rest) seen := by
  induction cs generalizing seen with
  | nil => cases hc
  | cons c' cs ih =>
    simp only [cons_append, firstByEmail]
    split
    case isTrue hin =>
      rcases mem_cons.mp hc with rfl | hc
      · exact absurd (by simpa using hin) hseen
      · obtain ⟨c'', hc'', hfirst⟩ := ih hc hseen
        exact ⟨c'', mem_cons_of_mem _ hc'', hfirst⟩
    case isFalse => exact ⟨c', mem_cons_self, mem_cons_self⟩

variable {kept : List Client} {inboundId : Int} {entry : Client}

theorem syncInbound_ok (h : syncInbound db inboundId cs = .ok db') :
    db'.inbounds = db.inbounds ∧ db'.traffics = db.traffics ∧
      emails db'.records = emails db.records ++ (toCreate db.records (named cs)).map (·.email) := by
  simp only [syncInbound, bind_ok] at h
  obtain ⟨records, hcreate, h⟩ := h
  cases h
  refine ⟨rfl, rfl, ?_⟩
  rw [createRecords_emails hcreate, mergeRecords_emails]

theorem toCreate_kept
    (hkept : ∀ c ∈ kept, Text.trimSpace c.email = "" ∨ Text.trimSpace c.email ∈ emails t)
    (htrim : Text.trimSpace entry.email = entry.email) (hne : entry.email ≠ "") :
    toCreate t (named (kept ++ [entry])) = if entry.email ∈ emails t then [] else [entry] := by
  have hnone : (named kept).filter (fun c => !t.rows.any (·.email == Text.trimSpace c.email)) = [] := by
    rw [filter_eq_nil_iff]
    intro c hc
    obtain ⟨hmem, hnamed⟩ := mem_filter.mp hc
    rcases hkept c hmem with hblank | hrec
    · exact absurd hblank (by simpa using hnamed)
    · simpa [emails] using hrec
  have hnamed : named [entry] = [entry] := by simp [named, htrim, hne]
  have happend : named (kept ++ [entry]) = named kept ++ named [entry] :=
    filter_append ..
  rw [toCreate, happend, filter_append, hnone, hnamed, nil_append]
  split
  case isTrue hrec =>
    have hany : t.rows.any (·.email == Text.trimSpace entry.email) = true := by
      rw [htrim]
      simpa [emails] using hrec
    simp [hany, firstByEmail]
  case isFalse hrec =>
    have hany : t.rows.any (·.email == Text.trimSpace entry.email) = false := by
      rw [htrim]
      simpa [emails] using hrec
    simp [hany, firstByEmail]

theorem syncInbound_kept_iff
    (hkept : ∀ c ∈ kept, c.email = "" ∨ c.email ∈ emails db.records)
    (htrim : Text.trimSpace entry.email = entry.email) (hne : entry.email ≠ "") :
    (∃ db', syncInbound db inboundId (kept ++ [entry]) = .ok db') ↔
      ∀ c ∈ kept, Text.trimSpace c.email = "" ∨ Text.trimSpace c.email ∈ emails db.records := by
  constructor
  · rintro ⟨db', h⟩ c hc
    simp only [syncInbound, bind_ok] at h
    obtain ⟨records, hcreate, -⟩ := h
    by_contra hmissing
    obtain ⟨hnamed, hunrecorded⟩ := not_or.mp hmissing
    have hc' : c ∈ (named kept).filter
        fun c => !db.records.rows.any (·.email == Text.trimSpace c.email) := by
      rw [mem_filter, named, mem_filter]
      refine ⟨⟨hc, by simpa using hnamed⟩, ?_⟩
      simpa [emails] using hunrecorded
    obtain ⟨c', hc'', hfirst⟩ := firstByEmail_covers
      ((named [entry]).filter fun c => !db.records.rows.any (·.email == Text.trimSpace c.email))
      hc' not_mem_nil
    have hcreated : c' ∈ toCreate db.records (named (kept ++ [entry])) := by
      rw [toCreate, named, filter_append, filter_append]
      exact hfirst
    have hfresh := createRecords_fresh hcreate hcreated
    rw [mergeRecords_emails] at hfresh
    obtain ⟨hmem, hnamed'⟩ := mem_filter.mp (mem_filter.mp hc'').1
    rcases hkept c' hmem with hblank | hrec
    · rw [hblank] at hnamed'
      exact absurd hnamed' (by decide)
    · exact hfresh hrec
  · intro hall
    have hcreate := toCreate_kept hall htrim hne
    simp only [syncInbound, bind_ok]
    rw [hcreate]
    split
    · exact ⟨_, _, rfl, rfl⟩
    case isFalse hrec =>
      have hfresh : entry.email ∉ emails (mergeRecords db.records (named (kept ++ [entry]))) := by
        rw [mergeRecords_emails]
        exact hrec
      have hok := createRecord_ok.mpr ⟨hfresh, rfl⟩
      simp only [foldlM_cons, foldlM_nil, hok]
      exact ⟨_, _, rfl, rfl⟩

theorem syncInbound_kept_emails
    (hkept : ∀ c ∈ kept, c.email = "" ∨ c.email ∈ emails db.records)
    (htrim : Text.trimSpace entry.email = entry.email) (hne : entry.email ≠ "")
    (h : syncInbound db inboundId (kept ++ [entry]) = .ok db') :
    ∀ m, m ∈ emails db'.records ↔ m ∈ emails db.records ∨ m = entry.email := by
  intro m
  have hall := (syncInbound_kept_iff hkept htrim hne).mp ⟨db', h⟩
  obtain ⟨-, -, hemails⟩ := syncInbound_ok h
  rw [hemails, toCreate_kept hall htrim hne]
  split
  case isTrue hrec =>
    simp only [map_nil, append_nil]
    exact ⟨.inl, fun hm => hm.elim id fun he => he ▸ hrec⟩
  case isFalse => simp

end records

section addTo

variable {env : Env} {o : Attempt} {db db' : DB} {client client' c : Client} {i j : Int}

structure Fit (client : Client) : Prop where
  named : client.email ≠ ""
  trimmed : Text.trimSpace client.email = client.email
  subID : Text.trimSpace client.subID ≠ ""
  id : client.id ≠ ""
  password : client.password ≠ ""
  auth : client.auth ≠ ""

theorem Fit.subID_ne (h : Fit client) : client.subID ≠ "" := by
  intro he
  apply h.subID
  rw [he]
  decide

theorem fillProtocolDefaults_keeps (env : Env) (o : Attempt) (client : Client) (ib : Inbound) :
    (fillProtocolDefaults env o client ib).email = client.email ∧
      (fillProtocolDefaults env o client ib).subID = client.subID := by
  rw [fillProtocolDefaults]
  split <;> (try split) <;> exact ⟨rfl, rfl⟩

theorem Fit.fill (h : Fit client) (env : Env) (o : Attempt) (ib : Inbound) :
    Fit (fillProtocolDefaults env o client ib) := by
  obtain ⟨hemail, hsub⟩ := fillProtocolDefaults_keeps env o client ib
  constructor
  · rw [hemail]
    exact h.named
  · rw [hemail]
    exact h.trimmed
  · rw [hsub]
    exact h.subID
  · rw [fillProtocolDefaults]
    split <;> (try split) <;> first | exact h.id | exact o.uuid.2.1
  · rw [fillProtocolDefaults]
    split <;> (try split) <;> first
      | exact h.password
      | exact o.secret.2.1
      | exact (o.shadowsocksKey ib.method).2
  · rw [fillProtocolDefaults]
    split <;> (try split) <;> first | exact h.auth | exact o.secret.2.1

theorem clientWithInboundFlow_keeps (client : Client) (ib : Inbound) :
    (clientWithInboundFlow client ib).email = client.email ∧
      (clientWithInboundFlow client ib).subID = client.subID := by
  rw [clientWithInboundFlow]
  split <;> exact ⟨rfl, rfl⟩

theorem Fit.flow (h : Fit client) (ib : Inbound) : Fit (clientWithInboundFlow client ib) := by
  rw [clientWithInboundFlow]
  split
  · exact h
  · exact ⟨h.named, h.trimmed, h.subID, h.id, h.password, h.auth⟩

theorem Fit.credentials (h : Fit client) (ib : Inbound) :
    checkCredentials ib.protocol [client] = .ok () := by
  have hcredential : credential ib.protocol client ≠ "" := by
    cases ib.protocol <;> first | exact h.id | exact h.password | exact h.named | exact h.auth
  have hnamed : Text.trimSpace client.email ≠ "" := by
    rw [h.trimmed]
    exact h.named
  simp only [checkCredentials, bind_ok, check_ok, bne_iff_ne, ne_eq]
  exact ⟨(), hnamed, (), hcredential, trivial⟩

def unrivalled (db : DB) (client : Client) : Bool := (checkEmailsExist db [client] []).isNone

theorem unrivalled_iff (h : Fit client) : unrivalled db client = true ↔
    ∀ c ∈ allClients db, Text.toLower c.email = Text.toLower client.email → c.subID = client.subID := by
  rw [unrivalled, Option.isNone_iff_eq_none, checkEmailsExist_single h.named h.subID_ne]

theorem unrivalled_congr (hemail : client'.email = client.email) (hsub : client'.subID = client.subID) :
    unrivalled db client' = unrivalled db client := by
  simp only [unrivalled, checkEmailsExist, hemail, hsub]

theorem stampEntry_keeps (h : Fit client) (o : Attempt) :
    (stampEntry o client).email = client.email ∧ (stampEntry o client).subID = client.subID := by
  simp [stampEntry, h.subID]

def admits (db : DB) (known : List String) (o : Attempt) (i : Int) : Bool :=
  o.read.isNone && o.plan.isOk && o.write.isNone &&
    match db.clientsOf i with
    | none => false
    | some cs => cs.all fun c =>
        c.email == "" || !db.recorded c.email || Text.trimSpace c.email == "" ||
          known.contains (Text.trimSpace c.email)

theorem addTo_ok (hfit : Fit client) (h : addTo env o db client i = .ok (db', client')) :
    unrivalled db client = true ∧ o.read = none ∧ o.write = none ∧ o.plan.isOk ∧
      ∃ ib cs traffics entry, db.inbounds.find i = some ib ∧ ib.clients = some cs ∧
        client' = fillProtocolDefaults env o client ib ∧
        entry.email = client.email ∧ entry.subID = client.subID ∧
        syncInbound (saveClients { db with traffics } i (compactOrphans db cs ++ [entry])) i
          (compactOrphans db cs ++ [entry]) = .ok db' := by
  simp only [addTo, addInboundClient, bind_ok, orErr_ok, check_ok, map_singleton] at h
  obtain ⟨_, hread, ib, hib, mid, ⟨_, hrival, ib', hib', _, -, cs, hcs, push, hplan, _, hwrite, hsync⟩, h⟩ := h
  cases h
  cases hib.symm.trans hib'
  obtain ⟨hemail, hsub⟩ := fillProtocolDefaults_keeps env o client ib
  obtain ⟨hemail', hsub'⟩ := clientWithInboundFlow_keeps (fillProtocolDefaults env o client ib) ib
  obtain ⟨hemail'', hsub''⟩ := stampEntry_keeps ((hfit.fill env o ib).flow ib) o
  refine ⟨?_, by simpa using hread, by simpa using hwrite, by rw [hplan]; rfl, ib, cs, _, _, hib, hcs, rfl,
    hemail''.trans (hemail'.trans hemail), hsub''.trans (hsub'.trans hsub), hsync⟩
  rw [← unrivalled_congr (hemail'.trans hemail) (hsub'.trans hsub)]
  exact hrival

theorem compactOrphans_kept (cs : List Client) :
    ∀ c ∈ compactOrphans db cs, c.email = "" ∨ c.email ∈ emails db.records := by
  intro c hc
  have := (mem_filter.mp hc).2
  simpa [recorded_iff] using this

variable {cs : List Client}

theorem settled_kept {known : List String} :
    (∀ c ∈ compactOrphans db cs, Text.trimSpace c.email = "" ∨ Text.trimSpace c.email ∈ known) ↔
      ∀ c ∈ cs, c.email = "" ∨ c.email ∉ emails db.records ∨ Text.trimSpace c.email = "" ∨
        Text.trimSpace c.email ∈ known := by
  simp only [compactOrphans, mem_filter, Bool.or_eq_true, beq_iff_eq, recorded_iff, and_imp]
  constructor
  · intro h c hc
    by_cases hblank : c.email = ""
    · exact .inl hblank
    · by_cases hrec : c.email ∈ emails db.records
      · exact .inr (.inr (h c hc (.inr hrec)))
      · exact .inr (.inl hrec)
  · intro h c hc hkept
    rcases h c hc with hblank | hunrecorded | hsettled
    · rw [hblank]
      exact .inl (by decide)
    · rcases hkept with hblank | hrec
      · rw [hblank]
        exact .inl (by decide)
      · exact absurd hrec hunrecorded
    · exact hsettled

theorem admits_iff {known : List String} : admits db known o i = true ↔
    o.read = none ∧ o.plan.isOk = true ∧ o.write = none ∧ (db.clientsOf i).isSome = true ∧
      ∀ c ∈ db.settingsClients i, c.email = "" ∨ c.email ∉ emails db.records ∨
        Text.trimSpace c.email = "" ∨ Text.trimSpace c.email ∈ known := by
  simp only [admits, DB.settingsClients, Bool.and_eq_true, Option.isNone_iff_eq_none, and_assoc]
  refine and_congr_right fun _ => and_congr_right fun _ => and_congr_right fun _ => ?_
  cases db.clientsOf i with
  | none => simp
  | some cs =>
    simp only [all_eq_true, Bool.or_eq_true, beq_iff_eq, Bool.not_eq_true', ← recorded_iff,
      Bool.not_eq_true, contains_iff_mem, Option.isSome_some, Option.getD_some, true_and, or_assoc]

theorem addTo_isOk (hfit : Fit client) :
    (∃ next, addTo env o db client i = .ok next) ↔
      unrivalled db client = true ∧ admits db (emails db.records) o i = true := by
  constructor
  · rintro ⟨⟨db', client'⟩, h⟩
    obtain ⟨hrival, hread, hwrite, hplan, ib, cs, traffics, entry, hib, hcs, -, hemail, -, hsync⟩ :=
      addTo_ok hfit h
    have hof : db.clientsOf i = some cs := by rw [DB.clientsOf, hib, Option.bind_some, hcs]
    have hat : db.settingsClients i = cs := by rw [DB.settingsClients, hof, Option.getD_some]
    refine ⟨hrival, admits_iff.mpr ⟨hread, hplan, hwrite, by rw [hof]; rfl, ?_⟩⟩
    rw [hat, ← settled_kept]
    have htrim : Text.trimSpace entry.email = entry.email := by rw [hemail, hfit.trimmed]
    have hne : entry.email ≠ "" := by rw [hemail]; exact hfit.named
    have hkept : ∀ c ∈ compactOrphans db cs, c.email = "" ∨ c.email ∈ emails
        (saveClients { db with traffics } i (compactOrphans db cs ++ [entry])).records :=
      compactOrphans_kept cs
    exact (syncInbound_kept_iff hkept htrim hne).mp ⟨db', hsync⟩
  · rintro ⟨hrival, hadmits⟩
    obtain ⟨hread, hplan, hwrite, hsome, hsettled⟩ := admits_iff.mp hadmits
    obtain ⟨cs, hof⟩ := Option.isSome_iff_exists.mp hsome
    obtain ⟨ib, hib, hcs⟩ := Option.bind_eq_some_iff.mp hof
    rw [DB.settingsClients, hof, Option.getD_some, ← settled_kept] at hsettled
    have hplan' : ∃ push, o.plan = .ok push := by
      cases hp : o.plan with
      | error e =>
        rw [hp] at hplan
        cases hplan
      | ok push => exact ⟨push, rfl⟩
    obtain ⟨push, hpush⟩ := hplan'
    have hfit' := (hfit.fill env o ib).flow ib
    obtain ⟨hemail, hsub⟩ := fillProtocolDefaults_keeps env o client ib
    obtain ⟨hemail', hsub'⟩ := clientWithInboundFlow_keeps (fillProtocolDefaults env o client ib) ib
    obtain ⟨hemail'', -⟩ := stampEntry_keeps hfit' o
    have htrim := hfit'.trimmed
    have hne := hfit'.named
    rw [← hemail''] at htrim hne
    have hrival' := (unrivalled_congr (hemail'.trans hemail) (hsub'.trans hsub)).trans hrival
    have hsync : ∀ traffics entry, entry = stampEntry o
        (clientWithInboundFlow (fillProtocolDefaults env o client ib) ib) →
        ∃ db', syncInbound (saveClients { db with traffics } i (compactOrphans db cs ++ [entry])) i
          (compactOrphans db cs ++ [entry]) = .ok db' := by
      rintro traffics entry rfl
      have hkept : ∀ c ∈ compactOrphans db cs, c.email = "" ∨ c.email ∈ emails
          (saveClients { db with traffics } i (compactOrphans db cs ++ [stampEntry o
            (clientWithInboundFlow (fillProtocolDefaults env o client ib) ib)])).records :=
        compactOrphans_kept cs
      exact (syncInbound_kept_iff hkept htrim hne).mpr hsettled
    obtain ⟨db', hdb'⟩ := hsync _ _ rfl
    simp only [addTo, addInboundClient, bind_ok, orErr_ok, check_ok, map_singleton, hread, hwrite,
      hib, hpush]
    exact ⟨(db', _), (), rfl, ib, rfl, db', ⟨(), hrival', ib, rfl, (), hfit'.credentials ib, cs, hcs, push, rfl,
      (), rfl, hdb'⟩, rfl⟩

theorem clientsOf_saveClients :
    (saveClients db i cs).clientsOf j =
      if j = i then (db.inbounds.find i).map fun _ => cs else db.clientsOf j := by
  simp only [DB.clientsOf, saveClients, Table.find_modify]
  cases hfind : db.inbounds.find j with
  | none =>
    split
    case isTrue he => simp [← he, hfind]
    case isFalse => rfl
  | some ib =>
    have hid := (Table.mem_of_find hfind).2
    simp only [Option.map_some, Option.bind_some, hid, beq_iff_eq]
    split
    case isTrue he => simp [← he, hfind]
    case isFalse => rfl

theorem settingsClients_find {ib : Inbound} (h : db.inbounds.find i = some ib) :
    db.settingsClients i = ib.clients.getD [] := by
  rw [DB.settingsClients, DB.clientsOf, h, Option.bind_some]

theorem settingsClients_listed {ib : Inbound} (h : db.inbounds.find i = some ib)
    (hcs : ib.clients = some cs) : db.settingsClients i = cs := by
  rw [settingsClients_find h, hcs, Option.getD_some]

theorem settingsClients_saved (h : (db.inbounds.find i).isSome) (j : Int) :
    (saveClients db i cs).settingsClients j = if j = i then cs else db.settingsClients j := by
  obtain ⟨ib, hib⟩ := Option.isSome_iff_exists.mp h
  rw [DB.settingsClients, clientsOf_saveClients, hib]
  split
  · rfl
  · rfl

theorem mem_allClients : c ∈ allClients db ↔ ∃ i, c ∈ db.settingsClients i := by
  simp only [allClients, mem_flatMap, DB.settingsClients, DB.clientsOf]
  constructor
  · rintro ⟨ib, hib, hc⟩
    refine ⟨ib.id, ?_⟩
    rw [Table.find_of_mem hib]
    exact hc
  · rintro ⟨i, hc⟩
    cases hfind : db.inbounds.find i with
    | none =>
      rw [hfind] at hc
      cases hc
    | some ib =>
      rw [hfind] at hc
      exact ⟨ib, (Table.mem_of_find hfind).1, hc⟩

structure Added (i : Int) (client : Client) (db db' : DB) (client' : Client) : Prop where
  fit : Fit client'
  email : client'.email = client.email
  subID : client'.subID = client.subID
  emails : ∀ m, m ∈ emails db'.records ↔ m ∈ emails db.records ∨ m = client.email
  settings : ∃ cs entry, db.clientsOf i = some cs ∧ entry.email = client.email ∧
    entry.subID = client.subID ∧
    ∀ j, db'.clientsOf j = if j = i then some (compactOrphans db cs ++ [entry]) else db.clientsOf j

theorem addTo_added (hfit : Fit client) (h : addTo env o db client i = .ok (db', client')) :
    Added i client db db' client' := by
  obtain ⟨-, -, -, -, ib, cs, traffics, entry, hib, hcs, rfl, hemail, hsub, hsync⟩ := addTo_ok hfit h
  obtain ⟨hemail', hsub'⟩ := fillProtocolDefaults_keeps env o client ib
  have htrim : Text.trimSpace entry.email = entry.email := by rw [hemail, hfit.trimmed]
  have hne : entry.email ≠ "" := by rw [hemail]; exact hfit.named
  have hkept : ∀ c ∈ compactOrphans db cs, c.email = "" ∨ c.email ∈ Clients.emails
      (saveClients { db with traffics } i (compactOrphans db cs ++ [entry])).records :=
    compactOrphans_kept cs
  refine ⟨hfit.fill env o ib, hemail', hsub', ?_, cs, entry, by simp [DB.clientsOf, hib, hcs], hemail, hsub, ?_⟩
  · intro m
    rw [syncInbound_kept_emails hkept htrim hne hsync m, hemail]
    rfl
  · intro j
    obtain ⟨hinbounds, -, -⟩ := syncInbound_ok hsync
    have hsaved : db'.clientsOf j =
        (saveClients { db with traffics } i (compactOrphans db cs ++ [entry])).clientsOf j := by
      rw [DB.clientsOf, DB.clientsOf, hinbounds]
    rw [hsaved, clientsOf_saveClients]
    simp only [hib, Option.map_some]
    rfl

end addTo

end Clients

end QuiPanel
