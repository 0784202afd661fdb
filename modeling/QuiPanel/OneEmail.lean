import QuiPanel.RuntimePush
import QuiPanel.Library.Fresh
import QuiPanel.Library.Trace

namespace QuiPanel

namespace OneEmail

open Keyed Outcome Trace Clients List
open Ports (Protocol)

inductive Dialect
  | sqlite
  | postgres
  deriving DecidableEq

def quote : Char := Char.ofNat 34

def trimQuotes (s : String) : String :=
  String.ofList ((s.toList.dropWhile (· = quote)).rdropWhile (· = quote))

def jsonFieldText : Dialect → String → String
  | .sqlite, s => trimQuotes s
  | .postgres, s => s

def readClient (dialect : Dialect) (c : Client) : Client :=
  { c with email := jsonFieldText dialect c.email, subID := jsonFieldText dialect c.subID }

def readAs (dialect : Dialect) (db : DB) : DB :=
  { db with
    inbounds := db.inbounds.map
      (fun ib => { ib with clients := ib.clients.map (List.map (readClient dialect)) }) fun _ => rfl }

section inbounds

structure SaveDraws where
  refusal : Option String
  createdAt : Client → Int
  updatedAt : Client → Int

structure InboundRequest where
  protocol : Protocol
  nodeId : Option Int
  method : String
  tlsFlowCapable : Bool
  clients : Option (List Client)
  stats : List ClientTraffic

variable (dialect : Dialect) (o : SaveDraws) (db : DB)

def stampTimes (c : Client) : Client := { c with createdAt := o.createdAt c, updatedAt := o.updatedAt c }

def addInbound (req : InboundRequest) : Except String DB := do
  check o.refusal.isNone (o.refusal.getD "")
  let clients := req.clients.getD []
  let existEmail := checkEmailsExist (readAs dialect db) clients []
  check existEmail.isNone ("Duplicate email: " ++ existEmail.getD "" ++ "\n")
  check (clients.all fun c => credential req.protocol c != "") "empty client ID\n"
  let id := db.inbounds.next
  let stored := req.clients.map (List.map (stampTimes o))
  let inbounds := db.inbounds.insert
    (fun id => ⟨id, req.protocol, req.nodeId, req.method, req.tlsFlowCapable, stored⟩) fun _ => rfl
  let imported := req.stats.foldl (RuntimePush.importStat id) db.traffics
  syncInbound { db with inbounds, traffics := clients.foldl (addClientStat id) imported } id clients

def dropStat (id : Int) (kept : List String) (traffics : List ClientTraffic) (c : Client) :
    List ClientTraffic :=
  if c.email = "" ∨ c.email ∈ kept ∨ emailUsedByOtherInbounds (readAs dialect db) c.email id then traffics
  else delClientStat traffics c.email

def updateClientTraffics (id : Int) (oldClients newClients : List Client) : List ClientTraffic :=
  let dropped := oldClients.foldl (dropStat dialect db id (newClients.map (·.email))) db.traffics
  newClients.foldl (RuntimePush.putStat id (oldClients.map (·.email))) dropped

def updateInbound (id : Int) (req : InboundRequest) : Except String DB := do
  check o.refusal.isNone (o.refusal.getD "")
  let old ← orErr (db.inbounds.find id) errNotFound
  let traffics := updateClientTraffics dialect db id (old.clients.getD []) (req.clients.getD [])
  let stored := req.clients.map (List.map (stampTimes o))
  let inbounds := db.inbounds.modify (·.id == id)
    (fun ib => ⟨ib.id, req.protocol, ib.nodeId, req.method, req.tlsFlowCapable, stored⟩) fun _ => rfl
  syncInbound { db with inbounds, traffics } id (stored.getD [])

end inbounds

section clients

variable (env : Env) (dialect : Dialect) (o : Attempt) (d : Draws) (db : DB)

def addInboundClient (subIDs : Nat → Token) (inboundId : Int) (clients : List Client) : Except String DB := do
  let existEmail := checkEmailsExist (readAs dialect db) clients []
  check existEmail.isNone ("Duplicate email: " ++ existEmail.getD "" ++ "\n")
  let oldInbound ← orErr (db.inbounds.find inboundId) errNotFound
  checkCredentials oldInbound.protocol clients
  let oldClients ← orErr oldInbound.clients "interface conversion: interface {} is nil, not []interface {}"
  let stamped := clients.mapIdx fun k c => stampEntry { o with subID := subIDs k } c
  let newClients := compactOrphans db oldClients ++ stamped
  let push ← o.plan
  let traffics :=
    if oldInbound.nodeId.isSome ∨ push then clients.foldl (addClientStat inboundId) db.traffics
    else db.traffics
  check o.write.isNone (o.write.getD "")
  syncInbound (saveClients { db with traffics } inboundId newClients) inboundId newClients

def updateInboundClient (inboundId : Int) (client : Client) (oldEmail : String) : Except String DB := do
  check o.read.isNone (o.read.getD "")
  let oldInbound ← orErr (db.inbounds.find inboundId) errNotFound
  let oldClients := oldInbound.clients.getD []
  let index := oldClients.findIdx fun c => Text.equalFold c.email oldEmail
  let located := if credential oldInbound.protocol client = "" then none else oldClients[index]?
  let oldClient ← orErr located "empty client ID\n"
  check (Text.trimSpace client.email != "") "client email is required\n"
  let existEmail :=
    if client.email = oldClient.email then none else checkEmailsExist (readAs dialect db) [client] []
  check existEmail.isNone ("Duplicate email: " ++ existEmail.getD "" ++ "\n")
  let clients := oldClients.set index (restampEntry o oldClient client)
  let traffics ← moveStat (readAs dialect db) inboundId oldClient.email client
  let _ ← o.plan
  check o.write.isNone (o.write.getD "")
  syncInbound (saveClients { db with traffics } inboundId clients) inboundId clients

def addTo (client : Client) (inboundId : Int) : Except String (DB × Client) := do
  check o.read.isNone (o.read.getD "")
  let inbound ← orErr (db.inbounds.find inboundId) errNotFound
  let client := fillProtocolDefaults env o client inbound
  let db ← addInboundClient dialect o db (fun _ => o.subID) inboundId [clientWithInboundFlow client inbound]
  return (db, client)

def addToInbounds : Nat → DB → Client → List Int → DB × Except String Client
  | _, db, client, [] => (db, .ok client)
  | k, db, client, ibId :: ids =>
    match addTo env dialect (d.attempts k) db client ibId with
    | .error e => (db, .error e)
    | .ok (db, client) => addToInbounds (k + 1) db client ids

def create (payload : ClientCreatePayload) : DB × Except String Unit :=
  match prepare d db payload with
  | .error e => (db, .error e)
  | .ok client =>
    match addToInbounds env dialect d 0 db client payload.inboundIds with
    | (db, .error e) => (db, .error e)
    | (db, .ok _) =>
      match d.stamp with
      | some e => (db, .error e)
      | none => (stampOwner db client.email payload, .ok ())

def attachToInbounds (attached : List Int) (wire : Client) : Nat → DB → List Int → DB × Except String Unit
  | _, db, [] => (db, .ok ())
  | k, db, ibId :: ids =>
    if attached.contains ibId then attachToInbounds attached wire (k + 1) db ids
    else
      match addTo env dialect (d.attempts k) db wire ibId with
      | .error e => (db, .error e)
      | .ok (db, _) => attachToInbounds attached wire (k + 1) db ids

def attach (id : Int) (inboundIds : List Int) : DB × Except String Unit :=
  match db.records.find id with
  | none => (db, .error errNotFound)
  | some existing =>
    let wire := { existing.toClient with flow := db.effectiveFlow id, updatedAt := d.now }
    attachToInbounds env dialect d (db.inboundIdsOf id) wire 0 db inboundIds

end clients

section copies

structure CopyDraws where
  refusal : Option String
  now : Int
  uuid : Nat → Token
  randomCredential : Nat → Token
  writeBack : Nat → Attempt
  add : Attempt
  subIDs : Nat → Token

variable (dialect : Dialect) (d : CopyDraws)

def candidate (base : String) (suffix : Nat) : String := Fresh.numberedBy "_" base suffix

def nextAvailable (occupied : List String) (base : String) : Nat → Nat → String
  | 0, suffix => candidate base suffix
  | fuel + 1, suffix =>
    if Text.toLower (candidate base suffix) ∈ occupied then nextAvailable occupied base fuel (suffix + 1)
    else candidate base suffix

def nextAvailableCopiedEmail (originalEmail : String) (targetID : Int) (occupied : List String) : String :=
  nextAvailable occupied (originalEmail ++ "_" ++ toString targetID) occupied.length 0

def occupiedEmails (db : DB) : List String :=
  (((allClients db).map fun c => trimQuotes (jsonFieldText dialect c.email)).filter (· ≠ "")).map Text.toLower

def writeBackClientSubID (k : Nat) (db : DB) (sourceInboundID : Int) (client : Client) :
    Except String (DB × Client) :=
  if client.subID = "" then do
    let renewed := { client with subID := d.uuid k }
    let db ← updateInboundClient dialect (d.writeBack k) db sourceInboundID { renewed with updatedAt := d.now }
      client.email
    return (db, renewed)
  else .ok (db, client)

def buildTargetClientFromSource (k : Nat) (source : Client) (target : Inbound) (email flow : String) :
    Client :=
  let blank := { source with
    email, createdAt := d.now, updatedAt := d.now, id := "", password := "", auth := "", flow := "" }
  match target.protocol with
  | .vless =>
    let allowed := (flow = "xtls-rprx-vision" ∨ flow = "xtls-rprx-vision-udp443") ∧ target.tlsFlowCapable
    { blank with id := d.randomCredential k, flow := if allowed then flow else "" }
  | .trojan | .shadowsocks => { blank with password := d.randomCredential k }
  | .hysteria => { blank with auth := d.randomCredential k }
  | _ => { blank with id := d.randomCredential k }

def selected (allowed : List String) (source : Client) : Bool :=
  let originalEmail := Text.trimSpace source.email
  originalEmail != "" && (allowed.isEmpty || allowed.contains (Text.toLower originalEmail))

def copyClients (target : Inbound) (sourceId : Int) (allowed : List String) (flow : String) :
    Nat → DB → List String → List Client → DB × List Client
  | _, db, _, [] => (db, [])
  | k, db, occupied, source :: sources =>
    if selected allowed source then
      match writeBackClientSubID dialect d k db sourceId source with
      | .error _ => copyClients target sourceId allowed flow (k + 1) db occupied sources
      | .ok (db, source) =>
        let targetEmail := nextAvailableCopiedEmail (Text.trimSpace source.email) target.id occupied
        let (db, clients) := copyClients target sourceId allowed flow (k + 1) db
          (Text.toLower targetEmail :: occupied) sources
        (db, buildTargetClientFromSource d k source target targetEmail flow :: clients)
    else copyClients target sourceId allowed flow (k + 1) db occupied sources

def allowedEmails (clientEmails : List String) : List String :=
  clientEmails.map fun email => Text.toLower (Text.trimSpace email)

def copyInboundClients (db : DB) (targetId sourceId : Int) (clientEmails : List String) (flow : String) :
    DB × Except String Unit :=
  if d.refusal.isSome then (db, .error (d.refusal.getD ""))
  else if targetId = sourceId then (db, .error "source and target inbounds must be different\n")
  else
    match db.inbounds.find targetId, db.inbounds.find sourceId with
    | some target, some source =>
      let (db', newClients) := copyClients dialect d target sourceId (allowedEmails clientEmails) flow 0 db
        (occupiedEmails dialect db) (source.clients.getD [])
      if newClients = [] then (db', .ok ())
      else
        match addInboundClient dialect d.add db' d.subIDs targetId newClients with
        | .error e => (db', .error e)
        | .ok db'' => (db'', .ok ())
    | _, _ => (db, .error errNotFound)

end copies

inductive Event
  | addInbound (o : SaveDraws) (req : InboundRequest)
  | updateInbound (o : SaveDraws) (id : Int) (req : InboundRequest)
  | addInboundClient (o : Attempt) (subIDs : Nat → Token) (id : Int) (clients : List Client)
  | updateInboundClient (o : Attempt) (id : Int) (client : Client) (oldEmail : String)
  | create (d : Draws) (payload : ClientCreatePayload)
  | attach (d : Draws) (id : Int) (inboundIds : List Int)
  | copyInboundClients (d : CopyDraws) (targetId sourceId : Int) (clientEmails : List String) (flow : String)

def orKept (db : DB) : Except String DB → DB
  | .ok db' => db'
  | .error _ => db

def step (env : Env) (dialect : Dialect) (db : DB) : Event → DB
  | .addInbound o req => orKept db (addInbound dialect o db req)
  | .updateInbound o id req => orKept db (updateInbound dialect o db id req)
  | .addInboundClient o subIDs id clients => orKept db (addInboundClient dialect o db subIDs id clients)
  | .updateInboundClient o id client oldEmail =>
    orKept db (updateInboundClient dialect o db id client oldEmail)
  | .create d payload => (create env dialect d db payload).1
  | .attach d id inboundIds => (attach env dialect d db id inboundIds).1
  | .copyInboundClients d targetId sourceId clientEmails flow =>
    (copyInboundClients dialect d db targetId sourceId clientEmails flow).1

def emptyPanel : DB := ⟨.empty, .empty, [], []⟩

def key (c : Client) : String := Text.toLower c.email

structure OneIdentity (db : DB) : Prop where
  subs : ∀ c ∈ allClients db, ∀ c' ∈ allClients db, key c = key c' → c.subID = c'.subID
  single : ∀ i, ((db.settingsClients i).map (·.email)).Nodup

structure Plain (dialect : Dialect) (email subID : String) : Prop where
  email : jsonFieldText dialect email = email
  subID : jsonFieldText dialect subID = subID

def elsewhere (db : DB) (i : Int) : List Client :=
  (db.inbounds.rows.filter (·.id ≠ i)).flatMap fun ib => ib.clients.getD []

structure Listable (dialect : Dialect) (clients : List Client) : Prop where
  plain : ∀ c ∈ clients, Plain dialect c.email c.subID
  distinct : (clients.map (·.email)).Nodup

structure Addable (dialect : Dialect) (db : DB) (i : Int) (clients : List Client) : Prop
    extends Listable dialect clients where
  absent : ∀ c ∈ clients, ∀ e ∈ compactOrphans db (db.settingsClients i), e.email ≠ c.email
  visible : ∀ c ∈ clients, Text.trimSpace c.subID = "" → c.subID ≠ "" →
    (∀ e ∈ allClients db, key e ≠ key c) ∧ ∀ c' ∈ clients, key c' = key c → c'.email = c.email

structure Editable (dialect : Dialect) (db : DB) (i : Int) (index : Nat) (old new client : Client) : Prop where
  plain : Plain dialect new.email new.subID
  absent : ∀ e ∈ (db.settingsClients i).eraseIdx index, e.email ≠ client.email
  agrees : client.email = old.email ∨ Text.trimSpace client.subID = "" →
    ∀ e ∈ (db.settingsClients i).eraseIdx index ++ elsewhere db i, key e = key client → e.subID = new.subID

structure Placeable (dialect : Dialect) (db : DB) (email subID : String) (ids : List Int) : Prop where
  plain : Plain dialect email subID
  once : ids.Nodup
  absent : ∀ i ∈ ids, ∀ e ∈ db.settingsClients i, e.email ≠ email
  visible : Text.trimSpace subID = "" → subID = ""

def Sole (db : DB) (i : Int) (k : String) : Prop :=
  ((db.settingsClients i).map key).count k ≤ 1 ∧ ∀ j, j ≠ i → k ∉ (db.settingsClients j).map key

def Copyable (db : DB) (sourceId : Int) (source : Client) : Prop :=
  (Text.trimSpace source.email).toList.head? ≠ some quote ∧
    (source.subID = "" → Sole db sourceId (key source))

def Fits (dialect : Dialect) (db : DB) : Event → Prop
  | .addInbound _ req =>
    let clients := req.clients.getD []
    Listable dialect clients ∧
      ∀ c ∈ clients, c.email = "" → ∀ e ∈ clients ++ allClients db, e.email = "" → e.subID = c.subID
  | .updateInbound _ id req =>
    let clients := req.clients.getD []
    Listable dialect clients ∧
      ∀ c ∈ clients, ∀ e ∈ clients ++ elsewhere db id, key e = key c → e.subID = c.subID
  | .addInboundClient _ _ id clients => Addable dialect db id clients
  | .updateInboundClient o id client oldEmail =>
    let index := (db.settingsClients id).findIdx fun c => Text.equalFold c.email oldEmail
    ∀ old, (db.settingsClients id)[index]? = some old →
      Editable dialect db id index old (restampEntry o old client) client
  | .create _ payload => Placeable dialect db payload.client.email payload.client.subID payload.inboundIds
  | .attach _ id inboundIds => ∀ existing, db.records.find id = some existing →
      Placeable dialect db existing.email existing.subID
        (inboundIds.filter fun i => !(db.inboundIdsOf id).contains i)
  | .copyInboundClients _ _ sourceId clientEmails _ => ∀ source ∈ db.settingsClients sourceId,
      selected (allowedEmails clientEmails) source = true → Copyable db sourceId source

section guard

variable {db db' : DB} {dialect : Dialect} {clients : List Client} {c e : Client} {i j : Int}

structure Sound (dialect : Dialect) (db : DB) : Prop extends OneIdentity db where
  plain : ∀ c ∈ allClients db, Plain dialect c.email c.subID

theorem allClients_readAs : allClients (readAs dialect db) = (allClients db).map (readClient dialect) := by
  simp only [allClients, readAs, Table.map, flatMap_map, map_flatMap]
  refine flatMap_congr fun ib _ => ?_
  cases ib.clients <;> rfl

theorem Sound.read (h : Sound dialect db) : allClients (readAs dialect db) = allClients db := by
  have hsame : ∀ c ∈ allClients db, readClient dialect c = c := by
    intro c hc
    obtain ⟨hemail, hsub⟩ := h.plain c hc
    rw [readClient, hemail, hsub]
  rw [allClients_readAs, map_congr_left hsame, map_id']

theorem mem_elsewhere : c ∈ elsewhere db i ↔ ∃ j, j ≠ i ∧ c ∈ db.settingsClients j := by
  simp only [elsewhere, mem_flatMap, mem_filter, decide_eq_true_eq, DB.settingsClients,
    DB.clientsOf]
  constructor
  · rintro ⟨ib, ⟨hib, hne⟩, hc⟩
    refine ⟨ib.id, hne, ?_⟩
    rw [Table.find_of_mem hib]
    exact hc
  · rintro ⟨j, hne, hc⟩
    cases hfind : db.inbounds.find j with
    | none =>
      rw [hfind] at hc
      cases hc
    | some ib =>
      rw [hfind] at hc
      obtain ⟨hib, rfl⟩ := Table.mem_of_find hfind
      exact ⟨ib, ⟨hib, hne⟩, hc⟩

theorem mem_all_of_elsewhere (h : c ∈ elsewhere db i) : c ∈ allClients db := by
  obtain ⟨j, -, hc⟩ := mem_elsewhere.mp h
  exact mem_allClients.mpr ⟨j, hc⟩

def Bound (db : DB) (c : Client) : Prop := ∀ e ∈ allClients db, key e = key c → e.subID = c.subID ∧ c.subID ≠ ""

theorem bound_of_read (hne : c.email ≠ "")
    (h : ∀ v, subIDOf (emailSubIDs db) (key c) = some v → v = c.subID ∧ c.subID ≠ "") : Bound db c := by
  have hkey : key c ≠ "" := toLower_ne hne
  intro e he hsame
  cases hread : subIDOf (emailSubIDs db) (key c) with
  | some v =>
    obtain ⟨rfl, hsub⟩ := h v hread
    refine ⟨(agrees_emailSubIDs hkey hsub).mp ?_ e he hsame, hsub⟩
    intro w hw
    exact Option.some.inj (hw.symm.trans hread)
  | none =>
    have hany : ∀ sub, sub ≠ "" → e.subID = sub := by
      intro sub hsub
      refine (agrees_emailSubIDs hkey hsub).mp ?_ e he hsame
      intro w hw
      rw [hread] at hw
      cases hw
    have ha := hany "a" (by decide)
    have hb := hany "b" (by decide)
    rw [ha] at hb
    exact absurd hb (by decide)

structure Guarded (db : DB) (clients : List Client) : Prop where
  bound : ∀ c ∈ clients, c.email ≠ "" → Bound db c
  paired : clients.Pairwise fun c c' => c.email ≠ "" → key c' = key c → c'.subID = c.subID ∧ c.subID ≠ ""

theorem guarded_of_check {seen : List (String × String)} (h : checkEmailsExist db clients seen = none)
    (hseen : ∀ r ∈ seen, ∀ e ∈ allClients db, key e = r.1 → e.subID = r.2 ∧ r.2 ≠ "") :
    Guarded db clients ∧ ∀ c ∈ clients, c.email ≠ "" → ∀ r, seen.find? (·.1 = key c) = some r →
      c.subID = r.2 ∧ r.2 ≠ "" := by
  induction clients generalizing seen with
  | nil =>
    exact ⟨⟨fun _ h => absurd h not_mem_nil, List.Pairwise.nil⟩,
      fun _ h => absurd h not_mem_nil⟩
  | cons c clients ih =>
    simp only [checkEmailsExist] at h
    split at h
    case isTrue hblank =>
      obtain ⟨hguarded, hfound⟩ := ih h hseen
      refine ⟨⟨?_, pairwise_cons.mpr ⟨fun _ _ hne => absurd hblank hne, hguarded.paired⟩⟩, ?_⟩
      · intro c' hc' hne
        rcases mem_cons.mp hc' with rfl | hc'
        · exact absurd hblank hne
        · exact hguarded.bound c' hc' hne
      · intro c' hc' hne
        rcases mem_cons.mp hc' with rfl | hc'
        · exact absurd hblank hne
        · exact hfound c' hc' hne
    case isFalse hnamed =>
      have hkey : ∀ c', key c' = key c → c'.email ≠ "" := by
        intro c' hsame hblank
        rw [key, key, hblank] at hsame
        exact toLower_ne hnamed hsame.symm
      split at h
      case h_1 k prev hprev =>
        split at h
        case isTrue => cases h
        case isFalse hsame =>
          obtain ⟨rfl, hsub⟩ : prev = c.subID ∧ c.subID ≠ "" := by
            constructor
            · exact not_not.mp fun hne => hsame (Or.inl hne)
            · exact fun hblank => hsame (Or.inr hblank)
          have hk : k = key c := by simpa [key] using find?_some hprev
          have hbound : Bound db c := by
            intro e he hsame
            exact hseen _ (mem_of_find?_eq_some hprev) e he (hsame.trans hk.symm)
          obtain ⟨hguarded, hfound⟩ := ih h hseen
          refine ⟨⟨?_, pairwise_cons.mpr ⟨?_, hguarded.paired⟩⟩, ?_⟩
          · intro c' hc' hne
            rcases mem_cons.mp hc' with rfl | hc'
            · exact hbound
            · exact hguarded.bound c' hc' hne
          · intro c' hc' _ hsame
            exact hfound c' hc' (hkey c' hsame) _ (by rw [hsame]; exact hprev)
          · intro c' hc' hne r hr
            rcases mem_cons.mp hc' with rfl | hc'
            · cases hr.symm.trans hprev
              exact ⟨rfl, hsub⟩
            · exact hfound c' hc' hne r hr
      case h_2 hnone =>
        have hrest : checkEmailsExist db clients ((key c, c.subID) :: seen) = none ∧ Bound db c := by
          split at h
          case h_1 k v hread =>
            split at h
            case isTrue => cases h
            case isFalse hsame =>
              refine ⟨h, bound_of_read hnamed ?_⟩
              intro w hw
              have hv : w = v := by
                rw [key, subIDOf, hread] at hw
                exact (Option.some.inj hw).symm
              rw [hv]
              simpa only [not_or, not_not, and_comm] using And.intro (not_or.mp (not_or.mp hsame).2).2
                (not_or.mp hsame).1
          case h_2 hread =>
            refine ⟨h, bound_of_read hnamed ?_⟩
            intro w hw
            rw [key, subIDOf, hread] at hw
            cases hw
        obtain ⟨hcheck, hbound⟩ := hrest
        have hseen' : ∀ r ∈ (key c, c.subID) :: seen, ∀ e ∈ allClients db, key e = r.1 →
            e.subID = r.2 ∧ r.2 ≠ "" := by
          intro r hr
          rcases mem_cons.mp hr with rfl | hr
          · exact hbound
          · exact hseen r hr
        obtain ⟨hguarded, hfound⟩ := ih hcheck hseen'
        refine ⟨⟨?_, pairwise_cons.mpr ⟨?_, hguarded.paired⟩⟩, ?_⟩
        · intro c' hc' hne
          rcases mem_cons.mp hc' with rfl | hc'
          · exact hbound
          · exact hguarded.bound c' hc' hne
        · intro c' hc' _ hsame
          refine hfound c' hc' (hkey c' hsame) (key c, c.subID) ?_
          rw [find?_cons_of_pos (by simpa using hsame.symm)]
        · intro c' hc' hne r hr
          rcases mem_cons.mp hc' with rfl | hc'
          · rw [key, hnone] at hr
            cases hr
          · refine hfound c' hc' hne r ?_
            have hother : key c ≠ key c' := by
              intro hsame
              rw [← hsame, key, hnone] at hr
              cases hr
            rw [find?_cons_of_neg (by simpa using hother)]
            exact hr

end guard

section storing

variable {db db' : DB} {dialect : Dialect} {clients cs : List Client} {c e : Client} {i j : Int}

def Stored (i : Int) (cs : List Client) (db db' : DB) : Prop :=
  ∀ j, db'.settingsClients j = if j = i then cs else db.settingsClients j

theorem Sound.guarded (h : Sound dialect db) (hcheck : checkEmailsExist (readAs dialect db) clients [] = none) :
    Guarded db clients := by
  obtain ⟨hbound, hpaired⟩ := (guarded_of_check hcheck fun _ hr => absurd hr not_mem_nil).1
  refine ⟨?_, hpaired⟩
  intro c hc hne
  have hread := hbound c hc hne
  rw [Bound, h.read] at hread
  exact hread

theorem Sound.save (h : Sound dialect db) (hstored : Stored i cs db db') (hlist : Listable dialect cs)
    (hagree : ∀ c ∈ cs, ∀ e ∈ cs ++ elsewhere db i, key e = key c → e.subID = c.subID) :
    Sound dialect db' := by
  have hmem : ∀ c, c ∈ allClients db' ↔ c ∈ cs ∨ c ∈ elsewhere db i := by
    intro c
    rw [mem_allClients, mem_elsewhere]
    constructor
    · rintro ⟨j, hc⟩
      rw [hstored j] at hc
      split at hc
      case isTrue => exact Or.inl hc
      case isFalse hne => exact Or.inr ⟨j, hne, hc⟩
    · rintro (hc | ⟨j, hne, hc⟩)
      · exact ⟨i, by rw [hstored i, if_pos rfl]; exact hc⟩
      · exact ⟨j, by rw [hstored j, if_neg hne]; exact hc⟩
  refine ⟨⟨?_, ?_⟩, ?_⟩
  · intro c hc c' hc' hsame
    rcases (hmem c).mp hc with hc | hc
    · exact (hagree c hc c' (mem_append.mpr ((hmem c').mp hc')) hsame.symm).symm
    · rcases (hmem c').mp hc' with hc' | hc'
      · exact hagree c' hc' c (mem_append.mpr (Or.inr hc)) hsame
      · exact h.subs c (mem_all_of_elsewhere hc) c' (mem_all_of_elsewhere hc') hsame
  · intro j
    rw [hstored j]
    split
    · exact hlist.distinct
    · exact h.single j
  · intro c hc
    rcases (hmem c).mp hc with hc | hc
    · exact hlist.plain c hc
    · exact h.plain c (mem_all_of_elsewhere hc)

theorem settingsClients_sync (h : syncInbound db i cs = .ok db') :
    db'.settingsClients j = db.settingsClients j := by
  rw [DB.settingsClients, DB.settingsClients, DB.clientsOf, DB.clientsOf, (syncInbound_ok h).1]

theorem stored_saveClients {traffics : List ClientTraffic} (hfind : (db.inbounds.find i).isSome)
    (h : syncInbound (saveClients { db with traffics } i cs) i clients = .ok db') : Stored i cs db db' := by
  intro j
  rw [settingsClients_sync h, DB.settingsClients, clientsOf_saveClients]
  obtain ⟨ib, hib⟩ := Option.isSome_iff_exists.mp hfind
  split
  · rw [hib]
    rfl
  · rfl

theorem Listable.stampTimes (o : SaveDraws) (h : Listable dialect clients) :
    Listable dialect (clients.map (stampTimes o)) := by
  refine ⟨?_, ?_⟩
  · intro c hc
    obtain ⟨c₀, hc₀, rfl⟩ := mem_map.mp hc
    exact h.plain c₀ hc₀
  · rw [map_map]
    exact h.distinct

theorem agree_stampTimes {others : List Client} (o : SaveDraws)
    (h : ∀ c ∈ clients, ∀ e ∈ clients ++ others, key e = key c → e.subID = c.subID) :
    ∀ c ∈ clients.map (stampTimes o), ∀ e ∈ clients.map (stampTimes o) ++ others,
      key e = key c → e.subID = c.subID := by
  intro c hc e he hsame
  obtain ⟨c₀, hc₀, rfl⟩ := mem_map.mp hc
  rcases mem_append.mp he with he | he
  · obtain ⟨e₀, he₀, rfl⟩ := mem_map.mp he
    exact h c₀ hc₀ e₀ (mem_append_left _ he₀) hsame
  · exact h c₀ hc₀ e (mem_append_right _ he) hsame

theorem Guarded.same (h : Guarded db clients) (hc : c ∈ clients) (he : e ∈ clients) (hne : c.email ≠ "")
    (hsame : key e = key c) : e = c ∨ (e.subID = c.subID ∧ c.subID ≠ "") := by
  have hpaired : clients.Pairwise fun c e =>
      c.email ≠ "" → e.email ≠ "" → key e = key c → e = c ∨ (e.subID = c.subID ∧ c.subID ≠ "") :=
    h.paired.imp fun hpair hne _ hsame => Or.inr (hpair hne hsame)
  have hne' : e.email ≠ "" := by
    intro hblank
    rw [key, key, hblank] at hsame
    exact toLower_ne hne hsame.symm
  refine hpaired.forall_of_forall_of_flip (fun _ _ _ _ _ => Or.inl rfl) (hpaired.imp ?_) hc he hne hne' hsame
  intro c e hpair hne hne' hsame
  rcases hpair hne' hne hsame.symm with rfl | ⟨hsub, hsome⟩
  · exact Or.inl rfl
  · exact Or.inr ⟨hsub.symm, hsub ▸ hsome⟩

theorem Guarded.agree (h : Guarded db clients)
    (hnameless : ∀ c ∈ clients, c.email = "" → ∀ e ∈ clients ++ allClients db, e.email = "" →
      e.subID = c.subID) :
    ∀ c ∈ clients, ∀ e ∈ clients ++ allClients db, key e = key c → e.subID = c.subID := by
  intro c hc e he hsame
  by_cases hblank : c.email = ""
  · have hblank' : e.email = "" := by
      by_contra hne
      refine toLower_ne hne ?_
      rw [key, key, hblank] at hsame
      exact hsame
    exact hnameless c hc hblank e he hblank'
  · rcases mem_append.mp he with he | he
    · rcases h.same hc he hblank hsame with rfl | ⟨hsub, -⟩
      · rfl
      · exact hsub
    · exact (h.bound c hc hblank e he hsame).1

theorem addInbound_sound {o : SaveDraws} {req : InboundRequest} (h : Sound dialect db)
    (hfits : Fits dialect db (.addInbound o req)) (hadd : addInbound dialect o db req = .ok db') :
    Sound dialect db' := by
  obtain ⟨hlist, hnameless⟩ := hfits
  simp only [addInbound, bind_ok, check_ok, Option.isNone_iff_eq_none] at hadd
  obtain ⟨_, -, _, hcheck, _, -, hsync⟩ := hadd
  have hstored : Stored db.inbounds.next ((req.clients.getD []).map (stampTimes o)) db db' := by
    intro j
    rw [settingsClients_sync hsync, DB.settingsClients, DB.clientsOf, Table.find_insert]
    split
    · cases req.clients <;> rfl
    · rfl
  refine h.save hstored (hlist.stampTimes o) (agree_stampTimes o ?_)
  intro c hc e he hsame
  refine (h.guarded hcheck).agree hnameless c hc e ?_ hsame
  rcases mem_append.mp he with he | he
  · exact mem_append_left _ he
  · exact mem_append_right _ (mem_all_of_elsewhere he)

theorem updateInbound_sound {o : SaveDraws} {req : InboundRequest} (h : Sound dialect db)
    (hfits : Fits dialect db (.updateInbound o i req)) (hupdate : updateInbound dialect o db i req = .ok db') :
    Sound dialect db' := by
  obtain ⟨hlist, hagree⟩ := hfits
  simp only [updateInbound, bind_ok, check_ok, orErr_ok] at hupdate
  obtain ⟨_, -, old, hold, hsync⟩ := hupdate
  have hstored : Stored i ((req.clients.getD []).map (stampTimes o)) db db' := by
    intro j
    rw [settingsClients_sync hsync, DB.settingsClients, DB.clientsOf, Table.find_modify]
    split
    case isTrue hj =>
      have hid := (Table.mem_of_find hold).2
      rw [hj, hold]
      simp only [Option.map_some, hid, beq_self_eq_true, if_true, Option.bind_some]
      cases req.clients <;> rfl
    case isFalse hj =>
      rw [DB.settingsClients, DB.clientsOf]
      cases hfind : db.inbounds.find j with
      | none => rfl
      | some ib =>
        have hid := (Table.mem_of_find hfind).2
        have hne : (ib.id == i) = false := by simpa [hid] using hj
        simp only [Option.map_some, hne, Bool.false_eq_true, if_false]
  exact h.save hstored (hlist.stampTimes o) (agree_stampTimes o hagree)

end storing

section entries

variable {db db' : DB} {dialect : Dialect} {clients : List Client} {c e client : Client} {i j : Int}
variable {o : Attempt} {subIDs : Nat → Token}

def stamped (o : Attempt) (subIDs : Nat → Token) (clients : List Client) : List Client :=
  clients.mapIdx fun k c => stampEntry { o with subID := subIDs k } c

theorem mem_stamped : e ∈ stamped o subIDs clients ↔
    ∃ k, ∃ hk : k < clients.length, e = stampEntry { o with subID := subIDs k } clients[k] := by
  simp only [stamped, mem_mapIdx, eq_comm]

theorem stampEntry_email (o : Attempt) (c : Client) : (stampEntry o c).email = c.email := by
  simp only [stampEntry]

theorem key_stampEntry (o : Attempt) (c : Client) : key (stampEntry o c) = key c := by
  rw [key, key, stampEntry_email]

theorem stampEntry_subID (h : Text.trimSpace c.subID ≠ "") : (stampEntry o c).subID = c.subID := by
  simp only [stampEntry, if_neg h]

theorem stampEntry_random (h : Text.trimSpace c.subID = "") : (stampEntry o c).subID = o.subID := by
  simp only [stampEntry, if_pos h]

theorem trimQuotes_of_edges {s : String} (hhead : s.toList.head? ≠ some quote)
    (hlast : s.toList.getLast? ≠ some quote) : trimQuotes s = s := by
  have hdrop : s.toList.dropWhile (· = quote) = s.toList := by
    cases hs : s.toList with
    | nil => rfl
    | cons r rs =>
      have hr : r ≠ quote := by simpa [hs] using hhead
      exact dropWhile_cons_of_neg (by simpa using hr)
  have hrdrop : s.toList.rdropWhile (· = quote) = s.toList := by
    rw [rdropWhile_eq_self_iff]
    intro hne hquote
    rw [getLast?_eq_some_getLast hne] at hlast
    exact hlast (congrArg some (of_decide_eq_true hquote))
  rw [trimQuotes, hdrop, hrdrop, String.ofList_toList]

theorem jsonFieldText_of_edges (dialect : Dialect) {s : String} (hhead : s.toList.head? ≠ some quote)
    (hlast : s.toList.getLast? ≠ some quote) : jsonFieldText dialect s = s := by
  cases dialect with
  | sqlite => exact trimQuotes_of_edges hhead hlast
  | postgres => rfl

theorem token_plain (dialect : Dialect) (t : Token) : jsonFieldText dialect t = t := by
  have hchars : ∀ r ∈ (t : String).toList, r ≠ quote := by
    rintro r hr rfl
    have hall := all_eq_true.mp t.2.2 quote hr
    revert hall
    decide
  exact jsonFieldText_of_edges dialect (fun h => hchars _ (mem_of_head? h) rfl)
    fun h => hchars _ (mem_of_getLast? h) rfl

theorem stampEntry_plain (h : Plain dialect c.email c.subID) :
    Plain dialect (stampEntry o c).email (stampEntry o c).subID := by
  rw [stampEntry_email]
  refine ⟨h.email, ?_⟩
  by_cases hblank : Text.trimSpace c.subID = ""
  · rw [stampEntry_random hblank]
    exact token_plain dialect o.subID
  · rw [stampEntry_subID hblank]
    exact h.subID

theorem Addable.listable (h : Addable dialect db i clients) {cs : List Client}
    (hcs : Listable dialect cs) (habsent : ∀ c ∈ clients, ∀ e ∈ cs, e.email ≠ c.email) :
    Listable dialect (cs ++ stamped o subIDs clients) := by
  have hemails : (stamped o subIDs clients).map (·.email) = clients.map (·.email) := by
    refine ext_getElem (by simp [stamped]) fun k _ _ => ?_
    simp [stamped, stampEntry_email]
  refine ⟨?_, ?_⟩
  · intro c hc
    rcases mem_append.mp hc with hc | hc
    · exact hcs.plain c hc
    · obtain ⟨k, hk, rfl⟩ := mem_stamped.mp hc
      exact stampEntry_plain (h.plain _ (getElem_mem hk))
  · rw [map_append, hemails, nodup_append]
    refine ⟨hcs.distinct, h.distinct, ?_⟩
    intro m hm m' hm' hsame
    obtain ⟨e, he, rfl⟩ := mem_map.mp hm
    obtain ⟨c, hc, rfl⟩ := mem_map.mp hm'
    exact habsent c hc e he hsame

theorem stamped_agree (h : Addable dialect db i clients) (hguard : Guarded db clients)
    (hnamed : ∀ c ∈ clients, c.email ≠ "") (hc : c ∈ stamped o subIDs clients) :
    (∀ e ∈ stamped o subIDs clients, key e = key c → e.subID = c.subID) ∧
      ∀ e ∈ allClients db, key e = key c → e.subID = c.subID := by
  obtain ⟨k, hk, rfl⟩ := mem_stamped.mp hc
  have hmem := getElem_mem hk
  constructor
  · intro e he hsame
    obtain ⟨k', hk', rfl⟩ := mem_stamped.mp he
    have hmem' := getElem_mem hk'
    rw [key_stampEntry, key_stampEntry] at hsame
    by_cases hemail : clients[k'].email = clients[k].email
    · have hkk : k' = k := by
        have hnodup : (clients.map (·.email)).Nodup := h.distinct
        refine (@List.Nodup.getElem_inj_iff _ _ hnodup k' (by simpa using hk') k (by simpa using hk)).mp ?_
        simpa using hemail
      cases hkk
      rfl
    · obtain ⟨hsub, hsome⟩ := (hguard.same hmem hmem' (hnamed _ hmem) hsame).resolve_left fun heq =>
        hemail (congrArg (·.email) heq)
      have hvisible : Text.trimSpace clients[k].subID ≠ "" := by
        intro hblank
        exact hemail ((h.visible _ hmem hblank hsome).2 _ hmem' hsame)
      have hvisible' : Text.trimSpace clients[k'].subID ≠ "" := by
        rw [hsub]
        exact hvisible
      rw [stampEntry_subID hvisible, stampEntry_subID hvisible']
      exact hsub
  · intro e he hsame
    rw [key_stampEntry] at hsame
    have hbound := hguard.bound _ hmem (hnamed _ hmem) e he hsame
    have hvisible : Text.trimSpace clients[k].subID ≠ "" := by
      intro hblank
      exact (h.visible _ hmem hblank hbound.2).1 e he hsame
    rw [stampEntry_subID hvisible]
    exact hbound.1

theorem checkCredentials_named {protocol : Protocol} (h : checkCredentials protocol clients = .ok ()) :
    ∀ c ∈ clients, c.email ≠ "" := by
  induction clients with
  | nil => exact fun _ hc => absurd hc not_mem_nil
  | cons c clients ih =>
    simp only [checkCredentials, bind_ok, check_ok, bne_iff_ne] at h
    obtain ⟨_, hnamed, _, -, hrest⟩ := h
    intro c' hc'
    rcases mem_cons.mp hc' with rfl | hc'
    · intro hblank
      rw [hblank] at hnamed
      exact hnamed (by decide)
    · exact ih hrest c' hc'

theorem addInboundClient_spec (h : addInboundClient dialect o db subIDs i clients = .ok db') :
    checkEmailsExist (readAs dialect db) clients [] = none ∧ (∀ c ∈ clients, c.email ≠ "") ∧
      Stored i (compactOrphans db (db.settingsClients i) ++ stamped o subIDs clients) db db' := by
  simp only [addInboundClient, bind_ok, orErr_ok, check_ok, Option.isNone_iff_eq_none] at h
  obtain ⟨_, hcheck, ib, hib, _, hcredentials, cs, hcs, push, -, _, -, hsync⟩ := h
  have hsettings : db.settingsClients i = cs := settingsClients_listed hib hcs
  rw [hsettings]
  exact ⟨hcheck, checkCredentials_named hcredentials, stored_saveClients (by rw [hib]; rfl) hsync⟩

theorem Sound.listable (h : Sound dialect db) (i : Int) : Listable dialect (db.settingsClients i) :=
  ⟨fun c hc => h.plain c (mem_allClients.mpr ⟨i, hc⟩), h.single i⟩

theorem Listable.sublist {cs : List Client} (h : Listable dialect clients) (hsub : cs.Sublist clients) :
    Listable dialect cs :=
  ⟨fun c hc => h.plain c (hsub.subset hc), h.distinct.sublist (hsub.map _)⟩

theorem addInboundClient_sound (h : Sound dialect db) (hfits : Addable dialect db i clients)
    (hadd : addInboundClient dialect o db subIDs i clients = .ok db') : Sound dialect db' := by
  obtain ⟨hcheck, hnamed, hstored⟩ := addInboundClient_spec hadd
  have hguard := h.guarded hcheck
  have hkept : (compactOrphans db (db.settingsClients i)).Sublist (db.settingsClients i) :=
    filter_sublist
  have hall : ∀ e ∈ compactOrphans db (db.settingsClients i) ++ elsewhere db i, e ∈ allClients db := by
    intro e he
    rcases mem_append.mp he with he | he
    · exact mem_allClients.mpr ⟨i, hkept.subset he⟩
    · exact mem_all_of_elsewhere he
  refine h.save hstored (hfits.listable ((h.listable i).sublist hkept) hfits.absent) ?_
  intro c hc e he hsame
  have hcases : e ∈ stamped o subIDs clients ∨ e ∈ allClients db := by
    rcases mem_append.mp he with he | he
    · rcases mem_append.mp he with he | he
      · exact Or.inr (hall e (mem_append_left _ he))
      · exact Or.inl he
    · exact Or.inr (hall e (mem_append_right _ he))
  rcases mem_append.mp hc with hc | hc
  · have hold := hall c (mem_append_left _ hc)
    rcases hcases with he | he
    · exact ((stamped_agree hfits hguard hnamed he).2 c hold hsame.symm).symm
    · exact h.subs e he c hold hsame
  · rcases hcases with he | he
    · exact (stamped_agree hfits hguard hnamed hc).1 e he hsame
    · exact (stamped_agree hfits hguard hnamed hc).2 e he hsame

def position (db : DB) (i : Int) (oldEmail : String) : Nat :=
  (db.settingsClients i).findIdx fun c => Text.equalFold c.email oldEmail

theorem updateInboundClient_spec {oldEmail : String}
    (h : updateInboundClient dialect o db i client oldEmail = .ok db') :
    ∃ old, (db.settingsClients i)[position db i oldEmail]? = some old ∧ client.email ≠ "" ∧
      (client.email ≠ old.email → checkEmailsExist (readAs dialect db) [client] [] = none) ∧
      Stored i ((db.settingsClients i).set (position db i oldEmail) (restampEntry o old client)) db db' := by
  simp only [updateInboundClient, bind_ok, orErr_ok, check_ok, Option.isNone_iff_eq_none] at h
  obtain ⟨_, -, ib, hib, old, hlocated, _, hnamed, _, hcheck, traffics, -, _, -, _, -, hsync⟩ := h
  have hsettings : db.settingsClients i = ib.clients.getD [] := settingsClients_find hib
  rw [← hsettings] at hlocated hsync
  refine ⟨old, ?_, ?_, ?_, stored_saveClients (by rw [hib]; rfl) hsync⟩
  · split at hlocated
    · cases hlocated
    · exact hlocated
  · intro hblank
    rw [hblank] at hnamed
    exact absurd hnamed (by decide)
  · intro hne
    rw [if_neg hne] at hcheck
    exact hcheck

theorem restampEntry_email (old : Client) : (restampEntry o old client).email = client.email := by
  simp only [restampEntry]

theorem key_restampEntry (old : Client) : key (restampEntry o old client) = key client := by
  rw [key, key, restampEntry_email]

theorem restampEntry_subID {old : Client} (h : Text.trimSpace client.subID ≠ "") :
    (restampEntry o old client).subID = client.subID := by
  simp only [restampEntry, if_pos h]

theorem updateInboundClient_sound {oldEmail : String} (h : Sound dialect db)
    (hfits : Fits dialect db (.updateInboundClient o i client oldEmail))
    (hupdate : updateInboundClient dialect o db i client oldEmail = .ok db') : Sound dialect db' := by
  obtain ⟨old, hold, hnamed, hcheck, hstored⟩ := updateInboundClient_spec hupdate
  obtain ⟨hplain, habsent, hagrees⟩ := hfits old hold
  obtain ⟨hlt, -⟩ := List.getElem?_eq_some_iff.mp hold
  have hperm := set_perm_cons_eraseIdx hlt (restampEntry o old client)
  have hrest : ((db.settingsClients i).eraseIdx (position db i oldEmail)).Sublist (db.settingsClients i) :=
    eraseIdx_sublist _ _
  have hothers : ∀ e ∈ (db.settingsClients i).eraseIdx (position db i oldEmail) ++ elsewhere db i,
      e ∈ allClients db := by
    intro e he
    rcases mem_append.mp he with he | he
    · exact mem_allClients.mpr ⟨i, hrest.subset he⟩
    · exact mem_all_of_elsewhere he
  have hnew : ∀ e ∈ (db.settingsClients i).eraseIdx (position db i oldEmail) ++ elsewhere db i,
      key e = key client → e.subID = (restampEntry o old client).subID := by
    intro e he hsame
    by_cases hkept : client.email = old.email ∨ Text.trimSpace client.subID = ""
    · exact hagrees hkept e he hsame
    · obtain ⟨hmoved, hvisible⟩ := not_or.mp hkept
      rw [restampEntry_subID hvisible]
      exact ((h.guarded (hcheck hmoved)).bound client mem_cons_self hnamed e (hothers e he) hsame).1
  have hmem : ∀ c, c ∈ (db.settingsClients i).set (position db i oldEmail) (restampEntry o old client) →
      c = restampEntry o old client ∨ c ∈ (db.settingsClients i).eraseIdx (position db i oldEmail) :=
    fun c hc => mem_cons.mp (hperm.subset hc)
  refine h.save hstored ⟨?_, ?_⟩ ?_
  · intro c hc
    rcases hmem c hc with rfl | hc
    · exact hplain
    · exact ((h.listable i).sublist hrest).plain c hc
  · rw [(hperm.map _).nodup_iff, map_cons, nodup_cons]
    refine ⟨?_, ((h.listable i).sublist hrest).distinct⟩
    rw [restampEntry_email]
    intro hin
    obtain ⟨e, he, hsame⟩ := mem_map.mp hin
    exact habsent e he hsame
  · intro c hc e he hsame
    have hcases : e = restampEntry o old client ∨
        e ∈ (db.settingsClients i).eraseIdx (position db i oldEmail) ++ elsewhere db i := by
      rcases mem_append.mp he with he | he
      · exact (hmem e he).imp_right (mem_append_left _)
      · exact Or.inr (mem_append_right _ he)
    rcases hmem c hc with rfl | hc
    · rw [key_restampEntry] at hsame
      rcases hcases with rfl | he
      · rfl
      · exact hnew e he hsame
    · have hold := mem_append_left (elsewhere db i) hc
      rcases hcases with rfl | he
      · rw [key_restampEntry] at hsame
        exact (hnew c hold hsame.symm).symm
      · exact h.subs e (hothers e he) c (hothers c hold) hsame

end entries

section requests

variable {env : Env} {dialect : Dialect} {d : Draws} {o : Attempt} {db db' : DB} {client client' : Client}
variable {i : Int} {ids : List Int} {k : Nat}

theorem addTo_sound (h : Sound dialect db)
    (hfits : Placeable dialect db client.email client.subID (i :: ids))
    (hadd : addTo env dialect o db client i = .ok (db', client')) :
    Sound dialect db' ∧ Placeable dialect db' client'.email client'.subID ids ∧
      client'.email = client.email ∧ client'.subID = client.subID := by
  simp only [addTo, bind_ok, orErr_ok, check_ok] at hadd
  obtain ⟨_, -, ib, hib, mid, hstore, hadd⟩ := hadd
  cases hadd
  obtain ⟨hemail, hsub⟩ := fillProtocolDefaults_keeps env o client ib
  obtain ⟨hemail', hsub'⟩ := clientWithInboundFlow_keeps (fillProtocolDefaults env o client ib) ib
  have hemails := hemail'.trans hemail
  have hsubs := hsub'.trans hsub
  obtain ⟨hfresh, hrest⟩ := nodup_cons.mp hfits.once
  have haddable : Addable dialect db i [clientWithInboundFlow (fillProtocolDefaults env o client ib) ib] := by
    refine ⟨⟨?_, nodup_singleton _⟩, ?_, ?_⟩
    · intro c hc
      rw [mem_singleton.mp hc, hemails, hsubs]
      exact hfits.plain
    · intro c hc e he
      rw [mem_singleton.mp hc, hemails]
      exact hfits.absent i mem_cons_self e (mem_of_mem_filter he)
    · intro c hc hblank hsome
      rw [mem_singleton.mp hc, hsubs] at hblank hsome
      exact absurd (hfits.visible hblank) hsome
  obtain ⟨-, -, hstored⟩ := addInboundClient_spec hstore
  refine ⟨addInboundClient_sound h haddable hstore, ?_, hemail, hsub⟩
  rw [hemail, hsub]
  refine ⟨hfits.plain, hrest, ?_, hfits.visible⟩
  intro j hj e he
  have hne : j ≠ i := by
    rintro rfl
    exact hfresh hj
  rw [hstored j, if_neg hne] at he
  exact hfits.absent j (mem_cons_of_mem _ hj) e he

theorem addToInbounds_sound (h : Sound dialect db)
    (hfits : Placeable dialect db client.email client.subID ids) :
    Sound dialect (addToInbounds env dialect d k db client ids).1 := by
  induction ids generalizing k db client with
  | nil => exact h
  | cons i ids ih =>
    rw [addToInbounds]
    split
    case h_1 => exact h
    case h_2 db' client' hadd =>
      obtain ⟨hsound, hplace, -⟩ := addTo_sound h hfits hadd
      exact ih hsound hplace

theorem sound_of_inbounds (h : Sound dialect db) (hsame : db'.inbounds = db.inbounds) : Sound dialect db' := by
  have hall : allClients db' = allClients db := by rw [allClients, allClients, hsame]
  refine ⟨⟨?_, ?_⟩, ?_⟩
  · rw [hall]
    exact h.subs
  · intro i
    rw [DB.settingsClients, DB.clientsOf, hsame]
    exact h.single i
  · rw [hall]
    exact h.plain

variable {payload : ClientCreatePayload}

theorem prepare_names (h : prepare d db payload = .ok client) :
    client.email = payload.client.email ∧
      (client.subID = payload.client.subID ∨ client.subID = d.uuid) := by
  simp only [prepare, bind_ok, check_ok] at h
  obtain ⟨_, -, _, -, _, -, _, -, _, -, _, -, h⟩ := h
  cases h
  refine ⟨rfl, ?_⟩
  dsimp only
  split
  · exact Or.inr rfl
  · exact Or.inl rfl

theorem create_sound (h : Sound dialect db)
    (hfits : Placeable dialect db payload.client.email payload.client.subID payload.inboundIds) :
    Sound dialect (create env dialect d db payload).1 := by
  rw [create]
  cases hprepare : prepare d db payload with
  | error e => exact h
  | ok client =>
    obtain ⟨hemail, hsub⟩ := prepare_names hprepare
    have hplace : Placeable dialect db client.email client.subID payload.inboundIds := by
      rw [hemail]
      rcases hsub with hsub | hsub
      · rw [hsub]
        exact hfits
      · rw [hsub]
        refine ⟨⟨hfits.plain.email, token_plain dialect d.uuid⟩, hfits.once, hfits.absent, ?_⟩
        intro hblank
        rw [token_trimmed] at hblank
        exact absurd hblank (token_ne d.uuid)
    have hsound : Sound dialect (addToInbounds env dialect d 0 db client payload.inboundIds).1 :=
      addToInbounds_sound h hplace
    dsimp only
    cases hadd : addToInbounds env dialect d 0 db client payload.inboundIds with
    | mk db' result =>
      rw [hadd] at hsound
      cases result with
      | error e => exact hsound
      | ok client' =>
        cases d.stamp with
        | some e => exact hsound
        | none => exact sound_of_inbounds hsound rfl

theorem attachToInbounds_sound {attached : List Int} (h : Sound dialect db)
    (hfits : Placeable dialect db client.email client.subID
      (ids.filter fun i => !attached.contains i)) :
    Sound dialect (attachToInbounds env dialect d attached client k db ids).1 := by
  induction ids generalizing k db with
  | nil => exact h
  | cons i ids ih =>
    rw [attachToInbounds]
    split
    case isTrue hhave =>
      rw [filter_cons_of_neg (by simpa using hhave)] at hfits
      exact ih h hfits
    case isFalse hhave =>
      rw [filter_cons_of_pos (by simpa using hhave)] at hfits
      split
      case h_1 => exact h
      case h_2 db' client' hadd =>
        obtain ⟨hsound, hplace, hemail, hsub⟩ := addTo_sound h hfits hadd
        rw [hemail, hsub] at hplace
        exact ih hsound hplace

theorem attach_sound (h : Sound dialect db) (hfits : Fits dialect db (.attach d i ids)) :
    Sound dialect (attach env dialect d db i ids).1 := by
  rw [attach]
  split
  case h_1 => exact h
  case h_2 existing hfind => exact attachToInbounds_sound h (hfits existing hfind)

end requests

section names

variable {occupied : List String} {s t base : String} {fuel n : Nat}

theorem toLower_eq_quote {r : Char} (h : r.toLower = quote) : r = quote := by
  rw [Char.toLower] at h
  split at h
  case isTrue hupper =>
    have hval : r.val + ('a'.val - 'A'.val) = quote.val := congrArg Char.val h
    have hlow : 65 ≤ r.val.toNat := hupper.1
    have hhigh : r.val.toNat ≤ 90 := hupper.2
    have hnat := congrArg UInt32.toNat hval
    rw [UInt32.toNat_add] at hnat
    have hgap : ('a'.val - 'A'.val).toNat = 32 := by decide
    have hquote : quote.val.toNat = 34 := by decide
    omega
  case isFalse => exact h

theorem toLower_of_digit {r : Char} (h : r.isDigit = true) : r.toLower = r := by
  rw [Char.toLower, dif_neg]
  rintro ⟨hlow, -⟩
  have hlow' : 65 ≤ r.val.toNat := hlow
  have hdigit : r.val.toNat ≤ 57 := by
    have := (Bool.and_eq_true _ _).mp h
    exact UInt32.le_iff_toNat_le.mp (of_decide_eq_true this.2)
  omega

theorem toLower_append (s t : String) : Text.toLower (s ++ t) = Text.toLower s ++ Text.toLower t := by
  simp [Text.toLower, String.ofList_append]

theorem toLower_repr (n : Nat) : Text.toLower (Nat.repr n) = Nat.repr n := by
  have hsame : (Nat.repr n).toList.map Char.toLower = (Nat.repr n).toList :=
    (map_congr_left fun r hr => toLower_of_digit (Text.repr_isDigit r hr)).trans (map_id' _)
  rw [Text.toLower, hsame, String.ofList_toList]

structure Unquoted (s : String) : Prop where
  head : s.toList.head? ≠ some quote
  last : s.toList.getLast? ≠ some quote

theorem Unquoted.of_lower (h : Unquoted t) (hsame : Text.toLower s = Text.toLower t) : Unquoted s := by
  have hchars : s.toList.map Char.toLower = t.toList.map Char.toLower := by
    simpa [Text.toLower] using congrArg String.toList hsame
  have hlower : ∀ {x : Option Char}, x ≠ some quote → x.map Char.toLower ≠ some quote := by
    intro x hx hmap
    obtain ⟨r, hr, hquote⟩ := Option.map_eq_some_iff.mp hmap
    rw [toLower_eq_quote hquote] at hr
    exact hx hr
  constructor
  · intro hhead
    have hfirst := congrArg List.head? hchars
    rw [head?_map, head?_map, hhead] at hfirst
    exact hlower h.head hfirst.symm
  · intro hlast
    have hfinal := congrArg List.getLast? hchars
    rw [getLast?_map, getLast?_map, hlast] at hfinal
    exact hlower h.last hfinal.symm

theorem unquoted_numbered {rest : String} (hne : s ≠ "") (hhead : s.toList.head? ≠ some quote) :
    Unquoted (s ++ rest ++ Nat.repr n) := by
  have hnil : s.toList ≠ [] := by simpa using hne
  constructor
  · rw [String.toList_append, String.toList_append, append_assoc, head?_append_of_ne_nil _ hnil]
    exact hhead
  · intro hlast
    have hdigits : (Nat.repr n).toList ≠ [] := by simp
    rw [String.toList_append, getLast?_append_of_ne_nil _ hdigits] at hlast
    have hdigit := Text.repr_isDigit _ (mem_of_getLast? hlast)
    revert hdigit
    decide

theorem numbered_ends (s : String) (id : Int) (n : Nat) :
    ∃ rest m, candidate (s ++ "_" ++ toString id) n = s ++ rest ++ Nat.repr m := by
  have hid : ∃ rest m, toString id = rest ++ Nat.repr m := by
    rw [Int.toString_eq_repr, Int.repr_eq_if]
    split
    · exact ⟨"", id.toNat, by simp⟩
    · exact ⟨"-", (-id).toNat, rfl⟩
  obtain ⟨rest, m, hid⟩ := hid
  cases n with
  | zero =>
    refine ⟨"_" ++ rest, m, ?_⟩
    rw [candidate, Fresh.numberedBy, hid]
    simp only [String.append_assoc]
  | succ n =>
    refine ⟨"_" ++ toString id ++ "_", n + 1, ?_⟩
    rw [candidate, Fresh.numberedBy]
    simp only [String.append_assoc]

def underscored : Fresh.Suffix String :=
  ⟨Fresh.numberedBy "_", fun _ => rfl, Fresh.numberedBy_injective (by decide)⟩

theorem toLower_candidate : Text.toLower (candidate base n) = underscored.at_ (Text.toLower base) n := by
  cases n with
  | zero => rfl
  | succ n =>
    change Text.toLower (base ++ "_" ++ Nat.repr (n + 1)) = Text.toLower base ++ "_" ++ Nat.repr (n + 1)
    rw [toLower_append, toLower_append, toLower_repr]
    rfl

theorem toLower_nextAvailable : Text.toLower (nextAvailable occupied base fuel n) =
    Fresh.search underscored occupied (Text.toLower base) fuel n := by
  induction fuel generalizing n with
  | zero => exact toLower_candidate
  | succ fuel ih =>
    rw [nextAvailable, Fresh.search, ← toLower_candidate]
    split
    · exact ih
    · rfl

theorem nextAvailable_candidate : ∃ m, nextAvailable occupied base fuel n = candidate base m := by
  induction fuel generalizing n with
  | zero => exact ⟨n, rfl⟩
  | succ fuel ih =>
    rw [nextAvailable]
    split
    · exact ih
    · exact ⟨n, rfl⟩

theorem nextAvailableCopiedEmail_fresh (originalEmail : String) (targetID : Int) (occupied : List String) :
    Text.toLower (nextAvailableCopiedEmail originalEmail targetID occupied) ∉ occupied := by
  rw [nextAvailableCopiedEmail, toLower_nextAvailable]
  exact Fresh.pick_not_mem

theorem nextAvailableCopiedEmail_ends (originalEmail : String) (targetID : Int) (occupied : List String) :
    ∃ rest n, nextAvailableCopiedEmail originalEmail targetID occupied =
      originalEmail ++ rest ++ Nat.repr n := by
  obtain ⟨m, hm⟩ := @nextAvailable_candidate occupied (originalEmail ++ "_" ++ toString targetID)
    occupied.length 0
  rw [nextAvailableCopiedEmail, hm]
  exact numbered_ends originalEmail targetID m

end names

section copying

variable {dialect : Dialect} {d : CopyDraws} {db db' db'' : DB} {source source' target : Client}
variable {occupied allowed : List String} {flow : String} {targetIb : Inbound} {i : Int} {k : Nat}
variable {clients : List Client}

def SameKeys (db db' : DB) : Prop := ∀ j, (db'.settingsClients j).map key = (db.settingsClients j).map key

theorem SameKeys.sole {m : String} (h : SameKeys db db') (hsole : Sole db i m) : Sole db' i m := by
  constructor
  · rw [h i]
    exact hsole.1
  · intro j hne
    rw [h j]
    exact hsole.2 j hne

theorem SameKeys.mem (h : SameKeys db db') {c : Client} (hc : c ∈ allClients db') :
    ∃ c₀ ∈ allClients db, key c₀ = key c := by
  obtain ⟨j, hj⟩ := mem_allClients.mp hc
  have hmem : key c ∈ (db.settingsClients j).map key := by
    rw [← h j]
    exact mem_map_of_mem hj
  obtain ⟨c₀, hc₀, hkey⟩ := mem_map.mp hmem
  exact ⟨c₀, mem_allClients.mpr ⟨j, hc₀⟩, hkey⟩

theorem key_of_position {old : Client} {email : String}
    (h : (db.settingsClients i)[position db i email]? = some old) : key old = Text.toLower email := by
  obtain ⟨hlt, hget⟩ := List.getElem?_eq_some_iff.mp h
  have hfold : Text.equalFold ((db.settingsClients i)[position db i email]).email email = true :=
    findIdx_getElem (w := hlt)
  rw [hget, Text.equalFold, beq_iff_eq] at hfold
  rw [key, Text.toLower, Text.toLower, hfold]

theorem Sole.others {old : Client} {n : Nat} {m : String} (h : Sole db i m)
    (hold : (db.settingsClients i)[n]? = some old) (hkey : key old = m) :
    ∀ e ∈ (db.settingsClients i).eraseIdx n ++ elsewhere db i, key e ≠ m := by
  obtain ⟨hlt, hget⟩ := List.getElem?_eq_some_iff.mp hold
  intro e he hsame
  rcases mem_append.mp he with he | he
  · have hperm := (getElem_cons_eraseIdx_perm hlt).map key
    have hcount := hperm.count_eq m
    rw [map_cons, hget, hkey, count_cons_self] at hcount
    have hpos : 0 < (((db.settingsClients i).eraseIdx n).map key).count m :=
      count_pos_iff.mpr (hsame ▸ mem_map_of_mem he)
    have hle := h.1
    omega
  · obtain ⟨j, hne, hj⟩ := mem_elsewhere.mp he
    exact h.2 j hne (hsame ▸ mem_map_of_mem hj)

theorem Stored.sameKeys {n : Nat} {old new : Client}
    (hstored : Stored i ((db.settingsClients i).set n new) db db')
    (hold : (db.settingsClients i)[n]? = some old) (hkey : key new = key old) : SameKeys db db' := by
  obtain ⟨hlt, hget⟩ := List.getElem?_eq_some_iff.mp hold
  intro j
  rw [hstored j]
  split
  case isTrue hj =>
    have hlt' : n < ((db.settingsClients i).map key).length := by simpa using hlt
    have hself : ((db.settingsClients i).map key)[n] = key new := by
      rw [getElem_map, hget, hkey]
    rw [hj, map_set, ← hself, set_getElem_self]
  case isFalse => rfl

theorem Sole.fits {o : Attempt} {client : Client} (h : Sole db i (key client))
    (hplain : Plain dialect client.email client.subID) (hvisible : Text.trimSpace client.subID ≠ "") :
    Fits dialect db (.updateInboundClient o i client client.email) := by
  intro old hold
  have hothers := h.others hold (key_of_position hold)
  refine ⟨?_, ?_, ?_⟩
  · rw [restampEntry_email, restampEntry_subID hvisible]
    exact hplain
  · intro e he hsame
    exact hothers e (mem_append_left _ he) (congrArg Text.toLower hsame)
  · intro _ e he hsame
    exact absurd hsame (hothers e he)

structure Selectable (dialect : Dialect) (db : DB) (i : Int) (source : Client) : Prop where
  plain : Plain dialect source.email source.subID
  copyable : Copyable db i source

theorem writeBackClientSubID_sound (h : Sound dialect db) (hsource : Selectable dialect db i source)
    (hwrite : writeBackClientSubID dialect d k db i source = .ok (db', source')) :
    Sound dialect db' ∧ SameKeys db db' ∧ source'.email = source.email ∧
      Plain dialect source'.email source'.subID := by
  rw [writeBackClientSubID] at hwrite
  split at hwrite
  case isFalse =>
    cases hwrite
    exact ⟨h, fun _ => rfl, rfl, hsource.plain⟩
  case isTrue hblank =>
    simp only [bind_ok] at hwrite
    obtain ⟨mid, hupdate, hwrite⟩ := hwrite
    cases hwrite
    have hsole := hsource.copyable.2 hblank
    have hplain : Plain dialect source.email (d.uuid k) := ⟨hsource.plain.email, token_plain dialect (d.uuid k)⟩
    have hvisible : Text.trimSpace (d.uuid k : String) ≠ "" := by
      rw [token_trimmed]
      exact token_ne (d.uuid k)
    obtain ⟨old, hold, -, -, hstored⟩ := updateInboundClient_spec hupdate
    have hfits := @Sole.fits dialect db i (d.writeBack k)
      { source with subID := d.uuid k, updatedAt := d.now } hsole hplain hvisible
    refine ⟨updateInboundClient_sound h hfits hupdate, hstored.sameKeys hold ?_, rfl, hplain⟩
    rw [key_restampEntry]
    exact (key_of_position hold).symm

theorem buildTargetClientFromSource_keeps (d : CopyDraws) (k : Nat) (source : Client) (target : Inbound)
    (email flow : String) :
    (buildTargetClientFromSource d k source target email flow).email = email ∧
      (buildTargetClientFromSource d k source target email flow).subID = source.subID := by
  rw [buildTargetClientFromSource]
  split <;> exact ⟨rfl, rfl⟩

structure Copied (dialect : Dialect) (occupied : List String) (c : Client) : Prop where
  plain : Plain dialect c.email c.subID
  unquoted : Unquoted c.email
  named : c.email ≠ ""
  fresh : key c ∉ occupied

theorem selected_named (h : selected allowed source = true) : Text.trimSpace source.email ≠ "" := by
  rw [selected, Bool.and_eq_true] at h
  simpa using h.1

theorem copyClients_sound {sources : List Client} (h : Sound dialect db)
    (hsources : ∀ source ∈ sources, selected allowed source = true → Selectable dialect db i source) :
    Sound dialect (copyClients dialect d targetIb i allowed flow k db occupied sources).1 ∧
      SameKeys db (copyClients dialect d targetIb i allowed flow k db occupied sources).1 ∧
      (∀ c ∈ (copyClients dialect d targetIb i allowed flow k db occupied sources).2,
        Copied dialect occupied c) ∧
      ((copyClients dialect d targetIb i allowed flow k db occupied sources).2.map key).Nodup := by
  induction sources generalizing k db occupied with
  | nil => exact ⟨h, fun _ => rfl, fun _ hc => absurd hc not_mem_nil, nodup_nil⟩
  | cons source sources ih =>
    have hrest : ∀ source ∈ sources, selected allowed source = true → Selectable dialect db i source :=
      fun source hsource => hsources source (mem_cons_of_mem _ hsource)
    rw [copyClients]
    split
    case isFalse => exact ih h hrest
    case isTrue hselected =>
      have hsource := hsources source mem_cons_self hselected
      split
      case h_1 => exact ih h hrest
      case h_2 db₁ source₁ hwrite =>
        obtain ⟨hsound, hkeys, hemail, hplain⟩ := writeBackClientSubID_sound h hsource hwrite
        have hnamed := selected_named hselected
        rw [← hemail] at hnamed
        have hhead := hsource.copyable.1
        rw [← hemail] at hhead
        obtain ⟨rest, n, hends⟩ :=
          nextAvailableCopiedEmail_ends (Text.trimSpace source₁.email) targetIb.id occupied
        have hunquoted : Unquoted (nextAvailableCopiedEmail (Text.trimSpace source₁.email) targetIb.id
            occupied) := hends ▸ unquoted_numbered hnamed hhead
        have hfresh := nextAvailableCopiedEmail_fresh (Text.trimSpace source₁.email) targetIb.id occupied
        obtain ⟨hname, hsub⟩ := buildTargetClientFromSource_keeps d k source₁ targetIb
          (nextAvailableCopiedEmail (Text.trimSpace source₁.email) targetIb.id occupied) flow
        have hrest₁ : ∀ source ∈ sources, selected allowed source = true → Selectable dialect db₁ i source := by
          intro source hmem hsel
          obtain ⟨hplain, hhead, hsole⟩ := hrest source hmem hsel
          exact ⟨hplain, hhead, fun hblank => hkeys.sole (hsole hblank)⟩
        obtain ⟨hsound', hkeys', hcopied, hnodup⟩ := @ih db₁ (Text.toLower
          (nextAvailableCopiedEmail (Text.trimSpace source₁.email) targetIb.id occupied) :: occupied)
          (k + 1) hsound hrest₁
        refine ⟨hsound', fun j => (hkeys' j).trans (hkeys j), ?_, ?_⟩
        · intro c hc
          rcases mem_cons.mp hc with rfl | hc
          · refine ⟨?_, ?_, ?_, ?_⟩
            · rw [hname, hsub]
              exact ⟨jsonFieldText_of_edges dialect hunquoted.head hunquoted.last, hplain.subID⟩
            · rw [hname]
              exact hunquoted
            · rw [hname, hends]
              intro hblank
              rw [String.append_eq_empty_iff, String.append_eq_empty_iff] at hblank
              exact hnamed hblank.1.1
            · rw [key, hname]
              exact hfresh
          · obtain ⟨hplain, hunquoted, hnamed, hfresh⟩ := hcopied c hc
            exact ⟨hplain, hunquoted, hnamed, fun hmem => hfresh (mem_cons_of_mem _ hmem)⟩
        · rw [map_cons, nodup_cons]
          refine ⟨?_, hnodup⟩
          intro hmem
          obtain ⟨c, hc, hkey⟩ := mem_map.mp hmem
          refine (hcopied c hc).fresh ?_
          rw [hkey, key, hname]
          exact mem_cons_self

theorem Copied.apart {c e : Client} (h : Sound dialect db) (hc : Copied dialect (occupiedEmails dialect db) c)
    (he : e ∈ allClients db) : key e ≠ key c := by
  intro hsame
  have hunquoted := hc.unquoted.of_lower hsame
  have hnamed : e.email ≠ "" := by
    intro hblank
    rw [key, key, hblank] at hsame
    exact toLower_ne hc.named hsame.symm
  have hread : trimQuotes (jsonFieldText dialect e.email) = e.email := by
    rw [(h.plain e he).email]
    exact trimQuotes_of_edges hunquoted.head hunquoted.last
  refine hc.fresh ?_
  rw [← hsame, occupiedEmails]
  refine mem_map_of_mem (mem_filter.mpr ⟨mem_map.mpr ⟨e, he, hread⟩, ?_⟩)
  simpa using hnamed

theorem copied_addable (h : Sound dialect db) (hkeys : SameKeys db db')
    (hcopied : ∀ c ∈ clients, Copied dialect (occupiedEmails dialect db) c)
    (hnodup : (clients.map key).Nodup) : Addable dialect db' i clients := by
  have hapart : ∀ c ∈ clients, ∀ e ∈ allClients db', key e ≠ key c := by
    intro c hc e he
    obtain ⟨e₀, he₀, hkey⟩ := hkeys.mem he
    rw [← hkey]
    exact (hcopied c hc).apart h he₀
  refine ⟨⟨fun c hc => (hcopied c hc).plain, ?_⟩, ?_, ?_⟩
  · refine List.Nodup.of_map Text.toLower ?_
    rw [map_map]
    exact hnodup
  · intro c hc e he hsame
    have hall := mem_allClients.mpr ⟨i, mem_of_mem_filter he⟩
    exact hapart c hc e hall (congrArg Text.toLower hsame)
  · intro c hc _ _
    refine ⟨hapart c hc, ?_⟩
    intro c' hc' hsame
    rw [inj_on_of_nodup_map hnodup hc' hc hsame]

theorem copyInboundClients_sound {targetId sourceId : Int} {clientEmails : List String} (h : Sound dialect db)
    (hfits : Fits dialect db (.copyInboundClients d targetId sourceId clientEmails flow)) :
    Sound dialect (copyInboundClients dialect d db targetId sourceId clientEmails flow).1 := by
  rw [copyInboundClients]
  split
  · exact h
  · split
    · exact h
    · split
      case h_2 => exact h
      case h_1 target source htarget hsource =>
        have hsettings : source.clients.getD [] = db.settingsClients sourceId :=
          (settingsClients_find hsource).symm
        have hselectable : ∀ c ∈ source.clients.getD [], selected (allowedEmails clientEmails) c = true →
            Selectable dialect db sourceId c := by
          rw [hsettings]
          exact fun c hc hsel => ⟨(h.listable sourceId).plain c hc, hfits c hc hsel⟩
        obtain ⟨hsound, hkeys, hcopied, hnodup⟩ := @copyClients_sound dialect d db (occupiedEmails dialect db)
          (allowedEmails clientEmails) flow target sourceId 0 _ h hselectable
        dsimp only
        split
        · exact hsound
        · split
          case h_1 => exact hsound
          case h_2 hadd => exact addInboundClient_sound hsound (copied_addable h hkeys hcopied hnodup) hadd

end copying

section runs

variable {env : Env} {dialect : Dialect} {db : DB} {event : Event}

theorem orKept_sound {r : Except String DB} (h : Sound dialect db) (hr : ∀ db', r = .ok db' → Sound dialect db') :
    Sound dialect (orKept db r) := by
  cases r with
  | error e => exact h
  | ok db' => exact hr db' rfl

theorem step_sound (h : Sound dialect db) (hfits : Fits dialect db event) :
    Sound dialect (step env dialect db event) := by
  cases event with
  | addInbound => exact orKept_sound h fun _ hadd => addInbound_sound h hfits hadd
  | updateInbound => exact orKept_sound h fun _ hupdate => updateInbound_sound h hfits hupdate
  | addInboundClient => exact orKept_sound h fun _ hadd => addInboundClient_sound h hfits hadd
  | updateInboundClient => exact orKept_sound h fun _ hupdate => updateInboundClient_sound h hfits hupdate
  | create => exact create_sound h hfits
  | attach => exact attach_sound h hfits
  | copyInboundClients => exact copyInboundClients_sound h hfits

theorem emptyPanel_sound (dialect : Dialect) : Sound dialect emptyPanel :=
  ⟨⟨fun _ hc => absurd hc not_mem_nil, fun _ => nodup_nil⟩, fun _ hc => absurd hc not_mem_nil⟩

end runs

def entry (email subID : String) : Client := { RuntimePush.bob true with email, subID }

def openSave : SaveDraws := ⟨none, fun _ => 0, fun _ => 0⟩

def vlessRequest (clients : List Client) : InboundRequest := ⟨.vless, none, "", false, some clients, []⟩

def settled : Attempt := attemptWith (.ok true)

def drawsWith (o : Attempt) : Draws :=
  ⟨0, o.uuid, o.subID, o.secret, o.secret, o.uuid, fun _ => o, none⟩

def bobListed : List Event :=
  [.addInbound openSave (vlessRequest [entry "bob" "s1"]), .addInbound openSave (vlessRequest [])]

def bobAttached : List Event := bobListed ++ [Event.attach (drawsWith settled) 1 [2]]

end OneEmail

end QuiPanel
