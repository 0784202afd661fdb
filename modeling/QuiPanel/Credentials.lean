import QuiPanel.Entitlement
import QuiPanel.OneEmail
import QuiPanel.Library.Base64

namespace QuiPanel

namespace Credentials

open Keyed Outcome Trace Clients List
open Ports (Protocol)
open OneEmail (Dialect readAs)

section keys

def shadowsocksKeyBytes (method : String) : Nat :=
  if method = "2022-blake3-aes-128-gcm" then 16
  else if method = "2022-blake3-aes-256-gcm" ∨ method = "2022-blake3-chacha20-poly1305" then 32
  else 0

def validShadowsocksClientKey (method key : String) : Bool :=
  let n := shadowsocksKeyBytes method
  if n = 0 then key != "" else (Base64.decode key.toList).any (·.length = n)

def base64Bytes (bytes : Nat → UInt8) (n : Nat) : String :=
  String.ofList (Base64.encode ((List.range n).map bytes))

theorem base64Bytes_ne {bytes : Nat → UInt8} {n : Nat} (h : n ≠ 0) : base64Bytes bytes n ≠ "" := by
  have hne : (List.range n).map bytes ≠ [] := by simpa using h
  intro hblank
  refine Base64.encode_ne_nil hne ?_
  rw [← String.toList_ofList (l := Base64.encode _)]
  exact congrArg String.toList hblank

def randomShadowsocksClientKey (bytes : Nat → UInt8) (token : Token) (method : String) :
    { s : String // s ≠ "" } :=
  if h : shadowsocksKeyBytes method ≠ 0 then
    ⟨base64Bytes bytes (shadowsocksKeyBytes method), base64Bytes_ne h⟩
  else ⟨token, token.property.1⟩

def withKeys (bytes : Nat → UInt8) (o : Attempt) : Attempt :=
  { o with shadowsocksKey := randomShadowsocksClientKey bytes o.secret }

def panelEnv (env : Env) : Env := { env with validShadowsocksClientKey }

structure KeyDraws extends Draws where
  bytes : Nat → Nat → UInt8

def KeyDraws.draws (d : KeyDraws) : Draws :=
  { d.toDraws with attempts := fun k => withKeys (d.bytes k) (d.attempts k) }

end keys

section generated

structure Entry where
  email : String
  id : String
  security : String
  password : String
  flow : String
  reverse : Option String
  auth : String
  deriving DecidableEq

def coreFlow (flow : String) : String :=
  if flow = "xtls-rprx-vision-udp443" then "xtls-rprx-vision" else flow

def entry (protocol : Protocol) (c : Client) : Entry :=
  let bare : Entry := ⟨c.email, "", "", "", "", none, ""⟩
  match protocol with
  | .vless => { bare with id := c.id, flow := coreFlow c.flow, reverse := c.reverse }
  | .vmess => { bare with id := c.id, security := c.security }
  | .trojan => { bare with password := c.password, flow := coreFlow c.flow }
  | .shadowsocks => { bare with password := c.password }
  | .hysteria => { bare with auth := c.auth }
  | _ => bare

variable (db : DB)

def listForInbound (inboundId : Int) : List Client :=
  (db.records.rows.insertionSort fun r r' => r.recordId ≤ r'.recordId).flatMap fun r =>
    (db.links.filter fun l => l.clientId = r.recordId ∧ l.inboundId = inboundId).map fun l =>
      { r.toClient with flow := l.flowOverride }

def finalClients (ib : Inbound) (clientStats : List ClientTraffic) : List Entry :=
  ((listForInbound db ib.id).filter fun c =>
    RuntimePush.enableMap clientStats c.email ≠ some false && c.enable).map (entry ib.protocol)

def getXrayConfig (enabled : Int → Bool) (clientStats : Int → List ClientTraffic) :
    List (Inbound × List Entry) :=
  (db.inbounds.rows.filter fun ib => enabled ib.id && ib.nodeId.isNone && ib.protocol != .mtproto).map
    fun ib => (ib, finalClients db ib (clientStats ib.id))

end generated

section operations

variable (env : Env) (dialect : Dialect) (d : Draws)

def addInboundClient (o : Attempt) (listed db : DB) (subIDs : Nat → Token) (inboundId : Int)
    (clients : List Client) : Except String DB := do
  let existEmail := checkEmailsExist (readAs dialect listed) clients []
  check existEmail.isNone ("Duplicate email: " ++ existEmail.getD "" ++ "\n")
  let oldInbound ← orErr (db.inbounds.find inboundId) errNotFound
  checkCredentials oldInbound.protocol clients
  let oldClients ← orErr oldInbound.clients "interface conversion: interface {} is nil, not []interface {}"
  let stamped := clients.mapIdx fun k c => stampEntry { o with subID := subIDs k } c
  let newClients := compactOrphans db oldClients ++ stamped
  let push ← o.plan
  let traffics :=
    if oldInbound.nodeId.isSome ∨ push then clients.foldl (addClientStat inboundId) db.traffics
    else db.traffics
  check o.write.isNone (o.write.getD "")
  syncInbound (saveClients { db with traffics } inboundId newClients) inboundId newClients

def updateInInbounds (oldEmail : String) (clientId : Int) :
    Nat → DB → Client → List Int → DB × Except String Client
  | _, db, updated, [] => (db, .ok updated)
  | k, db, updated, ibId :: ids =>
    match db.inbounds.find ibId with
    | none =>
      let links := db.links.filter fun l => !(l.clientId == clientId && l.inboundId == ibId)
      updateInInbounds oldEmail clientId (k + 1) { db with links } updated ids
    | some inbound =>
      if oldEmail = "" then updateInInbounds oldEmail clientId (k + 1) db updated ids
      else
        let updated := fillProtocolDefaults env (d.attempts k) updated inbound
        match OneEmail.updateInboundClient dialect (d.attempts k) db ibId
          (clientWithInboundFlow updated inbound) oldEmail with
        | .error e => (db, .error e)
        | .ok db => updateInInbounds oldEmail clientId (k + 1) db updated ids

def update (db : DB) (id : Int) (updated : Client) (inboundFilter : List Int) : DB × Except String Unit :=
  match db.records.find id with
  | none => (db, .error errNotFound)
  | some existing =>
    let linked := db.inboundIdsOf id
    let inboundIds := if inboundFilter = [] then linked else linked.filter inboundFilter.contains
    match prepareUpdate d db existing updated with
    | .error e => (db, .error e)
    | .ok updated =>
      let db := if updated.email = existing.email then db else renameRecord db id updated.email
      if db.records.rows.any fun r => r.subID == updated.subID && r.recordId != id then
        (db, .error errSubIdInUse)
      else
        andThen (updateInInbounds env dialect d existing.email id 0 db updated inboundIds) fun db updated =>
          match d.stamp with
          | some e => (db, .error e)
          | none => (setReverse db id (updated.reverse.filter (Text.trimSpace · != "")) d.now, .ok ())

def rotate (db : DB) (email : String) (opts : RotateOptions) : DB × Except String Unit :=
  match db.record email with
  | none => (db, .error errNotFound)
  | some rec =>
    if email = "" then (db, .error errNotFound)
    else update env dialect d db rec.recordId (rotated d rec opts) []

end operations

section bulk

structure BulkDraws where
  subID : Nat → Token
  now : Nat → Int
  listed : Bool
  lookup : Option String
  fill : Nat → Nat → Attempt
  bytes : Nat → Nat → Nat → UInt8
  add : Int → Attempt
  subIDs : Int → Nat → Token

structure Prepared where
  client : Client
  inboundIds : List Int

structure BulkCreateReport where
  email : String
  reason : String

structure BulkCreateResult where
  created : Nat
  skipped : List BulkCreateReport

def skip (email reason : String) : BulkCreateReport :=
  ⟨if Text.trimSpace email = "" then "(missing email)" else email, reason⟩

variable (env : Env) (dialect : Dialect) (d : BulkDraws)

def preparePayload (k : Nat) (seenEmail : List String) (seenSubID : List (String × String))
    (payload : ClientCreatePayload) : Except BulkCreateReport Prepared := do
  let client := payload.client
  let email := Text.trimSpace client.email
  check (email != "") (skip "" "client email is required")
  check (!hasForbiddenClientChar email)
    (skip email ("client email contains an invalid character: " ++ email ++ "\n"))
  check (!hasForbiddenClientChar client.subID)
    (skip email ("client subId contains an invalid character: " ++ client.subID ++ "\n"))
  check (!payload.inboundIds.isEmpty) (skip email "at least one inbound is required")
  let client := { client with
    email
    subID := if client.subID = "" then d.subID k else client.subID
    enable := true
    createdAt := if client.createdAt = 0 then d.now k else client.createdAt
    updatedAt := d.now k }
  let le := Text.toLower email
  check (!seenEmail.contains le) (skip email ("email already in use: " ++ email))
  check ((seenSubID.find? (·.1 = client.subID)).all (·.2 = le))
    (skip email ("subId already in use: " ++ client.subID))
  return ⟨client, payload.inboundIds⟩

def preparePayloads : Nat → List String → List (String × String) → List ClientCreatePayload →
    List Prepared × List BulkCreateReport
  | _, _, _, [] => ([], [])
  | k, seenEmail, seenSubID, payload :: payloads =>
    match preparePayload d k seenEmail seenSubID payload with
    | .error report =>
      let (prep, skipped) := preparePayloads (k + 1) seenEmail seenSubID payloads
      (prep, report :: skipped)
    | .ok p =>
      let le := Text.toLower p.client.email
      let (prep, skipped) := preparePayloads (k + 1) (le :: seenEmail) ((p.client.subID, le) :: seenSubID) payloads
      (p :: prep, skipped)

def fillAll (db : DB) (idx : Nat) : Nat → Client → List Int → Except String Client
  | _, client, [] => .ok client
  | k, client, ibId :: ids => do
    let o := withKeys (d.bytes idx k) (d.fill idx k)
    check o.read.isNone (o.read.getD "")
    let inbound ← orErr (db.inbounds.find ibId) errNotFound
    fillAll db idx (k + 1) (fillProtocolDefaults env o client inbound) ids

def fillPrepared (db : DB) (prep : List Prepared) (idx : Nat) (p : Prepared) : Except String Client := do
  let le := Text.toLower p.client.email
  let existing := db.records.rows.reverse.find? fun r =>
    prep.any (·.client.email == r.email) && Text.toLower r.email == le
  check (existing.all (·.subID == p.client.subID)) ("email already in use: " ++ p.client.email)
  let owner := db.records.rows.reverse.find? (·.subID = p.client.subID)
  check (owner.all (Text.toLower ·.email == le)) ("subId already in use: " ++ p.client.subID)
  fillAll env d db idx 0 p.client p.inboundIds

def admitted (db : DB) (prep : List Prepared) : List (List Int × Except String Client) :=
  prep.mapIdx fun idx p => (p.inboundIds, fillPrepared env d db prep idx p)

def byInbound (db : DB) (admitted : List (List Int × Except String Client)) (ibId : Int) : List Client :=
  admitted.flatMap fun
    | (_, .error _) => []
    | (ids, .ok client) =>
      (ids.filter (· = ibId)).map fun _ =>
        ((db.inbounds.find ibId).map (clientWithInboundFlow client)).getD client

def inboundOrder (admitted : List (List Int × Except String Client)) : List Int :=
  (admitted.flatMap fun
    | (_, .error _) => []
    | (ids, .ok _) => ids).eraseDups

def addAll (listed : Option DB) (byInbound : Int → List Client) : DB → List Int → DB × List (Int × String)
  | db, [] => (db, [])
  | db, ibId :: ids =>
    match addInboundClient dialect (d.add ibId) (listed.getD db) db (d.subIDs ibId) ibId (byInbound ibId) with
    | .error e =>
      let (db, errs) := addAll listed byInbound db ids
      (db, (ibId, e) :: errs)
    | .ok db => addAll listed byInbound db ids

def failure (errs : List (Int × String)) : List Int × Except String Client → Option String
  | (_, .error e) => some e
  | (ids, .ok _) => (errs.find? fun r => ids.contains r.1).map (·.2)

def bulkCreate (db : DB) (payloads : List ClientCreatePayload) : DB × Except String BulkCreateResult :=
  match preparePayloads d 0 [] [] payloads with
  | ([], skipped) => (db, .ok ⟨0, skipped⟩)
  | (prep, skipped) =>
    match d.lookup with
    | some e => (db, .error e)
    | none =>
      let admitted := admitted env d db prep
      let (db', errs) := addAll dialect d (if d.listed then some db else none) (byInbound db admitted) db
        (inboundOrder admitted)
      let failed := (prep.zip admitted).filterMap fun (p, a) =>
        (failure errs a).map (skip p.client.email)
      (db', .ok ⟨prep.length - failed.length, skipped ++ failed⟩)

end bulk

inductive Event
  | create (d : KeyDraws) (payload : ClientCreatePayload)
  | bulkCreate (d : BulkDraws) (payloads : List ClientCreatePayload)
  | attach (d : KeyDraws) (id : Int) (inboundIds : List Int)
  | update (d : KeyDraws) (id : Int) (updated : Client) (inboundFilter : List Int)
  | rotate (d : KeyDraws) (email : String) (opts : RotateOptions)

def call (env : Env) (dialect : Dialect) (db : DB) : Event → DB × Except String Unit
  | .create d payload => OneEmail.create (panelEnv env) dialect d.draws db payload
  | .bulkCreate d payloads =>
    let (db, result) := bulkCreate (panelEnv env) dialect d db payloads
    (db, result.map fun _ => ())
  | .attach d id inboundIds => OneEmail.attach (panelEnv env) dialect d.draws db id inboundIds
  | .update d id updated inboundFilter => update (panelEnv env) dialect d.draws db id updated inboundFilter
  | .rotate d email opts => rotate (panelEnv env) dialect d.draws db email opts

def step (env : Env) (dialect : Dialect) (db : DB) (e : Event) : DB := (call env dialect db e).1

def Successful (env : Env) (dialect : Dialect) (db : DB) (e : Event) : Prop :=
  (call env dialect db e).2 = .ok ()

structure EmptyPanel (db : DB) : Prop where
  settings : ∀ i, db.settingsClients i = []
  records : db.records.rows = []
  links : db.links = []

section specification

def Keyed (method key : String) : Prop :=
  shadowsocksKeyBytes method ≠ 0 →
    ∃ bs, Base64.decode key.toList = some bs ∧ bs.length = shadowsocksKeyBytes method

def credentialOf (protocol : Protocol) (e : Entry) : Option String :=
  match protocol with
  | .vmess | .vless => some e.id
  | .trojan | .shadowsocks => some e.password
  | .hysteria => some e.auth
  | _ => none

structure Loadable (ib : Inbound) (e : Entry) : Prop where
  present : credentialOf ib.protocol e ≠ some ""
  keyed : ib.protocol = .shadowsocks → Keyed ib.method e.password

def AllLoadable (db : DB) : Prop :=
  ∀ enabled clientStats, ∀ g ∈ getXrayConfig db enabled clientStats, ∀ e ∈ g.2, Loadable g.1 e

def AttachKeeps (db db' : DB) : Event → Prop
  | .attach _ id _ => ∀ x, db.records.find id = some x →
    ∀ ib ∈ db.inbounds.rows, ∀ stats stats',
      ∀ e ∈ finalClients db ib stats, ∀ e' ∈ finalClients db' ib stats',
        e.email = x.email → e'.email = x.email → credentialOf ib.protocol e' = credentialOf ib.protocol e
  | _ => True

end specification

section conditions

structure Kind where
  protocol : Protocol
  method : String

def kindOf (ib : Inbound) : Kind := ⟨ib.protocol, ib.method⟩

def kindAt (db : DB) (i : Int) : Option Kind := (db.inbounds.find i).map kindOf

inductive Key
  | given (password : String)
  | token
  | key (bytes : Nat)
  deriving DecidableEq

def Key.opens (kind : Kind) : Key → Bool
  | .given p => kind.protocol != .shadowsocks || validShadowsocksClientKey kind.method p
  | .token => kind.protocol != .shadowsocks || shadowsocksKeyBytes kind.method == 0
  | .key n =>
    kind.protocol != .shadowsocks || shadowsocksKeyBytes kind.method == 0 || shadowsocksKeyBytes kind.method == n

def fresh (kind : Kind) : Key :=
  if shadowsocksKeyBytes kind.method = 0 then .token else .key (shadowsocksKeyBytes kind.method)

def Key.next (k : Key) (kind : Kind) : Key :=
  match kind.protocol with
  | .trojan => if k = .given "" then .token else k
  | .shadowsocks => if k.opens kind then k else fresh kind
  | _ => k

def trail : Key → List Kind → List Key
  | _, [] => []
  | k, kind :: kinds => k.next kind :: trail (k.next kind) kinds

def Holds (db : DB) (email : String) (i : Int) : Prop :=
  (∃ e ∈ db.settingsClients i, Text.trimSpace e.email = email) ∨
    ∃ r ∈ db.records.rows, r.email = email ∧ ∃ l ∈ db.links, l.clientId = r.recordId ∧ l.inboundId = i

structure Placeable (db : DB) (email : String) (keys : List Key) (ids : List Int) : Prop where
  opens : ∀ k ∈ keys, k ≠ .given "" → ∀ i kind, kindAt db i = some kind → i ∈ ids ∨ Holds db email i →
    k.opens kind = true
  kept : ∀ i, ∀ e ∈ db.settingsClients i, Text.trimSpace e.email = email → e.password ≠ "" →
    ∀ j ∈ ids, ∀ kind, kindAt db j = some kind → (Key.given e.password).opens kind = true

def needsPassword (kind : Kind) : Prop := kind.protocol = .trojan ∨ kind.protocol = .shadowsocks

def UpdatePlaceable (d : Draws) (db : DB) (existing : ClientRecord) (updated : Client)
    (inboundFilter : List Int) : Prop :=
  ∀ client, prepareUpdate d db existing updated = .ok client →
    let linked := db.inboundIdsOf existing.recordId
    let ids := if inboundFilter = [] then linked else linked.filter inboundFilter.contains
    Placeable db (Text.trimSpace client.email) (trail (.given client.password) (ids.filterMap (kindAt db)))
      linked

def Fits (env : Env) (db : DB) : Event → Prop
  | .create d payload => ∀ client, prepare d.draws db payload = .ok client →
    Placeable db (Text.trimSpace client.email)
      (trail (.given client.password) (payload.inboundIds.filterMap (kindAt db))) payload.inboundIds
  | .bulkCreate d payloads =>
    let prep := (preparePayloads d 0 [] [] payloads).1
    ∀ idx, ∀ p, prep[idx]? = some p → (fillPrepared (panelEnv env) d db prep idx p).isOk = true →
      Placeable db (Text.trimSpace p.client.email)
        [(p.inboundIds.filterMap (kindAt db)).foldl Key.next (.given p.client.password)] p.inboundIds
  | .attach _ id inboundIds => ∀ existing, db.records.find id = some existing →
    let ids := inboundIds.filter fun i => !(db.inboundIdsOf id).contains i
    Placeable db (Text.trimSpace existing.email)
      ((ids.filterMap (kindAt db)).map (Key.next (.given existing.password))) ids ∧
    ((∃ i ∈ db.inboundIdsOf id, ∃ kind, kindAt db i = some kind ∧ needsPassword kind) →
      ∀ i ∈ ids, ∀ kind, kindAt db i = some kind → (Key.given existing.password).opens kind = true)
  | .update d id updated inboundFilter => ∀ existing, db.records.find id = some existing →
    UpdatePlaceable d.draws db existing updated inboundFilter
  | .rotate d email opts => ∀ existing, db.record email = some existing →
    UpdatePlaceable d.draws db existing (rotated d.draws existing opts) []

end conditions

section passwords

variable {k : Key} {kind : Kind} {p q : String} {db db' : DB} {c : Client} {ib : Inbound} {o : Attempt}
  {bytes : Nat → UInt8} {env : Env}

inductive Describes : Key → String → Prop
  | given (p : String) : Describes (.given p) p
  | token (p : String) (hne : p ≠ "") (hpad : '=' ∉ p.toList) : Describes .token p
  | key (bs : List UInt8) (hne : bs ≠ []) : Describes (.key bs.length) (String.ofList (Base64.encode bs))

theorem shadowsocksKeyBytes_cases (method : String) :
    shadowsocksKeyBytes method = 0 ∨ shadowsocksKeyBytes method = 16 ∨ shadowsocksKeyBytes method = 32 := by
  rw [shadowsocksKeyBytes]
  split
  · exact .inr (.inl rfl)
  · split
    · exact .inr (.inr rfl)
    · exact .inl rfl

variable {method : String}

theorem valid_iff (h : shadowsocksKeyBytes method ≠ 0) :
    validShadowsocksClientKey method p = true ↔
      ∃ bs, Base64.decode p.toList = some bs ∧ bs.length = shadowsocksKeyBytes method := by
  simp only [validShadowsocksClientKey, if_neg h, Option.any_eq_true, decide_eq_true_eq]

theorem valid_legacy (h : shadowsocksKeyBytes method = 0) :
    validShadowsocksClientKey method p = true ↔ p ≠ "" := by
  simp only [validShadowsocksClientKey, if_pos h, bne_iff_ne]

theorem valid_ne (h : validShadowsocksClientKey method p = true) : p ≠ "" := by
  by_cases hlegacy : shadowsocksKeyBytes method = 0
  · exact (valid_legacy hlegacy).mp h
  · rintro rfl
    obtain ⟨bs, hdecode, hlen⟩ := (valid_iff hlegacy).mp h
    obtain rfl : bs = [] := (Option.some.inj hdecode).symm
    exact hlegacy hlen.symm

theorem Describes.eq (h : Describes (.given p) q) : q = p := by
  cases h
  rfl

theorem Describes.ne (h : Describes k q) (hk : k ≠ .given "") : q ≠ "" := by
  cases h with
  | given p =>
    rintro rfl
    exact hk rfl
  | token p hne _ => exact hne
  | key bs hne =>
    intro hblank
    refine Base64.encode_ne_nil hne ?_
    rw [← String.toList_ofList (l := Base64.encode bs), hblank]
    rfl

theorem Describes.opens_iff (h : Describes k q) : k.opens kind = true ↔ (Key.given q).opens kind = true := by
  cases h with
  | given p => exact Iff.rfl
  | token p hne hpad =>
    simp only [Key.opens, Bool.or_eq_true]
    refine or_congr_right ?_
    rw [beq_iff_eq]
    constructor
    · exact fun hlegacy => (valid_legacy hlegacy).mpr hne
    · intro hvalid
      by_contra hmodern
      obtain ⟨bs, hdecode, hlen⟩ := (valid_iff hmodern).mp hvalid
      have hthree := Base64.decode_unpadded hpad hdecode
      rcases shadowsocksKeyBytes_cases kind.method with h | h | h <;> omega
  | key bs hne =>
    simp only [Key.opens, Bool.or_eq_true, or_assoc]
    refine or_congr_right ?_
    rw [beq_iff_eq, beq_iff_eq]
    have hround := Base64.decode_encode bs
    rw [← String.toList_ofList (l := Base64.encode bs)] at hround
    by_cases hlegacy : shadowsocksKeyBytes kind.method = 0
    · have hblank := (Describes.key bs hne).ne (by simp)
      exact ⟨fun _ => (valid_legacy hlegacy).mpr hblank, fun _ => .inl hlegacy⟩
    · rw [valid_iff hlegacy]
      constructor
      · rintro (h | h)
        · exact absurd h hlegacy
        · exact ⟨bs, hround, h.symm⟩
      · rintro ⟨bs', hdecode, hlen⟩
        obtain rfl := Option.some.inj (hround.symm.trans hdecode)
        exact .inr hlen.symm

theorem describes_token (token : Token) : Describes .token token := by
  refine .token _ token.property.1 fun hmem => ?_
  have hplain := all_eq_true.mp token.property.2 _ hmem
  exact absurd hplain (by decide)

theorem describes_fresh (token : Token) (kind : Kind) :
    Describes (fresh kind) (randomShadowsocksClientKey bytes token kind.method) := by
  rw [fresh, randomShadowsocksClientKey]
  split
  case isTrue hlegacy =>
    rw [dif_neg (not_not.mpr hlegacy)]
    exact describes_token token
  case isFalse hmodern =>
    have hlen : ((List.range (shadowsocksKeyBytes kind.method)).map bytes).length =
        shadowsocksKeyBytes kind.method := by
      rw [length_map, length_range]
    have hkey := Describes.key ((List.range (shadowsocksKeyBytes kind.method)).map bytes)
      (by simpa using hmodern)
    rw [hlen] at hkey
    exact hkey

theorem opens_fresh (kind : Kind) : (fresh kind).opens kind = true := by
  rw [fresh]
  split
  case isTrue hlegacy => simp [Key.opens, hlegacy]
  case isFalse => simp [Key.opens]

inductive Secret
  | id
  | password
  | auth

def Secret.of : Secret → Client → String
  | .id, c => c.id
  | .password, c => c.password
  | .auth, c => c.auth

def asks : Protocol → Option Secret
  | .vmess | .vless => some .id
  | .trojan | .shadowsocks => some .password
  | .hysteria => some .auth
  | _ => none

def Suits (kind : Kind) (c : Client) : Prop :=
  ∀ s, asks kind.protocol = some s → s.of c ≠ "" ∧ (s = .password → (Key.given c.password).opens kind = true)

theorem needsPassword_iff : needsPassword kind ↔ asks kind.protocol = some .password := by
  rw [needsPassword]
  cases kind.protocol <;> simp [asks]

theorem entry_email (protocol : Protocol) (c : Client) : (entry protocol c).email = c.email := by
  cases protocol <;> rfl

theorem credentialOf_entry (protocol : Protocol) (c : Client) :
    credentialOf protocol (entry protocol c) = (asks protocol).map (Secret.of · c) := by
  cases protocol <;> rfl

theorem flow_secret (c : Client) (flow : String) (s : Secret) : s.of { c with flow } = s.of c := by
  cases s <;> rfl

theorem Suits.loadable (h : Suits (kindOf ib) c) : Loadable ib (entry ib.protocol c) := by
  constructor
  · rw [credentialOf_entry]
    intro hblank
    obtain ⟨s, hasks, hblank⟩ := Option.map_eq_some_iff.mp hblank
    exact (h s hasks).1 hblank
  · intro hshadowsocks hmodern
    obtain ⟨-, hopens⟩ := h .password (by rw [kindOf, hshadowsocks]; rfl)
    have hvalid : validShadowsocksClientKey ib.method c.password = true := by
      simpa [Key.opens, kindOf, hshadowsocks] using hopens rfl
    rw [hshadowsocks]
    exact (valid_iff hmodern).mp hvalid

structure Filled (ib : Inbound) (c c' : Client) : Prop where
  email : c'.email = c.email
  suits : Suits (kindOf ib) c'
  id : c.id ≠ "" → c'.id = c.id
  auth : c.auth ≠ "" → c'.auth = c.auth
  describes : ∀ k, Describes k c.password → Describes (k.next (kindOf ib)) c'.password

theorem next_other (h : asks kind.protocol ≠ some .password) (k : Key) : k.next kind = k := by
  rw [Key.next]
  split
  case h_1 hp => exact absurd (by rw [hp]; rfl) h
  case h_2 hp => exact absurd (by rw [hp]; rfl) h
  case h_3 => rfl

theorem Filled.other {c' : Client} (h : asks ib.protocol ≠ some .password)
    (hset : ∀ s, asks ib.protocol = some s → s.of c' ≠ "") (hemail : c'.email = c.email)
    (hid : c.id ≠ "" → c'.id = c.id) (hauth : c.auth ≠ "" → c'.auth = c.auth)
    (hpassword : c'.password = c.password) : Filled ib c c' := by
  refine ⟨hemail, fun s hs => ⟨hset s hs, ?_⟩, hid, hauth, ?_⟩
  · rintro rfl
    exact absurd hs h
  · intro k hk
    rw [next_other h, hpassword]
    exact hk

theorem filled_trojan (hp : ib.protocol = .trojan) :
    Filled ib c (if c.password = "" then { c with password := o.secret } else c) := by
  have hopens : ∀ q, (Key.given q).opens (kindOf ib) = true := by
    intro q
    simp [Key.opens, kindOf, hp]
  have hsuits : ∀ c' : Client, c'.password ≠ "" → Suits (kindOf ib) c' := by
    intro c' hne s hs
    obtain rfl : Secret.password = s := by simpa [asks, kindOf, hp] using hs
    exact ⟨hne, fun _ => hopens _⟩
  split
  case isTrue hblank =>
    refine ⟨rfl, hsuits _ o.secret.property.1, fun _ => rfl, fun _ => rfl, ?_⟩
    intro k hk
    by_cases hgiven : k = .given ""
    · simp only [Key.next, kindOf, hp, if_pos hgiven]
      exact describes_token o.secret
    · exact absurd hblank (hk.ne hgiven)
  case isFalse hne =>
    refine ⟨rfl, hsuits c hne, fun _ => rfl, fun _ => rfl, ?_⟩
    intro k hk
    have hgiven : k ≠ .given "" := by
      rintro rfl
      exact hne hk.eq
    simp only [Key.next, kindOf, hp, if_neg hgiven]
    exact hk

theorem filled_shadowsocks (hp : ib.protocol = .shadowsocks) :
    Filled ib c (if c.password = "" ∨ !validShadowsocksClientKey ib.method c.password then
      { c with password := randomShadowsocksClientKey bytes o.secret ib.method } else c) := by
  have hopens : ∀ q, (Key.given q).opens (kindOf ib) = validShadowsocksClientKey ib.method q := by
    intro q
    simp [Key.opens, kindOf, hp]
  have hsuits : ∀ c' : Client, validShadowsocksClientKey ib.method c'.password = true →
      Suits (kindOf ib) c' := by
    intro c' hvalid s hs
    obtain rfl : Secret.password = s := by simpa [asks, kindOf, hp] using hs
    exact ⟨valid_ne hvalid, fun _ => (hopens _).trans hvalid⟩
  have hfresh : Describes (fresh (kindOf ib)) (randomShadowsocksClientKey bytes o.secret ib.method) :=
    describes_fresh o.secret (kindOf ib)
  split
  case isTrue hinvalid =>
    have hrefused : validShadowsocksClientKey ib.method c.password ≠ true := by
      rcases hinvalid with hblank | hinvalid
      · exact fun hvalid => valid_ne hvalid hblank
      · simpa using hinvalid
    refine ⟨rfl, hsuits _ ((hopens _).symm.trans (hfresh.opens_iff.mp (opens_fresh _))), fun _ => rfl,
      fun _ => rfl, ?_⟩
    intro k hk
    have hclosed : ¬ k.opens (kindOf ib) = true := by
      rw [hk.opens_iff, hopens]
      exact hrefused
    rw [Key.next, show (kindOf ib).protocol = .shadowsocks from hp]
    simp only [if_neg hclosed]
    exact hfresh
  case isFalse hvalid =>
    have haccepted : validShadowsocksClientKey ib.method c.password = true := by
      have hne := (not_or.mp hvalid).2
      simpa using hne
    refine ⟨rfl, hsuits c haccepted, fun _ => rfl, fun _ => rfl, ?_⟩
    intro k hk
    have hopen : k.opens (kindOf ib) = true := by
      rw [hk.opens_iff, hopens]
      exact haccepted
    rw [Key.next, show (kindOf ib).protocol = .shadowsocks from hp]
    simp only [if_pos hopen]
    exact hk

theorem fillProtocolDefaults_filled :
    Filled ib c (fillProtocolDefaults (panelEnv env) (withKeys bytes o) c ib) := by
  have hid : ∀ c' : Client, asks ib.protocol = some .id → c'.id ≠ "" → ∀ s, asks ib.protocol = some s →
      s.of c' ≠ "" := by
    intro c' hasks hne s hs
    obtain rfl := Option.some.inj (hasks.symm.trans hs)
    exact hne
  simp only [fillProtocolDefaults]
  split
  case h_1 hp =>
    have hasks : asks ib.protocol = some .id := by rw [hp]; rfl
    have hother : asks ib.protocol ≠ some .password := by rw [hasks]; rintro ⟨⟩
    split
    case isTrue hblank =>
      exact .other hother (hid _ hasks o.uuid.property.1) rfl (fun hne => absurd hblank hne) (fun _ => rfl) rfl
    case isFalse hne => exact .other hother (hid c hasks hne) rfl (fun _ => rfl) (fun _ => rfl) rfl
  case h_2 hp =>
    have hasks : asks ib.protocol = some .id := by rw [hp]; rfl
    have hother : asks ib.protocol ≠ some .password := by rw [hasks]; rintro ⟨⟩
    split
    case isTrue hblank =>
      exact .other hother (hid _ hasks o.uuid.property.1) rfl (fun hne => absurd hblank hne) (fun _ => rfl) rfl
    case isFalse hne => exact .other hother (hid c hasks hne) rfl (fun _ => rfl) (fun _ => rfl) rfl
  case h_3 hp => exact filled_trojan hp
  case h_4 hp => exact filled_shadowsocks hp
  case h_5 hp =>
    have hasks : asks ib.protocol = some .auth := by rw [hp]; rfl
    have hother : asks ib.protocol ≠ some .password := by rw [hasks]; rintro ⟨⟩
    have hset : ∀ c' : Client, c'.auth ≠ "" → ∀ s, asks ib.protocol = some s → s.of c' ≠ "" := by
      intro c' hne s hs
      obtain rfl := Option.some.inj (hasks.symm.trans hs)
      exact hne
    split
    case isTrue hblank =>
      exact .other hother (hset _ o.secret.property.1) rfl (fun _ => rfl) (fun hne => absurd hblank hne) rfl
    case isFalse hne => exact .other hother (hset c hne) rfl (fun _ => rfl) (fun _ => rfl) rfl
  case h_6 hvmess hvless htrojan hshadowsocks hhysteria =>
    have hasks : asks ib.protocol = none := by
      cases hp : ib.protocol <;> first | rfl | contradiction
    exact .other (by rw [hasks]; rintro ⟨⟩) (fun s hs => by cases hasks.symm.trans hs) rfl
      (fun _ => rfl) (fun _ => rfl) rfl

end passwords

section sync

variable {db db' : DB} {t t' : Clients.Records} {cs : List Client} {c : Client} {r r' : ClientRecord} {i j : Int}
  {s : Secret} {email v n : String} {l : ClientInbound} {kind : Kind}

def carried (s : Secret) (email : String) (cs : List Client) (v : String) : String :=
  cs.foldl (fun v c => if Text.trimSpace c.email = email ∧ s.of c ≠ "" then s.of c else v) v

theorem carried_cases : carried s email cs v = v ∧ (∀ c ∈ cs, Text.trimSpace c.email = email → s.of c = "") ∨
    ∃ c ∈ cs, Text.trimSpace c.email = email ∧ s.of c ≠ "" ∧ carried s email cs v = s.of c := by
  induction cs generalizing v with
  | nil => exact .inl ⟨rfl, fun _ h => absurd h not_mem_nil⟩
  | cons c cs ih =>
    have hstep : carried s email (c :: cs) v =
        carried s email cs (if Text.trimSpace c.email = email ∧ s.of c ≠ "" then s.of c else v) := rfl
    rw [hstep]
    split
    case isTrue hset =>
      rcases ih (v := s.of c) with ⟨heq, hblank⟩ | ⟨c', hc', hmatch⟩
      · exact .inr ⟨c, mem_cons_self, hset.1, hset.2, heq⟩
      · exact .inr ⟨c', mem_cons_of_mem _ hc', hmatch⟩
    case isFalse hkept =>
      rcases ih (v := v) with ⟨heq, hblank⟩ | ⟨c', hc', hmatch⟩
      · refine .inl ⟨heq, fun c' hc' hname => ?_⟩
        rcases mem_cons.mp hc' with rfl | hc'
        · by_contra hne
          exact hkept ⟨hname, hne⟩
        · exact hblank c' hc' hname
      · exact .inr ⟨c', mem_cons_of_mem _ hc', hmatch⟩

theorem carried_last (hname : Text.trimSpace c.email = email) (hne : s.of c ≠ "") :
    carried s email (cs ++ [c]) v = s.of c := by
  rw [carried, foldl_append, foldl_cons, foldl_nil, if_pos ⟨hname, hne⟩]

theorem mergeRecord_secret (c : Client) (r : ClientRecord) :
    s.of (mergeRecord c r).toClient = if s.of c ≠ "" then s.of c else s.of r.toClient := by
  cases s <;> rfl

structure Overwritten (cs : List Client) (r r' : ClientRecord) : Prop where
  key : r'.recordId = r.recordId
  email : r'.email = r.email
  secret : ∀ s : Secret, s.of r'.toClient = carried s r.email cs (s.of r.toClient)

theorem mergeRecords_overwritten (h : r' ∈ (mergeRecords t cs).rows) :
    ∃ r ∈ t.rows, Overwritten cs r r' := by
  induction cs generalizing t with
  | nil => exact ⟨r', h, rfl, rfl, fun _ => rfl⟩
  | cons c cs ih =>
    obtain ⟨mid, hmid, hkey, hemail, hsecret⟩ := ih h
    rw [Table.rows_modify] at hmid
    obtain ⟨r, hr, rfl⟩ := mem_map.mp hmid
    refine ⟨r, hr, ?_⟩
    split at hkey
    case isTrue hmatch =>
      have hname : Text.trimSpace c.email = r.email := (beq_iff_eq.mp hmatch).symm
      rw [if_pos hmatch] at hemail hsecret
      refine ⟨hkey, hemail, fun s => (hsecret s).trans ?_⟩
      rw [mergeRecord_secret]
      simp only [carried, foldl_cons, hname, true_and]
      rfl
    case isFalse hmatch =>
      have hname : Text.trimSpace c.email ≠ r.email := fun he => hmatch (beq_iff_eq.mpr he.symm)
      rw [if_neg hmatch] at hemail hsecret
      refine ⟨hkey, hemail, fun s => (hsecret s).trans ?_⟩
      simp only [carried, foldl_cons, hname, false_and, if_false]

theorem createRecords_entry (h : cs.foldlM createRecord t = .ok t') (hr' : r' ∈ t'.rows) :
    r' ∈ t.rows ∨ r'.toClient ∈ cs := by
  induction cs generalizing t with
  | nil =>
    cases h
    exact .inl hr'
  | cons c cs ih =>
    rw [foldlM_cons, bind_ok] at h
    obtain ⟨mid, hcreate, hrest⟩ := h
    obtain ⟨-, rfl⟩ := createRecord_ok.mp hcreate
    rcases ih hrest with hmid | hcreated
    · rw [Table.rows_insert] at hmid
      rcases mem_append.mp hmid with hold | hnew
      · exact .inl hold
      · obtain rfl := mem_singleton.mp hnew
        exact .inr mem_cons_self
    · exact .inr (mem_cons_of_mem _ hcreated)

theorem syncInbound_record (h : syncInbound db i cs = .ok db') (hr' : r' ∈ db'.records.rows) :
    (∃ r ∈ db.records.rows, Overwritten (named cs) r r') ∨
      r'.toClient ∈ named cs ∧ r'.email ∉ emails db.records := by
  simp only [syncInbound, bind_ok] at h
  obtain ⟨records, hcreate, h⟩ := h
  cases h
  rcases createRecords_entry hcreate hr' with hmerged | hcreated
  · exact .inl (mergeRecords_overwritten hmerged)
  · have hfresh := createRecords_fresh hcreate hcreated
    rw [mergeRecords_emails] at hfresh
    exact .inr ⟨(mem_toCreate hcreated).1, hfresh⟩

theorem linkClients_inbound {linked : List Int} (h : l ∈ linkClients t i cs linked) : l.inboundId = i := by
  induction cs generalizing linked with
  | nil => exact absurd h not_mem_nil
  | cons c cs ih =>
    simp only [linkClients] at h
    split at h
    case h_1 => exact ih h
    case h_2 =>
      split at h
      case isTrue => exact ih h
      case isFalse =>
        rcases mem_cons.mp h with rfl | hrest
        · rfl
        · exact ih hrest

theorem syncInbound_link (h : syncInbound db i cs = .ok db') (hl : l ∈ db'.links) :
    l ∈ db.links ∨ l.inboundId = i ∧
      ∃ c ∈ named cs, ∃ r ∈ db'.records.rows, r.recordId = l.clientId ∧ r.email = Text.trimSpace c.email := by
  simp only [syncInbound, bind_ok] at h
  obtain ⟨records, -, h⟩ := h
  cases h
  rcases mem_append.mp hl with hold | hnew
  · exact .inl (mem_filter.mp hold).1
  · exact .inr ⟨linkClients_inbound hnew, RuntimePush.mem_linkClients hnew⟩

structure Good (db : DB) : Prop where
  unique : (emails db.records).Nodup
  linked : ∀ l ∈ db.links, ∃ r ∈ db.records.rows, r.recordId = l.clientId
  fits : ∀ i kind, kindAt db i = some kind → ∀ e ∈ db.settingsClients i, Suits kind e
  suits : ∀ r ∈ db.records.rows, ∀ l ∈ db.links, l.clientId = r.recordId → ∀ kind,
    kindAt db l.inboundId = some kind → Suits kind r.toClient
  coherent : ∀ i, ∀ e ∈ db.settingsClients i, e.password ≠ "" → ∀ j kind, kindAt db j = some kind →
    Holds db (Text.trimSpace e.email) j → (Key.given e.password).opens kind = true

theorem kindAt_sync (h : syncInbound db i cs = .ok db') : kindAt db' j = kindAt db j := by
  rw [kindAt, kindAt, (syncInbound_ok h).1]

theorem old_record (hgood : Good db) (h : syncInbound db i cs = .ok db') (hl : l ∈ db.links)
    (hr' : r' ∈ db'.records.rows) (hkey : l.clientId = r'.recordId) :
    ∃ r ∈ db.records.rows, r.recordId = l.clientId ∧ Overwritten (named cs) r r' := by
  obtain ⟨r₀, hr₀, hid⟩ := hgood.linked l hl
  obtain ⟨r₁, hr₁, hid₁, hemail⟩ := syncInbound_persists h r₀ hr₀
  obtain rfl := Table.eq_of_key hr₁ hr' (hid₁.trans (hid.trans hkey))
  rcases syncInbound_record h hr₁ with ⟨r, hr, hover⟩ | ⟨-, hfresh⟩
  · exact ⟨r, hr, hover.key.symm.trans hkey.symm, hover⟩
  · rw [hemail] at hfresh
    exact absurd (mem_map_of_mem hr₀) hfresh

theorem holds_sync (hgood : Good db) (hsettings : db.settingsClients i = cs)
    (h : syncInbound db i cs = .ok db') (hholds : Holds db' n j) : Holds db n j := by
  rcases hholds with ⟨e, he, hname⟩ | ⟨r', hr', hname, l, hl, hkey, hinbound⟩
  · rw [OneEmail.settingsClients_sync h] at he
    exact .inl ⟨e, he, hname⟩
  · rcases syncInbound_link h hl with hold | ⟨hi, c, hc, r, hr, hid, hemail⟩
    · obtain ⟨r, hr, hid, hover⟩ := old_record hgood h hold hr' hkey
      exact .inr ⟨r, hr, hover.email.symm.trans hname, l, hold, hid.symm, hinbound⟩
    · obtain rfl := Table.eq_of_key hr hr' (hid.trans hkey)
      obtain rfl : i = j := hi.symm.trans hinbound
      rw [← hsettings] at hc
      exact .inl ⟨c, (mem_filter.mp hc).1, hemail.symm.trans hname⟩

theorem Good.overwritten (hgood : Good db) (hsettings : db.settingsClients i = cs)
    (hkind : kindAt db j = some kind) (hholds : Holds db r.email j) (hover : Overwritten (named cs) r r')
    (hset : ∀ s, asks kind.protocol = some s → Suits kind r.toClient ∨
      ∃ c ∈ named cs, Text.trimSpace c.email = r.email ∧ s.of c ≠ "") : Suits kind r'.toClient := by
  intro s hs
  rcases @carried_cases (named cs) s r.email (s.of r.toClient) with
    ⟨heq, hblank⟩ | ⟨c, hc, hname, hne, heq⟩
  · rw [hover.secret s, heq]
    rcases hset s hs with hsuits | ⟨c, hc, hname, hne⟩
    · obtain ⟨hne, hopens⟩ := hsuits s hs
      refine ⟨hne, ?_⟩
      rintro rfl
      have hpassword : r'.password = r.password := (hover.secret .password).trans heq
      rw [hpassword]
      exact hopens rfl
    · exact absurd (hblank c hc hname) hne
  · rw [hover.secret s, heq]
    refine ⟨hne, ?_⟩
    rintro rfl
    have hpassword : r'.password = c.password := (hover.secret .password).trans heq
    rw [hpassword]
    have hmem : c ∈ db.settingsClients i := by
      rw [hsettings]
      exact (mem_filter.mp hc).1
    exact hgood.coherent i c hmem hne j kind hkind (by rw [hname]; exact hholds)

theorem Good.sync (hgood : Good db) (hsettings : db.settingsClients i = cs)
    (h : syncInbound db i cs = .ok db') : Good db' := by
  have hnamed : ∀ c ∈ named cs, c ∈ db.settingsClients i := by
    intro c hc
    rw [hsettings]
    exact (mem_filter.mp hc).1
  refine ⟨syncInbound_nodup h hgood.unique, ?_, ?_, ?_, ?_⟩
  · intro l hl
    rcases syncInbound_link h hl with hold | ⟨-, -, -, r, hr, hid, -⟩
    · obtain ⟨r, hr, hid⟩ := hgood.linked l hold
      obtain ⟨r', hr', hid', -⟩ := syncInbound_persists h r hr
      exact ⟨r', hr', hid'.trans hid⟩
    · exact ⟨r, hr, hid⟩
  · intro j kind hkind e he
    rw [kindAt_sync h] at hkind
    rw [OneEmail.settingsClients_sync h] at he
    exact hgood.fits j kind hkind e he
  · intro r' hr' l hl hkey kind hkind
    rw [kindAt_sync h] at hkind
    rcases syncInbound_link h hl with hold | ⟨hi, c, hc, r₁, hr₁, hid, hemail⟩
    · obtain ⟨r, hr, hid, hover⟩ := old_record hgood h hold hr' hkey
      exact hgood.overwritten hsettings hkind (.inr ⟨r, hr, rfl, l, hold, hid.symm, rfl⟩) hover
        fun s _ => .inl (hgood.suits r hr l hold hid.symm kind hkind)
    · obtain rfl := Table.eq_of_key hr₁ hr' (hid.trans hkey)
      rw [hi] at hkind
      have hfits : ∀ c ∈ named cs, Suits kind c := fun c hc => hgood.fits i kind hkind c (hnamed c hc)
      rcases syncInbound_record h hr₁ with ⟨r, hr, hover⟩ | ⟨hcreated, -⟩
      · have hname : Text.trimSpace c.email = r.email := hemail.symm.trans hover.email
        exact hgood.overwritten hsettings hkind (.inl ⟨c, hnamed c hc, hname⟩) hover
          fun s hs => .inr ⟨c, hc, hname, (hfits c hc s hs).1⟩
      · exact hfits _ hcreated
  · intro j e he hne j' kind hkind hholds
    rw [OneEmail.settingsClients_sync h] at he
    rw [kindAt_sync h] at hkind
    exact hgood.coherent j e he hne j' kind hkind (holds_sync hgood hsettings h hholds)

end sync

section store

variable {db db' : DB} {dialect : Dialect} {o : Attempt} {cs news clients : List Client} {c c' : Client}
  {i j : Int} {kind : Kind} {k : Key} {keys : List Key} {ids : List Int} {email oldEmail : String}
  {traffics : List ClientTraffic} {subIDs : Nat → Token}

structure Grown (news : List Client) (i : Int) (db db' : DB) : Prop where
  kinds : ∀ j, kindAt db' j = kindAt db j
  settings : ∀ j, ∀ e ∈ db'.settingsClients j, e ∈ db.settingsClients j ∨ j = i ∧ e ∈ news
  holds : ∀ n j, Holds db' n j → Holds db n j ∨ j = i ∧ ∃ c ∈ news, Text.trimSpace c.email = n

structure Welcome (db : DB) (i : Int) (c : Client) : Prop where
  suits : ∀ kind, kindAt db i = some kind → Suits kind c
  placeable : ∃ keys ids, Placeable db (Text.trimSpace c.email) keys ids ∧ i ∈ ids ∧
    ∃ k ∈ keys, Describes k c.password

theorem Suits.congr (h : Suits kind c) (hsecret : ∀ s : Secret, s.of c' = s.of c) : Suits kind c' := by
  intro s hs
  obtain ⟨hne, hopens⟩ := h s hs
  have hpassword : c'.password = c.password := hsecret .password
  rw [hsecret s, hpassword]
  exact ⟨hne, hopens⟩

theorem Welcome.congr (h : Welcome db i c) (hemail : c'.email = c.email)
    (hsecret : ∀ s : Secret, s.of c' = s.of c) : Welcome db i c' := by
  have hpassword : c'.password = c.password := hsecret .password
  refine ⟨fun kind hkind => (h.suits kind hkind).congr hsecret, ?_⟩
  rw [hemail, hpassword]
  exact h.placeable

theorem Describes.opens_given (h : Describes k email) (hne : email ≠ "") (hopens : k ≠ .given "" →
    k.opens kind = true) : (Key.given email).opens kind = true := by
  refine h.opens_iff.mp (hopens ?_)
  rintro rfl
  exact hne h.eq

theorem Placeable.grown (h : Placeable db email keys ids) (hgrown : Grown news i db db')
    (hnews : ∀ c ∈ news, Text.trimSpace c.email = email → i ∈ ids ∧ ∃ k ∈ keys, Describes k c.password) :
    Placeable db' email keys ids := by
  constructor
  · intro k hk hgiven j kind hkind hj
    rw [hgrown.kinds] at hkind
    refine h.opens k hk hgiven j kind hkind ?_
    rcases hj with hj | hholds
    · exact .inl hj
    · rcases hgrown.holds _ _ hholds with hold | ⟨rfl, c, hc, hname⟩
      · exact .inr hold
      · exact .inl (hnews c hc hname).1
  · intro j e he hname hne j' hj' kind hkind
    rw [hgrown.kinds] at hkind
    rcases hgrown.settings j e he with hold | ⟨-, hnew⟩
    · exact h.kept j e hold hname hne j' hj' kind hkind
    · obtain ⟨-, k, hk, hdescribes⟩ := hnews e hnew hname
      exact hdescribes.opens_given hne fun hgiven => h.opens k hk hgiven j' kind hkind (.inl hj')

theorem Good.grown (hgood : Good db) (hgrown : Grown news i db db') (hrecords : db'.records = db.records)
    (hlinks : db'.links = db.links) (hnews : ∀ c ∈ news, Welcome db i c) : Good db' := by
  refine ⟨by rw [hrecords]; exact hgood.unique, by rw [hrecords, hlinks]; exact hgood.linked, ?_, ?_, ?_⟩
  · intro j kind hkind e he
    rw [hgrown.kinds] at hkind
    rcases hgrown.settings j e he with hold | ⟨rfl, hnew⟩
    · exact hgood.fits j kind hkind e hold
    · exact (hnews e hnew).suits kind hkind
  · intro r hr l hl hkey kind hkind
    rw [hgrown.kinds] at hkind
    rw [hrecords] at hr
    rw [hlinks] at hl
    exact hgood.suits r hr l hl hkey kind hkind
  · intro j e he hne j' kind hkind hholds
    rw [hgrown.kinds] at hkind
    have htarget := hgrown.holds _ _ hholds
    rcases hgrown.settings j e he with hold | ⟨rfl, hnew⟩
    · rcases htarget with hheld | ⟨rfl, c, hc, hname⟩
      · exact hgood.coherent j e hold hne j' kind hkind hheld
      · obtain ⟨keys, ids, hplace, hi, -⟩ := (hnews c hc).placeable
        exact hplace.kept j e hold hname.symm hne j' hi kind hkind
    · obtain ⟨keys, ids, hplace, hi, k, hk, hdescribes⟩ := (hnews e hnew).placeable
      refine hdescribes.opens_given hne fun hgiven => hplace.opens k hk hgiven j' kind hkind ?_
      rcases htarget with hheld | ⟨rfl, -⟩
      · exact .inr hheld
      · exact .inl hi

theorem kindAt_saved : kindAt (saveClients { db with traffics } i cs) j = kindAt db j := by
  rw [kindAt, kindAt, saveClients, Table.find_modify]
  cases db.inbounds.find j with
  | none => rfl
  | some ib =>
    simp only [Option.map_some, Option.some.injEq]
    split <;> rfl

theorem Grown.saved (hfind : (db.inbounds.find i).isSome)
    (hcs : ∀ c ∈ cs, c ∈ db.settingsClients i ∨ c ∈ news) :
    Grown news i db (saveClients { db with traffics } i cs) := by
  have hsettings : ∀ j, ∀ e ∈ (saveClients { db with traffics } i cs).settingsClients j,
      e ∈ db.settingsClients j ∨ j = i ∧ e ∈ news := by
    intro j e he
    have hsaved := @settingsClients_saved { db with traffics } i cs hfind j
    rw [hsaved] at he
    split at he
    case isTrue hj =>
      subst hj
      exact (hcs e he).imp_right fun hnew => ⟨rfl, hnew⟩
    case isFalse => exact .inl he
  refine ⟨fun _ => kindAt_saved, hsettings, ?_⟩
  rintro n j (⟨e, he, hname⟩ | hlinked)
  · rcases hsettings j e he with hold | ⟨hj, hnew⟩
    · exact .inl (.inl ⟨e, hold, hname⟩)
    · exact .inr ⟨hj, e, hnew, hname⟩
  · exact .inl (.inr hlinked)

theorem Good.store (hgood : Good db) (hfind : (db.inbounds.find i).isSome)
    (hcs : ∀ c ∈ cs, c ∈ db.settingsClients i ∨ c ∈ news) (hnews : ∀ c ∈ news, Welcome db i c)
    (h : syncInbound (saveClients { db with traffics } i cs) i cs = .ok db') :
    Good db' ∧ Grown news i db db' := by
  have hgrown : Grown news i db (saveClients { db with traffics } i cs) := .saved hfind hcs
  have hsaved := hgood.grown hgrown rfl rfl hnews
  have hsettings : (saveClients { db with traffics } i cs).settingsClients i = cs :=
    (settingsClients_saved hfind i).trans (if_pos rfl)
  refine ⟨hsaved.sync hsettings h, fun j => (kindAt_sync h).trans (hgrown.kinds j), ?_, ?_⟩
  · intro j e he
    rw [OneEmail.settingsClients_sync h] at he
    exact hgrown.settings j e he
  · intro n j hholds
    exact hgrown.holds n j (holds_sync hsaved hsettings h hholds)

theorem stampEntry_secret (o : Attempt) (c : Client) (s : Secret) : s.of (stampEntry o c) = s.of c := by
  cases s <;> simp only [Secret.of, stampEntry]

theorem restampEntry_secret (o : Attempt) (old c : Client) (s : Secret) :
    s.of (restampEntry o old c) = s.of c := by
  cases s <;> simp only [Secret.of, restampEntry]

theorem addInboundClient_stores {listed : DB}
    (h : addInboundClient dialect o listed db subIDs i clients = .ok db') :
    (∃ ib, db.inbounds.find i = some ib ∧ checkCredentials ib.protocol clients = .ok ()) ∧ ∃ traffics,
      syncInbound (saveClients { db with traffics } i
        (compactOrphans db (db.settingsClients i) ++ OneEmail.stamped o subIDs clients)) i
        (compactOrphans db (db.settingsClients i) ++ OneEmail.stamped o subIDs clients) = .ok db' := by
  simp only [addInboundClient, bind_ok, orErr_ok, check_ok, Option.isNone_iff_eq_none] at h
  obtain ⟨_, -, ib, hib, _, hnamed, cs, hcs, push, -, _, -, hsync⟩ := h
  have hsettings : db.settingsClients i = cs := settingsClients_listed hib hcs
  rw [hsettings]
  exact ⟨⟨ib, hib, hnamed⟩, _, hsync⟩

theorem Good.add {listed : DB} (hgood : Good db) (hnews : ∀ c ∈ clients, Welcome db i c)
    (h : addInboundClient dialect o listed db subIDs i clients = .ok db') :
    Good db' ∧ Grown (OneEmail.stamped o subIDs clients) i db db' := by
  obtain ⟨⟨ib, hib, -⟩, traffics, hsync⟩ := addInboundClient_stores h
  refine hgood.store (by rw [hib]; rfl) ?_ ?_ hsync
  · intro c hc
    exact (mem_append.mp hc).imp_left fun hold => (mem_filter.mp hold).1
  · intro c hc
    obtain ⟨k, hk, rfl⟩ := OneEmail.mem_stamped.mp hc
    exact (hnews _ (getElem_mem hk)).congr (OneEmail.stampEntry_email _ _) (stampEntry_secret _ _)

theorem Good.edit {client : Client} (hgood : Good db) (hnew : Welcome db i client)
    (h : OneEmail.updateInboundClient dialect o db i client oldEmail = .ok db') :
    Good db' ∧ ∃ old, Grown [restampEntry o old client] i db db' := by
  simp only [OneEmail.updateInboundClient, bind_ok, orErr_ok, check_ok, Option.isNone_iff_eq_none] at h
  obtain ⟨_, -, ib, hib, old, hlocated, _, -, _, -, traffics, -, _, -, _, -, hsync⟩ := h
  have hsettings : db.settingsClients i = ib.clients.getD [] := settingsClients_find hib
  rw [← hsettings] at hsync
  have hnews : ∀ c ∈ [restampEntry o old client], Welcome db i c := by
    intro c hc
    rw [mem_singleton.mp hc]
    exact hnew.congr (OneEmail.restampEntry_email _) (restampEntry_secret _ _ _)
  have hcs : ∀ c ∈ (db.settingsClients i).set (OneEmail.position db i oldEmail) (restampEntry o old client),
      c ∈ db.settingsClients i ∨ c ∈ [restampEntry o old client] :=
    fun c hc => (mem_or_eq_of_mem_set hc).imp_right mem_singleton.mpr
  obtain ⟨hgood', hgrown⟩ := hgood.store (by rw [hib]; rfl) hcs hnews hsync
  exact ⟨hgood', old, hgrown⟩

end store

section loops

variable {db db' : DB} {env : Env} {dialect : Dialect} {o : Attempt} {news : List Client} {c c' client : Client}
  {i : Int} {k : Key} {keys : List Key} {ids : List Int} {email oldEmail : String} {ib : Inbound}
  {bytes : Nat → UInt8} {d : KeyDraws} {subID : Token}

theorem kindAt_find (hib : db.inbounds.find i = some ib) : kindAt db i = some (kindOf ib) := by
  rw [kindAt, hib]
  rfl

theorem clientWithInboundFlow_secret (c : Client) (ib : Inbound) (s : Secret) :
    s.of (clientWithInboundFlow c ib) = s.of c := by
  rw [clientWithInboundFlow]
  split
  · rfl
  · cases s <;> rfl

theorem stored_password (o : Attempt) (old c : Client) (ib : Inbound) :
    (restampEntry o old (clientWithInboundFlow c ib)).password = c.password :=
  (restampEntry_secret o old _ .password).trans (clientWithInboundFlow_secret c ib .password)

theorem Filled.welcome (hfill : Filled ib c c') (hib : db.inbounds.find i = some ib)
    (hplace : Placeable db (Text.trimSpace c.email) keys ids) (hi : i ∈ ids) (hk : Describes k c.password)
    (hnext : k.next (kindOf ib) ∈ keys) : Welcome db i (clientWithInboundFlow c' ib) := by
  have hwelcome : Welcome db i c' := by
    constructor
    · intro kind hkind
      obtain rfl := Option.some.inj ((kindAt_find hib).symm.trans hkind)
      exact hfill.suits
    · rw [hfill.email]
      exact ⟨keys, ids, hplace, hi, _, hnext, hfill.describes k hk⟩
  exact hwelcome.congr (clientWithInboundFlow_keeps _ _).1 (clientWithInboundFlow_secret _ _)

theorem addTo_ok (h : OneEmail.addTo (panelEnv env) dialect (withKeys bytes o) db client i = .ok (db', c')) :
    ∃ ib, db.inbounds.find i = some ib ∧
      c' = fillProtocolDefaults (panelEnv env) (withKeys bytes o) client ib ∧
      addInboundClient dialect (withKeys bytes o) db db (fun _ => o.subID) i [clientWithInboundFlow c' ib] =
        .ok db' := by
  simp only [OneEmail.addTo, bind_ok, orErr_ok] at h
  obtain ⟨_, -, ib, hib, db₁, hadd, h⟩ := h
  cases h
  exact ⟨ib, hib, rfl, hadd⟩

theorem Good.place (hgood : Good db) (hplace : Placeable db (Text.trimSpace client.email) keys ids)
    (hi : i ∈ ids) (hk : Describes k client.password)
    (hnext : ∀ kind, kindAt db i = some kind → k.next kind ∈ keys)
    (h : OneEmail.addTo (panelEnv env) dialect (withKeys bytes o) db client i = .ok (db', c')) :
    Good db' ∧ (∀ j, kindAt db' j = kindAt db j) ∧ Placeable db' (Text.trimSpace client.email) keys ids ∧
      ∃ ib, kindAt db i = some (kindOf ib) ∧ Filled ib client c' := by
  obtain ⟨ib, hib, rfl, hadd⟩ := addTo_ok h
  have hfill : Filled ib client (fillProtocolDefaults (panelEnv env) (withKeys bytes o) client ib) :=
    fillProtocolDefaults_filled
  have hmember := hnext _ (kindAt_find hib)
  have hwelcome := hfill.welcome hib hplace hi hk hmember
  obtain ⟨hgood', hgrown⟩ := hgood.add (fun c hc => by rw [mem_singleton.mp hc]; exact hwelcome) hadd
  refine ⟨hgood', hgrown.kinds, hplace.grown hgrown ?_, ib, kindAt_find hib, hfill⟩
  intro c hc _
  obtain ⟨n, hn, rfl⟩ := OneEmail.mem_stamped.mp hc
  obtain rfl : n = 0 := by simpa using hn
  refine ⟨hi, _, hmember, ?_⟩
  have hpassword : ∀ o' : Attempt, (stampEntry o' (clientWithInboundFlow
      (fillProtocolDefaults (panelEnv env) (withKeys bytes o) client ib) ib)).password =
      (fillProtocolDefaults (panelEnv env) (withKeys bytes o) client ib).password :=
    fun o' => (stampEntry_secret o' _ .password).trans (clientWithInboundFlow_secret _ _ .password)
  simp only [getElem_cons_zero]
  rw [hpassword]
  exact hfill.describes k hk

variable {n : Nat}

variable {is : List Int}

theorem addToInbounds_good (hgood : Good db)
    (hplace : Placeable db (Text.trimSpace client.email) keys ids) (his : ∀ i ∈ is, i ∈ ids)
    (hk : Describes k client.password) (htrail : ∀ k' ∈ trail k (is.filterMap (kindAt db)), k' ∈ keys) :
    Good (OneEmail.addToInbounds (panelEnv env) dialect d.draws n db client is).1 := by
  induction is generalizing n db client k with
  | nil => exact hgood
  | cons i is ih =>
    simp only [OneEmail.addToInbounds]
    split
    case h_1 => exact hgood
    case h_2 db₁ client₁ hadd =>
      have hnext : ∀ kind, kindAt db i = some kind → k.next kind ∈ keys ∧
          ∀ k' ∈ trail (k.next kind) (is.filterMap (kindAt db)), k' ∈ keys := by
        intro kind hkind
        rw [filterMap_cons_some hkind, trail] at htrail
        exact forall_mem_cons.mp htrail
      obtain ⟨hi, his⟩ := forall_mem_cons.mp his
      obtain ⟨hgood₁, hkinds, hplace₁, ib, hkind, hfill⟩ :=
        hgood.place hplace hi hk (fun kind hkind => (hnext kind hkind).1) hadd
      have hsame : kindAt db₁ = kindAt db := funext hkinds
      rw [← hfill.email] at hplace₁
      refine ih hgood₁ hplace₁ his (hfill.describes k hk) ?_
      rw [hsame]
      exact (hnext _ hkind).2

theorem attachToInbounds_good {is attached : List Int} (hgood : Good db)
    (hplace : Placeable db (Text.trimSpace client.email) keys ids)
    (his : ∀ i ∈ is, attached.contains i = false → i ∈ ids)
    (hkeys : ∀ i ∈ ids, ∀ kind, kindAt db i = some kind → (Key.given client.password).next kind ∈ keys) :
    Good (OneEmail.attachToInbounds (panelEnv env) dialect d.draws attached client n db is).1 := by
  induction is generalizing n db with
  | nil => exact hgood
  | cons i is ih =>
    obtain ⟨hi, his⟩ := forall_mem_cons.mp his
    simp only [OneEmail.attachToInbounds]
    split
    case isTrue => exact ih hgood hplace his hkeys
    case isFalse hnew =>
      split
      case h_1 => exact hgood
      case h_2 db₁ client₁ hadd =>
        have hmem := hi (by simpa using hnew)
        obtain ⟨hgood₁, hkinds, hplace₁, -⟩ :=
          hgood.place hplace hmem (.given client.password) (hkeys i hmem) hadd
        refine ih hgood₁ hplace₁ his ?_
        intro j hj kind hkind
        rw [hkinds] at hkind
        exact hkeys j hj kind hkind

theorem Good.unlink (hgood : Good db) (p : ClientInbound → Bool) :
    Good { db with links := db.links.filter p } ∧ Grown [] i db { db with links := db.links.filter p } := by
  have hmem : ∀ l ∈ db.links.filter p, l ∈ db.links := fun l hl => (mem_filter.mp hl).1
  have hholds : ∀ n j, Holds { db with links := db.links.filter p } n j → Holds db n j := by
    rintro n j (hentry | ⟨r, hr, hname, l, hl, hlink⟩)
    · exact .inl hentry
    · exact .inr ⟨r, hr, hname, l, hmem l hl, hlink⟩
  refine ⟨⟨hgood.unique, fun l hl => hgood.linked l (hmem l hl), hgood.fits, ?_, ?_⟩, fun _ => rfl,
    fun _ _ he => .inl he, fun n j hheld => .inl (hholds n j hheld)⟩
  · exact fun r hr l hl => hgood.suits r hr l (hmem l hl)
  · exact fun j e he hne j' kind hkind hheld => hgood.coherent j e he hne j' kind hkind (hholds _ _ hheld)

theorem updateInInbounds_unnamed {clientId : Int} (hgood : Good db) :
    Good (updateInInbounds env dialect d.draws "" clientId n db client is).1 := by
  induction is generalizing n db with
  | nil => exact hgood
  | cons i is ih =>
    simp only [updateInInbounds]
    split
    case h_1 => exact ih (@Good.unlink _ i hgood _).1
    case h_2 =>
      rw [if_pos trivial]
      exact ih hgood

theorem updateInInbounds_good {clientId : Int} (hgood : Good db)
    (hplace : Placeable db (Text.trimSpace client.email) keys ids) (his : ∀ i ∈ is, i ∈ ids)
    (hk : Describes k client.password) (htrail : ∀ k' ∈ trail k (is.filterMap (kindAt db)), k' ∈ keys) :
    Good (updateInInbounds (panelEnv env) dialect d.draws oldEmail clientId n db client is).1 := by
  induction is generalizing n db client k with
  | nil => exact hgood
  | cons i is ih =>
    obtain ⟨hi, his⟩ := forall_mem_cons.mp his
    simp only [updateInInbounds]
    split
    case h_1 hnone =>
      obtain ⟨hgood₁, hgrown⟩ := hgood.unlink (i := i) fun l => !(l.clientId == clientId && l.inboundId == i)
      have hplace₁ := hplace.grown hgrown fun _ hc => absurd hc not_mem_nil
      refine ih hgood₁ hplace₁ his hk ?_
      have hkind : kindAt db i = none := by rw [kindAt, hnone]; rfl
      rw [filterMap_cons_none hkind] at htrail
      exact htrail
    case h_2 ib hib =>
      rw [filterMap_cons_some (kindAt_find hib), trail] at htrail
      obtain ⟨hnext, htrail⟩ := forall_mem_cons.mp htrail
      have hfill : Filled ib client
          (fillProtocolDefaults (panelEnv env) (withKeys (d.bytes n) (d.attempts n)) client ib) :=
        fillProtocolDefaults_filled
      split
      case isTrue hblank =>
        subst hblank
        exact updateInInbounds_unnamed hgood
      case isFalse =>
        split
        case h_1 => exact hgood
        case h_2 db₁ hedit =>
          have hwelcome := hfill.welcome hib hplace hi hk hnext
          obtain ⟨hgood₁, old, hgrown⟩ := hgood.edit hwelcome hedit
          have hplace₁ := hplace.grown hgrown fun c hc _ => by
            obtain rfl := mem_singleton.mp hc
            refine ⟨hi, _, hnext, ?_⟩
            rw [stored_password]
            exact hfill.describes k hk
          have hsame : kindAt db₁ = kindAt db := funext hgrown.kinds
          rw [← hfill.email] at hplace₁
          refine ih hgood₁ hplace₁ his (hfill.describes k hk) ?_
          rw [hsame]
          exact htrail

theorem Good.modify {p : ClientRecord → Bool} {f : ClientRecord → ClientRecord}
    {hf : ∀ r, (f r).recordId = r.recordId} (hgood : Good db) (hemail : ∀ r, (f r).email = r.email)
    (hsecret : ∀ r, ∀ s : Secret, s.of (f r).toClient = s.of r.toClient) :
    Good { db with records := db.records.modify p f hf } := by
  have hrecord : ∀ r' ∈ (db.records.modify p f hf).rows, ∃ r ∈ db.records.rows, r'.recordId = r.recordId ∧
      r'.email = r.email ∧ ∀ s : Secret, s.of r'.toClient = s.of r.toClient := by
    intro r' hr'
    obtain ⟨r, hr, rfl⟩ := Table.mem_modify.mp hr'
    refine ⟨r, hr, ?_⟩
    split
    · exact ⟨hf r, hemail r, hsecret r⟩
    · exact ⟨rfl, rfl, fun _ => rfl⟩
  have hemails : emails (db.records.modify p f hf) = emails db.records := by
    rw [emails, emails, Table.rows_modify, map_map]
    refine map_congr_left fun r _ => ?_
    simp only [Function.comp_apply]
    split
    · exact hemail r
    · rfl
  have hholds : ∀ n j, Holds { db with records := db.records.modify p f hf } n j → Holds db n j := by
    rintro n j (hentry | ⟨r', hr', hname, l, hl, hkey, hinbound⟩)
    · exact .inl hentry
    · obtain ⟨r, hr, hid, hsame, -⟩ := hrecord r' hr'
      exact .inr ⟨r, hr, hsame.symm.trans hname, l, hl, hkey.trans hid, hinbound⟩
  refine ⟨by rw [hemails]; exact hgood.unique, ?_, hgood.fits, ?_, ?_⟩
  · intro l hl
    obtain ⟨r, hr, hkey⟩ := hgood.linked l hl
    have hmem : (if p r then f r else r) ∈ (db.records.modify p f hf).rows :=
      Table.mem_modify.mpr ⟨r, hr, rfl⟩
    refine ⟨_, hmem, ?_⟩
    split
    · exact (hf r).trans hkey
    · exact hkey
  · intro r' hr' l hl hkey kind hkind
    obtain ⟨r, hr, hid, -, hsame⟩ := hrecord r' hr'
    exact (hgood.suits r hr l hl (hkey.trans hid) kind hkind).congr hsame
  · intro j e he hne j' kind hkind hheld
    exact hgood.coherent j e he hne j' kind hkind (hholds _ _ hheld)

theorem trimSpace_trimSpace (m : String) : Text.trimSpace (Text.trimSpace m) = Text.trimSpace m :=
  Text.trimSpace_of_edged (Text.edged_trimSpace m)

theorem mem_inboundIdsOf {id j : Int} :
    j ∈ db.inboundIdsOf id ↔ ∃ l ∈ db.links, l.clientId = id ∧ l.inboundId = j := by
  simp only [DB.inboundIdsOf, mem_insertionSort, mem_map, mem_filter, beq_iff_eq, and_assoc]

theorem holds_rename {id j : Int} {m n : String} (h : Holds (renameRecord db id m) n j) :
    Holds db n j ∨ n = m ∧ j ∈ db.inboundIdsOf id := by
  rcases h with hentry | ⟨r', hr', hname, l, hl, hkey, hinbound⟩
  · exact .inl (.inl hentry)
  · rcases mem_renameRecord hr' with ⟨hr, -⟩ | ⟨r, hr, hid, rfl⟩
    · exact .inl (.inr ⟨r', hr, hname, l, hl, hkey, hinbound⟩)
    · exact .inr ⟨hname.symm, mem_inboundIdsOf.mpr ⟨l, hl, hkey.trans hid, hinbound⟩⟩

variable {id : Int}

theorem renameRecord_unique {m : String} (hunique : (emails db.records).Nodup)
    (hfresh : ∀ r ∈ db.records.rows, r.email = m → r.recordId = id) :
    (emails (renameRecord db id m).records).Nodup := by
  rw [emails, renameRecord, Table.rows_modify, map_map]
  refine List.Nodup.map_on ?_ (List.Nodup.of_map _ db.records.nodup)
  intro r hr r' hr' hsame
  simp only [Function.comp_apply] at hsame
  split at hsame
  case isTrue hid =>
    split at hsame
    case isTrue hid' =>
      exact Table.eq_of_key hr hr' ((beq_iff_eq.mp hid).trans (beq_iff_eq.mp hid').symm)
    case isFalse hid' => exact absurd (beq_iff_eq.mpr (hfresh r' hr' hsame.symm)) hid'
  case isFalse hid =>
    split at hsame
    case isTrue => exact absurd (beq_iff_eq.mpr (hfresh r hr hsame)) hid
    case isFalse => exact inj_on_of_nodup_map hunique hr hr' hsame

theorem Good.rename {m : String} (hgood : Good db)
    (hfresh : ∀ r ∈ db.records.rows, r.email = m → r.recordId = id)
    (hplace : Placeable db (Text.trimSpace m) keys (db.inboundIdsOf id)) :
    Good (renameRecord db id m) ∧
      Placeable (renameRecord db id m) (Text.trimSpace m) keys (db.inboundIdsOf id) := by
  refine ⟨⟨renameRecord_unique hgood.unique hfresh, ?_, hgood.fits, ?_, ?_⟩, ?_, hplace.kept⟩
  · intro l hl
    obtain ⟨r, hr, hkey⟩ := hgood.linked l hl
    have hmem : (if r.recordId == id then { r with email := m } else r) ∈
        (renameRecord db id m).records.rows := by
      rw [rows_renameRecord]
      exact mem_map_of_mem hr
    refine ⟨_, hmem, ?_⟩
    split <;> exact hkey
  · intro r' hr' l hl hkey kind hkind
    rcases mem_renameRecord hr' with ⟨hr, -⟩ | ⟨r, hr, -, rfl⟩
    · exact hgood.suits r' hr l hl hkey kind hkind
    · exact (hgood.suits r hr l hl hkey kind hkind).congr fun s => by cases s <;> rfl
  · intro j e he hne j' kind hkind hheld
    rcases holds_rename hheld with hold | ⟨hname, hj'⟩
    · exact hgood.coherent j e he hne j' kind hkind hold
    · have htrim : Text.trimSpace e.email = Text.trimSpace m := by
        rw [← hname, trimSpace_trimSpace]
      exact hplace.kept j e he htrim hne j' hj' kind hkind
  · intro k hk hgiven j kind hkind hj
    refine hplace.opens k hk hgiven j kind hkind ?_
    rcases hj with hj | hheld
    · exact .inl hj
    · rcases holds_rename hheld with hold | ⟨-, hj⟩
      · exact .inr hold
      · exact .inl hj

theorem create_good {payload : ClientCreatePayload} (hgood : Good db)
    (hfits : Fits env db (.create d payload)) : Good (step env dialect db (.create d payload)) := by
  simp only [step, call, OneEmail.create]
  split
  case h_1 => exact hgood
  case h_2 client hprepare =>
    have hplace := hfits client hprepare
    have hadded := @addToInbounds_good db env dialect client (.given client.password) _ _ d 0 payload.inboundIds
      hgood hplace (fun _ hi => hi) (.given client.password) (fun _ hk => hk)
    split
    case h_1 hfold =>
      rw [hfold] at hadded
      exact hadded
    case h_2 hfold =>
      rw [hfold] at hadded
      split
      · exact hadded
      · exact hadded.modify (fun _ => rfl) fun _ s => by cases s <;> rfl

theorem setReverse_good {id now : Int} {reverse : Option String} (hgood : Good db) :
    Good (setReverse db id reverse now) :=
  hgood.modify (fun _ => rfl) fun _ s => by cases s <;> rfl

theorem update_good {updated : Client} {inboundFilter : List Int} (hgood : Good db)
    (hfits : ∀ existing, db.records.find id = some existing →
      UpdatePlaceable d.draws db existing updated inboundFilter) :
    Good (update (panelEnv env) dialect d.draws db id updated inboundFilter).1 := by
  simp only [update]
  split
  case h_1 => exact hgood
  case h_2 existing hfind =>
    obtain ⟨-, hid⟩ := Table.mem_of_find hfind
    split
    case h_1 => exact hgood
    case h_2 client hprepare =>
      have hplace := hfits existing hfind client hprepare
      simp only [hid] at hplace
      have hrenamed : Good (if client.email = existing.email then db else renameRecord db id client.email) ∧
          kindAt (if client.email = existing.email then db else renameRecord db id client.email) = kindAt db ∧
          Placeable (if client.email = existing.email then db else renameRecord db id client.email)
            (Text.trimSpace client.email) (trail (.given client.password)
              ((if inboundFilter = [] then db.inboundIdsOf id
                else (db.inboundIdsOf id).filter inboundFilter.contains).filterMap (kindAt db)))
            (db.inboundIdsOf id) := by
        split
        case isTrue => exact ⟨hgood, rfl, hplace⟩
        case isFalse hne =>
          have hemail : client.email = updated.email := (prepareUpdate_alike hprepare).email
          have hfree := prepareUpdate_free hprepare (by rw [← hemail]; exact hne)
          obtain ⟨hgood₁, hplace₁⟩ := hgood.rename (fun r hr hname =>
            (hfree r hr (hname.trans hemail)).trans hid) hplace
          exact ⟨hgood₁, rfl, hplace₁⟩
      generalize (if client.email = existing.email then db else renameRecord db id client.email) = db₁
        at hrenamed ⊢
      obtain ⟨hgood₁, hkinds, hplace₁⟩ := hrenamed
      split
      case isTrue => exact hgood₁
      case isFalse =>
        have hsub : ∀ i ∈ (if inboundFilter = [] then db.inboundIdsOf id
            else (db.inboundIdsOf id).filter inboundFilter.contains), i ∈ db.inboundIdsOf id := by
          intro i hi
          split at hi
          · exact hi
          · exact (mem_filter.mp hi).1
        have hupdated := @updateInInbounds_good db₁ env dialect client (.given client.password) _ _ existing.email d
          0 _ id hgood₁ hplace₁ hsub (.given client.password) (by rw [hkinds]; exact fun _ hk => hk)
        simp only [andThen]
        split
        case h_1 hrun =>
          rw [hrun] at hupdated
          exact hupdated
        case h_2 hrun =>
          rw [hrun] at hupdated
          split
          · exact hupdated
          · exact setReverse_good hupdated

theorem rotate_good {m : String} {opts : RotateOptions} (hgood : Good db)
    (hfits : Fits env db (.rotate d m opts)) : Good (step env dialect db (.rotate d m opts)) := by
  simp only [step, call, rotate]
  split
  case h_1 => exact hgood
  case h_2 existing hrecord =>
    split
    case isTrue => exact hgood
    case isFalse =>
      refine update_good hgood fun x hx => ?_
      have hmem := mem_of_find?_eq_some hrecord
      obtain rfl : existing = x := Option.some.inj ((Table.find_of_mem hmem).symm.trans hx)
      exact hfits existing hrecord

theorem attach_good {inboundIds : List Int} (hgood : Good db)
    (hfits : Fits env db (.attach d id inboundIds)) :
    Good (step env dialect db (.attach d id inboundIds)) := by
  simp only [step, call, OneEmail.attach]
  split
  case h_1 => exact hgood
  case h_2 existing hfind =>
    obtain ⟨hplace, -⟩ := hfits existing hfind
    refine attachToInbounds_good hgood hplace (fun i hi hnew => mem_filter.mpr ⟨hi, by rw [hnew]; rfl⟩) ?_
    intro i hi kind hkind
    exact mem_map_of_mem (mem_filterMap.mpr ⟨i, hi, hkind⟩)

def Retains (id : Int) (email : String) (v : Secret → String) (fixed : Secret → Prop) (db : DB) : Prop :=
  ∃ x ∈ db.records.rows, x.recordId = id ∧ x.email = email ∧ ∀ s, fixed s → s.of x.toClient = v s

theorem mem_emails {r : ClientRecord} (hr : r ∈ db.records.rows) : r.email ∈ emails db.records :=
  mem_map_of_mem hr

theorem Retains.sync {v : Secret → String} {fixed : Secret → Prop} {kept : List Client}
    (h : Retains id email v fixed db) (hname : c.email = email) (hblank : Text.trimSpace c.email ≠ "")
    (hfixed : ∀ s, fixed s → s.of c = v s ∧ v s ≠ "") (hsync : syncInbound db i (kept ++ [c]) = .ok db') :
    Retains id email v fixed db' := by
  obtain ⟨x, hx, hid, hemail, hvalue⟩ := h
  obtain ⟨x', hx', hid', hemail'⟩ := syncInbound_persists hsync x hx
  refine ⟨x', hx', hid'.trans hid, hemail'.trans hemail, fun s hs => ?_⟩
  rcases syncInbound_record hsync hx' with ⟨r, hr, hover⟩ | ⟨-, hfresh⟩
  · obtain rfl := Table.eq_of_key hr hx (hover.key.symm.trans hid')
    have hsplit : named (kept ++ [c]) = named kept ++ [c] := by
      rw [named, filter_append, ← named]
      simp [hblank]
    obtain ⟨hvalue', hne⟩ := hfixed s hs
    rw [hover.secret s, hsplit]
    by_cases htrim : Text.trimSpace c.email = r.email
    · rw [carried_last htrim (by rw [hvalue']; exact hne), hvalue']
    · rcases @carried_cases (named kept ++ [c]) s r.email (s.of r.toClient) with ⟨heq, -⟩ | ⟨c', -, hc', -⟩
      · rw [heq, hvalue s hs]
      · refine absurd ?_ htrim
        rw [hname, ← hemail, ← hc', trimSpace_trimSpace]
  · rw [hemail'] at hfresh
    exact absurd (mem_emails hx) hfresh

def Fixed (db : DB) (wire : Client) (ids : List Int) (s : Secret) : Prop :=
  s.of wire ≠ "" ∧ (s = .password → ∀ i ∈ ids, ∀ kind, kindAt db i = some kind →
    (Key.given wire.password).opens kind = true)

theorem Filled.fixed {s : Secret} (h : Filled ib c c') (hne : s.of c ≠ "")
    (hopens : s = .password → (Key.given c.password).opens (kindOf ib) = true) : s.of c' = s.of c := by
  cases s with
  | id => exact h.id hne
  | auth => exact h.auth hne
  | password =>
    have hgiven : Key.given c.password ≠ .given "" := fun he => hne (Key.given.inj he)
    have hkept : (Key.given c.password).next (kindOf ib) = .given c.password := by
      rw [Key.next]
      split
      · rw [if_neg hgiven]
      · rw [if_pos (hopens rfl)]
      · rfl
    have hdescribes := h.describes _ (.given c.password)
    rw [hkept] at hdescribes
    exact hdescribes.eq

theorem stamped_single : OneEmail.stamped o (fun _ => subID) [c] = [stampEntry { o with subID } c] := by
  simp only [OneEmail.stamped, mapIdx_cons, mapIdx_nil]

theorem attachToInbounds_retains {is attached : List Int} {db₀ : DB}
    (hkinds : ∀ j, kindAt db j = kindAt db₀ j)
    (his : ∀ i ∈ is, attached.contains i = false → i ∈ ids)
    (h : Retains id client.email (Secret.of · client) (Fixed db₀ client ids) db) :
    Retains id client.email (Secret.of · client) (Fixed db₀ client ids)
      (OneEmail.attachToInbounds (panelEnv env) dialect d.draws attached client n db is).1 := by
  induction is generalizing n db with
  | nil => exact h
  | cons i is ih =>
    obtain ⟨hi, his⟩ := forall_mem_cons.mp his
    simp only [OneEmail.attachToInbounds]
    split
    case isTrue => exact ih hkinds his h
    case isFalse hnew =>
      split
      case h_1 => exact h
      case h_2 db₁ client₁ hadd =>
        have hmem := hi (by simpa using hnew)
        obtain ⟨ib, hib, rfl, hadd⟩ := addTo_ok hadd
        have hfill : Filled ib client
            (fillProtocolDefaults (panelEnv env) (withKeys (d.bytes n) (d.attempts n)) client ib) :=
          fillProtocolDefaults_filled
        have hkind : kindAt db₀ i = some (kindOf ib) := (hkinds i).symm.trans (kindAt_find hib)
        obtain ⟨⟨ib', -, hcredentials⟩, traffics, hsync⟩ := addInboundClient_stores hadd
        simp only [checkCredentials, bind_ok, check_ok, bne_iff_ne] at hcredentials
        obtain ⟨_, hblank, -⟩ := hcredentials
        rw [stamped_single] at hsync
        have hemail := (clientWithInboundFlow_keeps (fillProtocolDefaults (panelEnv env)
          (withKeys (d.bytes n) (d.attempts n)) client ib) ib).1.trans hfill.email
        have hsaved : Retains id client.email (Secret.of · client) (Fixed db₀ client ids)
            (saveClients { db with traffics } i (compactOrphans db (db.settingsClients i) ++
              [stampEntry { withKeys (d.bytes n) (d.attempts n) with subID := (d.attempts n).subID }
                (clientWithInboundFlow (fillProtocolDefaults (panelEnv env)
                  (withKeys (d.bytes n) (d.attempts n)) client ib) ib)])) := h
        refine ih (fun j => ((kindAt_sync hsync).trans kindAt_saved).trans (hkinds j)) his
          (hsaved.sync ((OneEmail.stampEntry_email _ _).trans hemail) ?_ ?_ hsync)
        · rw [OneEmail.stampEntry_email]
          exact hblank
        · rintro s ⟨hne, hopens⟩
          refine ⟨(stampEntry_secret _ _ s).trans ((clientWithInboundFlow_secret _ _ s).trans ?_), hne⟩
          exact hfill.fixed hne fun hs => hopens hs i hmem _ hkind

theorem mem_finalClients {stats : List ClientTraffic} {e : Entry} (he : e ∈ finalClients db ib stats) :
    ∃ r ∈ db.records.rows, ∃ l ∈ db.links, l.clientId = r.recordId ∧ l.inboundId = ib.id ∧
      e = entry ib.protocol { r.toClient with flow := l.flowOverride } := by
  obtain ⟨c, hc, rfl⟩ := mem_map.mp he
  obtain ⟨r, hr, hc⟩ := mem_flatMap.mp (mem_filter.mp hc).1
  obtain ⟨l, hl, rfl⟩ := mem_map.mp hc
  obtain ⟨hl, hlink⟩ := mem_filter.mp hl
  obtain ⟨hkey, hinbound⟩ := of_decide_eq_true hlink
  exact ⟨r, (mem_insertionSort _).mp hr, l, hl, hkey, hinbound, rfl⟩

theorem Good.loadable (hgood : Good db) : AllLoadable db := by
  intro enabled clientStats g hg e he
  obtain ⟨ib, hib, rfl⟩ := mem_map.mp hg
  obtain ⟨r, hr, l, hl, hkey, hinbound, rfl⟩ := mem_finalClients he
  have hkind : kindAt db l.inboundId = some (kindOf ib) := by
    rw [hinbound]
    exact kindAt_find (Table.find_of_mem (mem_filter.mp hib).1)
  exact ((hgood.suits r hr l hl hkey _ hkind).congr (flow_secret _ _)).loadable

theorem attach_keeps {inboundIds : List Int} (hgood : Good db)
    (hfits : Fits env db (.attach d id inboundIds)) :
    AttachKeeps db (step env dialect db (.attach d id inboundIds)) (.attach d id inboundIds) := by
  intro x hx ib hib stats stats' e he e' he' hemail hemail'
  have hgood' : Good (step env dialect db (.attach d id inboundIds)) := attach_good hgood hfits
  obtain ⟨hxrow, hid⟩ := Table.mem_of_find hx
  obtain ⟨r, hr, l, hl, hkey, hinbound, rfl⟩ := mem_finalClients he
  obtain ⟨r', hr', l', -, -, -, rfl⟩ := mem_finalClients he'
  rw [entry_email] at hemail hemail'
  obtain rfl : r = x := inj_on_of_nodup_map hgood.unique hr hxrow hemail
  have hlinked : l.inboundId ∈ db.inboundIdsOf id := mem_inboundIdsOf.mpr ⟨l, hl, hkey.trans hid, rfl⟩
  have hkind : kindAt db l.inboundId = some (kindOf ib) := by
    rw [hinbound]
    exact kindAt_find (Table.find_of_mem hib)
  have hretained : Retains id r.email (Secret.of · r.toClient)
      (Fixed db r.toClient (inboundIds.filter fun i => !(db.inboundIdsOf id).contains i))
      (step env dialect db (.attach d id inboundIds)) := by
    simp only [step, call, OneEmail.attach, hx]
    have hnew : ∀ i ∈ inboundIds, (db.inboundIdsOf id).contains i = false →
        i ∈ inboundIds.filter fun i => !(db.inboundIdsOf id).contains i :=
      fun i hi hnew => mem_filter.mpr ⟨hi, by rw [hnew]; rfl⟩
    have hwire : ∀ s : Secret, s.of { r.toClient with
        flow := db.effectiveFlow id, updatedAt := d.draws.now } = s.of r.toClient := by
      intro s
      cases s <;> rfl
    have hname : r.email = ({ r.toClient with
        flow := db.effectiveFlow id, updatedAt := d.draws.now } : Client).email := rfl
    generalize ({ r.toClient with flow := db.effectiveFlow id, updatedAt := d.draws.now } : Client) = wire
      at hwire hname ⊢
    have hstart : Retains id wire.email (Secret.of · wire)
        (Fixed db wire (inboundIds.filter fun i => !(db.inboundIdsOf id).contains i)) db :=
      ⟨r, hxrow, hid, hname, fun s _ => (hwire s).symm⟩
    obtain ⟨x', hx', hid', hname', hvalue⟩ := attachToInbounds_retains (fun _ => rfl) hnew hstart
    refine ⟨x', hx', hid', hname'.trans hname.symm, fun s hs => (hvalue s ?_).trans (hwire s)⟩
    have hpassword : wire.password = r.password := hwire .password
    rw [Fixed, hwire, hpassword]
    exact hs
  obtain ⟨x', hx', -, hname, hvalue⟩ := hretained
  obtain rfl : r' = x' := inj_on_of_nodup_map hgood'.unique hr' hx' (hemail'.trans hname.symm)
  rw [credentialOf_entry, credentialOf_entry]
  refine Option.map_congr fun s hs => ?_
  obtain ⟨hne, -⟩ := hgood.suits r hr l hl hkey _ hkind s hs
  have hsame : s.of r'.toClient = s.of r.toClient := by
    refine hvalue s ⟨hne, ?_⟩
    rintro rfl
    exact (hfits r hx).2 ⟨l.inboundId, hlinked, _, hkind, needsPassword_iff.mpr hs⟩
  exact (flow_secret _ _ s).trans (hsame.trans (flow_secret _ _ s).symm)

end loops

section batch

variable {db db' : DB} {env : Env} {dialect : Dialect} {d : BulkDraws} {c c' client : Client} {s : Secret}
  {i : Int} {k : Key} {kind : Kind} {keys : List Key} {ids : List Int} {ib : Inbound} {prep : List Prepared}

theorem next_ne (h : k ≠ .given "") : k.next kind ≠ .given "" := by
  rw [Key.next]
  split
  · rw [if_neg h]
    exact h
  · split
    · exact h
    · rw [fresh]
      split <;> exact nofun
  · exact h

theorem Filled.keeps (h : Filled ib c c') (hne : s.of c ≠ "") : s.of c' ≠ "" := by
  cases s with
  | id =>
    rw [Secret.of, h.id hne]
    exact hne
  | auth =>
    rw [Secret.of, h.auth hne]
    exact hne
  | password =>
    have hgiven : Key.given c.password ≠ .given "" := fun he => hne (Key.given.inj he)
    exact (h.describes _ (.given c.password)).ne (next_ne hgiven)

structure Completed (db : DB) (ids : List Int) (c c' : Client) : Prop where
  email : c'.email = c.email
  keeps : ∀ s : Secret, s.of c ≠ "" → s.of c' ≠ ""
  fills : ∀ i ∈ ids, ∃ ib, db.inbounds.find i = some ib ∧ ∀ s : Secret, asks ib.protocol = some s → s.of c' ≠ ""
  describes : ∀ k, Describes k c.password →
    Describes ((ids.filterMap (kindAt db)).foldl Key.next k) c'.password

theorem fillAll_completed {idx n : Nat} (h : fillAll (panelEnv env) d db idx n c ids = .ok c') :
    Completed db ids c c' := by
  induction ids generalizing n c with
  | nil =>
    cases h
    exact ⟨rfl, fun _ hne => hne, fun _ hi => absurd hi not_mem_nil, fun _ hk => hk⟩
  | cons i ids ih =>
    simp only [fillAll, bind_ok, orErr_ok] at h
    obtain ⟨_, -, ib, hib, h⟩ := h
    have hfill : Filled ib c (fillProtocolDefaults (panelEnv env)
        (withKeys (d.bytes idx n) (d.fill idx n)) c ib) := fillProtocolDefaults_filled
    obtain ⟨hemail, hkeeps, hfills, hdescribes⟩ := ih h
    refine ⟨hemail.trans hfill.email, fun s hne => hkeeps s (hfill.keeps hne), ?_, fun k hk => ?_⟩
    · refine forall_mem_cons.mpr ⟨⟨ib, hib, fun s hs => hkeeps s ?_⟩, hfills⟩
      exact (hfill.suits s hs).1
    · rw [filterMap_cons_some (kindAt_find hib), foldl_cons]
      exact hdescribes _ (hfill.describes k hk)

theorem preparePayload_ok {n : Nat} {seenEmail : List String} {seenSubID : List (String × String)}
    {payload : ClientCreatePayload} {p : Prepared}
    (h : preparePayload d n seenEmail seenSubID payload = .ok p) :
    Text.trimSpace p.client.email = p.client.email ∧ Text.toLower p.client.email ∉ seenEmail := by
  simp only [preparePayload, bind_ok, check_ok] at h
  obtain ⟨_, -, _, -, _, -, _, -, _, hseen, _, -, h⟩ := h
  cases h
  exact ⟨trimSpace_trimSpace _, by simpa using hseen⟩

theorem preparePayloads_distinct {n : Nat} {seenEmail : List String} {seenSubID : List (String × String)}
    {payloads : List ClientCreatePayload} :
    (∀ p ∈ (preparePayloads d n seenEmail seenSubID payloads).1,
      Text.trimSpace p.client.email = p.client.email ∧ Text.toLower p.client.email ∉ seenEmail) ∧
    (preparePayloads d n seenEmail seenSubID payloads).1.Pairwise fun p p' =>
      p'.client.email ≠ p.client.email := by
  induction payloads generalizing n seenEmail seenSubID with
  | nil => exact ⟨fun _ hp => absurd hp not_mem_nil, List.Pairwise.nil⟩
  | cons payload payloads ih =>
    simp only [preparePayloads]
    split
    case h_1 => exact ih
    case h_2 p hp =>
      obtain ⟨htrim, hseen⟩ := preparePayload_ok hp
      obtain ⟨hrest, hpairs⟩ := @ih (n + 1) (Text.toLower p.client.email :: seenEmail)
        ((p.client.subID, Text.toLower p.client.email) :: seenSubID)
      refine ⟨forall_mem_cons.mpr ⟨⟨htrim, hseen⟩, fun p' hp' => ?_⟩,
        pairwise_cons.mpr ⟨fun p' hp' hsame => ?_, hpairs⟩⟩
      · exact ⟨(hrest p' hp').1, fun hmem => (hrest p' hp').2 (mem_cons_of_mem _ hmem)⟩
      · exact (hrest p' hp').2 (by rw [hsame]; exact mem_cons_self)

structure Ready (db : DB) (ids : List Int) (client : Client) : Prop where
  placeable : ∃ k, Placeable db (Text.trimSpace client.email) [k] ids ∧ Describes k client.password
  fills : ∀ i ∈ ids, ∀ kind, kindAt db i = some kind → ∀ s : Secret, asks kind.protocol = some s → s.of client ≠ ""

theorem Ready.welcome (h : Ready db ids client) (hi : i ∈ ids) : Welcome db i client := by
  obtain ⟨k, hplace, hk⟩ := h.placeable
  refine ⟨fun kind hkind s hs => ⟨h.fills i hi kind hkind s hs, ?_⟩, [k], ids, hplace, hi, k,
    mem_singleton_self _, hk⟩
  rintro rfl
  exact hk.opens_given (h.fills i hi kind hkind _ hs) fun hgiven =>
    hplace.opens k (mem_singleton_self _) hgiven i kind hkind (.inl hi)

theorem Ready.grown {news : List Client} (h : Ready db ids client) (hgrown : Grown news i db db')
    (hnews : ∀ c ∈ news, Text.trimSpace c.email = Text.trimSpace client.email →
      i ∈ ids ∧ c.password = client.password) : Ready db' ids client := by
  obtain ⟨k, hplace, hk⟩ := h.placeable
  refine ⟨⟨k, hplace.grown hgrown fun c hc hname => ?_, hk⟩, fun j hj kind hkind => ?_⟩
  · obtain ⟨hi, hsame⟩ := hnews c hc hname
    exact ⟨hi, k, mem_singleton_self _, by rw [hsame]; exact hk⟩
  · rw [hgrown.kinds] at hkind
    exact h.fills j hj kind hkind

def Batch (db : DB) (admitted : List (List Int × Except String Client)) : Prop :=
  (∀ a ∈ admitted, ∀ client, a.2 = .ok client → Ready db a.1 client) ∧
    ∀ a ∈ admitted, ∀ b ∈ admitted, ∀ c c', a.2 = .ok c → b.2 = .ok c' →
      Text.trimSpace c.email = Text.trimSpace c'.email → a = b

theorem mem_byInbound {listed : DB} {admitted : List (List Int × Except String Client)}
    (h : c ∈ byInbound listed admitted i) :
    ∃ a ∈ admitted, ∃ client, a.2 = .ok client ∧ i ∈ a.1 ∧ c.email = client.email ∧
      ∀ s : Secret, s.of c = s.of client := by
  obtain ⟨a, ha, hc⟩ := mem_flatMap.mp h
  obtain ⟨ids, result⟩ := a
  cases result with
  | error e => exact absurd hc not_mem_nil
  | ok client =>
    obtain ⟨j, hj, rfl⟩ := mem_map.mp hc
    obtain ⟨hmem, hsame⟩ := mem_filter.mp hj
    obtain rfl := of_decide_eq_true hsame
    refine ⟨_, ha, client, rfl, hmem, ?_⟩
    cases listed.inbounds.find j with
    | none => exact ⟨rfl, fun _ => rfl⟩
    | some ib => exact ⟨(clientWithInboundFlow_keeps _ _).1, clientWithInboundFlow_secret _ _⟩

theorem addAll_good {listed : DB} {snapshot : Option DB} {admitted : List (List Int × Except String Client)}
    {order : List Int} (hgood : Good db) (hbatch : Batch db admitted) :
    Good (addAll dialect d snapshot (byInbound listed admitted) db order).1 := by
  induction order generalizing db with
  | nil => exact hgood
  | cons i order ih =>
    simp only [addAll]
    split
    case h_1 => exact ih hgood hbatch
    case h_2 db₁ hadd =>
      have hnews : ∀ c ∈ byInbound listed admitted i, Welcome db i c := by
        intro c hc
        obtain ⟨a, ha, client, hclient, hi, hemail, hsecret⟩ := mem_byInbound hc
        exact ((hbatch.1 a ha client hclient).welcome hi).congr hemail hsecret
      obtain ⟨hgood₁, hgrown⟩ := hgood.add hnews hadd
      refine ih hgood₁ ⟨fun a ha client hclient => ?_, hbatch.2⟩
      refine (hbatch.1 a ha client hclient).grown hgrown fun c hc hname => ?_
      obtain ⟨n, hn, rfl⟩ := OneEmail.mem_stamped.mp hc
      obtain ⟨b, hb, client', hclient', hi, hemail, hsecret⟩ := mem_byInbound (getElem_mem hn)
      rw [OneEmail.stampEntry_email, hemail] at hname
      obtain rfl := hbatch.2 b hb a ha client' client hclient' hclient hname
      obtain rfl := Except.ok.inj (hclient'.symm.trans hclient)
      exact ⟨hi, (stampEntry_secret _ _ .password).trans (hsecret .password)⟩

theorem mem_admitted {a : List Int × Except String Client} :
    a ∈ admitted env d db prep ↔ ∃ idx, ∃ hidx : idx < prep.length,
      a = (prep[idx].inboundIds, fillPrepared env d db prep idx prep[idx]) := by
  simp only [admitted, mem_mapIdx, eq_comm]

theorem fillPrepared_completed {idx : Nat} {p : Prepared} (h : fillPrepared (panelEnv env) d db prep idx p = .ok c) :
    Completed db p.inboundIds p.client c := by
  simp only [fillPrepared, bind_ok] at h
  obtain ⟨_, -, _, -, h⟩ := h
  exact fillAll_completed h

theorem batch_admitted {payloads : List ClientCreatePayload} (hfits : Fits env db (.bulkCreate d payloads)) :
    Batch db (admitted (panelEnv env) d db (preparePayloads d 0 [] [] payloads).1) := by
  obtain ⟨htrimmed, hdistinct⟩ := @preparePayloads_distinct d 0 [] [] payloads
  simp only [Fits] at hfits
  generalize (preparePayloads d 0 [] [] payloads).1 = prep at hfits htrimmed hdistinct ⊢
  constructor
  · intro a ha client hclient
    obtain ⟨idx, hidx, rfl⟩ := mem_admitted.mp ha
    have hprepared : fillPrepared (panelEnv env) d db prep idx prep[idx] = .ok client := hclient
    have hdone := fillPrepared_completed hprepared
    have hplace := hfits idx prep[idx] (getElem?_eq_getElem hidx) (by rw [hprepared]; rfl)
    rw [← hdone.email] at hplace
    refine ⟨⟨_, hplace, hdone.describes _ (.given _)⟩, fun i hi kind hkind => ?_⟩
    obtain ⟨ib, hib, hfills⟩ := hdone.fills i hi
    obtain rfl := Option.some.inj ((kindAt_find hib).symm.trans hkind)
    exact hfills
  · intro a ha b hb c c' hc hc' hname
    obtain ⟨idx, hidx, rfl⟩ := mem_admitted.mp ha
    obtain ⟨idx', hidx', rfl⟩ := mem_admitted.mp hb
    have hemail := (fillPrepared_completed hc).email
    have hemail' := (fillPrepared_completed hc').email
    have hsame : prep[idx].client.email = prep[idx'].client.email := by
      rw [hemail, hemail', (htrimmed _ (getElem_mem hidx)).1, (htrimmed _ (getElem_mem hidx')).1] at hname
      exact hname
    have hapart := pairwise_iff_getElem.mp hdistinct
    rcases Nat.lt_trichotomy idx idx' with hlt | rfl | hlt
    · exact absurd hsame.symm (hapart idx idx' hidx hidx' hlt)
    · rfl
    · exact absurd hsame (hapart idx' idx hidx' hidx hlt)

theorem bulkCreate_good {payloads : List ClientCreatePayload} (hgood : Good db)
    (hfits : Fits env db (.bulkCreate d payloads)) :
    Good (step env dialect db (.bulkCreate d payloads)) := by
  have hbatch := batch_admitted hfits
  simp only [step, call, bulkCreate]
  split
  case h_1 => exact hgood
  case h_2 prep skipped _ hprep =>
    rw [hprep] at hbatch
    split
    · exact hgood
    · exact addAll_good hgood hbatch

end batch

section runs

variable {db : DB} {env : Env} {dialect : Dialect} {e : Event} {es : List Event}

theorem step_good (hgood : Good db) (hfits : Fits env db e) : Good (step env dialect db e) := by
  cases e with
  | create d payload => exact create_good hgood hfits
  | bulkCreate d payloads => exact bulkCreate_good hgood hfits
  | attach d id inboundIds => exact attach_good hgood hfits
  | update d id updated inboundFilter => exact update_good hgood hfits
  | rotate d email opts => exact rotate_good hgood hfits

theorem EmptyPanel.good (h : EmptyPanel db) : Good db := by
  have hentries : ∀ i, ∀ e ∈ db.settingsClients i, False := by
    intro i e he
    rw [h.settings i] at he
    exact absurd he not_mem_nil
  refine ⟨?_, ?_, fun i _ _ e he => (hentries i e he).elim, ?_, fun i e he => (hentries i e he).elim⟩
  · rw [emails, h.records]
    exact nodup_nil
  · intro l hl
    rw [h.links] at hl
    exact absurd hl not_mem_nil
  · intro r hr
    rw [h.records] at hr
    exact absurd hr not_mem_nil

theorem generated_credentials_loadable (hempty : EmptyPanel db)
    (hfits : Throughout (step env dialect) (fun db e => Successful env dialect db e ∧ Fits env db e) db es) :
    AllLoadable (es.foldl (step env dialect) db) ∧
      Throughout (step env dialect) (fun db e => AllLoadable db ∧ AttachKeeps db (step env dialect db e) e)
        db es := by
  have hgood := hfits.keep hempty.good fun _ _ hgood h => step_good hgood h.2
  refine ⟨(hfits.foldl hempty.good fun _ _ hgood h => step_good hgood h.2).loadable,
    hgood.imp fun db e h => ⟨h.1.loadable, ?_⟩⟩
  obtain ⟨hgood, -, hfits⟩ := h
  cases e with
  | attach d id inboundIds => exact attach_keeps hgood hfits
  | _ => trivial

end runs

section instances

variable {db : DB} {ib : Inbound} {e : Entry} {k : Key} {kind : Kind} {keys : List Key} {ids : List Int}
  {i : Int} {email : String}

theorem Loadable.valid (h : Loadable ib e) (hp : ib.protocol = .shadowsocks) :
    validShadowsocksClientKey ib.method e.password = true := by
  by_cases hlegacy : shadowsocksKeyBytes ib.method = 0
  · refine (valid_legacy hlegacy).mpr fun hblank => h.present ?_
    rw [hp, credentialOf, hblank]
  · exact (valid_iff hlegacy).mpr (h.keyed hp hlegacy)

def refused (db : DB) : Bool :=
  (getXrayConfig db (fun _ => true) fun _ => []).any fun g => g.2.any fun e =>
    g.1.protocol == .shadowsocks && !validShadowsocksClientKey g.1.method e.password

theorem not_loadable (h : refused db = true) : ¬ AllLoadable db := by
  intro hall
  obtain ⟨g, hg, hrest⟩ := any_eq_true.mp h
  obtain ⟨e, he, hbad⟩ := any_eq_true.mp hrest
  obtain ⟨hp, hinvalid⟩ := Bool.and_eq_true_iff.mp hbad
  have hvalid := (hall _ _ g hg e he).valid (beq_iff_eq.mp hp)
  rw [hvalid] at hinvalid
  cases hinvalid

theorem opens_of_all (h : (db.inbounds.rows.all fun ib => k.opens (kindOf ib)) = true)
    (hkind : kindAt db i = some kind) : k.opens kind = true := by
  obtain ⟨ib, hib, rfl⟩ := Option.map_eq_some_iff.mp hkind
  exact all_eq_true.mp h ib (Table.mem_of_find hib).1

theorem Placeable.of_all
    (hkeys : (keys.all fun k => db.inbounds.rows.all fun ib => k.opens (kindOf ib)) = true)
    (hkept : ((allClients db).all fun e => db.inbounds.rows.all fun ib =>
      (Key.given e.password).opens (kindOf ib)) = true) : Placeable db email keys ids := by
  constructor
  · intro k hk _ i kind hkind _
    exact opens_of_all (all_eq_true.mp hkeys k hk) hkind
  · intro i e he _ _ j _ kind hkind
    exact opens_of_all (all_eq_true.mp hkept e (mem_allClients.mpr ⟨i, he⟩)) hkind

def panelWith (kinds : List (Protocol × String)) : DB where
  inbounds := kinds.foldl (fun t kind =>
    t.insert (fun id => ⟨id, kind.1, none, kind.2, false, some []⟩) fun _ => rfl) .empty
  records := .empty
  links := []
  traffics := []

def keyDraws : KeyDraws := { OneEmail.drawsWith OneEmail.settled with bytes := fun _ _ => 0 }

def createBob (inboundIds : List Int) : Event := .create keyDraws ⟨RuntimePush.bob true, inboundIds, 0, 0⟩

def twoKeyLengths : DB :=
  panelWith [(.shadowsocks, "2022-blake3-aes-128-gcm"), (.shadowsocks, "2022-blake3-aes-256-gcm")]

def trojanAndKey : DB := panelWith [(.trojan, ""), (.shadowsocks, "2022-blake3-aes-256-gcm")]

theorem panelWith_empty {kinds : List (Protocol × String)}
    (h : allClients (panelWith kinds) = []) : EmptyPanel (panelWith kinds) := by
  refine ⟨fun i => eq_nil_iff_forall_not_mem.mpr fun e he => ?_, rfl, rfl⟩
  have hmem := mem_allClients.mpr ⟨i, he⟩
  rw [h] at hmem
  exact absurd hmem not_mem_nil

theorem successful_of_isOk {env : Env} {dialect : Dialect} {event : Event}
    (h : (call env dialect db event).2.isOk = true) : Successful env dialect db event := by
  rw [Successful]
  revert h
  cases (call env dialect db event).2 with
  | error e => exact nofun
  | ok u => exact fun _ => rfl

theorem generated_credentials_loadable_attached :
    AllLoadable ([createBob [2], .attach keyDraws 1 [1]].foldl (step plainEnv .sqlite) trojanAndKey) := by
  have hfits : Throughout (step plainEnv .sqlite)
      (fun db e => Successful plainEnv .sqlite db e ∧ Fits plainEnv db e) trojanAndKey
      [createBob [2], .attach keyDraws 1 [1]] := by
    refine ⟨⟨successful_of_isOk (by decide +kernel), ?_⟩,
      ⟨successful_of_isOk (by decide +kernel), fun existing hfind => ?_⟩, trivial⟩
    · intro client hprepare
      have hpassword : client.password = "" := by
        simp only [prepare, bind_ok] at hprepare
        obtain ⟨_, -, _, -, _, -, _, -, _, -, _, -, h⟩ := hprepare
        cases h
        rfl
      rw [hpassword]
      exact .of_all (by decide +kernel) (by decide +kernel)
    · have hrow : ((step plainEnv .sqlite trojanAndKey (createBob [2])).records.find 1).map (·.password) =
          some (base64Bytes (fun _ => 0) 32) := by decide +kernel
      rw [hfind] at hrow
      have hpassword : existing.password = base64Bytes (fun _ => 0) 32 := Option.some.inj hrow
      rw [hpassword]
      exact ⟨.of_all (by decide +kernel) (by decide +kernel), fun _ _ _ _ hkind =>
        opens_of_all (by decide +kernel) hkind⟩
  exact (generated_credentials_loadable (panelWith_empty (by decide +kernel)) hfits).1

theorem overwritten_key : EmptyPanel twoKeyLengths ∧
    Successful plainEnv .sqlite twoKeyLengths (createBob [1, 2]) ∧
    ¬ AllLoadable ([createBob [1, 2]].foldl (step plainEnv .sqlite) twoKeyLengths) :=
  ⟨panelWith_empty (by decide +kernel), successful_of_isOk (by decide +kernel),
    not_loadable (by decide +kernel)⟩

end instances

end Credentials

end QuiPanel
