import QuiPanel.Text
import QuiPanel.Library.Json
import QuiPanel.Library.Table
import QuiPanel.Library.Outcome

namespace QuiPanel

namespace Ports

open Keyed Outcome

inductive Protocol
  | vmess
  | vless
  | tunnel
  | http
  | trojan
  | shadowsocks
  | mixed
  | wireGuard
  | hysteria
  | mtproto
  | tun
  deriving DecidableEq, Repr

structure Inbound where
  id : Int
  total : Int64
  remark : String
  subSortIndex : Int
  enable : Bool
  expiryTime : Int64
  trafficReset : String
  listen : String
  port : Int
  protocol : Protocol
  settings : Option Json
  streamSettings : Option Json
  tag : String
  sniffing : Option Json
  nodeId : Option Int
  shareAddrStrategy : String
  shareAddr : String

abbrev DB := Table Inbound Inbound.id

structure Transports where
  tcp : Bool
  udp : Bool
  deriving DecidableEq, Repr

namespace Transports

def inter (a b : Transports) : Transports := ⟨a.tcp && b.tcp, a.udp && b.udp⟩

def isZero (a : Transports) : Bool := !a.tcp && !a.udp

def tagSuffix : Transports → String
  | ⟨true, false⟩ => "tcp"
  | ⟨false, true⟩ => "udp"
  | ⟨true, true⟩ => "tcpudp"
  | ⟨false, false⟩ => "any"

end Transports

def stringField (doc : Option Json) (key : String) : String :=
  match doc.bind (·.field key) with
  | some (.str s) => s
  | _ => ""

def boolField (doc : Option Json) (key : String) : Bool :=
  match doc.bind (·.field key) with
  | some (.bool b) => b
  | _ => false

def intOf : Json → Int
  | .num digits => digits.toInt?.getD 0
  | _ => 0

def intField (doc : Option Json) (key : String) : Int := ((doc.bind (·.field key)).map intOf).getD 0

def splitComma : List Char → List (List Char)
  | [] => [[]]
  | ',' :: cs => [] :: splitComma cs
  | c :: cs =>
    match splitComma cs with
    | part :: parts => (c :: part) :: parts
    | [] => [[c]]

def csvTransports (csv : String) : Transports :=
  let parts := (splitComma csv.toList).map fun part => Text.trimSpace (String.ofList part)
  ⟨parts.contains "tcp", parts.contains "udp"⟩

def inboundTransports (protocol : Protocol) (streamSettings settings : Option Json) : Transports :=
  match protocol with
  | .hysteria | .wireGuard => ⟨false, true⟩
  | .mtproto => ⟨true, false⟩
  | _ =>
    let network := stringField streamSettings "network"
    let bits : Transports := if network = "kcp" ∨ network = "quic" then ⟨false, true⟩ else ⟨true, false⟩
    let bits := match protocol with
      | .shadowsocks | .tunnel =>
        let csv := stringField settings (if protocol = .tunnel then "allowedNetwork" else "network")
        if csv = "" then bits else csvTransports csv
      | .mixed => if boolField settings "udp" then { bits with udp := true } else bits
      | _ => bits
    if bits.isZero then ⟨true, false⟩ else bits

def Inbound.transports (ib : Inbound) : Transports :=
  inboundTransports ib.protocol ib.streamSettings ib.settings

def isAnyListen (s : String) : Bool := s == "" || s == "0.0.0.0" || s == "::" || s == "::0"

def listenOverlaps (a b : String) : Bool := isAnyListen a || isAnyListen b || a == b

structure PortConflictDetail where
  inboundId : Int
  remark : String
  tag : String
  listen : String
  port : Int
  transports : Transports

def PortConflictDetail.text (d : PortConflictDetail) : String :=
  let name := if d.remark = "" then d.tag else d.remark
  let name :=
    if name = "" then "#" ++ toString d.inboundId
    else if 0 < d.inboundId then "'" ++ name ++ "' (#" ++ toString d.inboundId ++ ")"
    else "'" ++ name ++ "'"
  let listen := if isAnyListen d.listen then "*" else d.listen
  "port " ++ toString d.port ++ " (" ++ d.transports.tagSuffix ++ ") already used by inbound " ++
    name ++ " on " ++ listen

structure Env where
  xrayConfigTemplate : Option Json
  normalizeInboundShareHost : String → Option String
  fakeTLSSecret : String → String → String

def defaultXrayAPIPort : Int := 62789

def reservedAPIPort (env : Env) : Int :=
  match env.xrayConfigTemplate.bind (·.field "inbounds") with
  | some (.arr inbounds) =>
    ((inbounds.find? fun ib => stringField (some ib) "tag" = "api" ∧ 0 < intField (some ib) "port").map
      fun ib => intField (some ib) "port").getD defaultXrayAPIPort
  | _ => defaultXrayAPIPort

structure Outcome where
  egressPort : Option Int
  stamped : Option Json
  refused : Option String

section requests

variable (env : Env) (o : Outcome) (db : DB)

def reservedClash (ib : Inbound) : Bool :=
  ib.nodeId.isNone && ib.port == reservedAPIPort env && ib.transports.tcp &&
    listenOverlaps "127.0.0.1" ib.listen

def collides (c ib : Inbound) : Bool :=
  c.nodeId == ib.nodeId && listenOverlaps c.listen ib.listen &&
    !(c.transports.inter ib.transports).isZero

def checkPortConflict (ib : Inbound) (ignoreId : Int) : Option PortConflictDetail :=
  if reservedClash env ib then
    some ⟨0, "", "api", "127.0.0.1", ib.port, ⟨true, false⟩⟩
  else
    let candidates := db.rows.filter fun c => c.port == ib.port && !(0 < ignoreId && c.id == ignoreId)
    (candidates.find? fun c => collides c ib).map fun c =>
      ⟨c.id, c.remark, c.tag, c.listen, c.port, c.transports.inter ib.transports⟩

def nodeTagPrefix : Option Int → String
  | none => ""
  | some id => "n" ++ toString id ++ "-"

def composeInboundTag (port : Int) (nodeId : Option Int) (bits : Transports) : String :=
  nodeTagPrefix nodeId ++ "in-" ++ toString port ++ "-" ++ bits.tagSuffix

def isAutoGeneratedTag (tag : String) (port : Int) (nodeId : Option Int) (bits : Transports) : Bool :=
  let base := composeInboundTag port nodeId bits
  tag == base ||
    ((base ++ "-").toList.isPrefixOf tag.toList &&
      let suffix := tag.toList.drop (base ++ "-").length
      suffix != [] && suffix.all Char.isDigit)

def tagExists (tag : String) (ignoreId : Int) : Bool :=
  db.rows.any fun c => c.tag == tag && !(0 < ignoreId && c.id == ignoreId)

def generateInboundTag (ib : Inbound) (ignoreId : Int) : Except String String :=
  let candidate := composeInboundTag ib.port ib.nodeId ib.transports
  let candidates := candidate ::
    (List.range' 2 98).map fun i => candidate ++ "-" ++ toString i
  orErr (candidates.find? fun tag => !tagExists db tag ignoreId)
    ("could not pick a unique inbound tag for port: " ++ toString ib.port ++ "\n")

def resolveInboundTag (ib : Inbound) (ignoreId : Int) : Except String String :=
  if ib.tag ≠ "" ∧ !tagExists db ib.tag ignoreId then .ok ib.tag
  else generateInboundTag db ib ignoreId

def normalizeStreamSettings (ib : Inbound) : Inbound :=
  match ib.protocol with
  | .vmess | .vless | .trojan | .shadowsocks | .hysteria | .wireGuard => ib
  | _ => { ib with streamSettings := none }

def healMtprotoSecret (settings : Option Json) : Option Json :=
  let domain := Text.trimSpace (stringField settings "fakeTlsDomain")
  if domain = "" then settings
  else
    let secret := stringField settings "secret"
    let expected := env.fakeTLSSecret secret domain
    if secret = expected then settings else settings.map (·.set "secret" (.str expected))

def normalizeMtprotoSecret (ib : Inbound) : Inbound :=
  if ib.protocol = .mtproto then { ib with settings := healMtprotoSecret env ib.settings } else ib

def normalizeMtprotoXrayPort (ib : Inbound) (oldSettings : Option Json) : Except String Inbound :=
  match ib.protocol, ib.settings with
  | .mtproto, some (.obj fields) =>
    let parsed := Json.obj fields
    if !boolField (some parsed) "routeThroughXray" then
      .ok { ib with settings := some (parsed.without ["routeXrayPort", "outboundTag"]) }
    else do
      let stored := intField oldSettings "routeXrayPort"
      let sent := intField (some parsed) "routeXrayPort"
      let known := if 0 < stored then some stored else if 0 < sent then some sent else none
      let port ← orErr (known.or o.egressPort) "mtproto: could not allocate an Xray egress port"
      return if sent = port then ib
        else { ib with settings := some (parsed.set "routeXrayPort" (.num (toString port))) }
  | _, _ => .ok ib

def normalizeSubSortIndex (v : Int) : Int := if v < 1 then 1 else v

def normalizeInboundShareAddrStrategy (strategy : String) : String :=
  let strategy := Text.trimSpace strategy
  if strategy = "listen" ∨ strategy = "custom" then strategy else "node"

def normalizeInboundShareAddress (ib : Inbound) : Inbound :=
  { ib with
    shareAddrStrategy := normalizeInboundShareAddrStrategy ib.shareAddrStrategy
    shareAddr := (env.normalizeInboundShareHost ib.shareAddr).getD (Text.trimSpace ib.shareAddr) }

def normalizeInboundShareAddressStrict (ib : Inbound) : Except String Inbound := do
  let shareAddr ← orErr (env.normalizeInboundShareHost ib.shareAddr)
    "shareAddr must be a host or IP without scheme or port\n"
  return { ib with
    shareAddrStrategy := normalizeInboundShareAddrStrategy ib.shareAddrStrategy, shareAddr }

def noConflict (ib : Inbound) (ignoreId : Int) : Except String Unit :=
  match checkPortConflict env db ib ignoreId with
  | some d => .error (d.text ++ "\n")
  | none => .ok ()

def stampClients (settings : Option Json) : Option Json :=
  match o.stamped with
  | some clients => settings.map (·.set "clients" clients)
  | none => settings

def laterSteps : Except String Unit := o.refused.elim (.ok ()) .error

def save (ib : Inbound) : DB :=
  if ib.id = 0 then db.insert (fun id => { ib with id }) fun _ => rfl else db.put ib

def addInbound (payload : Inbound) : Except String DB := do
  let ib := normalizeMtprotoSecret env (normalizeStreamSettings payload)
  let ib ← normalizeMtprotoXrayPort o ib none
  let ib ← normalizeInboundShareAddressStrict env
    { ib with subSortIndex := normalizeSubSortIndex ib.subSortIndex }
  noConflict env db ib 0
  let tag ← resolveInboundTag db ib 0
  laterSteps o
  return save db { ib with tag, settings := stampClients o ib.settings }

def prepareUpdate (payload : Inbound) : Inbound :=
  let ib := normalizeMtprotoSecret env (normalizeStreamSettings payload)
  { ib with subSortIndex := normalizeSubSortIndex ib.subSortIndex }

def shareAddress (ib oldInbound : Inbound) : Except String (String × String) :=
  if Text.trimSpace ib.shareAddrStrategy = "" then
    let ob := normalizeInboundShareAddress env oldInbound
    .ok (ob.shareAddrStrategy, ob.shareAddr)
  else (normalizeInboundShareAddressStrict env ib).map fun ib => (ib.shareAddrStrategy, ib.shareAddr)

def updateInbound (payload : Inbound) : Except String DB := do
  let ib := prepareUpdate env payload
  noConflict env db ib ib.id
  let oldInbound ← orErr (db.find ib.id) "record not found"
  let ib ← normalizeMtprotoXrayPort o { ib with nodeId := oldInbound.nodeId } oldInbound.settings
  let tag := oldInbound.tag
  let oldTagWasAuto := isAutoGeneratedTag tag oldInbound.port oldInbound.nodeId oldInbound.transports
  let settings := stampClients o ib.settings
  let (shareAddrStrategy, shareAddr) ← shareAddress env ib oldInbound
  let ib := { ib with
    settings, shareAddrStrategy, shareAddr, tag := if oldTagWasAuto ∧ ib.tag = tag then "" else ib.tag }
  let tag ← resolveInboundTag db ib ib.id
  laterSteps o
  return db.modify (fun r => r.id == ib.id) (fun r => { ib with id := r.id, tag }) fun _ => rfl

end requests

inductive Act
  | addInbound (payload : Inbound) (o : Outcome)
  | updateInbound (payload : Inbound) (o : Outcome)

def call (env : Env) (db : DB) : Act → Except String DB
  | .addInbound payload o => addInbound env o db payload
  | .updateInbound payload o => updateInbound env o db payload

def step (env : Env) (db : DB) (a : Act) : DB := (call env db a).toOption.getD db

def run (env : Env) (db : DB) (acts : List Act) : DB := acts.foldl (step env) db

structure Free (env : Env) (db : DB) : Prop where
  ports : ∀ a ∈ db.rows, ∀ b ∈ db.rows, a.id ≠ b.id → a.port = b.port → collides a b = false
  reserved : ∀ a ∈ db.rows, reservedClash env a = false

def clashes (env : Env) (db : DB) (ib : Inbound) : Bool :=
  reservedClash env ib || db.rows.any fun c => c.id != ib.id && c.port == ib.port && collides c ib

def Inbound.atNode (ib : Inbound) (nodeId : Option Int) : Inbound := { ib with nodeId }

def Inbound.binding (ib : Inbound) : Option Int × Int × String × Transports :=
  (ib.nodeId, ib.port, ib.listen, ib.transports)

section binding

variable {env : Env} {o : Outcome} {db db' : DB} {a b c ib ib' : Inbound}

theorem listenOverlaps_comm (s t : String) : listenOverlaps s t = listenOverlaps t s := by
  simp only [listenOverlaps, Bool.or_comm (isAnyListen s), Bool.beq_comm (a := s)]

theorem collides_comm (a b : Inbound) : collides a b = collides b a := by
  have hnode : (a.nodeId == b.nodeId) = (b.nodeId == a.nodeId) := Bool.beq_comm
  have hinter : a.transports.inter b.transports = b.transports.inter a.transports := by
    simp only [Transports.inter, Bool.and_comm]
  rw [collides, collides, hnode, listenOverlaps_comm, hinter]

theorem collides_congr (h : ib'.binding = ib.binding) (c : Inbound) : collides c ib' = collides c ib := by
  simp only [Inbound.binding, Prod.mk.injEq] at h
  obtain ⟨hnode, -, hlisten, htransports⟩ := h
  rw [collides, collides, hnode, hlisten, htransports]

theorem reservedClash_congr (h : ib'.binding = ib.binding) :
    reservedClash env ib' = reservedClash env ib := by
  simp only [Inbound.binding, Prod.mk.injEq] at h
  obtain ⟨hnode, hport, hlisten, htransports⟩ := h
  rw [reservedClash, reservedClash, hnode, hport, hlisten, htransports]

theorem binding_port (h : ib'.binding = ib.binding) : ib'.port = ib.port := congrArg (·.2.1) h

theorem clashes_false : clashes env db ib = false ↔
    reservedClash env ib = false ∧
      ∀ c ∈ db.rows, c.id ≠ ib.id → c.port = ib.port → collides c ib = false := by
  simp only [clashes, Bool.or_eq_false_iff, List.any_eq_false, Bool.and_eq_true, bne_iff_ne, ne_eq,
    beq_iff_eq, not_and, Bool.not_eq_true, and_imp]

theorem noConflict_ok {ignoreId : Int} {u : Unit} (h : noConflict env db ib ignoreId = .ok u) :
    reservedClash env ib = false ∧
      ∀ c ∈ db.rows, ¬ (0 < ignoreId ∧ c.id = ignoreId) → c.port = ib.port → collides c ib = false := by
  have hnone : checkPortConflict env db ib ignoreId = none := by
    cases hd : checkPortConflict env db ib ignoreId with
    | none => rfl
    | some d => simp [noConflict, hd] at h
  rw [checkPortConflict] at hnone
  split at hnone
  · cases hnone
  case isFalse hreserved =>
    refine ⟨by simpa using hreserved, ?_⟩
    intro c hc hid hport
    rw [Option.map_eq_none_iff, List.find?_eq_none] at hnone
    have hcandidate : c ∈ db.rows.filter
        fun c => c.port == ib.port && !(0 < ignoreId && c.id == ignoreId) := by
      rw [List.mem_filter]
      refine ⟨hc, ?_⟩
      simp only [hport, beq_self_eq_true, Bool.true_and, Bool.not_eq_true', Bool.and_eq_false_imp,
        decide_eq_true_eq, beq_eq_false_iff_ne, ne_eq]
      exact fun hpos he => hid ⟨hpos, he⟩
    simpa using hnone c hcandidate

theorem stringField_set {key k : String} (doc : Option Json) (v : Json) (hne : key ≠ k) :
    stringField (doc.map (·.set k v)) key = stringField doc key := by
  cases doc with
  | none => rfl
  | some w => simp only [stringField, Option.map_some, Option.bind_some, Json.field_set hne]

theorem boolField_set {key k : String} (doc : Option Json) (v : Json) (hne : key ≠ k) :
    boolField (doc.map (·.set k v)) key = boolField doc key := by
  cases doc with
  | none => rfl
  | some w => simp only [boolField, Option.map_some, Option.bind_some, Json.field_set hne]

theorem inboundTransports_stampClients (protocol : Protocol) (streamSettings settings : Option Json) :
    inboundTransports protocol streamSettings (stampClients o settings) =
      inboundTransports protocol streamSettings settings := by
  rw [stampClients]
  cases o.stamped with
  | none => rfl
  | some clients =>
    have hallowed := stringField_set settings clients
      (show "allowedNetwork" ≠ "clients" by decide)
    have hnetwork := stringField_set settings clients
      (show "network" ≠ "clients" by decide)
    have hudp := boolField_set settings clients (show "udp" ≠ "clients" by decide)
    cases protocol <;> simp only [inboundTransports, hallowed, hnetwork, hudp, if_true, reduceCtorEq,
      if_false]

theorem normalizeMtprotoXrayPort_ok {oldSettings : Option Json}
    (h : normalizeMtprotoXrayPort o ib oldSettings = .ok ib') :
    ∃ settings, ib' = { ib with settings } ∧ (ib.protocol = .mtproto ∨ settings = ib.settings) := by
  rw [normalizeMtprotoXrayPort] at h
  split at h
  case h_1 fields hprotocol hsettings =>
    dsimp only at h
    split at h
    · cases h
      exact ⟨_, rfl, .inl hprotocol⟩
    · simp only [bind_ok, orErr_ok] at h
      obtain ⟨port, -, h⟩ := h
      cases h
      split
      · exact ⟨_, rfl, .inr rfl⟩
      · exact ⟨_, rfl, .inl hprotocol⟩
  case h_2 =>
    cases h
    exact ⟨_, rfl, .inr rfl⟩

theorem binding_normalizeMtprotoXrayPort {oldSettings : Option Json}
    (h : normalizeMtprotoXrayPort o ib oldSettings = .ok ib') :
    ib'.id = ib.id ∧ ib'.binding = ib.binding := by
  obtain ⟨settings, rfl, hprotocol | rfl⟩ := normalizeMtprotoXrayPort_ok h
  · refine ⟨rfl, ?_⟩
    simp only [Inbound.binding, Inbound.transports, hprotocol, inboundTransports]
  · exact ⟨rfl, rfl⟩

theorem normalizeStreamSettings_keeps (ib : Inbound) :
    (normalizeStreamSettings ib).id = ib.id ∧ (normalizeStreamSettings ib).nodeId = ib.nodeId := by
  rw [normalizeStreamSettings]
  split <;> exact ⟨rfl, rfl⟩

theorem normalizeMtprotoSecret_keeps (env : Env) (ib : Inbound) :
    (normalizeMtprotoSecret env ib).id = ib.id ∧ (normalizeMtprotoSecret env ib).nodeId = ib.nodeId := by
  rw [normalizeMtprotoSecret]
  split <;> exact ⟨rfl, rfl⟩

theorem prepareUpdate_keeps (env : Env) (payload : Inbound) :
    (prepareUpdate env payload).id = payload.id ∧
      (prepareUpdate env payload).nodeId = payload.nodeId := by
  obtain ⟨hid, hnode⟩ := normalizeStreamSettings_keeps payload
  obtain ⟨hid', hnode'⟩ := normalizeMtprotoSecret_keeps env (normalizeStreamSettings payload)
  exact ⟨hid'.trans hid, hnode'.trans hnode⟩

variable {payload : Inbound}

theorem addInbound_ok (h : addInbound env o db payload = .ok db') :
    ∃ ib stored, noConflict env db ib 0 = .ok () ∧ stored.binding = ib.binding ∧ db' = save db stored := by
  simp only [addInbound, bind_ok] at h
  obtain ⟨routed, -, ib, -, u, hfree, tag, -, -, -, h⟩ := h
  cases h
  refine ⟨ib, _, hfree, ?_, rfl⟩
  simp only [Inbound.binding, Inbound.transports, inboundTransports_stampClients]

theorem updateInbound_ok (h : updateInbound env o db payload = .ok db') :
    ∃ oldInbound stored : Inbound,
      noConflict env db (prepareUpdate env payload) payload.id = .ok () ∧
      db.find payload.id = some oldInbound ∧
      stored.binding = ((prepareUpdate env payload).atNode oldInbound.nodeId).binding ∧
      db' = db.modify (fun r => r.id == payload.id) (fun r => { stored with id := r.id }) fun _ => rfl := by
  have hprepared := (prepareUpdate_keeps env payload).1
  simp only [updateInbound, bind_ok, orErr_ok, hprepared] at h
  obtain ⟨u, hfree, oldInbound, hfind, ib, hrouted, share, -, tag, -, -, -, h⟩ := h
  obtain ⟨hid, hbinding⟩ := binding_normalizeMtprotoXrayPort hrouted
  have hsame : ib.id = payload.id := by rw [hid, ← hprepared]
  cases h
  refine ⟨oldInbound,
    { ib with
      settings := stampClients o ib.settings, tag, shareAddrStrategy := share.1, shareAddr := share.2 },
    hfree, hfind, ?_, ?_⟩
  · refine Eq.trans ?_ hbinding
    simp only [Inbound.binding, Inbound.transports, inboundTransports_stampClients]
  · simp only [hsame]

theorem Free.write {p : Inbound → Bool} {k : Int} (hfree : Free env db)
    (hnew : reservedClash env ib = false)
    (hclash : ∀ c ∈ db.rows, p c = false → c.port = ib.port → collides c ib = false)
    (hrows : ∀ r ∈ db'.rows, (r ∈ db.rows ∧ p r = false) ∨ (r.id = k ∧ r.binding = ib.binding)) :
    Free env db' := by
  have hkept : ∀ a b, a ∈ db.rows → p a = false → b.binding = ib.binding → a.port = b.port →
      collides a b = false := by
    intro a b ha hp hb hport
    rw [collides_congr hb]
    exact hclash a ha hp (hport.trans (binding_port hb))
  constructor
  · intro a ha b hb hne hport
    rcases hrows a ha with ⟨ha', hpa⟩ | ⟨hka, hab⟩
    · rcases hrows b hb with ⟨hb', -⟩ | ⟨-, hbb⟩
      · exact hfree.ports a ha' b hb' hne hport
      · exact hkept a b ha' hpa hbb hport
    · rcases hrows b hb with ⟨hb', hpb⟩ | ⟨hkb, -⟩
      · rw [collides_comm]
        exact hkept b a hb' hpb hab hport.symm
      · exact absurd (hka.trans hkb.symm) hne
  · intro a ha
    rcases hrows a ha with ⟨ha', -⟩ | ⟨-, hab⟩
    · exact hfree.reserved a ha'
    · rw [reservedClash_congr hab]
      exact hnew

theorem addInbound_free (hfree : Free env db)
    (h : addInbound env o db payload = .ok db') : Free env db' := by
  obtain ⟨ib, stored, hok, hbinding, rfl⟩ := addInbound_ok h
  obtain ⟨hreserved, hclash⟩ := noConflict_ok hok
  have hclash' : ∀ c ∈ db.rows, c.port = ib.port → collides c ib = false :=
    fun c hc => hclash c hc (by omega)
  rw [save]
  split
  · apply hfree.write (p := fun _ => false) (k := db.next) hreserved fun c hc _ => hclash' c hc
    intro r hr
    rcases Table.mem_insert.mp hr with hr | rfl
    · exact .inl ⟨hr, rfl⟩
    · exact .inr ⟨rfl, hbinding⟩
  · apply hfree.write (p := fun c => c.id == stored.id) (k := stored.id) hreserved
      fun c hc _ => hclash' c hc
    intro r hr
    rcases Table.mem_put.mp hr with ⟨hr, hne⟩ | rfl
    · exact .inl ⟨hr, by simpa using hne⟩
    · exact .inr ⟨rfl, hbinding⟩

theorem updateInbound_free_iff {payload oldInbound : Inbound} (hfree : Free env db)
    (hfind : db.find payload.id = some oldInbound) (h : updateInbound env o db payload = .ok db') :
    Free env db' ↔
      clashes env db ((prepareUpdate env payload).atNode oldInbound.nodeId) = false := by
  obtain ⟨old, stored, -, hfind', hbinding, rfl⟩ := updateInbound_ok h
  cases hfind.symm.trans hfind'
  have hid : ((prepareUpdate env payload).atNode oldInbound.nodeId).id = payload.id :=
    (prepareUpdate_keeps env payload).1
  rw [clashes_false, hid]
  constructor
  · intro hfree'
    have hwritten : { stored with id := payload.id } ∈
        (db.modify (fun r => r.id == payload.id) (fun r => { stored with id := r.id })
          fun _ => rfl).rows := by
      obtain ⟨hmem, hkey⟩ := Table.mem_of_find hfind
      rw [Table.mem_modify]
      exact ⟨oldInbound, hmem, by simp [hkey]⟩
    have hwrittenBinding : { stored with id := payload.id }.binding =
        ((prepareUpdate env payload).atNode oldInbound.nodeId).binding := hbinding
    constructor
    · rw [← reservedClash_congr hwrittenBinding]
      exact hfree'.reserved _ hwritten
    · intro c hc hne hport
      rw [← collides_congr hwrittenBinding]
      have hkept : c ∈ (db.modify (fun r => r.id == payload.id) (fun r => { stored with id := r.id })
          fun _ => rfl).rows := by
        rw [Table.mem_modify]
        exact ⟨c, hc, by simp [hne]⟩
      exact hfree'.ports c hkept _ hwritten hne (hport.trans (binding_port hwrittenBinding).symm)
  · rintro ⟨hreserved, hclash⟩
    apply hfree.write (p := fun c => c.id == payload.id) (k := payload.id) hreserved
    · intro c hc hne
      exact hclash c hc (by simpa using hne)
    · intro r hr
      obtain ⟨r', hr', rfl⟩ := Table.mem_modify.mp hr
      split
      case isTrue he =>
        exact .inr ⟨by simpa using he, hbinding⟩
      case isFalse hne =>
        exact .inl ⟨hr', by simpa using hne⟩

def Spares (env : Env) (db : DB) : Act → Prop
  | .addInbound _ _ => True
  | .updateInbound payload o =>
    ∀ oldInbound db', db.find payload.id = some oldInbound → updateInbound env o db payload = .ok db' →
      payload.nodeId = oldInbound.nodeId ∨
        clashes env db ((prepareUpdate env payload).atNode oldInbound.nodeId) = false

def SparesThroughout (env : Env) : DB → List Act → Prop
  | _, [] => True
  | db, a :: acts => Spares env db a ∧ SparesThroughout env (step env db a) acts

theorem unmoved_clashes {nodeId : Option Int}
    (h : updateInbound env o db payload = .ok db') (hsame : payload.nodeId = nodeId) :
    clashes env db ((prepareUpdate env payload).atNode nodeId) = false := by
  obtain ⟨oldInbound, stored, hok, -⟩ := updateInbound_ok h
  obtain ⟨hid, hnode⟩ := prepareUpdate_keeps env payload
  have hat : (prepareUpdate env payload).atNode nodeId = prepareUpdate env payload := by
    rw [← hsame, ← hnode]
    rfl
  obtain ⟨hreserved, hclash⟩ := noConflict_ok hok
  rw [hat, clashes_false]
  refine ⟨hreserved, ?_⟩
  intro c hc hne
  apply hclash c hc
  rintro ⟨-, he⟩
  exact hne (he.trans hid.symm)

theorem step_free_iff {a : Act} (hfree : Free env db) : Free env (step env db a) ↔ Spares env db a := by
  cases a with
  | addInbound payload o =>
    rw [step, call]
    cases h : addInbound env o db payload with
    | error e => exact ⟨fun _ => trivial, fun _ => hfree⟩
    | ok db' => exact ⟨fun _ => trivial, fun _ => addInbound_free hfree h⟩
  | updateInbound payload o =>
    rw [step, call]
    cases h : updateInbound env o db payload with
    | error e =>
      refine ⟨fun _ => ?_, fun _ => hfree⟩
      intro oldInbound db' _ h'
      rw [h] at h'
      cases h'
    | ok db' =>
      obtain ⟨oldInbound, stored, -, hfind, -⟩ := updateInbound_ok h
      have hiff := updateInbound_free_iff hfree hfind h
      constructor
      · intro hfree' old db'' hfind' _
        cases hfind.symm.trans hfind'
        exact .inr (hiff.mp hfree')
      · intro hspares
        apply hiff.mpr
        rcases hspares oldInbound db' hfind h with hsame | hclash
        · exact unmoved_clashes h hsame
        · exact hclash

theorem ports_free_iff {acts : List Act} (hfree : Free env db) :
    (∀ n, Free env (run env db (acts.take n))) ↔ SparesThroughout env db acts := by
  induction acts generalizing db with
  | nil => simpa [run, SparesThroughout] using hfree
  | cons a acts ih =>
    constructor
    · intro h
      have hstep : Free env (step env db a) := h 1
      refine ⟨(step_free_iff hfree).mp hstep, (ih hstep).mp ?_⟩
      intro n
      exact h (n + 1)
    · rintro ⟨hspares, hrest⟩ n
      have hstep := (step_free_iff hfree).mpr hspares
      cases n with
      | zero => exact hfree
      | succ n => exact (ih hstep).mpr hrest n

def plainEnv : Env := ⟨none, some, fun secret _ => secret⟩

def accepted : Outcome := ⟨none, none, none⟩

def vlessOn (id : Int) (port : Int) (nodeId : Option Int) : Inbound where
  id
  total := 0
  remark := ""
  subSortIndex := 1
  enable := true
  expiryTime := 0
  trafficReset := "never"
  listen := ""
  port
  protocol := .vless
  settings := some (.obj [("clients", .arr [])])
  streamSettings := none
  tag := ""
  sniffing := none
  nodeId
  shareAddrStrategy := "node"
  shareAddr := ""

def noInbounds : DB := Table.empty

theorem noInbounds_free (env : Env) : Free env noInbounds :=
  ⟨fun _ h => absurd h List.not_mem_nil, fun _ h => absurd h List.not_mem_nil⟩

theorem ports_free_iff_stored_node : Free plainEnv noInbounds ∧
    ∀ n, Free plainEnv (run plainEnv noInbounds
      ([Act.addInbound (vlessOn 0 443 (some 1)) accepted,
        .updateInbound (vlessOn 1 8443 (some 1)) accepted].take n)) := by
  refine ⟨noInbounds_free plainEnv, (ports_free_iff (noInbounds_free plainEnv)).mpr ⟨trivial, ?_, trivial⟩⟩
  intro oldInbound db' hfind _
  have hnode : ((step plainEnv noInbounds (.addInbound (vlessOn 0 443 (some 1)) accepted)).find 1).map
      (·.nodeId) = some (some 1) := by decide +kernel
  have hold : some oldInbound.nodeId = some (some 1) := by
    rw [← hnode]
    exact congrArg (Option.map (·.nodeId)) hfind.symm
  exact .inl (Option.some.inj hold).symm

def movedOntoTaken : List Act :=
  [.addInbound (vlessOn 0 443 (some 1)) accepted,
    .addInbound (vlessOn 0 8443 (some 1)) accepted,
    .updateInbound (vlessOn 2 443 none) accepted]

theorem port_bound_twice :
    Free plainEnv noInbounds ∧ ¬ Free plainEnv (run plainEnv noInbounds movedOntoTaken) := by
  refine ⟨noInbounds_free plainEnv, ?_⟩
  intro hfree
  have htwo : (run plainEnv noInbounds movedOntoTaken).rows.any (fun a =>
      (run plainEnv noInbounds movedOntoTaken).rows.any fun b =>
        a.id != b.id && a.port == b.port && collides a b) = true := by decide +kernel
  obtain ⟨a, ha, hb⟩ := List.any_eq_true.mp htwo
  obtain ⟨b, hb, hclash⟩ := List.any_eq_true.mp hb
  simp only [Bool.and_eq_true, bne_iff_ne, beq_iff_eq] at hclash
  have hfalse := hfree.ports a ha b hb hclash.1.1 hclash.1.2
  rw [hclash.2] at hfalse
  cases hfalse

end binding

end Ports

end QuiPanel
