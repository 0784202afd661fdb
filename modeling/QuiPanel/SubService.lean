import QuiPanel.SubFormats

namespace QuiPanel

namespace Subscription

open Outcome

section names

def nameSuffix (base : String) : Nat → String
  | 0 => base
  | n + 1 => base ++ "-" ++ Nat.repr (n + 2)

theorem nameSuffix_injective (base : String) : Function.Injective (nameSuffix base) := by
  have hlonger : ∀ n, base ≠ nameSuffix base (n + 1) := by
    intro n h
    have hlen := congrArg String.length h
    rw [nameSuffix, String.length_append, String.length_append] at hlen
    have hsep : "-".length = 1 := rfl
    omega
  intro n n' h
  cases n with
  | zero =>
    cases n' with
    | zero => rfl
    | succ n' => exact absurd h (hlonger n')
  | succ n =>
    cases n' with
    | zero => exact absurd h.symm (hlonger n)
    | succ n' =>
      have hrepr := Nat.repr_inj.mp ((String.append_right_inj _).mp h)
      omega

def suffix : Fresh.Suffix String where
  at_ := nameSuffix
  zero := fun _ => rfl
  injective := nameSuffix_injective

def fallbackProxyName (proxy : Object) (idx : Nat) : String :=
  let typ := strD (proxy.get "type")
  let server := strD (proxy.get "server")
  if typ ≠ "" ∧ server ≠ "" then
    typ ++ "-" ++ server ++ "-" ++ (num? (proxy.get "port")).getD "<nil>"
  else "proxy-" ++ toString (idx + 1)

def baseName (proxy : Object) (idx : Nat) : String :=
  let base := strD (proxy.get "name")
  if base = "" then fallbackProxyName proxy idx else base

def baseNames (proxies : List Object) : List String := proxies.zipIdx.map fun p => baseName p.1 p.2

def ensureUniqueProxyNames (proxies : List Object) : List Object :=
  List.zipWith (fun proxy name => Fields.put proxy "name" (.str name)) proxies
    (Fresh.assign suffix [] (baseNames proxies))

end names

section tables

structure Fallback where
  id : Int
  masterId : Int
  childId : Int
  sortOrder : Int

structure ExternalLink where
  kind : String
  value : String
  remark : String
  email : String
  enable : Bool

structure DB where
  inbounds : List Inbound
  fallbacks : List Fallback
  attached : List (Int × String)
  externalLinks : String → List ExternalLink

structure Remote where
  fetchSubscriptionLinks : String → List String
  decodeVmess : String → Option Json
  vmessText : Object → String
  pathEscape : String → String
  parseLink : String → Option Object
  atoi : String → Int

variable (env : Env) (remote : Remote) (db : DB)

def inSubscriptionOrder (a b : Inbound) : Bool :=
  a.subSortIndex < b.subSortIndex || (a.subSortIndex = b.subSortIndex && a.id ≤ b.id)

def covers (subId : String) (ib : Inbound) : Bool :=
  ib.protocol ≠ .other && ib.enable && db.attached.contains (ib.id, subId)

def getInboundsBySubId (subId : String) : List Inbound :=
  (db.inbounds.mergeSort inSubscriptionOrder).filter (covers db subId)

def fallbackRule (childId : Int) : Option Fallback :=
  let rules := db.fallbacks.filter (·.childId = childId)
  (rules.mergeSort fun a b =>
    a.sortOrder < b.sortOrder || (a.sortOrder = b.sortOrder && a.id ≤ b.id)).head?

def mentionsFallback (listen : String) (ib : Inbound) : Bool :=
  (arrD (ib.settings.get "fallbacks")).any fun f => (objD (some f)).get "dest" = some (.str listen)

def fallbackMaster (ib : Inbound) : Option Inbound :=
  let tracked := (fallbackRule db ib.id).bind fun rule => db.inbounds.find? (·.id = rule.masterId)
  tracked.or
    (if ib.listen.startsWith "@" then
      (db.inbounds.mergeSort fun a b => a.id ≤ b.id).find? (mentionsFallback ib.listen)
    else none)

def mergeSetting (key : String) (mst stream : Object) : Object :=
  match mst.get key with
  | some v => stream.put key v
  | none => stream.del key

def mergeStreamFromMaster (stream mst : Object) : Object :=
  let stream := stream.put "security" (nullD (mst.get "security"))
  let stream := mergeSetting "realitySettings" mst (mergeSetting "tlsSettings" mst stream)
  match mst.get "externalProxy" with
  | some v => stream.put "externalProxy" v
  | none => stream

def projectThroughFallbackMaster (ib : Inbound) : Inbound :=
  if listenIsInternalOnly env ib.listen then
    match fallbackMaster db ib with
    | some master =>
      { ib with
        streamSettings := mergeStreamFromMaster ib.streamSettings master.streamSettings
        listen := master.listen
        port := master.port }
    | none => ib
  else ib

def dedupByEmail (seen : List String) : List Client → List Client
  | [] => []
  | c :: cs =>
    let key := Text.toLower c.email
    if key ∈ seen then dedupByEmail seen cs else c :: dedupByEmail (key :: seen) cs

def matchingClients (ib : Inbound) (subId : String) : List Client :=
  dedupByEmail [] ((env.getClients ib.settings).filter (·.subId = subId))

def DB.detach (i : Int) : DB := { db with attached := db.attached.filter (·.1 ≠ i) }

end tables

section external

variable (env : Env) (d : Draw) (remote : Remote)

def expandEntry (e : ExternalLink) : List (String × String) :=
  if e.kind = "subscription" then (remote.fetchSubscriptionLinks e.value).map (·, "")
  else [(e.value, e.remark)]

def applyVmessRemark (rawLink remark : String) : Go String :=
  match remote.decodeVmess rawLink with
  | some (.obj j) => pure (remote.vmessText (Fields.put j "ps" (.str remark)))
  | some .null => .error .nilMap
  | _ => pure rawLink

def beforeHash (rawLink : String) : String := String.ofList (rawLink.toList.takeWhile (· ≠ '#'))

def applyRemarkToLink (rawLink remark : String) : Go String :=
  let rawLink := Text.trimSpace rawLink
  if remark = "" then pure rawLink
  else if rawLink.startsWith "vmess://" then applyVmessRemark remote rawLink remark
  else pure (beforeHash rawLink ++ "#" ++ remote.pathEscape remark)

def parseExternalLink (rawLink : String) : Option Object := remote.parseLink (Text.trimSpace rawLink)

def sprintAny (v : Option Json) : String := (v.map (sprint env)).getD "<nil>"

def clashInt (v : Option Json) : Json :=
  .num (toString (match v with
    | some (.num digits) => env.truncate digits
    | some (.str s) => remote.atoi s
    | _ => 0))

def firstServer (settings : Object) : Option Object :=
  (arrD (settings.get "servers")).head?.bind fun server => obj? (some server)

def serverFields (proxy : Object) (typ : String) (server : Object) : Object :=
  ((proxy.put "type" (.str typ)).put "server" (.str (sprintAny env (server.get "address")))).put "port"
    (clashInt env remote (server.get "port"))

def externalVmess (proxy settings : Object) : Option Object := do
  let vn ← (arrD (settings.get "vnext")).head?.bind fun vn => obj? (some vn)
  let user ← (arrD (vn.get "users")).head?
  let user := objD (some user)
  let cipher := strD (user.get "security")
  pure ((((serverFields env remote proxy "vmess" vn).put "uuid" (.str (sprintAny env (user.get "id")))).put
    "alterId" (.num "0")).put "cipher" (.str (if cipher = "" then "auto" else cipher)))

def externalVless (proxy settings : Object) : Object :=
  putText ((serverFields env remote proxy "vless" settings).put "uuid"
    (.str (sprintAny env (settings.get "id")))) "flow" (settings.get "flow")

def externalTrojan (proxy settings : Object) : Option Object :=
  (firstServer settings).map fun server =>
    (serverFields env remote proxy "trojan" server).put "password"
      (.str (sprintAny env (server.get "password")))

def externalShadowsocks (proxy settings : Object) : Option Object :=
  let server := (firstServer settings).getD settings
  let method := strD (server.get "method")
  if method = "" then none
  else some (((serverFields env remote proxy "ss" server).put "cipher" (.str method)).put "password"
    (.str (sprintAny env (server.get "password"))))

def clashStringList (v : Option Json) : List String :=
  match v with
  | some (.arr vs) => texts vs
  | some (.str s) => if s = "" then [] else s.splitOn ","
  | _ => []

def clashHysteriaFromExternal (settings stream : Object) (name : String) : Option Object :=
  let auth := strD ((objD (stream.get "hysteriaSettings")).get "auth")
  if auth = "" then none
  else
    let proxy : Object := [("name", .str name), ("password", .str auth), ("udp", .bool true)]
    let proxy := serverFields env remote proxy "hysteria2" settings
    let tls := objD (stream.get "tlsSettings")
    let alpn := clashStringList (tls.get "alpn")
    let proxy := (putText proxy "sni" (tls.get "serverName")).putIf (alpn ≠ []) "alpn"
      (.arr (alpn.map Json.str))
    some (putText proxy "client-fingerprint" (tls.get "fingerprint"))

def splitClashHostPort (endpoint : String) : String × Int :=
  let parts := (Text.trimSpace endpoint).splitOn ":"
  match parts.reverse with
  | port :: host :: hosts => (trimBrackets (join ":" (host :: hosts).reverse), remote.atoi port)
  | _ => (Text.trimSpace endpoint, 0)

def stripCIDR (addr : String) : String := String.ofList (addr.toList.takeWhile (· ≠ '/'))

def clashWireguardFromExternal (settings : Object) (name : String) : Option Object := do
  let peer ← (arrD (settings.get "peers")).head?.bind fun peer => obj? (some peer)
  let (host, port) := splitClashHostPort remote (sprintAny env (peer.get "endpoint"))
  if host = "" ∨ port = 0 then none
  else
    let proxy : Object := [("name", .str name), ("type", .str "wireguard"), ("server", .str host),
      ("port", .num (toString port)), ("udp", .bool true)]
    let proxy := putText proxy "private-key" (settings.get "secretKey")
    let proxy := putText proxy "public-key" (peer.get "publicKey")
    let proxy := putText proxy "pre-shared-key" (peer.get "preSharedKey")
    pure ((clashStringList (settings.get "address")).foldl (fun proxy addr =>
      let ip := stripCIDR addr
      proxy.put (if ip.contains ':' then "ipv6" else "ip") (.str ip)) proxy)

def externalCredential (protocol : String) (proxy settings : Object) : Option Object :=
  if protocol = "vmess" then externalVmess env remote proxy settings
  else if protocol = "vless" then some (externalVless env remote proxy settings)
  else if protocol = "trojan" then externalTrojan env remote proxy settings
  else none

def clashProxyFromExternal (rawLink name : String) : Go (Option Object) :=
  match parseExternalLink remote rawLink with
  | none => pure none
  | some ob =>
    match obj? (ob.get "settings") with
    | none => pure none
    | some settings =>
      let protocol := strD (ob.get "protocol")
      let stream := objD (ob.get "streamSettings")
      let proxy : Object := [("name", .str name), ("udp", .bool true)]
      if protocol = "shadowsocks" then pure (externalShadowsocks env remote proxy settings)
      else if protocol = "hysteria" then pure (clashHysteriaFromExternal env remote settings stream name)
      else if protocol = "wireguard" then pure (clashWireguardFromExternal env remote settings name)
      else
        match externalCredential env remote protocol proxy settings with
        | none => pure none
        | some proxy => do
          let transported ← applyTransport d proxy (strD (stream.get "network")) stream
          pure (transported.bind (applySecurity · (strD (stream.get "security")) stream))

end external

section requests

structure Entry (α : Type) where
  inboundId : Int
  email : String
  value : α
  deriving DecidableEq

variable (env : Env) (remote : Remote) (d : Int → String → Draw) (db : DB) (subId : String)

def rawEntries (ib : Inbound) : Go (List (Entry (List Link))) :=
  (matchingClients env ib subId).mapM fun c => do
    let links ← getLink env (d ib.id c.email) (projectThroughFallbackMaster env db ib) c.email
    pure ⟨ib.id, c.email, links⟩

def externalRaw : Go (List String) := do
  let links ← (db.externalLinks subId).mapM fun ext =>
    (expandEntry remote ext).mapM fun el => applyRemarkToLink remote el.1 el.2
  pure (links.flatten.filter (· ≠ ""))

def getSubs : Go (List (Entry (List Link)) × List String) := do
  let entries ← (getInboundsBySubId db subId).mapM (rawEntries env d db subId)
  let external ← externalRaw remote db subId
  pure (entries.flatten, external)

def jsonClients : Inbound → List Client → Go (List (Entry Config))
  | _, [] => pure []
  | ib, c :: cs => do
    let (configs, ib) ← getConfig env (d ib.id c.email) ib c
    let rest ← jsonClients ib cs
    pure (configs.map (⟨ib.id, c.email, ·⟩) ++ rest)

def jsonEntries (ib : Inbound) : Go (List (Entry Config)) :=
  jsonClients env d (projectThroughFallbackMaster env db ib) (matchingClients env ib subId)

def externalOutbounds : List (Object × String) :=
  (db.externalLinks subId).flatMap fun ext =>
    (expandEntry remote ext).filterMap fun el =>
      (parseExternalLink remote el.1).map fun ob =>
        (ob.put "tag" (.str "proxy"), if el.2 = "" then ext.email else el.2)

def getJson : Go (List (Entry Config) × List (Object × String)) := do
  let entries ← (getInboundsBySubId db subId).mapM (jsonEntries env d db subId)
  pure (entries.flatten, externalOutbounds remote db subId)

def clashEntries (ib : Inbound) : Go (List (Entry Object)) := do
  let entries ← (matchingClients env ib subId).mapM fun c => do
    let proxies ← getProxies env (d ib.id c.email) (projectThroughFallbackMaster env db ib) c
    pure (proxies.map (⟨ib.id, c.email, ·⟩ : Object → Entry Object))
  pure entries.flatten

def externalNames : List (String × String) :=
  (db.externalLinks subId).flatMap fun ext =>
    (expandEntry remote ext).map fun el => (el.1, if el.2 = "" then ext.email else el.2)

def externalProxies : Go (List Object) := do
  let proxies ← (externalNames remote db subId).zipIdx.mapM fun l =>
    clashProxyFromExternal env (d (-1) (toString l.2)) remote l.1.1 l.1.2
  pure (proxies.filterMap id)

def named (entries : List (Entry Object)) (external : List Object) : List (Entry Object) × List Object :=
  let proxies := ensureUniqueProxyNames (entries.map (·.value) ++ external)
  (List.zipWith (fun e proxy => { e with value := proxy }) entries proxies,
    proxies.drop entries.length)

def clashParts : Go (List (Entry Object) × List Object) := do
  let entries ← (getInboundsBySubId db subId).mapM (clashEntries env d db subId)
  let external ← externalProxies env remote d db subId
  pure (entries.flatten, external)

def getClash : Go (List (Entry Object) × List Object) :=
  (fun parts => named parts.1 parts.2) <$> clashParts env remote d db subId

end requests

end Subscription

end QuiPanel
