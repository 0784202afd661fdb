import QuiPanel.Subscription

namespace QuiPanel

namespace Subscription

open Outcome

section security

variable {α : Type} (env : Env) (d : Draw)

def pinnedSha256List (tlsClientSettings : Option Json) : List String :=
  texts (arrD (searchKey d "pins" tlsClientSettings "pinnedPeerCertSha256"))

def hysteriaPinHex (pin : String) : String :=
  let pin := Text.trimSpace pin
  let h := String.ofList (pin.toList.filter (· ≠ ':'))
  if h.length = 64 ∧ (env.decodeHex h).isSome then Text.toLower h
  else
    match env.decodeBase64.findSome? fun decode => (decode pin).filter (·.length = 32) with
    | some b => env.encodeHex b
    | none => pin

def applyClientSettings (wrap : String → α) (pinKey : String) (pin : String → String)
    (tlsSettings : Option Json) (m : Fields α) : Fields α :=
  let m := match searchKey d "fingerprint" tlsSettings "fingerprint" with
    | some fpValue => m.put "fp" (wrap (strD (some fpValue)))
    | none => m
  let ech := strD (searchKey d "echConfigList" tlsSettings "echConfigList")
  let m := m.putIf (ech ≠ "") "ech" (wrap ech)
  let pins := pinnedSha256List d tlsSettings
  m.putIf (pins ≠ []) pinKey (wrap (join "," (pins.map pin)))

def applyTLS (wrap : String → α) (pinKey : String) (pin : String → String) (stream : Object)
    (m : Fields α) : Go (Fields α) := do
  let tlsSetting := obj? (stream.get "tlsSettings")
  let data := tlsSetting.map Json.obj
  let alpn ← (arrD ((tlsSetting.getD []).get "alpn")).mapM fun a => must (str? (some a))
  let m := m.putIf (alpn ≠ []) "alpn" (wrap (join "," alpn))
  let m := match searchKey d "serverName" data "serverName" with
    | some sniValue => m.put "sni" (wrap (strD (some sniValue)))
    | none => m
  let tlsSettings := searchKey d "settings" data "settings"
  pure (if tlsSetting.isSome then applyClientSettings d wrap pinKey pin tlsSettings m else m)

def applyShareTLSParams (stream : Object) (params : Params) : Go Params :=
  applyTLS d id "pcs" id stream (params.put "security" "tls")

def applyVmessTLSParams (stream obj : Object) : Go Object :=
  applyTLS d Json.str "pcs" id stream obj

def chooseParam (key site field : String) (realitySetting : Object) (params : Params) : Go Params :=
  match searchKey d site (some (.obj realitySetting)) field with
  | some v => do
    let chosen ← choose d key (arrD (some v))
    pure (params.put key chosen)
  | none => pure params

def applyRealityClient (realitySettings : Option Json) (params : Params) : Params :=
  let params := match searchKey d "publicKey" realitySettings "publicKey" with
    | some pbkValue => params.put "pbk" (strD (some pbkValue))
    | none => params
  let fp := strD (searchKey d "fingerprint" realitySettings "fingerprint")
  let params := params.putIf (fp ≠ "") "fp" fp
  let pqv := strD (searchKey d "mldsa65Verify" realitySettings "mldsa65Verify")
  params.putIf (pqv ≠ "") "pqv" pqv

def spiderX : String := "/" ++ toString (d "spiderX")

def applyShareRealityParams (stream : Object) (params : Params) : Go Params := do
  let params := params.put "security" "reality"
  match obj? (stream.get "realitySettings") with
  | some realitySetting => do
    let realitySettings := searchKey d "settings" (some (.obj realitySetting)) "settings"
    let params ← chooseParam d "sni" "serverNames" "serverNames" realitySetting params
    let params ← chooseParam d "sid" "shortIds" "shortIds" realitySetting params
    pure ((applyRealityClient d realitySettings params).put "spx" (spiderX d))
  | none => pure params

end security

section address

variable (env : Env)

def listenIsInternalOnly (listen : String) : Bool :=
  listen ≠ "" && (listen.startsWith "@" || listen.startsWith "/" || env.isLoopbackHost listen)

def resolveInboundAddress (ib : Inbound) : String :=
  let nodeAddr := ((ib.nodeId.bind fun n => env.nodeAddresses.find? (·.1 = n)).map (·.2)).getD ""
  let listenAddr := if ib.listen ≠ "" ∧ ¬ ib.listen.startsWith "@" ∧ ¬ ib.listen.startsWith "/" ∧
      env.isRoutableHost ib.listen then ib.listen else ""
  let candidates := if ib.shareAddrStrategy = "listen" then [listenAddr, nodeAddr]
    else if ib.shareAddrStrategy = "custom" then [Text.trimSpace ib.shareAddr, nodeAddr, listenAddr]
    else [nodeAddr, listenAddr]
  (candidates.find? (· ≠ "")).getD env.address

def trimBrackets (host : String) : String :=
  let bracket := fun c => c = '[' || c = ']'
  String.ofList ((host.toList.dropWhile bracket).reverse.dropWhile bracket).reverse

end address

section remarks

variable (env : Env)

def remaining (days hours minutes : Int) : String :=
  if 0 < days then
    if 0 < hours then s!"{days}D,{hours}H⏳" else s!"{days}D⏳"
  else if 0 < hours then s!"{hours}H⏳" else s!"{minutes}M⏳"

def remainingUntil (exp : Int) : List String :=
  if 0 < exp then
    let s := exp - env.now
    [remaining (s.tdiv 86400) ((s.tmod 86400).tdiv 3600) ((s.tmod 3600).tdiv 60)]
  else if exp < 0 then
    [remaining (exp.tdiv (-86400)) ((exp.tmod (-86400)).tdiv 3600) ((exp.tmod (-3600)).tdiv 60)]
  else []

def remarkParts (ib : Inbound) (email extra : String) : List String :=
  (env.remarkModel.drop 1).filterMap fun char =>
    let order := if char = 'e'.toNat.toUInt8 then if env.emailInRemark then email else ""
      else if char = 'i'.toNat.toUInt8 then ib.remark
      else if char = 'o'.toNat.toUInt8 then extra
      else ""
    if order ≠ "" then some order else none

def remarkText (ib : Inbound) (email extra separationChar : String) : String :=
  let remark := remarkParts env ib email extra
  match if env.showInfo then ib.clientStats.find? (·.email = email) else none with
  | some stats =>
    if stats.enable then
      let vol := stats.total - (stats.up + stats.down)
      let remark := if 0 < vol then remark ++ [env.formatTraffic vol ++ "📊"] else remark
      join separationChar (remark ++ remainingUntil env (stats.expiryTime.tdiv 1000))
    else "⛔️N/A" ++ separationChar ++ join separationChar remark
  | none => join separationChar remark

def genRemark (ib : Inbound) (email extra : String) : Go String := do
  let sep ← element env.remarkModel 0
  pure (remarkText env ib email extra (String.singleton (Char.ofNat sep.toNat)))

end remarks

section proxies

variable (env : Env)

def externalProxyALPN (value : Option Json) : String :=
  match value with
  | some (.str s) => s
  | some (.arr vs) => join "," (texts vs)
  | _ => ""

def externalProxyPins (value : Option Json) : List String := texts (arrD value)

def applyExternalProxyTLS {α : Type} (wrap : String → α) (ep : Object) (security : String)
    (m : Fields α) : Fields α :=
  if security = "tls" then
    let put := fun (m : Fields α) key v => m.putIf (v ≠ "") key (wrap v)
    let m := put m "sni" (strD (ep.get "sni"))
    let m := put m "fp" (strD (ep.get "fingerprint"))
    let m := put m "alpn" (externalProxyALPN (ep.get "alpn"))
    let pins := externalProxyPins (ep.get "pinnedPeerCertSha256")
    let m := m.putIf (pins ≠ []) "pcs" (wrap (join "," pins))
    put m "ech" (strD (ep.get "echConfigList"))
  else m

def applyExternalProxyTLSParams (ep : Object) (params : Params) (security : String) : Params :=
  applyExternalProxyTLS id ep security params

def applyExternalProxyTLSObj (ep obj : Object) (security : String) : Object :=
  applyExternalProxyTLS Json.str ep security obj

def applyExternalProxyHysteriaParams (ep : Object) (params : Params) : Params :=
  let pins := externalProxyPins (ep.get "pinnedPeerCertSha256")
  params.putIf (pins ≠ []) "pinSHA256" (join "," (pins.map (hysteriaPinHex env)))

inductive Userinfo
  | plain (s : String)
  | escaped (s : String)
  | base64 (s : String)
  deriving DecidableEq, Repr

inductive Link
  | url (scheme : String) (userinfo : Userinfo) (host : String) (port : Int) (params : Params)
      (fragment : String)
  | vmess (obj : Object)
  deriving DecidableEq

def tlsHints : List String := ["alpn", "sni", "fp", "pcs"]

def buildLinkWithParamsAndSecurity (scheme : String) (userinfo : Userinfo) (dest : String) (port : Int)
    (params : Params) (fragment security : String) (omitTLSFields : Bool) : Link :=
  let params := params.filter fun f => !(omitTLSFields && tlsHints.contains f.1)
  .url scheme userinfo (trimBrackets dest) port
    (params.map fun f => if security ≠ "" ∧ f.1 = "security" then (f.1, security) else f) fragment

def buildLinkWithParams (scheme : String) (userinfo : Userinfo) (dest : String) (port : Int)
    (params : Params) (fragment : String) : Link :=
  buildLinkWithParamsAndSecurity scheme userinfo dest port params fragment "" false

def buildExternalProxyURLLinks (scheme : String) (userinfo : Userinfo) (ib : Inbound) (email : String)
    (params : Params) (baseSecurity : String) (externalProxies : List Json) : Go (List Link) :=
  externalProxies.mapM fun externalProxy => do
    let ep := objD (some externalProxy)
    let newSecurity := strD (ep.get "forceTls")
    let port ← must (num? (ep.get "port"))
    let securityToApply := if newSecurity ≠ "same" then newSecurity else baseSecurity
    let nextParams := applyExternalProxyTLSParams ep params securityToApply
    let extra ← must (str? (ep.get "remark"))
    let remark ← genRemark env ib email extra
    pure (buildLinkWithParamsAndSecurity scheme userinfo (strD (ep.get "dest")) (env.truncate port)
      nextParams remark securityToApply (newSecurity = "none"))

def cloneVmessShareObj (baseObj : Object) (newSecurity : String) : Object :=
  baseObj.filter fun f => !(newSecurity = "none" && tlsHints.contains f.1)

def buildVmessExternalProxyLinks (ib : Inbound) (email : String) (baseObj : Object) (security : String)
    (externalProxies : List Json) : Go (List Link) :=
  externalProxies.mapM fun externalProxy => do
    let ep := objD (some externalProxy)
    let newSecurity := strD (ep.get "forceTls")
    let securityToApply := if newSecurity ≠ "same" then newSecurity else security
    let newObj := cloneVmessShareObj baseObj newSecurity
    let extra ← must (str? (ep.get "remark"))
    let remark ← genRemark env ib email extra
    let dest ← must (str? (ep.get "dest"))
    let port ← must (num? (ep.get "port"))
    let newObj := ((newObj.put "ps" (.str remark)).put "add" (.str dest)).put "port"
      (.num (toString (env.truncate port)))
    let newObj := newObj.putIf (newSecurity ≠ "same") "tls" (.str newSecurity)
    pure (.vmess (applyExternalProxyTLSObj ep newObj securityToApply))

end proxies

section links

variable {α : Type} (env : Env) (d : Draw)

def findClient (ib : Inbound) (email : String) : Go Client :=
  orErr ((env.getClients ib.settings).find? (·.email = email)) .index

def externalProxiesOf (stream : Object) : List Json := arrD (stream.get "externalProxy")

def applyTLSWhen (apply : Object → Fields α → Go (Fields α)) (stream : Object) (m : Fields α) :
    Go (Fields α) :=
  if strD (stream.get "security") = "tls" then apply stream m else pure m

def applyShareSecurity (withFlow : Params → Params) (stream : Object) (params : Params) : Go Params :=
  match Security.of (strD (stream.get "security")) with
  | .tls => applyShareTLSParams d stream params
  | .reality => do
    let params ← applyShareRealityParams d stream params
    pure (withFlow params)
  | .other => pure (params.put "security" "none")

def vmessLinks (ib : Inbound) (email : String) (obj : Object) (security : String) : Go (List Link) :=
  let externalProxies := externalProxiesOf ib.streamSettings
  if externalProxies ≠ [] then buildVmessExternalProxyLinks env ib email obj security externalProxies
  else do
    let remark ← genRemark env ib email ""
    pure [.vmess (obj.put "ps" (.str remark))]

def genVmessLink (ib : Inbound) (email : String) : Go (List Link) := do
  let stream := ib.streamSettings
  let obj : Object := [("v", .str "2"), ("add", .str (resolveInboundAddress env ib)),
    ("port", .num (toString ib.port)), ("type", .str "none")]
  let obj ← applyVmessNetworkParams env d stream (strD (stream.get "network")) obj
  let obj := applyFinalMask env Json.str stream obj
  let security := strD (stream.get "security")
  let obj := obj.put "tls" (.str security)
  let obj ← applyTLSWhen (applyVmessTLSParams d) stream obj
  let client ← findClient env ib email
  vmessLinks env ib email ((obj.put "id" (.str client.id)).put "scy" (.str client.security)) security

def vlessEncryptionEnabled (settings : Object) : Bool :=
  ["encryption", "decryption"].any fun key =>
    let v := strD (settings.get key)
    v ≠ "" && v ≠ "none"

def vlessFlowAllowed (network security : String) (settings : Object) : Bool :=
  match Network.of network with
  | .tcp => security = "tls" || security = "reality"
  | .xhttp => vlessEncryptionEnabled settings
  | _ => false

def urlLinks (ib : Inbound) (email scheme : String) (userinfo : Userinfo) (params proxyParams : Params)
    (security : String) : Go (List Link) :=
  let externalProxies := externalProxiesOf ib.streamSettings
  if externalProxies ≠ [] then
    buildExternalProxyURLLinks env scheme userinfo ib email proxyParams security externalProxies
  else do
    let remark ← genRemark env ib email ""
    pure [buildLinkWithParams scheme userinfo (resolveInboundAddress env ib) ib.port params remark]

def genVlessLink (ib : Inbound) (email : String) : Go (List Link) := do
  let stream := ib.streamSettings
  let client ← findClient env ib email
  let streamNetwork ← must (str? (stream.get "network"))
  let params : Params := [("type", streamNetwork)]
  let params := match str? (ib.settings.get "encryption") with
    | some encryption => params.put "encryption" encryption
    | none => params
  let params ← applyShareNetworkParams env d stream streamNetwork params
  let params := applyFinalMask env id stream params
  let security := strD (stream.get "security")
  let params ← applyShareSecurity d id stream params
  let params := params.putIf
    (client.flow ≠ "" && vlessFlowAllowed streamNetwork security ib.settings) "flow" client.flow
  urlLinks env ib email "vless" (.plain client.id) params params security

def genTrojanLink (ib : Inbound) (email : String) : Go (List Link) := do
  let stream := ib.streamSettings
  let client ← findClient env ib email
  let streamNetwork ← must (str? (stream.get "network"))
  let params : Params := [("type", streamNetwork)]
  let params ← applyShareNetworkParams env d stream streamNetwork params
  let params := applyFinalMask env id stream params
  let withFlow := fun (params : Params) =>
    params.putIf (streamNetwork = "tcp" && client.flow ≠ "") "flow" client.flow
  let params ← applyShareSecurity d withFlow stream params
  urlLinks env ib email "trojan" (.escaped client.password) params params (strD (stream.get "security"))

def shadowsocksLinks (ib : Inbound) (email method inboundPassword : String) (params : Params) :
    Go (List Link) := do
  let security := strD (ib.streamSettings.get "security")
  let client ← findClient env ib email
  let first ← element method.toList 0
  let encPart := if first = '2' then method ++ ":" ++ inboundPassword ++ ":" ++ client.password
    else method ++ ":" ++ client.password
  urlLinks env ib email "ss" (.base64 encPart) params (params.put "security" security) security

def genShadowsocksLink (ib : Inbound) (email : String) : Go (List Link) := do
  let stream := ib.streamSettings
  let inboundPassword ← must (str? (ib.settings.get "password"))
  let method ← must (str? (ib.settings.get "method"))
  let streamNetwork ← must (str? (stream.get "network"))
  let params : Params := [("type", streamNetwork)]
  let params ← applyShareNetworkParams env d stream streamNetwork params
  let params := applyFinalMask env id stream params
  let params ← applyTLSWhen (applyShareTLSParams d) stream params
  shadowsocksLinks env ib email method inboundPassword params

def salamander (finalmask : Object) : Option String :=
  (arrD (finalmask.get "udp")).findSome? fun m =>
    let mask := objD (some m)
    let pw := strD ((objD (mask.get "settings")).get "password")
    if strD (mask.get "type") = "salamander" ∧ pw ≠ "" then some pw else none

def hysteriaHopPorts (stream : Object) : String :=
  let quicParams := objD ((objD (stream.get "finalmask")).get "quicParams")
  Text.trimSpace (strD ((objD (quicParams.get "udpHop")).get "ports"))

def version (settings : Object) : Int := ((num? (settings.get "version")).map env.truncate).getD 0

def hysteriaScheme (settings : Object) : String :=
  if version env settings = 1 then "hysteria" else "hysteria2"

def hysteriaProxyLink (ib : Inbound) (email : String) (userinfo : Userinfo) (params : Params)
    (externalProxy : Json) : Go (List Link) :=
  let ep := objD (some externalProxy)
  let dest := strD (ep.get "dest")
  match num? (ep.get "port") with
  | some port =>
    if dest = "" then pure []
    else do
      let remark ← genRemark env ib email (strD (ep.get "remark"))
      pure [buildLinkWithParams (hysteriaScheme env ib.settings) userinfo dest (env.truncate port)
        (applyExternalProxyHysteriaParams env ep params) remark]
  | none => pure []

def hysteriaLinks (ib : Inbound) (email : String) (userinfo : Userinfo) (params : Params) :
    Go (List Link) :=
  let externalProxies := externalProxiesOf ib.streamSettings
  if externalProxies ≠ [] then
    List.flatten <$> externalProxies.mapM (hysteriaProxyLink env ib email userinfo params)
  else do
    let hopPorts := hysteriaHopPorts ib.streamSettings
    let params := params.putIf (hopPorts ≠ "") "mport" hopPorts
    let remark ← genRemark env ib email ""
    pure [buildLinkWithParams (hysteriaScheme env ib.settings) userinfo (resolveInboundAddress env ib)
      ib.port params remark]

def genHysteriaLink (ib : Inbound) (email : String) : Go (List Link) := do
  let stream := ib.streamSettings
  let client ← findClient env ib email
  let userinfo := Userinfo.escaped client.auth
  let params ← applyTLS d id "pinSHA256" (hysteriaPinHex env) stream [("security", "tls")]
  let params := applyFinalMask env id stream params
  let params := match salamander (objD (stream.get "finalmask")) with
    | some pw => (params.put "obfs" "salamander").put "obfs-password" pw
    | none => params
  hysteriaLinks env ib email userinfo params

def getLink (ib : Inbound) (email : String) : Go (List Link) :=
  match ib.protocol with
  | .vmess => genVmessLink env d ib email
  | .vless => genVlessLink env d ib email
  | .trojan => genTrojanLink env d ib email
  | .shadowsocks => genShadowsocksLink env d ib email
  | .hysteria => genHysteriaLink env d ib email
  | .other => pure []

end links

end Subscription

end QuiPanel
