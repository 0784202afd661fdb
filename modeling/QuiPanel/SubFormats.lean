import QuiPanel.ShareLinks
import QuiPanel.Library.Fresh

namespace QuiPanel

namespace Subscription

open Outcome

section streams

def nullD (v : Option Json) : Json := v.getD .null

def mergeBase (base : Option Json) : Object :=
  (objD base).filter fun f => !(f.1 = "tcp" || f.1 = "udp") || (arr? (some f.2)).isSome

def mergeField (merged : Object) (f : String × Json) : Object :=
  if f.1 = "tcp" ∨ f.1 = "udp" then
    let extraMasks := arrD (some f.2)
    if extraMasks ≠ [] then merged.put f.1 (.arr (arrD (merged.get f.1) ++ extraMasks)) else merged
  else if f.1 = "quicParams" ∧ (merged.get f.1).isSome then merged
  else merged.put f.1 f.2

def mergeFinalMask (base : Option Json) (extra : Object) : Object :=
  extra.foldl mergeField (mergeBase base)

def applyGlobalFinalMask (finalMask streamSettings : Object) : Object :=
  if finalMask = [] then streamSettings
  else
    let merged := mergeFinalMask (streamSettings.get "finalmask") finalMask
    streamSettings.putIf (merged ≠ []) "finalmask" (.obj merged)

def removeAcceptProxy (setting : Option Json) : Json :=
  match obj? setting with
  | some netSettings => .obj (netSettings.del "acceptProxyProtocol")
  | none => .null

def externalProxyALPNList (value : Option Json) : List String :=
  match value with
  | some (.str v) => ((v.splitOn ",").map Text.trimSpace).filter (· ≠ "")
  | some (.arr vs) => texts vs
  | _ => []

def putInner (tlsSettings : Object) (key : String) (v : Json) : Object :=
  tlsSettings.put "settings" (.obj ((objD (tlsSettings.get "settings")).put key v))

def applyExternalProxyTLSToStream (ep stream : Object) (security : String) : Object :=
  if security = "tls" then
    let tlsSettings := objD (stream.get "tlsSettings")
    let sni := strD (ep.get "sni")
    let tlsSettings := tlsSettings.putIf (sni ≠ "") "serverName" (.str sni)
    let fp := strD (ep.get "fingerprint")
    let tlsSettings := if fp ≠ "" then
        putInner (tlsSettings.put "fingerprint" (.str fp)) "fingerprint" (.str fp)
      else tlsSettings
    let alpn := externalProxyALPNList (ep.get "alpn")
    let tlsSettings := tlsSettings.putIf (alpn ≠ []) "alpn" (.arr (alpn.map Json.str))
    let pins := externalProxyPins (ep.get "pinnedPeerCertSha256")
    let tlsSettings := if pins ≠ [] then
        putInner tlsSettings "pinnedPeerCertSha256" (.arr (pins.map Json.str))
      else tlsSettings
    let ech := strD (ep.get "echConfigList")
    let tlsSettings := if ech ≠ "" then putInner tlsSettings "echConfigList" (.str ech) else tlsSettings
    stream.put "tlsSettings" (.obj tlsSettings)
  else stream

def forceSecurity (leftovers : List String) (forceTls : String) (stream : Object) : Object :=
  if forceTls = "tls" then
    if stream.get "security" ≠ some (.str "tls") then
      (stream.put "security" (.str "tls")).put "tlsSettings" (.obj [])
    else stream
  else if forceTls = "none" then
    if stream.get "security" ≠ some (.str "none") then
      (stream.put "security" (.str "none")).delAll leftovers
    else stream
  else stream

def defaultProxy (dest : String) (port : Int) : Json :=
  .obj [("forceTls", .str "same"), ("dest", .str dest), ("port", .num (toString port)),
    ("remark", .str "")]

end streams

section json

variable (env : Env) (d : Draw)

def jsonTlsData (tData : Object) : Object :=
  let tlsClientSettings := objD (tData.get "settings")
  let tlsData : Object :=
    [("serverName", nullD (tData.get "serverName")), ("alpn", nullD (tData.get "alpn"))]
  let tlsData := match str? (tlsClientSettings.get "fingerprint") with
    | some fingerprint => tlsData.put "fingerprint" (.str fingerprint)
    | none => tlsData
  let ech := strD (tlsClientSettings.get "echConfigList")
  let tlsData := tlsData.putIf (ech ≠ "") "echConfigList" (.str ech)
  let pins := arrD (tlsClientSettings.get "pinnedPeerCertSha256")
  tlsData.putIf (pins ≠ []) "pinnedPeerCertSha256" (.arr pins)

def chooseOrBlank (site : String) (v : Option Json) : Go String :=
  let vs := arrD v
  if vs ≠ [] then choose d site vs else pure ""

def jsonRealityData (rData : Object) : Go Object := do
  let rltyClientSettings := objD (rData.get "settings")
  let shortId ← chooseOrBlank d "shortId" (rData.get "shortIds")
  let serverName ← chooseOrBlank d "serverName" (rData.get "serverNames")
  pure [("show", .bool false), ("publicKey", nullD (rltyClientSettings.get "publicKey")),
    ("fingerprint", nullD (rltyClientSettings.get "fingerprint")),
    ("mldsa65Verify", nullD (rltyClientSettings.get "mldsa65Verify")),
    ("spiderX", .str (spiderX d)), ("shortId", .str shortId), ("serverName", .str serverName)]

def jsonSecurity (streamSettings : Object) : Go Object :=
  match Security.of (strD (streamSettings.get "security")) with
  | .tls => do
    let tData ← must (obj? (streamSettings.get "tlsSettings"))
    pure (streamSettings.put "tlsSettings" (.obj (jsonTlsData tData)))
  | .reality => do
    let rData ← must (obj? (streamSettings.get "realitySettings"))
    let data ← jsonRealityData d rData
    pure (streamSettings.put "realitySettings" (.obj data))
  | .other => pure streamSettings

def trimXhttp (v : Json) : Json :=
  match v with
  | .obj xhttp =>
    let xhttp := Fields.delAll xhttp
      ["noSSEHeader", "scMaxBufferedPosts", "scStreamUpServerSecs", "serverMaxHeaderBytes"]
    let drop := fun (xhttp : Object) field =>
      let v := strD (xhttp.get field)
      if v = "" ∨ coreDefaults.get field = some v then xhttp.del field else xhttp
    .obj (drop (drop xhttp "scMaxEachPostBytes") "scMinPostsIntervalMs")
  | v => v

def removeProxyProtocol (streamSettings : Object) : Object :=
  let clean := fun key => removeAcceptProxy (streamSettings.get key)
  match Network.of (strD (streamSettings.get "network")) with
  | .tcp => streamSettings.put "tcpSettings" (clean "tcpSettings")
  | .ws => streamSettings.put "wsSettings" (clean "wsSettings")
  | .httpupgrade => streamSettings.put "httpupgradeSettings" (clean "httpupgradeSettings")
  | .xhttp => streamSettings.put "xhttpSettings" (trimXhttp (clean "xhttpSettings"))
  | .kcp | .grpc | .other => streamSettings

def jsonStreamData (stream : Object) : Go Object := do
  let streamSettings ← jsonSecurity d stream
  let streamSettings := applyGlobalFinalMask env.finalMask (streamSettings.del "sockopt")
  pure (removeProxyProtocol streamSettings)

structure Outbound where
  protocol : String
  streamSettings : Object
  mux : Option Json
  settings : Object

structure Config where
  outbound : Outbound
  remarks : String

def genVnext (ib : Inbound) (streamSettings : Object) (client : Client) : Outbound where
  protocol := ib.protocol.name
  streamSettings := streamSettings
  mux := env.mux
  settings :=
    [("address", .str ib.listen), ("port", .num (toString ib.port)), ("id", .str client.id),
      ("security", .str (if client.security = "" then "auto" else client.security)),
      ("level", .num "8")]

def genVless (ib : Inbound) (streamSettings : Object) (client : Client) : Outbound where
  protocol := ib.protocol.name
  streamSettings := streamSettings
  mux := env.mux
  settings :=
    let settings : Object :=
      [("address", .str ib.listen), ("port", .num (toString ib.port)), ("id", .str client.id),
        ("encryption", .str (strD (ib.settings.get "encryption"))), ("level", .num "8")]
    settings.putIf (client.flow ≠ "") "flow" (.str client.flow)

def serverPassword (ib : Inbound) (client : Client) : String :=
  if ib.protocol = .shadowsocks ∧ (strD (ib.settings.get "method")).startsWith "2022" then
    match str? (ib.settings.get "password") with
    | some serverPassword => serverPassword ++ ":" ++ client.password
    | none => client.password
  else client.password

def genServer (ib : Inbound) (streamSettings : Object) (client : Client) : Outbound where
  protocol := ib.protocol.name
  streamSettings := streamSettings
  mux := env.mux
  settings :=
    let settings : Object :=
      [("address", .str ib.listen), ("port", .num (toString ib.port)),
        ("password", .str (serverPassword ib client)), ("level", .num "8")]
    settings.putIf (ib.protocol = .shadowsocks) "method" (.str (strD (ib.settings.get "method")))

def genHy (ib : Inbound) (newStream : Object) (client : Client) : Go Outbound := do
  let version := Json.num (toString (version env ib.settings))
  let hyStream ← must (obj? (ib.streamSettings.get "hysteriaSettings"))
  let outHyStream : Object := [("version", version), ("auth", .str client.auth)]
  let outHyStream : Object := match num? (hyStream.get "udpIdleTimeout") with
    | some timeout => outHyStream.put "udpIdleTimeout" (.num (toString (env.truncate timeout)))
    | none => outHyStream
  let outHyStream : Object := match obj? (hyStream.get "masquerade") with
    | some masquerade => outHyStream.put "masquerade" (.obj masquerade)
    | none => outHyStream
  let newStream := newStream.put "hysteriaSettings" (.obj outHyStream)
  let newStream := match obj? (hyStream.get "finalmask") with
    | some finalmask =>
      newStream.put "finalmask" (.obj (mergeFinalMask (newStream.get "finalmask") finalmask))
    | none => newStream
  pure
    { protocol := ib.protocol.name
      streamSettings := (newStream.put "network" (.str "hysteria")).put "security" (.str "tls")
      mux := env.mux
      settings := [("version", version), ("address", .str ib.listen),
        ("port", .num (toString ib.port))] }

def genOutbound (ib : Inbound) (newStream : Object) (client : Client) : Go Outbound :=
  match ib.protocol with
  | .vmess => pure (genVnext env ib newStream client)
  | .vless => pure (genVless env ib newStream client)
  | .trojan | .shadowsocks => pure (genServer env ib newStream client)
  | .hysteria => genHy env ib newStream client
  | .other => pure ⟨"", [], none, []⟩

def jsonConfig (stream : Object) (hasExternalProxy : Bool) (client : Client) (ib : Inbound) (ep : Json) :
    Go (Config × Inbound) := do
  let extPrxy ← must (obj? (some ep))
  let dest ← must (str? (extPrxy.get "dest"))
  let port ← must (num? (extPrxy.get "port"))
  let ib := { ib with listen := dest, port := env.truncate port }
  let forceTls ← must (str? (extPrxy.get "forceTls"))
  let newStream := forceSecurity ["tlsSettings"] forceTls stream
  let newStream := if hasExternalProxy then
      applyExternalProxyTLSToStream extPrxy newStream (strD (newStream.get "security"))
    else newStream
  let outbound ← genOutbound env ib newStream client
  let extra ← must (str? (extPrxy.get "remark"))
  let remarks ← genRemark env ib client.email extra
  pure (⟨outbound, remarks⟩, ib)

def jsonConfigs (stream : Object) (hasExternalProxy : Bool) (client : Client) :
    Inbound → List Json → Go (List Config × Inbound)
  | ib, [] => pure ([], ib)
  | ib, ep :: eps => do
    let (config, ib) ← jsonConfig env stream hasExternalProxy client ib ep
    let (configs, ib) ← jsonConfigs stream hasExternalProxy client ib eps
    pure (config :: configs, ib)

def defaultDest (ib : Inbound) : String :=
  let dest := resolveInboundAddress env ib
  if dest = "" then env.host else dest

def proxiesFor (ib : Inbound) (stream : Object) : List Json :=
  let externalProxies := externalProxiesOf stream
  if externalProxies ≠ [] then externalProxies else [defaultProxy (defaultDest env ib) ib.port]

def getConfig (ib : Inbound) (client : Client) : Go (List Config × Inbound) := do
  let stream ← jsonStreamData env d ib.streamSettings
  jsonConfigs env (stream.del "externalProxy") (externalProxiesOf stream ≠ []) client ib
    (proxiesFor env ib stream)

end json

section clash

variable (env : Env) (d : Draw)

def sprint : Json → String
  | .str s => s
  | v => env.sprint v

def clashTlsData (tData : Object) : Object :=
  let tlsClientSettings := objD (tData.get "settings")
  let tlsData : Object :=
    [("serverName", nullD (tData.get "serverName")), ("alpn", nullD (tData.get "alpn"))]
  let tlsData := match str? (tlsClientSettings.get "fingerprint") with
    | some fingerprint => tlsData.put "fingerprint" (.str fingerprint)
    | none => tlsData
  let pins := arrD (tlsClientSettings.get "pinnedPeerCertSha256")
  tlsData.putIf (pins ≠ []) "pin-sha256" (.arr pins)

def clashRealityData (rData : Object) : Object :=
  let realityClientSettings := objD (rData.get "settings")
  let data : Object := []
  let data := match str? (realityClientSettings.get "publicKey") with
    | some publicKey => data.put "publicKey" (.str publicKey)
    | none => data
  let data := match str? (realityClientSettings.get "fingerprint") with
    | some fingerprint => data.put "fingerprint" (.str fingerprint)
    | none => data
  let data := match (arrD (rData.get "serverNames")).head? with
    | some name => data.put "serverName" (.str (sprint env name))
    | none => data
  match (arrD (rData.get "shortIds")).head? with
  | some shortId => data.put "shortId" (.str (sprint env shortId))
  | none => data

def clashStreamData (stream : Object) : Object :=
  let streamSettings := match Security.of (strD (stream.get "security")) with
    | .tls =>
      match obj? (stream.get "tlsSettings") with
      | some tlsSettings => stream.put "tlsSettings" (.obj (clashTlsData tlsSettings))
      | none => stream
    | .reality =>
      match obj? (stream.get "realitySettings") with
      | some realitySettings =>
        stream.put "realitySettings" (.obj (clashRealityData env realitySettings))
      | none => stream
    | .other => stream
  streamSettings.del "sockopt"

def clashHost (settings : Object) : Go String :=
  let host := strD (settings.get "host")
  if host ≠ "" then pure host
  else
    match obj? (settings.get "headers") with
    | some headers => searchHost d "headers" headers
    | none => pure ""

def putOpts (proxy : Object) (key : String) (opts : Object) : Object :=
  proxy.putIf (opts ≠ []) key (.obj opts)

def pathOpts (settings : Object) : Object :=
  let path := strD (settings.get "path")
  Fields.putIf [] (path ≠ "") "path" (.str path)

def hostHeader (host : String) (opts : Object) : Object :=
  opts.putIf (host ≠ "") "headers" (.obj [("Host", .str host)])

def applyHeaders (key : String) (settings : Option Object) (proxy : Object) : Go Object :=
  match settings with
  | some settings => do
    let host ← clashHost d settings
    pure (putOpts proxy key (hostHeader host (pathOpts settings)))
  | none => pure proxy

def applyXhttpOpts (settings : Option Object) (proxy : Object) : Go Object :=
  match settings with
  | some xhttp => do
    let host ← clashHost d xhttp
    let opts := (pathOpts xhttp).putIf (host ≠ "") "host" (.str host)
    let mode := strD (xhttp.get "mode")
    pure (putOpts proxy "xhttp-opts" (opts.putIf (mode ≠ "") "mode" (.str mode)))
  | none => pure proxy

def applyTransport (proxy : Object) (network : String) (stream : Object) : Go (Option Object) :=
  let proxy := proxy.put "network" (.str (if network = "" then "tcp" else network))
  match Network.of (if network = "" then "tcp" else network) with
  | .tcp =>
    let typeStr := strD ((tcpHeader stream).get "type")
    pure (if typeStr ≠ "" ∧ typeStr ≠ "none" then none else some proxy)
  | .ws => some <$> applyHeaders d "ws-opts" (obj? (stream.get "wsSettings")) proxy
  | .grpc =>
    let serviceName := strD ((objD (stream.get "grpcSettings")).get "serviceName")
    let opts : Object := Fields.putIf [] (serviceName ≠ "") "grpc-service-name" (.str serviceName)
    pure (some (putOpts proxy "grpc-opts" opts))
  | .httpupgrade =>
    some <$> applyHeaders d "http-upgrade-opts" (obj? (stream.get "httpupgradeSettings")) proxy
  | .xhttp => some <$> applyXhttpOpts d (obj? (stream.get "xhttpSettings")) proxy
  | .kcp | .other => pure none

def putText (proxy : Object) (key : String) (v : Option Json) : Object :=
  proxy.putIf (strD v ≠ "") key (.str (strD v))

def applySecurity (proxy : Object) (security : String) (stream : Object) : Option Object :=
  if security = "" ∨ security = "none" then some (proxy.put "tls" (.bool false))
  else
    match Security.of security with
    | .tls =>
      let proxy := proxy.put "tls" (.bool true)
      let tlsSettings := objD (stream.get "tlsSettings")
      let serverName := tlsSettings.get "serverName"
      let proxy := putText proxy "servername" serverName
      let proxy := if proxy.get "type" = some (.str "trojan") then putText proxy "sni" serverName
        else proxy
      let proxy := putText proxy "client-fingerprint" (tlsSettings.get "fingerprint")
      let alpn := externalProxyALPNList (tlsSettings.get "alpn")
      some (proxy.putIf (alpn ≠ []) "alpn" (.arr (alpn.map Json.str)))
    | .reality =>
      match obj? (stream.get "realitySettings") with
      | some realitySettings =>
        let proxy := putText (proxy.put "tls" (.bool true)) "servername" (realitySettings.get "serverName")
        let opts : Object := putText (putText [] "public-key" (realitySettings.get "publicKey"))
          "short-id" (realitySettings.get "shortId")
        some (putText (putOpts proxy "reality-opts" opts) "client-fingerprint"
          (realitySettings.get "fingerprint"))
      | none => none
    | .other => none

def clashPassword (ib : Inbound) (client : Client) : String :=
  let serverPassword := strD (ib.settings.get "password")
  if (strD (ib.settings.get "method")).startsWith "2022" ∧ serverPassword ≠ "" then
    serverPassword ++ ":" ++ client.password
  else client.password

def clashCredential (ib : Inbound) (client : Client) (network : String) (stream proxy : Object) :
    Option Object :=
  match ib.protocol with
  | .vmess =>
    let cipher := if client.security = "" then "auto" else client.security
    some ((((proxy.put "type" (.str "vmess")).put "uuid" (.str client.id)).put "alterId"
      (.num "0")).put "cipher" (.str cipher))
  | .vless =>
    let proxy := (proxy.put "type" (.str "vless")).put "uuid" (.str client.id)
    let streamSecurity := strD (stream.get "security")
    let proxy := proxy.putIf
      (client.flow ≠ "" && vlessFlowAllowed network streamSecurity ib.settings) "flow"
        (.str client.flow)
    let encryption := Text.trimSpace (strD (ib.settings.get "encryption"))
    some (proxy.putIf (encryption ≠ "" && encryption ≠ "none") "encryption" (.str encryption))
  | .trojan => some ((proxy.put "type" (.str "trojan")).put "password" (.str client.password))
  | .shadowsocks =>
    let method := strD (ib.settings.get "method")
    if method = "" then none
    else some (((proxy.put "type" (.str "ss")).put "password" (.str (clashPassword ib client))).put
      "cipher" (.str method))
  | .hysteria | .other => none

def buildHysteriaProxy (ib : Inbound) (client : Client) (extraRemark : String) : Go Object := do
  let name ← genRemark env ib client.email extraRemark
  let legacy := version env ib.settings = 1
  let proxy : Object :=
    [("name", .str name), ("type", .str (if legacy then "hysteria" else "hysteria2")),
      ("server", .str ib.listen), ("port", .num (toString ib.port)), ("udp", .bool true),
      (if legacy then "auth-str" else "password", .str client.auth)]
  let rawStream := ib.streamSettings
  let tlsSettings := objD (rawStream.get "tlsSettings")
  let proxy := putText proxy "sni" (tlsSettings.get "serverName")
  let alpn := texts (arrD (tlsSettings.get "alpn"))
  let proxy := proxy.putIf (alpn ≠ []) "alpn" (.arr (alpn.map Json.str))
  let inner := objD (tlsSettings.get "settings")
  let proxy := proxy.putIf (bool? (inner.get "allowInsecure") = some true) "skip-cert-verify" (.bool true)
  let proxy := putText proxy "client-fingerprint" (inner.get "fingerprint")
  let proxy := match salamander (objD (rawStream.get "finalmask")) with
    | some pw => (proxy.put "obfs" (.str "salamander")).put "obfs-password" (.str pw)
    | none => proxy
  let hopPorts := hysteriaHopPorts rawStream
  pure (proxy.putIf (hopPorts ≠ "") "ports" (.str hopPorts))

def buildProxy (ib : Inbound) (client : Client) (stream : Object) (extraRemark : String) :
    Go (Option Object) :=
  if ib.protocol = .hysteria then some <$> buildHysteriaProxy env ib client extraRemark
  else do
    let name ← genRemark env ib client.email extraRemark
    let proxy : Object :=
      [("name", .str name), ("server", .str ib.listen), ("port", .num (toString ib.port)),
        ("udp", .bool true)]
    let network := strD (stream.get "network")
    let transported ← applyTransport d proxy network stream
    pure ((transported.bind (clashCredential ib client network stream)).bind
      (applySecurity · (strD (stream.get "security")) stream))

def clashProxy (ib : Inbound) (client : Client) (stream : Object) (hasExternalProxy : Bool) (ep : Json) :
    Go (Option Object) := do
  let extPrxy ← must (obj? (some ep))
  let dest ← must (str? (extPrxy.get "dest"))
  let port ← must (num? (extPrxy.get "port"))
  let workingInbound := { ib with listen := dest, port := env.truncate port }
  let forceTls ← must (str? (extPrxy.get "forceTls"))
  let workingStream := forceSecurity ["tlsSettings", "realitySettings"] forceTls stream
  let workingStream := if hasExternalProxy then
      applyExternalProxyTLSToStream extPrxy workingStream (strD (workingStream.get "security"))
    else workingStream
  let extra ← must (str? (extPrxy.get "remark"))
  buildProxy env d workingInbound client workingStream extra

def clashProxies (ib : Inbound) (client : Client) (stream : Object) (hasExternalProxy : Bool) :
    Nat → List Json → Go (List Object)
  | _, [] => pure []
  | i, ep :: eps => do
    let proxy ← clashProxy env (fun site => d (site ++ toString i)) ib client stream hasExternalProxy ep
    let proxies ← clashProxies ib client stream hasExternalProxy (i + 1) eps
    pure (proxy.toList ++ proxies)

def getProxies (ib : Inbound) (client : Client) : Go (List Object) :=
  let stream := clashStreamData env ib.streamSettings
  clashProxies env d ib client (stream.del "externalProxy") (externalProxiesOf stream ≠ []) 0
    (proxiesFor env ib stream)

end clash

end Subscription

end QuiPanel
