import QuiPanel.Text
import QuiPanel.Library.Json
import QuiPanel.Library.Fields
import QuiPanel.Library.Returns

namespace QuiPanel

namespace Subscription

open Outcome

inductive Panic
  | assertion
  | index
  | numZero
  | nilMap
  deriving DecidableEq, Repr

abbrev Go := Except Panic

abbrev Object := Fields Json

abbrev Params := Fields String

abbrev Draw := String → Nat

section assertions

def str? : Option Json → Option String
  | some (.str s) => some s
  | _ => none

def obj? : Option Json → Option Object
  | some (.obj m) => some m
  | _ => none

def arr? : Option Json → Option (List Json)
  | some (.arr vs) => some vs
  | _ => none

def bool? : Option Json → Option Bool
  | some (.bool b) => some b
  | _ => none

def num? : Option Json → Option String
  | some (.num digits) => some digits
  | _ => none

def strD (v : Option Json) : String := (str? v).getD ""

def objD (v : Option Json) : Object := (obj? v).getD []

def arrD (v : Option Json) : List Json := (arr? v).getD []

def must {α : Type} (o : Option α) : Go α := orErr o .assertion

def element {α : Type} (l : List α) (i : Nat) : Go α := orErr l[i]? .index

def texts (vs : List Json) : List String := vs.filterMap fun v => (str? (some v)).filter (· ≠ "")

def join (sep : String) (parts : List String) : String := sep.intercalate parts

end assertions

section model

inductive Protocol
  | vmess
  | vless
  | trojan
  | shadowsocks
  | hysteria
  | other
  deriving DecidableEq, Repr

def Protocol.name : Protocol → String
  | .vmess => "vmess"
  | .vless => "vless"
  | .trojan => "trojan"
  | .shadowsocks => "shadowsocks"
  | .hysteria => "hysteria"
  | .other => ""

inductive Network
  | tcp
  | kcp
  | ws
  | grpc
  | httpupgrade
  | xhttp
  | other
  deriving DecidableEq, Repr

def Network.of (s : String) : Network :=
  if s = "tcp" then .tcp
  else if s = "kcp" then .kcp
  else if s = "ws" then .ws
  else if s = "grpc" then .grpc
  else if s = "httpupgrade" then .httpupgrade
  else if s = "xhttp" then .xhttp
  else .other

inductive Security
  | tls
  | reality
  | other
  deriving DecidableEq, Repr

def Security.of (s : String) : Security :=
  if s = "tls" then .tls else if s = "reality" then .reality else .other

structure Client where
  id : String
  security : String
  password : String
  flow : String
  auth : String
  email : String
  subId : String
  enable : Bool
  deriving DecidableEq, Repr

structure ClientTraffic where
  email : String
  enable : Bool
  up : Int
  down : Int
  total : Int
  expiryTime : Int
  deriving DecidableEq, Repr

structure Inbound where
  id : Int
  subSortIndex : Int
  remark : String
  enable : Bool
  listen : String
  port : Int
  protocol : Protocol
  settings : Object
  streamSettings : Object
  nodeId : Option Int
  shareAddrStrategy : String
  shareAddr : String
  clientStats : List ClientTraffic

structure Env where
  address : String
  host : String
  showInfo : Bool
  emailInRemark : Bool
  remarkModel : List UInt8
  now : Int
  nodeAddresses : List (Int × String)
  finalMask : Object
  mux : Option Json
  getClients : Object → List Client
  isRoutableHost : String → Bool
  isLoopbackHost : String → Bool
  truncate : String → Int
  isZero : String → Bool
  marshal : Json → String
  sprint : Json → String
  formatTraffic : Int → String
  decodeHex : String → Option (List UInt8)
  encodeHex : List UInt8 → String
  decodeBase64 : List (String → Option (List UInt8))

end model

section search

mutual

def found (key : String) : Json → List Json
  | .obj fields => foundFields key fields
  | .arr elems => foundElems key elems
  | .null | .bool _ | .num _ | .str _ => []

def foundFields (key : String) : List (String × Json) → List Json
  | [] => []
  | (k, v) :: fs => (if k = key then [v] else found key v) ++ foundFields key fs

def foundElems (key : String) : List Json → List Json
  | [] => []
  | v :: vs => if (found key v).isEmpty then foundElems key vs else found key v

end

def foundIn (data : Option Json) (key : String) : List Json := (data.map (found key)).getD []

def pick {α : Type} (d : Draw) (site : String) (l : List α) : Option α := l[d site % l.length]?

def searchKey (d : Draw) (site : String) (data : Option Json) (key : String) : Option Json :=
  pick d site (foundIn data key)

def num (d : Draw) (site : String) (n : Nat) : Go Nat :=
  if n = 0 then .error .numZero else .ok (d site % n)

def choose (d : Draw) (site : String) (vs : List Json) : Go String := do
  let i ← num d site vs.length
  must (str? vs[i]?)

def isHostKey (k : String) : Bool :=
  Text.equalFold (k.map fun c => if c = 'ſ' then 's' else c) "host"

def hosts (headers : Object) : List Json :=
  (headers.filter fun f => isHostKey f.1 && f.2 ≠ .null).map (·.2)

def hostText : Json → Option String
  | .arr [] => some ""
  | .arr (h :: _) => str? (some h)
  | v => str? (some v)

def searchHost (d : Draw) (site : String) (headers : Object) : Go String :=
  match pick d site (hosts headers) with
  | none => .ok ""
  | some v => must (hostText v)

end search

section transport

variable {α : Type} (env : Env) (d : Draw)

def pathHost (settings : Object) : Go String :=
  match str? (settings.get "host") with
  | some host =>
    if host ≠ "" then .ok host else searchHost d "headers" (objD (settings.get "headers"))
  | none => searchHost d "headers" (objD (settings.get "headers"))

def applyPathAndHost (wrap : String → α) (settings : Object) (m : Fields α) : Go (Fields α) := do
  let path ← must (str? (settings.get "path"))
  let host ← pathHost d settings
  pure ((m.put "path" (wrap path)).put "host" (wrap host))

def applyPathAndHostParams (settings : Object) (params : Params) : Go Params :=
  applyPathAndHost d id settings params

def applyPathAndHostObj (settings obj : Object) : Go Object :=
  applyPathAndHost d Json.str settings obj

def httpHost (header request : Object) : Go String := do
  let host ← match obj? (header.get "response") with
    | some response =>
      match obj? (response.get "headers") with
      | some respHeaders => searchHost d "response" respHeaders
      | none => pure ""
    | none => pure ""
  if host = "" then searchHost d "request" (objD (request.get "headers")) else pure host

def applyHttpHeader (wrap : String → α) (header : Object) (m : Fields α) : Go (Fields α) := do
  let request ← must (obj? (header.get "request"))
  let first ← element (arrD (request.get "path")) 0
  let path ← must (str? (some first))
  let host ← httpHost d header request
  pure ((m.put "path" (wrap path)).put "host" (wrap host))

def tcpHeader (stream : Object) : Object := objD ((objD (stream.get "tcpSettings")).get "header")

def nonZeroShareValue (v : Option Json) : Option Json :=
  match v with
  | some (.str s) => if s ≠ "" then some (.str s) else none
  | some (.num digits) => if env.isZero digits then none else some (.num digits)
  | _ => none

def nonEmptyShareObject (v : Option Json) : Option Json :=
  match v with
  | some (.obj m) => if m ≠ [] then some (.obj m) else none
  | some (.arr vs) => if vs ≠ [] then some (.arr vs) else none
  | _ => none

def coreDefaults : Params := [("scMaxEachPostBytes", "1000000"), ("scMinPostsIntervalMs", "30")]

def copyString (xhttp extra : Object) (field : String) : Object :=
  let v := strD (xhttp.get field)
  extra.putIf (v ≠ "" && coreDefaults.get field ≠ some v) field (.str v)

def copyShared (share : Option Json → Option Json) (xhttp extra : Object) (field : String) : Object :=
  match share (xhttp.get field) with
  | some v => extra.put field v
  | none => extra

def buildXhttpExtra (xhttp : Object) : Object :=
  let extra := copyString xhttp [] "xPaddingBytes"
  let extra := if bool? (xhttp.get "xPaddingObfsMode") = some true then
      ["xPaddingKey", "xPaddingHeader", "xPaddingPlacement", "xPaddingMethod"].foldl
        (copyString xhttp) (extra.put "xPaddingObfsMode" (.bool true))
    else extra
  let extra := ["uplinkHTTPMethod", "sessionPlacement", "sessionKey", "seqPlacement", "seqKey",
    "uplinkDataPlacement", "uplinkDataKey", "scMaxEachPostBytes", "scMinPostsIntervalMs"].foldl
      (copyString xhttp) extra
  let extra := copyShared (nonZeroShareValue env) xhttp extra "uplinkChunkSize"
  let extra := extra.putIf (bool? (xhttp.get "noGRPCHeader") = some true) "noGRPCHeader" (.bool true)
  let extra := ["xmux", "downloadSettings"].foldl (copyShared nonEmptyShareObject xhttp) extra
  let headers := (objD (xhttp.get "headers")).filter fun f => !isHostKey f.1
  extra.putIf (headers ≠ []) "headers" (.obj headers)

def applyXhttpExtraParams (xhttp : Option Object) (params : Params) : Go Params :=
  match xhttp with
  | none => pure params
  | some xhttp => do
    let params ← applyPathAndHostParams d xhttp params
    let params := match str? (xhttp.get "mode") with
      | some mode => params.put "mode" mode
      | none => params
    let xpb := strD (xhttp.get "xPaddingBytes")
    let params := params.putIf (xpb ≠ "") "x_padding_bytes" xpb
    let extra := buildXhttpExtra env xhttp
    pure (params.putIf (extra ≠ []) "extra" (env.marshal (.obj extra)))

def applyXhttpExtraObj (xhttp obj : Object) : Object :=
  let xpb := strD (xhttp.get "xPaddingBytes")
  (obj.putIf (xpb ≠ "") "x_padding_bytes" (.str xpb)).copy (buildXhttpExtra env xhttp)

def validFinalMaskUDPTypes : List String :=
  ["salamander", "mkcp-legacy", "xdns", "xicmp", "noise", "header-custom", "realm"]

def validFinalMaskTCPTypes : List String := ["header-custom", "fragment", "sudoku"]

def normalizedMask (types : List String) (rawMask : Json) : Option Json :=
  let mask := objD (some rawMask)
  let maskType := strD (mask.get "type")
  if maskType ∈ types then
    let settings := objD (mask.get "settings")
    let normalized : Object := [("type", .str maskType)]
    some (.obj (normalized.putIf (settings ≠ []) "settings" (.obj settings)))
  else none

def normalizedMasks (types : List String) (key : String) (finalmask : Object) : List Json :=
  (arrD (finalmask.get key)).filterMap (normalizedMask types)

def normalizedFinalMaskTCPMasks (finalmask : Object) : List Json :=
  normalizedMasks validFinalMaskTCPTypes "tcp" finalmask

def normalizedFinalMaskUDPMasks (finalmask : Object) : List Json :=
  normalizedMasks validFinalMaskUDPTypes "udp" finalmask

def normalizeFinalMask (finalmask : Object) : Object :=
  let tcpMasks := normalizedFinalMaskTCPMasks finalmask
  let udpMasks := normalizedFinalMaskUDPMasks finalmask
  let quicParams := objD (finalmask.get "quicParams")
  let result : Object := []
  let result := result.putIf (tcpMasks ≠ []) "tcp" (.arr tcpMasks)
  let result := result.putIf (udpMasks ≠ []) "udp" (.arr udpMasks)
  result.putIf (quicParams ≠ []) "quicParams" (.obj quicParams)

mutual

def hasFinalMaskContent : Json → Bool
  | .null => false
  | .str s => s ≠ ""
  | .obj fields => hasFinalMaskContentFields fields
  | .arr elems => hasFinalMaskContentElems elems
  | .bool _ | .num _ => true

def hasFinalMaskContentFields : List (String × Json) → Bool
  | [] => false
  | (_, v) :: fs => hasFinalMaskContent v || hasFinalMaskContentFields fs

def hasFinalMaskContentElems : List Json → Bool
  | [] => false
  | v :: vs => hasFinalMaskContent v || hasFinalMaskContentElems vs

end

def applyFinalMask (wrap : String → α) (stream : Object) (m : Fields α) : Fields α :=
  match obj? (stream.get "finalmask") with
  | some finalmask =>
    let normalized := Json.obj (normalizeFinalMask finalmask)
    m.putIf (hasFinalMaskContent normalized) "fm" (wrap (env.marshal normalized))
  | none => m

structure KcpShareFields where
  headerType : String
  seed : String
  mtu : Int
  tti : Int

def kcpMaskToHeaderType : Params :=
  [("dns", "dns"), ("dtls", "dtls"), ("srtp", "srtp"), ("utp", "utp"), ("wechat", "wechat-video"),
    ("wireguard", "wireguard")]

def readPositiveInt (v : Option Json) : Option Int :=
  ((num? v).map env.truncate).filter (0 < ·)

def KcpShareFields.mask (fields : KcpShareFields) (rawMask : Json) : KcpShareFields :=
  let mask := objD (some rawMask)
  if strD (mask.get "type") = "mkcp-legacy" then
    let settings := objD (mask.get "settings")
    let header := strD (settings.get "header")
    if header = "" then { fields with seed := strD (settings.get "value") }
    else { fields with headerType := (kcpMaskToHeaderType.get header).getD fields.headerType }
  else fields

def extractKcpShareFields (stream : Object) : KcpShareFields :=
  let kcp := objD (stream.get "kcpSettings")
  let headerType := strD ((objD (kcp.get "header")).get "type")
  let fields : KcpShareFields :=
    { headerType := if headerType ≠ "" then headerType else "none"
      seed := strD (kcp.get "seed")
      mtu := (readPositiveInt env (kcp.get "mtu")).getD 0
      tti := (readPositiveInt env (kcp.get "tti")).getD 0 }
  (normalizedFinalMaskUDPMasks (objD (stream.get "finalmask"))).foldl KcpShareFields.mask fields

def setField (present : Bool) (m : Fields α) (key : String) (v : α) : Fields α :=
  if present then m.put key v else m.del key

def applyKcpShareParams (stream : Object) (params : Params) : Params :=
  let f := extractKcpShareFields env stream
  let params := params.putIf (f.headerType ≠ "" && f.headerType ≠ "none") "headerType" f.headerType
  let params := setField (f.seed ≠ "") params "seed" f.seed
  let params := setField (0 < f.mtu) params "mtu" (toString f.mtu)
  setField (0 < f.tti) params "tti" (toString f.tti)

def applyKcpShareObj (stream obj : Object) : Object :=
  let f := extractKcpShareFields env stream
  let obj := obj.putIf (f.headerType ≠ "" && f.headerType ≠ "none") "type" (.str f.headerType)
  let obj := setField (f.seed ≠ "") obj "path" (.str f.seed)
  let obj := setField (0 < f.mtu) obj "mtu" (.num (toString f.mtu))
  setField (0 < f.tti) obj "tti" (.num (toString f.tti))

def applyShareNetworkParams (stream : Object) (streamNetwork : String) (params : Params) : Go Params :=
  match Network.of streamNetwork with
  | .tcp =>
    if strD ((tcpHeader stream).get "type") = "http" then do
      let params ← applyHttpHeader d id (tcpHeader stream) params
      pure (params.put "headerType" "http")
    else pure params
  | .kcp => pure (applyKcpShareParams env stream params)
  | .ws => applyPathAndHostParams d (objD (stream.get "wsSettings")) params
  | .grpc => do
    let grpc := objD (stream.get "grpcSettings")
    let serviceName ← must (str? (grpc.get "serviceName"))
    let multiMode ← must (bool? (grpc.get "multiMode"))
    let params := (params.put "serviceName" serviceName).put "authority" (strD (grpc.get "authority"))
    pure (params.putIf multiMode "mode" "multi")
  | .httpupgrade => applyPathAndHostParams d (objD (stream.get "httpupgradeSettings")) params
  | .xhttp => applyXhttpExtraParams env d (obj? (stream.get "xhttpSettings")) params
  | .other => pure params

def applyVmessNetworkParams (stream : Object) (network : String) (obj : Object) : Go Object :=
  let obj := obj.put "net" (.str network)
  match Network.of network with
  | .tcp => do
    let typeStr := strD ((tcpHeader stream).get "type")
    let obj := obj.put "type" (.str typeStr)
    if typeStr = "http" then applyHttpHeader d Json.str (tcpHeader stream) obj else pure obj
  | .kcp => pure (applyKcpShareObj env stream obj)
  | .ws => applyPathAndHostObj d (objD (stream.get "wsSettings")) obj
  | .grpc => do
    let grpc := objD (stream.get "grpcSettings")
    let serviceName ← must (str? (grpc.get "serviceName"))
    let authority ← must (str? (grpc.get "authority"))
    let multiMode ← must (bool? (grpc.get "multiMode"))
    let obj := (obj.put "path" (.str serviceName)).put "authority" (.str authority)
    pure (obj.putIf multiMode "type" (.str "multi"))
  | .httpupgrade => applyPathAndHostObj d (objD (stream.get "httpupgradeSettings")) obj
  | .xhttp => do
    let xhttp := objD (stream.get "xhttpSettings")
    let obj ← applyPathAndHostObj d xhttp obj
    let obj := match str? (xhttp.get "mode") with
      | some mode => obj.put "mode" (.str mode)
      | none => obj
    pure (applyXhttpExtraObj env xhttp obj)
  | .other => pure obj

end transport

end Subscription

end QuiPanel
