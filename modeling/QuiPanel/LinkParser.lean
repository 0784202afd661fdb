import QuiPanel.Library.Base64
import QuiPanel.Library.Fields
import QuiPanel.Library.JsonText
import QuiPanel.Library.Url

namespace QuiPanel

namespace LinkParser

open ByteText JsonText

inductive Value
  | str (s : Bytes)
  | int (n : Int)
  | bool (b : Bool)
  | arr (elems : List Value)
  | obj (fields : List (String × Value))
  | json (t : Tree)

abbrev Object := Fields Value

structure Env where
  hosts : Url.Hosts
  decodeJson : Bytes → Option Tree
  truncate : Number → Int

structure ParseResult where
  outbound : Object
  identity : Bytes

section base64

def glyph (b : UInt8) : Char := Char.ofNat b.toNat

def urlGlyph (c : Char) : Char :=
  if c = '-' then '+' else if c = '_' then '/' else if c = '+' ∨ c = '/' then '!' else c

def padTo (pad : α) (s : List α) : List α := s ++ List.replicate ((4 - s.length % 4) % 4) pad

def padBase64 (s : Bytes) : Bytes := padTo 61 s

def stdDecode (s : Bytes) : Option Bytes := Base64.decode (s.map glyph)

def urlDecode (s : Bytes) : Option Bytes := Base64.decode ((s.map glyph).map urlGlyph)

def rawURLDecode (s : Bytes) : Option Bytes :=
  if 61 ∈ s then none
  else urlDecode (padTo 61 (s.filter fun b => b != 10 && b != 13))

def trimRightPad (s : Bytes) : Bytes := (s.reverse.dropWhile (· = 61)).reverse

def base64DecodeFlexible (s : Bytes) : Option Bytes :=
  let s := padBase64 s
  (stdDecode s).or (rawURLDecode (trimRightPad s))

end base64

section helpers

def ascii (s : String) : Value := .str (lit s)

def str (s : Bytes) : Value := .str s

def firstNonEmpty (a b : Bytes) : Bytes := if a ≠ [] then a else b

def param (p : Url.Values) (key : String) : Bytes := Url.get p (lit key)

def firstParam (p : Url.Values) (keys : List String) : Bytes :=
  ((keys.map (param p)).find? (· ≠ [])).getD []

def splitComma (s : Bytes) : List Bytes := ((s.splitOn 44).map trimSpace).filter (· ≠ [])

def splitCommaOrDefault (s : Bytes) (default_ : List Bytes) : List Bytes :=
  if s = [] then default_ else splitComma s

def strings (ss : List Bytes) : Value := .arr (ss.map .str)

def decodeHash (h : Bytes) : Bytes := (Url.queryUnescape h).getD h

def defaultPort (p : Bytes) (default_ : Int) : Int :=
  let n := atoi p
  if p = [] ∨ n.failed ∨ n.value ≤ 0 then default_ else n.value

def canonicalQuery (p : Url.Values) : Bytes :=
  List.intercalate [38] ((p.insertionSort fun a b => a.1 ≤ b.1).map fun kv => kv.1 ++ 61 :: kv.2)

def under (stream : Object) (key : String) (edit : Object → Object) : Object :=
  match stream.get key with
  | some (.obj fields) => stream.put key (.obj (edit fields))
  | _ => stream

def plainTCP : Value := .obj [("header", .obj [("type", ascii "none")])]

def httpTCP (path host : Bytes) : Value :=
  .obj [("header", .obj [("type", ascii "http"), ("request", .obj [("version", ascii "1.1"), ("method", ascii "GET"),
    ("path", strings (splitComma path)), ("headers", .obj [("Host", strings (splitComma host))])])])]

def networkSettings (network : Bytes) : String × Value :=
  if network = lit "kcp" then
    ("kcpSettings", .obj [("mtu", .int 1350), ("tti", .int 20), ("uplinkCapacity", .int 5),
      ("downlinkCapacity", .int 20), ("cwndMultiplier", .int 1), ("maxSendingWindow", .int 2097152)])
  else if network = lit "ws" then
    ("wsSettings", .obj [("path", ascii "/"), ("host", ascii ""), ("headers", .obj []), ("heartbeatPeriod", .int 0)])
  else if network = lit "grpc" then
    ("grpcSettings", .obj [("serviceName", ascii ""), ("authority", ascii ""), ("multiMode", .bool false)])
  else if network = lit "httpupgrade" then
    ("httpupgradeSettings", .obj [("path", ascii "/"), ("host", ascii ""), ("headers", .obj [])])
  else if network = lit "xhttp" then
    ("xhttpSettings", .obj [("path", ascii "/"), ("host", ascii ""), ("mode", ascii "auto"), ("headers", .obj []),
      ("xPaddingBytes", ascii "100-1000")])
  else ("tcpSettings", plainTCP)

def securitySettings (security : Bytes) : Object :=
  if security = lit "tls" then
    [("tlsSettings", .obj [("serverName", ascii ""), ("alpn", .arr []), ("fingerprint", ascii ""),
      ("echConfigList", ascii ""), ("verifyPeerCertByName", ascii ""), ("pinnedPeerCertSha256", ascii "")])]
  else if security = lit "reality" then
    [("realitySettings", .obj [("publicKey", ascii ""), ("fingerprint", ascii "chrome"), ("serverName", ascii ""),
      ("shortId", ascii ""), ("spiderX", ascii ""), ("mldsa65Verify", ascii "")])]
  else []

def buildStream (network security : Bytes) : Object :=
  [("network", str network), ("security", str security), networkSettings network] ++ securitySettings security

def setHostPath (host path : Bytes) (fields : Object) : Object :=
  (fields.put "host" (str host)).put "path" (str path)

def putNonEmpty (key : String) (s : Bytes) (fields : Object) : Object :=
  fields.putIf (s ≠ []) key (str s)

def applyTransport (network : Bytes) (p : Url.Values) (stream : Object) : Object :=
  let host := param p "host"
  let path := firstNonEmpty (param p "path") (lit "/")
  if network = lit "ws" then under stream "wsSettings" (setHostPath host path)
  else if network = lit "grpc" then
    under stream "grpcSettings" fun gs =>
      ((gs.put "serviceName" (str (firstNonEmpty (param p "serviceName") (param p "path")))).put "authority"
        (str (param p "authority"))).put "multiMode" (.bool (param p "mode" = lit "multi"))
  else if network = lit "httpupgrade" then under stream "httpupgradeSettings" (setHostPath host path)
  else if network = lit "xhttp" then
    under stream "xhttpSettings" fun xh =>
      ["xPaddingBytes", "scMaxEachPostBytes", "scMinPostsIntervalMs", "uplinkChunkSize"].foldl
        (fun xh k => putNonEmpty k (param p k) xh) (putNonEmpty "mode" (param p "mode") (setHostPath host path xh))
  else if network = lit "tcp" ∧ (param p "headerType" = lit "http" ∨ param p "type" = lit "http") then
    stream.put "tcpSettings" (httpTCP path host)
  else stream

def applySecurity (security : Bytes) (p : Url.Values) (stream : Object) : Object :=
  if security = lit "tls" then
    under stream "tlsSettings" fun tls =>
      let named := (tls.put "serverName" (str (param p "sni"))).put "fingerprint" (str (param p "fp"))
      let listed := named.putIf (param p "alpn" ≠ []) "alpn" (strings (splitComma (param p "alpn")))
      (listed.put "echConfigList" (str (param p "ech"))).put "pinnedPeerCertSha256" (str (param p "pcs"))
  else if security = lit "reality" then
    under stream "realitySettings" fun re =>
      (((((re.put "serverName" (str (param p "sni"))).put "fingerprint"
        (str (firstNonEmpty (param p "fp") (lit "chrome")))).put "publicKey" (str (param p "pbk"))).put "shortId"
          (str (param p "sid"))).put "spiderX" (str (param p "spx"))).put "mldsa65Verify" (str (param p "pqv"))
  else stream

def applyFinalMask (env : Env) (p : Url.Values) (stream : Object) : Object :=
  match if param p "fm" = [] then none else env.decodeJson (param p "fm") with
  | some parsed => stream.put "finalmask" (.json parsed)
  | none => stream

end helpers

section vmess

def getTree (j : Fields Tree) (key : String) : Option Bytes :=
  match j.get key with
  | some (.str s) => some (utf8 s.toList)
  | _ => none

def getString (j : Fields Tree) (key : String) (default_ : Bytes) : Bytes := (getTree j key).getD default_

def num (env : Env) : Option Tree → Int
  | some (.num x) => env.truncate x
  | some (.str s) => (atoi (utf8 s.toList)).value
  | _ => 0

def remarkKey : String := "ps"

def core (j : Fields Tree) : Fields Tree := j.filter (·.1 ≠ remarkKey)

def vmessIdentity (j : Fields Tree) : Bytes := lit "vmess:" ++ marshal (.obj (core j))

def vmessTransport (network : Bytes) (j : Fields Tree) (stream : Object) : Object :=
  if network = lit "ws" then
    match getTree j "host" with
    | some host => under stream "wsSettings" (setHostPath host (getString j "path" (lit "/")))
    | none => stream
  else if network = lit "grpc" then
    under stream "grpcSettings" fun gs =>
      ((putNonEmpty "authority" (getString j "authority" []) gs).put "serviceName"
        (str (getString j "path" []))).put "multiMode" (.bool (getString j "type" [] = lit "multi"))
  else if network = lit "httpupgrade" then
    under stream "httpupgradeSettings" (setHostPath (getString j "host" []) (getString j "path" (lit "/")))
  else if network = lit "xhttp" then
    under stream "xhttpSettings" fun xh =>
      ["xPaddingBytes", "scMaxEachPostBytes", "scMinPostsIntervalMs"].foldl
        (fun xh k => match j.get k with
          | some v => xh.put k (.json v)
          | none => xh)
        (putNonEmpty "mode" (getString j "mode" [])
          (setHostPath (getString j "host" []) (getString j "path" (lit "/")) xh))
  else if network = lit "tcp" ∧ getString j "type" [] = lit "http" then
    stream.put "tcpSettings" (httpTCP (getString j "path" (lit "/")) (getString j "host" []))
  else stream

def vmessTLS (j : Fields Tree) (stream : Object) : Object :=
  under stream "tlsSettings" fun tls =>
    let named := (tls.put "serverName" (str (getString j "sni" []))).put "fingerprint" (str (getString j "fp" []))
    named.putIf (getString j "alpn" [] ≠ []) "alpn" (strings (splitComma (getString j "alpn" [])))

def vmessOutbound (env : Env) (j : Fields Tree) : Object :=
  let network := getString j "net" (lit "tcp")
  let tls := getString j "tls" [] = lit "tls"
  let stream := vmessTransport network j (buildStream network (if tls then lit "tls" else lit "none"))
  [("protocol", ascii "vmess"), ("tag", str (getString j remarkKey [])),
    ("settings", .obj [("vnext", .arr [.obj [("address", str (getString j "add" [])),
      ("port", .int (num env (j.get "port"))),
      ("users", .arr [.obj [("id", str (getString j "id" [])),
        ("security", str (getString j "scy" (lit "auto")))]])]])]),
    ("streamSettings", .obj (if tls then vmessTLS j stream else stream))]

def unmarshalMap (env : Env) (raw : Bytes) : Option (Fields Tree) :=
  match env.decodeJson raw with
  | some (.obj fields) => some fields
  | some .null => some []
  | _ => none

def vmessFields (env : Env) (b64 : Bytes) : Option (Fields Tree) := do
  let raw ← (stdDecode (padBase64 b64)).or (rawURLDecode b64)
  unmarshalMap env raw

def parseVmess (env : Env) (b64 : Bytes) : Option ParseResult :=
  (vmessFields env b64).map fun j => ⟨vmessOutbound env j, vmessIdentity j⟩

end vmess

section urls

structure Endpoint where
  user : Bytes
  host : Bytes
  port : Bytes
  params : Url.Values
  remark : Bytes

def endpoint (env : Env) (link : Bytes) : Option Endpoint :=
  (Url.parseAbsolute env.hosts link).map fun u =>
    ⟨u.username, u.hostname, u.port, u.query, decodeHash u.fragment⟩

def server (e : Endpoint) : Bytes := e.host ++ 58 :: itoa (defaultPort e.port 443)

def urlStream (env : Env) (p : Url.Values) (security : String) : Object :=
  let network := firstNonEmpty (param p "type") (lit "tcp")
  let security := firstNonEmpty (param p "security") (lit security)
  applyFinalMask env p (applySecurity security p (applyTransport network p (buildStream network security)))

def vlessResult (env : Env) (e : Endpoint) : ParseResult where
  outbound := [("protocol", ascii "vless"), ("tag", str e.remark),
    ("settings", .obj [("address", str e.host), ("port", .int (defaultPort e.port 443)), ("id", str e.user),
      ("flow", str (param e.params "flow")),
      ("encryption", str (firstNonEmpty (param e.params "encryption") (lit "none")))]),
    ("streamSettings", .obj (urlStream env e.params "none"))]
  identity := lit "vless:vless://" ++ (e.user ++ 64 :: (server e ++ 63 :: canonicalQuery e.params))

def trojanResult (env : Env) (e : Endpoint) : ParseResult where
  outbound := [("protocol", ascii "trojan"), ("tag", str e.remark),
    ("settings", .obj [("servers", .arr [.obj [("address", str e.host), ("port", .int (defaultPort e.port 443)),
      ("password", str e.user)]])]),
    ("streamSettings", .obj (urlStream env e.params "tls"))]
  identity := lit "trojan:trojan://" ++ (e.user ++ 64 :: (server e ++ 63 :: canonicalQuery e.params))

def hysteriaStream (env : Env) (e : Endpoint) : Object :=
  applyFinalMask env e.params
    [("network", ascii "hysteria"), ("security", ascii "tls"),
      ("hysteriaSettings", .obj [("version", .int 2), ("auth", str e.user), ("udpIdleTimeout", .int 60)]),
      ("tlsSettings", .obj [("serverName", str (param e.params "sni")),
        ("alpn", strings (splitCommaOrDefault (param e.params "alpn") [lit "h3"])),
        ("fingerprint", str (param e.params "fp")), ("echConfigList", str (param e.params "ech")),
        ("verifyPeerCertByName", ascii ""), ("pinnedPeerCertSha256", str (param e.params "pinSHA256"))])]

def hysteria2Result (env : Env) (e : Endpoint) : ParseResult where
  outbound := [("protocol", ascii "hysteria"), ("tag", str e.remark),
    ("settings", .obj [("address", str e.host), ("port", .int (defaultPort e.port 443)), ("version", .int 2)]),
    ("streamSettings", .obj (hysteriaStream env e))]
  identity := lit "hysteria2:" ++ (e.user ++ 64 :: (server e ++ 63 :: canonicalQuery e.params))

def wireguardSecret (e : Endpoint) : Bytes := (Url.queryUnescape e.user).getD []

def wireguardEndpoint (e : Endpoint) : Bytes := if e.port = [] then e.host else e.host ++ 58 :: e.port

def prefixesOrAll (raw : Bytes) : Value :=
  strings (if splitComma raw = [] then [lit "0.0.0.0/0", lit "::/0"] else splitComma raw)

def putNumber (key : String) (s : Bytes) (fields : Object) : Object :=
  fields.putIf (s ≠ [] ∧ (atoi s).failed = false) key (.int (atoi s).value)

def reservedBytes (raw : Bytes) : List Int :=
  ((splitComma raw).map fun part => atoi (trimSpace part)).filterMap fun n =>
    if n.failed then none else some n.value

def wireguardPeer (e : Endpoint) : Object :=
  let p := e.params
  let peer : Object := [("publicKey", str (firstParam p ["publickey", "publicKey", "public_key", "peerPublicKey"])),
    ("endpoint", str (wireguardEndpoint e)),
    ("allowedIPs", prefixesOrAll (firstParam p ["allowedips", "allowed_ips"]))]
  putNumber "keepAlive" (firstParam p ["keepalive", "persistentkeepalive", "persistent_keepalive"])
    (putNonEmpty "preSharedKey" (firstParam p ["presharedkey", "preshared_key", "pre-shared-key", "psk"]) peer)

def wireguardSettings (e : Endpoint) : Object :=
  let p := e.params
  let settings : Object := [("secretKey", str (wireguardSecret e)),
    ("address", prefixesOrAll (firstParam p ["address", "ip"])), ("peers", .arr [.obj (wireguardPeer e)])]
  let reserved := reservedBytes (param p "reserved")
  (putNumber "mtu" (param p "mtu") settings).putIf (reserved ≠ []) "reserved" (.arr (reserved.map .int))

def wireguardResult (e : Endpoint) : ParseResult where
  outbound := [("protocol", ascii "wireguard"), ("tag", str e.remark), ("settings", .obj (wireguardSettings e))]
  identity := lit "wireguard:" ++
    (wireguardSecret e ++ 64 :: (wireguardEndpoint e ++ 63 :: canonicalQuery e.params))

end urls

section shadowsocks

structure Account where
  method : Bytes
  password : Bytes
  host : Bytes
  port : Bytes
  remark : Bytes

def splitMethodPass (userInfo : Bytes) : Bytes × Bytes :=
  match cut 58 userInfo with
  | (_, none) => (lit "2022-blake3-aes-128-gcm", userInfo)
  | (method, some pass) => (method, pass)

def accountAt (userInfo hp remark : Bytes) : Option Account :=
  (cutLast 58 hp).map fun s => ⟨(splitMethodPass userInfo).1, (splitMethodPass userInfo).2, s.1, s.2, remark⟩

def ssAccount (body : Bytes) : Option Account :=
  let remark := ((cut 35 body).2.bind Url.queryUnescape).getD []
  match cut 64 (cut 35 body).1 with
  | (userB64, some hp) => accountAt ((base64DecodeFlexible userB64).getD userB64) hp remark
  | (whole, none) => do
    let dec ← base64DecodeFlexible whole
    match cut 64 dec with
    | (userInfo, some hp) => accountAt userInfo hp remark
    | (_, none) => none

def shadowsocksResult (a : Account) : ParseResult where
  outbound := [("protocol", ascii "shadowsocks"), ("tag", str a.remark),
    ("settings", .obj [("servers", .arr [.obj [("address", str a.host), ("port", .int (atoi a.port).value),
      ("password", str a.password), ("method", str a.method)]])])]
  identity := lit "ss:" ++ (a.method ++ 58 :: (a.password ++ 64 :: (a.host ++ 58 :: itoa (atoi a.port).value)))

end shadowsocks

section link

inductive Scheme
  | vmess
  | vless
  | trojan
  | shadowsocks
  | hysteria2
  | wireguard
  deriving DecidableEq

def prefixes : List (String × Scheme) :=
  [("vmess://", .vmess), ("vless://", .vless), ("trojan://", .trojan), ("ss://", .shadowsocks),
    ("hysteria2://", .hysteria2), ("hy2://", .hysteria2), ("wireguard://", .wireguard), ("wg://", .wireguard)]

def schemeOf (link : Bytes) : Option Scheme :=
  (prefixes.find? fun s => (lit s.1).isPrefixOf link).map (·.2)

def parseScheme (env : Env) (link : Bytes) : Scheme → Option ParseResult
  | .vmess => parseVmess env (trimPrefix (lit "vmess://") link)
  | .vless => (endpoint env link).map (vlessResult env)
  | .trojan => (endpoint env link).map (trojanResult env)
  | .shadowsocks => (ssAccount (trimPrefix (lit "ss://") link)).map shadowsocksResult
  | .hysteria2 => (endpoint env link).map (hysteria2Result env)
  | .wireguard => (endpoint env link).map wireguardResult

def parseLink (env : Env) (link : Bytes) : Option ParseResult :=
  (schemeOf (trimSpace link)).bind (parseScheme env (trimSpace link))

end link

section dialing

def serverOf (outbound : Object) : Object :=
  match outbound.get "settings" with
  | some (.obj settings) =>
    match ((Fields.get settings "vnext").or (Fields.get settings "servers")).or (Fields.get settings "peers") with
    | some (.arr (.obj target :: _)) => target
    | _ => settings
  | _ => []

def textAt (fields : Object) (key : String) : Bytes :=
  match fields.get key with
  | some (.str s) => s
  | _ => []

def numberAt (fields : Object) (key : String) : Int :=
  match fields.get key with
  | some (.int n) => n
  | _ => 0

end dialing

end LinkParser

end QuiPanel
