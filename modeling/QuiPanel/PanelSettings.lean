import QuiPanel.Text
import QuiPanel.Library.Fields
import QuiPanel.Library.Outcome
import QuiPanel.Library.Labelled

namespace QuiPanel

namespace PanelSettings

open Outcome List

inductive Kind
  | str
  | int
  | bool
  deriving DecidableEq

def fields : List (String × Kind) :=
  [("webListen", .str), ("webDomain", .str), ("webPort", .int), ("webCertFile", .str), ("webKeyFile", .str),
    ("webBasePath", .str), ("panelTitle", .str), ("panelTitleLtr", .str), ("panelTitleRtl", .str),
    ("sessionMaxAge", .int), ("trustedProxyCIDRs", .str), ("panelProxy", .str), ("panelOutbound", .str),
    ("pageSize", .int), ("expireDiff", .int), ("trafficDiff", .int), ("remarkModel", .str), ("datepicker", .str),
    ("tgBotEnable", .bool), ("tgBotToken", .str), ("tgBotProxy", .str), ("tgBotAPIServer", .str),
    ("tgBotChatId", .str), ("tgRunTime", .str), ("tgBotBackup", .bool), ("tgCpu", .int), ("tgLang", .str),
    ("tgEnabledEvents", .str), ("smtpEnable", .bool), ("smtpHost", .str), ("smtpPort", .int),
    ("smtpUsername", .str), ("smtpPassword", .str), ("smtpTo", .str), ("smtpEncryptionType", .str),
    ("smtpEnabledEvents", .str), ("smtpCpu", .int), ("timeLocation", .str), ("twoFactorEnable", .bool),
    ("twoFactorToken", .str), ("registrationEnable", .bool), ("clientCostReseller", .int),
    ("clientCostMember", .int), ("clientCostPerGBReseller", .int), ("clientCostPerGBMember", .int),
    ("resetTrafficCostReseller", .int), ("resetTrafficCostMember", .int), ("resetTrafficCostPerGBReseller", .int),
    ("resetTrafficCostPerGBMember", .int), ("referralCommissionPercent", .int), ("zarinpalEnable", .bool),
    ("zarinpalMerchantId", .str), ("zarinpalSandbox", .bool), ("zarinpalCurrency", .str), ("plisioEnable", .bool),
    ("plisioSecretKey", .str), ("plisioSandbox", .bool), ("plisioSourceCurrency", .str),
    ("cryptoExchangeRate", .int), ("cryptoBonusEnabled", .bool), ("cryptoBonusPercent", .int),
    ("cryptoBonusMinDeposit", .int), ("cryptoBonusMax", .int), ("subEnable", .bool), ("subJsonEnable", .bool),
    ("subTitle", .str), ("subSupportUrl", .str), ("subProfileUrl", .str), ("subAnnounce", .str),
    ("subEnableRouting", .bool), ("subRoutingRules", .str), ("subListen", .str), ("subPort", .int),
    ("subPath", .str), ("subDomain", .str), ("subCertFile", .str), ("subKeyFile", .str), ("subUpdates", .int),
    ("externalTrafficInformEnable", .bool), ("externalTrafficInformURI", .str),
    ("restartXrayOnClientDisable", .bool), ("subEncrypt", .bool), ("subShowInfo", .bool),
    ("subEmailInRemark", .bool), ("subURI", .str), ("subJsonPath", .str), ("subJsonURI", .str),
    ("subClashEnable", .bool), ("subClashPath", .str), ("subClashURI", .str), ("subClashEnableRouting", .bool),
    ("subClashRules", .str), ("subJsonMux", .str), ("subJsonRules", .str), ("subJsonFinalMask", .str),
    ("subThemeDir", .str), ("ldapEnable", .bool), ("ldapHost", .str), ("ldapPort", .int), ("ldapUseTLS", .bool),
    ("ldapBindDN", .str), ("ldapPassword", .str), ("ldapBaseDN", .str), ("ldapUserFilter", .str),
    ("ldapUserAttr", .str), ("ldapVlessField", .str), ("ldapSyncCron", .str), ("ldapFlagField", .str),
    ("ldapTruthyValues", .str), ("ldapInvertFlag", .bool), ("ldapInboundTags", .str), ("ldapAutoCreate", .bool),
    ("ldapAutoDelete", .bool), ("ldapDefaultTotalGB", .int), ("ldapDefaultExpiryDays", .int),
    ("ldapDefaultLimitIP", .int), ("warpUpdateInterval", .int)]

def plainDefaults : Fields String :=
  [("webListen", ""), ("webDomain", ""), ("webPort", "2053"), ("webCertFile", ""), ("webKeyFile", ""),
    ("apiToken", ""), ("panelTitle", "Q-UI"), ("panelTitleLtr", ""), ("panelTitleRtl", ""),
    ("sessionMaxAge", "360"), ("trustedProxyCIDRs", "127.0.0.1/32,::1/128"), ("panelProxy", ""), ("pageSize", "10"),
    ("expireDiff", "0"), ("trafficDiff", "0"), ("remarkModel", "-ieo"), ("timeLocation", "Local"),
    ("tgBotEnable", "false"), ("tgBotToken", ""), ("tgBotProxy", ""), ("tgBotAPIServer", ""), ("tgBotChatId", ""),
    ("tgRunTime", "@daily"), ("tgBotBackup", "false"), ("tgCpu", "80"), ("tgLang", "en-US"),
    ("twoFactorEnable", "false"), ("twoFactorToken", ""), ("registrationEnable", "false"),
    ("clientCostReseller", "0"), ("clientCostMember", "0"), ("clientCostPerGBReseller", "0"),
    ("clientCostPerGBMember", "0"), ("resetTrafficCostReseller", "0"), ("resetTrafficCostMember", "0"),
    ("resetTrafficCostPerGBReseller", "0"), ("resetTrafficCostPerGBMember", "0"),
    ("referralCommissionPercent", "15"), ("zarinpalEnable", "false"), ("zarinpalMerchantId", ""),
    ("zarinpalSandbox", "false"), ("zarinpalCurrency", "IRT"), ("plisioEnable", "false"), ("plisioSecretKey", ""),
    ("plisioSandbox", "false"), ("plisioSourceCurrency", "USD"), ("cryptoExchangeRate", "1"),
    ("cryptoBonusEnabled", "true"), ("cryptoBonusPercent", "15"), ("cryptoBonusMinDeposit", "0"),
    ("cryptoBonusMax", "0"), ("subEnable", "true"), ("subJsonEnable", "false"), ("subTitle", ""),
    ("subSupportUrl", ""), ("subProfileUrl", ""), ("subAnnounce", ""), ("subEnableRouting", "false"),
    ("subRoutingRules", ""), ("subListen", ""), ("subPort", "2096"), ("subPath", "/sub/"), ("subDomain", ""),
    ("subCertFile", ""), ("subKeyFile", ""), ("subUpdates", "12"), ("subEncrypt", "true"), ("subShowInfo", "true"),
    ("subEmailInRemark", "true"), ("subURI", ""), ("subJsonPath", "/json/"), ("subJsonURI", ""),
    ("subClashEnable", "false"), ("subClashPath", "/clash/"), ("subClashURI", ""),
    ("subClashEnableRouting", "false"), ("subClashRules", ""), ("subJsonMux", ""), ("subJsonRules", ""),
    ("subJsonFinalMask", ""), ("subThemeDir", ""), ("datepicker", "gregorian"), ("warp", ""),
    ("warpUpdateInterval", "0"), ("nord", ""), ("externalTrafficInformEnable", "false"),
    ("externalTrafficInformURI", ""), ("restartXrayOnClientDisable", "true"),
    ("xrayOutboundTestUrl", "https://www.google.com/generate_204"), ("panelOutbound", ""), ("ldapEnable", "false"),
    ("ldapHost", ""), ("ldapPort", "389"), ("ldapUseTLS", "false"), ("ldapBindDN", ""), ("ldapPassword", ""),
    ("ldapBaseDN", ""), ("ldapUserFilter", "(objectClass=person)"), ("ldapUserAttr", "mail"),
    ("ldapVlessField", "vless_enabled"), ("ldapSyncCron", "@every 1m"), ("ldapFlagField", ""),
    ("ldapTruthyValues", "true,1,yes,on"), ("ldapInvertFlag", "false"), ("ldapInboundTags", ""),
    ("ldapAutoCreate", "false"), ("ldapAutoDelete", "false"), ("ldapDefaultTotalGB", "0"),
    ("ldapDefaultExpiryDays", "0"), ("ldapDefaultLimitIP", "0"), ("tgEnabledEvents", "login.attempt,cpu.high"),
    ("smtpEnabledEvents", "login.attempt,cpu.high"), ("smtpCpu", "80"), ("smtpEnable", "false"), ("smtpHost", ""),
    ("smtpPort", "587"), ("smtpUsername", ""), ("smtpPassword", ""), ("smtpTo", ""),
    ("smtpEncryptionType", "starttls")]

structure Boot where
  panelGuid : String
  xrayTemplateConfig : String
  secret : String
  initBasePath : Option String

structure Url where
  scheme : String
  host : String
  hostname : String
  clean : String

structure Host where
  parseIP : String → Bool
  parseCIDR : String → Bool
  loadX509KeyPair : String → String → Option String
  loadLocation : String → Bool
  parseUrl : String → Except String Url

structure AllSetting where
  str : String → String
  int : String → Int64
  bool : String → Bool

structure AllSettingView where
  form : AllSetting
  configured : List Bool
  hasApiToken : Bool

structure Faults where
  load : String → Bool
  save : String → Bool

section text

def slashed (p : String) : String :=
  let p := if p.toList.head? = some '/' then p else "/" ++ p
  if p.toList.getLast? = some '/' then p else p ++ "/"

def normalizeBasePath (p : String) : String :=
  let p := Text.trimSpace p
  if p = "" then "/" else slashed p

def getEnv (val : Option String) (fallback : String) : String :=
  match val with
  | none => fallback
  | some val => if Text.trimSpace val = "" then fallback else Text.trimSpace val

def blank (value : String) : Bool := Text.trimSpace value == ""

def parseDigits (ds : List Char) : Option Int :=
  if ds.isEmpty || !ds.all Char.isDigit then none else some (Nat.ofDigitChars 10 ds 0)

def parseSigned : List Char → Option Int
  | '-' :: ds => (parseDigits ds).map (- ·)
  | '+' :: ds => parseDigits ds
  | ds => parseDigits ds

def parseInt (s : String) : Option Int64 :=
  (parseSigned s.toList).bind fun n => if -2 ^ 63 ≤ n ∧ n < 2 ^ 63 then some (Int64.ofInt n) else none

def parseBool (s : String) : Option Bool :=
  if s ∈ ["1", "t", "T", "TRUE", "true", "True"] then some true
  else if s ∈ ["0", "f", "F", "FALSE", "false", "False"] then some false
  else none

def formatInt (n : Int64) : String := toString n.toInt

def formatBool (b : Bool) : String := if b then "true" else "false"

end text

section table

variable (boot : Boot) (s : Fields String)

def defaultValueMap : Fields String :=
  [("panelGuid", boot.panelGuid), ("xrayTemplateConfig", boot.xrayTemplateConfig), ("secret", boot.secret),
    ("webBasePath", normalizeBasePath (getEnv boot.initBasePath "/"))] ++ plainDefaults

def getString (key : String) : Except String String :=
  match s.get key with
  | some value => .ok value
  | none => orErr ((defaultValueMap boot).get key) ("key <" ++ key ++ "> not in defaultValueMap")

def effectiveSettingValue (key stored : String) : String :=
  if stored = "" then ((defaultValueMap boot).get key).getD stored else stored

def getBool (key : String) : Except String Bool := do
  let str ← getString boot s key
  orErr (parseBool (effectiveSettingValue boot key str)) ("strconv.ParseBool: " ++ str)

def getInt (key : String) : Except String Int64 := do
  let str ← getString boot s key
  orErr (parseInt (effectiveSettingValue boot key str)) ("strconv.Atoi: " ++ str)

def saveSetting (fault : Bool) (key value : String) : Fields String × List String :=
  if fault then (s, ["save " ++ key]) else (s.put key value, [])

def AllSetting.zero : AllSetting := ⟨fun _ => "", fun _ => 0, fun _ => false⟩

def AllSetting.setStr (form : AllSetting) (key value : String) : AllSetting :=
  { form with str := fun k => if k = key then value else form.str k }

def AllSetting.setInt (form : AllSetting) (key : String) (value : Int64) : AllSetting :=
  { form with int := fun k => if k = key then value else form.int k }

def AllSetting.setBool (form : AllSetting) (key : String) (value : Bool) : AllSetting :=
  { form with bool := fun k => if k = key then value else form.bool k }

def kindOf (key : String) : Option Kind := (fields.find? (·.1 = key)).map (·.2)

def setSetting (form : AllSetting) (row : String × String) : Except String AllSetting :=
  match kindOf row.1 with
  | none => .ok form
  | some .int => do
    let n ← orErr (parseInt (effectiveSettingValue boot row.1 row.2)) ("strconv.ParseInt: " ++ row.2)
    return form.setInt row.1 n
  | some .str => .ok (form.setStr row.1 row.2)
  | some .bool => .ok (form.setBool row.1 (effectiveSettingValue boot row.1 row.2 == "true"))

def listed : Fields String := s.filter (·.1 ≠ "xrayTemplateConfig")

def unset : Fields String := (defaultValueMap boot).filter fun d => d.1 ∉ (listed s).map Prod.fst

def getAllSetting : Except String AllSetting := do
  let form ← (listed s).foldlM (setSetting boot) .zero
  (unset boot s).foldlM (setSetting boot) form

def redactedKeys : List String := ["tgBotToken", "twoFactorToken", "ldapPassword", "plisioSecretKey", "smtpPassword"]

def redact (form : AllSetting) : AllSetting := redactedKeys.foldl (·.setStr · "") form

def mustString (value : Except String String) : String := value.toOption.getD ""

def getAllSettingView (apiTokenCount : Nat) : Except String AllSettingView := do
  let allSetting ← getAllSetting boot s
  let secrets := ["tgBotToken", "twoFactorToken", "ldapPassword"].map allSetting.str ++
    [mustString (getString boot s "warp"), mustString (getString boot s "nord")] ++
    ["plisioSecretKey", "smtpPassword"].map allSetting.str
  return { form := redact allSetting, configured := secrets.map (!blank ·), hasApiToken := 0 < apiTokenCount }

end table

section update

variable (host : Host) (boot : Boot) (faults : Faults) (s : Fields String)

def preserveSecret (key : String) (on : Bool) (form : AllSetting) : Except String AllSetting :=
  if on && blank (form.str key) then
    if faults.load key then .error ("load " ++ key)
    else do
      let value ← getString boot s key
      return form.setStr key value
  else return form

def preserveRedactedSecrets (form : AllSetting) : Except String AllSetting := do
  let form ← preserveSecret boot faults s "tgBotToken" true form
  let form ← preserveSecret boot faults s "ldapPassword" true form
  let form ← preserveSecret boot faults s "twoFactorToken" (form.bool "twoFactorEnable") form
  let form ← preserveSecret boot faults s "plisioSecretKey" true form
  preserveSecret boot faults s "smtpPassword" true form

def sanitizeHTTPURL (raw : String) : Except String String :=
  let raw := Text.trimSpace raw
  if raw = "" then .ok ""
  else do
    let u ← host.parseUrl raw
    if u.scheme ≠ "http" ∧ u.scheme ≠ "https" then .error ("unsupported URL scheme \"" ++ u.scheme ++ "\"")
    else if u.host = "" ∨ u.hostname = "" then .error "URL host is required"
    else return u.clean

def validateURL (key complaint : String) (form : AllSetting) : Except String AllSetting :=
  if form.str key ≠ "" then
    match sanitizeHTTPURL host (form.str key) with
    | .error err => .error (complaint ++ " " ++ err ++ "\n")
    | .ok u => .ok (form.setStr key u)
  else .ok form

def validateSettingsURLs (form : AllSetting) : Except String AllSetting := do
  let form ← validateURL host "externalTrafficInformURI" "external traffic inform URI is invalid:" form
  validateURL host "tgBotAPIServer" "telegram API server URL is invalid:" form

def forbiddenChar (c : Char) : Bool := c == '\\' || c == ' ' || c.toNat < 0x20 || c.toNat == 0x7f

def pathHasForbiddenChar (p : String) : Bool := p.toList.any forbiddenChar

def refuse (bad : Bool) (message : String) : Except String Unit := if bad then .error (message ++ "\n") else .ok ()

def checkIP (key complaint : String) (form : AllSetting) : Except String Unit :=
  refuse (form.str key ≠ "" && !host.parseIP (form.str key)) (complaint ++ " " ++ form.str key)

def checkPort (key complaint : String) (form : AllSetting) : Except String Unit :=
  refuse (form.int key ≤ 0 || 65535 < form.int key) (complaint ++ " " ++ formatInt (form.int key))

def checkPair (cert key : String) (form : AllSetting) : Except String Unit :=
  if form.str cert ≠ "" ∨ form.str key ≠ "" then
    match host.loadX509KeyPair (form.str cert) (form.str key) with
    | some err => .error ("cert file <" ++ form.str cert ++ "> or key file <" ++ form.str key ++ "> invalid: " ++ err)
    | none => .ok ()
  else .ok ()

def paths : List (String × String) :=
  [("web base path", "webBasePath"), ("subscription path", "subPath"), ("subscription JSON path", "subJsonPath"),
    ("subscription Clash path", "subClashPath")]

def pathKeys : List String := ["webBasePath", "subPath", "subJsonPath", "subClashPath"]

def urlKeys : List String := ["externalTrafficInformURI", "tgBotAPIServer"]

def slashPath (form : AllSetting) (key : String) : Except String AllSetting :=
  .ok (form.setStr key (slashed (form.str key)))

def cidrs (text : String) : List String := ((text.toList.splitOn ',').map String.ofList).map Text.trimSpace

def checkCidr (cidr : String) : Except String Unit :=
  refuse (cidr ≠ "" && !host.parseIP cidr && !host.parseCIDR cidr) ("trusted proxy CIDR is not valid: " ++ cidr)

def checkBefore (form : AllSetting) : Except String Unit := do
  checkIP host "webListen" "web listen is not valid ip:" form
  checkIP host "subListen" "Sub listen is not valid ip:" form
  checkPort "webPort" "web port is not a valid port:" form
  checkPort "subPort" "Sub port is not a valid port:" form
  refuse (form.int "subPort" == form.int "webPort" && form.str "webListen" == form.str "subListen")
    ("Sub and Web could not use same ip:port,  " ++ form.str "subListen" ++ " : " ++ formatInt (form.int "subPort") ++
      "  &  " ++ form.str "webListen" ++ " : " ++ formatInt (form.int "webPort"))
  checkPair host "webCertFile" "webKeyFile" form
  checkPair host "subCertFile" "subKeyFile" form
  paths.forM fun p => refuse (pathHasForbiddenChar (form.str p.2)) ("URI path contains an invalid character: " ++ p.1)

def checkAfter (form : AllSetting) : Except String Unit := do
  (cidrs (form.str "trustedProxyCIDRs")).forM (checkCidr host)
  refuse (!host.loadLocation (form.str "timeLocation")) ("time location not exist: " ++ form.str "timeLocation")

def checkValid (form : AllSetting) : Except String AllSetting := do
  checkBefore host form
  let form ← pathKeys.foldlM slashPath form
  checkAfter host form
  return form

def prepare (form : AllSetting) : Except String AllSetting := do
  let form ← preserveRedactedSecrets boot faults s form
  let form ← validateSettingsURLs host form
  checkValid host form

def AllSetting.text (form : AllSetting) (field : String × Kind) : String :=
  match field.2 with
  | .str => form.str field.1
  | .int => formatInt (form.int field.1)
  | .bool => formatBool (form.bool field.1)

def saveField (form : AllSetting) (saved : Fields String × List String) (field : String × Kind) :
    Fields String × List String :=
  let result := saveSetting saved.1 (faults.save field.1) field.1 (form.text field)
  (result.1, saved.2 ++ result.2)

def saveAll (form : AllSetting) : Fields String × List String := fields.foldl (saveField faults form) (s, [])

def combine (errs : List String) : Except String Unit :=
  if errs.isEmpty then .ok () else .error ("multierr: " ++ String.join (errs.map (· ++ " | ")))

def updateAllSetting (form : AllSetting) : Fields String × Except String Unit :=
  match prepare host boot faults s form with
  | .error err => (s, .error err)
  | .ok form =>
    let saved := saveAll faults s form
    (saved.1, combine saved.2)

def updateSecret (key value : String) : Fields String × Except String Unit :=
  if key ∈ ["tgBotToken", "ldapPassword", "twoFactorToken"] then
    let saved := saveSetting s (faults.save key) key (Text.trimSpace value)
    (saved.1, saved.2.head?.elim (.ok ()) .error)
  else (s, .error ("secret key is not replaceable: " ++ key ++ "\n"))

def updateUser (hashed : Bool) : Fields String :=
  if !hashed || faults.load "twoFactorEnable" then s
  else match getBool boot s "twoFactorEnable" with
    | .ok true =>
      let s := (saveSetting s (faults.save "twoFactorEnable") "twoFactorEnable" (formatBool false)).1
      (saveSetting s (faults.save "twoFactorToken") "twoFactorToken" "").1
    | _ => s

end update

section writers

def rawSetters : List String :=
  ["webListen", "tgBotToken", "tgBotProxy", "panelOutbound", "tgBotAPIServer", "tgBotChatId", "tgRunTime",
    "twoFactorToken", "webCertFile", "webKeyFile", "panelTitle", "panelTitleLtr", "panelTitleRtl", "subCertFile",
    "subKeyFile", "warp", "nord", "externalTrafficInformURI", "tgEnabledEvents", "smtpEnabledEvents", "smtpHost",
    "smtpUsername", "smtpPassword", "smtpTo", "smtpEncryptionType"]

def intSetters : List String :=
  ["warpUpdateInterval", "cryptoBonusPercent", "cryptoBonusMinDeposit", "cryptoBonusMax", "webPort", "smtpPort",
    "smtpCpu"]

def boolSetters : List String :=
  ["tgBotEnable", "twoFactorEnable", "registrationEnable", "zarinpalEnable", "zarinpalSandbox", "plisioEnable",
    "plisioSandbox", "cryptoBonusEnabled", "externalTrafficInformEnable", "restartXrayOnClientDisable",
    "smtpEnable"]

def hiddenKeys : List String := ["xrayTemplateConfig", "panelGuid", "secret", "warpLastUpdate"]

inductive Setter
  | raw (key : String) (h : key ∈ rawSetters) (value : String)
  | int (key : String) (h : key ∈ intSetters) (value : Int64)
  | bool (key : String) (h : key ∈ boolSetters) (value : Bool)
  | hidden (key : String) (h : key ∈ hiddenKeys) (value : String)
  | basePath (value : String)
  | merchantId (value : String)
  | plisioSecretKey (value : String)
  | sourceCurrency (value : String)
  | exchangeRate (value : Int64)
  | outboundTestUrl (clean : String)

def Setter.row : Setter → String × String
  | .raw key _ value => (key, value)
  | .int key _ value => (key, formatInt value)
  | .bool key _ value => (key, formatBool value)
  | .hidden key _ value => (key, value)
  | .basePath value => ("webBasePath", slashed value)
  | .merchantId value => ("zarinpalMerchantId", Text.trimSpace value)
  | .plisioSecretKey value => ("plisioSecretKey", Text.trimSpace value)
  | .sourceCurrency value => ("plisioSourceCurrency", Text.toUpper (Text.trimSpace value))
  | .exchangeRate value => ("cryptoExchangeRate", formatInt (if value ≤ 0 then 1 else value))
  | .outboundTestUrl clean => ("xrayOutboundTestUrl", clean)

inductive Request
  | all (host : Host) (faults : Faults) (form : AllSetting)
  | secret (faults : Faults) (key value : String)
  | user (faults : Faults) (hashed : Bool)

def Request.run (boot : Boot) (s : Fields String) : Request → Fields String
  | .all host faults form => (updateAllSetting host boot faults s form).1
  | .secret faults key value => (updateSecret faults s key value).1
  | .user faults hashed => updateUser boot faults s hashed

inductive Written (boot : Boot) : Fields String → Prop
  | fresh : Written boot []
  | set {s : Fields String} (h : Written boot s) (w : Setter) : Written boot (s.put w.row.1 w.row.2)
  | request {s : Fields String} (h : Written boot s) (r : Request) : Written boot (r.run boot s)

end writers

def Fits (row : String × String) : Prop :=
  match kindOf row.1 with
  | some .int => ∃ n, row.2 = formatInt n
  | some .bool => ∃ b, row.2 = formatBool b
  | some .str => row.1 ∈ pathKeys → slashed row.2 = row.2
  | none => True

structure Typed (s : Fields String) : Prop where
  keys : (s.map Prod.fst).Nodup
  rows : ∀ row ∈ s, Fits row

structure Kept (host : Host) (boot : Boot) (s s' : Fields String) : Prop where
  rest : ∀ key ∉ urlKeys, key ≠ "twoFactorToken" → getString boot s' key = getString boot s key
  urls : ∀ key ∈ urlKeys, getString boot s' key = (getString boot s key).bind (sanitizeHTTPURL host)
  token : getBool boot s "twoFactorEnable" = .ok true →
    getString boot s' "twoFactorToken" = getString boot s "twoFactorToken"
  cleared : getBool boot s "twoFactorEnable" = .ok false → getString boot s' "twoFactorToken" = .ok ""

def Preserved (form : AllSetting) (key : String) : Prop :=
  blank (form.str key) = true ∧ (key = "twoFactorToken" → form.bool "twoFactorEnable" = true)

structure Answers (host : Host) (boot : Boot) (s : Fields String) (form g : AllSetting) : Prop where
  ints : ∀ key, (key, Kind.int) ∈ fields → g.int key = form.int key
  bools : ∀ key, (key, Kind.bool) ∈ fields → g.bool key = form.bool key
  preserved : ∀ key ∈ redactedKeys, Preserved form key → getString boot s key = .ok (g.str key)
  replaced : ∀ key ∈ redactedKeys, ¬ Preserved form key → g.str key = form.str key
  urls : ∀ key ∈ urlKeys, sanitizeHTTPURL host (form.str key) = .ok (g.str key)
  paths : ∀ key ∈ pathKeys, g.str key = slashed (form.str key)
  rest : ∀ key, (key, Kind.str) ∈ fields → key ∉ redactedKeys ++ urlKeys ++ pathKeys → g.str key = form.str key

structure Partial (host : Host) (boot : Boot) (faults : Faults) (s s' : Fields String) (form : AllSetting) :
    Prop where
  whole : (∀ key, faults.save key = false) → s' = s
  each : ∀ key, s'.get key = s.get key ∨ faults.save key = false ∧ ∃ g kind,
    prepare host boot faults s form = .ok g ∧ (key, kind) ∈ fields ∧ s'.get key = some (g.text (key, kind))

def Guarded (boot : Boot) (s : Fields String) : Request → Prop
  | .all _ faults form => faults.save "twoFactorEnable" = false ∧ faults.save "twoFactorToken" = false ∧
      (form.bool "twoFactorEnable" = true → blank (form.str "twoFactorToken") = true →
        getString boot s "twoFactorToken" ≠ .ok "")
  | .secret _ key value => key = "twoFactorToken" → Text.trimSpace value = "" →
      getBool boot s "twoFactorEnable" ≠ .ok true
  | .user faults _ => faults.save "twoFactorEnable" = false

def Open (boot : Boot) (s : Fields String) : Prop :=
  getBool boot s "twoFactorEnable" = .ok true ∧ getString boot s "twoFactorToken" = .ok ""

section text

variable {p : String}

theorem slashed_head (p : String) : (slashed p).toList.head? = some '/' := by
  rw [slashed]
  split
  · split <;> simp_all
  · split <;> simp

theorem slashed_last (p : String) : (slashed p).toList.getLast? = some '/' := by
  rw [slashed]
  generalize (if p.toList.head? = some '/' then p else "/" ++ p) = q
  split
  case isTrue h => exact h
  case isFalse => simp

theorem slashed_idem (p : String) : slashed (slashed p) = slashed p := by
  have hhead := slashed_head p
  have hlast := slashed_last p
  generalize slashed p = q at hhead hlast ⊢
  rw [slashed, if_pos hhead]
  exact if_pos hlast

theorem forbidden_slashed (p : String) : pathHasForbiddenChar (slashed p) = pathHasForbiddenChar p := by
  rw [slashed, pathHasForbiddenChar, pathHasForbiddenChar]
  split <;> split <;> simp [String.toList_append, forbiddenChar]

theorem parseDigits_repr (n : Nat) : parseDigits (Nat.toDigits 10 n) = some n := by
  have hall : (Nat.toDigits 10 n).all Char.isDigit = true :=
    all_eq_true.mpr fun c hc => Nat.isDigit_of_mem_toDigits (by decide) (by decide) hc
  have hne : (Nat.toDigits 10 n).isEmpty = false := by simp
  rw [parseDigits, hall, hne, Nat.ofDigitChars_ten_toDigits]
  rfl

theorem parseSigned_text (n : Int) : parseSigned (toString n).toList = some n := by
  cases n with
  | ofNat m =>
    have htext : (toString (Int.ofNat m)).toList = Nat.toDigits 10 m := String.toList_ofList
    have hall : ∀ c ∈ Nat.toDigits 10 m, c.isDigit = true := fun c hc =>
      Nat.isDigit_of_mem_toDigits (by decide) (by decide) hc
    rw [htext, parseSigned.eq_def]
    split
    case h_1 ds hds => cases hall '-' (hds ▸ mem_cons_self)
    case h_2 ds hds => cases hall '+' (hds ▸ mem_cons_self)
    case h_3 => exact parseDigits_repr m
  | negSucc m =>
    have htext : (toString (Int.negSucc m)).toList = '-' :: Nat.toDigits 10 (m + 1) := by
      have hneg : toString (Int.negSucc m) = "-" ++ Nat.repr (m + 1) := rfl
      rw [hneg, String.toList_append, Nat.toList_repr]
      rfl
    rw [htext, parseSigned, parseDigits_repr]
    rfl

theorem parseInt_format (n : Int64) : parseInt (formatInt n) = some n := by
  have hlow := n.le_toInt
  have hhigh := n.toInt_lt
  rw [parseInt, formatInt, parseSigned_text, Option.bind_some, if_pos ⟨hlow, hhigh⟩, Int64.ofInt_toInt]

theorem formatInt_ne (n : Int64) : formatInt n ≠ "" := by
  intro h
  have hparse := parseInt_format n
  rw [h] at hparse
  cases hparse

theorem formatInt_injective {m n : Int64} (h : formatInt m = formatInt n) : m = n :=
  Option.some.inj ((parseInt_format m).symm.trans (h ▸ parseInt_format n))

theorem formatBool_ne (b : Bool) : formatBool b ≠ "" := by
  cases b <;> decide

theorem parseBool_format (b : Bool) : parseBool (formatBool b) = some b := by
  cases b <;> decide

theorem formatBool_true (b : Bool) : (formatBool b == "true") = b := by
  cases b <;> decide

end text

section tables

variable {boot : Boot} {s : Fields String} {key value : String} {row : String × String} {field : String × Kind}

theorem put_typed (h : Typed s) (hrow : Fits (key, value)) : Typed (s.put key value) := by
  refine ⟨KeyedDiff.nodup_replace h.keys, fun row hmem => ?_⟩
  rcases mem_append.mp hmem with hold | hnew
  · exact h.rows row (mem_of_mem_filter hold)
  · obtain rfl := mem_singleton.mp hnew
    exact hrow

theorem fits_none (h : kindOf key = none) (value : String) : Fits (key, value) := by
  rw [Fits, h]
  trivial

theorem fits_str (h : kindOf key = some .str) (hpath : key ∈ pathKeys → slashed value = value) :
    Fits (key, value) := by
  rw [Fits, h]
  exact hpath

theorem fits_int (h : kindOf key = some .int) (n : Int64) : Fits (key, formatInt n) := by
  rw [Fits, h]
  exact ⟨n, rfl⟩

theorem fits_bool (h : kindOf key = some .bool) (b : Bool) : Fits (key, formatBool b) := by
  rw [Fits, h]
  exact ⟨b, rfl⟩

def freeKey (key : String) : Bool :=
  kindOf key != some .int && kindOf key != some .bool && !pathKeys.contains key

theorem fits_free (h : freeKey key = true) (value : String) : Fits (key, value) := by
  simp only [freeKey, Bool.and_eq_true, bne_iff_ne, Bool.not_eq_true', contains_eq_mem,
    decide_eq_false_iff_not] at h
  obtain ⟨⟨hint, hbool⟩, hpath⟩ := h
  cases hkind : kindOf key with
  | none => exact fits_none hkind value
  | some kind =>
    cases kind with
    | str => exact fits_str hkind fun hmem => absurd hmem hpath
    | int => exact absurd hkind hint
    | bool => exact absurd hkind hbool

theorem setters_known : (rawSetters ++ hiddenKeys ++
    ["zarinpalMerchantId", "plisioSecretKey", "plisioSourceCurrency", "xrayOutboundTestUrl"]).all freeKey = true ∧
    (intSetters ++ ["cryptoExchangeRate"]).all (kindOf · = some .int) = true ∧
    boolSetters.all (kindOf · = some .bool) = true ∧ kindOf "webBasePath" = some .str := by
  decide +kernel

theorem setter_fits (w : Setter) : Fits w.row := by
  obtain ⟨hfree, hint, hbool, hpath⟩ := setters_known
  rw [all_eq_true] at hfree hint hbool
  have hint : ∀ key ∈ intSetters ++ ["cryptoExchangeRate"], kindOf key = some .int := by simpa using hint
  have hbool : ∀ key ∈ boolSetters, kindOf key = some .bool := by simpa using hbool
  cases w with
  | raw key h value => exact fits_free (hfree key (by simp [h])) value
  | int key h value => exact fits_int (hint key (mem_append_left _ h)) value
  | bool key h value => exact fits_bool (hbool key h) value
  | hidden key h value => exact fits_free (hfree key (by simp [h])) value
  | basePath value => exact fits_str hpath fun _ => slashed_idem value
  | merchantId value => exact fits_free (hfree _ (by simp)) _
  | plisioSecretKey value => exact fits_free (hfree _ (by simp)) _
  | sourceCurrency value => exact fits_free (hfree _ (by simp)) _
  | exchangeRate value => exact fits_int (hint _ (by simp)) _
  | outboundTestUrl clean => exact fits_free (hfree _ (by simp)) _

def hiddenDefaults : List String :=
  ["apiToken", "warp", "nord", "xrayOutboundTestUrl", "panelGuid", "xrayTemplateConfig", "secret"]

theorem keys_distinct : (fields.map Prod.fst ++ hiddenDefaults).Nodup := by
  decide +kernel

theorem fields_distinct : (fields.map Prod.fst).Nodup := keys_distinct.of_append_left

theorem kindOf_iff {kind : Kind} : kindOf key = some kind ↔ (key, kind) ∈ fields := by
  have hfind : kindOf key = (KeyedDiff.lookup Prod.fst fields key).map (·.2) := rfl
  rw [hfind, Option.map_eq_some_iff]
  constructor
  · rintro ⟨⟨k, kind'⟩, hlookup, rfl⟩
    obtain ⟨hmem, rfl⟩ := KeyedDiff.lookup_mem hlookup
    exact hmem
  · exact fun h => ⟨(key, kind), (KeyedDiff.lookup_some fields_distinct).mpr ⟨h, rfl⟩, rfl⟩

theorem typed_fresh : Typed [] := ⟨nodup_nil, fun _ h => absurd h not_mem_nil⟩

def fitsBool (field : String × Kind) (value : String) : Bool :=
  match field.2 with
  | .str => !pathKeys.contains field.1 || slashed value == value
  | .int => (parseInt value).any fun n => formatInt n == value
  | .bool => value == "true" || value == "false"

theorem fits_of_bool (h : field ∈ fields) (hfits : fitsBool field value = true) : Fits (field.1, value) := by
  obtain ⟨key, kind⟩ := field
  have hkind := kindOf_iff.mpr h
  cases kind with
  | str => exact fits_str hkind fun hpath => by simpa [fitsBool, hpath] using hfits
  | int =>
    obtain ⟨n, -, hn⟩ := (Option.any_eq_true _ _).mp hfits
    exact beq_iff_eq.mp hn ▸ fits_int hkind n
  | bool =>
    rcases Bool.or_eq_true_iff.mp hfits with ht | hf
    · exact beq_iff_eq.mp ht ▸ fits_bool hkind true
    · exact beq_iff_eq.mp hf ▸ fits_bool hkind false

theorem defaults_checked : fields.all (fun f => match Fields.get plainDefaults f.1 with
    | some value => f.1 != "webBasePath" && fitsBool f value
    | none => f.1 == "webBasePath") = true := by
  decide +kernel

theorem get_special (boot : Boot) (h : key ∉ ["panelGuid", "xrayTemplateConfig", "secret", "webBasePath"]) :
    (defaultValueMap boot).get key = Fields.get plainDefaults key := by
  simp only [mem_cons, not_mem_nil, or_false, not_or] at h
  obtain ⟨hguid, htemplate, hsecret, hbase⟩ := h
  rw [defaultValueMap, Fields.get, KeyedDiff.lookup, find?_append]
  simp [Ne.symm hguid, Ne.symm htemplate, Ne.symm hsecret, Ne.symm hbase, Fields.get, KeyedDiff.lookup]

theorem get_default (boot : Boot) (h : field ∈ fields) :
    ∃ value, (defaultValueMap boot).get field.1 = some value ∧ Fits (field.1, value) := by
  have hchecked := all_eq_true.mp defaults_checked field h
  have hvisible : field.1 ∉ hiddenDefaults := fun hmem =>
    (nodup_append.mp keys_distinct).2.2 _ (mem_map_of_mem h) _ hmem rfl
  by_cases hbase : field.1 = "webBasePath"
  · have hfits : Fits ("webBasePath", normalizeBasePath (getEnv boot.initBasePath "/")) := by
      refine fits_str setters_known.2.2.2 fun _ => ?_
      rw [normalizeBasePath]
      split
      · decide
      · exact slashed_idem _
    exact ⟨_, by rw [hbase]; rfl, hbase ▸ hfits⟩
  · have hspecial : field.1 ∉ ["panelGuid", "xrayTemplateConfig", "secret", "webBasePath"] := by
      simp only [hiddenDefaults, mem_cons, not_mem_nil, or_false, not_or] at hvisible ⊢
      exact ⟨hvisible.2.2.2.2.1, hvisible.2.2.2.2.2.1, hvisible.2.2.2.2.2.2, hbase⟩
    rw [get_special boot hspecial]
    split at hchecked
    case h_1 value hvalue =>
      exact ⟨value, hvalue, fits_of_bool h (Bool.and_eq_true_iff.mp hchecked).2⟩
    case h_2 => exact absurd (beq_iff_eq.mp hchecked) hbase

theorem get_fits {rows : Fields String} (h : ∀ row ∈ rows, Fits row) (hget : rows.get key = some value) :
    Fits (key, value) := by
  obtain ⟨row, hlookup, rfl⟩ := Option.map_eq_some_iff.mp hget
  obtain ⟨hmem, rfl⟩ := KeyedDiff.lookup_mem hlookup
  exact h row hmem

theorem stored (boot : Boot) (h : Typed s) (hfield : field ∈ fields) :
    ∃ value, getString boot s field.1 = .ok value ∧ Fits (field.1, value) := by
  rw [getString]
  split
  case h_1 value hget => exact ⟨value, rfl, get_fits h.rows hget⟩
  case h_2 =>
    obtain ⟨value, hvalue, hfits⟩ := get_default boot hfield
    exact ⟨value, by rw [hvalue]; rfl, hfits⟩

end tables

section reading

variable {boot : Boot} {s rows : Fields String} {key value : String} {field : String × Kind} {form g : AllSetting}

variable {row : String × String}

theorem mem_unset (boot : Boot) (h : row ∈ unset boot s) :
    row ∈ defaultValueMap boot ∧ row.1 ∉ (listed s).map Prod.fst := by
  simpa [unset] using mem_filter.mp h

theorem defaults_distinct (boot : Boot) : ((defaultValueMap boot).map Prod.fst).Nodup := by
  have hsubset : fields.map Prod.fst ++ hiddenDefaults ⊆ (defaultValueMap boot).map Prod.fst := by
    intro key hkey
    have hsome : ((defaultValueMap boot).get key).isSome = true := by
      rcases mem_append.mp hkey with hfield | hhidden
      · obtain ⟨f, hf, rfl⟩ := mem_map.mp hfield
        obtain ⟨value, hvalue, -⟩ := get_default boot hf
        rw [hvalue]
        rfl
      · simp only [hiddenDefaults, mem_cons, not_mem_nil, or_false] at hhidden
        rcases hhidden with rfl | rfl | rfl | rfl | rfl | rfl | rfl <;> rfl
    obtain ⟨row, hrow⟩ := Option.isSome_iff_exists.mp (Option.isSome_map ▸ hsome)
    obtain ⟨hmem, rfl⟩ := KeyedDiff.lookup_mem hrow
    exact mem_map_of_mem hmem
  have hperm := (keys_distinct.subperm hsubset).perm_of_length_le (by rfl)
  exact hperm.nodup_iff.mp keys_distinct

theorem default_fits (boot : Boot) (h : row ∈ defaultValueMap boot) : Fits row := by
  cases hkind : kindOf row.1 with
  | none => exact fits_none hkind row.2
  | some kind =>
    obtain ⟨value, hvalue, hfits⟩ := get_default boot (kindOf_iff.mp hkind)
    have hget : (defaultValueMap boot).get row.1 = some row.2 := by
      rw [Fields.get, (KeyedDiff.lookup_some (defaults_distinct boot)).mpr ⟨h, rfl⟩]
      rfl
    obtain rfl : row.2 = value := Option.some.inj (hget.symm.trans hvalue)
    exact hfits

theorem effective_of_ne (h : value ≠ "") : effectiveSettingValue boot key value = value := by
  rw [effectiveSettingValue, if_neg h]

theorem setSetting_fits (boot : Boot) (h : Fits row) (form : AllSetting) :
    ∃ form', setSetting boot form row = .ok form' ∧
      ∀ f ∈ fields, form'.text f = if f.1 = row.1 then row.2 else form.text f := by
  obtain ⟨key, value⟩ := row
  cases hkind : kindOf key with
  | none =>
    refine ⟨form, by simp only [setSetting, hkind], fun f hf => ?_⟩
    have hne : f.1 ≠ key := by
      rintro rfl
      cases hkind.symm.trans (kindOf_iff.mpr hf)
    rw [if_neg hne]
  | some kind =>
    have hown : ∀ f ∈ fields, f.1 = key → f.2 = kind := fun f hf hkey =>
      Option.some.inj ((kindOf_iff.mpr hf).symm.trans (hkey ▸ hkind))
    cases kind with
    | str =>
      refine ⟨form.setStr key value, by simp only [setSetting, hkind], fun f hf => ?_⟩
      split
      case isTrue hkey => simp [AllSetting.text, hown f hf hkey, AllSetting.setStr, hkey]
      case isFalse hkey => cases hkind' : f.2 <;> simp [AllSetting.text, hkind', AllSetting.setStr, hkey]
    | int =>
      simp only [Fits, hkind] at h
      obtain ⟨n, rfl⟩ := h
      have hset : setSetting boot form (key, formatInt n) = .ok (form.setInt key n) := by
        simp only [setSetting, hkind, effective_of_ne (formatInt_ne n), parseInt_format]
        rfl
      refine ⟨form.setInt key n, hset, fun f hf => ?_⟩
      split
      case isTrue hkey => simp [AllSetting.text, hown f hf hkey, AllSetting.setInt, hkey]
      case isFalse hkey => cases hkind' : f.2 <;> simp [AllSetting.text, hkind', AllSetting.setInt, hkey]
    | bool =>
      simp only [Fits, hkind] at h
      obtain ⟨b, rfl⟩ := h
      have hset : setSetting boot form (key, formatBool b) = .ok (form.setBool key b) := by
        simp only [setSetting, hkind, effective_of_ne (formatBool_ne b), formatBool_true]
      refine ⟨form.setBool key b, hset, fun f hf => ?_⟩
      split
      case isTrue hkey => simp [AllSetting.text, hown f hf hkey, AllSetting.setBool, hkey]
      case isFalse hkey => cases hkind' : f.2 <;> simp [AllSetting.text, hkind', AllSetting.setBool, hkey]

theorem foldlM_fits (boot : Boot) (hrows : ∀ row ∈ rows, Fits row) (hkeys : (rows.map Prod.fst).Nodup)
    (form : AllSetting) : ∃ form', rows.foldlM (setSetting boot) form = .ok form' ∧
      ∀ f ∈ fields, form'.text f = (rows.get f.1).getD (form.text f) := by
  induction rows generalizing form with
  | nil => exact ⟨form, rfl, fun f hf => rfl⟩
  | cons row rows ih =>
    obtain ⟨hfresh, hkeys⟩ := nodup_cons.mp hkeys
    obtain ⟨form1, hset, htext⟩ := setSetting_fits boot (hrows row mem_cons_self) form
    obtain ⟨form2, hfold, hrest⟩ := ih (fun r hr => hrows r (mem_cons_of_mem row hr)) hkeys form1
    refine ⟨form2, by rw [foldlM_cons, hset]; exact hfold, fun f hf => ?_⟩
    rw [hrest f hf, htext f hf, Fields.get, Fields.get, KeyedDiff.lookup_cons]
    by_cases hkey : f.1 = row.1
    · have hnone : KeyedDiff.lookup Prod.fst rows f.1 = none :=
        KeyedDiff.lookup_none.mpr fun r hr he => hfresh (hkey ▸ he ▸ mem_map_of_mem hr)
      rw [hnone, if_pos hkey, if_pos hkey.symm]
      rfl
    · rw [if_neg hkey, if_neg (Ne.symm hkey)]

theorem getAllSetting_typed (boot : Boot) (h : Typed s) : ∃ g, getAllSetting boot s = .ok g ∧
    ∀ f ∈ fields, getString boot s f.1 = .ok (g.text f) := by
  have hlisted : (listed s).map Prod.fst |>.Nodup := h.keys.sublist (filter_sublist.map Prod.fst)
  have hunset : (unset boot s).map Prod.fst |>.Nodup :=
    (defaults_distinct boot).sublist (filter_sublist.map Prod.fst)
  have hfits : ∀ row ∈ listed s, Fits row := fun row hrow => h.rows row (mem_of_mem_filter hrow)
  obtain ⟨form, hform, htext⟩ := foldlM_fits boot hfits hlisted .zero
  obtain ⟨g, hg, hrest⟩ := foldlM_fits boot (fun row hrow => default_fits boot (mem_unset boot hrow).1) hunset form
  refine ⟨g, by rw [getAllSetting, hform]; exact hg, fun f hf => ?_⟩
  have hne : f.1 ≠ "xrayTemplateConfig" := fun he =>
    (nodup_append.mp keys_distinct).2.2 _ (mem_map_of_mem hf) "xrayTemplateConfig" (by decide) he
  have hget : (listed s).get f.1 = s.get f.1 := by
    rw [Fields.get, Fields.get, KeyedDiff.lookup, KeyedDiff.lookup, listed, find?_filter]
    congr 2
    funext row
    by_cases hrow : row.1 = f.1
    · simp [hrow, hne]
    · simp [hrow]
  rw [hrest f hf, htext f hf, getString, ← hget]
  obtain ⟨value, hvalue, -⟩ := get_default boot hf
  cases hrow : (listed s).get f.1 with
  | some row =>
    have hmem : f.1 ∈ (listed s).map Prod.fst := by
      obtain ⟨r, hr, -⟩ := Option.map_eq_some_iff.mp hrow
      obtain ⟨hmem, hkey⟩ := KeyedDiff.lookup_mem hr
      exact hkey ▸ mem_map_of_mem hmem
    have hnone : (unset boot s).get f.1 = none := by
      rw [Fields.get, Option.map_eq_none_iff, KeyedDiff.lookup_none]
      exact fun r hr he => (mem_unset boot hr).2 (he ▸ hmem)
    rw [hnone]
    rfl
  | none =>
    have hsome : (unset boot s).get f.1 = some value := by
      obtain ⟨d, hd, rfl⟩ := Option.map_eq_some_iff.mp hvalue
      obtain ⟨hmem, hkey⟩ := KeyedDiff.lookup_mem hd
      have hfree : d.1 ∉ (listed s).map Prod.fst := by
        intro hin
        obtain ⟨r, hr, he⟩ := mem_map.mp hin
        have hlookup := KeyedDiff.lookup_none.mp (Option.map_eq_none_iff.mp hrow) r hr
        exact hlookup (he.trans hkey)
      have hin : d ∈ unset boot s := mem_filter.mpr ⟨hmem, decide_eq_true hfree⟩
      rw [Fields.get, (KeyedDiff.lookup_some hunset).mpr ⟨hin, hkey⟩]
      rfl
    rw [hsome, hvalue]
    rfl

end reading

section saving

variable {faults : Faults} {form : AllSetting} {fs : List (String × Kind)} {saved : Fields String × List String}
  {key : String} {field : String × Kind}

theorem saveField_fst (faults : Faults) (form : AllSetting) (saved : Fields String × List String)
    (field : String × Kind) : (saveField faults form saved field).1 =
      if faults.save field.1 then saved.1 else saved.1.put field.1 (form.text field) := by
  rw [saveField, saveSetting]
  split <;> rfl

theorem saveField_snd (faults : Faults) (form : AllSetting) (saved : Fields String × List String)
    (field : String × Kind) : (saveField faults form saved field).2 = [] ↔
      saved.2 = [] ∧ faults.save field.1 = false := by
  rw [saveField, saveSetting]
  split
  case isTrue h => simp [h]
  case isFalse h => simp [h]

theorem saveFields_other (h : key ∉ fs.map Prod.fst) :
    (fs.foldl (saveField faults form) saved).1.get key = saved.1.get key := by
  induction fs generalizing saved with
  | nil => rfl
  | cons f fs ih =>
    rw [map_cons, mem_cons, not_or] at h
    rw [foldl_cons, ih h.2, saveField_fst]
    split
    · rfl
    · exact Fields.get_put_ne (Ne.symm h.1)

theorem saveFields_get (hkeys : (fs.map Prod.fst).Nodup) (h : field ∈ fs) :
    (fs.foldl (saveField faults form) saved).1.get field.1 =
      if faults.save field.1 then saved.1.get field.1 else some (form.text field) := by
  induction fs generalizing saved with
  | nil => exact absurd h not_mem_nil
  | cons f fs ih =>
    obtain ⟨hfresh, hkeys⟩ := nodup_cons.mp hkeys
    rw [foldl_cons]
    rcases mem_cons.mp h with rfl | hmem
    · rw [saveFields_other hfresh, saveField_fst]
      split
      · rfl
      · exact Fields.get_put_self
    · have hne : f.1 ≠ field.1 := fun he => hfresh (he ▸ mem_map_of_mem hmem)
      rw [ih hkeys hmem, saveField_fst]
      split
      · split
        · rfl
        · exact Fields.get_put_ne hne
      · rfl

theorem saveFields_errors : (fs.foldl (saveField faults form) saved).2 = [] ↔
    saved.2 = [] ∧ ∀ f ∈ fs, faults.save f.1 = false := by
  induction fs generalizing saved with
  | nil => simp
  | cons f fs ih => rw [foldl_cons, ih, saveField_snd, and_assoc, forall_mem_cons]

theorem saveFields_typed (h : Typed saved.1) (hfits : ∀ f ∈ fs, Fits (f.1, form.text f)) :
    Typed (fs.foldl (saveField faults form) saved).1 := by
  induction fs generalizing saved with
  | nil => exact h
  | cons f fs ih =>
    refine ih ?_ fun g hg => hfits g (mem_cons_of_mem f hg)
    rw [saveField_fst]
    split
    · exact h
    · exact put_typed h (hfits f mem_cons_self)

end saving

section preparing

variable {ι : Type} {host : Host} {boot : Boot} {faults : Faults} {s : Fields String} {form form' g : AllSetting}
  {key : String} {items : List ι}

structure Edit (key : String) (spec : String → (String → Bool) → String → String → Prop)
    (form form' : AllSetting) : Prop where
  ints : form'.int = form.int
  bools : form'.bool = form.bool
  others : ∀ k ≠ key, form'.str k = form.str k
  own : spec key form.bool (form.str key) (form'.str key)

structure Edits (keys : List String) (spec : String → (String → Bool) → String → String → Prop)
    (form form' : AllSetting) : Prop where
  ints : form'.int = form.int
  bools : form'.bool = form.bool
  others : ∀ k ∉ keys, form'.str k = form.str k
  own : ∀ k ∈ keys, spec k form.bool (form.str k) (form'.str k)

variable {preserved sanitized : AllSetting} {spec : String → (String → Bool) → String → String → Prop}

theorem edit_set {value : String}
    (h : spec key form.bool (form.str key) value) : Edit key spec form (form.setStr key value) := by
  refine ⟨rfl, rfl, fun k hk => if_neg hk, ?_⟩
  have hown : (form.setStr key value).str key = value := if_pos rfl
  rw [hown]
  exact h

theorem foldlM_edits (keyOf : ι → String)
    {op : AllSetting → ι → Except String AllSetting}
    (hop : ∀ form i form', op form i = .ok form' → Edit (keyOf i) spec form form')
    (hkeys : (items.map keyOf).Nodup) (h : items.foldlM op form = .ok form') :
    Edits (items.map keyOf) spec form form' := by
  induction items generalizing form with
  | nil =>
    obtain rfl := Except.ok.inj h
    exact ⟨rfl, rfl, fun _ _ => rfl, fun k hk => absurd hk not_mem_nil⟩
  | cons i items ih =>
    obtain ⟨hfresh, hkeys⟩ := nodup_cons.mp hkeys
    rw [foldlM_cons] at h
    obtain ⟨mid, hmid, hrest⟩ := bind_ok.mp h
    have hhead := hop form i mid hmid
    have htail := ih hkeys hrest
    refine ⟨htail.ints.trans hhead.ints, htail.bools.trans hhead.bools, fun k hk => ?_, fun k hk => ?_⟩
    · rw [map_cons, mem_cons, not_or] at hk
      exact (htail.others k hk.2).trans (hhead.others k hk.1)
    · rcases mem_cons.mp hk with rfl | hmem
      · rw [htail.others _ hfresh]
        exact hhead.own
      · have hne : k ≠ keyOf i := fun he => hfresh (he ▸ hmem)
        rw [← hhead.others k hne, ← hhead.bools]
        exact htail.own k hmem

def Secret (boot : Boot) (s : Fields String) (key : String) (bools : String → Bool) (old new : String) : Prop :=
  if blank old = true ∧ (key = "twoFactorToken" → bools "twoFactorEnable" = true) then getString boot s key = .ok new
  else new = old

def Sanitized (host : Host) (_ : String) (_ : String → Bool) (old new : String) : Prop :=
  sanitizeHTTPURL host old = .ok new

def Slashed (_ : String) (_ : String → Bool) (old new : String) : Prop := new = slashed old

def secretOrder : List String := ["tgBotToken", "ldapPassword", "twoFactorToken", "plisioSecretKey", "smtpPassword"]

def preserveAt (boot : Boot) (faults : Faults) (s : Fields String) (form : AllSetting) (key : String) :
    Except String AllSetting :=
  preserveSecret boot faults s key (key != "twoFactorToken" || form.bool "twoFactorEnable") form

theorem preserve_foldlM (boot : Boot) (faults : Faults) (s : Fields String) (form : AllSetting) :
    preserveRedactedSecrets boot faults s form = secretOrder.foldlM (preserveAt boot faults s) form := by
  simp [preserveRedactedSecrets, secretOrder, preserveAt]

theorem preserveAt_edit (h : preserveAt boot faults s form key = .ok form') :
    Edit key (Secret boot s) form form' := by
  rw [preserveAt, preserveSecret] at h
  split at h
  case isTrue hpreserve =>
    split at h
    · cases h
    · obtain ⟨value, hvalue, hform⟩ := bind_ok.mp h
      obtain rfl := Except.ok.inj hform
      refine edit_set ?_
      rw [Secret, if_pos]
      · exact hvalue
      · simp only [Bool.and_eq_true, Bool.or_eq_true, bne_iff_ne] at hpreserve
        exact ⟨hpreserve.2, fun hkey => hpreserve.1.resolve_left (not_not.mpr hkey)⟩
  case isFalse hkeep =>
    obtain rfl := Except.ok.inj h
    refine ⟨rfl, rfl, fun _ _ => rfl, ?_⟩
    rw [Secret, if_neg]
    rintro ⟨hblank, hon⟩
    refine hkeep (Bool.and_eq_true_iff.mpr ⟨?_, hblank⟩)
    by_cases hkey : key = "twoFactorToken"
    · simp [hon hkey]
    · simp [hkey]

theorem sanitize_empty (host : Host) : sanitizeHTTPURL host "" = .ok "" := rfl

theorem validateURL_edit {complaint : String} (h : validateURL host key complaint form = .ok form') :
    Edit key (Sanitized host) form form' := by
  rw [validateURL] at h
  split at h
  · split at h
    case h_1 => cases h
    case h_2 u hu =>
      obtain rfl := Except.ok.inj h
      exact edit_set hu
  case isFalse hempty =>
    obtain rfl := Except.ok.inj h
    refine ⟨rfl, rfl, fun _ _ => rfl, ?_⟩
    rw [Sanitized, not_not.mp hempty, sanitize_empty]

theorem slashPath_edit (h : slashPath form key = .ok form') : Edit key Slashed form form' := by
  obtain rfl := Except.ok.inj h
  exact edit_set rfl

theorem validate_foldlM (host : Host) (form : AllSetting) : validateSettingsURLs host form =
    [("externalTrafficInformURI", "external traffic inform URI is invalid:"),
      ("tgBotAPIServer", "telegram API server URL is invalid:")].foldlM
        (fun form i => validateURL host i.1 i.2 form) form := by
  simp [validateSettingsURLs]

structure Stages (host : Host) (boot : Boot) (s : Fields String) (form preserved sanitized g : AllSetting) :
    Prop where
  secrets : Edits secretOrder (Secret boot s) form preserved
  urls : Edits urlKeys (Sanitized host) preserved sanitized
  paths : Edits pathKeys Slashed sanitized g
  before : checkBefore host sanitized = .ok ()
  after : checkAfter host g = .ok ()

theorem checkValid_ok (h : checkValid host form = .ok g) :
    checkBefore host form = .ok () ∧ Edits pathKeys Slashed form g ∧ checkAfter host g = .ok () := by
  obtain ⟨⟨⟩, hbefore, h⟩ := bind_ok.mp h
  obtain ⟨mid, hpaths, h⟩ := bind_ok.mp h
  obtain ⟨⟨⟩, hafter, h⟩ := bind_ok.mp h
  obtain rfl := Except.ok.inj h
  have hedits := foldlM_edits id (fun _ _ _ h => slashPath_edit h) (by decide +kernel) hpaths
  exact ⟨hbefore, map_id pathKeys ▸ hedits, hafter⟩

theorem prepare_stages (h : prepare host boot faults s form = .ok g) :
    ∃ preserved sanitized, Stages host boot s form preserved sanitized g := by
  obtain ⟨preserved, hpreserve, h⟩ := bind_ok.mp h
  obtain ⟨sanitized, hsanitize, h⟩ := bind_ok.mp h
  obtain ⟨hbefore, hpaths, hafter⟩ := checkValid_ok h
  rw [preserve_foldlM] at hpreserve
  rw [validate_foldlM] at hsanitize
  have hsecrets := foldlM_edits id (fun _ _ _ h => preserveAt_edit h) (by decide +kernel) hpreserve
  have hurls := foldlM_edits Prod.fst (fun _ _ _ h => validateURL_edit h) (by decide +kernel) hsanitize
  exact ⟨preserved, sanitized, map_id secretOrder ▸ hsecrets, hurls, hpaths, hbefore, hafter⟩

theorem special_distinct : (secretOrder ++ (urlKeys ++ pathKeys)).Nodup := by decide +kernel

theorem special_fields : (secretOrder ++ (urlKeys ++ pathKeys)).all (fun key => kindOf key = some .str) = true := by
  decide +kernel

theorem special_field (h : key ∈ secretOrder ++ (urlKeys ++ pathKeys)) : (key, Kind.str) ∈ fields :=
  kindOf_iff.mp (by simpa using all_eq_true.mp special_fields key h)

theorem Stages.apart (h : Stages host boot s form preserved sanitized g) :
    g.int = form.int ∧ g.bool = form.bool ∧
      (∀ key ∈ secretOrder, Secret boot s key form.bool (form.str key) (g.str key)) ∧
      (∀ key ∈ urlKeys, sanitizeHTTPURL host (form.str key) = .ok (g.str key)) ∧
      (∀ key ∈ pathKeys, g.str key = slashed (form.str key)) ∧
      ∀ key ∉ secretOrder ++ (urlKeys ++ pathKeys), g.str key = form.str key := by
  obtain ⟨hsecret, hrest, hdisjoint⟩ := nodup_append.mp special_distinct
  obtain ⟨hurl, hpath, hdisjoint'⟩ := nodup_append.mp hrest
  refine ⟨by rw [h.paths.ints, h.urls.ints, h.secrets.ints], by rw [h.paths.bools, h.urls.bools, h.secrets.bools],
    fun key hkey => ?_, fun key hkey => ?_, fun key hkey => ?_, fun key hkey => ?_⟩
  · have hu : key ∉ urlKeys := fun hmem => hdisjoint key hkey key (mem_append_left _ hmem) rfl
    have hp : key ∉ pathKeys := fun hmem => hdisjoint key hkey key (mem_append_right _ hmem) rfl
    rw [h.paths.others key hp, h.urls.others key hu]
    exact h.secrets.own key hkey
  · have hs : key ∉ secretOrder := fun hmem => hdisjoint key hmem key (mem_append_left _ hkey) rfl
    have hp : key ∉ pathKeys := fun hmem => hdisjoint' key hkey key hmem rfl
    rw [h.paths.others key hp, ← h.secrets.others key hs]
    exact h.urls.own key hkey
  · have hs : key ∉ secretOrder := fun hmem => hdisjoint key hmem key (mem_append_right _ hkey) rfl
    have hu : key ∉ urlKeys := fun hmem => hdisjoint' key hmem key hkey rfl
    rw [← h.secrets.others key hs, ← h.urls.others key hu]
    exact h.paths.own key hkey
  · rw [mem_append, mem_append, not_or, not_or] at hkey
    rw [h.paths.others key hkey.2.2, h.urls.others key hkey.2.1, h.secrets.others key hkey.1]

theorem secret_order : ∀ key, key ∈ redactedKeys ↔ key ∈ secretOrder := by
  intro key
  simp only [redactedKeys, secretOrder, mem_cons, not_mem_nil, or_false]
  tauto

def SameText (g h : AllSetting) : Prop := ∀ f ∈ fields, g.text f = h.text f

theorem SameText.str (h : SameText g form) (hkey : (key, Kind.str) ∈ fields) : g.str key = form.str key :=
  h (key, .str) hkey

theorem SameText.int (h : SameText g form) (hkey : (key, Kind.int) ∈ fields) : g.int key = form.int key :=
  formatInt_injective (h (key, .int) hkey)

theorem SameText.bool (h : SameText g form) (hkey : (key, Kind.bool) ∈ fields) : g.bool key = form.bool key := by
  have htext : formatBool (g.bool key) = formatBool (form.bool key) := h (key, .bool) hkey
  exact Option.some.inj ((parseBool_format _).symm.trans (htext ▸ parseBool_format _))

theorem Stages.answers (h : Stages host boot s form preserved sanitized form')
    (hsame : SameText g form') : Answers host boot s form g := by
  obtain ⟨hints, hbools, hsecrets, hurls, hpaths, hrest⟩ := h.apart
  have hspecial : ∀ key ∈ secretOrder ++ (urlKeys ++ pathKeys), g.str key = form'.str key := fun key hkey =>
    hsame.str (special_field hkey)
  refine ⟨fun key hkey => ?_, fun key hkey => ?_, fun key hkey hp => ?_, fun key hkey hp => ?_, fun key hkey => ?_,
    fun key hkey => ?_, fun key hkey hother => ?_⟩
  · rw [hsame.int hkey, hints]
  · rw [hsame.bool hkey, hbools]
  · have hkey := (secret_order key).mp hkey
    have hsecret := hsecrets key hkey
    rw [Preserved] at hp
    rw [Secret, if_pos hp] at hsecret
    rw [hspecial key (mem_append_left _ hkey)]
    exact hsecret
  · have hkey := (secret_order key).mp hkey
    have hsecret := hsecrets key hkey
    rw [Preserved] at hp
    rw [Secret, if_neg hp] at hsecret
    rw [hspecial key (mem_append_left _ hkey), hsecret]
  · rw [hspecial key (mem_append_right _ (mem_append_left _ hkey))]
    exact hurls key hkey
  · rw [hspecial key (mem_append_right _ (mem_append_right _ hkey)), hpaths key hkey]
  · rw [hsame.str hkey]
    refine hrest key fun hmem => hother ?_
    rw [append_assoc, mem_append, secret_order]
    exact mem_append.mp hmem

theorem Stages.fits (h : Stages host boot s form preserved sanitized g)
    {field : String × Kind} (hfield : field ∈ fields) : Fits (field.1, g.text field) := by
  obtain ⟨key, kind⟩ := field
  have hkind := kindOf_iff.mpr hfield
  cases kind with
  | str =>
    refine fits_str hkind fun hpath => ?_
    change slashed (g.str key) = g.str key
    rw [h.apart.2.2.2.2.1 key hpath, slashed_idem]
  | int => exact fits_int hkind (g.int key)
  | bool => exact fits_bool hkind (g.bool key)

theorem checkBefore_congr (hports : g.int "webPort" = form.int "webPort" ∧ g.int "subPort" = form.int "subPort")
    (hstr : ∀ key ∈ ["webListen", "subListen", "webCertFile", "webKeyFile", "subCertFile", "subKeyFile"],
      g.str key = form.str key)
    (hpaths : ∀ key ∈ pathKeys, pathHasForbiddenChar (g.str key) = pathHasForbiddenChar (form.str key)) :
    checkBefore host g = checkBefore host form := by
  simp only [forall_mem_cons, not_mem_nil, false_implies, implies_true, and_true, pathKeys] at hstr hpaths
  simp only [checkBefore, checkIP, checkPort, checkPair, paths, hports, hstr, hpaths, List.forM]

theorem slashed_all (h : ∀ key ∈ pathKeys, slashed (g.str key) = g.str key) :
    pathKeys.foldlM slashPath g = .ok g := by
  have hstep : ∀ key, slashed (g.str key) = g.str key → slashPath g key = .ok g := by
    intro key hkey
    rw [slashPath, hkey]
    refine congrArg Except.ok ?_
    have hstr : (fun k => if k = key then g.str key else g.str k) = g.str := by
      funext k
      split
      case isTrue he => rw [he]
      case isFalse => rfl
    rw [AllSetting.setStr, hstr]
  generalize pathKeys = keys at h
  induction keys with
  | nil => rfl
  | cons key keys ih =>
    rw [forall_mem_cons] at h
    rw [foldlM_cons, hstep key h.1]
    exact ih h.2

theorem checked_fields : [("webListen", Kind.str), ("subListen", .str), ("webCertFile", .str), ("webKeyFile", .str),
    ("subCertFile", .str), ("subKeyFile", .str), ("trustedProxyCIDRs", .str), ("timeLocation", .str),
    ("webPort", .int), ("subPort", .int)].all (fun f => kindOf f.1 = some f.2) = true := by
  decide +kernel

theorem Stages.fixed (h : Stages host boot s form preserved sanitized form')
    (hsame : SameText g form') : checkValid host g = .ok g := by
  have hchecked : ∀ f ∈ _, f ∈ fields := fun f hf =>
    kindOf_iff.mp (by simpa using all_eq_true.mp checked_fields f hf)
  have hpath : ∀ key ∈ pathKeys, g.str key = slashed (sanitized.str key) := fun key hkey => by
    rw [hsame.str (special_field (mem_append_right _ (mem_append_right _ hkey)))]
    exact h.paths.own key hkey
  have hplain : ∀ key, (key, Kind.str) ∈ fields → key ∉ pathKeys → g.str key = sanitized.str key :=
    fun key hkey hnot => (hsame.str hkey).trans (h.paths.others key hnot)
  have hbefore : checkBefore host g = .ok () := by
    rw [← h.before]
    refine checkBefore_congr ⟨?_, ?_⟩ (fun key hkey => ?_) fun key hkey => ?_
    · rw [hsame.int (hchecked _ (by simp)), h.paths.ints]
    · rw [hsame.int (hchecked _ (by simp)), h.paths.ints]
    · simp only [mem_cons, not_mem_nil, or_false] at hkey
      rcases hkey with rfl | rfl | rfl | rfl | rfl | rfl <;> exact hplain _ (hchecked _ (by simp)) (by decide)
    · rw [hpath key hkey, forbidden_slashed]
  have hfold := slashed_all fun key hkey => by rw [hpath key hkey, slashed_idem]
  have hafter : checkAfter host g = .ok () := by
    rw [← h.after, checkAfter, checkAfter, hsame.str (hchecked ("trustedProxyCIDRs", .str) (by simp)),
      hsame.str (hchecked ("timeLocation", .str) (by simp))]
  have hrest : checkValid host g = (do
      let form ← pathKeys.foldlM slashPath g
      checkAfter host form
      return form) := by
    rw [checkValid, hbefore]
    rfl
  rw [hrest, hfold]
  change (do checkAfter host g; return g) = _
  rw [hafter]
  rfl

end preparing

section updating

variable {host : Host} {boot : Boot} {faults : Faults} {s s' : Fields String} {form g : AllSetting}
  {key value err : String} {field : String × Kind}

theorem getBool_of
    (h : getString boot s key = .ok (formatBool true) ∨ getString boot s key = .ok (formatBool false)) :
    ∃ b, getString boot s key = .ok (formatBool b) ∧ getBool boot s key = .ok b := by
  have hread : ∀ b, getString boot s key = .ok (formatBool b) → getBool boot s key = .ok b := by
    intro b hb
    rw [getBool, hb]
    change orErr (parseBool (effectiveSettingValue boot key (formatBool b))) _ = .ok b
    rw [effective_of_ne (formatBool_ne b), parseBool_format]
    rfl
  rcases h with h | h
  · exact ⟨true, h, hread true h⟩
  · exact ⟨false, h, hread false h⟩

theorem getBool_text {b : Bool} (h : getString boot s key = .ok (formatBool b)) : getBool boot s key = .ok b := by
  obtain ⟨b', htext, hread⟩ := @getBool_of boot s key (by cases b <;> simp [h])
  have hb : formatBool b = formatBool b' := Except.ok.inj (h.symm.trans htext)
  obtain rfl : b = b' := Option.some.inj ((parseBool_format b).symm.trans (hb ▸ parseBool_format b'))
  exact hread

theorem getString_congr (h : s'.get key = s.get key) : getString boot s' key = getString boot s key := by
  rw [getString, getString, h]

theorem getString_some (h : s.get key = some value) : getString boot s key = .ok value := by
  rw [getString, h]

theorem update_cases (host : Host) (boot : Boot) (faults : Faults) (s : Fields String) (form : AllSetting) :
    (∃ err, prepare host boot faults s form = .error err ∧
        updateAllSetting host boot faults s form = (s, .error err)) ∨
      ∃ g, prepare host boot faults s form = .ok g ∧
        updateAllSetting host boot faults s form = ((saveAll faults s g).1, combine (saveAll faults s g).2) := by
  rw [updateAllSetting]
  cases hprepare : prepare host boot faults s form with
  | error err => exact .inl ⟨err, rfl, rfl⟩
  | ok g => exact .inr ⟨g, rfl, rfl⟩

theorem combine_ok {errs : List String} : combine errs = .ok () ↔ errs = [] := by
  cases errs <;> simp [combine]

theorem saveAll_get (hfield : field ∈ fields) (hsave : faults.save field.1 = false) :
    (saveAll faults s g).1.get field.1 = some (g.text field) := by
  rw [saveAll, saveFields_get fields_distinct hfield, hsave]
  rfl

theorem saveAll_other (h : kindOf key = none) : (saveAll faults s g).1.get key = s.get key := by
  refine saveFields_other fun hmem => ?_
  obtain ⟨f, hf, rfl⟩ := mem_map.mp hmem
  cases h.symm.trans (kindOf_iff.mpr hf)

theorem update_ok (h : updateAllSetting host boot faults s form = (s', .ok ())) :
    ∃ g, prepare host boot faults s form = .ok g ∧ (∀ f ∈ fields, s'.get f.1 = some (g.text f)) ∧
      ∀ key, kindOf key = none → s'.get key = s.get key := by
  rcases update_cases host boot faults s form with ⟨err, -, heq⟩ | ⟨g, hprepare, heq⟩
  · cases heq.symm.trans h
  · obtain ⟨rfl, hcombine⟩ := Prod.mk.inj (heq.symm.trans h)
    have hsave := (saveFields_errors.mp (combine_ok.mp hcombine)).2
    exact ⟨g, hprepare, fun f hf => saveAll_get hf (hsave f hf), fun key hkey => saveAll_other hkey⟩

theorem update_error (h : updateAllSetting host boot faults s form = (s', .error err)) :
    Partial host boot faults s s' form := by
  rcases update_cases host boot faults s form with ⟨err', -, heq⟩ | ⟨g, hprepare, heq⟩
  · obtain ⟨rfl, -⟩ := Prod.mk.inj (heq.symm.trans h)
    exact ⟨fun _ => rfl, fun _ => .inl rfl⟩
  · obtain ⟨rfl, hcombine⟩ := Prod.mk.inj (heq.symm.trans h)
    refine ⟨fun hsave => ?_, fun key => ?_⟩
    · have hnone : (saveAll faults s g).2 = [] := saveFields_errors.mpr ⟨rfl, fun f _ => hsave f.1⟩
      rw [combine_ok.mpr hnone] at hcombine
      cases hcombine
    · cases hkind : kindOf key with
      | none => exact .inl (saveAll_other hkind)
      | some kind =>
        have hfield := kindOf_iff.mp hkind
        cases hsave : faults.save key with
        | true =>
          refine .inl ((saveFields_get fields_distinct hfield).trans ?_)
          rw [hsave]
          rfl
        | false => exact .inr ⟨rfl, g, kind, hprepare, hfield, saveAll_get hfield hsave⟩

theorem request_typed (h : Typed s) (r : Request) : Typed (r.run boot s) := by
  have hsave : ∀ {s : Fields String} {fault : Bool} {key value : String}, Typed s → Fits (key, value) →
      Typed (saveSetting s fault key value).1 := by
    intro s fault key value hs hfits
    rw [saveSetting]
    split
    · exact hs
    · exact put_typed hs hfits
  cases r with
  | all host faults form =>
    rw [Request.run]
    rcases update_cases host boot faults s form with ⟨err, -, heq⟩ | ⟨g, hprepare, heq⟩
    · rw [heq]
      exact h
    · obtain ⟨preserved, sanitized, hstages⟩ := prepare_stages hprepare
      rw [heq, saveAll]
      have hfits : ∀ f ∈ fields, Fits (f.1, g.text f) := fun f hf => hstages.fits hf
      generalize fields = fs at hfits
      exact saveFields_typed h hfits
  | secret faults key value =>
    rw [Request.run, updateSecret]
    split
    case isTrue hkey =>
      refine hsave h (fits_free ?_ _)
      have hfree := all_eq_true.mp setters_known.1
      simp only [mem_cons, not_mem_nil, or_false] at hkey
      rcases hkey with rfl | rfl | rfl
      · exact hfree _ (by simp [rawSetters])
      · decide +kernel
      · exact hfree _ (by simp [rawSetters])
    case isFalse => exact h
  | user faults hashed =>
    rw [Request.run, updateUser]
    split
    · exact h
    · split
      · have hfree := all_eq_true.mp setters_known.1 "twoFactorToken" (by simp [rawSetters])
        have hbool := all_eq_true.mp setters_known.2.2.1 "twoFactorEnable" (by simp [boolSetters])
        exact hsave (hsave h (fits_bool (by simpa using hbool) false)) (fits_free hfree "")
      · exact h

theorem written_typed (h : Written boot s) : Typed s := by
  induction h with
  | fresh => exact typed_fresh
  | set _ w ih => exact put_typed ih (setter_fits w)
  | request _ r ih => exact request_typed ih r

theorem redact_str (form : AllSetting) (key : String) :
    (redact form).str key = if key ∈ redactedKeys then "" else form.str key := by
  simp only [redact, redactedKeys, foldl_cons, foldl_nil, AllSetting.setStr, mem_cons,
    not_mem_nil, or_false]
  split_ifs <;> simp_all

theorem redact_int (form : AllSetting) : (redact form).int = form.int := rfl

theorem redact_bool (form : AllSetting) : (redact form).bool = form.bool := rfl

theorem view_form (boot : Boot) (hs : Typed s) (count : Nat) : ∃ view g, getAllSettingView boot s count = .ok view ∧
    view.form = redact g ∧ ∀ f ∈ fields, getString boot s f.1 = .ok (g.text f) := by
  obtain ⟨g, hg, htext⟩ := getAllSetting_typed boot hs
  rw [getAllSettingView, hg]
  exact ⟨_, g, rfl, rfl, htext⟩

end updating

section page

variable {host : Host} {boot : Boot} {faults : Faults} {s s' t : Fields String} {form g : AllSetting} {r : Request}

theorem token_redacted : "twoFactorToken" ∈ redactedKeys := by simp [redactedKeys]

theorem redacted_special : redactedKeys.all (fun key => !urlKeys.contains key && !pathKeys.contains key) = true := by
  decide

theorem blank_empty : blank "" = true := by decide

theorem preserved_redact {key : String} (g : AllSetting) (hkey : key ∈ redactedKeys)
    (hon : key = "twoFactorToken" → g.bool "twoFactorEnable" = true) : Preserved (redact g) key := by
  refine ⟨?_, hon⟩
  rw [redact_str, if_pos hkey]
  exact blank_empty

theorem enable_field : ("twoFactorEnable", Kind.bool) ∈ fields ∧ ("twoFactorToken", Kind.str) ∈ fields := by
  have hkinds : kindOf "twoFactorEnable" = some .bool ∧ kindOf "twoFactorToken" = some .str := by decide +kernel
  exact ⟨kindOf_iff.mp hkinds.1, kindOf_iff.mp hkinds.2⟩

theorem view_kept (hs : Typed s) (htext : ∀ f ∈ fields, getString boot s f.1 = .ok (g.text f))
    (h : updateAllSetting host boot faults s (redact g) = (s', .ok ())) : Kept host boot s s' := by
  obtain ⟨h', hprepare, hsaved, hother⟩ := update_ok h
  obtain ⟨preserved, sanitized, hstages⟩ := prepare_stages hprepare
  have hanswers := hstages.answers (fun _ _ => rfl)
  have hstr : ∀ key, (key, Kind.str) ∈ fields → getString boot s' key = .ok (h'.str key) := fun key hkey =>
    getString_some (hsaved (key, .str) hkey)
  have htoken := enable_field.2
  have hbool : getBool boot s "twoFactorEnable" = .ok (g.bool "twoFactorEnable") :=
    getBool_text (htext _ enable_field.1)
  refine ⟨fun key hurl hne => ?_, fun key hkey => ?_, fun hon => ?_, fun hoff => ?_⟩
  · cases hkind : kindOf key with
    | none => exact getString_congr (hother key hkind)
    | some kind =>
      have hfield := kindOf_iff.mp hkind
      cases kind with
      | int =>
        have hint := hanswers.ints key hfield
        rw [redact_int] at hint
        rw [getString_some (hsaved (key, .int) hfield), htext (key, .int) hfield, AllSetting.text, AllSetting.text,
          hint]
      | bool =>
        have hbool := hanswers.bools key hfield
        rw [redact_bool] at hbool
        rw [getString_some (hsaved (key, .bool) hfield), htext (key, .bool) hfield, AllSetting.text, AllSetting.text,
          hbool]
      | str =>
        rw [hstr key hfield]
        by_cases hsecret : key ∈ redactedKeys
        · exact (hanswers.preserved key hsecret (preserved_redact g hsecret fun he => absurd he hne)).symm
        · have hform : (redact g).str key = g.str key := by rw [redact_str, if_neg hsecret]
          rw [htext (key, .str) hfield]
          refine congrArg Except.ok ?_
          by_cases hpath : key ∈ pathKeys
          · obtain ⟨value, hvalue, hfits⟩ := stored boot hs hfield
            obtain rfl : g.str key = value := Except.ok.inj ((htext (key, .str) hfield).symm.trans hvalue)
            simp only [Fits, hkind] at hfits
            rw [hanswers.paths key hpath, hform]
            exact hfits hpath
          · refine (hanswers.rest key hfield ?_).trans hform
            simp [hsecret, hurl, hpath]
  · have hspecial : key ∈ secretOrder ++ (urlKeys ++ pathKeys) :=
      mem_append_right _ (mem_append_left _ hkey)
    have hplain : key ∉ redactedKeys := fun hmem => by
      simpa [hkey] using all_eq_true.mp redacted_special key hmem
    have hclean := hanswers.urls key hkey
    rw [redact_str, if_neg hplain] at hclean
    have hread : getString boot s key = .ok (g.str key) := htext (key, .str) (special_field hspecial)
    rw [hstr key (special_field hspecial), hread]
    simp only [Except.bind, hclean]
  · have hbool := Except.ok.inj (hbool.symm.trans hon)
    rw [hstr _ htoken]
    exact (hanswers.preserved _ token_redacted (preserved_redact g token_redacted fun _ => hbool)).symm
  · have hbool := Except.ok.inj (hbool.symm.trans hoff)
    rw [hstr _ htoken, hanswers.replaced _ token_redacted, redact_str, if_pos token_redacted]
    rintro ⟨-, hon⟩
    cases (hon rfl).symm.trans hbool

theorem form_answers (h : Typed s) (hok : updateAllSetting host boot faults s form = (s', .ok ())) :
    ∃ g, getAllSetting boot s' = .ok g ∧ Answers host boot s form g ∧ checkValid host g = .ok g := by
  obtain ⟨h', hprepare, hsaved, -⟩ := update_ok hok
  obtain ⟨preserved, sanitized, hstages⟩ := prepare_stages hprepare
  have htyped : Typed s' := by
    have hrun := @request_typed boot s h (.all host faults form)
    rwa [Request.run, hok] at hrun
  obtain ⟨g, hg, htext⟩ := getAllSetting_typed boot htyped
  have hsame : SameText g h' := fun f hf =>
    Except.ok.inj ((htext f hf).symm.trans (getString_some (hsaved f hf)))
  exact ⟨g, hg, hstages.answers hsame, hstages.fixed hsame⟩

theorem request_closed (hguard : Guarded boot s r) (hs : ¬ Open boot s) : ¬ Open boot (r.run boot s) := by
  cases r with
  | all host faults form =>
    obtain ⟨henable, htoken, hguard⟩ := hguard
    rw [Request.run]
    rcases update_cases host boot faults s form with ⟨err, -, heq⟩ | ⟨g, hprepare, heq⟩
    · rw [heq]
      exact hs
    · obtain ⟨preserved, sanitized, hstages⟩ := prepare_stages hprepare
      have hanswers := hstages.answers (fun _ _ => rfl)
      rw [heq]
      rintro ⟨hon, hempty⟩
      have hsavedOn := @saveAll_get faults s g ("twoFactorEnable", .bool) enable_field.1 henable
      have hsavedToken := @saveAll_get faults s g ("twoFactorToken", .str) enable_field.2 htoken
      generalize (saveAll faults s g).1 = t at hon hempty hsavedOn hsavedToken
      have htext : getString boot t "twoFactorEnable" = .ok (formatBool (g.bool "twoFactorEnable")) :=
        getString_some hsavedOn
      rw [getString_some hsavedToken] at hempty
      have hbool : form.bool "twoFactorEnable" = true :=
        (hanswers.bools _ enable_field.1).symm.trans (Except.ok.inj ((getBool_text htext).symm.trans hon))
      have hstr : g.str "twoFactorToken" = "" := Except.ok.inj hempty
      cases hblank : blank (form.str "twoFactorToken") with
      | true =>
        have hstored := hanswers.preserved "twoFactorToken" token_redacted ⟨hblank, fun _ => hbool⟩
        exact hguard hbool hblank (hstr ▸ hstored)
      | false =>
        have hkept := hanswers.replaced "twoFactorToken" token_redacted fun hp => by cases hblank.symm.trans hp.1
        rw [← hkept, hstr, blank_empty] at hblank
        cases hblank
  | secret faults key value =>
    rw [Request.run, updateSecret]
    split
    case isTrue hkey =>
      rw [saveSetting]
      split
      · exact hs
      · rintro ⟨hon, hempty⟩
        by_cases htoken : key = "twoFactorToken"
        · subst htoken
          rw [getString_some Fields.get_put_self] at hempty
          refine hguard rfl (Except.ok.inj hempty) ?_
          rwa [getBool, getString_congr (Fields.get_put_ne (by decide)), ← getBool] at hon
        · have henable : key ≠ "twoFactorEnable" := by
            rintro rfl
            simp at hkey
          refine hs ⟨?_, ?_⟩
          · rwa [getBool, getString_congr (Fields.get_put_ne henable), ← getBool] at hon
          · rwa [getString_congr (Fields.get_put_ne htoken)] at hempty
    case isFalse => exact hs
  | user faults hashed =>
    have hsaved : faults.save "twoFactorEnable" = false := hguard
    rw [Request.run, updateUser]
    split
    · exact hs
    · split
      · rintro ⟨hon, -⟩
        have hoff : getString boot (saveSetting (saveSetting s (faults.save "twoFactorEnable") "twoFactorEnable"
            (formatBool false)).1 (faults.save "twoFactorToken") "twoFactorToken" "").1 "twoFactorEnable" =
              .ok (formatBool false) := by
          rw [hsaved]
          cases hfault : faults.save "twoFactorToken" with
          | true => exact getString_some Fields.get_put_self
          | false => exact getString_some ((Fields.get_put_ne (by decide)).trans Fields.get_put_self)
        cases (getBool_text hoff).symm.trans hon
      · exact hs

def freshBoot : Boot := ⟨"4e1a2f5c", "", "k9", none⟩

def plainHost : Host :=
  ⟨fun _ => false, fun cidr => cidr == "127.0.0.1/32" || cidr == "::1/128", fun _ _ => none, fun _ => true,
    fun raw => .error raw⟩

def calm : Faults := ⟨fun _ => false, fun _ => false⟩

def enrolled : Fields String := (updateSecret calm [] "twoFactorToken" "JBSWY3DP").1

def viewPrepared : Bool :=
  (getAllSettingView freshBoot enrolled 0).toOption.any fun view =>
    (prepare plainHost freshBoot calm enrolled view.form).toOption.isSome

end page

end PanelSettings

end QuiPanel
