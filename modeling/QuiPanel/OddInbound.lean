import QuiPanel.SubService

namespace QuiPanel

namespace Subscription

open Outcome List

section draws

variable {α β : Type} {d : Draw} {s : String}

variable {l : List α}

theorem pick_mem {a : α} (h : pick d s l = some a) : a ∈ l :=
  mem_of_getElem? h

theorem pick_some (h : l ≠ []) : ∃ a, pick d s l = some a :=
  ⟨_, getElem?_eq_getElem (Nat.mod_lt _ (length_pos_iff.mpr h))⟩

theorem pick_at {i : Nat} (hi : i < l.length) (hd : d s = i) :
    pick d s l = some l[i] := by
  rw [pick, hd, Nat.mod_eq_of_lt hi, getElem?_eq_getElem hi]

theorem drawn {a : α} (h : a ∈ l) : ∃ n, ∀ d : Draw, d s = n → pick d s l = some a := by
  obtain ⟨i, hi, rfl⟩ := mem_iff_getElem.mp h
  exact ⟨i, fun d hd => pick_at hi hd⟩

theorem forall_pick {P : Option α → Prop} (hnone : P none) :
    (∀ d : Draw, P (pick d s l)) ↔ ∀ a ∈ l, P (some a) := by
  constructor
  · intro h a ha
    obtain ⟨n, hn⟩ := drawn (s := s) ha
    rw [← hn (fun _ => n) rfl]
    exact h _
  · intro h d
    cases hp : pick d s l with
    | none => exact hnone
    | some a => exact h a (pick_mem hp)

theorem returns_must {o : Option α} : Returns (must o) ↔ o.isSome := returns_orErr

theorem must_some (a : α) : must (some a) = .ok a := rfl

theorem returns_element : Returns (element l 0) ↔ l ≠ [] := by
  rw [element, returns_orErr]
  cases l <;> simp

def Texts (vs : List Json) : Prop := ∀ v ∈ vs, (str? (some v)).isSome

theorem returns_choose {vs : List Json} :
    (∀ d, Returns (choose d s vs)) ↔ vs ≠ [] ∧ Texts vs := by
  have hnum : ∀ d, vs ≠ [] → Returns (choose d s vs) = (str? (pick d s vs)).isSome := by
    intro d hvs
    rw [choose, num, if_neg (by simpa using hvs)]
    exact propext returns_must
  constructor
  · intro h
    have hvs : vs ≠ [] := by
      rintro rfl
      exact not_returns_error (h fun _ => 0)
    refine ⟨hvs, fun v hv => ?_⟩
    obtain ⟨n, hn⟩ := drawn (s := s) hv
    rw [← hn (fun _ => n) rfl, ← hnum _ hvs]
    exact h _
  · rintro ⟨hvs, htexts⟩ d
    obtain ⟨v, hv⟩ := pick_some (d := d) (s := s) hvs
    rw [hnum d hvs, hv]
    exact htexts v (pick_mem hv)

def HostTexts (headers : Object) : Prop := ∀ v ∈ hosts headers, (hostText v).isSome

theorem returns_searchHost {headers : Object} :
    (∀ d, Returns (searchHost d s headers)) ↔ HostTexts headers := by
  have hpick : ∀ d, Returns (searchHost d s headers) ↔ ∀ v ∈ pick d s (hosts headers), (hostText v).isSome := by
    intro d
    rw [searchHost]
    split <;> simp [*, returns_ok, returns_must]
  refine (forall_congr' hpick).trans ((forall_pick (P := fun o => ∀ v ∈ o, (hostText v).isSome) (by simp)).trans ?_)
  simp [HostTexts]

end draws

section transports

variable {α : Type} {env : Env} {d : Draw} {wrap : String → α} {m : Fields α}
  {settings header request stream : Object} {network : String}

def HostReads (settings : Object) : Prop :=
  strD (settings.get "host") = "" → HostTexts (objD (settings.get "headers"))

def PathReads (settings : Object) : Prop := (str? (settings.get "path")).isSome ∧ HostReads settings

def responseHeaders (header : Object) : Object :=
  objD ((objD (header.get "response")).get "headers")

def MayBeBlank (headers : Object) : Prop :=
  hosts headers = [] ∨ ∃ v ∈ hosts headers, hostText v = some ""

def HttpHosts (header request : Object) : Prop :=
  HostTexts (responseHeaders header) ∧
    (MayBeBlank (responseHeaders header) → HostTexts (objD (request.get "headers")))

def HttpReads (header : Object) : Prop :=
  ∃ request, obj? (header.get "request") = some request ∧
    (∃ first ∈ (arrD (request.get "path")).head?, (str? (some first)).isSome) ∧ HttpHosts header request

theorem pathHost_eq : pathHost d settings =
    if strD (settings.get "host") ≠ "" then .ok (strD (settings.get "host"))
    else searchHost d "headers" (objD (settings.get "headers")) := by
  rw [pathHost, strD]
  cases str? (settings.get "host") <;> rfl

theorem returns_pathHost : (∀ d, Returns (pathHost d settings)) ↔ HostReads settings := by
  simp only [pathHost_eq, HostReads]
  split
  case isTrue hset => simp [hset]
  case isFalse hblank =>
    rw [not_not] at hblank
    simp only [hblank, true_imp_iff]
    exact returns_searchHost

theorem returns_applyPathAndHost_at : Returns (applyPathAndHost d wrap settings m) ↔
    (str? (settings.get "path")).isSome ∧ Returns (pathHost d settings) := by
  rw [← returns_must]
  exact returns_bind_iff fun _ _ => returns_bind_pure

theorem returns_applyPathAndHost :
    (∀ d, Returns (applyPathAndHost d wrap settings m)) ↔ PathReads settings := by
  simp only [returns_applyPathAndHost_at, forall_and, returns_pathHost, PathReads, forall_const]

theorem httpHost_eq : httpHost d header request =
    (searchHost d "response" (responseHeaders header) >>= fun host =>
      if host = "" then searchHost d "request" (objD (request.get "headers")) else pure host) := by
  have hblank : searchHost d "response" [] = .ok "" := rfl
  simp only [httpHost, responseHeaders, objD]
  cases obj? (header.get "response") with
  | none => rfl
  | some response =>
    simp only [Option.getD_some]
    cases obj? (response.get "headers") <;> rfl

variable {headers : Object}

theorem searchHost_of {s : String} {v : Json} {host : String}
    (hpick : pick d s (hosts headers) = some v) (hv : hostText v = some host) :
    searchHost d s headers = .ok host := by
  rw [searchHost, hpick]
  simp only [hv, must, orErr, Option.elim_some]

theorem searchHost_blank (h : MayBeBlank headers) {s : String} :
    ∃ n, ∀ d : Draw, d s = n → searchHost d s headers = .ok "" := by
  rcases h with hnone | ⟨v, hv, hblank⟩
  · refine ⟨0, fun d _ => ?_⟩
    rw [searchHost, hnone]
    rfl
  · obtain ⟨n, hn⟩ := drawn (s := s) hv
    exact ⟨n, fun d hd => searchHost_of (hn d hd) hblank⟩

theorem mayBeBlank_of {s : String} (h : searchHost d s headers = .ok "") :
    MayBeBlank headers := by
  rw [searchHost] at h
  cases hpick : pick d s (hosts headers) with
  | none =>
    refine .inl ?_
    by_contra hne
    obtain ⟨v, hv⟩ := pick_some (d := d) (s := s) hne
    exact absurd (hv.symm.trans hpick) nofun
  | some v =>
    rw [hpick] at h
    exact .inr ⟨v, pick_mem hpick, orErr_ok.mp h⟩

theorem returns_httpHost : (∀ d, Returns (httpHost d header request)) ↔ HttpHosts header request := by
  simp only [httpHost_eq]
  constructor
  · intro h
    have hfirst : ∀ d, Returns (searchHost d "response" (responseHeaders header)) := by
      intro d
      obtain ⟨host, hhost, _⟩ := returns_bind.mp (h d)
      exact ⟨host, hhost⟩
    refine ⟨returns_searchHost.mp hfirst, fun hblank v hv => ?_⟩
    obtain ⟨n, hn⟩ := searchHost_blank hblank (s := "response")
    obtain ⟨n', hn'⟩ := drawn (s := "request") hv
    let d : Draw := fun site => if site = "response" then n else n'
    have hboth := h d
    rw [returns_bind_ok (hn d rfl), if_pos rfl, searchHost, hn' d rfl] at hboth
    exact returns_must.mp hboth
  · rintro ⟨hresp, hreq⟩ d
    obtain ⟨host, hhost⟩ := returns_searchHost.mpr hresp d
    rw [returns_bind_ok hhost]
    by_cases hblank : host = ""
    · rw [if_pos hblank]
      exact returns_searchHost.mpr (hreq (mayBeBlank_of (hblank ▸ hhost))) d
    · rw [if_neg hblank]
      exact returns_pure

theorem returns_applyHttpHeader :
    (∀ d, Returns (applyHttpHeader d wrap header m)) ↔ HttpReads header := by
  cases hreq : obj? (header.get "request") with
  | none => simp [applyHttpHeader, HttpReads, hreq, must, orErr, bind, Except.bind]
  | some request =>
    cases hpath : arrD (request.get "path") with
    | nil => simp [applyHttpHeader, HttpReads, hreq, hpath, must, orErr, element, bind, Except.bind]
    | cons first rest =>
      have hunfold : ∀ d, Returns (applyHttpHeader d wrap header m) ↔
          (str? (some first)).isSome ∧ Returns (httpHost d header request) := by
        intro d
        have hfirst : element (arrD (request.get "path")) 0 = .ok first := by
          rw [hpath]
          rfl
        rw [← returns_must, applyHttpHeader, hreq, returns_bind_ok (must_some request),
          returns_bind_ok hfirst]
        exact returns_bind_iff fun _ _ => returns_bind_pure
      simp only [hunfold, forall_and, returns_httpHost, HttpReads, hreq, hpath, head?_cons,
        forall_const, Option.some.injEq, exists_eq_left', Option.mem_def]

def GrpcReads (vmess : Bool) (grpc : Object) : Prop :=
  (str? (grpc.get "serviceName")).isSome ∧ (bool? (grpc.get "multiMode")).isSome ∧
    (vmess → (str? (grpc.get "authority")).isSome)

def TransportReads (vmess : Bool) (stream : Object) (network : String) : Prop :=
  match Network.of network with
  | .tcp => strD ((tcpHeader stream).get "type") = "http" → HttpReads (tcpHeader stream)
  | .ws => PathReads (objD (stream.get "wsSettings"))
  | .grpc => GrpcReads vmess (objD (stream.get "grpcSettings"))
  | .httpupgrade => PathReads (objD (stream.get "httpupgradeSettings"))
  | .xhttp => (obj? (stream.get "xhttpSettings")).isSome ∨ vmess →
      PathReads (objD (stream.get "xhttpSettings"))
  | .kcp | .other => True

theorem returns_applyXhttpExtraParams {xhttp : Option Object} {params : Params} :
    (∀ d, Returns (applyXhttpExtraParams env d xhttp params)) ↔
      (xhttp.isSome → PathReads (xhttp.getD [])) := by
  cases xhttp with
  | none => simp [applyXhttpExtraParams]
  | some xhttp =>
    simp only [applyXhttpExtraParams, returns_bind_pure, Option.isSome_some, true_imp_iff, Option.getD_some]
    exact returns_applyPathAndHost

theorem returns_applyShareNetworkParams {params : Params} :
    (∀ d, Returns (applyShareNetworkParams env d stream network params)) ↔
      TransportReads false stream network := by
  simp only [applyShareNetworkParams, TransportReads]
  cases Network.of network with
  | tcp =>
    simp only
    split
    case isTrue hhttp =>
      simp only [returns_bind_pure, hhttp, true_imp_iff]
      exact returns_applyHttpHeader
    case isFalse hplain => simp [hplain]
  | kcp => simp
  | ws => exact returns_applyPathAndHost
  | grpc =>
    simp only [forall_const, GrpcReads, Bool.false_eq_true, false_imp_iff, and_true, ← returns_must]
    exact returns_bind_iff fun _ _ => returns_bind_pure
  | httpupgrade => exact returns_applyPathAndHost
  | xhttp =>
    simp only [Bool.false_eq_true, or_false]
    exact returns_applyXhttpExtraParams
  | other => simp

theorem returns_applyVmessNetworkParams {obj : Object} :
    (∀ d, Returns (applyVmessNetworkParams env d stream network obj)) ↔
      TransportReads true stream network := by
  simp only [applyVmessNetworkParams, TransportReads]
  cases Network.of network with
  | tcp =>
    simp only
    split
    case isTrue hhttp =>
      simp only [hhttp, true_imp_iff]
      exact returns_applyHttpHeader
    case isFalse hplain => simp [hplain]
  | kcp => simp
  | ws => exact returns_applyPathAndHost
  | grpc =>
    simp only [forall_const, GrpcReads, ← returns_must]
    refine returns_bind_iff fun _ _ => ?_
    rw [and_comm]
    exact returns_bind_iff fun _ _ => returns_bind_pure
  | httpupgrade => exact returns_applyPathAndHost
  | xhttp =>
    simp only [or_true, true_imp_iff, returns_bind_pure]
    exact returns_applyPathAndHost
  | other => simp

end transports

section securities

variable {α : Type} {env : Env} {d : Draw} {wrap : String → α} {m : Fields α} {stream reality : Object}
  {key site field pinKey : String} {pin : String → String} {params : Params}

def AlpnReads (stream : Object) : Prop := Texts (arrD ((objD (stream.get "tlsSettings")).get "alpn"))

def ChoiceReads (field : String) (reality : Object) : Prop :=
  ∀ v ∈ foundIn (some (.obj reality)) field, arrD (some v) ≠ [] ∧ Texts (arrD (some v))

def RealityReads (stream : Object) : Prop :=
  ∀ reality, obj? (stream.get "realitySettings") = some reality →
    ChoiceReads "serverNames" reality ∧ ChoiceReads "shortIds" reality

theorem returns_applyTLS : Returns (applyTLS d wrap pinKey pin stream m) ↔ AlpnReads stream := by
  simp only [applyTLS, returns_bind_pure, returns_mapM, returns_must]
  rfl

def Chosen (d : Draw) (key site field : String) (reality : Object) : Prop :=
  ∀ v, searchKey d site (some (.obj reality)) field = some v → Returns (choose d key (arrD (some v)))

theorem returns_chooseParam {p : Params} :
    Returns (chooseParam d key site field reality p) ↔ Chosen d key site field reality := by
  rw [chooseParam, Chosen]
  cases searchKey d site (some (.obj reality)) field with
  | none => simp
  | some v => simp only [returns_bind_pure, Option.some.injEq, forall_eq']

theorem forall_chosen (hne : key ≠ site) :
    (∀ d, Chosen d key site field reality) ↔ ChoiceReads field reality := by
  constructor
  · intro h v hv
    refine (returns_choose (s := key)).mp fun d => ?_
    obtain ⟨n, hn⟩ := drawn (s := site) hv
    let d' : Draw := fun s => if s = site then n else d s
    have hkey : d' key = d key := if_neg hne
    have hchosen := h d' v (hn d' (if_pos rfl))
    rwa [choose, num, hkey] at hchosen
  · intro h d v hv
    exact returns_choose.mpr (h v (pick_mem hv)) d

def RealityDrawn (d : Draw) (stream : Object) : Prop :=
  ∀ reality, obj? (stream.get "realitySettings") = some reality →
    Chosen d "sni" "serverNames" "serverNames" reality ∧ Chosen d "sid" "shortIds" "shortIds" reality

theorem returns_applyShareRealityParams :
    Returns (applyShareRealityParams d stream params) ↔ RealityDrawn d stream := by
  simp only [applyShareRealityParams, RealityDrawn]
  cases obj? (stream.get "realitySettings") with
  | none => simp
  | some reality =>
    simp only [Option.some.injEq, forall_eq', ← returns_chooseParam (p := [])]
    refine (returns_bind_iff fun _ _ => returns_bind_pure.trans ?_).trans (and_congr_left' ?_)
    · exact returns_chooseParam.trans returns_chooseParam.symm
    · exact returns_chooseParam.trans returns_chooseParam.symm

theorem forall_realityDrawn : (∀ d, RealityDrawn d stream) ↔ RealityReads stream := by
  simp only [RealityDrawn, RealityReads]
  cases obj? (stream.get "realitySettings") with
  | none => simp
  | some reality =>
    simp only [Option.some.injEq, forall_eq', forall_and]
    rw [forall_chosen (by decide), forall_chosen (by decide)]

end securities

section remarks

variable {env : Env} {ib : Inbound} {email extra : String}

theorem returns_genRemark : Returns (genRemark env ib email extra) ↔ env.remarkModel ≠ [] := by
  rw [← returns_element]
  exact returns_bind_pure

theorem returns_genRemark_of (h : env.remarkModel ≠ []) : Returns (genRemark env ib email extra) :=
  returns_genRemark.mpr h

end remarks

section links

variable {env : Env} {d : Draw} {ib : Inbound} {email : String} {stream : Object} {ep : Json}

def ProxyReads (ep : Json) : Prop :=
  (str? ((objD (some ep)).get "dest")).isSome ∧ (num? ((objD (some ep)).get "port")).isSome ∧
    (str? ((objD (some ep)).get "forceTls")).isSome ∧ (str? ((objD (some ep)).get "remark")).isSome

def ProxiesRead (stream : Object) : Prop := ∀ ep ∈ externalProxiesOf stream, ProxyReads ep

def SecurityReads (stream : Object) : Prop :=
  match Security.of (strD (stream.get "security")) with
  | .tls => AlpnReads stream
  | .reality => RealityReads stream
  | .other => True

def TlsReads (stream : Object) : Prop := strD (stream.get "security") = "tls" → AlpnReads stream

def UrlReads (stream : Object) : Prop :=
  ∃ network, str? (stream.get "network") = some network ∧ TransportReads false stream network

def ServerReads (settings : Object) : Prop :=
  (str? (settings.get "password")).isSome ∧
    ∃ method, str? (settings.get "method") = some method ∧ method ≠ ""

def LinkReads (ib : Inbound) : Prop :=
  match ib.protocol with
  | .vmess => TransportReads true ib.streamSettings (strD (ib.streamSettings.get "network")) ∧
      TlsReads ib.streamSettings
  | .vless | .trojan => UrlReads ib.streamSettings ∧ SecurityReads ib.streamSettings
  | .shadowsocks => ServerReads ib.settings ∧ UrlReads ib.streamSettings ∧ TlsReads ib.streamSettings
  | .hysteria => AlpnReads ib.streamSettings
  | .other => True

theorem returns_applyTLSWhen {α : Type} {apply : Object → Fields α → Go (Fields α)} {m : Fields α}
    (h : Returns (apply stream m) ↔ AlpnReads stream) :
    Returns (applyTLSWhen apply stream m) ↔ TlsReads stream := by
  rw [applyTLSWhen, returns_ite, TlsReads, h]
  exact and_iff_left fun _ => returns_pure

def SecurityDrawn (d : Draw) (stream : Object) : Prop :=
  match Security.of (strD (stream.get "security")) with
  | .tls => AlpnReads stream
  | .reality => RealityDrawn d stream
  | .other => True

theorem returns_applyShareSecurity {withFlow : Params → Params} {params : Params} :
    Returns (applyShareSecurity d withFlow stream params) ↔ SecurityDrawn d stream := by
  simp only [applyShareSecurity, SecurityDrawn]
  cases Security.of (strD (stream.get "security")) with
  | tls => exact returns_applyTLS
  | reality => exact returns_bind_pure.trans returns_applyShareRealityParams
  | other => simp

theorem forall_securityDrawn : (∀ d, SecurityDrawn d stream) ↔ SecurityReads stream := by
  simp only [SecurityDrawn, SecurityReads]
  cases Security.of (strD (stream.get "security")) with
  | tls => exact forall_const _
  | reality => exact forall_realityDrawn
  | other => simp

theorem returns_network {β : Type} {body : Draw → String → Go β} {P : Prop}
    (h : ∀ network, (∀ d, Returns (body d network)) ↔ TransportReads false stream network ∧ P) :
    (∀ d, Returns (must (str? (stream.get "network")) >>= body d)) ↔ UrlReads stream ∧ P := by
  rw [UrlReads]
  cases str? (stream.get "network") with
  | none => exact ⟨fun h => absurd (h fun _ => 0) not_returns_error, fun h => absurd h.1 (by simp)⟩
  | some network =>
    simp only [must_some, Option.some.injEq, exists_eq_left']
    exact h network

section given

variable (hremark : env.remarkModel ≠ [])

include hremark

theorem returns_hysteriaLinks {userinfo : Userinfo} {params : Params} :
    Returns (hysteriaLinks env ib email userinfo params) := by
  rw [hysteriaLinks]
  split
  · refine returns_map.mpr (returns_mapM.mpr fun ep _ => ?_)
    rw [hysteriaProxyLink]
    split
    · split
      · exact returns_pure
      · exact returns_bind_pure.mpr (returns_genRemark_of hremark)
    · exact returns_pure
  · exact returns_bind_pure.mpr (returns_genRemark_of hremark)

variable (hproxies : ProxiesRead ib.streamSettings)

include hproxies

theorem returns_vmessLinks {obj : Object} {security : String} :
    Returns (vmessLinks env ib email obj security) := by
  rw [vmessLinks]
  split
  · refine returns_mapM.mpr fun ep hep => ?_
    obtain ⟨hdest, hport, _, hextra⟩ := hproxies ep hep
    refine (returns_must.mpr hextra).bind fun _ _ => ?_
    refine (returns_genRemark_of hremark).bind fun _ _ => ?_
    refine (returns_must.mpr hdest).bind fun _ _ => ?_
    exact (returns_must.mpr hport).bind fun _ _ => returns_pure
  · exact returns_bind_pure.mpr (returns_genRemark_of hremark)

theorem returns_urlLinks {scheme security : String} {userinfo : Userinfo} {params proxyParams : Params} :
    Returns (urlLinks env ib email scheme userinfo params proxyParams security) := by
  rw [urlLinks]
  split
  · refine returns_mapM.mpr fun ep hep => ?_
    obtain ⟨_, hport, _, hextra⟩ := hproxies ep hep
    refine (returns_must.mpr hport).bind fun _ _ => ?_
    refine (returns_must.mpr hextra).bind fun _ _ => ?_
    exact (returns_genRemark_of hremark).bind fun _ _ => returns_pure
  · exact returns_bind_pure.mpr (returns_genRemark_of hremark)

variable (hfound : Returns (findClient env ib email))

include hfound

theorem returns_genVmessLink : (∀ d, Returns (genVmessLink env d ib email)) ↔
    TransportReads true ib.streamSettings (strD (ib.streamSettings.get "network")) ∧
      TlsReads ib.streamSettings := by
  refine (returns_bind_const fun d obj _ => ?_).trans (and_congr_left' returns_applyVmessNetworkParams)
  refine (returns_bind_left fun obj _ => ?_).trans (returns_applyTLSWhen returns_applyTLS)
  exact hfound.bind fun client _ => returns_vmessLinks hremark hproxies

theorem returns_genVlessLink : (∀ d, Returns (genVlessLink env d ib email)) ↔
    UrlReads ib.streamSettings ∧ SecurityReads ib.streamSettings := by
  obtain ⟨client, hclient⟩ := hfound
  simp only [genVlessLink, hclient]
  refine returns_network fun network => ?_
  refine (returns_bind_forall fun d params _ => ?_).trans
    (and_congr returns_applyShareNetworkParams forall_securityDrawn)
  refine (returns_bind_left fun _ _ => ?_).trans returns_applyShareSecurity
  exact returns_urlLinks hremark hproxies

theorem returns_genTrojanLink : (∀ d, Returns (genTrojanLink env d ib email)) ↔
    UrlReads ib.streamSettings ∧ SecurityReads ib.streamSettings := by
  obtain ⟨client, hclient⟩ := hfound
  simp only [genTrojanLink, hclient]
  refine returns_network fun network => ?_
  refine (returns_bind_forall fun d params _ => ?_).trans
    (and_congr returns_applyShareNetworkParams forall_securityDrawn)
  refine (returns_bind_left fun _ _ => ?_).trans returns_applyShareSecurity
  exact returns_urlLinks hremark hproxies

theorem returns_shadowsocksLinks {method password : String} {params : Params} :
    Returns (shadowsocksLinks env ib email method password params) ↔ method ≠ "" := by
  obtain ⟨client, hclient⟩ := hfound
  rw [shadowsocksLinks, returns_bind_ok hclient]
  refine (returns_bind_left fun _ _ => returns_urlLinks hremark hproxies).trans ?_
  rw [returns_element, ne_eq, String.toList_eq_nil_iff]

theorem returns_genShadowsocksLink : (∀ d, Returns (genShadowsocksLink env d ib email)) ↔
    ServerReads ib.settings ∧ UrlReads ib.streamSettings ∧ TlsReads ib.streamSettings := by
  have hbody : ∀ password method, (∀ d, Returns (do
      let streamNetwork ← must (str? (ib.streamSettings.get "network"))
      let params ← applyShareNetworkParams env d ib.streamSettings streamNetwork [("type", streamNetwork)]
      let params := applyFinalMask env id ib.streamSettings params
      let params ← applyTLSWhen (applyShareTLSParams d) ib.streamSettings params
      shadowsocksLinks env ib email method password params)) ↔
      UrlReads ib.streamSettings ∧ TlsReads ib.streamSettings ∧ method ≠ "" := by
    intro password method
    refine returns_network fun network => ?_
    refine (returns_bind_const fun d params _ => ?_).trans (and_congr_left' returns_applyShareNetworkParams)
    refine (returns_bind_iff fun params _ => ?_).trans (and_congr_left' (returns_applyTLSWhen returns_applyTLS))
    exact returns_shadowsocksLinks hremark hproxies hfound
  rw [ServerReads]
  cases hpw : str? (ib.settings.get "password") with
  | none =>
    refine ⟨fun h => ?_, fun h => by simp at h⟩
    have hnone := h fun _ => 0
    rw [genShadowsocksLink, hpw] at hnone
    exact absurd hnone not_returns_error
  | some password =>
    cases hmethod : str? (ib.settings.get "method") with
    | none =>
      refine ⟨fun h => ?_, fun h => by simp at h⟩
      have hnone := h fun _ => 0
      rw [genShadowsocksLink, hpw, hmethod] at hnone
      exact absurd hnone not_returns_error
    | some method =>
      simp only [genShadowsocksLink, hpw, hmethod, Option.isSome_some, true_and, Option.some.injEq,
        exists_eq_left']
      refine (hbody password method).trans ?_
      exact ⟨fun h => ⟨h.2.2, h.1, h.2.1⟩, fun h => ⟨h.2.1, h.2.2, h.1⟩⟩

omit hproxies in
theorem returns_genHysteriaLink : (∀ d, Returns (genHysteriaLink env d ib email)) ↔
    AlpnReads ib.streamSettings := by
  obtain ⟨client, hclient⟩ := hfound
  have hat : ∀ d, Returns (genHysteriaLink env d ib email) ↔ AlpnReads ib.streamSettings := by
    intro d
    rw [genHysteriaLink, returns_bind_ok hclient]
    exact (returns_bind_left fun _ _ => returns_hysteriaLinks hremark).trans returns_applyTLS
  simp only [hat, forall_const]

theorem returns_getLink : (∀ d, Returns (getLink env d ib email)) ↔ LinkReads ib := by
  simp only [getLink, LinkReads]
  cases ib.protocol with
  | vmess => exact returns_genVmessLink hremark hproxies hfound
  | vless => exact returns_genVlessLink hremark hproxies hfound
  | trojan => exact returns_genTrojanLink hremark hproxies hfound
  | shadowsocks => exact returns_genShadowsocksLink hremark hproxies hfound
  | hysteria => exact returns_genHysteriaLink hremark hfound
  | other => simp

end given

end links

section configs

variable {env : Env} {d : Draw} {ib : Inbound} {client : Client} {stream : Object} {ep : Json}
  {hasExternalProxy : Bool}

def NamesRead (reality : Object) : Prop :=
  Texts (arrD (reality.get "shortIds")) ∧ Texts (arrD (reality.get "serverNames"))

def JsonSecurityReads (stream : Object) : Prop :=
  match Security.of (strD (stream.get "security")) with
  | .tls => (obj? (stream.get "tlsSettings")).isSome
  | .reality => ∃ reality, obj? (stream.get "realitySettings") = some reality ∧ NamesRead reality
  | .other => True

def HyReads (ib : Inbound) : Prop :=
  ib.protocol = .hysteria → (obj? (ib.streamSettings.get "hysteriaSettings")).isSome

theorem returns_chooseOrBlank {s : String} {v : Option Json} :
    (∀ d, Returns (chooseOrBlank d s v)) ↔ Texts (arrD v) := by
  simp only [chooseOrBlank]
  split
  case isTrue hne => exact returns_choose.trans (and_iff_right hne)
  case isFalse hnil =>
    rw [not_not] at hnil
    simp [hnil, Texts]

theorem returns_jsonRealityData {rData : Object} :
    (∀ d, Returns (jsonRealityData d rData)) ↔ NamesRead rData := by
  refine (returns_bind_forall fun d _ _ => ?_).trans (and_congr returns_chooseOrBlank
    (returns_chooseOrBlank (s := "serverName")))
  exact returns_bind_pure

theorem returns_jsonSecurity : (∀ d, Returns (jsonSecurity d stream)) ↔ JsonSecurityReads stream := by
  simp only [jsonSecurity, JsonSecurityReads]
  cases Security.of (strD (stream.get "security")) with
  | tls => simp only [returns_bind_pure, returns_must, forall_const]
  | reality =>
    cases hr : obj? (stream.get "realitySettings") with
    | none => exact ⟨fun h => absurd (h fun _ => 0) not_returns_error, fun h => by simp at h⟩
    | some reality =>
      simp only [Option.some.injEq, exists_eq_left']
      rw [← returns_jsonRealityData]
      exact forall_congr' fun d => returns_bind_pure
  | other => simp

theorem returns_jsonStreamData :
    (∀ d, Returns (jsonStreamData env d stream)) ↔ JsonSecurityReads stream := by
  rw [← returns_jsonSecurity]
  exact forall_congr' fun d => returns_bind_pure

theorem returns_genOutbound {newStream : Object} :
    Returns (genOutbound env ib newStream client) ↔ HyReads ib := by
  simp only [genOutbound, HyReads]
  cases ib.protocol with
  | hysteria =>
    simp only [genHy, returns_bind_pure, returns_must, true_imp_iff]
  | vmess => simp
  | vless => simp
  | trojan => simp
  | shadowsocks => simp
  | other => simp

theorem not_proxyReads (h : obj? (some ep) = none) : ¬ ProxyReads ep := by
  simp [ProxyReads, objD, h, str?]

theorem returns_jsonConfig : Returns (jsonConfig env stream hasExternalProxy client ib ep) ↔
    ProxyReads ep ∧ HyReads ib ∧ env.remarkModel ≠ [] := by
  rw [jsonConfig]
  cases hobj : obj? (some ep) with
  | none => exact ⟨fun h => absurd h not_returns_error, fun h => absurd h.1 (not_proxyReads hobj)⟩
  | some m =>
    have hm : objD (some ep) = m := by rw [objD, hobj, Option.getD_some]
    rw [returns_bind_ok (must_some m), ProxyReads, hm]
    have hrest : ∀ dest port, Returns (do
        let forceTls ← must (str? (m.get "forceTls"))
        let newStream := forceSecurity ["tlsSettings"] forceTls stream
        let newStream := if hasExternalProxy then
            applyExternalProxyTLSToStream m newStream (strD (newStream.get "security"))
          else newStream
        let ib := { ib with listen := dest, port := port }
        let outbound ← genOutbound env ib newStream client
        let extra ← must (str? (m.get "remark"))
        let remarks ← genRemark env ib client.email extra
        pure ((⟨outbound, remarks⟩ : Config), ib)) ↔
        (str? (m.get "forceTls")).isSome ∧ HyReads ib ∧ (str? (m.get "remark")).isSome ∧
          env.remarkModel ≠ [] := by
      intro dest port
      refine (returns_bind_iff fun forceTls _ => ?_).trans (and_congr_left' returns_must)
      refine (returns_bind_iff fun outbound _ => ?_).trans (and_congr_left' returns_genOutbound)
      refine (returns_bind_iff fun extra _ => ?_).trans (and_congr_left' returns_must)
      exact returns_bind_pure.trans returns_genRemark
    refine (returns_bind_iff fun dest _ => (returns_bind_iff fun port _ => hrest dest _).trans
      (and_congr_left' returns_must)).trans (and_congr_left' returns_must) |>.trans ?_
    exact ⟨fun ⟨h1, h2, h3, h4, h5, h6⟩ => ⟨⟨h1, h2, h3, h5⟩, h4, h6⟩,
      fun ⟨⟨h1, h2, h3, h5⟩, h4, h6⟩ => ⟨h1, h2, h3, h4, h5, h6⟩⟩

def Moved (ib ib' : Inbound) : Prop := ∃ listen port, ib' = { ib with listen := listen, port := port }

theorem Moved.refl (ib : Inbound) : Moved ib ib := ⟨ib.listen, ib.port, rfl⟩

theorem Moved.trans {ib ib' ib'' : Inbound} (h : Moved ib ib') (h' : Moved ib' ib'') : Moved ib ib'' := by
  obtain ⟨_, _, rfl⟩ := h
  obtain ⟨listen, port, rfl⟩ := h'
  exact ⟨listen, port, rfl⟩

theorem jsonConfig_moved {config : Config} {ib' : Inbound}
    (h : jsonConfig env stream hasExternalProxy client ib ep = .ok (config, ib')) : Moved ib ib' := by
  simp only [jsonConfig, bind_ok] at h
  obtain ⟨_, _, dest, _, port, _, _, _, _, _, _, _, _, _, h⟩ := h
  obtain ⟨_, rfl⟩ := Prod.mk.inj (Except.ok.inj h)
  exact ⟨dest, env.truncate port, rfl⟩

theorem jsonConfigs_moved {eps : List Json} {configs : List Config} {ib' : Inbound}
    (h : jsonConfigs env stream hasExternalProxy client ib eps = .ok (configs, ib')) : Moved ib ib' := by
  induction eps generalizing ib configs with
  | nil =>
    obtain ⟨_, rfl⟩ := Prod.mk.inj (Except.ok.inj h)
    exact .refl ib
  | cons ep eps ih =>
    rw [jsonConfigs, bind_ok] at h
    obtain ⟨⟨config, mid⟩, hconfig, h⟩ := h
    rw [bind_ok] at h
    obtain ⟨⟨rest, last⟩, hrest, h⟩ := h
    obtain ⟨_, rfl⟩ := Prod.mk.inj (Except.ok.inj h)
    exact (jsonConfig_moved hconfig).trans (ih hrest)

theorem Moved.hyReads {ib ib' : Inbound} (h : Moved ib ib') : HyReads ib' ↔ HyReads ib := by
  obtain ⟨_, _, rfl⟩ := h
  rfl

theorem returns_jsonConfigs {eps : List Json} (hne : eps ≠ []) :
    Returns (jsonConfigs env stream hasExternalProxy client ib eps) ↔
      (∀ ep ∈ eps, ProxyReads ep) ∧ HyReads ib ∧ env.remarkModel ≠ [] := by
  induction eps generalizing ib with
  | nil => exact absurd rfl hne
  | cons ep eps ih =>
    have htail : ∀ r, jsonConfig env stream hasExternalProxy client ib ep = .ok r →
        (Returns (jsonConfigs env stream hasExternalProxy client r.2 eps) ↔
          ∀ ep ∈ eps, ProxyReads ep) := by
      intro r hr
      cases heps : eps with
      | nil => simp [jsonConfigs]
      | cons ep' eps' =>
        obtain ⟨_, hhy, hremark⟩ := returns_jsonConfig.mp ⟨r, hr⟩
        rw [← heps, ih (by simp [heps])]
        exact and_iff_left ⟨(jsonConfig_moved hr).hyReads.mpr hhy, hremark⟩
    rw [jsonConfigs, forall_mem_cons]
    refine (returns_bind_iff fun r hr => returns_bind_pure.trans (htail r hr)).trans ?_
    rw [returns_jsonConfig]
    constructor
    · rintro ⟨⟨hep, hhy, hremark⟩, heps⟩
      exact ⟨⟨hep, heps⟩, hhy, hremark⟩
    · rintro ⟨⟨hep, heps⟩, hhy, hremark⟩
      exact ⟨⟨hep, hhy, hremark⟩, heps⟩

def rewritten : List String :=
  ["tlsSettings", "realitySettings", "sockopt", "finalmask", "tcpSettings", "wsSettings",
    "httpupgradeSettings", "xhttpSettings"]

variable {k : String}

variable {s : Object}

theorem jsonSecurity_get (hk : k ∉ rewritten) (h : jsonSecurity d stream = .ok s) :
    s.get k = stream.get k := by
  simp only [rewritten, mem_cons, not_or] at hk
  rw [jsonSecurity] at h
  cases hs : Security.of (strD (stream.get "security")) with
  | tls =>
    simp only [hs, bind_ok] at h
    obtain ⟨_, _, h⟩ := h
    obtain rfl := Except.ok.inj h
    exact Fields.get_put_ne (Ne.symm hk.1)
  | reality =>
    simp only [hs, bind_ok] at h
    obtain ⟨_, _, _, _, h⟩ := h
    obtain rfl := Except.ok.inj h
    exact Fields.get_put_ne (Ne.symm hk.2.1)
  | other =>
    simp only [hs] at h
    obtain rfl := Except.ok.inj h
    rfl

theorem applyGlobalFinalMask_get {fm s : Object} (hk : k ≠ "finalmask") :
    (applyGlobalFinalMask fm s).get k = s.get k := by
  rw [applyGlobalFinalMask]
  split
  · rfl
  · exact Fields.get_putIf_ne hk.symm

theorem removeProxyProtocol_get (hk : k ∉ rewritten) :
    (removeProxyProtocol s).get k = s.get k := by
  simp only [rewritten, mem_cons, not_or] at hk
  rw [removeProxyProtocol]
  cases Network.of (strD (s.get "network")) with
  | tcp => exact Fields.get_put_ne (Ne.symm hk.2.2.2.2.1)
  | ws => exact Fields.get_put_ne (Ne.symm hk.2.2.2.2.2.1)
  | httpupgrade => exact Fields.get_put_ne (Ne.symm hk.2.2.2.2.2.2.1)
  | xhttp => exact Fields.get_put_ne (Ne.symm hk.2.2.2.2.2.2.2.1)
  | kcp => rfl
  | grpc => rfl
  | other => rfl

theorem jsonStreamData_get (hk : k ∉ rewritten)
    (h : jsonStreamData env d stream = .ok s) : s.get k = stream.get k := by
  rw [jsonStreamData, bind_ok] at h
  obtain ⟨secured, hsecured, h⟩ := h
  obtain rfl := Except.ok.inj h
  have hmask : k ≠ "finalmask" := fun he => hk (he ▸ by decide)
  have hsockopt : "sockopt" ≠ k := fun he => hk (he ▸ by decide)
  rw [removeProxyProtocol_get hk, applyGlobalFinalMask_get hmask, Fields.get_del_ne hsockopt,
    jsonSecurity_get hk hsecured]

theorem defaultProxy_reads {dest : String} {port : Int} : ProxyReads (defaultProxy dest port) := by
  refine ⟨?_, ?_, ?_, ?_⟩ <;> rfl

theorem proxiesFor_ne : proxiesFor env ib stream ≠ [] := by
  rw [proxiesFor]
  split
  case isTrue hne => exact hne
  case isFalse => simp

theorem proxiesFor_read : (∀ ep ∈ proxiesFor env ib stream, ProxyReads ep) ↔ ProxiesRead stream := by
  rw [proxiesFor, ProxiesRead]
  split
  case isTrue => rfl
  case isFalse hnil =>
    rw [not_not] at hnil
    simp [hnil, defaultProxy_reads]

theorem proxiesRead_congr (h : s.get "externalProxy" = stream.get "externalProxy") :
    ProxiesRead s ↔ ProxiesRead stream := by
  rw [ProxiesRead, ProxiesRead, externalProxiesOf, externalProxiesOf, h]

def ConfigReads (ib : Inbound) : Prop :=
  JsonSecurityReads ib.streamSettings ∧ ProxiesRead ib.streamSettings ∧ HyReads ib

theorem getConfig_moved {r : List Config × Inbound} (h : getConfig env d ib client = .ok r) :
    Moved ib r.2 := by
  rw [getConfig, bind_ok] at h
  obtain ⟨_, _, h⟩ := h
  exact jsonConfigs_moved h

theorem Moved.configReads {ib ib' : Inbound} (h : Moved ib ib') : ConfigReads ib' ↔ ConfigReads ib := by
  obtain ⟨_, _, rfl⟩ := h
  rfl

theorem returns_getConfig : (∀ d, Returns (getConfig env d ib client)) ↔
    ConfigReads ib ∧ env.remarkModel ≠ [] := by
  refine (returns_bind_const (P := ProxiesRead ib.streamSettings ∧ HyReads ib ∧ env.remarkModel ≠ [])
    fun d s hs => ?_).trans ?_
  · rw [returns_jsonConfigs proxiesFor_ne, proxiesFor_read,
      proxiesRead_congr (jsonStreamData_get (by decide) hs)]
  · rw [returns_jsonStreamData, ConfigReads, and_assoc, and_assoc]

end configs

section proxies

variable {env : Env} {d : Draw} {ib : Inbound} {client : Client} {stream proxy settings : Object} {ep : Json}
  {hasExternalProxy vmess : Bool} {network k : String}

theorem clashHost_eq : clashHost d settings = pathHost d settings := by
  rw [pathHost_eq, clashHost]
  split
  · rfl
  · rw [objD]
    cases obj? (settings.get "headers") <;> rfl

def OptionalHost (v : Option Json) : Prop := ∀ m, obj? v = some m → HostReads m

def HeadersRead (stream : Object) (network : String) : Prop :=
  match Network.of network with
  | .ws => OptionalHost (stream.get "wsSettings")
  | .httpupgrade => OptionalHost (stream.get "httpupgradeSettings")
  | .xhttp => OptionalHost (stream.get "xhttpSettings")
  | .tcp | .kcp | .grpc | .other => True

variable {v : Option Json}

theorem returns_applyHeaders {key : String} :
    (∀ d, Returns (applyHeaders d key (obj? v) proxy)) ↔ OptionalHost v := by
  rw [OptionalHost]
  cases obj? v with
  | none => simp [applyHeaders]
  | some m =>
    simp only [applyHeaders, returns_bind_pure, clashHost_eq, Option.some.injEq, forall_eq']
    exact returns_pathHost

theorem returns_applyXhttpOpts :
    (∀ d, Returns (applyXhttpOpts d (obj? v) proxy)) ↔ OptionalHost v := by
  rw [OptionalHost]
  cases obj? v with
  | none => simp [applyXhttpOpts]
  | some m =>
    simp only [applyXhttpOpts, returns_bind_pure, clashHost_eq, Option.some.injEq, forall_eq']
    exact returns_pathHost

theorem returns_applyTransport :
    (∀ d, Returns (applyTransport d proxy network stream)) ↔ HeadersRead stream network := by
  simp only [applyTransport, HeadersRead]
  by_cases hblank : network = ""
  · have htcp : Network.of "tcp" = .tcp := by decide
    have hother : Network.of "" = .other := by decide
    simp only [hblank, if_pos, htcp, hother]
    simp
  · simp only [if_neg hblank]
    cases Network.of network with
    | tcp => simp
    | kcp => simp
    | ws => simp only [returns_map, returns_applyHeaders]
    | grpc => simp
    | httpupgrade => simp only [returns_map, returns_applyHeaders]
    | xhttp => simp only [returns_map, returns_applyXhttpOpts]
    | other => simp

theorem optionalHost_of (h : (obj? v).isSome → PathReads (objD v)) : OptionalHost v := by
  intro m hm
  rw [objD, hm] at h
  exact (h rfl).2

theorem headersRead_of (h : TransportReads vmess stream network) : HeadersRead stream network := by
  rw [TransportReads] at h
  rw [HeadersRead]
  cases hnet : Network.of network with
  | ws =>
    rw [hnet] at h
    exact optionalHost_of fun _ => h
  | httpupgrade =>
    rw [hnet] at h
    exact optionalHost_of fun _ => h
  | xhttp =>
    rw [hnet] at h
    exact optionalHost_of fun hx => h (.inl hx)
  | tcp => trivial
  | kcp => trivial
  | grpc => trivial
  | other => trivial

def secured : List String := ["security", "tlsSettings", "realitySettings", "sockopt", "externalProxy"]

theorem forceSecurity_get {leftovers : List String} {forceTls : String} (hk : k ≠ "security")
    (htls : k ≠ "tlsSettings") (hleft : k ∉ leftovers) :
    (forceSecurity leftovers forceTls stream).get k = stream.get k := by
  rw [forceSecurity]
  split
  · split
    · rw [Fields.get_put_ne htls.symm, Fields.get_put_ne hk.symm]
    · rfl
  · split
    · split
      · rw [Fields.get_delAll, if_neg hleft, Fields.get_put_ne hk.symm]
      · rfl
    · rfl

theorem applyExternalProxyTLSToStream_get {m : Object} {security : String} (hk : k ≠ "tlsSettings") :
    (applyExternalProxyTLSToStream m stream security).get k = stream.get k := by
  rw [applyExternalProxyTLSToStream]
  split
  · exact Fields.get_put_ne hk.symm
  · rfl

theorem clashStreamData_get (hk : k ∉ ["tlsSettings", "realitySettings", "sockopt"]) :
    (clashStreamData env stream).get k = stream.get k := by
  simp only [mem_cons, not_or] at hk
  rw [clashStreamData, Fields.get_del_ne (Ne.symm hk.2.2.1)]
  cases Security.of (strD (stream.get "security")) with
  | tls =>
    cases obj? (stream.get "tlsSettings") with
    | none => rfl
    | some _ => exact Fields.get_put_ne (Ne.symm hk.1)
  | reality =>
    cases obj? (stream.get "realitySettings") with
    | none => rfl
    | some _ => exact Fields.get_put_ne (Ne.symm hk.2.1)
  | other => rfl

theorem transportReads_congr {s : Object} (h : ∀ k ∉ secured, s.get k = stream.get k) :
    TransportReads vmess s network ↔ TransportReads vmess stream network := by
  have htcp : tcpHeader s = tcpHeader stream := by
    rw [tcpHeader, tcpHeader, h "tcpSettings" (by decide)]
  rw [TransportReads, TransportReads, htcp, h "wsSettings" (by decide), h "grpcSettings" (by decide),
    h "httpupgradeSettings" (by decide), h "xhttpSettings" (by decide)]

def ClashReads (ib : Inbound) : Prop :=
  ib.protocol ≠ .hysteria →
    ∃ vmess, TransportReads vmess ib.streamSettings (strD (ib.streamSettings.get "network"))

theorem clashReads_of (hother : ib.protocol ≠ .other) (h : LinkReads ib) : ClashReads ib := by
  have hurl : UrlReads ib.streamSettings → ClashReads ib := by
    rintro ⟨network, hnet, ht⟩ _
    refine ⟨false, ?_⟩
    rwa [strD, hnet, Option.getD_some]
  rw [LinkReads] at h
  intro hhy
  cases hp : ib.protocol with
  | vmess =>
    rw [hp] at h
    exact ⟨true, h.1⟩
  | vless =>
    rw [hp] at h
    exact hurl h.1 hhy
  | trojan =>
    rw [hp] at h
    exact hurl h.1 hhy
  | shadowsocks =>
    rw [hp] at h
    exact hurl h.2.1 hhy
  | hysteria => exact absurd hp hhy
  | other => exact absurd hp hother

section given

variable (hremark : env.remarkModel ≠ []) (htransport : ClashReads ib)

include hremark htransport

theorem returns_buildProxy {listen extra : String} {port : Int}
    (hs : ∀ k ∉ secured, stream.get k = ib.streamSettings.get k) :
    Returns (buildProxy env d { ib with listen := listen, port := port } client stream extra) := by
  rw [buildProxy]
  split
  case isTrue => exact returns_map.mpr (returns_bind_pure.mpr (returns_genRemark_of hremark))
  case isFalse hne =>
    obtain ⟨vmess, ht⟩ := htransport hne
    rw [← transportReads_congr hs, ← hs "network" (by decide)] at ht
    refine (returns_genRemark_of hremark).bind fun _ _ => ?_
    exact returns_bind_pure.mpr (returns_applyTransport.mpr (headersRead_of ht) d)

theorem returns_clashProxy (hep : ProxyReads ep)
    (hs : ∀ k ∉ secured, stream.get k = ib.streamSettings.get k) :
    Returns (clashProxy env d ib client stream hasExternalProxy ep) := by
  obtain ⟨hdest, hport, hforce, hextra⟩ := hep
  have hobj : (obj? (some ep)).isSome := by
    by_contra hnone
    rw [Option.not_isSome_iff_eq_none] at hnone
    exact not_proxyReads hnone ⟨hdest, hport, hforce, hextra⟩
  obtain ⟨m, hm⟩ := Option.isSome_iff_exists.mp hobj
  rw [objD, hm, Option.getD_some] at hdest hport hforce hextra
  rw [clashProxy, hm, returns_bind_ok (must_some m)]
  refine (returns_must.mpr hdest).bind fun dest _ => ?_
  refine (returns_must.mpr hport).bind fun port _ => ?_
  refine (returns_must.mpr hforce).bind fun forceTls _ => ?_
  refine (returns_must.mpr hextra).bind fun extra _ => ?_
  refine returns_buildProxy hremark htransport fun k hk => ?_
  have hforced : (forceSecurity ["tlsSettings", "realitySettings"] forceTls stream).get k = stream.get k := by
    simp only [secured, mem_cons, not_or] at hk
    exact forceSecurity_get hk.1 hk.2.1 (by simp [hk.2.1, hk.2.2.1])
  rw [← hs k hk, ← hforced]
  split
  · exact applyExternalProxyTLSToStream_get fun he => hk (he ▸ by decide)
  · rfl

theorem returns_clashProxies {eps : List Json} {i : Nat} (heps : ∀ ep ∈ eps, ProxyReads ep)
    (hs : ∀ k ∉ secured, stream.get k = ib.streamSettings.get k) :
    Returns (clashProxies env d ib client stream hasExternalProxy i eps) := by
  induction eps generalizing i with
  | nil => exact returns_pure
  | cons ep eps ih =>
    rw [forall_mem_cons] at heps
    exact (returns_clashProxy hremark htransport heps.1 hs).bind fun _ _ =>
      returns_bind_pure.mpr (ih heps.2)

theorem returns_getProxies (hproxies : ProxiesRead ib.streamSettings) :
    Returns (getProxies env d ib client) := by
  have hget : (clashStreamData env ib.streamSettings).get "externalProxy" =
      ib.streamSettings.get "externalProxy" := clashStreamData_get (by decide)
  refine returns_clashProxies hremark htransport ?_ fun k hk => ?_
  · rwa [proxiesFor_read, proxiesRead_congr hget]
  · have hfew : k ∉ ["tlsSettings", "realitySettings", "sockopt"] := fun hin => hk (by
      simp only [secured, mem_cons, not_mem_nil, or_false] at hin ⊢
      tauto)
    have hproxy : "externalProxy" ≠ k := fun he => hk (he ▸ by decide)
    rw [Fields.get_del_ne hproxy, clashStreamData_get hfew]

end given

end proxies

section matching

variable {env : Env} {db : DB} {ib : Inbound} {c : Client} {subId : String}

theorem dedupByEmail_sublist {seen : List String} {cs : List Client} :
    (dedupByEmail seen cs).Sublist cs := by
  induction cs generalizing seen with
  | nil => exact List.Sublist.slnil
  | cons c cs ih =>
    rw [dedupByEmail]
    split
    · exact ih.cons c
    · exact ih.cons_cons c

theorem project_id : (projectThroughFallbackMaster env db ib).id = ib.id := by
  rw [projectThroughFallbackMaster]
  split
  · split <;> rfl
  · rfl

theorem project_settings : (projectThroughFallbackMaster env db ib).settings = ib.settings := by
  rw [projectThroughFallbackMaster]
  split
  · split <;> rfl
  · rfl

theorem project_protocol : (projectThroughFallbackMaster env db ib).protocol = ib.protocol := by
  rw [projectThroughFallbackMaster]
  split
  · split <;> rfl
  · rfl

theorem returns_findClient (h : c ∈ matchingClients env ib subId) :
    Returns (findClient env (projectThroughFallbackMaster env db ib) c.email) := by
  rw [findClient, returns_orErr, project_settings, find?_isSome]
  exact ⟨c, mem_of_mem_filter (dedupByEmail_sublist.subset h), by simp⟩

end matching

section requests

variable {env : Env} {remote : Remote} {d : Int → String → Draw} {db : DB} {ib : Inbound} {subId : String}

theorem returns_jsonClients {cs : List Client} (hne : cs ≠ []) :
    (∀ d, Returns (jsonClients env d ib cs)) ↔ ConfigReads ib ∧ env.remarkModel ≠ [] := by
  constructor
  · intro h
    obtain ⟨c, cs, rfl⟩ := exists_cons_of_ne_nil hne
    have hfirst : (∀ d, Returns (getConfig env d ib c)) ↔ _ := returns_getConfig
    refine hfirst.mp fun d => ?_
    obtain ⟨r, hr, _⟩ := returns_bind.mp (h fun _ _ => d)
    exact ⟨r, hr⟩
  · rintro ⟨hconfig, hremark⟩ d
    clear hne
    induction cs generalizing ib with
    | nil => exact returns_pure
    | cons c cs ih =>
      refine (returns_getConfig.mpr ⟨hconfig, hremark⟩ _).bind fun r hr => ?_
      exact returns_bind_pure.mpr (ih ((getConfig_moved hr).configReads.mpr hconfig))

theorem returns_rawEntries (hremark : matchingClients env ib subId ≠ [] → env.remarkModel ≠ [])
    (hproxies : matchingClients env ib subId ≠ [] →
      ProxiesRead (projectThroughFallbackMaster env db ib).streamSettings) :
    (∀ d, Returns (rawEntries env d db subId ib)) ↔
      (matchingClients env ib subId ≠ [] → LinkReads (projectThroughFallbackMaster env db ib)) := by
  have hat : ∀ c ∈ matchingClients env ib subId,
      ((∀ d, Returns (getLink env d (projectThroughFallbackMaster env db ib) c.email)) ↔
        LinkReads (projectThroughFallbackMaster env db ib)) := by
    intro c hc
    have hne := ne_nil_of_mem hc
    exact returns_getLink (hremark hne) (hproxies hne) (returns_findClient hc)
  simp only [rawEntries, returns_mapM, returns_bind_pure]
  constructor
  · intro h hne
    obtain ⟨c, hc⟩ := exists_mem_of_ne_nil _ hne
    exact (hat c hc).mp fun d => h (fun _ _ => d) c hc
  · intro h d c hc
    exact (hat c hc).mpr (h (ne_nil_of_mem hc)) _

theorem returns_jsonEntries : (∀ d, Returns (jsonEntries env d db subId ib)) ↔
    (matchingClients env ib subId ≠ [] →
      ConfigReads (projectThroughFallbackMaster env db ib) ∧ env.remarkModel ≠ []) := by
  constructor
  · exact fun h hne => (returns_jsonClients hne).mp h
  · intro h d
    by_cases hnil : matchingClients env ib subId = []
    · rw [jsonEntries, hnil]
      exact returns_pure
    · exact (returns_jsonClients hnil).mpr (h hnil) d

theorem returns_clashEntries (hremark : env.remarkModel ≠ [])
    (hclash : ClashReads (projectThroughFallbackMaster env db ib))
    (hproxies : ProxiesRead (projectThroughFallbackMaster env db ib).streamSettings) :
    Returns (clashEntries env d db subId ib) := by
  refine returns_bind_pure.mpr (returns_mapM.mpr fun c _ => ?_)
  exact returns_bind_pure.mpr (returns_getProxies hremark hclash hproxies)

theorem returns_each {α : Type} {f : (Int → String → Draw) → Inbound → Go α} {ibs : List Inbound} :
    (∀ d, Returns (ibs.mapM (f d))) ↔ ∀ ib ∈ ibs, ∀ d, Returns (f d ib) := by
  simp only [returns_mapM]
  exact ⟨fun h ib hib d => h d ib hib, fun h d ib hib => h ib hib d⟩

end requests

section external

variable {env : Env} {remote : Remote} {db : DB} {subId rawLink remark name : String}

def LinkRewrites (remote : Remote) (rawLink remark : String) : Prop :=
  remark ≠ "" → (Text.trimSpace rawLink).startsWith "vmess://" →
    remote.decodeVmess (Text.trimSpace rawLink) ≠ some .null

theorem returns_applyVmessRemark :
    Returns (applyVmessRemark remote rawLink remark) ↔ remote.decodeVmess rawLink ≠ some .null := by
  rw [applyVmessRemark]
  split
  · rename_i h
    simp [h]
  · rename_i h
    simp [h]
  · rename_i h
    exact iff_of_true returns_pure h

theorem returns_applyRemarkToLink :
    Returns (applyRemarkToLink remote rawLink remark) ↔ LinkRewrites remote rawLink remark := by
  rw [applyRemarkToLink, LinkRewrites]
  split
  case isTrue hblank => simp [hblank]
  case isFalse hset =>
    simp only [ne_eq, hset, not_false_eq_true, true_imp_iff]
    split
    case isTrue hvmess =>
      simp only [hvmess, true_imp_iff]
      exact returns_applyVmessRemark
    case isFalse hplain => simp [hplain]

def ExternalHeaders (env : Env) (remote : Remote) (rawLink name : String) : Prop :=
  ∀ ob, parseExternalLink remote rawLink = some ob → ∀ settings, obj? (ob.get "settings") = some settings →
    (externalCredential env remote (strD (ob.get "protocol")) [("name", .str name), ("udp", .bool true)]
      settings).isSome →
    HeadersRead (objD (ob.get "streamSettings")) (strD ((objD (ob.get "streamSettings")).get "network"))

theorem externalCredential_none {protocol : String} {proxy settings : Object}
    (h : protocol ∈ ["shadowsocks", "hysteria", "wireguard"]) :
    externalCredential env remote protocol proxy settings = none := by
  simp only [mem_cons, not_mem_nil, or_false] at h
  rcases h with rfl | rfl | rfl <;> rfl

theorem returns_clashProxyFromExternal :
    (∀ d, Returns (clashProxyFromExternal env d remote rawLink name)) ↔
      ExternalHeaders env remote rawLink name := by
  simp only [clashProxyFromExternal, ExternalHeaders]
  cases parseExternalLink remote rawLink with
  | none => simp
  | some ob =>
    simp only [Option.some.injEq, forall_eq']
    cases hset : obj? (ob.get "settings") with
    | none => simp
    | some settings =>
      simp only [Option.some.injEq, forall_eq']
      by_cases hfixed : strD (ob.get "protocol") ∈ ["shadowsocks", "hysteria", "wireguard"]
      · rw [externalCredential_none hfixed]
        simp only [mem_cons, not_mem_nil, or_false] at hfixed
        rcases hfixed with hp | hp | hp <;> simp [hp]
      · simp only [mem_cons, not_mem_nil, or_false, not_or] at hfixed
        simp only [hfixed.1, hfixed.2.1, hfixed.2.2, if_false]
        cases externalCredential env remote (strD (ob.get "protocol"))
            [("name", .str name), ("udp", .bool true)] settings with
        | none => simp
        | some proxy =>
          simp only [returns_bind_pure, Option.isSome_some, true_imp_iff]
          exact returns_applyTransport

theorem returns_externalRaw : Returns (externalRaw remote db subId) ↔
    ∀ ext ∈ db.externalLinks subId, ∀ el ∈ expandEntry remote ext, LinkRewrites remote el.1 el.2 := by
  simp only [externalRaw, returns_bind_pure, returns_mapM, returns_applyRemarkToLink]

theorem returns_externalProxies : (∀ d, Returns (externalProxies env remote d db subId)) ↔
    ∀ l ∈ externalNames remote db subId, ExternalHeaders env remote l.1 l.2 := by
  simp only [externalProxies, returns_bind_pure, returns_mapM]
  constructor
  · intro h l hl
    obtain ⟨i, hi⟩ := mem_iff_getElem?.mp hl
    have hmem : (l, i) ∈ (externalNames remote db subId).zipIdx := mk_mem_zipIdx_iff_getElem?.mpr hi
    exact returns_clashProxyFromExternal.mp fun d => h (fun _ _ => d) (l, i) hmem
  · intro h d l hl
    exact returns_clashProxyFromExternal.mpr (h l.1 (fst_mem_of_mem_zipIdx hl)) _

end external

section independence

variable {env : Env} {remote : Remote} {d : Int → String → Draw} {db : DB} {subId : String} {i : Int}

theorem getInboundsBySubId_detach : getInboundsBySubId (db.detach i) subId =
    (getInboundsBySubId db subId).filter (·.id ≠ i) := by
  rw [getInboundsBySubId, getInboundsBySubId, filter_filter]
  refine filter_congr fun ib _ => ?_
  simp only [covers, DB.detach]
  by_cases hid : ib.id = i
  · simp [hid]
  · simp [hid]

theorem rawEntries_tagged {ib : Inbound} {es : List (Entry (List Link))}
    (h : rawEntries env d db subId ib = .ok es) : ∀ e ∈ es, e.inboundId = ib.id := by
  intro e he
  obtain ⟨c, _, hc⟩ := mem_mapM h e he
  rw [bind_ok] at hc
  obtain ⟨links, _, hc⟩ := hc
  obtain rfl := Except.ok.inj hc
  rfl

theorem jsonClients_tagged {ib : Inbound} {cs : List Client} {es : List (Entry Config)}
    (h : jsonClients env d ib cs = .ok es) : ∀ e ∈ es, e.inboundId = ib.id := by
  induction cs generalizing ib es with
  | nil =>
    obtain rfl := Except.ok.inj h
    exact fun _ he => absurd he not_mem_nil
  | cons c cs ih =>
    rw [jsonClients, bind_ok] at h
    obtain ⟨r, hr, h⟩ := h
    obtain ⟨listen, port, hmoved⟩ := getConfig_moved hr
    have hid : r.2.id = ib.id := by rw [hmoved]
    rw [bind_ok] at h
    obtain ⟨rest, hrest, h⟩ := h
    obtain rfl := Except.ok.inj h
    intro e he
    rcases mem_append.mp he with he | he
    · obtain ⟨config, _, rfl⟩ := mem_map.mp he
      exact hid
    · exact (ih hrest e he).trans hid

variable {es : List (Entry Object)}

theorem clashEntries_tagged {ib : Inbound}
    (h : clashEntries env d db subId ib = .ok es) : ∀ e ∈ es, e.inboundId = ib.id := by
  rw [clashEntries, bind_ok] at h
  obtain ⟨ess, hess, h⟩ := h
  obtain rfl := Except.ok.inj h
  intro e he
  obtain ⟨es', hes', he⟩ := mem_flatten.mp he
  obtain ⟨c, _, hc⟩ := mem_mapM hess es' hes'
  rw [bind_ok] at hc
  obtain ⟨proxies, _, hc⟩ := hc
  obtain rfl := Except.ok.inj hc
  obtain ⟨proxy, _, rfl⟩ := mem_map.mp he
  rfl

def others {α : Type} (i : Int) (es : List (Entry α)) : List (Entry α) :=
  es.filter fun e => e.inboundId ≠ i

theorem others_of_each {α : Type} {f : Inbound → Go (List (Entry α))} {ess : List (List (Entry α))}
    (htag : ∀ ib es, f ib = .ok es → ∀ e ∈ es, e.inboundId = ib.id)
    (h : (getInboundsBySubId db subId).mapM f = .ok ess) :
    ∃ ess', (getInboundsBySubId (db.detach i) subId).mapM f = .ok ess' ∧
      ess'.flatten = others i ess.flatten := by
  rw [getInboundsBySubId_detach]
  refine flatten_mapM_filter (fun ib es hes e he => ?_) h
  simp only [htag ib es hes e he]

def clashName (proxy : Object) : String := strD (proxy.get "name")

def Distinct (parts : List (Entry Object) × List Object) : Prop :=
  let names := (parts.1.map (·.value) ++ parts.2).map clashName
  names.Nodup ∧ "" ∉ names

structure Unaffected (env : Env) (remote : Remote) (db : DB) (subId : String) (i : Int) : Prop where
  raw : ∀ d es ext, getSubs env remote d db subId = .ok (es, ext) →
    getSubs env remote d (db.detach i) subId = .ok (others i es, ext)
  json : ∀ d es ext, getJson env remote d db subId = .ok (es, ext) →
    getJson env remote d (db.detach i) subId = .ok (others i es, ext)
  proxies : ∀ d es ext, clashParts env remote d db subId = .ok (es, ext) →
    clashParts env remote d (db.detach i) subId = .ok (others i es, ext)
  clash : ∀ d parts es ext, clashParts env remote d db subId = .ok parts → Distinct parts →
    getClash env remote d db subId = .ok (es, ext) →
      getClash env remote d (db.detach i) subId = .ok (others i es, ext)

theorem getSubs_detach {es : List (Entry (List Link))} {ext : List String}
    (h : getSubs env remote d db subId = .ok (es, ext)) :
    getSubs env remote d (db.detach i) subId = .ok (others i es, ext) := by
  rw [getSubs, bind_ok] at h
  obtain ⟨ess, hess, h⟩ := h
  rw [bind_ok] at h
  obtain ⟨external, hexternal, h⟩ := h
  obtain ⟨rfl, rfl⟩ := Prod.mk.inj (Except.ok.inj h)
  obtain ⟨ess', hess', hothers⟩ := others_of_each (i := i) (fun _ _ => rawEntries_tagged) hess
  rw [← hothers]
  exact bind_ok.mpr ⟨ess', hess', bind_ok.mpr ⟨external, hexternal, rfl⟩⟩

theorem getJson_detach {es : List (Entry Config)} {ext : List (Object × String)}
    (h : getJson env remote d db subId = .ok (es, ext)) :
    getJson env remote d (db.detach i) subId = .ok (others i es, ext) := by
  rw [getJson, bind_ok] at h
  obtain ⟨ess, hess, h⟩ := h
  obtain ⟨rfl, rfl⟩ := Prod.mk.inj (Except.ok.inj h)
  obtain ⟨ess', hess', hothers⟩ := others_of_each (i := i)
    (fun _ _ h e he => (jsonClients_tagged h e he).trans project_id) hess
  rw [← hothers]
  exact bind_ok.mpr ⟨ess', hess', rfl⟩

variable {ext : List Object}

theorem clashParts_detach
    (h : clashParts env remote d db subId = .ok (es, ext)) :
    clashParts env remote d (db.detach i) subId = .ok (others i es, ext) := by
  rw [clashParts, bind_ok] at h
  obtain ⟨ess, hess, h⟩ := h
  rw [bind_ok] at h
  obtain ⟨external, hexternal, h⟩ := h
  obtain ⟨rfl, rfl⟩ := Prod.mk.inj (Except.ok.inj h)
  obtain ⟨ess', hess', hothers⟩ := others_of_each (i := i) (fun _ _ => clashEntries_tagged) hess
  rw [← hothers]
  exact bind_ok.mpr ⟨ess', hess', bind_ok.mpr ⟨external, hexternal, rfl⟩⟩

def rename (proxy : Object) : Object := proxy.put "name" (.str (clashName proxy))

def Entry.rename (e : Entry Object) : Entry Object := { e with value := Subscription.rename e.value }

theorem baseNames_of {proxies : List Object} (h : "" ∉ proxies.map clashName) :
    baseNames proxies = proxies.map clashName := by
  have hbase : ∀ p ∈ proxies.zipIdx, baseName p.1 p.2 = clashName p.1 := by
    intro p hp
    refine if_neg fun hblank => h ?_
    exact mem_map.mpr ⟨p.1, fst_mem_of_mem_zipIdx hp, hblank⟩
  have hfst : (proxies.zipIdx.map Prod.fst).map clashName = proxies.map clashName := by
    rw [zipIdx_map_fst]
  rw [← hfst, map_map, baseNames]
  exact map_congr_left hbase

theorem ensureUniqueProxyNames_of {proxies : List Object} (hnodup : (proxies.map clashName).Nodup)
    (h : "" ∉ proxies.map clashName) : ensureUniqueProxyNames proxies = proxies.map rename := by
  rw [ensureUniqueProxyNames, baseNames_of h, Fresh.assign_self hnodup fun _ _ => not_mem_nil,
    zipWith_map_right, zipWith_self]
  rfl

theorem named_of (h : Distinct (es, ext)) :
    named es ext = (es.map Entry.rename, ext.map rename) := by
  have hzip : ∀ (es : List (Entry Object)) (rest : List Object),
      List.zipWith (fun e proxy => ({ e with value := proxy } : Entry Object)) es
        ((es.map (·.value)).map rename ++ rest) = es.map Entry.rename := by
    intro es rest
    induction es with
    | nil => rfl
    | cons e es ih => exact congrArg (e.rename :: ·) ih
  have hlen : es.length = ((es.map (·.value)).map rename).length := by simp
  rw [named, ensureUniqueProxyNames_of h.1 h.2, map_append, hzip]
  congr 1
  rw [hlen, drop_left]

theorem Distinct.others (h : Distinct (es, ext)) :
    Distinct (others i es, ext) := by
  have hsub : ((Subscription.others i es).map (·.value) ++ ext).Sublist (es.map (·.value) ++ ext) :=
    (filter_sublist.map _).append_right _
  exact ⟨h.1.sublist (hsub.map _), fun hin => h.2 ((hsub.map _).subset hin)⟩

theorem others_rename :
    others i (es.map Entry.rename) = (others i es).map Entry.rename := by
  rw [others, others, filter_map]
  rfl

theorem unaffected : Unaffected env remote db subId i where
  raw := fun _ _ _ => getSubs_detach
  json := fun _ _ _ => getJson_detach
  proxies := fun _ _ _ => clashParts_detach
  clash := by
    rintro d ⟨es, ext⟩ es' ext' hparts hdistinct h
    rw [getClash, hparts] at h
    obtain ⟨rfl, rfl⟩ := Prod.mk.inj ((named_of hdistinct).symm.trans (Except.ok.inj h))
    rw [getClash, clashParts_detach hparts, others_rename]
    exact congrArg Except.ok (named_of hdistinct.others)

end independence

section renderable

variable {env : Env} {remote : Remote} {db : DB} {subId : String}

def Renderable (ib : Inbound) : Prop := LinkReads ib ∧ ConfigReads ib

def InboundsRead (env : Env) (db : DB) (subId : String) : Prop :=
  ∀ ib ∈ getInboundsBySubId db subId, matchingClients env ib subId ≠ [] →
    env.remarkModel ≠ [] ∧ Renderable (projectThroughFallbackMaster env db ib)

def ExternalsRead (env : Env) (remote : Remote) (db : DB) (subId : String) : Prop :=
  (∀ ext ∈ db.externalLinks subId, ∀ el ∈ expandEntry remote ext, LinkRewrites remote el.1 el.2) ∧
    ∀ l ∈ externalNames remote db subId, ExternalHeaders env remote l.1 l.2

theorem returns_getSubs : (∀ d, Returns (getSubs env remote d db subId)) ↔
    (∀ ib ∈ getInboundsBySubId db subId, ∀ d, Returns (rawEntries env d db subId ib)) ∧
      Returns (externalRaw remote db subId) :=
  (returns_bind_const fun _ _ _ => returns_bind_pure).trans (and_congr_left' returns_each)

theorem returns_getJson : (∀ d, Returns (getJson env remote d db subId)) ↔
    ∀ ib ∈ getInboundsBySubId db subId, ∀ d, Returns (jsonEntries env d db subId ib) :=
  (forall_congr' fun _ => returns_bind_pure).trans returns_each

theorem returns_getClash : (∀ d, Returns (getClash env remote d db subId)) ↔
    (∀ ib ∈ getInboundsBySubId db subId, ∀ d, Returns (clashEntries env d db subId ib)) ∧
      ∀ d, Returns (externalProxies env remote d db subId) := by
  simp only [getClash, returns_map]
  rw [← returns_each]
  exact returns_bind_forall fun d _ _ => returns_bind_pure

theorem covered_protocol {ib : Inbound} (h : ib ∈ getInboundsBySubId db subId) : ib.protocol ≠ .other := by
  have hcovers := (mem_filter.mp h).2
  rw [covers, Bool.and_eq_true, Bool.and_eq_true, decide_eq_true_iff] at hcovers
  exact hcovers.1.1

def readClients (settings : Object) : List Client :=
  (arrD (settings.get "clients")).map fun c =>
    let text := fun key => strD ((objD (some c)).get key)
    { id := text "id", security := text "security", password := text "password", flow := text "flow",
      auth := text "auth", email := text "email", subId := text "subId",
      enable := bool? ((objD (some c)).get "enable") = some true }

def plainEnv : Env where
  address := "panel.test"
  host := "panel.test"
  showInfo := false
  emailInRemark := true
  remarkModel := "-ieo".toUTF8.toList
  now := 0
  nodeAddresses := []
  finalMask := []
  mux := none
  getClients := readClients
  isRoutableHost := fun host => host ≠ "" && host ≠ "0.0.0.0"
  isLoopbackHost := fun host => host = "127.0.0.1"
  truncate := fun digits => digits.toInt?.getD 0
  isZero := fun digits => digits.toInt? = some 0
  marshal := fun _ => ""
  sprint := fun _ => ""
  formatTraffic := fun n => toString n ++ "B"
  decodeHex := fun _ => none
  encodeHex := fun _ => ""
  decodeBase64 := []

def offline : Remote where
  fetchSubscriptionLinks := fun _ => []
  decodeVmess := fun _ => none
  vmessText := fun _ => ""
  pathEscape := id
  parseLink := fun _ => none
  atoi := fun s => s.toInt?.getD 0

def vlessInbound (id : Int) (remark : String) (port : Int) (streamSettings : Object) : Inbound where
  id := id
  subSortIndex := 0
  remark := remark
  enable := true
  listen := ""
  port := port
  protocol := .vless
  settings := [("clients", .arr [.obj [("id", .str "b831381d-6324-4d53-ad4f-8cda48b30811"),
    ("email", .str "alice"), ("subId", .str "s1"), ("enable", .bool true)]])]
  streamSettings := streamSettings
  nodeId := none
  shareAddrStrategy := ""
  shareAddr := ""
  clientStats := []

def oddDB : DB where
  inbounds := [vlessInbound 1 "odd" 8443 [],
    vlessInbound 2 "fine" 443 [("network", .str "tcp"), ("security", .str "none")]]
  fallbacks := []
  attached := [(1, "s1"), (2, "s1")]
  externalLinks := fun _ => []

theorem oddDB_sorted : oddDB.inbounds.mergeSort inSubscriptionOrder = oddDB.inbounds :=
  mergeSort_of_pairwise (by simp [oddDB, vlessInbound, inSubscriptionOrder])

theorem oddDB_covered : getInboundsBySubId oddDB "s1" = oddDB.inbounds := by
  rw [getInboundsBySubId, oddDB_sorted]
  rfl

theorem oddDB_sibling : getInboundsBySubId (oddDB.detach 1) "s1" = oddDB.inbounds.drop 1 := by
  rw [getInboundsBySubId_detach, oddDB_covered]
  rfl

end renderable

end Subscription

end QuiPanel
