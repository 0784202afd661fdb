import QuiPanel.LinkParser

namespace QuiPanel

namespace LinkParser

open ByteText JsonText List

section parts

variable {u v x y : Bytes} {p q : Url.Values} {k : String}

theorem split_last (hx : 58 ∉ x) (hy : 58 ∉ y) (h : u ++ 58 :: x = v ++ 58 :: y) : u = v ∧ x = y := by
  have hcut := congrArg (cutLast 58) h
  rw [cutLast_at hx, cutLast_at hy] at hcut
  exact ⟨congrArg Prod.fst (Option.some.inj hcut), congrArg Prod.snd (Option.some.inj hcut)⟩

def sorted (p : Url.Values) : Url.Values := p.insertionSort fun a b => a.1 ≤ b.1

def pairText (kv : Bytes × Bytes) : Bytes := kv.1 ++ 61 :: kv.2

theorem param_congr (h : sorted p = sorted q) : param p = param q := by
  funext k
  rw [param, param, Url.get, Url.get, ← Url.find?_insertionSort p, ← Url.find?_insertionSort q]
  exact congrArg (fun s : Url.Values => ((s.find? (·.1 = lit k)).map (·.2)).getD []) h

structure Parts where
  secret : Bytes
  server : Bytes
  params : Url.Values

def separators (p : Parts) : Nat × List (Nat × Nat) :=
  (p.secret.count 64, p.params.map fun kv => (kv.1.count 61, (pairText kv).count 38))

def joined (p : Parts) : Bytes := p.secret ++ 64 :: (p.server ++ 63 :: List.intercalate [38] (p.params.map pairText))

theorem pairs_inj (h : List.intercalate [38] (p.map pairText) = List.intercalate [38] (q.map pairText))
    (hmarks : p.map (fun kv => (kv.1.count 61, (pairText kv).count 38)) =
      q.map fun kv => (kv.1.count 61, (pairText kv).count 38)) : p = q := by
  have hpair : ∀ {a b : Bytes × Bytes}, a.1.count 61 = b.1.count 61 → pairText a = pairText b → a = b := by
    intro a b hcount hab
    obtain ⟨hkey, hvalue⟩ := Framing.split_counted hcount hab
    exact Prod.ext hkey hvalue
  induction p generalizing q with
  | nil =>
    cases q with
    | nil => rfl
    | cons b q => cases hmarks
  | cons a p ih =>
    cases q with
    | nil => cases hmarks
    | cons b q =>
      rw [map_cons, map_cons, List.cons.injEq, Prod.mk.injEq] at hmarks
      obtain ⟨⟨hkey, htext⟩, hrest⟩ := hmarks
      cases p with
      | nil =>
        cases q with
        | nil =>
          rw [map_singleton, map_singleton, intercalate_singleton, intercalate_singleton] at h
          rw [hpair hkey h]
        | cons d q => cases hrest
      | cons c p =>
        cases q with
        | nil => cases hrest
        | cons d q =>
          simp only [map_cons, intercalate_cons_cons, singleton_append, append_assoc] at h
          obtain ⟨hab, htail⟩ := Framing.split_counted htext h
          rw [hpair hkey hab, @ih (d :: q) htail hrest]

theorem joined_inj {p q : Parts} (hp : 63 ∉ p.server) (hq : 63 ∉ q.server) (h : joined p = joined q)
    (hmarks : separators p = separators q) : p = q := by
  obtain ⟨hsecret, hparams⟩ := Prod.mk.inj hmarks
  obtain ⟨hsame, hrest⟩ := Framing.split_counted hsecret h
  obtain ⟨hserver, hquery⟩ := Framing.split_unique hp hq hrest
  obtain ⟨secret, server, params⟩ := p
  obtain ⟨secret', server', params'⟩ := q
  cases hsame
  cases hserver
  exact congrArg (Parts.mk secret server) (pairs_inj hquery hparams)

end parts

section links

variable {env : Env} {e e' : Endpoint} {a a' : Account} {j j' : Fields Tree} {l l' : Bytes} {k : String}

def urlParts (e : Endpoint) : Parts := ⟨e.user, server e, sorted e.params⟩

def wireguardParts (e : Endpoint) : Parts := ⟨wireguardSecret e, wireguardEndpoint e, sorted e.params⟩

def accountParts (a : Account) : Parts :=
  ⟨a.method ++ 58 :: a.password, a.host ++ 58 :: itoa (atoi a.port).value, []⟩

def body (pre : String) (l : Bytes) : Bytes := trimPrefix (lit pre) (trimSpace l)

def parts (env : Env) (l : Bytes) : Option Parts :=
  match schemeOf (trimSpace l) with
  | none | some .vmess => none
  | some .shadowsocks => (ssAccount (body "ss://" l)).map accountParts
  | some .wireguard => (endpoint env (trimSpace l)).map wireguardParts
  | some _ => (endpoint env (trimSpace l)).map urlParts

def Aligned (env : Env) (l l' : Bytes) : Prop := (parts env l).map separators = (parts env l').map separators

def RemarkOnly (env : Env) (l l' : Bytes) : Prop :=
  match schemeOf (trimSpace l) with
  | some .vmess => (vmessFields env (body "vmess://" l)).map core = (vmessFields env (body "vmess://" l')).map core
  | _ => (cut 35 (trimSpace l)).1 = (cut 35 (trimSpace l')).1

def SameServer (r r' : ParseResult) : Prop := r.outbound.del "tag" = r'.outbound.del "tag"

variable (h : endpoint env l = some e)

include h

theorem endpoint_host : ∀ c ∈ e.host, Url.hostText c = true := by
  obtain ⟨u, hu, rfl⟩ := Option.map_eq_some_iff.mp h
  exact fun c hc => Url.hostText_parse hu c (Url.hostname_subset u hc)

theorem endpoint_port : e.port.all decimal = true := by
  obtain ⟨u, _, rfl⟩ := Option.map_eq_some_iff.mp h
  exact Url.port_digits u

theorem endpoint_host_free : 63 ∉ e.host := by
  intro hc
  cases endpoint_host h 63 hc

theorem server_free : 63 ∉ server e := by
  rw [server, mem_append, mem_cons, not_or, not_or]
  exact ⟨endpoint_host_free h, by decide, not_mem_itoa rfl (by decide) _⟩

theorem wireguardEndpoint_free : 63 ∉ wireguardEndpoint e := by
  rw [wireguardEndpoint]
  split
  case isTrue => exact endpoint_host_free h
  case isFalse =>
    rw [mem_append, mem_cons, not_or, not_or]
    refine ⟨endpoint_host_free h, by decide, fun hc => ?_⟩
    cases all_eq_true.mp (endpoint_port h) 63 hc

theorem endpoint_remark (h' : endpoint env l' = some e')
    (hsame : (cut 35 l).1 = (cut 35 l').1) : e' = { e with remark := e'.remark } := by
  obtain ⟨u, hu, rfl⟩ := Option.map_eq_some_iff.mp h
  obtain ⟨u', hu', rfl⟩ := Option.map_eq_some_iff.mp h'
  rw [Url.parseAbsolute_fragment hu hu' hsame]
  rfl

omit h

theorem server_congr (h : server e = server e') :
    e.host = e'.host ∧ defaultPort e.port 443 = defaultPort e'.port 443 := by
  obtain ⟨hhost, hport⟩ := split_last (not_mem_itoa rfl (by decide) _) (not_mem_itoa rfl (by decide) _) h
  exact ⟨hhost, itoa_injective hport⟩

theorem urlStream_congr (h : sorted e.params = sorted e'.params) (security : String) :
    urlStream env e.params security = urlStream env e'.params security := by
  simp only [urlStream, applyFinalMask, applySecurity, applyTransport, param_congr h]

theorem vless_identity (e : Endpoint) :
    (vlessResult env e).identity = lit "vless:vless://" ++ joined (urlParts e) := rfl

theorem trojan_identity (e : Endpoint) :
    (trojanResult env e).identity = lit "trojan:trojan://" ++ joined (urlParts e) := rfl

theorem hysteria2_identity (e : Endpoint) :
    (hysteria2Result env e).identity = lit "hysteria2:" ++ joined (urlParts e) := rfl

theorem wireguard_identity (e : Endpoint) :
    (wireguardResult e).identity = lit "wireguard:" ++ joined (wireguardParts e) := rfl

theorem vless_server (h : urlParts e = urlParts e') : SameServer (vlessResult env e) (vlessResult env e') := by
  obtain ⟨huser, hserver, hparams⟩ := Parts.mk.inj h
  obtain ⟨hhost, hport⟩ := server_congr hserver
  simp only [SameServer, vlessResult, urlStream_congr hparams, param_congr hparams, huser, hhost, hport]
  rfl

theorem trojan_server (h : urlParts e = urlParts e') : SameServer (trojanResult env e) (trojanResult env e') := by
  obtain ⟨huser, hserver, hparams⟩ := Parts.mk.inj h
  obtain ⟨hhost, hport⟩ := server_congr hserver
  simp only [SameServer, trojanResult, urlStream_congr hparams, huser, hhost, hport]
  rfl

theorem hysteria2_server (h : urlParts e = urlParts e') :
    SameServer (hysteria2Result env e) (hysteria2Result env e') := by
  obtain ⟨huser, hserver, hparams⟩ := Parts.mk.inj h
  obtain ⟨hhost, hport⟩ := server_congr hserver
  simp only [SameServer, hysteria2Result, hysteriaStream, applyFinalMask, param_congr hparams, huser, hhost, hport]
  rfl

theorem wireguard_server (h : wireguardParts e = wireguardParts e') :
    SameServer (wireguardResult e) (wireguardResult e') := by
  obtain ⟨hsecret, hendpoint, hparams⟩ := Parts.mk.inj h
  simp only [SameServer, wireguardResult, wireguardSettings, wireguardPeer, firstParam, param_congr hparams, hsecret,
    hendpoint]
  rfl

theorem ssAccount_spec {core : Bytes} (h : ssAccount core = some a) :
    ∃ userInfo hp remark, accountAt userInfo hp remark = some a ∧
      ∀ other a', (cut 35 other).1 = (cut 35 core).1 → ssAccount other = some a' →
        ∃ remark', accountAt userInfo hp remark' = some a' := by
  rw [ssAccount] at h
  split at h
  case h_1 userB64 hp hcut =>
    refine ⟨_, _, _, h, fun other a' hsame h' => ?_⟩
    rw [ssAccount, hsame, hcut] at h'
    exact ⟨_, h'⟩
  case h_2 whole hcut =>
    obtain ⟨dec, hdec, h⟩ := Option.bind_eq_some_iff.mp h
    split at h
    case h_1 userInfo hp hat =>
      refine ⟨_, _, _, h, fun other a' hsame h' => ?_⟩
      rw [ssAccount, hsame, hcut] at h'
      dsimp only at h'
      rw [hdec, Option.bind_eq_bind, Option.bind_some, hat] at h'
      exact ⟨_, h'⟩
    case h_2 => cases h

theorem accountAt_spec {userInfo hp remark : Bytes} (h : accountAt userInfo hp remark = some a) :
    58 ∉ a.method ∧ ∀ remark' a', accountAt userInfo hp remark' = some a' → a' = { a with remark := a'.remark } := by
  obtain ⟨s, hs, rfl⟩ := Option.map_eq_some_iff.mp h
  refine ⟨?_, fun remark' a' h' => ?_⟩
  · change 58 ∉ (splitMethodPass userInfo).1
    have hfree := (cut_spec 58 userInfo).1
    rw [splitMethodPass]
    split
    case h_1 =>
      change 58 ∉ lit "2022-blake3-aes-128-gcm"
      decide +kernel
    case h_2 method pass hcut =>
      rw [hcut] at hfree
      exact hfree
  · obtain ⟨s', hs', rfl⟩ := Option.map_eq_some_iff.mp h'
    rw [hs] at hs'
    cases hs'
    rfl

theorem account_method (h : ssAccount l = some a) : 58 ∉ a.method := by
  obtain ⟨userInfo, hp, remark, hat, _⟩ := ssAccount_spec h
  exact (accountAt_spec hat).1

theorem account_remark (h : ssAccount l = some a) (h' : ssAccount l' = some a')
    (hsame : (cut 35 l).1 = (cut 35 l').1) : a' = { a with remark := a'.remark } := by
  obtain ⟨userInfo, hp, remark, hat, hother⟩ := ssAccount_spec h
  obtain ⟨remark', hat'⟩ := hother l' a' hsame.symm h'
  exact (accountAt_spec hat).2 remark' a' hat'

theorem shadowsocks_identity (a : Account) :
    (shadowsocksResult a).identity = lit "ss:" ++ ((accountParts a).secret ++ 64 :: (accountParts a).server) := by
  simp only [shadowsocksResult, accountParts, append_assoc, cons_append]

theorem account_inj (h : (shadowsocksResult a).identity = (shadowsocksResult a').identity)
    (hmarks : separators (accountParts a) = separators (accountParts a')) : accountParts a = accountParts a' := by
  rw [shadowsocks_identity, shadowsocks_identity] at h
  obtain ⟨hsecret, hserver⟩ := Framing.split_counted (Prod.mk.inj hmarks).1 (append_cancel_left h)
  exact congrArg₂ (fun secret server => Parts.mk secret server []) hsecret hserver

theorem shadowsocks_server (hm : 58 ∉ a.method) (hm' : 58 ∉ a'.method) (h : accountParts a = accountParts a') :
    SameServer (shadowsocksResult a) (shadowsocksResult a') := by
  obtain ⟨hsecret, hserver, _⟩ := Parts.mk.inj h
  obtain ⟨hmethod, hpassword⟩ := Framing.split_unique hm hm' hsecret
  obtain ⟨hhost, hport⟩ := split_last (not_mem_itoa rfl (by decide) _) (not_mem_itoa rfl (by decide) _) hserver
  simp only [SameServer, shadowsocksResult, hmethod, hpassword, hhost, itoa_injective hport]
  rfl

theorem get_core (h : k ≠ remarkKey) : (core j).get k = j.get k := by
  have hcore : core j = j.del remarkKey := rfl
  rw [hcore, Fields.get_del_ne h.symm]

theorem getTree_core (h : k ≠ remarkKey) : getTree (core j) k = getTree j k := by
  rw [getTree, getTree, get_core h]

theorem getString_core (h : k ≠ remarkKey) (default_ : Bytes) :
    getString (core j) k default_ = getString j k default_ := by
  rw [getString, getString, getTree_core h]

theorem vmessTransport_core (network : Bytes) (stream : Object) :
    vmessTransport network (core j) stream = vmessTransport network j stream := by
  simp (disch := decide) only [vmessTransport, List.foldl, get_core, getTree_core, getString_core]

theorem vmessTLS_core (stream : Object) : vmessTLS (core j) stream = vmessTLS j stream := by
  simp (disch := decide) only [vmessTLS, getString_core]

theorem vmessOutbound_core (env : Env) (j : Fields Tree) :
    (vmessOutbound env (core j)).del "tag" = (vmessOutbound env j).del "tag" := by
  simp (disch := decide) only [vmessOutbound, vmessTransport_core, vmessTLS_core, get_core, getString_core]
  rfl

theorem vmess_server (h : core j = core j') :
    SameServer ⟨vmessOutbound env j, vmessIdentity j⟩ ⟨vmessOutbound env j', vmessIdentity j'⟩ := by
  rw [SameServer, ← vmessOutbound_core env j, ← vmessOutbound_core env j', h]

theorem vmess_identity (h : vmessIdentity j = vmessIdentity j') : core j = core j' :=
  Tree.obj.inj (marshal_injective (append_cancel_left h))

end links

section faithful

variable {env : Env} {l l' : Bytes} {r r' : ParseResult}

theorem parseLink_scheme (h : parseLink env l = some r) :
    ∃ s, schemeOf (trimSpace l) = some s ∧ parseScheme env (trimSpace l) s = some r := by
  rw [parseLink] at h
  exact Option.bind_eq_some_iff.mp h

theorem shadowsocks_starts (h : schemeOf l = some .shadowsocks) : (lit "ss://").isPrefixOf l = true := by
  have honly : ∀ entry ∈ prefixes, entry.2 = .shadowsocks → entry.1 = "ss://" := by decide
  obtain ⟨entry, hfind, hscheme⟩ := Option.map_eq_some_iff.mp h
  have hpre := find?_some hfind
  rw [honly entry (mem_of_find?_eq_some hfind) hscheme] at hpre
  exact hpre

theorem body_cut (h : schemeOf (trimSpace l) = some .shadowsocks) :
    (cut 35 (body "ss://" l)).1 = trimPrefix (lit "ss://") (cut 35 (trimSpace l)).1 := by
  rw [body, cut_trimPrefix (by decide +kernel) (shadowsocks_starts h)]

theorem aligned_iff {p p' : Parts} (hp : parts env l = some p) (hp' : parts env l' = some p')
    (hinj : r.identity = r'.identity → separators p = separators p' → p = p') (hserver : p = p' → SameServer r r')
    (hid : r.identity = r'.identity) :
    (Aligned env l l' ↔ parts env l = parts env l') ∧ (Aligned env l l' → SameServer r r') := by
  have hsame : Aligned env l l' → p = p' := by
    intro haligned
    rw [Aligned, hp, hp'] at haligned
    exact hinj hid (Option.some.inj haligned)
  refine ⟨⟨fun haligned => ?_, fun hparts => congrArg (Option.map separators) hparts⟩,
    fun haligned => hserver (hsame haligned)⟩
  rw [hp, hp', hsame haligned]

section urlForms

variable {build : Endpoint → ParseResult} {decode : Endpoint → Parts} {pre : Bytes} {e e' : Endpoint}

theorem url_faithful (hidentity : ∀ e, (build e).identity = pre ++ joined (decode e))
    (hremark : ∀ e remark, decode { e with remark := remark } = decode e)
    (hfree : ∀ l e, endpoint env l = some e → 63 ∉ (decode e).server)
    (hserver : ∀ e e', decode e = decode e' → SameServer (build e) (build e'))
    (he : endpoint env (trimSpace l) = some e) (he' : endpoint env (trimSpace l') = some e')
    (hp : parts env l = some (decode e)) (hp' : parts env l' = some (decode e')) :
    ((cut 35 (trimSpace l)).1 = (cut 35 (trimSpace l')).1 → (build e).identity = (build e').identity) ∧
      ((build e).identity = (build e').identity → (Aligned env l l' ↔ parts env l = parts env l') ∧
        (Aligned env l l' → SameServer (build e) (build e'))) := by
  refine ⟨fun hsame => ?_, aligned_iff hp hp' (fun hid hmarks => ?_) (hserver e e')⟩
  · rw [endpoint_remark he he' hsame, hidentity, hidentity, hremark e e'.remark]
  · rw [hidentity, hidentity] at hid
    exact joined_inj (hfree _ e he) (hfree _ e' he') (append_cancel_left hid) hmarks

end urlForms

theorem identity_faithful (env : Env) (l l' : Bytes) (r r' : ParseResult) (h : parseLink env l = some r)
    (h' : parseLink env l' = some r') (hscheme : schemeOf (trimSpace l) = schemeOf (trimSpace l')) :
    (RemarkOnly env l l' → r.identity = r'.identity) ∧
      (r.identity = r'.identity → (Aligned env l l' ↔ parts env l = parts env l') ∧
        (Aligned env l l' → SameServer r r')) := by
  obtain ⟨s, hs, hr⟩ := parseLink_scheme h
  obtain ⟨s', hs', hr'⟩ := parseLink_scheme h'
  obtain rfl : s = s' := Option.some.inj (hs.symm.trans (hscheme.trans hs'))
  rw [RemarkOnly, hs]
  cases s with
  | vmess =>
    obtain ⟨j, hj, rfl⟩ := Option.map_eq_some_iff.mp hr
    obtain ⟨j', hj', rfl⟩ := Option.map_eq_some_iff.mp hr'
    have hnone : parts env l = parts env l' := by rw [parts, parts, hs, hs']
    refine ⟨fun hsame => ?_, fun hid => ⟨⟨fun _ => hnone, fun hparts => congrArg (Option.map separators) hparts⟩,
      fun _ => vmess_server (vmess_identity hid)⟩⟩
    rw [body, body, hj, hj'] at hsame
    exact congrArg (fun c => lit "vmess:" ++ marshal (.obj c)) (Option.some.inj hsame)
  | shadowsocks =>
    obtain ⟨a, ha, rfl⟩ := Option.map_eq_some_iff.mp hr
    obtain ⟨a', ha', rfl⟩ := Option.map_eq_some_iff.mp hr'
    have hp : parts env l = some (accountParts a) := by
      rw [parts, hs]
      exact congrArg (Option.map accountParts) ha
    have hp' : parts env l' = some (accountParts a') := by
      rw [parts, hs']
      exact congrArg (Option.map accountParts) ha'
    refine ⟨fun hsame => ?_, aligned_iff hp hp' account_inj
      (shadowsocks_server (account_method ha) (account_method ha'))⟩
    have hcut : (cut 35 (body "ss://" l)).1 = (cut 35 (body "ss://" l')).1 := by
      rw [body_cut hs, body_cut hs', hsame]
    rw [account_remark ha ha' hcut]
    rfl
  | vless =>
    obtain ⟨e, he, rfl⟩ := Option.map_eq_some_iff.mp hr
    obtain ⟨e', he', rfl⟩ := Option.map_eq_some_iff.mp hr'
    exact url_faithful vless_identity (fun _ _ => rfl) (fun _ _ => server_free) (fun _ _ => vless_server) he he'
      (by rw [parts, hs, he]; rfl) (by rw [parts, hs', he']; rfl)
  | trojan =>
    obtain ⟨e, he, rfl⟩ := Option.map_eq_some_iff.mp hr
    obtain ⟨e', he', rfl⟩ := Option.map_eq_some_iff.mp hr'
    exact url_faithful trojan_identity (fun _ _ => rfl) (fun _ _ => server_free) (fun _ _ => trojan_server) he he'
      (by rw [parts, hs, he]; rfl) (by rw [parts, hs', he']; rfl)
  | hysteria2 =>
    obtain ⟨e, he, rfl⟩ := Option.map_eq_some_iff.mp hr
    obtain ⟨e', he', rfl⟩ := Option.map_eq_some_iff.mp hr'
    exact url_faithful hysteria2_identity (fun _ _ => rfl) (fun _ _ => server_free) (fun _ _ => hysteria2_server)
      he he' (by rw [parts, hs, he]; rfl) (by rw [parts, hs', he']; rfl)
  | wireguard =>
    obtain ⟨e, he, rfl⟩ := Option.map_eq_some_iff.mp hr
    obtain ⟨e', he', rfl⟩ := Option.map_eq_some_iff.mp hr'
    exact url_faithful wireguard_identity (fun _ _ => rfl) (fun _ _ => wireguardEndpoint_free)
      (fun _ _ => wireguard_server) he he' (by rw [parts, hs, he]; rfl) (by rw [parts, hs', he']; rfl)

def bareEnv : Env where
  hosts := ⟨fun _ => false, false⟩
  decodeJson := fun _ => none
  truncate := fun _ => 0

def userLink : Bytes := lit "vless://u%40a%3A443%3Fx%3Dy@b:443?z=w"

def valueLink : Bytes := lit "vless://u@a:443?x=y%40b:443%3Fz%3Dw"

theorem links_collide : ∃ (h : (parseLink bareEnv userLink).isSome) (h' : (parseLink bareEnv valueLink).isSome),
    schemeOf (trimSpace userLink) = schemeOf (trimSpace valueLink) ∧
      ((parseLink bareEnv userLink).get h).identity = ((parseLink bareEnv valueLink).get h').identity ∧
        textAt (serverOf (((parseLink bareEnv userLink).get h).outbound.del "tag")) "address" ≠
          textAt (serverOf (((parseLink bareEnv valueLink).get h').outbound.del "tag")) "address" := by
  decide +kernel

theorem identity_collides : ∃ l l' r r', parseLink bareEnv l = some r ∧ parseLink bareEnv l' = some r' ∧
    schemeOf (trimSpace l) = schemeOf (trimSpace l') ∧ r.identity = r'.identity ∧ ¬ SameServer r r' := by
  obtain ⟨huser, hvalue, hscheme, hid, haddress⟩ := links_collide
  exact ⟨userLink, valueLink, _, _, (Option.some_get huser).symm, (Option.some_get hvalue).symm, hscheme, hid,
    fun hsame => haddress (congrArg (fun o => textAt (serverOf o) "address") hsame)⟩

def oldLink : Bytes := lit "vless://u@a:443?type=ws#old"

def newLink : Bytes := lit "vless://u@a:443?type=ws#new"

theorem identity_faithful_renamed : ∃ r r', parseLink bareEnv oldLink = some r ∧
    parseLink bareEnv newLink = some r' ∧ r.identity = r'.identity ∧ SameServer r r' := by
  have hfacts : (parseLink bareEnv oldLink).isSome ∧ (parseLink bareEnv newLink).isSome ∧
      schemeOf (trimSpace oldLink) = some .vless ∧ schemeOf (trimSpace newLink) = some .vless ∧
      (cut 35 (trimSpace oldLink)).1 = (cut 35 (trimSpace newLink)).1 ∧
      (parts bareEnv oldLink).map separators = (parts bareEnv newLink).map separators := by
    decide +kernel
  obtain ⟨hold, hnew, hscheme, hscheme', hremark, haligned⟩ := hfacts
  have hfaithful := identity_faithful bareEnv _ _ _ _ (Option.some_get hold).symm (Option.some_get hnew).symm
    (hscheme.trans hscheme'.symm)
  have hid := hfaithful.1 (by rw [RemarkOnly, hscheme]; exact hremark)
  exact ⟨_, _, (Option.some_get hold).symm, (Option.some_get hnew).symm, hid, (hfaithful.2 hid).2 haligned⟩

end faithful

end LinkParser

end QuiPanel
