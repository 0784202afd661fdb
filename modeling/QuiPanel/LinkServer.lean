import QuiPanel.LinkIdentity

namespace QuiPanel

namespace LinkParser

open ByteText JsonText

section numbers

variable {env : Env}

def integerPart (text : List Char) : Option Int :=
  if 'e' ∈ text ∨ 'E' ∈ text then none
  else
    let digits := fun cs : List Char => (digitsValue ((cs.takeWhile (· ≠ '.')).flatMap String.utf8EncodeChar) : Int)
    match text with
    | '-' :: magnitude => some (-digits magnitude)
    | _ => some (digits text)

structure Truncates (env : Env) : Prop where
  whole : ∀ x n, integerPart x.text = some n → n < 2 ^ 53 → -2 ^ 53 < n → env.truncate x = n
  other : ∀ x, (∀ n, integerPart x.text = some n → 2 ^ 53 ≤ n ∨ n ≤ -2 ^ 53) →
    env.truncate x ≤ 0 ∨ 2 ^ 53 ≤ env.truncate x

def Port (n : Int) : Prop := 1 ≤ n ∧ n ≤ 65535

theorem truncate_port (h : Truncates env) (x : Number) :
    Port (env.truncate x) ↔ ∃ n, integerPart x.text = some n ∧ Port n := by
  cases hx : integerPart x.text with
  | none =>
    have hother := h.other x fun n hn => by rw [hx] at hn; cases hn
    refine ⟨fun hport => ?_, fun ⟨n, hn, _⟩ => nomatch hn⟩
    rw [Port] at hport
    omega
  | some n =>
    by_cases hrange : n < 2 ^ 53 ∧ -2 ^ 53 < n
    · rw [h.whole x n hx hrange.1 hrange.2]
      exact ⟨fun hport => ⟨n, rfl, hport⟩, fun ⟨m, hm, hport⟩ => Option.some.inj hm ▸ hport⟩
    · have hother := h.other x fun m hm => by
        rw [hx] at hm
        cases hm
        omega
      refine ⟨fun hport => ?_, fun ⟨m, hm, hport⟩ => ?_⟩
      · rw [Port] at hport
        omega
      · cases hm
        rw [Port] at hport
        omega

theorem atoi_port (s : Bytes) : Port (atoi s).value ↔ ∃ p : Nat, numeral s = some p ∧ Port p := by
  cases hs : numeral s with
  | none =>
    have hneg := numeral_none hs
    refine ⟨fun hport => ?_, fun ⟨p, hp, _⟩ => nomatch hp⟩
    rw [Port] at hport
    omega
  | some p =>
    rw [numeral_some hs]
    split
    case isTrue =>
      exact ⟨fun hport => ⟨p, rfl, hport⟩, fun ⟨q, hq, hport⟩ => Option.some.inj hq ▸ hport⟩
    case isFalse hbig =>
      refine ⟨fun hport => ?_, fun ⟨q, hq, hport⟩ => ?_⟩
      · rw [Port] at hport
        dsimp only at hport
        omega
      · cases hq
        rw [Port] at hport
        omega

theorem atoi_written {s : Bytes} {p : Nat} (h : numeral s = some p) (hport : Port p) : (atoi s).value = p := by
  rw [Port] at hport
  rw [numeral_some h, if_pos (by omega)]

end numbers

section links

def portValue (j : Fields Tree) : Option Int :=
  match j.get "port" with
  | some (.num x) => integerPart x.text
  | some (.str s) => (numeral (utf8 s.toList)).map Nat.cast
  | _ => none

def writtenHost (env : Env) (l : Bytes) : Option Bytes :=
  match schemeOf (trimSpace l) with
  | none => none
  | some .vmess => (vmessFields env (body "vmess://" l)).map fun j => getString j "add" []
  | some .shadowsocks => (ssAccount (body "ss://" l)).map Account.host
  | some _ => (endpoint env (trimSpace l)).map Endpoint.host

def writtenPort (env : Env) (l : Bytes) : Option Int :=
  match schemeOf (trimSpace l) with
  | none => none
  | some .vmess => (vmessFields env (body "vmess://" l)).bind portValue
  | some .shadowsocks => (ssAccount (body "ss://" l)).bind fun a => (numeral a.port).map Nat.cast
  | some _ => (endpoint env (trimSpace l)).bind fun e => (numeral e.port).map Nat.cast

def Bracketed (host : Bytes) : Prop := host.head? = some 91 ∧ host.getLast? = some 93

def DialsAt (text host : Bytes) (port : Int) : Prop :=
  (58 ∉ host ∨ Bracketed host) ∧ ∃ digits, text = host ++ 58 :: digits ∧ digits ≠ [] ∧ digits.all decimal = true ∧
    (digitsValue digits : Int) = port

def Dials (outbound : Object) (host : Bytes) (port : Int) : Prop :=
  if textAt outbound "protocol" = lit "wireguard" then DialsAt (textAt (serverOf outbound) "endpoint") host port
  else textAt (serverOf outbound) "address" = host ∧ numberAt (serverOf outbound) "port" = port

def Dialable (env : Env) (l : Bytes) (r : ParseResult) : Prop :=
  ∃ host port, Dials r.outbound host port ∧ host ≠ [] ∧ Port port ∧
    ∀ p, writtenPort env l = some p → Port p → port = p

def WritesHost (env : Env) (l : Bytes) : Prop := ∃ host, writtenHost env l = some host ∧ host ≠ []

def WritesPort (env : Env) (l : Bytes) : Prop := ∃ p, writtenPort env l = some p ∧ Port p

def Loadable (env : Env) (l : Bytes) : Prop :=
  match schemeOf (trimSpace l) with
  | some .vmess | some .shadowsocks => WritesHost env l ∧ WritesPort env l
  | some .wireguard => ∃ e, endpoint env (trimSpace l) = some e ∧
    ((e.port ≠ [] ∧ e.host ≠ [] ∧ (58 ∉ e.host ∨ Bracketed e.host) ∧ WritesPort env l) ∨
      (e.port = [] ∧ ∃ host port, DialsAt e.host host port ∧ host ≠ [] ∧ Port port))
  | _ => WritesHost env l ∧ ∀ p, writtenPort env l = some p → p ≤ 65535 ∨ 2 ^ 63 ≤ p

end links

section dialing

variable {env : Env} {l : Bytes} {r : ParseResult} {e : Endpoint} {host : Bytes} {port : Int}

def plainProtocols : List String := ["vmess", "vless", "trojan", "shadowsocks", "hysteria"]

theorem plain_dials : ∀ name ∈ plainProtocols, lit name ≠ lit "wireguard" := by decide +kernel

theorem dials_plain {outbound : Object} {name : String} (h : textAt outbound "protocol" = lit name)
    (hname : name ∈ plainProtocols) : Dials outbound host port ↔
      textAt (serverOf outbound) "address" = host ∧ numberAt (serverOf outbound) "port" = port := by
  rw [Dials, if_neg (h ▸ plain_dials name hname)]

theorem vmess_dials (j : Fields Tree) : Dials (vmessOutbound env j) host port ↔
    getString j "add" [] = host ∧ num env (j.get "port") = port :=
  @dials_plain host port (vmessOutbound env j) "vmess" rfl (.head _)

theorem shadowsocks_dials (a : Account) : Dials (shadowsocksResult a).outbound host port ↔
    a.host = host ∧ (atoi a.port).value = port :=
  @dials_plain host port (shadowsocksResult a).outbound "shadowsocks" rfl (.tail _ (.tail _ (.tail _ (.head _))))

theorem vless_dials :
    Dials (vlessResult env e).outbound host port ↔ e.host = host ∧ defaultPort e.port 443 = port :=
  @dials_plain host port (vlessResult env e).outbound "vless" rfl (.tail _ (.head _))

theorem trojan_dials :
    Dials (trojanResult env e).outbound host port ↔ e.host = host ∧ defaultPort e.port 443 = port :=
  @dials_plain host port (trojanResult env e).outbound "trojan" rfl (.tail _ (.tail _ (.head _)))

theorem hysteria2_dials :
    Dials (hysteria2Result env e).outbound host port ↔ e.host = host ∧ defaultPort e.port 443 = port :=
  @dials_plain host port (hysteria2Result env e).outbound "hysteria" rfl
    (.tail _ (.tail _ (.tail _ (.tail _ (.head _)))))

theorem wireguard_peer (e : Endpoint) :
    (serverOf (wireguardResult e).outbound).get "endpoint" = some (str (wireguardEndpoint e)) := by
  have hpeers : (wireguardSettings e).get "peers" = some (.arr [.obj (wireguardPeer e)]) := by
    rw [wireguardSettings, putNumber, Fields.get_putIf_ne (by decide), Fields.get_putIf_ne (by decide)]
    rfl
  have hvnext : (wireguardSettings e).get "vnext" = none := by
    rw [wireguardSettings, putNumber, Fields.get_putIf_ne (by decide), Fields.get_putIf_ne (by decide)]
    rfl
  have hservers : (wireguardSettings e).get "servers" = none := by
    rw [wireguardSettings, putNumber, Fields.get_putIf_ne (by decide), Fields.get_putIf_ne (by decide)]
    rfl
  have hsettings : (wireguardResult e).outbound.get "settings" = some (.obj (wireguardSettings e)) := rfl
  have hserver : serverOf (wireguardResult e).outbound = wireguardPeer e := by
    rw [serverOf, hsettings]
    dsimp only
    rw [hvnext, hservers, hpeers]
    rfl
  rw [hserver, wireguardPeer, putNumber, putNonEmpty, Fields.get_putIf_ne (by decide),
    Fields.get_putIf_ne (by decide)]
  rfl

theorem wireguard_dials : Dials (wireguardResult e).outbound host port ↔ DialsAt (wireguardEndpoint e) host port := by
  have hprotocol : textAt (wireguardResult e).outbound "protocol" = lit "wireguard" := rfl
  rw [Dials, if_pos hprotocol, textAt, wireguard_peer]
  rfl

theorem default_port (text : Bytes) :
    Port (defaultPort text 443) ↔ ∀ p : Nat, numeral text = some p → p ≤ 65535 ∨ 2 ^ 63 ≤ p := by
  have hdefault : Port 443 := ⟨by decide, by decide⟩
  rw [defaultPort]
  cases hp : numeral text with
  | none =>
    rw [if_pos (.inr (.inr (numeral_none hp)))]
    exact ⟨fun _ p hnone => (nomatch hnone), fun _ => hdefault⟩
  | some p =>
    have hne : text ≠ [] := fun hnil => by
      rw [hnil] at hp
      cases hp
    rw [numeral_some hp]
    by_cases hbig : p < 2 ^ 63
    · rw [if_pos hbig]
      dsimp only
      by_cases hzero : (p : Int) ≤ 0
      · rw [if_pos (.inr (.inr hzero))]
        refine ⟨fun _ q hq => ?_, fun _ => hdefault⟩
        cases hq
        omega
      · rw [if_neg (not_or.mpr ⟨hne, not_or.mpr ⟨Bool.false_ne_true, hzero⟩⟩)]
        refine ⟨fun hport q hq => ?_, fun hrange => ?_⟩
        · cases hq
          rw [Port] at hport
          omega
        · have hle := hrange p rfl
          rw [Port]
          omega
    · rw [if_neg hbig, if_pos (.inr (.inl rfl))]
      refine ⟨fun _ q hq => ?_, fun _ => hdefault⟩
      cases hq
      omega

theorem default_written {text : Bytes} {p : Nat} (h : numeral text = some p) (hport : Port p) :
    defaultPort text 443 = p := by
  have hatoi := atoi_written h hport
  have hfailed : (atoi text).failed = false := by
    rw [Port] at hport
    rw [numeral_some h, if_pos (by omega)]
  rw [defaultPort, if_neg, hatoi]
  rw [hatoi, hfailed, not_or, not_or]
  rw [Port] at hport
  refine ⟨fun hnil => ?_, Bool.false_ne_true, by omega⟩
  rw [hnil] at h
  cases h

theorem dialsAt_iff {base digits : Bytes} (hne : digits ≠ []) (hdigits : digits.all decimal = true) :
    DialsAt (base ++ 58 :: digits) host port ↔
      base = host ∧ (58 ∉ host ∨ Bracketed host) ∧ (digitsValue digits : Int) = port := by
  have hfree : ∀ {ds : Bytes}, ds.all decimal = true → 58 ∉ ds := by
    intro ds hds hcolon
    cases List.all_eq_true.mp hds 58 hcolon
  constructor
  · rintro ⟨hcolon, ds, htext, _, hds, hvalue⟩
    obtain ⟨hhost, hsame⟩ := split_last (hfree hdigits) (hfree hds) htext
    exact ⟨hhost, hcolon, hsame ▸ hvalue⟩
  · rintro ⟨rfl, hcolon, hvalue⟩
    exact ⟨hcolon, digits, rfl, hne, hdigits, hvalue⟩

theorem dialable_plain {host0 : Bytes} {port0 : Int}
    (hdials : ∀ host port, Dials r.outbound host port ↔ host0 = host ∧ port0 = port)
    (hwritten : ∀ p, writtenPort env l = some p → Port p → port0 = p) :
    Dialable env l r ↔ host0 ≠ [] ∧ Port port0 := by
  constructor
  · rintro ⟨host, port, hd, hhost, hport, _⟩
    obtain ⟨rfl, rfl⟩ := (hdials host port).mp hd
    exact ⟨hhost, hport⟩
  · rintro ⟨hhost, hport⟩
    exact ⟨host0, port0, (hdials host0 port0).mpr ⟨rfl, rfl⟩, hhost, hport, hwritten⟩

theorem writesHost_iff (h : writtenHost env l = some host) : WritesHost env l ↔ host ≠ [] := by
  constructor
  · rintro ⟨other, hother, hne⟩
    rw [h] at hother
    cases hother
    exact hne
  · exact fun hne => ⟨host, h, hne⟩

theorem writesPort_iff {text : Bytes} (h : writtenPort env l = (numeral text).map Nat.cast) :
    WritesPort env l ↔ ∃ p : Nat, numeral text = some p ∧ Port p := by
  rw [WritesPort, h]
  constructor
  · rintro ⟨p, hp, hport⟩
    obtain ⟨q, hq, rfl⟩ := Option.map_eq_some_iff.mp hp
    exact ⟨q, hq, hport⟩
  · rintro ⟨p, hp, hport⟩
    exact ⟨p, Option.map_eq_some_iff.mpr ⟨p, hp, rfl⟩, hport⟩

theorem written_numeral {text : Bytes} {p : Int} (h : writtenPort env l = (numeral text).map Nat.cast)
    (hp : writtenPort env l = some p) : ∃ q : Nat, numeral text = some q ∧ p = q := by
  rw [h] at hp
  obtain ⟨q, hq, rfl⟩ := Option.map_eq_some_iff.mp hp
  exact ⟨q, hq, rfl⟩

theorem url_loadable (hhost : writtenHost env l = some e.host)
    (hport : writtenPort env l = (numeral e.port).map Nat.cast)
    (hdials : ∀ host port, Dials r.outbound host port ↔ e.host = host ∧ defaultPort e.port 443 = port) :
    Dialable env l r ↔
      WritesHost env l ∧ ∀ p, writtenPort env l = some p → p ≤ 65535 ∨ 2 ^ 63 ≤ p := by
  have hwritten : ∀ p, writtenPort env l = some p → Port p → defaultPort e.port 443 = p := by
    intro p hp hrange
    obtain ⟨q, hq, rfl⟩ := written_numeral hport hp
    exact default_written hq hrange
  rw [dialable_plain hdials hwritten, writesHost_iff hhost, default_port]
  refine and_congr_right fun _ => ⟨fun hrange p hp => ?_, fun hrange p hp => ?_⟩
  · obtain ⟨q, hq, rfl⟩ := written_numeral hport hp
    have hq' := hrange q hq
    omega
  · have hp' := hrange p (hport.trans (Option.map_eq_some_iff.mpr ⟨p, hp, rfl⟩))
    omega

theorem portValue_num (htruncates : Truncates env) (j : Fields Tree) :
    Port (num env (j.get "port")) ↔ ∃ p, portValue j = some p ∧ Port p := by
  have hzero : ¬ Port 0 := fun hport => absurd hport.1 (by decide)
  rw [portValue]
  cases j.get "port" with
  | none => exact ⟨fun hport => absurd hport hzero, fun ⟨p, hp, _⟩ => nomatch hp⟩
  | some t =>
    cases t with
    | num x => exact truncate_port htruncates x
    | str s =>
      rw [num, atoi_port]
      constructor
      · rintro ⟨p, hp, hport⟩
        exact ⟨p, Option.map_eq_some_iff.mpr ⟨p, hp, rfl⟩, hport⟩
      · rintro ⟨p, hp, hport⟩
        obtain ⟨q, hq, rfl⟩ := Option.map_eq_some_iff.mp hp
        exact ⟨q, hq, hport⟩
    | null => exact ⟨fun hport => absurd hport hzero, fun ⟨p, hp, _⟩ => nomatch hp⟩
    | bool b => exact ⟨fun hport => absurd hport hzero, fun ⟨p, hp, _⟩ => nomatch hp⟩
    | arr elems => exact ⟨fun hport => absurd hport hzero, fun ⟨p, hp, _⟩ => nomatch hp⟩
    | obj fields => exact ⟨fun hport => absurd hport hzero, fun ⟨p, hp, _⟩ => nomatch hp⟩

theorem portValue_written (htruncates : Truncates env) {j : Fields Tree} {p : Int} (h : portValue j = some p)
    (hport : Port p) : num env (j.get "port") = p := by
  rw [portValue] at h
  rw [Port] at hport
  split at h
  case h_1 x hx =>
    rw [hx]
    exact htruncates.whole x p h (by omega) (by omega)
  case h_2 s hs =>
    obtain ⟨q, hq, rfl⟩ := Option.map_eq_some_iff.mp h
    rw [hs]
    exact atoi_written hq hport
  case h_3 => cases h

theorem wireguard_loadable (he : endpoint env (trimSpace l) = some e)
    (hport : writtenPort env l = (numeral e.port).map Nat.cast) :
    Dialable env l (wireguardResult e) ↔
      ((e.port ≠ [] ∧ e.host ≠ [] ∧ (58 ∉ e.host ∨ Bracketed e.host) ∧ WritesPort env l) ∨
        (e.port = [] ∧ ∃ host port, DialsAt e.host host port ∧ host ≠ [] ∧ Port port)) := by
  by_cases hempty : e.port = []
  · have hnone : writtenPort env l = none := by rw [hport, hempty]; rfl
    have hendpoint : wireguardEndpoint e = e.host := by rw [wireguardEndpoint, if_pos hempty]
    constructor
    · rintro ⟨host, port, hd, hhost, hrange, _⟩
      rw [wireguard_dials, hendpoint] at hd
      exact .inr ⟨hempty, host, port, hd, hhost, hrange⟩
    · rintro (⟨hne, _⟩ | ⟨_, host, port, hd, hhost, hrange⟩)
      · exact absurd hempty hne
      · refine ⟨host, port, ?_, hhost, hrange, fun p hp => ?_⟩
        · rw [wireguard_dials, hendpoint]
          exact hd
        · rw [hnone] at hp
          cases hp
  · have hdigits := endpoint_port he
    have hendpoint : wireguardEndpoint e = e.host ++ 58 :: e.port := by rw [wireguardEndpoint, if_neg hempty]
    have hnumeral := numeral_digits hempty hdigits
    have hvalue : ∀ p, writtenPort env l = some p → p = digitsValue e.port := by
      intro p hp
      obtain ⟨q, hq, rfl⟩ := written_numeral hport hp
      rw [hnumeral] at hq
      cases hq
      rfl
    rw [writesPort_iff hport]
    constructor
    · rintro ⟨host, port, hd, hhost, hrange, _⟩
      rw [wireguard_dials, hendpoint, dialsAt_iff hempty hdigits] at hd
      obtain ⟨rfl, hcolon, rfl⟩ := hd
      exact .inl ⟨hempty, hhost, hcolon, digitsValue e.port, hnumeral, hrange⟩
    · rintro (⟨_, hhost, hcolon, q, hq, hrange⟩ | ⟨hnil, _⟩)
      · rw [hnumeral] at hq
        cases hq
        refine ⟨e.host, digitsValue e.port, ?_, hhost, hrange, fun p hp _ => (hvalue p hp).symm⟩
        rw [wireguard_dials, hendpoint, dialsAt_iff hempty hdigits]
        exact ⟨rfl, hcolon, rfl⟩
      · exact absurd hnil hempty

theorem accepted_dialable_iff (env : Env) (htruncates : Truncates env) (l : Bytes) (r : ParseResult)
    (h : parseLink env l = some r) : Dialable env l r ↔ Loadable env l := by
  obtain ⟨s, hs, hr⟩ := parseLink_scheme h
  rw [Loadable, hs]
  cases s with
  | vmess =>
    obtain ⟨j, hj, rfl⟩ := Option.map_eq_some_iff.mp hr
    have hbody : vmessFields env (body "vmess://" l) = some j := hj
    have hhost : writtenHost env l = some (getString j "add" []) := by
      rw [writtenHost, hs, hbody]
      rfl
    have hport : writtenPort env l = portValue j := by
      rw [writtenPort, hs, hbody]
      rfl
    have hwritten : ∀ p, writtenPort env l = some p → Port p → num env (j.get "port") = p :=
      fun p hp hrange => portValue_written htruncates (hport ▸ hp) hrange
    rw [dialable_plain (fun _ _ => vmess_dials j) hwritten, portValue_num htruncates, writesHost_iff hhost,
      WritesPort, hport]
  | shadowsocks =>
    obtain ⟨a, ha, rfl⟩ := Option.map_eq_some_iff.mp hr
    have hbody : ssAccount (body "ss://" l) = some a := ha
    have hhost : writtenHost env l = some a.host := by
      rw [writtenHost, hs, hbody]
      rfl
    have hport : writtenPort env l = (numeral a.port).map Nat.cast := by
      rw [writtenPort, hs, hbody]
      rfl
    have hwritten : ∀ p, writtenPort env l = some p → Port p → (atoi a.port).value = p := by
      intro p hp hrange
      obtain ⟨q, hq, rfl⟩ := written_numeral hport hp
      exact atoi_written hq hrange
    rw [dialable_plain (fun _ _ => shadowsocks_dials a) hwritten, atoi_port, writesHost_iff hhost,
      writesPort_iff hport]
  | vless =>
    obtain ⟨e, he, rfl⟩ := Option.map_eq_some_iff.mp hr
    exact url_loadable (by rw [writtenHost, hs, he]; rfl) (by rw [writtenPort, hs, he]; rfl) fun _ _ => vless_dials
  | trojan =>
    obtain ⟨e, he, rfl⟩ := Option.map_eq_some_iff.mp hr
    exact url_loadable (by rw [writtenHost, hs, he]; rfl) (by rw [writtenPort, hs, he]; rfl) fun _ _ => trojan_dials
  | hysteria2 =>
    obtain ⟨e, he, rfl⟩ := Option.map_eq_some_iff.mp hr
    exact url_loadable (by rw [writtenHost, hs, he]; rfl) (by rw [writtenPort, hs, he]; rfl)
      fun _ _ => hysteria2_dials
  | wireguard =>
    obtain ⟨e, he, rfl⟩ := Option.map_eq_some_iff.mp hr
    rw [wireguard_loadable he (by rw [writtenPort, hs, he]; rfl)]
    exact ⟨fun hcond => ⟨e, he, hcond⟩, fun ⟨e', he', hcond⟩ => Option.some.inj (he.symm.trans he') ▸ hcond⟩

def sampleJson : Bytes := lit "\x7b\"add\":\"a.com\",\"port\":443\x7d"

def sampleFields : Fields Tree :=
  [("add", .str "a.com"), ("port", .num ⟨['4', '4', '3'], List.all_eq_true.mp rfl, by decide⟩)]

def sampleEnv : Env where
  hosts := ⟨fun _ => false, false⟩
  decodeJson := fun raw => if raw = sampleJson then some (.obj sampleFields) else none
  truncate := fun x =>
    match integerPart x.text with
    | some n => if n < 2 ^ 53 ∧ -2 ^ 53 < n then n else 0
    | none => 0

theorem sampleEnv_truncates : Truncates sampleEnv where
  whole := by
    intro x n hx hlt hgt
    rw [sampleEnv]
    dsimp only
    rw [hx]
    exact if_pos ⟨hlt, hgt⟩
  other := by
    intro x hx
    refine .inl ?_
    rw [sampleEnv]
    dsimp only
    cases hpart : integerPart x.text with
    | none => exact le_refl 0
    | some n =>
      have hbig := hx n hpart
      dsimp only
      rw [if_neg (by omega)]

def sampleLink : Bytes := lit "vmess://eyJhZGQiOiJhLmNvbSIsInBvcnQiOjQ0M30="

theorem sampleLink_dialable : ∃ r, parseLink sampleEnv sampleLink = some r ∧ Dialable sampleEnv sampleLink r := by
  have hfacts : (parseLink sampleEnv sampleLink).isSome ∧ schemeOf (trimSpace sampleLink) = some .vmess ∧
      writtenHost sampleEnv sampleLink = some (lit "a.com") ∧ writtenPort sampleEnv sampleLink = some 443 ∧
      lit "a.com" ≠ [] := by
    decide +kernel
  obtain ⟨haccepted, hscheme, hhost, hport, hne⟩ := hfacts
  refine ⟨_, (Option.some_get haccepted).symm,
    (accepted_dialable_iff sampleEnv sampleEnv_truncates sampleLink _ (Option.some_get haccepted).symm).mpr ?_⟩
  rw [Loadable, hscheme]
  exact ⟨⟨_, hhost, hne⟩, _, hport, by decide, by decide⟩

def farLink : Bytes := lit "vless://u@h:99999"

theorem farLink_outbound : ∃ h : (parseLink sampleEnv farLink).isSome,
    textAt ((parseLink sampleEnv farLink).get h).outbound "protocol" = lit "vless" ∧
      numberAt (serverOf ((parseLink sampleEnv farLink).get h).outbound) "port" = 99999 := by
  decide +kernel

theorem farLink_not_dialable : ∃ l r, parseLink sampleEnv l = some r ∧ ¬ Dialable sampleEnv l r := by
  obtain ⟨haccepted, hprotocol, hport⟩ := farLink_outbound
  refine ⟨farLink, _, (Option.some_get haccepted).symm, ?_⟩
  rintro ⟨host, port, hdials, _, hrange, _⟩
  have hread := ((dials_plain hprotocol (.tail _ (.head _))).mp hdials).2
  rw [hport] at hread
  cases hread
  exact absurd hrange.2 (by decide)

end dialing

end LinkParser

end QuiPanel
