import QuiPanel.Library.ByteText

namespace Url

open ByteText

inductive Mode
  | userPassword
  | host
  | zone
  | path
  | queryComponent
  | fragment
  deriving DecidableEq

structure Hosts where
  isIPv6 : Bytes → Bool
  strictColons : Bool

def isHex (c : UInt8) : Bool := decimal c || (97 ≤ c && c ≤ 102) || (65 ≤ c && c ≤ 70)

def unhex (c : UInt8) : UInt8 :=
  if decimal c then c - 48 else if 97 ≤ c then c - 87 else c - 55

def hostMarks : Bytes := lit "!$&'()*+,;=:[]<>\"-_.~"

def hostByte (c : UInt8) : Bool := lowerLetter c || upperLetter c || decimal c || hostMarks.contains c

def escaped (a b : UInt8) : UInt8 := unhex a * 16 + unhex b

def escapeAllowed (mode : Mode) (a b : UInt8) : Bool :=
  match mode with
  | .host => 8 ≤ unhex a || (a == 50 && b == 53)
  | .zone => (a == 50 && b == 53) || escaped a b == 32 || hostByte (escaped a b)
  | _ => true

def byteAllowed (mode : Mode) (c : UInt8) : Bool :=
  match mode with
  | .host | .zone => 128 ≤ c || hostByte c
  | _ => true

def unescape (mode : Mode) : Bytes → Option Bytes
  | [] => some []
  | 37 :: a :: b :: s =>
    if isHex a && isHex b && escapeAllowed mode a b then
      (unescape mode s).map (escaped a b :: ·)
    else none
  | c :: s =>
    if c = 37 then none
    else if c = 43 ∧ mode = .queryComponent then (unescape mode s).map (32 :: ·)
    else if byteAllowed mode c then (unescape mode s).map (c :: ·)
    else none

def queryUnescape (s : Bytes) : Option Bytes := unescape .queryComponent s

structure Userinfo where
  username : Bytes
  password : Option Bytes

structure URL where
  scheme : Bytes
  user : Option Userinfo
  host : Bytes
  path : Bytes
  rawQuery : Bytes
  fragment : Bytes

def schemeMark (c : UInt8) : Bool := decimal c || c == 43 || c == 45 || c == 46

def schemeEnd : Bool → Bytes → Option (Bytes × Bytes)
  | _, [] => none
  | first, c :: s =>
    if lowerLetter c || upperLetter c || (schemeMark c && !first) then
      (schemeEnd false s).map fun r => (c :: r.1, r.2)
    else if c = 58 ∧ first = false then some ([], s)
    else none

def lower (c : UInt8) : UInt8 := if upperLetter c then c + 32 else c

def validOptionalPort (port : Bytes) : Bool :=
  match port with
  | [] => true
  | c :: digits => c == 58 && digits.all decimal

def splitZone : Bytes → Option (Bytes × Bytes)
  | [] => none
  | c :: s =>
    if [37, 50, 53].isPrefixOf (c :: s) then some ([], c :: s)
    else (splitZone s).map fun r => (c :: r.1, r.2)

def unescapeLiteral (hostname : Bytes) : Option Bytes :=
  match splitZone hostname with
  | none => unescape .host hostname
  | some (address, zone) => do
    let hostPart ← unescape .host address
    let zonePart ← unescape .zone zone
    pure (hostPart ++ zonePart)

def parseHost (hosts : Hosts) (host : Bytes) : Option Bytes :=
  match host with
  | 91 :: inner => do
    let (hostname, colonPort) ← cutLast 93 inner
    let literal ← unescapeLiteral hostname
    if 91 ∈ inner ∨ validOptionalPort colonPort = false ∨ hosts.isIPv6 literal = false then none
    else pure (91 :: literal ++ 93 :: colonPort)
  | _ =>
    match cutLast 58 host with
    | none => if 91 ∈ host then none else unescape .host host
    | some (before, port) =>
      if 91 ∈ host ∨ port.all decimal = false ∨ (hosts.strictColons ∧ 58 ∈ before) then none
      else unescape .host host

def userMarks : Bytes := lit "-._:~!$&'()*+,;=%@"

def validUserinfo (s : Bytes) : Bool :=
  s.all fun c => lowerLetter c || upperLetter c || decimal c || userMarks.contains c

def parseUserinfo (userinfo : Bytes) : Option Userinfo :=
  if validUserinfo userinfo then
    match cut 58 userinfo with
    | (_, none) => (unescape .userPassword userinfo).map fun username => ⟨username, none⟩
    | (username, some password) => do
      let username ← unescape .userPassword username
      let password ← unescape .userPassword password
      pure ⟨username, some password⟩
  else none

def parseAuthority (hosts : Hosts) (authority : Bytes) : Option (Option Userinfo × Bytes) :=
  match cutLast 64 authority with
  | none => (parseHost hosts authority).map fun host => (none, host)
  | some (userinfo, host) => do
    let host ← parseHost hosts host
    let user ← parseUserinfo userinfo
    pure (some user, host)

def control (c : UInt8) : Bool := c < 32 || c == 127

def splitPath (s : Bytes) : Bytes × Bytes :=
  match cut 47 s with
  | (authority, none) => (authority, [])
  | (authority, some path) => (authority, 47 :: path)

def parseRest (hosts : Hosts) (scheme rest : Bytes) : Option URL :=
  let (body, query) := cut 63 rest
  let rawQuery := query.getD []
  match body with
  | 47 :: 47 :: authority => do
    let (user, host) ← parseAuthority hosts (splitPath authority).1
    let path ← unescape .path (splitPath authority).2
    pure ⟨scheme.map lower, user, host, path, rawQuery, []⟩
  | 47 :: path => (unescape .path (47 :: path)).map fun path => ⟨scheme.map lower, none, [], path, rawQuery, []⟩
  | _ => some ⟨scheme.map lower, none, [], [], rawQuery, []⟩

def parseAbsolute (hosts : Hosts) (rawURL : Bytes) : Option URL :=
  let (u, frag) := cut 35 rawURL
  if u.any control then none
  else do
    let (scheme, rest) ← schemeEnd true u
    let url ← parseRest hosts scheme rest
    let fragment ← unescape .fragment (frag.getD [])
    pure { url with fragment := fragment }

def splitHostPort (hostPort : Bytes) : Bytes × Bytes :=
  match cutLast 58 hostPort with
  | none => (hostPort, [])
  | some (host, port) => if port.all decimal then (host, port) else (hostPort, [])

def unbracket (host : Bytes) : Bytes :=
  match host with
  | 91 :: inner => if inner.getLast? = some 93 then inner.dropLast else host
  | _ => host

def URL.hostname (u : URL) : Bytes := unbracket (splitHostPort u.host).1

def URL.port (u : URL) : Bytes := (splitHostPort u.host).2

def URL.username (u : URL) : Bytes := (u.user.map Userinfo.username).getD []

abbrev Values := List (Bytes × Bytes)

def parsePair (pair : Bytes) : Option (Bytes × Bytes) :=
  if pair = [] ∨ 59 ∈ pair then none
  else do
    let key ← queryUnescape (cut 61 pair).1
    let value ← queryUnescape ((cut 61 pair).2.getD [])
    pure (key, value)

def URL.query (u : URL) : Values := (u.rawQuery.splitOn 38).filterMap parsePair

def get (p : Values) (key : Bytes) : Bytes := ((p.find? (·.1 = key)).map (·.2)).getD []

section hostText

variable {s t literal : Bytes} {c : UInt8}

def hostText (c : UInt8) : Bool := 128 ≤ c || hostByte c || c == 37 || c == 32

theorem unhex_lt (h : isHex c = true) : unhex c < 16 := by
  simp only [isHex, decimal, Bool.or_eq_true, Bool.and_eq_true, decide_eq_true_eq] at h
  simp only [unhex, decimal, Bool.and_eq_true, decide_eq_true_eq]
  grind

theorem hostText_escaped {a b : UInt8} (ha : isHex a = true) (hb : isHex b = true)
    (h : escapeAllowed .host a b = true ∨ escapeAllowed .zone a b = true) : hostText (escaped a b) = true := by
  have hha := unhex_lt ha
  have hhb := unhex_lt hb
  simp only [escapeAllowed, Bool.or_eq_true, Bool.and_eq_true, decide_eq_true_eq, beq_iff_eq] at h
  simp only [hostText, Bool.or_eq_true, decide_eq_true_eq, beq_iff_eq]
  rcases h with (h | ⟨rfl, rfl⟩) | ((⟨rfl, rfl⟩ | h) | h)
  · refine .inl (.inl (.inl ?_))
    rw [UInt8.le_iff_toNat_le] at h ⊢
    rw [UInt8.lt_iff_toNat_lt] at hha hhb
    rw [escaped, UInt8.toNat_add, UInt8.toNat_mul]
    simp only [UInt8.reduceToNat] at h hha hhb ⊢
    omega
  · exact .inl (.inr (by decide))
  · exact .inl (.inr (by decide))
  · exact .inr h
  · exact .inl (.inl (.inr h))

theorem hostText_cons {r : Option Bytes} (hc : hostText c = true)
    (hr : ∀ t', r = some t' → ∀ b ∈ t', hostText b = true) (h : r.map (c :: ·) = some t) :
    ∀ b ∈ t, hostText b = true := by
  obtain ⟨t', ht', rfl⟩ := Option.map_eq_some_iff.mp h
  exact List.forall_mem_cons.mpr ⟨hc, hr t' ht'⟩

theorem hostText_unescape {mode : Mode} (hmode : mode = .host ∨ mode = .zone) (h : unescape mode s = some t) :
    ∀ c ∈ t, hostText c = true := by
  fun_induction unescape mode s generalizing t
  case case1 =>
    cases h
    exact fun c hc => absurd hc List.not_mem_nil
  case case2 a b s hhex ih =>
    simp only [Bool.and_eq_true] at hhex
    refine hostText_cons (hostText_escaped hhex.1.1 hhex.1.2 ?_) (fun t' ht' => ih ht') h
    rcases hmode with rfl | rfl
    · exact .inl hhex.2
    · exact .inr hhex.2
  case case3 => cases h
  case case4 => cases h
  case case5 s _ _ hplus ih =>
    rcases hmode with rfl | rfl
    · cases hplus.2
    · cases hplus.2
  case case6 c s _ _ hplus hallowed ih =>
    have hbyte : 128 ≤ c || hostByte c := by
      rcases hmode with rfl | rfl
      · exact hallowed
      · exact hallowed
    refine hostText_cons ?_ (fun t' ht' => ih ht') h
    rw [hostText, hbyte]
    rfl
  case case7 => cases h

theorem hostText_unescapeLiteral {hostname : Bytes} (h : unescapeLiteral hostname = some t) :
    ∀ c ∈ t, hostText c = true := by
  rw [unescapeLiteral] at h
  split at h
  case h_1 => exact hostText_unescape (.inl rfl) h
  case h_2 address zone _ =>
    obtain ⟨hostPart, hhost, h⟩ := Option.bind_eq_some_iff.mp h
    obtain ⟨zonePart, hzone, h⟩ := Option.bind_eq_some_iff.mp h
    cases h
    exact List.forall_mem_append.mpr
      ⟨hostText_unescape (.inl rfl) hhost, hostText_unescape (.inr rfl) hzone⟩

theorem hostText_decimal (h : decimal c = true) : hostText c = true := by
  rw [hostText, hostByte, h]
  simp

theorem hostText_port (h : validOptionalPort s = true) : ∀ c ∈ s, hostText c = true := by
  cases s with
  | nil => exact fun c hc => absurd hc List.not_mem_nil
  | cons c digits =>
    rw [validOptionalPort, Bool.and_eq_true, beq_iff_eq, List.all_eq_true] at h
    obtain ⟨rfl, hdigits⟩ := h
    exact List.forall_mem_cons.mpr ⟨by decide, fun b hb => hostText_decimal (hdigits b hb)⟩

variable {hosts : Hosts}

theorem hostText_parseHost (h : parseHost hosts s = some t) : ∀ c ∈ t, hostText c = true := by
  rw [parseHost.eq_def] at h
  split at h
  case h_1 inner =>
    obtain ⟨⟨hostname, colonPort⟩, hcut, h⟩ := Option.bind_eq_some_iff.mp h
    obtain ⟨literal, hliteral, h⟩ := Option.bind_eq_some_iff.mp h
    split at h
    case isTrue => cases h
    case isFalse hok =>
      cases h
      simp only [not_or, Bool.not_eq_false] at hok
      rw [List.cons_append]
      exact List.forall_mem_cons.mpr ⟨by decide, List.forall_mem_append.mpr
        ⟨hostText_unescapeLiteral hliteral, List.forall_mem_cons.mpr ⟨by decide, hostText_port hok.2.1⟩⟩⟩
  case h_2 =>
    split at h
    case h_1 =>
      split at h
      case isTrue => cases h
      case isFalse => exact hostText_unescape (.inl rfl) h
    case h_2 =>
      split at h
      case isTrue => cases h
      case isFalse => exact hostText_unescape (.inl rfl) h

theorem hostText_parseAuthority {user : Option Userinfo}
    (h : parseAuthority hosts s = some (user, t)) : ∀ c ∈ t, hostText c = true := by
  rw [parseAuthority] at h
  split at h
  case h_1 =>
    obtain ⟨host, hhost, h⟩ := Option.map_eq_some_iff.mp h
    cases h
    exact hostText_parseHost hhost
  case h_2 =>
    obtain ⟨host, hhost, h⟩ := Option.bind_eq_some_iff.mp h
    obtain ⟨user, _, h⟩ := Option.bind_eq_some_iff.mp h
    cases h
    exact hostText_parseHost hhost

theorem hostText_parseRest {scheme rest : Bytes} {u : URL}
    (h : parseRest hosts scheme rest = some u) : ∀ c ∈ u.host, hostText c = true := by
  rw [parseRest.eq_def] at h
  dsimp only at h
  split at h
  case h_1 =>
    obtain ⟨⟨user, host⟩, hauthority, h⟩ := Option.bind_eq_some_iff.mp h
    obtain ⟨path, _, h⟩ := Option.bind_eq_some_iff.mp h
    cases h
    exact hostText_parseAuthority hauthority
  case h_2 =>
    obtain ⟨path, _, h⟩ := Option.map_eq_some_iff.mp h
    cases h
    exact fun c hc => absurd hc List.not_mem_nil
  case h_3 =>
    cases h
    exact fun c hc => absurd hc List.not_mem_nil

theorem parseAbsolute_spec {rawURL : Bytes} {u : URL} (h : parseAbsolute hosts rawURL = some u) :
    ∃ r url, schemeEnd true (cut 35 rawURL).1 = some r ∧ parseRest hosts r.1 r.2 = some url ∧
      u = { url with fragment := u.fragment } := by
  rw [parseAbsolute.eq_def] at h
  dsimp only at h
  split at h
  case isTrue => cases h
  case isFalse =>
    obtain ⟨r, hr, h⟩ := Option.bind_eq_some_iff.mp h
    obtain ⟨url, hurl, h⟩ := Option.bind_eq_some_iff.mp h
    obtain ⟨frag, _, h⟩ := Option.bind_eq_some_iff.mp h
    cases h
    exact ⟨r, url, hr, hurl, rfl⟩

theorem hostText_parse {rawURL : Bytes} {u : URL}
    (h : parseAbsolute hosts rawURL = some u) : ∀ c ∈ u.host, hostText c = true := by
  obtain ⟨r, url, _, hurl, hu⟩ := parseAbsolute_spec h
  have hhost := hostText_parseRest hurl
  rw [hu]
  exact hhost

theorem parseAbsolute_fragment {rawURL rawURL' : Bytes} {u u' : URL}
    (h : parseAbsolute hosts rawURL = some u) (h' : parseAbsolute hosts rawURL' = some u')
    (hsame : (cut 35 rawURL).1 = (cut 35 rawURL').1) : u' = { u with fragment := u'.fragment } := by
  obtain ⟨r, url, hscheme, hurl, hu⟩ := parseAbsolute_spec h
  obtain ⟨r', url', hscheme', hurl', hu'⟩ := parseAbsolute_spec h'
  rw [← hsame, hscheme] at hscheme'
  cases hscheme'
  rw [hurl] at hurl'
  cases hurl'
  rw [hu, hu']

end hostText

section hostPort

variable {host port hostPort : Bytes}

theorem splitHostPort_cases (hostPort : Bytes) :
    (∃ host port, splitHostPort hostPort = (host, port) ∧ hostPort = host ++ 58 :: port ∧
      58 ∉ port ∧ port.all decimal = true) ∨ splitHostPort hostPort = (hostPort, []) := by
  rw [splitHostPort]
  cases hcut : cutLast 58 hostPort with
  | none => exact .inr rfl
  | some split =>
    obtain ⟨host, port⟩ := split
    obtain ⟨hsplit, hfree⟩ := cutLast_spec hcut
    dsimp only
    by_cases hdigits : port.all decimal = true
    · rw [if_pos hdigits]
      exact .inl ⟨host, port, rfl, hsplit, hfree, hdigits⟩
    · rw [if_neg hdigits]
      exact .inr rfl

theorem unbracket_subset (host : Bytes) : unbracket host ⊆ host := by
  rw [unbracket.eq_def]
  split
  case h_1 inner =>
    split
    case isTrue => exact fun c hc => List.mem_cons_of_mem _ (List.dropLast_subset inner hc)
    case isFalse => exact fun c hc => hc
  case h_2 => exact fun c hc => hc

theorem hostname_subset (u : URL) : u.hostname ⊆ u.host := by
  intro c hc
  have hin := unbracket_subset _ hc
  rcases splitHostPort_cases u.host with ⟨host, port, hsplit, hhost, _⟩ | hwhole
  · rw [hsplit] at hin
    rw [hhost]
    exact List.mem_append_left _ hin
  · rw [hwhole] at hin
    exact hin

theorem port_digits (u : URL) : u.port.all decimal = true := by
  rw [URL.port]
  rcases splitHostPort_cases u.host with ⟨host, port, hsplit, _, _, hdigits⟩ | hwhole
  · rw [hsplit]
    exact hdigits
  · rw [hwhole]
    rfl

end hostPort

section lookup

theorem find?_insertionSort (p : Values) (key : Bytes) :
    (p.insertionSort fun a b => a.1 ≤ b.1).find? (·.1 = key) = p.find? (·.1 = key) := by
  have hinsert : ∀ (kv : Bytes × Bytes) (q : Values),
      (q.orderedInsert (fun a b => a.1 ≤ b.1) kv).find? (·.1 = key) = (kv :: q).find? (·.1 = key) := by
    intro kv q
    induction q with
    | nil => rfl
    | cons head q ih =>
      by_cases hle : kv.1 ≤ head.1
      · rw [List.orderedInsert_cons_of_le _ q hle]
      · rw [List.orderedInsert_of_not_le _ q hle, List.find?_cons, ih]
        by_cases hkv : kv.1 = key
        · have hhead : ¬ head.1 = key := fun h => hle (h.symm ▸ hkv ▸ List.le_refl key)
          simp [hkv, hhead]
        · simp [List.find?_cons, hkv]
  induction p with
  | nil => rfl
  | cons kv p ih =>
    rw [List.insertionSort_cons, hinsert, List.find?_cons, List.find?_cons, ih]

end lookup

end Url
