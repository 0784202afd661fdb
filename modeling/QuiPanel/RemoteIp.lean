import QuiPanel.Library.NetAddr

namespace QuiPanel

namespace RemoteIp

open ByteText NetAddr List

structure Request where
  remoteAddr : Bytes
  header : String → List Bytes

def Request.getHeader (r : Request) (name : String) : Bytes := (r.header name).headD []

def parseIPCandidate (s : Bytes) : Option Addr := (parseAddr (trimSpace s)).map unmap

def hostText (s : Bytes) : Option Bytes :=
  (splitHostPort s).bind fun hostPort => (parseIPCandidate hostPort.1).map text

def extractTrustedIP (s : Bytes) : Option Bytes :=
  let candidate := trimSpace s
  if candidate = [] then none
  else
    match parseIPCandidate candidate with
    | some ip => some (text ip)
    | none =>
      match hostText candidate with
      | some ip => some ip
      | none => if candidate.count 58 = 1 then hostText (91 :: (candidate ++ [93])) else none

def trustedProxyCIDRs (setting : Option Bytes) : Bytes :=
  match setting with
  | none => lit "127.0.0.1/32,::1/128"
  | some value => if trimSpace value = [] then lit "127.0.0.1/32,::1/128" else value

def matchesEntry (addr : Addr) (entry : Bytes) : Bool :=
  let entry := trimSpace entry
  if entry = [] then false
  else
    match parsePrefix entry with
    | some p => p.contains addr
    | none =>
      match parseAddr entry with
      | some proxyIP => unmap proxyIP == unmap addr
      | none => false

def isTrustedProxy (setting : Option Bytes) (ip : Bytes) : Bool :=
  match parseAddr ip with
  | none => false
  | some addr => ((trustedProxyCIDRs setting).splitOnP (· == 44)).any (matchesEntry addr)

def unknown : Bytes := lit "unknown"

def getRemoteIp (setting : Option Bytes) (r : Request) : Bytes :=
  match extractTrustedIP r.remoteAddr with
  | none => unknown
  | some remoteIP =>
    if isTrustedProxy setting remoteIP then
      match extractTrustedIP (r.getHeader "X-Real-IP") with
      | some ip => ip
      | none =>
        let xff := r.getHeader "X-Forwarded-For"
        if xff = [] then remoteIP else ((xff.splitOnP (· == 44)).findSome? extractTrustedIP).getD remoteIP
    else remoteIP

section forwarding

variable {setting : Option Bytes} {s v real ip a : Bytes} {vs : List Bytes} {b : Addr}

def appendTo (values : List Bytes) (real : Bytes) : Bytes := List.intercalate [44, 32] (values ++ [real])

def forwarded (peer real : Bytes) (client : String → List Bytes) : Request where
  remoteAddr := peer
  header := fun name => if name = "X-Forwarded-For" then [appendTo (client name) real] else client name

def claimed (values : List Bytes) : Option Bytes :=
  values.findSome? fun v => (v.splitOnP (· == 44)).findSome? extractTrustedIP

def Unforged (client : String → List Bytes) (a : Bytes) : Prop :=
  match extractTrustedIP ((client "X-Real-IP").headD []) with
  | some ip => ip = a
  | none => ∀ ip, claimed (client "X-Forwarded-For") = some ip → ip = a

def Canonical (ip : Bytes) : Prop := ∃ b, parseAddr ip = some b ∧ unmap b = b ∧ text b = ip

theorem canonical_candidate {b : Addr} (h : parseIPCandidate s = some b) : Canonical (text b) := by
  obtain ⟨a, -, rfl⟩ := Option.map_eq_some_iff.mp h
  exact ⟨unmap a, parseAddr_text (unmap_unmap a), unmap_unmap a, rfl⟩

theorem canonical_hostText (h : hostText s = some ip) : Canonical ip := by
  obtain ⟨hostPort, -, hmap⟩ := Option.bind_eq_some_iff.mp h
  obtain ⟨b, hb, rfl⟩ := Option.map_eq_some_iff.mp hmap
  exact canonical_candidate hb

theorem canonical_extract (h : extractTrustedIP s = some ip) : Canonical ip := by
  rw [extractTrustedIP] at h
  split at h
  · cases h
  split at h
  case h_1 b hb =>
    cases h
    exact canonical_candidate hb
  case h_2 =>
    split at h
    case h_1 hip =>
      cases h
      exact canonical_hostText hip
    case h_2 =>
      split at h
      · exact canonical_hostText h
      · cases h

theorem remote_ip_canonical (setting : Option Bytes) (r : Request) :
    getRemoteIp setting r = unknown ∨ Canonical (getRemoteIp setting r) := by
  rw [getRemoteIp]
  split
  case h_1 => exact .inl rfl
  case h_2 peer hpeer =>
    refine .inr ?_
    have hpeer := canonical_extract hpeer
    split
    · split
      case h_1 ip hip => exact canonical_extract hip
      case h_2 =>
        dsimp only
        split
        · exact hpeer
        · cases hfound : ((r.getHeader "X-Forwarded-For").splitOnP (· == 44)).findSome? extractTrustedIP with
          | none => exact hpeer
          | some ip =>
            obtain ⟨part, -, hip⟩ := exists_of_findSome?_eq_some hfound
            exact canonical_extract hip
    · exact hpeer

theorem extract_space (s : Bytes) : extractTrustedIP (32 :: s) = extractTrustedIP s := by
  have htrim : trimSpace ([32] ++ s) = trimSpace s := trimSpace_before (by decide) s
  rw [extractTrustedIP, extractTrustedIP, ← htrim]
  rfl

def comma (c : UInt8) : Bool := c == 44

def firstReadable (s : Bytes) : Option Bytes := (s.splitOnP (· == 44)).findSome? extractTrustedIP

theorem firstReadable_gather (s : Bytes) : firstReadable s = (gather comma extractTrustedIP s).head? :=
  head?_filterMap.symm

theorem firstReadable_comma (s t : Bytes) :
    firstReadable (s ++ 44 :: t) = (firstReadable s).or (firstReadable t) := by
  rw [firstReadable_gather, gather_break (by decide), head?_append, ← firstReadable_gather,
    ← firstReadable_gather]

theorem firstReadable_space (s : Bytes) : firstReadable (32 :: s) = firstReadable s := by
  have hfree : ∀ c ∈ [32], comma c = false := by
    rintro c hc
    rw [mem_singleton.mp hc]
    rfl
  have hspace := gather_before hfree extract_space s
  rw [firstReadable_gather, firstReadable_gather, ← hspace]
  rfl

theorem firstReadable_one (h : 44 ∉ s) : firstReadable s = extractTrustedIP s := by
  have hfree : ∀ c ∈ s, comma c = false := by
    intro c hc
    rw [comma, beq_eq_false_iff_ne]
    rintro rfl
    exact h hc
  rw [firstReadable_gather, gather_line hfree, Option.head?_toList]

theorem firstReadable_appendTo (hreal : 44 ∉ real) :
    firstReadable (appendTo vs real) = (claimed vs).or (extractTrustedIP real) := by
  induction vs with
  | nil =>
    rw [appendTo, nil_append, intercalate_singleton]
    exact firstReadable_one hreal
  | cons v vs ih =>
    obtain ⟨w, ws, hws⟩ : ∃ w ws, vs ++ [real] = w :: ws := exists_cons_of_ne_nil (by simp)
    have hsplit : appendTo (v :: vs) real = v ++ 44 :: (32 :: appendTo vs real) := by
      rw [appendTo, appendTo, cons_append, hws, intercalate_cons_cons, append_assoc]
      rfl
    rw [hsplit, firstReadable_comma, firstReadable_space, ih, ← Option.or_assoc]
    congr 1
    rw [claimed, claimed, findSome?_cons]
    cases hv : firstReadable v with
    | none =>
      rw [firstReadable] at hv
      rw [hv]
      rfl
    | some ip =>
      rw [firstReadable] at hv
      rw [hv]
      rfl

theorem getRemoteIp_untrusted {r : Request} (hpeer : extractTrustedIP r.remoteAddr = some ip)
    (h : isTrustedProxy setting ip = false) : getRemoteIp setting r = ip := by
  rw [getRemoteIp, hpeer]
  dsimp only
  rw [h, if_neg Bool.false_ne_true]

variable {client : String → List Bytes}

theorem getRemoteIp_forwarded {peer : Bytes} (hpeer : extractTrustedIP peer = some ip)
    (h : isTrustedProxy setting ip = true) (hcomma : 44 ∉ real) (hreal : extractTrustedIP real = some a) :
    getRemoteIp setting (forwarded peer real client) =
      ((extractTrustedIP ((client "X-Real-IP").headD [])).or (claimed (client "X-Forwarded-For"))).getD a := by
  have hxff : firstReadable (appendTo (client "X-Forwarded-For") real) =
      (claimed (client "X-Forwarded-For")).or (some a) := by
    rw [firstReadable_appendTo hcomma, hreal]
  have hne : appendTo (client "X-Forwarded-For") real ≠ [] := by
    intro hnil
    rw [hnil] at hxff
    have hempty : firstReadable [] = none := rfl
    rw [hempty] at hxff
    cases hc : claimed (client "X-Forwarded-For") with
    | none =>
      rw [hc] at hxff
      cases hxff
    | some ip =>
      rw [hc] at hxff
      cases hxff
  have hheader : (forwarded peer real client).getHeader "X-Forwarded-For" =
      appendTo (client "X-Forwarded-For") real := rfl
  have hother : (forwarded peer real client).getHeader "X-Real-IP" = (client "X-Real-IP").headD [] := rfl
  rw [getRemoteIp, show (forwarded peer real client).remoteAddr = peer from rfl, hpeer]
  dsimp only
  rw [h, if_pos rfl, hheader, hother, if_neg hne]
  cases extractTrustedIP ((client "X-Real-IP").headD []) with
  | some ip => rfl
  | none =>
    change (firstReadable (appendTo (client "X-Forwarded-For") real)).getD ip = _
    rw [hxff]
    cases claimed (client "X-Forwarded-For") with
    | none => rfl
    | some ip => rfl

theorem forwarded_honest {peer : Bytes} (hpeer : extractTrustedIP peer = some ip)
    (h : isTrustedProxy setting ip = true) (hcomma : 44 ∉ real) (hreal : extractTrustedIP real = some a) :
    getRemoteIp setting (forwarded peer real client) = a ↔ Unforged client a := by
  rw [getRemoteIp_forwarded hpeer h hcomma hreal]
  unfold Unforged
  cases extractTrustedIP ((client "X-Real-IP").headD []) with
  | some ip => simp
  | none =>
    cases claimed (client "X-Forwarded-For") with
    | none => simp
    | some ip => simp

def Matches (addr : Addr) (entry : Bytes) : Prop :=
  (∃ p, parsePrefix entry = some p ∧ p.contains addr = true) ∨
    (parsePrefix entry = none ∧ ∃ proxyIP, parseAddr entry = some proxyIP ∧ unmap proxyIP = addr)

theorem trusted_iff (setting : Option Bytes) (hb : unmap b = b) : isTrustedProxy setting (text b) = true ↔
    ∃ entry ∈ (trustedProxyCIDRs setting).splitOnP (· == 44), Matches b (trimSpace entry) := by
  have hmatch : ∀ entry, matchesEntry b entry = true ↔ Matches b (trimSpace entry) := by
    intro entry
    have hnil : ¬ Matches b [] := by
      rintro (⟨p, hp, _⟩ | ⟨_, proxyIP, hproxy, _⟩)
      · cases hp
      · cases hproxy
    rw [matchesEntry]
    split
    case isTrue hempty =>
      rw [hempty]
      exact ⟨fun heq => absurd heq Bool.false_ne_true, fun hm => absurd hm hnil⟩
    case isFalse =>
      rw [Matches]
      cases parsePrefix (trimSpace entry) with
      | some p => simp
      | none =>
        cases parseAddr (trimSpace entry) with
        | none => simp
        | some proxyIP => simp [hb]
  rw [isTrustedProxy, parseAddr_text hb]
  simp only [any_eq_true, hmatch]

end forwarding

section peers

variable {b : Addr} {port s : Bytes} {c : UInt8}

def plain (c : UInt8) : Bool := visible c && c != 91 && c != 93

theorem plain_spec (h : plain c = true) : visible c = true ∧ c ≠ 91 ∧ c ≠ 93 := by
  rw [plain, Bool.and_eq_true, Bool.and_eq_true, bne_iff_ne, bne_iff_ne, and_assoc] at h
  exact h

theorem hex_plain (h : Hex c) : plain c = true := by
  have hall : (List.range 16).all (fun d => plain (digit d)) = true := by decide +kernel
  obtain ⟨d, hd, rfl⟩ := h
  exact all_eq_true.mp hall d (mem_range.mpr hd)

structure Peer (b : Addr) : Prop where
  unmapped : unmap b = b
  zone : ∀ groups zone, b = .v6 groups zone → ∀ c ∈ zone, plain c = true

theorem decimal_plain (h : decimal c = true) : plain c = true ∧ c ≠ 58 := by
  simp only [decimal, Bool.and_eq_true, decide_eq_true_eq, UInt8.le_iff_toNat_le] at h
  simp only [plain, visible, Bool.and_eq_true, decide_eq_true_eq, bne_iff_ne, ne_eq, UInt8.le_iff_toNat_le,
    UInt8.lt_iff_toNat_lt, ← UInt8.toNat_inj]
  simp only [UInt8.reduceToNat] at h ⊢
  omega

theorem candidate_text (hb : unmap b = b) (hvisible : ∀ c ∈ text b, visible c = true) :
    parseIPCandidate (text b) = some b := by
  rw [parseIPCandidate, trimSpace_visible hvisible, parseAddr_text hb, Option.map_some, hb]

theorem extract_host {host : Bytes} (hvisible : ∀ c ∈ s, visible c = true) (hne : s ≠ []) (hnone : parseAddr s = none)
    (hsplit : splitHostPort s = some (host, port)) (hhost : parseIPCandidate host = some b) :
    extractTrustedIP s = some (text b) := by
  have htrim := trimSpace_visible hvisible
  have hcandidate : parseIPCandidate s = none := by rw [parseIPCandidate, htrim, hnone, Option.map_none]
  have htext : hostText s = some (text b) := by
    rw [hostText, hsplit]
    exact congrArg (Option.map text) hhost
  rw [extractTrustedIP, htrim, if_neg hne, hcandidate]
  dsimp only
  rw [htext]

theorem extract_peer (hb : Peer b) (hport : ∀ c ∈ port, decimal c = true) :
    extractTrustedIP (joinHostPort (text b) port) = some (text b) := by
  have hportPlain : ∀ c ∈ port, plain c = true ∧ c ≠ 58 := fun c hc => decimal_plain (hport c hc)
  have hfree : 58 ∉ port ∧ 91 ∉ port ∧ 93 ∉ port :=
    ⟨fun hc => (hportPlain _ hc).2 rfl, fun hc => (plain_spec (hportPlain _ hc).1).2.1 rfl,
      fun hc => (plain_spec (hportPlain _ hc).1).2.2 rfl⟩
  cases b with
  | v4 a b c d =>
    have hchars : ∀ x ∈ text4 a b c d, plain x = true ∧ x ≠ 58 := by
      intro x hx
      rcases text4_chars a b c d x hx with hhex | rfl
      · exact ⟨hex_plain hhex, not_colon hhex.plain⟩
      · exact ⟨by decide, by decide⟩
    have hvisible : ∀ x ∈ text4 a b c d, visible x = true := fun x hx => (plain_spec (hchars x hx).1).1
    have hcolon : 58 ∉ text4 a b c d := fun hx => (hchars _ hx).2 rfl
    rw [text, joinHostPort, if_neg hcolon]
    refine extract_host ?_ (by simp) (parseAddr_foreign4 a b c d mem_cons_self)
      (splitHostPort_plain ⟨hcolon, fun hx => (plain_spec (hchars _ hx).1).2.1 rfl,
        fun hx => (plain_spec (hchars _ hx).1).2.2 rfl⟩ hfree) (candidate_text (b := .v4 a b c d) rfl hvisible)
    intro x hx
    rw [mem_append, mem_cons] at hx
    rcases hx with hin | rfl | hin
    · exact hvisible x hin
    · decide
    · exact (plain_spec (hportPlain x hin).1).1
  | v6 groups zone =>
    have htext := text_v6 hb.unmapped
    have hchars : ∀ x ∈ text (.v6 groups zone), plain x = true := by
      intro x hx
      rw [htext, mem_append] at hx
      rcases hx with hin | hin
      · rcases groupsText_chars groups.val x hin with hhex | rfl
        · exact hex_plain hhex
        · decide
      · rw [zoneText] at hin
        split at hin
        · exact absurd hin not_mem_nil
        · rcases mem_cons.mp hin with rfl | hzone
          · decide
          · exact hb.zone groups zone rfl x hzone
    have hcolon : 58 ∈ text (.v6 groups zone) := htext ▸ mem_append_left _ (groupsText_colon groups)
    have hfirst : (text (.v6 groups zone) ++ 93 :: 58 :: port).find? special = some 58 := by
      rw [htext, append_assoc]
      exact find_colon (groupsText_chars groups.val) (groupsText_colon groups)
    rw [joinHostPort, if_pos hcolon]
    refine extract_host ?_ (cons_ne_nil _ _) (parseAddr_bracket _ hfirst)
      (splitHostPort_bracket ⟨fun hx => (plain_spec (hchars _ hx)).2.1 rfl,
        fun hx => (plain_spec (hchars _ hx)).2.2 rfl⟩ hfree) (candidate_text hb.unmapped fun x hx => (plain_spec (hchars x hx)).1)
    intro x hx
    rw [mem_cons, mem_append, mem_cons, mem_cons] at hx
    rcases hx with rfl | hin | rfl | rfl | hin
    · decide
    · exact (plain_spec (hchars x hin)).1
    · decide
    · decide
    · exact (plain_spec (hportPlain x hin).1).1

theorem remote_ip_decided (setting : Option Bytes) (hb : Peer b) (hport : ∀ c ∈ port, decimal c = true) :
    (isTrustedProxy setting (text b) = true ↔
      ∃ entry ∈ (trustedProxyCIDRs setting).splitOnP (· == 44), Matches b (trimSpace entry)) ∧
    (isTrustedProxy setting (text b) = false → ∀ r : Request, r.remoteAddr = joinHostPort (text b) port →
      getRemoteIp setting r = text b) ∧
    (isTrustedProxy setting (text b) = true → ∀ (client : String → List Bytes) (real a : Bytes), 44 ∉ real →
      extractTrustedIP real = some a →
      (getRemoteIp setting (forwarded (joinHostPort (text b) port) real client) = a ↔ Unforged client a)) := by
  have hpeer := extract_peer hb hport
  refine ⟨trusted_iff setting hb.unmapped, fun h r hr => ?_, fun h client real a hcomma hreal => ?_⟩
  · exact getRemoteIp_untrusted (hr ▸ hpeer) h
  · exact forwarded_honest hpeer h hcomma hreal

def posing (value : Bytes) : String → List Bytes := fun name => if name = "X-Real-IP" then [value] else []

theorem posing_facts :
    ((lit "80").all decimal = true ∧
      isTrustedProxy none (text (.v4 127 0 0 1)) = true ∧ isTrustedProxy none (text (.v4 10 0 0 1)) = false ∧
      extractTrustedIP (lit "127.0.0.1:80") = some (text (.v4 127 0 0 1)) ∧
      extractTrustedIP (lit "5.5.5.5") = some (lit "5.5.5.5")) ∧
    (getRemoteIp none (forwarded (lit "127.0.0.1:80") (lit "5.5.5.5") (posing (lit "1.1.1.1"))) = lit "1.1.1.1" ∧
      getRemoteIp none (forwarded (lit "127.0.0.1:80") (lit "5.5.5.5") (posing (lit "2.2.2.2"))) = lit "2.2.2.2" ∧
      isTrustedProxy (some (lit "::ffff:10.0.0.1")) (lit "10.0.0.1") = true ∧
      isTrustedProxy (some (lit "::ffff:10.0.0.0/104")) (lit "10.0.0.1") = false) := by
  decide +kernel

theorem remote_ip_decided_local : Peer (.v4 127 0 0 1) ∧
    (∀ client : String → List Bytes,
      getRemoteIp none (forwarded (joinHostPort (text (.v4 127 0 0 1)) (lit "80")) (lit "5.5.5.5") client) =
          lit "5.5.5.5" ↔
        Unforged client (lit "5.5.5.5")) ∧
    ∀ r : Request, r.remoteAddr = joinHostPort (text (.v4 10 0 0 1)) (lit "80") →
      getRemoteIp none r = text (.v4 10 0 0 1) := by
  obtain ⟨⟨hport, hlocal, hfar, _, hreal⟩, _⟩ := posing_facts
  have hpeer : ∀ a b c d, Peer (.v4 a b c d) := fun a b c d => ⟨rfl, fun _ _ heq => by cases heq⟩
  have hdigits : ∀ c ∈ lit "80", decimal c = true := fun c hc => all_eq_true.mp hport c hc
  exact ⟨hpeer 127 0 0 1,
    fun client => (remote_ip_decided none (hpeer 127 0 0 1) hdigits).2.2 hlocal client (lit "5.5.5.5") (lit "5.5.5.5")
      (by decide) hreal,
    (remote_ip_decided none (hpeer 10 0 0 1) hdigits).2.1 hfar⟩

theorem client_chooses_ip : ¬ ∀ (setting : Option Bytes) (peer ip real a : Bytes)
    (client client' : String → List Bytes), extractTrustedIP peer = some ip → isTrustedProxy setting ip = true → 44 ∉ real →
    extractTrustedIP real = some a →
    getRemoteIp setting (forwarded peer real client) = a ∧ getRemoteIp setting (forwarded peer real client') = a := by
  intro hclaim
  obtain ⟨⟨_, hlocal, _, hpeer, hreal⟩, hfirst, _⟩ := posing_facts
  have hsame := hclaim none (lit "127.0.0.1:80") (text (.v4 127 0 0 1)) (lit "5.5.5.5") (lit "5.5.5.5")
    (posing (lit "1.1.1.1")) (posing (lit "2.2.2.2")) hpeer hlocal (by decide) hreal
  rw [hfirst] at hsame
  exact absurd hsame.1 (by decide)

end peers

end RemoteIp

end QuiPanel
