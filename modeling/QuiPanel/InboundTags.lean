import QuiPanel.Ports

namespace QuiPanel

namespace InboundTags

open Ports

section frontend

def isWhiteSpace (c : Char) : Bool := (Text.isSpace c && c.toNat != 0x85) || c.toNat == 0xfeff

def trimBy (blank : Char → Bool) (s : String) : String :=
  String.ofList ((s.toList.dropWhile blank).reverse.dropWhile blank).reverse

def csvTransportsBy (blank : Char → Bool) (csv : String) : Transports :=
  let parts := (splitComma csv.toList).map fun part => trimBy blank (String.ofList part)
  ⟨parts.contains "tcp", parts.contains "udp"⟩

def inboundTransports (protocol : Protocol) (streamSettings settings : Option Json) : Transports :=
  if protocol = .hysteria ∨ protocol = .wireGuard then ⟨false, true⟩
  else
    let network := stringField streamSettings "network"
    let bits : Transports := if network = "kcp" ∨ network = "quic" then ⟨false, true⟩ else ⟨true, false⟩
    let bits :=
      if protocol = .shadowsocks ∨ protocol = .tunnel then
        let csv := stringField settings (if protocol = .tunnel then "allowedNetwork" else "network")
        if csv = "" then bits else csvTransportsBy isWhiteSpace csv
      else if protocol = .mixed ∧ boolField settings "udp" = true then { bits with udp := true }
      else bits
    if bits.isZero then ⟨true, false⟩ else bits

structure InboundTagInput where
  port : Int
  nodeId : Option Int
  protocol : Protocol
  streamSettings : Option Json
  settings : Option Json

def composeInboundTag (input : InboundTagInput) : String :=
  let bits := inboundTransports input.protocol input.streamSettings input.settings
  nodeTagPrefix input.nodeId ++ "in-" ++ toString input.port ++ "-" ++ bits.tagSuffix

def isAutoInboundTag (tag : String) (input : InboundTagInput) : Bool :=
  if tag = "" then true
  else
    let base := composeInboundTag input
    if tag = base then true
    else if (base ++ "-").toList.isPrefixOf tag.toList then
      let suffix := tag.toList.drop (base ++ "-").length
      suffix != [] && suffix.all Char.isDigit
    else false

end frontend

section specification

def form (ib : Inbound) : InboundTagInput := ⟨ib.port, ib.nodeId, ib.protocol, ib.streamSettings, ib.settings⟩

def candidate (ib : Inbound) : String := Ports.composeInboundTag ib.port ib.nodeId ib.transports

structure Mirrored (ib : Inbound) : Prop where
  proposed : composeInboundTag (form ib) = candidate (normalizeStreamSettings ib)
  recognised : ∀ tag, tag ≠ "" →
    isAutoInboundTag tag (form ib) = isAutoGeneratedTag tag ib.port ib.nodeId ib.transports

def listedTransports (ib : Inbound) : String :=
  match ib.protocol with
  | .shadowsocks => stringField ib.settings "network"
  | .tunnel => stringField ib.settings "allowedNetwork"
  | _ => ""

def keepsStream : Protocol → Bool
  | .vmess | .vless | .trojan | .shadowsocks | .hysteria | .wireGuard => true
  | _ => false

def Datagram (ib : Inbound) : Prop :=
  stringField ib.streamSettings "network" = "kcp" ∨ stringField ib.streamSettings "network" = "quic"

def names (blank : Char → Bool) (csv word : String) : Prop :=
  ∃ part ∈ splitComma csv.toList, trimBy blank (String.ofList part) = word

structure Plain (csv : String) : Prop where
  udp : names Text.isSpace csv "udp" ↔ names isWhiteSpace csv "udp"
  tcp : names Text.isSpace csv "udp" → (names Text.isSpace csv "tcp" ↔ names isWhiteSpace csv "tcp")

end specification

section parity

variable {ib : Inbound} {a b : Transports} {port : Int} {nodeId : Option Int} {csv tag : String}

theorem tagSuffix_injective (h : a.tagSuffix = b.tagSuffix) : a = b := by
  obtain ⟨t, u⟩ := a
  obtain ⟨t', u'⟩ := b
  revert h
  cases t <;> cases u <;> cases t' <;> cases u' <;> decide

theorem compose_iff : Ports.composeInboundTag port nodeId a = Ports.composeInboundTag port nodeId b ↔ a = b := by
  refine ⟨fun h => tagSuffix_injective ?_, fun h => by rw [h]⟩
  rw [Ports.composeInboundTag, Ports.composeInboundTag] at h
  exact (String.append_right_inj _).mp h

theorem composeInboundTag_form : composeInboundTag (form ib) =
    Ports.composeInboundTag ib.port ib.nodeId (inboundTransports ib.protocol ib.streamSettings ib.settings) :=
  rfl

theorem isAuto_eq (htag : tag ≠ "") (hbits : inboundTransports ib.protocol ib.streamSettings ib.settings = a) :
    isAutoInboundTag tag (form ib) = isAutoGeneratedTag tag ib.port ib.nodeId a := by
  rw [isAutoInboundTag, if_neg htag, isAutoGeneratedTag, composeInboundTag_form, hbits]
  by_cases hbase : tag = Ports.composeInboundTag ib.port ib.nodeId a
  · simp only [hbase, if_true, beq_self_eq_true, Bool.true_or]
  · simp only [hbase, if_false, beq_eq_false_iff_ne.mpr hbase, Bool.false_or]
    split
    case isTrue hpre => simp only [hpre, Bool.true_and]
    case isFalse hpre => simp only [eq_false_of_ne_true hpre, Bool.false_and]

def floor (bits : Transports) : Transports := if bits.isZero then ⟨true, false⟩ else bits

theorem contains_names {blank : Char → Bool} {word : String} :
    ((splitComma csv.toList).map fun part => trimBy blank (String.ofList part)).contains word = true ↔
      names blank csv word := by
  rw [List.contains_iff_mem, List.mem_map]
  rfl

theorem floor_iff : floor a = floor b ↔ (a.udp = b.udp ∧ (a.udp = true → a.tcp = b.tcp)) := by
  obtain ⟨t, u⟩ := a
  obtain ⟨t', u'⟩ := b
  cases t <;> cases u <;> cases t' <;> cases u' <;> decide

theorem csv_iff : floor (csvTransportsBy isWhiteSpace csv) = floor (Ports.csvTransports csv) ↔ Plain csv := by
  have hback : Ports.csvTransports csv = csvTransportsBy Text.isSpace csv := rfl
  have hudp : ∀ blank, (csvTransportsBy blank csv).udp = true ↔ names blank csv "udp" := fun _ => contains_names
  have htcp : ∀ blank, (csvTransportsBy blank csv).tcp = true ↔ names blank csv "tcp" := fun _ => contains_names
  rw [hback, eq_comm, floor_iff]
  constructor
  · rintro ⟨hu, ht⟩
    refine ⟨?_, fun hnamed => ?_⟩
    · rw [← hudp, ← hudp, hu]
    · rw [← htcp, ← htcp, ht ((hudp _).mpr hnamed)]
  · intro h
    refine ⟨Bool.eq_iff_iff.mpr ?_, fun hnamed => Bool.eq_iff_iff.mpr ?_⟩
    · rw [hudp, hudp]
      exact h.udp
    · rw [htcp, htcp]
      exact h.tcp ((hudp _).mp hnamed)

theorem plain_blank : Plain "" := by
  have hnone : ∀ blank word, word ≠ "" → ¬ names blank "" word := by
    rintro blank word hne ⟨part, hpart, rfl⟩
    obtain rfl := List.mem_singleton.mp hpart
    exact hne rfl
  refine ⟨⟨fun h => absurd h (hnone _ _ (by decide)), fun h => absurd h (hnone _ _ (by decide))⟩, fun h => ?_⟩
  exact absurd h (hnone _ _ (by decide))

def networkBits (network : String) : Transports :=
  if network = "kcp" ∨ network = "quic" then ⟨false, true⟩ else ⟨true, false⟩

def chosen (csvBits : String → Transports) (protocol : Protocol) (network : String) (settings : Option Json) :
    Transports :=
  match protocol with
  | .shadowsocks | .tunnel =>
    let csv := stringField settings (if protocol = .tunnel then "allowedNetwork" else "network")
    if csv = "" then networkBits network else csvBits csv
  | .mixed =>
    if boolField settings "udp" = true then { networkBits network with udp := true } else networkBits network
  | _ => networkBits network

theorem frontend_eq {p : Protocol} {ss st : Option Json} (hp : p ≠ .hysteria ∧ p ≠ .wireGuard) :
    inboundTransports p ss st =
      floor (chosen (csvTransportsBy isWhiteSpace) p (stringField ss "network") st) := by
  rw [inboundTransports, if_neg (not_or.mpr hp)]
  cases p <;> first | rfl | (simp only [reduceCtorEq, or_self, if_false, true_and]; rfl)

theorem backend_eq {p : Protocol} {ss st : Option Json} (hp : p ≠ .hysteria ∧ p ≠ .wireGuard) (hm : p ≠ .mtproto) :
    Ports.inboundTransports p ss st =
      floor (chosen Ports.csvTransports p (stringField ss "network") st) := by
  cases p <;> first | rfl | exact absurd rfl hp.1 | exact absurd rfl hp.2 | exact absurd rfl hm

variable {network : String}

theorem floor_networkBits : floor (networkBits network) = networkBits network := by
  rw [networkBits]
  split <;> rfl

theorem networkBits_iff :
    networkBits network = networkBits "" ↔ ¬ (network = "kcp" ∨ network = "quic") := by
  have hnone : networkBits "" = ⟨true, false⟩ := by decide
  rw [hnone, networkBits]
  split
  case isTrue h => simp [h]
  case isFalse h => simp [h]

theorem normalized_transports : (normalizeStreamSettings ib).transports =
    Ports.inboundTransports ib.protocol (if keepsStream ib.protocol then ib.streamSettings else none)
      ib.settings := by
  rw [normalizeStreamSettings]
  cases hp : ib.protocol <;> simp only [Inbound.transports, hp] <;> rfl

theorem bits_csv :
    floor (if csv = "" then networkBits network else csvTransportsBy isWhiteSpace csv) =
      floor (if csv = "" then networkBits network else Ports.csvTransports csv) ↔ Plain csv := by
  by_cases hcsv : csv = ""
  · simp only [hcsv, if_true, true_iff]
    exact plain_blank
  · simp only [hcsv, if_false]
    exact csv_iff

theorem bits_proposed :
    inboundTransports ib.protocol ib.streamSettings ib.settings = (normalizeStreamSettings ib).transports ↔
      (keepsStream ib.protocol = false → listedTransports ib = "" → ¬ Datagram ib) ∧
        Plain (listedTransports ib) := by
  have hnone : stringField none "network" = "" := rfl
  rw [normalized_transports, listedTransports, Datagram]
  generalize hnet : stringField ib.streamSettings "network" = network
  cases hp : ib.protocol with
  | hysteria | wireGuard =>
    simp only [keepsStream, Bool.true_eq_false, false_implies, true_and]
    exact ⟨fun _ => plain_blank, fun _ => rfl⟩
  | vmess | vless | trojan =>
    rw [frontend_eq (by decide), backend_eq (by decide) (by decide)]
    simp only [chosen, keepsStream, if_true, Bool.true_eq_false, false_implies, true_and, true_iff]
    exact plain_blank
  | http | tun =>
    rw [frontend_eq (by decide), backend_eq (by decide) (by decide)]
    simp only [chosen, floor_networkBits, keepsStream, Bool.false_eq_true, if_false, hnone, hnet, networkBits_iff,
      true_implies, plain_blank, and_true]
  | mtproto =>
    have htcp : Ports.inboundTransports .mtproto (if keepsStream .mtproto then ib.streamSettings else none)
        ib.settings = networkBits "" := rfl
    rw [frontend_eq (by decide), htcp]
    simp only [chosen, floor_networkBits, keepsStream, hnet, networkBits_iff, true_implies, plain_blank, and_true]
  | shadowsocks =>
    rw [frontend_eq (by decide), backend_eq (by decide) (by decide)]
    simp only [chosen, reduceCtorEq, if_false, keepsStream, if_true, Bool.true_eq_false, false_implies, true_and]
    exact bits_csv
  | tunnel =>
    rw [frontend_eq (by decide), backend_eq (by decide) (by decide)]
    simp only [chosen, if_true, keepsStream, Bool.false_eq_true, if_false, hnone, hnet, true_implies]
    by_cases hcsv : stringField ib.settings "allowedNetwork" = ""
    · simp only [hcsv, if_true, floor_networkBits, networkBits_iff, true_implies, plain_blank, and_true]
    · simp only [hcsv, if_false, false_implies, true_and]
      exact csv_iff
  | mixed =>
    rw [frontend_eq (by decide), backend_eq (by decide) (by decide)]
    simp only [chosen, keepsStream, Bool.false_eq_true, if_false, hnone, hnet, true_implies, plain_blank, and_true]
    split
    · have hplain : networkBits "" = ⟨true, false⟩ := by decide
      rw [floor_iff, hplain, networkBits]
      split
      case isTrue hdatagram => simp [hdatagram]
      case isFalse hstream => simp [hstream]
    · rw [floor_networkBits, floor_networkBits, networkBits_iff]

theorem bits_stored
    (h : inboundTransports ib.protocol ib.streamSettings ib.settings = (normalizeStreamSettings ib).transports) :
    inboundTransports ib.protocol ib.streamSettings ib.settings = ib.transports := by
  obtain ⟨hstream, hplain⟩ := bits_proposed.mp h
  rw [Inbound.transports]
  rw [listedTransports] at hstream hplain
  rw [Datagram, ← networkBits_iff] at hstream
  cases hp : ib.protocol with
  | hysteria | wireGuard => rfl
  | vmess | vless | trojan | http | tun | mixed =>
    rw [frontend_eq (by decide), backend_eq (by decide) (by decide)]
    simp only [chosen]
  | mtproto =>
    rw [hp] at hstream
    rw [frontend_eq (by decide)]
    simp only [chosen, floor_networkBits]
    exact hstream rfl rfl
  | shadowsocks | tunnel =>
    rw [hp] at hplain
    rw [frontend_eq (by decide), backend_eq (by decide) (by decide)]
    simp only [chosen, reduceCtorEq, if_false, if_true]
    exact bits_csv.mpr hplain

theorem mirrored_iff (ib : Inbound) : Mirrored ib ↔
    (keepsStream ib.protocol = false → listedTransports ib = "" → ¬ Datagram ib) ∧
      Plain (listedTransports ib) := by
  have hkeeps : (normalizeStreamSettings ib).port = ib.port ∧ (normalizeStreamSettings ib).nodeId = ib.nodeId := by
    rw [normalizeStreamSettings]
    split <;> exact ⟨rfl, rfl⟩
  have hproposed : composeInboundTag (form ib) = candidate (normalizeStreamSettings ib) ↔
      inboundTransports ib.protocol ib.streamSettings ib.settings = (normalizeStreamSettings ib).transports := by
    rw [composeInboundTag_form, candidate, hkeeps.1, hkeeps.2, compose_iff]
  rw [← bits_proposed, ← hproposed]
  constructor
  · exact fun h => h.proposed
  · intro h
    exact ⟨h, fun tag htag => isAuto_eq htag (bits_stored (hproposed.mp h))⟩

def mtprotoOverKcp : Inbound where
  id := 1
  total := 0
  remark := ""
  subSortIndex := 1
  enable := true
  expiryTime := 0
  trafficReset := "never"
  listen := ""
  port := 443
  protocol := .mtproto
  settings := some (.obj [])
  streamSettings := some (.obj [("network", .str "kcp")])
  tag := ""
  sniffing := none
  nodeId := none
  shareAddrStrategy := "node"
  shareAddr := ""

theorem mtproto_tag_differs : ¬ Mirrored mtprotoOverKcp := by
  intro h
  exact absurd h.proposed (by decide)

end parity

end InboundTags

end QuiPanel
