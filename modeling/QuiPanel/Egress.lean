import QuiPanel.StatsRouting
import QuiPanel.Library.Parking

namespace QuiPanel

namespace Egress

open StatsRouting Parking List

def injectEgresses (p : Panel) (cfg : Config) : Option Config := do
  let bridged ← (routedBridges p).foldlM injectMtprotoEgress cfg
  let panelled ← panelEgress p bridged
  nodeEgresses p panelled

structure Wish where
  tag : String
  port : Int
  outbound : String
  deriving DecidableEq

def mtprotoWish (inbound : Inbound) : Option Wish :=
  (parseBridge inbound.settings).bind fun parsed =>
    if !parsed.routeThroughXray || parsed.routeXrayPort ≤ 0 || inbound.tag = "" then none
    else some ⟨inbound.tag, parsed.routeXrayPort, parsed.outboundTag⟩

def panelWishes (p : Panel) : List Wish :=
  (p.panelOutbound.toList.filter (· ≠ "")).map (⟨panelEgressInboundTag, panelEgressBasePort, ·⟩)

def nodeWish (n : Node) : Option Wish :=
  if n.enable = false ∨ n.outboundTag = "" then none
  else some ⟨nodeEgressInboundTag n.id, nodeEgressBasePort + n.id, n.outboundTag⟩

def fixedWishes (p : Panel) : List Wish := (routedBridges p).filterMap mtprotoWish

def nodeWishes (p : Panel) : List Wish := (p.nodes.getD []).filterMap nodeWish

def searchedWishes (p : Panel) : List Wish := panelWishes p ++ nodeWishes p

def wishes (p : Panel) : List Wish := fixedWishes p ++ searchedWishes p

def admitted (taken : List String) : List Wish → List Wish
  | [] => []
  | w :: ws => if w.tag ∈ taken then admitted taken ws else w :: admitted (w.tag :: taken) ws

def routingOf (cfg : Config) : Fields Json :=
  match unmarshalRouting cfg.routerConfig with
  | .fields routing => routing
  | _ => []

structure Conservative (p : Panel) (cfg cfg' : Config) (added : List InboundConfig) (new : List Json) : Prop where
  inbounds : cfg'.inboundConfigs = cfg.inboundConfigs ++ added
  rules : coreRules cfg'.routerConfig = new ++ coreRules cfg.routerConfig
  tags : cfg'.tags.Nodup
  ports : ∀ b ∈ added, 1 ≤ b.port ∧ b.port ≤ 65535 ∧ cfg'.ports.count b.port = 1
  ruled : ∀ b ∈ added, ∀ w, (wishes p).find? (·.tag = b.tag) = some w → w.outbound ≠ "" →
    egressRule (routingOf cfg) w.tag w.outbound ∈ new

section admission

variable {taken taken' : List String} {w : Wish} {ws ws' : List Wish}

attribute [local grind =] panelWishes nodeWishes admitted routingOf

theorem admitted_congr (h : ∀ t, t ∈ taken ↔ t ∈ taken') : admitted taken ws = admitted taken' ws := by
  induction ws generalizing taken taken' with
  | nil => rfl
  | cons w ws ih =>
    have hmore : ∀ t, t ∈ w.tag :: taken ↔ t ∈ w.tag :: taken' := fun t => by
      rw [mem_cons, mem_cons, h]
    rw [admitted, admitted, ih h, ih hmore]
    simp only [h]

theorem admitted_append : admitted taken (ws ++ ws') =
    admitted taken ws ++ admitted (taken ++ (admitted taken ws).map Wish.tag) ws' := by
  induction ws generalizing taken with
  | nil => rw [nil_append, admitted, nil_append, map_nil, append_nil]
  | cons w ws ih =>
    rw [cons_append, admitted, admitted]
    split
    · exact ih
    · rw [ih, map_cons, cons_append]
      refine congrArg (fun l => w :: (admitted (w.tag :: taken) ws ++ l)) (admitted_congr fun t => ?_)
      simp only [mem_append, mem_cons]
      tauto

theorem admitted_sublist : (admitted taken ws).Sublist ws := by
  induction ws generalizing taken with
  | nil => exact List.Sublist.slnil
  | cons w ws ih =>
    rw [admitted]
    split
    · exact ih.cons w
    · exact ih.cons_cons w

theorem admitted_nodup : ((admitted taken ws).map Wish.tag).Nodup ∧
    ∀ w ∈ admitted taken ws, w.tag ∉ taken := by
  induction ws generalizing taken with
  | nil => exact ⟨nodup_nil, fun _ hw => absurd hw not_mem_nil⟩
  | cons w ws ih =>
    rw [admitted]
    split
    · exact ih
    · rename_i hfree
      obtain ⟨hnodup, hfresh⟩ := @ih (w.tag :: taken)
      constructor
      · rw [map_cons, nodup_cons]
        refine ⟨fun hmem => ?_, hnodup⟩
        obtain ⟨w', hw', htag⟩ := mem_map.mp hmem
        exact hfresh w' hw' (htag ▸ mem_cons_self)
      · intro w' hw'
        rcases mem_cons.mp hw' with rfl | hw'
        · exact hfree
        · exact fun hmem => hfresh w' hw' (mem_cons_of_mem _ hmem)

theorem find_admitted (hw : w ∈ admitted taken ws) : ws.find? (·.tag = w.tag) = some w := by
  induction ws generalizing taken with
  | nil => exact absurd hw not_mem_nil
  | cons w' ws ih =>
    rw [admitted] at hw
    split at hw
    case isTrue hused =>
      have hne : w'.tag ≠ w.tag := fun he => admitted_nodup.2 w hw (he ▸ hused)
      rw [find?_cons_of_neg (by simpa using hne)]
      exact ih hw
    case isFalse =>
      rcases mem_cons.mp hw with rfl | hw
      · rw [find?_cons_of_pos (by simp)]
      · have hne : w'.tag ≠ w.tag := fun he => admitted_nodup.2 w hw (he ▸ mem_cons_self)
        rw [find?_cons_of_neg (by simpa using hne)]
        exact ih hw

end admission

def bridges (ws : List Wish) (ports : List Int) : List InboundConfig :=
  (ws.zip ports).map fun g => socksBridge g.2 g.1.tag

def Readable (r : Fields Json) (cfg : Config) : Prop :=
  ∃ routing, unmarshalRouting cfg.routerConfig = .fields routing ∧
    routing.get "balancers" = r.get "balancers"

structure Granted (r : Fields Json) (cfg cfg' : Config) (ws : List Wish) (ports : List Int)
    (new : List Json) : Prop where
  readable : Readable r cfg'
  lengths : ports.length = ws.length
  inbounds : cfg'.inboundConfigs = cfg.inboundConfigs ++ bridges ws ports
  rules : coreRules cfg'.routerConfig = new ++ coreRules cfg.routerConfig
  ruled : ∀ w ∈ ws, w.outbound ≠ "" → egressRule r w.tag w.outbound ∈ new

section grants

variable {r routing : Fields Json} {cfg cfg' cfg'' : Config} {w : Wish} {ws ws' : List Wish}
  {ports ports' : List Int} {new new' : List Json}

theorem bridges_tags (h : ports.length = ws.length) :
    (bridges ws ports).map InboundConfig.tag = ws.map Wish.tag := by
  have hmap : (bridges ws ports).map InboundConfig.tag = ((ws.zip ports).map Prod.fst).map Wish.tag := by
    rw [bridges, map_map, map_map]
    rfl
  rw [hmap, map_fst_zip (le_of_eq h.symm)]

theorem bridges_ports (h : ports.length = ws.length) :
    (bridges ws ports).map InboundConfig.port = ports := by
  have hmap : (bridges ws ports).map InboundConfig.port = (ws.zip ports).map Prod.snd := by
    rw [bridges, map_map]
    rfl
  rw [hmap, map_snd_zip (le_of_eq h)]

theorem bridges_append (h : ports.length = ws.length) :
    bridges (ws ++ ws') (ports ++ ports') = bridges ws ports ++ bridges ws' ports' := by
  rw [bridges, zip_append h.symm, map_append]
  rfl

theorem Granted.tags_eq (h : Granted r cfg cfg' ws ports new) : cfg'.tags = cfg.tags ++ ws.map Wish.tag := by
  rw [Config.tags, h.inbounds, map_append, bridges_tags h.lengths]
  rfl

theorem Granted.ports_eq (h : Granted r cfg cfg' ws ports new) : cfg'.ports = cfg.ports ++ ports := by
  rw [Config.ports, h.inbounds, map_append, bridges_ports h.lengths]
  rfl

theorem Granted.refl (h : Readable r cfg) : Granted r cfg cfg [] [] [] :=
  ⟨h, rfl, (append_nil _).symm, rfl, fun _ hw => absurd hw not_mem_nil⟩

theorem Granted.trans (h : Granted r cfg cfg' ws ports new) (h' : Granted r cfg' cfg'' ws' ports' new') :
    Granted r cfg cfg'' (ws ++ ws') (ports ++ ports') (new' ++ new) where
  readable := h'.readable
  lengths := by rw [length_append, length_append, h.lengths, h'.lengths]
  inbounds := by rw [h'.inbounds, h.inbounds, append_assoc, bridges_append h.lengths]
  rules := by rw [h'.rules, h.rules, append_assoc]
  ruled w hw hout := by
    rcases mem_append.mp hw with hw | hw
    · exact mem_append_right _ (h.ruled w hw hout)
    · exact mem_append_left _ (h'.ruled w hw hout)

theorem egressRule_congr (h : routing.get "balancers" = r.get "balancers") (tag outboundTag : String) :
    egressRule routing tag outboundTag = egressRule r tag outboundTag := by
  rw [egressRule, egressRule, routingTagIsBalancer, routingTagIsBalancer, h]

theorem prepend_granted (hrouting : unmarshalRouting cfg.routerConfig = .fields routing)
    (hbalancers : routing.get "balancers" = r.get "balancers") (hlen : ports.length = ws.length)
    (hnew : new = ws.map fun w => egressRule routing w.tag w.outbound) :
    Granted r cfg ⟨prependRules new routing, cfg.inboundConfigs ++ bridges ws ports⟩ ws ports new where
  readable := by
    refine ⟨_, rfl, ?_⟩
    rw [Fields.get_put_ne (by decide), hbalancers]
  lengths := hlen
  inbounds := rfl
  rules := by
    show coreRules (prependRules new routing) = _
    rw [coreRules_prepend, coreRules_fields hrouting]
  ruled w hw _ := by
    rw [hnew, ← egressRule_congr hbalancers]
    exact mem_map_of_mem hw

theorem inbounds_granted (h : Readable r cfg) (hlen : ports.length = ws.length)
    (hsilent : ∀ w ∈ ws, w.outbound = "") :
    Granted r cfg ⟨cfg.routerConfig, cfg.inboundConfigs ++ bridges ws ports⟩ ws ports [] :=
  ⟨h, hlen, rfl, rfl, fun w hw hout => absurd (hsilent w hw) hout⟩

end grants

section fixed

variable {r : Fields Json} {cfg : Config} {w : Wish} {ws : List Wish}

def grantFixed (cfg : Config) (w : Wish) : Option Config :=
  if w.tag ∈ cfg.tags then some cfg
  else if w.outbound = "" then some ⟨cfg.routerConfig, cfg.inboundConfigs ++ bridges [w] [w.port]⟩
  else
    match unmarshalRouting cfg.routerConfig with
    | .unparsable => some ⟨cfg.routerConfig, cfg.inboundConfigs ++ bridges [w] [w.port]⟩
    | .nilMap => none
    | .fields routing =>
      some ⟨prependRules [egressRule routing w.tag w.outbound] routing,
        cfg.inboundConfigs ++ bridges [w] [w.port]⟩

theorem injectMtprotoEgress_eq (cfg : Config) (inbound : Inbound) :
    injectMtprotoEgress cfg inbound = (mtprotoWish inbound).elim (some cfg) (grantFixed cfg) := by
  rw [injectMtprotoEgress, mtprotoWish]
  cases parseBridge inbound.settings with
  | none => rfl
  | some parsed =>
    simp only [Option.bind_some]
    split
    · rfl
    · rfl

theorem foldlM_fixed (inbounds : List Inbound) (cfg : Config) :
    inbounds.foldlM injectMtprotoEgress cfg = (inbounds.filterMap mtprotoWish).foldlM grantFixed cfg := by
  induction inbounds generalizing cfg with
  | nil => rfl
  | cons inbound inbounds ih =>
    rw [foldlM_cons, injectMtprotoEgress_eq, filterMap_cons]
    cases mtprotoWish inbound with
    | none => exact ih cfg
    | some w =>
      rw [foldlM_cons]
      exact congrArg (Option.bind (grantFixed cfg w)) (funext ih)

theorem grantFixed_granted (h : Readable r cfg) (hfree : w.tag ∉ cfg.tags) :
    ∃ cfg' new, grantFixed cfg w = some cfg' ∧ Granted r cfg cfg' [w] [w.port] new := by
  rw [grantFixed, if_neg hfree]
  split
  case isTrue hout =>
    exact ⟨_, _, rfl, inbounds_granted h rfl fun w' hw' => mem_singleton.mp hw' ▸ hout⟩
  case isFalse =>
    obtain ⟨routing, hrouting, hbalancers⟩ := h
    rw [hrouting]
    exact ⟨_, _, rfl, prepend_granted hrouting hbalancers rfl rfl⟩

theorem fixed_granted (h : Readable r cfg) (ws : List Wish) :
    ∃ cfg' new, ws.foldlM grantFixed cfg = some cfg' ∧
      Granted r cfg cfg' (admitted cfg.tags ws) ((admitted cfg.tags ws).map Wish.port) new := by
  induction ws generalizing cfg with
  | nil => exact ⟨cfg, _, rfl, .refl h⟩
  | cons w ws ih =>
    rw [foldlM_cons, admitted]
    by_cases hused : w.tag ∈ cfg.tags
    · rw [if_pos hused, grantFixed, if_pos hused]
      exact ih h
    · obtain ⟨next, new, hnext, hone⟩ := grantFixed_granted h hused
      obtain ⟨last, new', hlast, hrest⟩ := ih hone.readable
      have htaken : admitted next.tags ws = admitted (w.tag :: cfg.tags) ws :=
        admitted_congr fun t => by rw [hone.tags_eq, mem_append, map_singleton, mem_singleton,
          mem_cons, or_comm]
      rw [htaken] at hrest
      rw [if_neg hused, hnext]
      exact ⟨last, _, hlast, hone.trans hrest⟩

def plain (cfg : Config) (ws : List Wish) : Config :=
  ⟨cfg.routerConfig, cfg.inboundConfigs ++ bridges ws (ws.map Wish.port)⟩

theorem plain_tags (cfg : Config) (ws : List Wish) : (plain cfg ws).tags = cfg.tags ++ ws.map Wish.tag := by
  rw [plain, Config.tags, map_append, bridges_tags (length_map _)]
  rfl

theorem plain_cons (cfg : Config) (w : Wish) (ws : List Wish) :
    plain (plain cfg [w]) ws = plain cfg (w :: ws) := by
  simp [plain, bridges]

theorem admitted_plain (cfg : Config) (w : Wish) (ws : List Wish) :
    admitted (plain cfg [w]).tags ws = admitted (w.tag :: cfg.tags) ws :=
  admitted_congr fun t => by
    rw [plain_tags, mem_append, map_singleton, mem_singleton, mem_cons, or_comm]

theorem fixed_plain (ws : List Wish)
    (h : unmarshalRouting cfg.routerConfig = .unparsable ∨ ∀ w ∈ admitted cfg.tags ws, w.outbound = "") :
    ws.foldlM grantFixed cfg = some (plain cfg (admitted cfg.tags ws)) := by
  induction ws generalizing cfg with
  | nil => simp [admitted, plain, bridges]
  | cons w ws ih =>
    rw [foldlM_cons]
    by_cases hused : w.tag ∈ cfg.tags
    · rw [admitted, if_pos hused] at h ⊢
      rw [grantFixed, if_pos hused]
      exact ih h
    · rw [admitted, if_neg hused] at h ⊢
      have hone : grantFixed cfg w = some (plain cfg [w]) := by
        rw [grantFixed, if_neg hused]
        split
        · rfl
        · rcases h with h | h
          · rw [h]
            rfl
          · exact absurd (h w mem_cons_self) ‹_›
      rw [hone, ← admitted_plain, ← plain_cons cfg w (admitted (plain cfg [w]).tags ws)]
      refine ih (h.imp_right fun h w' hw' => h w' (mem_cons_of_mem _ ?_))
      rwa [← admitted_plain]

theorem fixed_panics (hnil : unmarshalRouting cfg.routerConfig = .nilMap) (ws : List Wish)
    (h : ∃ w ∈ admitted cfg.tags ws, w.outbound ≠ "") : ws.foldlM grantFixed cfg = none := by
  induction ws generalizing cfg with
  | nil =>
    obtain ⟨w, hw, -⟩ := h
    exact absurd hw not_mem_nil
  | cons w ws ih =>
    rw [foldlM_cons]
    by_cases hused : w.tag ∈ cfg.tags
    · rw [admitted, if_pos hused] at h
      rw [grantFixed, if_pos hused]
      exact ih hnil h
    · rw [admitted, if_neg hused, ← admitted_plain] at h
      rw [grantFixed, if_neg hused]
      split
      case isTrue hout =>
        obtain ⟨w', hw', hne⟩ := h
        rcases mem_cons.mp hw' with rfl | hw'
        · exact absurd hout hne
        · exact @ih (plain cfg [w]) hnil ⟨w', hw', hne⟩
      case isFalse =>
        rw [hnil]
        rfl

end fixed

section searched

variable {r : Fields Json} {cfg : Config} {p : Panel}

theorem panel_cases (p : Panel) : (∃ egressTag, egressTag ≠ "" ∧
      panelWishes p = [⟨panelEgressInboundTag, panelEgressBasePort, egressTag⟩] ∧
      ∀ cfg, panelEgress p cfg = injectPanelEgress cfg egressTag) ∨
    (panelWishes p = [] ∧ ∀ cfg, panelEgress p cfg = some cfg) := by
  cases hp : p.panelOutbound with
  | none => exact .inr ⟨by simp [panelWishes, hp], fun cfg => by rw [panelEgress, hp]⟩
  | some egressTag =>
    by_cases hempty : egressTag = ""
    · refine .inr ⟨by simp [panelWishes, hp, hempty], fun cfg => ?_⟩
      simp only [panelEgress, hp]
      exact if_pos hempty
    · refine .inl ⟨egressTag, hempty, by simp [panelWishes, hp, hempty], fun cfg => ?_⟩
      simp only [panelEgress, hp]
      exact if_neg hempty

theorem panel_granted (h : Readable r cfg) : ∃ cfg' new, panelEgress p cfg = some cfg' ∧
    Granted r cfg cfg' (admitted cfg.tags (panelWishes p))
      (Fresh.assign nextPort cfg.ports ((admitted cfg.tags (panelWishes p)).map Wish.port)) new := by
  rcases panel_cases p with ⟨egressTag, -, hwishes, heq⟩ | ⟨hwishes, heq⟩
  · rw [heq, hwishes, injectPanelEgress, admitted]
    by_cases hused : panelEgressInboundTag ∈ cfg.tags
    · rw [if_pos hused, if_pos hused]
      exact ⟨cfg, _, rfl, .refl h⟩
    · obtain ⟨routing, hrouting, hbalancers⟩ := h
      let w : Wish := ⟨panelEgressInboundTag, panelEgressBasePort, egressTag⟩
      have hone : ∀ port, Granted r cfg ⟨prependRules [egressRule routing w.tag w.outbound] routing,
          cfg.inboundConfigs ++ bridges [w] [port]⟩ [w] [port] [egressRule routing w.tag w.outbound] :=
        fun port => prepend_granted hrouting hbalancers rfl rfl
      rw [if_neg hused, if_neg hused, hrouting]
      exact ⟨_, _, rfl, hone _⟩
  · rw [heq, hwishes]
    exact ⟨cfg, _, rfl, .refl h⟩

theorem nodeBridges_eq (routing : Fields Json) (nodes : List Node) (acc : Bridges) :
    nodes.foldl (nodeBridge routing) acc =
      let ws := admitted (acc.inboundConfigs.map InboundConfig.tag) (nodes.filterMap nodeWish)
      ⟨acc.rules ++ ws.map fun w => egressRule routing w.tag w.outbound,
        acc.inboundConfigs ++ bridges ws
          (Fresh.assign nextPort (acc.inboundConfigs.map InboundConfig.port) (ws.map Wish.port))⟩ := by
  induction nodes generalizing acc with
  | nil => simp [admitted, bridges]
  | cons n nodes ih =>
    rw [foldl_cons, ih, filterMap_cons, nodeBridge, nodeWish]
    by_cases hoff : n.enable = false ∨ n.outboundTag = ""
    · rw [if_pos hoff, if_pos hoff]
    · rw [if_neg hoff, if_neg hoff, admitted]
      by_cases hused : nodeEgressInboundTag n.id ∈ acc.inboundConfigs.map InboundConfig.tag
      · rw [if_pos hused, if_pos hused]
      · rw [if_neg hused, if_neg hused]
        set port := Fresh.pick nextPort (acc.inboundConfigs.map InboundConfig.port)
          (nodeEgressBasePort + n.id) with hport
        set tag := nodeEgressInboundTag n.id with htag
        have htaken : admitted ((acc.inboundConfigs ++ [socksBridge port tag]).map InboundConfig.tag)
            (nodes.filterMap nodeWish) =
              admitted (tag :: acc.inboundConfigs.map InboundConfig.tag) (nodes.filterMap nodeWish) :=
          admitted_congr fun t => by
            rw [map_append, mem_append, map_singleton, mem_singleton, mem_cons, or_comm]
            rfl
        have hused' : ∀ cs, Fresh.assign nextPort
            ((acc.inboundConfigs ++ [socksBridge port tag]).map InboundConfig.port) cs =
              Fresh.assign nextPort (port :: acc.inboundConfigs.map InboundConfig.port) cs := fun cs =>
          Fresh.assign_congr fun k => by
            rw [map_append, mem_append, map_singleton, mem_singleton, mem_cons, or_comm]
            rfl
        simp only [htaken, hused', map_cons, Fresh.assign, ← hport, bridges, zip_cons_cons,
          append_assoc, singleton_append]

theorem nodeBridges_start (routing : Fields Json) (nodes : List Node) (cfg : Config) :
    nodeBridges routing cfg nodes =
      let ws := admitted cfg.tags (nodes.filterMap nodeWish)
      ⟨ws.map fun w => egressRule routing w.tag w.outbound,
        cfg.inboundConfigs ++ bridges ws (Fresh.assign nextPort cfg.ports (ws.map Wish.port))⟩ :=
  nodeBridges_eq routing nodes ⟨[], cfg.inboundConfigs⟩

theorem node_granted (h : Readable r cfg) : ∃ cfg' new, nodeEgresses p cfg = some cfg' ∧
    Granted r cfg cfg' (admitted cfg.tags (nodeWishes p))
      (Fresh.assign nextPort cfg.ports ((admitted cfg.tags (nodeWishes p)).map Wish.port)) new := by
  rw [nodeEgresses, nodeWishes]
  cases p.nodes with
  | none => exact ⟨cfg, _, rfl, .refl h⟩
  | some nodes =>
    obtain ⟨routing, hrouting, hbalancers⟩ := h
    have hlen : ∀ ws : List Wish, (Fresh.assign nextPort cfg.ports (ws.map Wish.port)).length = ws.length :=
      fun ws => by rw [Fresh.length_assign, length_map]
    simp only [injectNodeEgresses, hrouting, nodeBridges_start, Option.getD_some]
    split
    case isTrue hnone =>
      have hsilent : ∀ w ∈ admitted cfg.tags (nodes.filterMap nodeWish), w.outbound = "" := by
        rw [map_eq_nil_iff.mp hnone]
        exact fun w hw => absurd hw not_mem_nil
      exact ⟨_, _, rfl, inbounds_granted ⟨routing, hrouting, hbalancers⟩ (hlen _) hsilent⟩
    case isFalse => exact ⟨_, _, rfl, prepend_granted hrouting hbalancers (hlen _) rfl⟩

theorem searched_granted (h : Readable r cfg) :
    ∃ cfg' new, (panelEgress p cfg).bind (nodeEgresses p) = some cfg' ∧
      Granted r cfg cfg' (admitted cfg.tags (searchedWishes p))
        (Fresh.assign nextPort cfg.ports ((admitted cfg.tags (searchedWishes p)).map Wish.port)) new := by
  obtain ⟨next, new, hnext, hpanel⟩ := @panel_granted r cfg p h
  obtain ⟨last, new', hlast, hnode⟩ := @node_granted r next p hpanel.readable
  refine ⟨last, new' ++ new, by rw [hnext, Option.bind_some, hlast], ?_⟩
  have hports : Fresh.assign nextPort next.ports ((admitted next.tags (nodeWishes p)).map Wish.port) =
      Fresh.assign nextPort ((Fresh.assign nextPort cfg.ports
        ((admitted cfg.tags (panelWishes p)).map Wish.port)).reverse ++ cfg.ports)
        ((admitted next.tags (nodeWishes p)).map Wish.port) :=
    Fresh.assign_congr fun k => by
      rw [hpanel.ports_eq, mem_append, mem_append, mem_reverse, or_comm]
  have hall := hpanel.trans hnode
  rw [hports, ← Fresh.assign_append, ← map_append, hpanel.tags_eq, ← admitted_append] at hall
  exact hall

end searched

section blocked

variable {cfg : Config} {p : Panel}

theorem searched_unparsable (h : unmarshalRouting cfg.routerConfig = .unparsable) :
    (panelEgress p cfg).bind (nodeEgresses p) = some cfg := by
  have hnodes : nodeEgresses p cfg = some cfg := by
    rw [nodeEgresses]
    cases p.nodes with
    | none => rfl
    | some nodes => simp only [injectNodeEgresses, h]
  rcases panel_cases p with ⟨egressTag, -, -, heq⟩ | ⟨-, heq⟩
  · rw [heq, injectPanelEgress, h, ite_self]
    exact hnodes
  · rw [heq]
    exact hnodes

theorem nodes_nil (h : unmarshalRouting cfg.routerConfig = .nilMap) :
    nodeEgresses p cfg = if admitted cfg.tags (nodeWishes p) = [] then some cfg else none := by
  rw [nodeEgresses, nodeWishes]
  cases p.nodes with
  | none => rfl
  | some nodes =>
    simp only [injectNodeEgresses, h, nodeBridges_start, Option.getD_some, map_eq_nil_iff]
    split
    case isTrue hnone => simp [hnone, bridges]
    case isFalse => rfl

theorem searched_nil (h : unmarshalRouting cfg.routerConfig = .nilMap) :
    (panelEgress p cfg).bind (nodeEgresses p) =
      if admitted cfg.tags (searchedWishes p) = [] then some cfg else none := by
  have hquiet : ∀ ws, admitted cfg.tags ws = [] →
      admitted (cfg.tags ++ (admitted cfg.tags ws).map Wish.tag) (nodeWishes p) =
        admitted cfg.tags (nodeWishes p) := fun ws hws => by rw [hws, map_nil, append_nil]
  have hsplit : admitted cfg.tags (searchedWishes p) = admitted cfg.tags (panelWishes p) ++
      admitted (cfg.tags ++ (admitted cfg.tags (panelWishes p)).map Wish.tag) (nodeWishes p) :=
    admitted_append
  rcases panel_cases p with ⟨egressTag, -, hwishes, heq⟩ | ⟨hwishes, heq⟩
  · rw [heq, injectPanelEgress]
    by_cases hused : panelEgressInboundTag ∈ cfg.tags
    · have hnone : admitted cfg.tags (panelWishes p) = [] := by
        rw [hwishes, admitted, if_pos hused]
        rfl
      rw [if_pos hused, Option.bind_some, nodes_nil h, hsplit, hquiet _ hnone, hnone, nil_append]
    · have hsome : admitted cfg.tags (panelWishes p) ≠ [] := by
        rw [hwishes, admitted, if_neg hused]
        exact cons_ne_nil _ _
      rw [if_neg hused, h, if_neg (by rw [hsplit]; exact append_ne_nil_of_left_ne_nil hsome _)]
      rfl
  · have hnone : admitted cfg.tags (panelWishes p) = [] := by
      rw [hwishes]
      rfl
    rw [heq, Option.bind_some, nodes_nil h, hsplit, hquiet _ hnone, hnone, nil_append]

end blocked

def fixedGrants (p : Panel) (cfg : Config) : List Wish := admitted cfg.tags (fixedWishes p)

def searchedGrants (p : Panel) (cfg : Config) : List Wish :=
  admitted (cfg.tags ++ (fixedGrants p cfg).map Wish.tag) (searchedWishes p)

structure Meets (p : Panel) (cfg : Config) : Prop where
  bounded : ∀ w ∈ fixedGrants p cfg, w.port ≤ 65535
  unshared : (cfg.ports ++ (fixedGrants p cfg).map Wish.port).Nodup
  routing : match unmarshalRouting cfg.routerConfig with
    | .fields _ => Fits 65535 (cfg.ports ++ (fixedGrants p cfg).map Wish.port)
        ((searchedGrants p cfg).map Wish.port)
    | .unparsable => ∀ w ∈ fixedGrants p cfg, w.outbound = ""
    | .nilMap => (∀ w ∈ fixedGrants p cfg, w.outbound = "") ∧ searchedGrants p cfg = []

def PortsFree (base ports : List Int) : Prop := ∀ q ∈ ports, 1 ≤ q ∧ q ≤ 65535 ∧ (base ++ ports).count q = 1

section settle

variable {r : Fields Json} {cfg cfg' : Config} {p : Panel} {base fixed prefs ports : List Int}
  {ws : List Wish} {new : List Json} {w : Wish}

theorem count_one_iff (hbase : base.Nodup) :
    (∀ q ∈ ports, (base ++ ports).count q = 1) ↔ (base ++ ports).Nodup := by
  rw [nodup_iff_count_le_one]
  constructor
  · intro h q
    by_cases hq : q ∈ ports
    · exact (h q hq).le
    · rw [count_append, count_eq_zero_of_not_mem hq, Nat.add_zero]
      exact nodup_iff_count_le_one.mp hbase q
  · intro h q hq
    have hpos := count_pos_iff.mpr (mem_append_right base hq)
    have := h q
    omega

theorem portsFree_iff (hbase : base.Nodup) (hfixed : ∀ q ∈ fixed, 1 ≤ q) (hprefs : ∀ q ∈ prefs, 1 ≤ q) :
    PortsFree base (fixed ++ Fresh.assign nextPort (base ++ fixed) prefs) ↔
      (∀ q ∈ fixed, q ≤ 65535) ∧ (base ++ fixed).Nodup ∧ Fits 65535 (base ++ fixed) prefs := by
  have hconsecutive : Consecutive nextPort := fun _ _ => rfl
  have hnodup : (base ++ (fixed ++ Fresh.assign nextPort (base ++ fixed) prefs)).Nodup ↔
      (base ++ fixed).Nodup := by
    rw [← append_assoc, nodup_append']
    refine ⟨fun h => h.1, fun h => ⟨h, Fresh.assign_nodup, fun q hq hnew => ?_⟩⟩
    exact Fresh.assign_fresh.2 q hnew hq
  have hpos : ∀ q ∈ fixed ++ Fresh.assign nextPort (base ++ fixed) prefs, 1 ≤ q := by
    intro q hq
    rcases mem_append.mp hq with hq | hq
    · exact hfixed q hq
    · exact le_of_assign hconsecutive hprefs q hq
  have hsplit : PortsFree base (fixed ++ Fresh.assign nextPort (base ++ fixed) prefs) ↔
      (∀ q ∈ fixed ++ Fresh.assign nextPort (base ++ fixed) prefs, q ≤ 65535) ∧
        ∀ q ∈ fixed ++ Fresh.assign nextPort (base ++ fixed) prefs,
          (base ++ (fixed ++ Fresh.assign nextPort (base ++ fixed) prefs)).count q = 1 :=
    ⟨fun h => ⟨fun q hq => (h q hq).2.1, fun q hq => (h q hq).2.2⟩,
      fun h q hq => ⟨hpos q hq, h.1 q hq, h.2 q hq⟩⟩
  rw [hsplit, count_one_iff hbase, hnodup, forall_mem_append, assign_le_iff hconsecutive]
  tauto

theorem fixedGrants_pos (hw : w ∈ fixedGrants p cfg) : 1 ≤ w.port := by
  obtain ⟨inbound, -, hwish⟩ := mem_filterMap.mp (admitted_sublist.subset hw)
  obtain ⟨parsed, -, hparsed⟩ := Option.bind_eq_some_iff.mp hwish
  split at hparsed
  · cases hparsed
  · rename_i hguard
    obtain rfl := Option.some.inj hparsed
    simp only [Bool.or_eq_true, decide_eq_true_eq, not_or] at hguard
    show 1 ≤ parsed.routeXrayPort
    omega

theorem searchedGrants_spec (hids : ∀ nodes, p.nodes = some nodes → ∀ n ∈ nodes, 0 < n.id)
    (hw : w ∈ searchedGrants p cfg) : 1 ≤ w.port ∧ w.outbound ≠ "" := by
  rcases mem_append.mp (admitted_sublist.subset hw) with hw | hw
  · rcases panel_cases p with ⟨egressTag, hne, hwishes, -⟩ | ⟨hwishes, -⟩
    · rw [hwishes] at hw
      obtain rfl := mem_singleton.mp hw
      refine ⟨?_, hne⟩
      show (1 : Int) ≤ panelEgressBasePort
      decide
    · rw [hwishes] at hw
      exact absurd hw not_mem_nil
  · obtain ⟨n, hn, hwish⟩ := mem_filterMap.mp hw
    rw [nodeWish] at hwish
    split at hwish
    · cases hwish
    · rename_i hon
      obtain rfl := Option.some.inj hwish
      rw [not_or] at hon
      refine ⟨?_, hon.2⟩
      cases hnodes : p.nodes with
      | none =>
        rw [hnodes] at hn
        exact absurd hn not_mem_nil
      | some nodes =>
        rw [hnodes] at hn
        have := hids nodes hnodes n hn
        show 1 ≤ nodeEgressBasePort + n.id
        rw [nodeEgressBasePort]
        omega

theorem conservative_iff (hlen : ports.length = ws.length)
    (hinbounds : cfg'.inboundConfigs = cfg.inboundConfigs ++ bridges ws ports)
    (hrules : coreRules cfg'.routerConfig = new ++ coreRules cfg.routerConfig)
    (htags : (cfg.tags ++ ws.map Wish.tag).Nodup)
    (hfirst : ∀ w ∈ ws, (wishes p).find? (·.tag = w.tag) = some w) :
    (∃ added new, Conservative p cfg cfg' added new) ↔ PortsFree cfg.ports ports ∧
      ∀ w ∈ ws, w.outbound ≠ "" → egressRule (routingOf cfg) w.tag w.outbound ∈ new := by
  have hports : cfg'.ports = cfg.ports ++ ports := by
    rw [Config.ports, hinbounds, map_append, bridges_ports hlen]
    rfl
  have hfree : PortsFree cfg.ports ports ↔ ∀ b ∈ bridges ws ports,
      1 ≤ b.port ∧ b.port ≤ 65535 ∧ cfg'.ports.count b.port = 1 := by
    rw [hports, PortsFree]
    nth_rewrite 1 [← bridges_ports hlen]
    rw [forall_mem_map]
  have hbridged : ∀ w ∈ ws, ∃ b ∈ bridges ws ports, b.tag = w.tag := fun w hw =>
    mem_map.mp (bridges_tags hlen ▸ mem_map_of_mem hw)
  constructor
  · rintro ⟨added, new', hall⟩
    obtain rfl := append_cancel_left (hinbounds.symm.trans hall.inbounds)
    obtain rfl := append_cancel_right (hrules.symm.trans hall.rules)
    refine ⟨hfree.mpr hall.ports, fun w hw hout => ?_⟩
    obtain ⟨b, hb, htag⟩ := hbridged w hw
    exact hall.ruled b hb w (htag ▸ hfirst w hw) hout
  · rintro ⟨hports', hruled⟩
    refine ⟨_, new, hinbounds, hrules, ?_, hfree.mp hports', ?_⟩
    · rw [Config.tags, hinbounds, map_append, bridges_tags hlen]
      exact htags
    · intro b hb w hfound hout
      have hmem : b.tag ∈ ws.map Wish.tag := bridges_tags hlen ▸ mem_map_of_mem hb
      obtain ⟨w', hw', htag⟩ := mem_map.mp hmem
      have hsame := hfirst w' hw'
      rw [htag, hfound] at hsame
      obtain rfl := Option.some.inj hsame
      exact hruled w hw' hout

theorem grants_eq (p : Panel) (cfg : Config) :
    fixedGrants p cfg ++ searchedGrants p cfg = admitted cfg.tags (wishes p) :=
  admitted_append.symm

theorem grants_first (hw : w ∈ fixedGrants p cfg ++ searchedGrants p cfg) :
    (wishes p).find? (·.tag = w.tag) = some w :=
  find_admitted (grants_eq p cfg ▸ hw)

theorem grants_tags (htags : cfg.tags.Nodup) :
    (cfg.tags ++ (fixedGrants p cfg ++ searchedGrants p cfg).map Wish.tag).Nodup := by
  rw [grants_eq, nodup_append']
  refine ⟨htags, admitted_nodup.1, fun t ht hnew => ?_⟩
  obtain ⟨w, hw, rfl⟩ := mem_map.mp hnew
  exact admitted_nodup.2 w hw ht

theorem fixedGrants_ports : ∀ q ∈ (fixedGrants p cfg).map Wish.port, 1 ≤ q :=
  forall_mem_map.mpr fun _ hw => fixedGrants_pos hw

theorem plain_iff (htags : cfg.tags.Nodup) (hports : cfg.ports.Nodup) :
    (∃ added new, Conservative p cfg (plain cfg (fixedGrants p cfg)) added new) ↔
      (∀ w ∈ fixedGrants p cfg, w.port ≤ 65535) ∧
        (cfg.ports ++ (fixedGrants p cfg).map Wish.port).Nodup ∧
          ∀ w ∈ fixedGrants p cfg, w.outbound = "" := by
  have hnodup := @grants_tags cfg p htags
  rw [map_append, ← append_assoc] at hnodup
  have hrules : coreRules (plain cfg (fixedGrants p cfg)).routerConfig = [] ++ coreRules cfg.routerConfig := rfl
  have hiff := conservative_iff (length_map _) rfl hrules hnodup.of_append_left fun w hw =>
    grants_first (mem_append_left _ hw)
  have hfree := @portsFree_iff cfg.ports _ [] hports (@fixedGrants_ports cfg p) fun _ hq =>
    absurd hq not_mem_nil
  rw [Fresh.assign, append_nil, forall_mem_map] at hfree
  have hconsecutive : Consecutive nextPort := fun _ _ => rfl
  have hroom : Fits 65535 (cfg.ports ++ (fixedGrants p cfg).map Wish.port) [] :=
    (assign_le_iff hconsecutive).mp fun _ hq => absurd hq not_mem_nil
  rw [hiff, hfree]
  constructor
  · rintro ⟨⟨hbounded, hunshared, -⟩, hruled⟩
    refine ⟨hbounded, hunshared, fun w hw => ?_⟩
    by_contra hout
    exact absurd (hruled w hw hout) not_mem_nil
  · rintro ⟨hbounded, hunshared, hsilent⟩
    exact ⟨⟨hbounded, hunshared, hroom⟩, fun w hw hout => absurd (hsilent w hw) hout⟩

end settle

theorem injectEgresses_bind (p : Panel) (cfg : Config) : injectEgresses p cfg =
    ((fixedWishes p).foldlM grantFixed cfg).bind fun bridged =>
      (panelEgress p bridged).bind (nodeEgresses p) := by
  rw [fixedWishes, ← foldlM_fixed]
  rfl

section statuses

variable {p : Panel} {cfg : Config} {r : Fields Json}

theorem injectEgresses_fields (hrouting : unmarshalRouting cfg.routerConfig = .fields r) :
    ∃ cfg' new, injectEgresses p cfg = some cfg' ∧
      Granted (routingOf cfg) cfg cfg' (fixedGrants p cfg ++ searchedGrants p cfg)
        ((fixedGrants p cfg).map Wish.port ++ Fresh.assign nextPort
          (cfg.ports ++ (fixedGrants p cfg).map Wish.port) ((searchedGrants p cfg).map Wish.port)) new := by
  have hreadable : Readable (routingOf cfg) cfg := ⟨r, hrouting, by rw [routingOf, hrouting]⟩
  obtain ⟨bridged, new, hbridged, hfixed⟩ := fixed_granted hreadable (fixedWishes p)
  obtain ⟨cfg', new', hcfg', hsearched⟩ := @searched_granted (routingOf cfg) bridged p hfixed.readable
  have hall := hfixed.trans hsearched
  rw [hfixed.tags_eq, hfixed.ports_eq] at hall
  exact ⟨cfg', new' ++ new, by rw [injectEgresses_bind, hbridged, Option.bind_some, hcfg'], hall⟩

theorem injectEgresses_unparsable (hrouting : unmarshalRouting cfg.routerConfig = .unparsable) :
    injectEgresses p cfg = some (plain cfg (fixedGrants p cfg)) := by
  have hplain : (fixedWishes p).foldlM grantFixed cfg = some (plain cfg (fixedGrants p cfg)) :=
    fixed_plain _ (.inl hrouting)
  have hstill : unmarshalRouting (plain cfg (fixedGrants p cfg)).routerConfig = .unparsable := hrouting
  rw [injectEgresses_bind, hplain, Option.bind_some, searched_unparsable hstill]

theorem injectEgresses_nil (hrouting : unmarshalRouting cfg.routerConfig = .nilMap) :
    injectEgresses p cfg =
      if (∀ w ∈ fixedGrants p cfg, w.outbound = "") ∧ searchedGrants p cfg = [] then
        some (plain cfg (fixedGrants p cfg)) else none := by
  rw [injectEgresses_bind]
  by_cases hsilent : ∀ w ∈ fixedGrants p cfg, w.outbound = ""
  · have hplain : (fixedWishes p).foldlM grantFixed cfg = some (plain cfg (fixedGrants p cfg)) :=
      fixed_plain _ (.inr hsilent)
    have hstill : unmarshalRouting (plain cfg (fixedGrants p cfg)).routerConfig = .nilMap := hrouting
    rw [hplain, Option.bind_some, searched_nil hstill, plain_tags]
    exact if_congr (and_iff_right hsilent).symm rfl rfl
  · have hpanics : (fixedWishes p).foldlM grantFixed cfg = none := by
      refine fixed_panics hrouting _ ?_
      by_contra hall
      exact hsilent fun w hw => by_contra fun hne => hall ⟨w, hw, hne⟩
    rw [hpanics, if_neg fun h => hsilent h.1]
    rfl

end statuses

theorem injectEgresses_iff (p : Panel) (cfg : Config)
    (hids : ∀ nodes, p.nodes = some nodes → ∀ n ∈ nodes, 0 < n.id) (htags : cfg.tags.Nodup)
    (hports : cfg.ports.Nodup) :
    (∃ cfg' added new, injectEgresses p cfg = some cfg' ∧ Conservative p cfg cfg' added new) ↔ Meets p cfg := by
  have hpull : ∀ c, (∃ cfg' added new, some c = some cfg' ∧ Conservative p cfg cfg' added new) ↔
      ∃ added new, Conservative p cfg c added new := by
    intro c
    constructor
    · rintro ⟨cfg', added, new, heq, hall⟩
      obtain rfl := Option.some.inj heq
      exact ⟨added, new, hall⟩
    · rintro ⟨added, new, hall⟩
      exact ⟨c, added, new, rfl, hall⟩
  cases hrouting : unmarshalRouting cfg.routerConfig with
  | fields r =>
    obtain ⟨cfg', new, hcfg', hall⟩ := @injectEgresses_fields p cfg r hrouting
    have hiff := conservative_iff hall.lengths hall.inbounds hall.rules (grants_tags htags) fun _ hw =>
      grants_first hw
    have hprefs : ∀ q ∈ (searchedGrants p cfg).map Wish.port, 1 ≤ q :=
      forall_mem_map.mpr fun w hw => (searchedGrants_spec hids hw).1
    rw [hcfg', hpull, hiff, portsFree_iff hports (@fixedGrants_ports cfg p) hprefs, forall_mem_map]
    constructor
    · rintro ⟨⟨hbounded, hunshared, hroom⟩, -⟩
      exact ⟨hbounded, hunshared, by rw [hrouting]; exact hroom⟩
    · rintro ⟨hbounded, hunshared, hroom⟩
      rw [hrouting] at hroom
      exact ⟨⟨hbounded, hunshared, hroom⟩, hall.ruled⟩
  | unparsable =>
    rw [injectEgresses_unparsable hrouting, hpull, plain_iff htags hports]
    constructor
    · rintro ⟨hbounded, hunshared, hsilent⟩
      exact ⟨hbounded, hunshared, by rw [hrouting]; exact hsilent⟩
    · rintro ⟨hbounded, hunshared, hsilent⟩
      rw [hrouting] at hsilent
      exact ⟨hbounded, hunshared, hsilent⟩
  | nilMap =>
    rw [injectEgresses_nil hrouting]
    constructor
    · rintro ⟨cfg', added, new, heq, hall⟩
      obtain ⟨hquiet, hplain⟩ := Option.ite_none_right_eq_some.mp heq
      obtain rfl := Option.some.inj hplain
      obtain ⟨hbounded, hunshared, -⟩ := (plain_iff htags hports).mp ⟨added, new, hall⟩
      exact ⟨hbounded, hunshared, by rw [hrouting]; exact hquiet⟩
    · rintro ⟨hbounded, hunshared, hquiet⟩
      rw [hrouting] at hquiet
      rw [if_pos hquiet, hpull, plain_iff htags hports]
      exact ⟨hbounded, hunshared, hquiet.1⟩

def bridgeSettings (port outboundTag : String) : Json :=
  .obj [("routeThroughXray", .bool true), ("routeXrayPort", .num port), ("outboundTag", .str outboundTag)]

def mtprotoInbound (port outboundTag : String) : Inbound :=
  ⟨true, none, mtproto, "in-8443-tcp", .null, 8443, bridgeSettings port outboundTag⟩

def panelWith (inbounds : List Inbound) (nodes : List Node) : Panel :=
  ⟨inbounds, fun _ => .null, some "", some nodes⟩

def vlessConfig (routing : Option Json) : Config :=
  ⟨routing, [⟨none, 45001, "vless", none, "in-45001-tcp"⟩]⟩

def emptyRouting : Option Json := some (.obj [])

theorem injectEgresses_sample : ∃ cfg' added new,
    injectEgresses (panelWith [mtprotoInbound "45002" "warp"] [⟨1, true, "warp"⟩]) (vlessConfig emptyRouting) =
        some cfg' ∧
      Conservative (panelWith [mtprotoInbound "45002" "warp"] [⟨1, true, "warp"⟩]) (vlessConfig emptyRouting)
        cfg' added new := by
  have hroom : ∀ q ∈ Fresh.assign nextPort [45001, 45002] [62801], q ≤ 65535 := by decide
  have hids : ∀ nodes, (panelWith [mtprotoInbound "45002" "warp"] [⟨1, true, "warp"⟩]).nodes = some nodes →
      ∀ n ∈ nodes, 0 < n.id := by
    intro nodes hnodes n hn
    obtain rfl := Option.some.inj hnodes
    obtain rfl := mem_singleton.mp hn
    decide
  refine (injectEgresses_iff _ _ hids (by decide) (by decide)).mpr ⟨by decide, by decide, ?_⟩
  have hconsecutive : Consecutive nextPort := fun _ _ => rfl
  exact (assign_le_iff hconsecutive).mp hroom

theorem added_eq {p : Panel} {cfg cfg' last : Config} {added bs : List InboundConfig} {new : List Json}
    (hlast : last.inboundConfigs = cfg.inboundConfigs ++ bs) (hrun : injectEgresses p cfg = some last)
    (h : injectEgresses p cfg = some cfg' ∧ Conservative p cfg cfg' added new) : cfg' = last ∧ added = bs := by
  obtain rfl := Option.some.inj (hrun.symm.trans h.1)
  exact ⟨rfl, append_cancel_left (h.2.inbounds.symm.trans hlast)⟩

theorem egresses_collide :
    ((vlessConfig emptyRouting).tags.Nodup ∧ (vlessConfig emptyRouting).ports.Nodup) ∧
    (¬ ∃ cfg' added new,
      injectEgresses (panelWith [mtprotoInbound "45001" "warp"] []) (vlessConfig emptyRouting) = some cfg' ∧
        Conservative (panelWith [mtprotoInbound "45001" "warp"] []) (vlessConfig emptyRouting) cfg' added new) ∧
    (¬ ∃ cfg' added new,
      injectEgresses (panelWith [] [⟨2736, true, "warp"⟩]) (vlessConfig emptyRouting) = some cfg' ∧
        Conservative (panelWith [] [⟨2736, true, "warp"⟩]) (vlessConfig emptyRouting) cfg' added new) ∧
    (¬ ∃ cfg' added new,
      injectEgresses (panelWith [mtprotoInbound "45002" "warp"] []) (vlessConfig (some (.arr []))) = some cfg' ∧
        Conservative (panelWith [mtprotoInbound "45002" "warp"] []) (vlessConfig (some (.arr []))) cfg' added new) ∧
    injectEgresses (panelWith [mtprotoInbound "45002" "warp"] []) (vlessConfig (some .null)) = none := by
  refine ⟨by decide, ?_, ?_, ?_, by decide⟩
  · rintro ⟨cfg', added, new, hall⟩
    have hrun : injectEgresses (panelWith [mtprotoInbound "45001" "warp"] []) (vlessConfig emptyRouting) =
        some ⟨some (.obj [("rules", .arr [egressRule [] "in-8443-tcp" "warp"])]),
          (vlessConfig emptyRouting).inboundConfigs ++ [socksBridge 45001 "in-8443-tcp"]⟩ := by decide
    obtain ⟨rfl, rfl⟩ := added_eq rfl hrun hall
    exact absurd (hall.2.ports _ mem_cons_self).2.2 (by decide)
  · rintro ⟨cfg', added, new, hall⟩
    have hrun : injectEgresses (panelWith [] [⟨2736, true, "warp"⟩]) (vlessConfig emptyRouting) =
        some ⟨some (.obj [("rules", .arr [egressRule [] "node-egress-2736" "warp"])]),
          (vlessConfig emptyRouting).inboundConfigs ++ [socksBridge 65536 "node-egress-2736"]⟩ := by decide
    obtain ⟨rfl, rfl⟩ := added_eq rfl hrun hall
    exact absurd (hall.2.ports _ mem_cons_self).2.1 (by decide)
  · rintro ⟨cfg', added, new, hall⟩
    have hrun : injectEgresses (panelWith [mtprotoInbound "45002" "warp"] []) (vlessConfig (some (.arr []))) =
        some ⟨some (.arr []), (vlessConfig (some (.arr []))).inboundConfigs ++
          [socksBridge 45002 "in-8443-tcp"]⟩ := by decide
    obtain ⟨rfl, rfl⟩ := added_eq rfl hrun hall
    have hnew : [] = new ++ [] := hall.2.rules
    rw [append_nil] at hnew
    subst hnew
    exact absurd (hall.2.ruled _ mem_cons_self ⟨"in-8443-tcp", 45002, "warp"⟩ (by decide) (by decide))
      not_mem_nil

end Egress

end QuiPanel
