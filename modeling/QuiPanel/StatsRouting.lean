import QuiPanel.Library.Json
import QuiPanel.Library.Fields
import QuiPanel.Library.Fresh
import QuiPanel.Library.FirstMatch

namespace QuiPanel

namespace StatsRouting

open FirstMatch List

structure InboundConfig where
  listen : Option Json
  port : Int
  protocol : String
  settings : Option Json
  tag : String
deriving DecidableEq

structure Config where
  routerConfig : Option Json
  inboundConfigs : List InboundConfig
deriving DecidableEq

inductive Unparsed
  | syntaxError
  | nilMap

def asObject : Json → Option (Fields Json)
  | .obj fields => some fields
  | .null => some []
  | _ => none

def ruleFields : Json → Fields Json
  | .obj fields => fields
  | _ => []

def stringField (fields : Fields Json) (key : String) : Option String :=
  match fields.get key with
  | none | some .null => some ""
  | some (.str s) => some s
  | some _ => none

def pushDigit (n : Int) (c : Char) : Option Int :=
  if c.isDigit then some (10 * n + (c.toNat - '0'.toNat : Nat)) else none

def parseInt (digits : String) : Option Int := do
  let n ← match digits.toList with
    | [] => none
    | '-' :: rest => (rest.foldlM pushDigit 0).map fun n => -n
    | rest => rest.foldlM pushDigit 0
  if -2 ^ 63 ≤ n ∧ n < 2 ^ 63 then some n else none

def intField (fields : Fields Json) (key : String) : Option Int :=
  match fields.get key with
  | none | some .null => some 0
  | some (.num digits) => parseInt digits
  | some _ => none

def boolField (fields : Fields Json) (key : String) : Option Bool :=
  match fields.get key with
  | none | some .null => some false
  | some (.bool b) => some b
  | some _ => none

section save

def inboundConfig (elem : Json) : Option InboundConfig := do
  let fields ← asObject elem
  let port ← intField fields "port"
  let protocol ← stringField fields "protocol"
  let tag ← stringField fields "tag"
  pure ⟨fields.get "listen", port, protocol, fields.get "settings", tag⟩

def inboundConfigs (fields : Fields Json) : Option (List InboundConfig) :=
  match fields.get "inbounds" with
  | none | some .null => some []
  | some (.arr elems) => elems.mapM inboundConfig
  | some _ => none

def unmarshalConfig (text : Json) : Option Config := do
  let fields ← asObject text
  let inbounds ← inboundConfigs fields
  pure ⟨fields.get "routing", inbounds⟩

def unwrapKeys : List String :=
  ["inbounds", "outbounds", "routing", "api", "dns", "log", "policy", "stats"]

def unwrapXrayTemplateConfig (parse : String → Option Json) : Nat → Option Json → Option Json
  | 0, raw => raw
  | depth + 1, raw =>
    match raw.bind asObject with
    | none => raw
    | some top =>
      match top.get "xraySetting" with
      | none => raw
      | some inner =>
        if unwrapKeys.any fun key => (top.get key).isSome then raw
        else
          match inner with
          | .str asStr => unwrapXrayTemplateConfig parse depth (parse asStr)
          | .null => unwrapXrayTemplateConfig parse depth none
          | _ => unwrapXrayTemplateConfig parse depth (some inner)

def maxDepth : Nat := 8

def isApiRule (rule : Fields Json) : Bool :=
  rule.get "outboundTag" == some (.str "api") &&
    match rule.get "inboundTag" with
    | some (.arr tags) => tags.contains (.str "api")
    | some (.str tags) => tags == "api"
    | _ => false

def findApiRule (rules : List Json) : Option Nat :=
  rules.findIdx? fun rule => isApiRule (ruleFields rule)

def ruleObjects : Option Json → Option (List Json)
  | none | some .null => some []
  | some (.arr elems) => if elems.all fun e => (asObject e).isSome then some elems else none
  | some _ => none

def routingObject : Option Json → Option (Fields Json)
  | none => some []
  | some routing => asObject routing

def defaultApiRule : Json :=
  .obj [("type", .str "field"), ("inboundTag", .arr [.str "api"]), ("outboundTag", .str "api")]

def ensureStatsRouting (raw : Json) : Except Unparsed Json :=
  match raw with
  | .null => .error .nilMap
  | .obj cfg =>
    match routingObject (Fields.get cfg "routing") with
    | none => .error .syntaxError
    | some routing =>
      match ruleObjects (routing.get "rules") with
      | none => .error .syntaxError
      | some rules =>
        let hoisted (apiRule : Json) (rest : List Json) : Except Unparsed Json :=
          .ok (.obj (Fields.put cfg "routing" (.obj (routing.put "rules" (.arr (apiRule :: rest))))))
        match findApiRule rules with
        | some 0 => .ok raw
        | some (i + 1) =>
          hoisted (.obj ((ruleFields (rules.getD (i + 1) .null)).del "enabled")) (rules.eraseIdx (i + 1))
        | none => hoisted defaultApiRule rules
  | _ => .error .syntaxError

def saveXraySetting (parse : String → Option Json) (newXraySettings : String) : Option Json := do
  let text ← unwrapXrayTemplateConfig parse maxDepth (parse newXraySettings)
  let _ ← unmarshalConfig text
  match ensureStatsRouting text with
  | .ok hoisted => some hoisted
  | .error .syntaxError => some text
  | .error .nilMap => none

end save

section generate

structure Inbound where
  enable : Bool
  nodeID : Option Int
  protocol : String
  tag : String
  listen : Json
  port : Int
  settings : Json

structure Node where
  id : Int
  enable : Bool
  outboundTag : String

structure Bridge where
  routeThroughXray : Bool
  routeXrayPort : Int
  outboundTag : String

def mtproto : String := "mtproto"

def ruleList (routing : Fields Json) : List Json :=
  match routing.get "rules" with
  | some (.arr rules) => rules
  | _ => []

def activeRule (rawRule : Json) : Option Json :=
  match rawRule with
  | .obj rule =>
    match Fields.get rule "enabled" with
    | some enabled =>
      if enabled = .bool false ∧ isApiRule rule = false then none else some (.obj (Fields.del rule "enabled"))
    | none => some rawRule
  | _ => some rawRule

def activeRules (rules : List Json) : List Json := rules.filterMap activeRule

def hasEnabled (rawRule : Json) : Bool := ((ruleFields rawRule).get "enabled").isSome

def jsonSlice : List Json → Json
  | [] => .null
  | elems => .arr elems

def stripDisabledRules (routerCfg : Option Json) : Option Json :=
  match routerCfg with
  | some (.obj parsed) =>
    if (ruleList parsed).any hasEnabled then
      some (.obj (Fields.put parsed "rules" (jsonSlice (activeRules (ruleList parsed)))))
    else routerCfg
  | _ => routerCfg

inductive Routing
  | unparsable
  | nilMap
  | fields (routing : Fields Json)

def unmarshalRouting : Option Json → Routing
  | none => .fields []
  | some (.obj fields) => .fields fields
  | some .null => .nilMap
  | some _ => .unparsable

def routingTagIsBalancer (routing : Fields Json) (tag : String) : Bool :=
  tag != "" && match routing.get "balancers" with
    | some (.arr balancers) => balancers.any fun b => (ruleFields b).get "tag" == some (.str tag)
    | _ => false

def egressRule (routing : Fields Json) (tag outboundTag : String) : Json :=
  .obj [("type", .str "field"), ("inboundTag", .arr [.str tag]),
    (if routingTagIsBalancer routing outboundTag then "balancerTag" else "outboundTag", .str outboundTag)]

def prependRules (new : List Json) (routing : Fields Json) : Option Json :=
  some (.obj (routing.put "rules" (.arr (new ++ ruleList routing))))

def Config.tags (cfg : Config) : List String := cfg.inboundConfigs.map InboundConfig.tag

def Config.ports (cfg : Config) : List Int := cfg.inboundConfigs.map InboundConfig.port

def socksBridge (port : Int) (tag : String) : InboundConfig where
  listen := some (.str "127.0.0.1")
  port := port
  protocol := "socks"
  settings := some (.obj [("auth", .str "noauth"), ("udp", .bool false)])
  tag := tag

def nextPort : Fresh.Suffix Int where
  at_ port n := port + n
  zero port := add_zero port
  injective _ _ _ h := Int.ofNat_inj.mp (Int.add_left_cancel h)

def parseBridge (settings : Json) : Option Bridge := do
  let fields ← asObject settings
  let through ← boolField fields "routeThroughXray"
  let port ← intField fields "routeXrayPort"
  let outboundTag ← stringField fields "outboundTag"
  pure ⟨through, port, outboundTag⟩

def injectMtprotoEgress (cfg : Config) (inbound : Inbound) : Option Config :=
  match parseBridge inbound.settings with
  | none => some cfg
  | some parsed =>
    if !parsed.routeThroughXray || parsed.routeXrayPort ≤ 0 || inbound.tag = "" then some cfg
    else if inbound.tag ∈ cfg.tags then some cfg
    else
      let bridged (routerConfig : Option Json) : Option Config :=
        some ⟨routerConfig, cfg.inboundConfigs ++ [socksBridge parsed.routeXrayPort inbound.tag]⟩
      if parsed.outboundTag = "" then bridged cfg.routerConfig
      else
        match unmarshalRouting cfg.routerConfig with
        | .unparsable => bridged cfg.routerConfig
        | .nilMap => none
        | .fields routing =>
          bridged (prependRules [egressRule routing inbound.tag parsed.outboundTag] routing)

def panelEgressInboundTag : String := "panel-egress"

def panelEgressBasePort : Int := 62790

def injectPanelEgress (cfg : Config) (outboundTag : String) : Option Config :=
  if panelEgressInboundTag ∈ cfg.tags then some cfg
  else
    match unmarshalRouting cfg.routerConfig with
    | .unparsable => some cfg
    | .nilMap => none
    | .fields routing =>
      some ⟨prependRules [egressRule routing panelEgressInboundTag outboundTag] routing,
        cfg.inboundConfigs ++
          [socksBridge (Fresh.pick nextPort cfg.ports panelEgressBasePort) panelEgressInboundTag]⟩

def nodeEgressInboundTag (nodeID : Int) : String := "node-egress-" ++ toString nodeID

def nodeEgressBasePort : Int := 62800

structure Bridges where
  rules : List Json
  inboundConfigs : List InboundConfig

def nodeBridge (routing : Fields Json) (acc : Bridges) (n : Node) : Bridges :=
  let tag := nodeEgressInboundTag n.id
  if n.enable = false ∨ n.outboundTag = "" then acc
  else if tag ∈ acc.inboundConfigs.map InboundConfig.tag then acc
  else
    ⟨acc.rules ++ [egressRule routing tag n.outboundTag],
      acc.inboundConfigs ++ [socksBridge
        (Fresh.pick nextPort (acc.inboundConfigs.map InboundConfig.port) (nodeEgressBasePort + n.id)) tag]⟩

def nodeBridges (routing : Fields Json) (cfg : Config) (nodes : List Node) : Bridges :=
  nodes.foldl (nodeBridge routing) ⟨[], cfg.inboundConfigs⟩

def injectNodeEgresses (cfg : Config) (nodes : List Node) : Option Config :=
  match unmarshalRouting cfg.routerConfig with
  | .unparsable => some cfg
  | .nilMap =>
    let new := nodeBridges [] cfg nodes
    if new.rules = [] then some ⟨cfg.routerConfig, new.inboundConfigs⟩ else none
  | .fields routing =>
    let new := nodeBridges routing cfg nodes
    if new.rules = [] then some ⟨cfg.routerConfig, new.inboundConfigs⟩
    else some ⟨prependRules new.rules routing, new.inboundConfigs⟩

def localInbound (inbound : Inbound) : Bool := inbound.enable && inbound.nodeID.isNone

def genXrayInboundConfig (runtimeSettings : Inbound → Json) (inbound : Inbound) : InboundConfig :=
  ⟨some inbound.listen, inbound.port, inbound.protocol, some (runtimeSettings inbound), inbound.tag⟩

structure Panel where
  inbounds : List Inbound
  runtimeSettings : Inbound → Json
  panelOutbound : Option String
  nodes : Option (List Node)

def coreInbounds (p : Panel) : List InboundConfig :=
  (p.inbounds.filter fun i => localInbound i && i.protocol != mtproto).map
    (genXrayInboundConfig p.runtimeSettings)

def routedBridges (p : Panel) : List Inbound :=
  p.inbounds.filter fun i => localInbound i && i.protocol == mtproto

def panelEgress (p : Panel) (cfg : Config) : Option Config :=
  match p.panelOutbound with
  | none => some cfg
  | some egressTag => if egressTag = "" then some cfg else injectPanelEgress cfg egressTag

def nodeEgresses (p : Panel) (cfg : Config) : Option Config :=
  match p.nodes with
  | none => some cfg
  | some nodes => injectNodeEgresses cfg nodes

def startConfig (p : Panel) (base : Config) : Config :=
  ⟨stripDisabledRules base.routerConfig, base.inboundConfigs ++ coreInbounds p⟩

def getXrayConfig (p : Panel) (template : Json) : Option Config := do
  let base ← unmarshalConfig template
  let bridged ← (routedBridges p).foldlM injectMtprotoEgress (startConfig p base)
  let panelled ← panelEgress p bridged
  nodeEgresses p panelled

end generate

section core

structure Core (C : Type) where
  inbound : C → String
  holds : String → Json → C → Bool

def conditionKeys : List String := ["domain", "ip", "port", "source", "user", "network", "protocol"]

def stringElem : Json → Option String
  | .str s => some s
  | .null => some ""
  | _ => none

def stringList : Json → Option (List String)
  | .null => some []
  | .arr elems => elems.mapM stringElem
  | .str s => some (s.splitOn ",")
  | _ => none

def fromInbound (rule : Fields Json) (inbound : String) : Bool :=
  match rule.get "inboundTag" with
  | none => true
  | some v => (stringList v).any fun tags => tags.isEmpty || tags.contains inbound

def Core.matches {C : Type} (x : Core C) (rule : Json) (c : C) : Bool :=
  match rule with
  | .obj fields =>
    fromInbound fields (x.inbound c) &&
      conditionKeys.all fun key => (Fields.get fields key).all fun v => x.holds key v c
  | _ => false

def toApi (rule : Json) : Bool := (ruleFields rule).get "outboundTag" == some (.str "api")

def coreRules (routing : Option Json) : List Json :=
  match routing with
  | some (.obj fields) => ruleList fields
  | _ => []

abbrev RoutedToApi {C : Type} (x : Core C) (rules : List Json) (c : C) : Prop :=
  Sends x.matches toApi rules c

def routingSection (text : Json) : Option Json := (ruleFields text).get "routing"

def submittedRules (text : Json) : Option (List Json) :=
  (routingObject (routingSection text)).bind fun routing => ruleObjects (routing.get "rules")

def StatsSafe {C : Type} (x : Core C) (text : Json) : Prop :=
  ∀ c, x.inbound c = "api" →
    match submittedRules text with
    | none => RoutedToApi x (activeRules (coreRules (routingSection text))) c
    | some rules => ∀ i, findApiRule rules = some i →
        x.matches (rules.getD i .null) c = true ∨ RoutedToApi x (activeRules (rules.eraseIdx i)) c

def ordinaryRules (rules : List Json) : List Json :=
  (activeRules rules).filter fun rule => !isApiRule (ruleFields rule)

structure StatsReachable {C : Type} (x : Core C) (text : Json) (cfg : Config) : Prop where
  reaches : ∀ c, x.inbound c = "api" → RoutedToApi x (coreRules cfg.routerConfig) c
  keeps : (ordinaryRules (coreRules (routingSection text))).Sublist (coreRules cfg.routerConfig)

end core

section active

variable {C : Type} {x : Core C} {rule rule' : Json} {rules : List Json} {fields : Fields Json} {c : C}

theorem fromInbound_del (inbound : String) :
    fromInbound (fields.del "enabled") inbound = fromInbound fields inbound := by
  rw [fromInbound, Fields.get_del_ne (by decide), fromInbound]

theorem isApiRule_del : isApiRule (fields.del "enabled") = isApiRule fields := by
  rw [isApiRule, Fields.get_del_ne (by decide), Fields.get_del_ne (by decide), isApiRule]

theorem matches_del : x.matches (.obj (fields.del "enabled")) c = x.matches (.obj fields) c := by
  have hkeys : ∀ key ∈ conditionKeys, (Fields.get (fields.del "enabled") key) = Fields.get fields key := by
    intro key hkey
    apply Fields.get_del_ne
    rintro rfl
    exact absurd hkey (by decide)
  rw [Core.matches, fromInbound_del, Core.matches]
  congr 1
  rw [Bool.eq_iff_iff, all_eq_true, all_eq_true]
  exact forall₂_congr fun key hkey => by rw [hkeys key hkey]

theorem toApi_of_api (h : isApiRule (ruleFields rule) = true) : toApi rule = true :=
  (Bool.and_eq_true_iff.mp h).1

theorem activeRule_bare (h : hasEnabled rule = false) : activeRule rule = some rule := by
  cases rule with
  | obj fields =>
    have hnone : Fields.get fields "enabled" = none := by
      simpa [hasEnabled, ruleFields] using h
    simp only [activeRule, hnone]
  | _ => rfl

theorem activeRules_bare (h : rules.any hasEnabled = false) : activeRules rules = rules := by
  rw [any_eq_false] at h
  induction rules with
  | nil => rfl
  | cons rule rules ih =>
    have hrule := activeRule_bare (Bool.eq_false_iff.mpr (h rule mem_cons_self))
    rw [activeRules, filterMap_cons_some hrule]
    exact congrArg (rule :: ·) (ih fun r hr => h r (mem_cons_of_mem _ hr))

theorem activeRule_api (h : isApiRule (ruleFields rule) = true) :
    ∃ rule', activeRule rule = some rule' ∧ isApiRule (ruleFields rule') = true ∧
      ∀ (C : Type) (x : Core C) (c : C), x.matches rule' c = x.matches rule c := by
  cases henabled : hasEnabled rule with
  | false => exact ⟨rule, activeRule_bare henabled, h, fun _ _ _ => rfl⟩
  | true =>
    cases rule with
    | obj fields =>
      obtain ⟨enabled, hget⟩ := Option.isSome_iff_exists.mp henabled
      have hget : Fields.get fields "enabled" = some enabled := hget
      have hapi : isApiRule fields = true := h
      refine ⟨.obj (Fields.del fields "enabled"), ?_, isApiRule_del.trans hapi,
        fun _ _ _ => matches_del⟩
      simp [activeRule, hget, hapi]
    | _ => exact absurd henabled Bool.false_ne_true

theorem activeRules_api (rules : List Json) (h : isApiRule (ruleFields rule) = true) :
    ∃ rule', activeRules (rule :: rules) = rule' :: activeRules rules ∧
      isApiRule (ruleFields rule') = true ∧
      ∀ (C : Type) (x : Core C) (c : C), x.matches rule' c = x.matches rule c := by
  obtain ⟨rule', hactive, hapi, hmatches⟩ := activeRule_api h
  exact ⟨rule', filterMap_cons_some hactive, hapi, hmatches⟩

theorem ordinaryRules_api (h : isApiRule (ruleFields rule) = true) :
    ordinaryRules (rule :: rules) = ordinaryRules rules := by
  obtain ⟨rule', hactive, hapi, -⟩ := activeRules_api rules h
  rw [ordinaryRules, hactive, filter_cons_of_neg (by simp [hapi]), ordinaryRules]

theorem routedToApi_cons (h : isApiRule (ruleFields rule) = true) :
    RoutedToApi x (activeRules (rule :: rules)) c ↔
      x.matches rule c = true ∨ RoutedToApi x (activeRules rules) c := by
  obtain ⟨rule', hactive, hapi, hmatches⟩ := activeRules_api rules h
  rw [hactive, ← hmatches]
  exact sends_cons_good (toApi_of_api hapi)

theorem coreRules_strip (routing : Option Json) :
    coreRules (stripDisabledRules routing) = activeRules (coreRules routing) := by
  cases routing with
  | none => rfl
  | some v =>
    cases v with
    | obj fields =>
      simp only [stripDisabledRules]
      cases hany : (ruleList fields).any hasEnabled with
      | false =>
        rw [if_neg nofun]
        exact (activeRules_bare hany).symm
      | true =>
        rw [if_pos rfl, coreRules, ruleList, Fields.get_put_self]
        show _ = activeRules (ruleList fields)
        cases activeRules (ruleList fields) <;> rfl
    | _ => rfl

end active

section inject

variable {cfg cfg' cfg'' : Config} {routing : Fields Json} {rule : Json} {rules : List Json} {tag : String}

def Foreign (rule : Json) : Prop :=
  ∃ tag, tag ≠ "api" ∧ (ruleFields rule).get "inboundTag" = some (.arr [.str tag])

structure Extends (cfg cfg' : Config) : Prop where
  rules : ∃ new, coreRules cfg'.routerConfig = new ++ coreRules cfg.routerConfig ∧ ∀ r ∈ new, Foreign r
  readable : cfg'.routerConfig ≠ some .null
  inbounds : cfg.inboundConfigs <+: cfg'.inboundConfigs

theorem Extends.refl (h : cfg.routerConfig ≠ some .null) : Extends cfg cfg :=
  ⟨⟨[], rfl, nofun⟩, h, prefix_rfl⟩

theorem Extends.trans (h : Extends cfg cfg') (h' : Extends cfg' cfg'') : Extends cfg cfg'' := by
  obtain ⟨new, hnew, hforeign⟩ := h.rules
  obtain ⟨new', hnew', hforeign'⟩ := h'.rules
  refine ⟨⟨new' ++ new, ?_, ?_⟩, h'.readable, h.inbounds.trans h'.inbounds⟩
  · rw [hnew', hnew, append_assoc]
  · intro r hr
    rcases mem_append.mp hr with hr | hr
    · exact hforeign' r hr
    · exact hforeign r hr

theorem Extends.tags (h : Extends cfg cfg') (htag : tag ∈ cfg.tags) : tag ∈ cfg'.tags :=
  (h.inbounds.map InboundConfig.tag).subset htag

theorem egressRule_foreign (routing : Fields Json) (outboundTag : String) (h : tag ≠ "api") :
    Foreign (egressRule routing tag outboundTag) := by
  refine ⟨tag, h, ?_⟩
  rfl

theorem coreRules_prepend : coreRules (prependRules rules routing) = rules ++ ruleList routing := by
  rw [prependRules, coreRules, ruleList, Fields.get_put_self]

theorem coreRules_fields {routerConfig : Option Json} (h : unmarshalRouting routerConfig = .fields routing) :
    coreRules routerConfig = ruleList routing := by
  cases routerConfig with
  | none =>
    obtain rfl := Routing.fields.inj h
    rfl
  | some v =>
    cases v with
    | obj fields =>
      obtain rfl := Routing.fields.inj h
      rfl
    | _ => exact nomatch h

theorem readable_routing (h : cfg.routerConfig ≠ some .null) :
    unmarshalRouting cfg.routerConfig ≠ .nilMap := by
  cases hcfg : cfg.routerConfig with
  | none => exact nofun
  | some v =>
    cases v with
    | null => exact absurd hcfg h
    | _ => exact nofun

variable {inbounds : List InboundConfig}

theorem prependRules_extends
    (hrouting : unmarshalRouting cfg.routerConfig = .fields routing) (hforeign : ∀ r ∈ rules, Foreign r)
    (hinbounds : cfg.inboundConfigs <+: inbounds) :
    Extends cfg ⟨prependRules rules routing, inbounds⟩ := by
  refine ⟨⟨rules, ?_, hforeign⟩, ?_, hinbounds⟩
  · show coreRules (prependRules rules routing) = _
    rw [coreRules_prepend, coreRules_fields hrouting]
  · exact fun h => nomatch Option.some.inj h

theorem inbounds_extends (h : cfg.routerConfig ≠ some .null)
    (hinbounds : cfg.inboundConfigs <+: inbounds) : Extends cfg ⟨cfg.routerConfig, inbounds⟩ :=
  ⟨⟨[], rfl, nofun⟩, h, hinbounds⟩

theorem injectMtprotoEgress_extends (inbound : Inbound) (h : cfg.routerConfig ≠ some .null)
    (hapi : "api" ∈ cfg.tags) :
    ∃ cfg', injectMtprotoEgress cfg inbound = some cfg' ∧ Extends cfg cfg' := by
  rw [injectMtprotoEgress]
  cases hbridge : parseBridge inbound.settings with
  | none => exact ⟨cfg, rfl, .refl h⟩
  | some parsed =>
    simp only
    split
    · exact ⟨cfg, rfl, .refl h⟩
    · split
      · exact ⟨cfg, rfl, .refl h⟩
      · rename_i hfresh
        have htag : inbound.tag ≠ "api" := fun he => hfresh (he ▸ hapi)
        split
        · exact ⟨_, rfl, inbounds_extends h (prefix_append ..)⟩
        · cases hrouting : unmarshalRouting cfg.routerConfig with
          | unparsable => exact ⟨_, rfl, inbounds_extends h (prefix_append ..)⟩
          | nilMap => exact absurd hrouting (readable_routing h)
          | fields routing =>
            refine ⟨_, rfl, prependRules_extends hrouting ?_ (prefix_append ..)⟩
            exact forall_mem_singleton.mpr (egressRule_foreign _ _ htag)

theorem injectAll_extends (inbounds : List Inbound) (h : cfg.routerConfig ≠ some .null)
    (hapi : "api" ∈ cfg.tags) :
    ∃ cfg', inbounds.foldlM injectMtprotoEgress cfg = some cfg' ∧ Extends cfg cfg' := by
  induction inbounds generalizing cfg with
  | nil => exact ⟨cfg, rfl, .refl h⟩
  | cons inbound inbounds ih =>
    obtain ⟨next, hnext, hext⟩ := injectMtprotoEgress_extends inbound h hapi
    obtain ⟨last, hlast, hrest⟩ := ih hext.readable (hext.tags hapi)
    refine ⟨last, ?_, hext.trans hrest⟩
    rw [foldlM_cons, hnext]
    exact hlast

theorem injectPanelEgress_extends (outboundTag : String) (h : cfg.routerConfig ≠ some .null) :
    ∃ cfg', injectPanelEgress cfg outboundTag = some cfg' ∧ Extends cfg cfg' := by
  rw [injectPanelEgress]
  split
  · exact ⟨cfg, rfl, .refl h⟩
  · cases hrouting : unmarshalRouting cfg.routerConfig with
    | unparsable => exact ⟨cfg, rfl, .refl h⟩
    | nilMap => exact absurd hrouting (readable_routing h)
    | fields routing =>
      refine ⟨_, rfl, prependRules_extends hrouting ?_ (prefix_append ..)⟩
      exact forall_mem_singleton.mpr (egressRule_foreign _ _ (by decide))

theorem nodeEgressInboundTag_ne (nodeID : Int) : nodeEgressInboundTag nodeID ≠ "api" := by
  intro h
  have hlen := congrArg String.length h
  rw [nodeEgressInboundTag, String.length_append] at hlen
  have hbase : "node-egress-".length = 12 := rfl
  have hapi : "api".length = 3 := rfl
  omega

theorem nodeBridges_foreign (routing : Fields Json) (nodes : List Node) (acc : Bridges)
    (h : ∀ r ∈ acc.rules, Foreign r) :
    (∀ r ∈ (nodes.foldl (nodeBridge routing) acc).rules, Foreign r) ∧
      acc.inboundConfigs <+: (nodes.foldl (nodeBridge routing) acc).inboundConfigs := by
  induction nodes generalizing acc with
  | nil => exact ⟨h, prefix_rfl⟩
  | cons n nodes ih =>
    rw [foldl_cons, nodeBridge]
    split
    · exact ih acc h
    · split
      · exact ih acc h
      · have hnew := forall_mem_singleton.mpr
          (egressRule_foreign routing n.outboundTag (nodeEgressInboundTag_ne n.id))
        obtain ⟨hforeign, hpre⟩ := ih ⟨acc.rules ++ [_], _⟩ (forall_mem_append.mpr ⟨h, hnew⟩)
        exact ⟨hforeign, (prefix_append ..).trans hpre⟩

theorem injectNodeEgresses_extends (nodes : List Node) (h : cfg.routerConfig ≠ some .null) :
    ∃ cfg', injectNodeEgresses cfg nodes = some cfg' ∧ Extends cfg cfg' := by
  rw [injectNodeEgresses]
  cases hrouting : unmarshalRouting cfg.routerConfig with
  | unparsable => exact ⟨cfg, rfl, .refl h⟩
  | nilMap => exact absurd hrouting (readable_routing h)
  | fields routing =>
    obtain ⟨hforeign, hpre⟩ := nodeBridges_foreign routing nodes ⟨[], cfg.inboundConfigs⟩ nofun
    simp only
    split
    · exact ⟨_, rfl, inbounds_extends h hpre⟩
    · exact ⟨_, rfl, prependRules_extends hrouting hforeign hpre⟩

end inject

section generated

variable {C : Type} {x : Core C} {parse : String → Option Json} {text stored : Json} {rules : List Json}
  {base : Config} {i : Nat} {c : C}

theorem startConfig_readable (p : Panel) (h : base.routerConfig ≠ some .null) :
    (startConfig p base).routerConfig ≠ some .null := by
  show stripDisabledRules base.routerConfig ≠ some .null
  cases hrouting : base.routerConfig with
  | none => exact nofun
  | some v =>
    cases v with
    | null => exact absurd hrouting h
    | obj fields =>
      simp only [stripDisabledRules]
      split <;> exact nofun
    | _ => exact nofun

theorem panelEgress_extends (p : Panel) {cfg : Config} (h : cfg.routerConfig ≠ some .null) :
    ∃ cfg', panelEgress p cfg = some cfg' ∧ Extends cfg cfg' := by
  rw [panelEgress]
  cases p.panelOutbound with
  | none => exact ⟨cfg, rfl, .refl h⟩
  | some egressTag =>
    simp only
    split
    · exact ⟨cfg, rfl, .refl h⟩
    · exact injectPanelEgress_extends egressTag h

theorem nodeEgresses_extends (p : Panel) {cfg : Config} (h : cfg.routerConfig ≠ some .null) :
    ∃ cfg', nodeEgresses p cfg = some cfg' ∧ Extends cfg cfg' := by
  rw [nodeEgresses]
  cases p.nodes with
  | none => exact ⟨cfg, rfl, .refl h⟩
  | some nodes => exact injectNodeEgresses_extends nodes h

theorem getXrayConfig_rules (p : Panel) (hbase : unmarshalConfig stored = some base)
    (hreadable : base.routerConfig ≠ some .null) (hapi : "api" ∈ base.tags) :
    ∃ cfg, getXrayConfig p stored = some cfg ∧
      ∃ new, coreRules cfg.routerConfig = new ++ activeRules (coreRules base.routerConfig) ∧
        ∀ r ∈ new, Foreign r := by
  have htags : "api" ∈ (startConfig p base).tags := by
    rw [Config.tags, startConfig, map_append]
    exact mem_append_left _ hapi
  obtain ⟨bridged, hbridged, hext⟩ := injectAll_extends (routedBridges p)
    (startConfig_readable p hreadable) htags
  obtain ⟨panelled, hpanelled, hext'⟩ := panelEgress_extends p hext.readable
  obtain ⟨cfg, hcfg, hext''⟩ := nodeEgresses_extends p hext'.readable
  refine ⟨cfg, ?_, ?_⟩
  · simp only [getXrayConfig, hbase, hbridged, hpanelled, hcfg, Option.bind_eq_bind, Option.bind_some]
  · obtain ⟨new, hnew, hforeign⟩ := (hext.trans (hext'.trans hext'')).rules
    exact ⟨new, by rw [hnew, startConfig, coreRules_strip], hforeign⟩

theorem foreign_misses (h : ∀ r ∈ rules, Foreign r) (hc : x.inbound c = "api") :
    ∀ r ∈ rules, x.matches r c = false := by
  intro r hr
  obtain ⟨tag, hne, hget⟩ := h r hr
  cases r with
  | obj fields =>
    have hget : Fields.get fields "inboundTag" = some (.arr [.str tag]) := hget
    have hmiss : fromInbound fields "api" = false := by
      simp [fromInbound, hget, stringList, stringElem, hne.symm]
    rw [Core.matches, hc, hmiss, Bool.false_and]
  | _ => rfl

theorem routedToApi_foreign {new : List Json} (h : ∀ r ∈ new, Foreign r) (hc : x.inbound c = "api") :
    RoutedToApi x (new ++ rules) c ↔ RoutedToApi x rules c :=
  sends_skip (foreign_misses h hc)

theorem coreRules_submitted (h : submittedRules text = some rules) :
    coreRules (routingSection text) = rules := by
  rw [submittedRules] at h
  cases hsection : routingSection text with
  | none =>
    rw [hsection] at h
    exact Option.some.inj h
  | some routing =>
    rw [hsection] at h
    cases routing with
    | null => exact Option.some.inj h
    | obj fields =>
      have h : ruleObjects (Fields.get fields "rules") = some rules := h
      rw [coreRules, ruleList]
      cases hrules : Fields.get fields "rules" with
      | none =>
        rw [hrules] at h
        exact Option.some.inj h
      | some v =>
        rw [hrules] at h
        cases v with
        | null => exact Option.some.inj h
        | arr elems =>
          rw [ruleObjects] at h
          exact Option.some.inj (Option.ite_none_right_eq_some.mp h).2
        | _ => exact nomatch h
    | _ => exact nomatch h

def hoistedRules (rules : List Json) : List Json :=
  match findApiRule rules with
  | some i => .obj ((ruleFields (rules.getD i .null)).del "enabled") :: rules.eraseIdx i
  | none => defaultApiRule :: rules

def savedRules (text : Json) : List Json :=
  match submittedRules text with
  | none => coreRules (routingSection text)
  | some rules => if findApiRule rules = some 0 then rules else hoistedRules rules

theorem unmarshalConfig_obj {fields : Fields Json} (h : unmarshalConfig (.obj fields) = some base) :
    inboundConfigs fields = some base.inboundConfigs ∧ base.routerConfig = fields.get "routing" := by
  simp only [unmarshalConfig, asObject, Option.bind_eq_bind, Option.bind_some, Option.pure_def,
    Option.bind_eq_some_iff, Option.some.injEq] at h
  obtain ⟨inbounds, hinbounds, rfl⟩ := h
  exact ⟨hinbounds, rfl⟩

theorem submitted_readable (h : submittedRules text ≠ some []) : routingSection text ≠ some .null := by
  intro hnull
  rw [submittedRules, hnull] at h
  exact h rfl

theorem findApiRule_nil : findApiRule [] = none := rfl

theorem ensureStatsRouting_hoists {cfg routing : Fields Json}
    (hrouting : routingObject (cfg.get "routing") = some routing)
    (hrules : ruleObjects (routing.get "rules") = some rules) (hfirst : findApiRule rules ≠ some 0) :
    ensureStatsRouting (.obj cfg) =
      .ok (.obj (cfg.put "routing" (.obj (routing.put "rules" (.arr (hoistedRules rules)))))) := by
  rw [ensureStatsRouting, hrouting]
  simp only [hrules]
  rw [hoistedRules]
  cases hfind : findApiRule rules with
  | none => rfl
  | some i =>
    cases i with
    | zero => exact absurd hfind hfirst
    | succ i => rfl

theorem saveXraySetting_rules {newXraySettings : String}
    (hunwrap : unwrapXrayTemplateConfig parse maxDepth (parse newXraySettings) = some text)
    (hsave : saveXraySetting parse newXraySettings = some stored) (hbase : unmarshalConfig text = some base) :
    ∃ base', unmarshalConfig stored = some base' ∧ base'.inboundConfigs = base.inboundConfigs ∧
      base'.routerConfig ≠ some .null ∧ coreRules base'.routerConfig = savedRules text := by
  simp only [saveXraySetting, hunwrap, hbase, Option.bind_eq_bind, Option.bind_some] at hsave
  cases text with
  | obj cfg =>
    obtain ⟨hinbounds, hsection⟩ := unmarshalConfig_obj hbase
    have hsection : base.routerConfig = routingSection (.obj cfg) := hsection
    cases hrules : submittedRules (.obj cfg) with
    | none =>
      have herror : ensureStatsRouting (.obj cfg) = .error .syntaxError := by
        rw [ensureStatsRouting]
        cases hrouting : routingObject (Fields.get cfg "routing") with
        | none => rfl
        | some routing =>
          have hnone : ruleObjects (routing.get "rules") = none := by
            have hbind : (routingObject (Fields.get cfg "routing")).bind
              (fun routing => ruleObjects (routing.get "rules")) = none := hrules
            rwa [hrouting] at hbind
          simp only [hnone]
      simp only [herror, Option.some.injEq] at hsave
      subst hsave
      refine ⟨base, hbase, rfl, ?_, ?_⟩
      · rw [hsection]
        exact submitted_readable (by simp [hrules])
      · rw [hsection, savedRules, hrules]
    | some rules =>
      have hbind : (routingObject (Fields.get cfg "routing")).bind
        (fun routing => ruleObjects (routing.get "rules")) = some rules := hrules
      obtain ⟨routing, hrouting, hobjects⟩ := Option.bind_eq_some_iff.mp hbind
      by_cases hfirst : findApiRule rules = some 0
      · have hkept : ensureStatsRouting (.obj cfg) = .ok (.obj cfg) := by
          rw [ensureStatsRouting, hrouting]
          simp only [hobjects, hfirst]
        simp only [hkept, Option.some.injEq] at hsave
        subst hsave
        refine ⟨base, hbase, rfl, ?_, ?_⟩
        · rw [hsection]
          apply submitted_readable
          rw [hrules]
          intro hnil
          rw [Option.some.inj hnil, findApiRule_nil] at hfirst
          exact nomatch hfirst
        · rw [hsection, coreRules_submitted hrules, savedRules, hrules]
          simp only [hfirst, if_true]
      · simp only [ensureStatsRouting_hoists hrouting hobjects hfirst, Option.some.injEq] at hsave
        subst hsave
        refine ⟨⟨some (.obj (routing.put "rules" (.arr (hoistedRules rules)))), base.inboundConfigs⟩, ?_,
          rfl, nofun, ?_⟩
        · have hkept : inboundConfigs (Fields.put cfg "routing"
              (.obj (routing.put "rules" (.arr (hoistedRules rules))))) = some base.inboundConfigs := by
            rw [inboundConfigs, Fields.get_put_ne (by decide), ← inboundConfigs, hinbounds]
          simp only [unmarshalConfig, asObject, Option.bind_eq_bind, Option.bind_some, hkept,
            Fields.get_put_self, Option.pure_def]
        · rw [savedRules, hrules]
          simp only [if_neg hfirst, coreRules, ruleList, Fields.get_put_self]
  | null => exact nomatch hsave
  | _ => exact nomatch hbase

theorem ordinaryRules_cons (rule : Json) :
    ∃ front, ∀ rules, ordinaryRules (rule :: rules) = front ++ ordinaryRules rules := by
  cases hactive : activeRule rule with
  | none => exact ⟨[], fun rules => by rw [ordinaryRules, activeRules, filterMap_cons_none hactive]; rfl⟩
  | some rule' =>
    refine ⟨[rule'].filter fun rule => !isApiRule (ruleFields rule), fun rules => ?_⟩
    rw [ordinaryRules, activeRules, filterMap_cons_some hactive, ← singleton_append,
      filter_append]
    rfl

theorem ordinaryRules_erase (h : isApiRule (ruleFields (rules.getD i .null)) = true) :
    ordinaryRules (rules.eraseIdx i) = ordinaryRules rules := by
  induction rules generalizing i with
  | nil => rfl
  | cons rule rules ih =>
    cases i with
    | zero => exact (ordinaryRules_api h).symm
    | succ i =>
      obtain ⟨front, hfront⟩ := ordinaryRules_cons rule
      rw [eraseIdx_cons_succ, hfront, hfront, ih h]

theorem findApiRule_api (h : findApiRule rules = some i) :
    isApiRule (ruleFields (rules.getD i .null)) = true := by
  obtain ⟨hi, hrule, -⟩ := findIdx?_eq_some_iff_getElem.mp h
  rwa [getD_eq_getElem _ _ hi]

theorem hoisted_api (h : isApiRule (ruleFields (rules.getD i .null)) = true) :
    ∃ fields, rules.getD i .null = .obj fields ∧ isApiRule (Fields.del fields "enabled") = true := by
  cases hrule : rules.getD i .null with
  | obj fields =>
    rw [hrule] at h
    exact ⟨fields, rfl, isApiRule_del.trans h⟩
  | _ =>
    rw [hrule] at h
    exact absurd h Bool.false_ne_true

theorem savedRules_ordinary (text : Json) :
    ordinaryRules (savedRules text) = ordinaryRules (coreRules (routingSection text)) := by
  rw [savedRules]
  cases hrules : submittedRules text with
  | none => rfl
  | some rules =>
    rw [coreRules_submitted hrules]
    by_cases hfirst : findApiRule rules = some 0
    · simp only [if_pos hfirst]
    · simp only [if_neg hfirst, hoistedRules]
      cases hfind : findApiRule rules with
      | none => exact ordinaryRules_api rfl
      | some i =>
        have hapi := findApiRule_api hfind
        obtain ⟨fields, hrule, hdel⟩ := hoisted_api hapi
        simp only [hrule]
        have hfront : isApiRule (ruleFields (.obj (Fields.del fields "enabled"))) = true := hdel
        exact (ordinaryRules_api hfront).trans (ordinaryRules_erase hapi)

theorem defaultApiRule_matches (hc : x.inbound c = "api") : x.matches defaultApiRule c = true := by
  show (fromInbound (ruleFields defaultApiRule) (x.inbound c) && _) = true
  rw [hc]
  rfl

theorem savedRules_safe (text : Json) :
    (∀ c, x.inbound c = "api" → RoutedToApi x (activeRules (savedRules text)) c) ↔ StatsSafe x text := by
  apply forall₂_congr
  intro c hc
  rw [savedRules]
  cases hrules : submittedRules text with
  | none => rfl
  | some rules =>
    simp only
    cases hfind : findApiRule rules with
    | none =>
      simp only [reduceCtorEq, if_false, hoistedRules, hfind, false_implies, implies_true, iff_true]
      exact (routedToApi_cons rfl).mpr (.inl (defaultApiRule_matches hc))
    | some i =>
      have hapi := findApiRule_api hfind
      simp only [Option.some.injEq, forall_eq']
      by_cases hfirst : i = 0
      · subst hfirst
        rw [if_pos rfl]
        cases rules with
        | nil => exact nomatch hfind
        | cons rule rules => exact routedToApi_cons hapi
      · obtain ⟨fields, hrule, hdel⟩ := hoisted_api hapi
        rw [if_neg hfirst, hoistedRules, hfind]
        simp only [hrule]
        rw [← matches_del]
        exact routedToApi_cons hdel

end generated

section shop

structure Visit where
  inbound : String
  domain : String
deriving DecidableEq

def byDomain : Core Visit where
  inbound := Visit.inbound
  holds key v c := key != "domain" || v == .arr [.str c.domain]

def apiInbound : Json :=
  .obj [("tag", .str "api"), ("port", .num "62789"), ("protocol", .str "dokodemo-door")]

def catchAll : Json :=
  .obj [("type", .str "field"), ("network", .str "tcp,udp"), ("outboundTag", .str "cascade")]

def template (rules : List Json) : Json :=
  .obj [("inbounds", .arr [apiInbound]), ("routing", .obj [("rules", .arr rules)])]

def plainApiRule : Json :=
  .obj [("type", .str "field"), ("inboundTag", .arr [.str "api"]), ("outboundTag", .str "api"),
    ("enabled", .bool false)]

def narrowApiRule : Json :=
  .obj [("type", .str "field"), ("inboundTag", .arr [.str "api"]), ("domain", .arr [.str "stats"]),
    ("outboundTag", .str "api")]

def plainText : String :=
  "\x7b\"inbounds\":[\x7b\"tag\":\"api\",\"port\":62789,\"protocol\":\"dokodemo-door\"\x7d]," ++
    "\"routing\":\x7b\"rules\":[\x7b\"type\":\"field\",\"network\":\"tcp,udp\",\"outboundTag\":\"cascade\"\x7d," ++
    "\x7b\"type\":\"field\",\"inboundTag\":[\"api\"],\"outboundTag\":\"api\",\"enabled\":false\x7d]\x7d\x7d"

def narrowText : String :=
  "\x7b\"inbounds\":[\x7b\"tag\":\"api\",\"port\":62789,\"protocol\":\"dokodemo-door\"\x7d]," ++
    "\"routing\":\x7b\"rules\":[\x7b\"type\":\"field\",\"inboundTag\":[\"api\"],\"domain\":[\"stats\"]," ++
    "\"outboundTag\":\"api\"\x7d,\x7b\"type\":\"field\",\"network\":\"tcp,udp\",\"outboundTag\":\"cascade\"\x7d]\x7d\x7d"

def parseText (text : String) : Option Json :=
  if text = plainText then some (template [catchAll, plainApiRule])
  else if text = narrowText then some (template [narrowApiRule, catchAll])
  else none

def bare : Panel := ⟨[], fun i => i.settings, none, some []⟩

def templateConfig (rules : List Json) : Config :=
  ⟨some (.obj [("rules", .arr rules)]), [⟨none, 62789, "dokodemo-door", none, "api"⟩]⟩

end shop

end StatsRouting

end QuiPanel
