import QuiPanel.Library.Json
import QuiPanel.Library.Diff
import QuiPanel.Library.Outcome

namespace QuiPanel

namespace HotReload

open List hiding lookup
open KeyedDiff Outcome

structure Codec where
  decode : String → Option Json
  unmarshal : String → Option Json

structure InboundConfig where
  listen : String
  port : Int
  protocol : String
  settings : String
  streamSettings : String
  tag : String
  sniffing : String

structure Config where
  logConfig : String
  routerConfig : String
  dnsConfig : String
  inboundConfigs : List InboundConfig
  outboundConfigs : String
  transport : String
  policy : String
  api : String
  stats : String
  reverse : String
  fakeDNS : String
  observatory : String
  burstObservatory : String
  metrics : String
  geodata : String

structure HotDiff where
  removedInboundTags : List String
  addedInbounds : List InboundConfig
  removedOutboundTags : List String
  addedOutbounds : List Json
  routingConfig : Option String

structure OutboundEntry where
  tag : String
  raw : Json
  norm : Json

section source

variable (c : Codec)

def canonicalJSON (raw : String) : Option (Option Json) :=
  if raw = "" then some none
  else (c.decode raw).map fun value => if value = .null then none else some value.sorted

def rawEqualNormalized (a b : String) : Bool :=
  a == b || match canonicalJSON c a, canonicalJSON c b with
    | some na, some nb => na == nb
    | _, _ => false

def inboundEqualNormalized (a b : InboundConfig) : Bool :=
  a.port == b.port && a.protocol == b.protocol && a.tag == b.tag &&
    rawEqualNormalized c a.listen b.listen && rawEqualNormalized c a.settings b.settings &&
    rawEqualNormalized c a.streamSettings b.streamSettings &&
    rawEqualNormalized c a.sniffing b.sniffing

def staticSections (cfg : Config) : List String :=
  [cfg.logConfig, cfg.dnsConfig, cfg.transport, cfg.policy, cfg.api, cfg.stats, cfg.reverse,
    cfg.fakeDNS, cfg.observatory, cfg.burstObservatory, cfg.metrics, cfg.geodata]

def addressable {R : Type} (tag : R → String) (rs : List R) : Option (List R) :=
  rs.foldlM (fun seen r =>
    if tag r = "" then none else if tag r ∈ seen.map tag then none else some (seen ++ [r])) []

def inboundsByTag (inbounds : List InboundConfig) : Option (List InboundConfig) :=
  addressable InboundConfig.tag inbounds

def metaTag (elem : Json) : Option String :=
  match elem with
  | .null => some ""
  | .obj fields =>
    match (Json.obj fields).field "tag" with
    | none | some .null => some ""
    | some (.str tag) => some tag
    | some _ => none
  | _ => none

def outboundEntry (elem : Json) : Option OutboundEntry :=
  (metaTag elem).map fun tag => ⟨tag, elem, elem.sorted⟩

def outboundElems (raw : String) : Option (List Json) :=
  if raw = "" then some []
  else match c.unmarshal raw with
    | some (.arr elems) => some elems
    | some .null => some []
    | _ => none

def parseOutbounds (raw : String) : Option (List OutboundEntry) := do
  let elems ← outboundElems c raw
  let entries ← elems.mapM outboundEntry
  addressable OutboundEntry.tag entries

def apiTagFromConfig (api : String) : String :=
  match (c.unmarshal api).bind metaTag with
  | some tag => if api ≠ "" ∧ tag ≠ "" then tag else "api"
  | none => "api"

def marshals (ib : InboundConfig) : Bool :=
  [ib.listen, ib.settings, ib.streamSettings, ib.sniffing].all fun raw =>
    raw == "" || (c.unmarshal raw).isSome

def diffOldInbounds (newByTag : List InboundConfig) (apiTag : String) :
    List InboundConfig → HotDiff → Option HotDiff
  | [], diff => some diff
  | oldIb :: rest, diff =>
    let newIb := lookup InboundConfig.tag newByTag oldIb.tag
    if newIb.any (inboundEqualNormalized c oldIb) then diffOldInbounds newByTag apiTag rest diff
    else if oldIb.tag = apiTag ∨ oldIb.tag = "api" then none
    else
      let diff := { diff with removedInboundTags := diff.removedInboundTags ++ [oldIb.tag] }
      match newIb with
      | none => diffOldInbounds newByTag apiTag rest diff
      | some newIb =>
        if marshals c newIb then
          diffOldInbounds newByTag apiTag rest
            { diff with addedInbounds := diff.addedInbounds ++ [newIb] }
        else none

def diffNewInbounds (oldByTag : List InboundConfig) (apiTag : String) :
    List InboundConfig → HotDiff → Option HotDiff
  | [], diff => some diff
  | newIb :: rest, diff =>
    if (lookup InboundConfig.tag oldByTag newIb.tag).isSome then
      diffNewInbounds oldByTag apiTag rest diff
    else if newIb.tag = apiTag ∨ newIb.tag = "api" then none
    else if marshals c newIb then
      diffNewInbounds oldByTag apiTag rest
        { diff with addedInbounds := diff.addedInbounds ++ [newIb] }
    else none

def diffInbounds (oldCfg newCfg : Config) (diff : HotDiff) : Option HotDiff := do
  let oldByTag ← inboundsByTag oldCfg.inboundConfigs
  let newByTag ← inboundsByTag newCfg.inboundConfigs
  let apiTag := apiTagFromConfig c newCfg.api
  let diff ← diffOldInbounds c newByTag apiTag oldCfg.inboundConfigs diff
  diffNewInbounds c oldByTag apiTag newCfg.inboundConfigs diff

def diffOldOutbounds (newByTag : List OutboundEntry) : List OutboundEntry → HotDiff → HotDiff
  | [], diff => diff
  | oldE :: rest, diff =>
    let newE := lookup OutboundEntry.tag newByTag oldE.tag
    if newE.any (fun newE => oldE.norm == newE.norm) then diffOldOutbounds newByTag rest diff
    else
      diffOldOutbounds newByTag rest { diff with
        removedOutboundTags := diff.removedOutboundTags ++ [oldE.tag]
        addedOutbounds := diff.addedOutbounds ++ (newE.map (·.raw)).toList }

def diffNewOutbounds (oldByTag : List OutboundEntry) : List OutboundEntry → HotDiff → HotDiff
  | [], diff => diff
  | newE :: rest, diff =>
    if (lookup OutboundEntry.tag oldByTag newE.tag).isSome then diffNewOutbounds oldByTag rest diff
    else diffNewOutbounds oldByTag rest { diff with addedOutbounds := diff.addedOutbounds ++ [newE.raw] }

def sameDefault : List OutboundEntry → List OutboundEntry → Bool
  | [], [] => true
  | oldE :: _, newE :: _ => oldE.tag == newE.tag && oldE.norm == newE.norm
  | _, _ => false

def diffOutbounds (oldCfg newCfg : Config) (diff : HotDiff) : Option HotDiff := do
  let oldOut ← parseOutbounds c oldCfg.outboundConfigs
  let newOut ← parseOutbounds c newCfg.outboundConfigs
  if sameDefault oldOut newOut then
    some (diffNewOutbounds oldOut newOut (diffOldOutbounds newOut oldOut diff))
  else none

def routingWithoutReloadable (raw : String) : Option Json :=
  if raw = "" then some (.obj [])
  else match c.decode raw with
    | some (.obj fields) => some ((Json.obj fields).without ["rules", "balancers"]).sorted
    | some .null => some .null
    | _ => none

def diffRouting (oldCfg newCfg : Config) (diff : HotDiff) : Option HotDiff :=
  if oldCfg.routerConfig = newCfg.routerConfig then some diff
  else if oldCfg.routerConfig = "" ∨ newCfg.routerConfig = "" then none
  else do
    let oldRest ← routingWithoutReloadable c oldCfg.routerConfig
    let newRest ← routingWithoutReloadable c newCfg.routerConfig
    if oldRest = newRest then some { diff with routingConfig := some newCfg.routerConfig } else none

def computeHotDiff (oldCfg newCfg : Config) : Option HotDiff := do
  if ((staticSections oldCfg).zip (staticSections newCfg)).all fun s => rawEqualNormalized c s.1 s.2
  then
    let diff ← diffInbounds c oldCfg newCfg ⟨[], [], [], [], none⟩
    let diff ← diffOutbounds c oldCfg newCfg diff
    diffRouting c oldCfg newCfg diff
  else none

end source

inductive Section
  | text (raw : String)
  | json (value : Option Json)
  deriving DecidableEq

inductive Router
  | absent
  | text (raw : String)
  | table (rules balancers : Option Json) (rest : Json)
  deriving DecidableEq

structure CoreInbound where
  listen : Section
  port : Int
  protocol : String
  settings : Section
  streamSettings : Section
  tag : String
  sniffing : Section
  deriving DecidableEq

structure CoreOutbound where
  tag : String
  value : Json
  deriving DecidableEq

structure Core where
  inbounds : List CoreInbound
  outbounds : List CoreOutbound
  router : Router
  fixed : List Section
  deriving DecidableEq

section core

variable (c : Codec)

def toSection (raw : String) : Section := (canonicalJSON c raw).elim (.text raw) .json

def toInbound (ib : InboundConfig) : CoreInbound where
  listen := toSection c ib.listen
  port := ib.port
  protocol := ib.protocol
  settings := toSection c ib.settings
  streamSettings := toSection c ib.streamSettings
  tag := ib.tag
  sniffing := toSection c ib.sniffing

def toOutbound (elem : Json) : Option CoreOutbound := (metaTag elem).map fun tag => ⟨tag, elem.sorted⟩

def present (v : Option Json) : Option Json := (v.filter (· ≠ .null)).map Json.sorted

def toRouter (raw : String) : Router :=
  if raw = "" then .absent
  else match c.decode raw with
    | some (.obj fields) =>
      let parsed := Json.obj fields
      .table (present (parsed.field "rules")) (present (parsed.field "balancers"))
        (parsed.without ["rules", "balancers"]).sorted
    | some .null => .table none none .null
    | _ => .text raw

def start (cfg : Config) : Option Core := do
  let elems ← outboundElems c cfg.outboundConfigs
  let outbounds ← elems.mapM toOutbound
  return {
    inbounds := cfg.inboundConfigs.map (toInbound c)
    outbounds
    router := toRouter c cfg.routerConfig
    fixed := (staticSections cfg).map (toSection c) }

inductive ApiErr
  | missingHandler
  | existingTag
  | badConfig
  deriving DecidableEq

def delInbound (core : Core) (tag : String) : Except ApiErr Core :=
  if tag ∈ core.inbounds.map (·.tag) then
    .ok { core with inbounds := delete CoreInbound.tag core.inbounds tag }
  else .error .missingHandler

def delOutbound (core : Core) (tag : String) : Except ApiErr Core :=
  if tag ∈ core.outbounds.map (·.tag) then
    .ok { core with outbounds := delete CoreOutbound.tag core.outbounds tag }
  else .error .missingHandler

def addInbound (core : Core) (ib : InboundConfig) : Except ApiErr Core :=
  match add CoreInbound.tag core.inbounds (toInbound c ib) with
  | some inbounds => .ok { core with inbounds }
  | none => .error .existingTag

def addOutbound (core : Core) (raw : Json) : Except ApiErr Core :=
  match toOutbound raw with
  | none => .error .badConfig
  | some ob =>
    match add CoreOutbound.tag core.outbounds ob with
    | some outbounds => .ok { core with outbounds }
    | none => .error .existingTag

def applyRoutingConfig (core : Core) (routing : String) : Except ApiErr Core :=
  match core.router, toRouter c routing with
  | .table _ _ rest, .table rules balancers _ =>
    .ok { core with router := .table rules balancers rest }
  | _, _ => .error .badConfig

def applyRouting (core : Core) : Option String → Except ApiErr Core
  | none => .ok core
  | some routing => applyRoutingConfig c core routing

def ifPresent (core : Core) : Except ApiErr Core → Except ApiErr Core
  | .error .missingHandler => .ok core
  | r => r

def addInboundReconciling (core : Core) (ib : InboundConfig) : Except ApiErr Core :=
  match addInbound c core ib with
  | .error .existingTag =>
    if ib.tag = "" then .error .existingTag
    else do
      let core ← ifPresent core (delInbound core ib.tag)
      addInbound c core ib
  | r => r

def addOutboundReconciling (core : Core) (raw : Json) : Except ApiErr Core :=
  match addOutbound core raw with
  | .error .existingTag =>
    match metaTag raw with
    | none | some "" => .error .existingTag
    | some tag => do
      let core ← ifPresent core (delOutbound core tag)
      addOutbound core raw
  | r => r

def applyWith (addIn : Core → InboundConfig → Except ApiErr Core)
    (addOut : Core → Json → Except ApiErr Core) (core : Core) (diff : HotDiff) : Except ApiErr Core := do
  let core ← diff.removedInboundTags.foldlM (fun core tag => ifPresent core (delInbound core tag)) core
  let core ← diff.removedOutboundTags.foldlM (fun core tag => ifPresent core (delOutbound core tag)) core
  let core ← diff.addedOutbounds.foldlM addOut core
  let core ← diff.addedInbounds.foldlM addIn core
  applyRouting c core diff.routingConfig

def tryHotApply : Core → HotDiff → Except ApiErr Core :=
  applyWith c (addInboundReconciling c) addOutboundReconciling

def plainApply : Core → HotDiff → Except ApiErr Core := applyWith c (addInbound c) addOutbound

end core

structure SameCore (core core' : Core) : Prop where
  inbounds : ∀ tag, lookup CoreInbound.tag core.inbounds tag = lookup CoreInbound.tag core'.inbounds tag
  inboundTags : (core.inbounds.map (·.tag)).Nodup ∧ (core'.inbounds.map (·.tag)).Nodup
  default : core.outbounds.head? = core'.outbounds.head?
  outbounds : ∀ ob, ob ∈ core.outbounds ↔ ob ∈ core'.outbounds
  outboundTags : (core.outbounds.map (·.tag)).Nodup ∧ (core'.outbounds.map (·.tag)).Nodup
  router : core.router = core'.router
  fixed : core.fixed = core'.fixed

section sections

variable {c : Codec} {a b : String}

theorem rawEqual_iff : rawEqualNormalized c a b = true ↔ toSection c a = toSection c b := by
  cases ha : canonicalJSON c a with
  | none =>
    cases hb : canonicalJSON c b with
    | none => simp [rawEqualNormalized, toSection, ha, hb]
    | some nb =>
      have hne : a ≠ b := fun h => by rw [h, hb] at ha; cases ha
      simp [rawEqualNormalized, toSection, ha, hb, hne]
  | some na =>
    cases hb : canonicalJSON c b with
    | none =>
      have hne : a ≠ b := fun h => by rw [h, hb] at ha; cases ha
      simp [rawEqualNormalized, toSection, ha, hb, hne]
    | some nb =>
      have heq : a = b → na = nb := by
        rintro rfl
        rw [ha] at hb
        exact Option.some.inj hb
      simpa [rawEqualNormalized, toSection, ha, hb] using heq

theorem inboundEqual_iff {ib ib' : InboundConfig} :
    inboundEqualNormalized c ib ib' = true ↔ toInbound c ib = toInbound c ib' := by
  simp only [inboundEqualNormalized, Bool.and_eq_true, beq_iff_eq, rawEqual_iff, toInbound,
    CoreInbound.mk.injEq]
  tauto

theorem staticSections_eq {oldCfg newCfg : Config}
    (h : ((staticSections oldCfg).zip (staticSections newCfg)).all
      (fun s => rawEqualNormalized c s.1 s.2) = true) :
    (staticSections oldCfg).map (toSection c) = (staticSections newCfg).map (toSection c) := by
  simpa [staticSections, rawEqual_iff] using h

end sections

section indexing

variable {R : Type} {tag : R → String}

theorem addressable_from {rs seen m : List R} (hseen : (seen.map tag).Nodup)
    (hne : ∀ r ∈ seen, tag r ≠ "")
    (h : rs.foldlM (fun seen r =>
      if tag r = "" then none else if tag r ∈ seen.map tag then none else some (seen ++ [r])) seen =
        some m) :
    m = seen ++ rs ∧ (m.map tag).Nodup ∧ ∀ r ∈ m, tag r ≠ "" := by
  induction rs generalizing seen with
  | nil =>
    obtain rfl := Option.some.inj h
    exact ⟨(append_nil _).symm, hseen, hne⟩
  | cons r rs ih =>
    rw [foldlM_cons] at h
    split at h
    · cases h
    split at h
    · cases h
    rename_i htag hfresh
    have hnext : ((seen ++ [r]).map tag).Nodup := by
      rw [map_append, map_singleton, ← concat_eq_append]
      exact List.Nodup.concat hfresh hseen
    have hall : ∀ r' ∈ seen ++ [r], tag r' ≠ "" := by
      intro r' hr'
      rcases mem_append.mp hr' with hr' | hr'
      · exact hne r' hr'
      · rw [mem_singleton.mp hr']
        exact htag
    obtain ⟨hm, hnodup, hne'⟩ := ih hnext hall h
    exact ⟨by rw [hm, append_assoc, singleton_append], hnodup, hne'⟩

theorem addressable_some {rs m : List R} (h : addressable tag rs = some m) :
    m = rs ∧ (rs.map tag).Nodup ∧ ∀ r ∈ rs, tag r ≠ "" := by
  have hnil : (([] : List R).map tag).Nodup := nodup_nil
  obtain ⟨rfl, hnodup, hne⟩ := addressable_from hnil (fun _ hr => absurd hr not_mem_nil) h
  exact ⟨rfl, hnodup, hne⟩

end indexing

section inbounds

variable {c : Codec} {byTag rest : List InboundConfig} {apiTag : String} {diff diff' : HotDiff}

structure InboundDiff (diff diff' : HotDiff) (tags : List String) (added : List InboundConfig) :
    Prop where
  removed : diff'.removedInboundTags = diff.removedInboundTags ++ tags
  added : diff'.addedInbounds = diff.addedInbounds ++ added
  outbounds : diff'.removedOutboundTags = diff.removedOutboundTags ∧
    diff'.addedOutbounds = diff.addedOutbounds
  routing : diff'.routingConfig = diff.routingConfig

theorem InboundDiff.nil (diff : HotDiff) : InboundDiff diff diff [] [] :=
  ⟨(append_nil _).symm, (append_nil _).symm, ⟨rfl, rfl⟩, rfl⟩

theorem diffOldInbounds_spec (h : diffOldInbounds c byTag apiTag rest diff = some diff') :
    let gone := rest.filter fun o => !stays InboundConfig.tag (inboundEqualNormalized c) byTag o
    InboundDiff diff diff' (gone.map (·.tag))
        (gone.filterMap fun o => lookup InboundConfig.tag byTag o.tag) ∧
      ∀ o ∈ gone, o.tag ≠ apiTag ∧ o.tag ≠ "api" := by
  induction rest generalizing diff with
  | nil =>
    obtain rfl := Option.some.inj h
    exact ⟨.nil _, fun _ ho => absurd ho not_mem_nil⟩
  | cons o rest ih =>
    simp only [diffOldInbounds] at h
    split at h
    case isTrue hsame =>
      have hstays : stays InboundConfig.tag (inboundEqualNormalized c) byTag o = true := hsame
      simpa only [filter_cons, hstays, Bool.not_true, Bool.false_eq_true, if_false] using ih h
    case isFalse hdiff =>
      have hstays : stays InboundConfig.tag (inboundEqualNormalized c) byTag o = false := by
        simpa only [stays, Bool.not_eq_true] using hdiff
      split at h
      · cases h
      rename_i hapi
      rw [not_or] at hapi
      simp only [filter_cons, hstays, Bool.not_false, if_true]
      split at h
      case h_1 hnone =>
        obtain ⟨hd, hsafe⟩ := ih h
        refine ⟨⟨?_, ?_, hd.outbounds, hd.routing⟩, ?_⟩
        · rw [hd.removed, map_cons, append_assoc, singleton_append]
        · simp only [filterMap_cons, hnone]
          exact hd.added
        · exact forall_mem_cons.mpr ⟨hapi, hsafe⟩
      case h_2 newIb hsome =>
        split at h
        case isFalse => cases h
        case isTrue =>
          obtain ⟨hd, hsafe⟩ := ih h
          refine ⟨⟨?_, ?_, hd.outbounds, hd.routing⟩, ?_⟩
          · rw [hd.removed, map_cons, append_assoc, singleton_append]
          · simp only [filterMap_cons, hsome]
            rw [hd.added, append_assoc, singleton_append]
          · exact forall_mem_cons.mpr ⟨hapi, hsafe⟩

theorem diffNewInbounds_spec (h : diffNewInbounds c byTag apiTag rest diff = some diff') :
    let new := rest.filter fun n => (lookup InboundConfig.tag byTag n.tag).isNone
    InboundDiff diff diff' [] new ∧ ∀ n ∈ new, n.tag ≠ apiTag ∧ n.tag ≠ "api" := by
  induction rest generalizing diff with
  | nil =>
    obtain rfl := Option.some.inj h
    exact ⟨.nil _, fun _ hn => absurd hn not_mem_nil⟩
  | cons n rest ih =>
    simp only [diffNewInbounds] at h
    split at h
    case isTrue hsome =>
      have hno : (lookup InboundConfig.tag byTag n.tag).isNone = false := by
        rw [← Option.not_isSome, hsome]
        rfl
      simpa only [filter_cons, hno, Bool.false_eq_true, if_false] using ih h
    case isFalse hnone =>
      have hyes : (lookup InboundConfig.tag byTag n.tag).isNone = true := by
        simpa using hnone
      split at h
      · cases h
      rename_i hapi
      rw [not_or] at hapi
      split at h
      case isFalse => cases h
      case isTrue =>
        simp only [filter_cons, hyes, if_true]
        obtain ⟨hd, hsafe⟩ := ih h
        refine ⟨⟨hd.removed, ?_, hd.outbounds, hd.routing⟩, ?_⟩
        · rw [hd.added, append_assoc, singleton_append]
        · exact forall_mem_cons.mpr ⟨hapi, hsafe⟩

theorem diffInbounds_spec {oldCfg newCfg : Config} (h : diffInbounds c oldCfg newCfg diff = some diff') :
    let old := oldCfg.inboundConfigs
    let new := newCfg.inboundConfigs
    let apiTag := apiTagFromConfig c newCfg.api
    let same := inboundEqualNormalized c
    (old.map (·.tag)).Nodup ∧ (new.map (·.tag)).Nodup ∧ (∀ n ∈ new, n.tag ≠ "") ∧
      InboundDiff diff diff' ((removed InboundConfig.tag same old new).map (·.tag))
        (changed InboundConfig.tag same old new ++ fresh InboundConfig.tag old new) ∧
      (∀ o ∈ removed InboundConfig.tag same old new, o.tag ≠ apiTag ∧ o.tag ≠ "api") ∧
      ∀ n ∈ fresh InboundConfig.tag old new, n.tag ≠ apiTag ∧ n.tag ≠ "api" := by
  simp only [diffInbounds, Option.bind_eq_bind, Option.bind_eq_some_iff] at h
  obtain ⟨oldByTag, hold, newByTag, hnew, mid, hmid, hlast⟩ := h
  obtain ⟨rfl, holdNodup, -⟩ := addressable_some hold
  obtain ⟨rfl, hnewNodup, hnewTagged⟩ := addressable_some hnew
  obtain ⟨hd, hsafe⟩ := diffOldInbounds_spec hmid
  obtain ⟨hd', hsafe'⟩ := diffNewInbounds_spec hlast
  refine ⟨holdNodup, hnewNodup, hnewTagged, ⟨?_, ?_, ?_, ?_⟩, hsafe, hsafe'⟩
  · rw [hd'.removed, hd.removed, append_nil]
    rfl
  · rw [hd'.added, hd.added, append_assoc]
    rfl
  · exact ⟨hd'.outbounds.1.trans hd.outbounds.1, hd'.outbounds.2.trans hd.outbounds.2⟩
  · exact hd'.routing.trans hd.routing

end inbounds

section outbounds

variable {c : Codec} {byTag rest : List OutboundEntry} {diff : HotDiff}

structure OutboundDiff (diff diff' : HotDiff) (tags : List String) (added : List OutboundEntry) :
    Prop where
  removed : diff'.removedOutboundTags = diff.removedOutboundTags ++ tags
  added : diff'.addedOutbounds = diff.addedOutbounds ++ added.map (·.raw)
  inbounds : diff'.removedInboundTags = diff.removedInboundTags ∧
    diff'.addedInbounds = diff.addedInbounds
  routing : diff'.routingConfig = diff.routingConfig

theorem OutboundDiff.nil (diff : HotDiff) : OutboundDiff diff diff [] [] :=
  ⟨(append_nil _).symm, (append_nil _).symm, ⟨rfl, rfl⟩, rfl⟩

def normEqual (a b : OutboundEntry) : Bool := a.norm == b.norm

variable (byTag rest diff) in
theorem diffOldOutbounds_spec :
    let gone := rest.filter fun o => !stays OutboundEntry.tag normEqual byTag o
    OutboundDiff diff (diffOldOutbounds byTag rest diff) (gone.map (·.tag))
      (gone.filterMap fun o => lookup OutboundEntry.tag byTag o.tag) := by
  induction rest generalizing diff with
  | nil => exact .nil _
  | cons o rest ih =>
    simp only [diffOldOutbounds]
    split
    case isTrue hsame =>
      have hstays : stays OutboundEntry.tag normEqual byTag o = true := hsame
      simpa only [filter_cons, hstays, Bool.not_true, Bool.false_eq_true, if_false] using ih _
    case isFalse hdiff =>
      have hstays : stays OutboundEntry.tag normEqual byTag o = false := by
        exact Bool.not_eq_true _ ▸ hdiff
      simp only [filter_cons, hstays, Bool.not_false, if_true]
      refine ⟨?_, ?_, (ih _).inbounds, (ih _).routing⟩
      · rw [(ih _).removed, map_cons, append_assoc, singleton_append]
      · rw [(ih _).added]
        cases hlook : lookup OutboundEntry.tag byTag o.tag with
        | none => simp [hlook]
        | some newE => simp [hlook]

variable (byTag rest diff) in
theorem diffNewOutbounds_spec :
    OutboundDiff diff (diffNewOutbounds byTag rest diff) []
      (rest.filter fun n => (lookup OutboundEntry.tag byTag n.tag).isNone) := by
  induction rest generalizing diff with
  | nil => exact .nil _
  | cons n rest ih =>
    simp only [diffNewOutbounds]
    split
    case isTrue hsome =>
      have hno : (lookup OutboundEntry.tag byTag n.tag).isNone = false := by
        rw [← Option.not_isSome, hsome]
        rfl
      simpa only [filter_cons, hno, Bool.false_eq_true, if_false] using ih _
    case isFalse hnone =>
      have hyes : (lookup OutboundEntry.tag byTag n.tag).isNone = true := by
        simpa using hnone
      simp only [filter_cons, hyes, if_true]
      refine ⟨(ih _).removed, ?_, (ih _).inbounds, (ih _).routing⟩
      rw [(ih _).added, map_cons, append_assoc, singleton_append]

def entryOutbound (e : OutboundEntry) : CoreOutbound := ⟨e.tag, e.norm⟩

structure Parsed (c : Codec) (raw : String) (entries : List OutboundEntry) : Prop where
  nodup : (entries.map (·.tag)).Nodup
  tagged : ∀ e ∈ entries, e.tag ≠ ""
  outbound : ∀ e ∈ entries, toOutbound e.raw = some (entryOutbound e)
  elems : outboundElems c raw = some (entries.map (·.raw))

theorem outboundEntry_some {elem : Json} {e : OutboundEntry} (h : outboundEntry elem = some e) :
    e.raw = elem ∧ toOutbound e.raw = some (entryOutbound e) := by
  obtain ⟨tag, htag, rfl⟩ := Option.map_eq_some_iff.mp h
  exact ⟨rfl, by simp [toOutbound, entryOutbound, htag]⟩

variable {entries : List OutboundEntry}

theorem entries_elems {elems : List Json}
    (h : elems.mapM outboundEntry = some entries) :
    entries.map (·.raw) = elems ∧ ∀ e ∈ entries, toOutbound e.raw = some (entryOutbound e) := by
  induction elems generalizing entries with
  | nil =>
    obtain rfl := Option.some.inj h
    exact ⟨rfl, fun _ he => absurd he not_mem_nil⟩
  | cons elem elems ih =>
    simp only [mapM_cons, Option.bind_eq_bind, Option.bind_eq_some_iff] at h
    obtain ⟨e, he, es, hes, hentries⟩ := h
    obtain rfl := Option.some.inj hentries
    obtain ⟨hraw, hout⟩ := outboundEntry_some he
    obtain ⟨hraws, houts⟩ := ih hes
    exact ⟨by rw [map_cons, hraw, hraws], forall_mem_cons.mpr ⟨hout, houts⟩⟩

theorem parsed_of_parse {raw : String}
    (h : parseOutbounds c raw = some entries) : Parsed c raw entries := by
  simp only [parseOutbounds, Option.bind_eq_bind, Option.bind_eq_some_iff] at h
  obtain ⟨elems, helems, es, hes, hindexed⟩ := h
  obtain ⟨rfl, hnodup, htagged⟩ := addressable_some hindexed
  obtain ⟨hraws, houts⟩ := entries_elems hes
  exact ⟨hnodup, htagged, houts, by rw [hraws, helems]⟩

theorem start_outbounds
    (h : ∀ e ∈ entries, toOutbound e.raw = some (entryOutbound e)) :
    (entries.map (·.raw)).mapM toOutbound = some (entries.map entryOutbound) := by
  induction entries with
  | nil => rfl
  | cons e entries ih =>
    obtain ⟨he, hrest⟩ := forall_mem_cons.mp h
    rw [map_cons, mapM_cons, he, ih hrest]
    rfl

theorem diffOutbounds_spec {oldCfg newCfg : Config} {diff' : HotDiff}
    (h : diffOutbounds c oldCfg newCfg diff = some diff') : ∃ old new,
      Parsed c oldCfg.outboundConfigs old ∧ Parsed c newCfg.outboundConfigs new ∧
      sameDefault old new = true ∧
      OutboundDiff diff diff' ((removed OutboundEntry.tag normEqual old new).map (·.tag))
        (changed OutboundEntry.tag normEqual old new ++ fresh OutboundEntry.tag old new) := by
  simp only [diffOutbounds, Option.bind_eq_bind, Option.bind_eq_some_iff] at h
  obtain ⟨old, hold, new, hnew, h⟩ := h
  split at h
  case isFalse => cases h
  case isTrue hdefault =>
    obtain rfl := Option.some.inj h
    have hd := diffOldOutbounds_spec new old diff
    have hd' := diffNewOutbounds_spec old new (diffOldOutbounds new old diff)
    refine ⟨old, new, parsed_of_parse hold, parsed_of_parse hnew, hdefault, ⟨?_, ?_, ?_, ?_⟩⟩
    · rw [hd'.removed, hd.removed, append_nil]
      rfl
    · rw [hd'.added, hd.added, append_assoc, map_append]
      rfl
    · exact ⟨hd'.inbounds.1.trans hd.inbounds.1, hd'.inbounds.2.trans hd.inbounds.2⟩
    · exact hd'.routing.trans hd.routing

end outbounds

section routing

variable {c : Codec} {core : Core} {raw raw' : String}

theorem toRouter_rest {rest : Json} (hne : raw ≠ "") (h : routingWithoutReloadable c raw = some rest) :
    ∃ rules balancers, toRouter c raw = .table rules balancers rest := by
  simp only [routingWithoutReloadable, if_neg hne] at h
  simp only [toRouter, if_neg hne]
  split at h
  · rename_i fields hdec
    obtain rfl := Option.some.inj h
    exact ⟨_, _, rfl⟩
  · rename_i hdec
    obtain rfl := Option.some.inj h
    exact ⟨_, _, rfl⟩
  · cases h

theorem diffRouting_spec {oldCfg newCfg : Config} {diff diff' : HotDiff}
    (hnone : diff.routingConfig = none) (h : diffRouting c oldCfg newCfg diff = some diff') :
    (diff'.removedInboundTags = diff.removedInboundTags ∧ diff'.addedInbounds = diff.addedInbounds ∧
      diff'.removedOutboundTags = diff.removedOutboundTags ∧
      diff'.addedOutbounds = diff.addedOutbounds) ∧
    ∀ core : Core, core.router = toRouter c oldCfg.routerConfig →
      applyRouting c core diff'.routingConfig =
        .ok { core with router := toRouter c newCfg.routerConfig } := by
  simp only [diffRouting] at h
  split at h
  case isTrue hsame =>
    obtain rfl := Option.some.inj h
    refine ⟨⟨rfl, rfl, rfl, rfl⟩, ?_⟩
    intro core hcore
    rw [hnone, ← hsame, ← hcore]
    rfl
  case isFalse =>
    split at h
    · cases h
    rename_i hne
    rw [not_or] at hne
    simp only [Option.bind_eq_bind, Option.bind_eq_some_iff] at h
    obtain ⟨oldRest, hold, newRest, hnew, h⟩ := h
    split at h
    case isFalse => cases h
    case isTrue hrest =>
      obtain rfl := Option.some.inj h
      refine ⟨⟨rfl, rfl, rfl, rfl⟩, ?_⟩
      intro core hcore
      obtain ⟨rules, balancers, hr⟩ := toRouter_rest hne.1 hold
      obtain ⟨rules', balancers', hr'⟩ := toRouter_rest hne.2 hnew
      simp only [applyRouting, applyRoutingConfig, hcore, hr, hr', hrest]

end routing

section applying

variable {c : Codec} {core : Core}

theorem delInbounds_eq (tags : List String) (core : Core) :
    tags.foldlM (fun core tag => ifPresent core (delInbound core tag)) core =
      .ok { core with inbounds := deleteAll CoreInbound.tag core.inbounds tags } := by
  induction tags generalizing core with
  | nil => rfl
  | cons tag tags ih =>
    have hstep : ifPresent core (delInbound core tag) =
        .ok { core with inbounds := delete CoreInbound.tag core.inbounds tag } := by
      simp only [delInbound]
      split
      case isTrue => rfl
      case isFalse hno =>
        have hall : delete CoreInbound.tag core.inbounds tag = core.inbounds := delete_absent hno
        rw [hall]
        rfl
    rw [foldlM_cons, hstep]
    exact ih _

theorem delOutbounds_eq (tags : List String) (core : Core) :
    tags.foldlM (fun core tag => ifPresent core (delOutbound core tag)) core =
      .ok { core with outbounds := deleteAll CoreOutbound.tag core.outbounds tags } := by
  induction tags generalizing core with
  | nil => rfl
  | cons tag tags ih =>
    have hstep : ifPresent core (delOutbound core tag) =
        .ok { core with outbounds := delete CoreOutbound.tag core.outbounds tag } := by
      simp only [delOutbound]
      split
      case isTrue => rfl
      case isFalse hno =>
        have hall : delete CoreOutbound.tag core.outbounds tag = core.outbounds := delete_absent hno
        rw [hall]
        rfl
    rw [foldlM_cons, hstep]
    exact ih _

theorem reconciling_inbound {ib : InboundConfig} {core' : Core} (h : addInbound c core ib = .ok core') :
    addInboundReconciling c core ib = .ok core' := by
  rw [addInboundReconciling, h]

theorem reconciling_outbound {raw : Json} {core' : Core} (h : addOutbound core raw = .ok core') :
    addOutboundReconciling core raw = .ok core' := by
  rw [addOutboundReconciling, h]

theorem tryHotApply_of_plain {diff : HotDiff} {core' : Core} (h : plainApply c core diff = .ok core') :
    tryHotApply c core diff = .ok core' := by
  simp only [plainApply, applyWith, bind_ok] at h
  obtain ⟨c₁, h₁, c₂, h₂, c₃, h₃, c₄, h₄, hrouting⟩ := h
  simp only [tryHotApply, applyWith, bind_ok]
  exact ⟨c₁, h₁, c₂, h₂, c₃, foldlM_agrees (fun _ _ _ => reconciling_outbound) h₃, c₄,
    foldlM_agrees (fun _ _ _ => reconciling_inbound) h₄, hrouting⟩

theorem addInbounds_eq (ibs : List InboundConfig) (core : Core)
    (h : ((core.inbounds ++ ibs.map (toInbound c)).map (·.tag)).Nodup) :
    ibs.foldlM (addInbound c) core =
      .ok { core with inbounds := core.inbounds ++ ibs.map (toInbound c) } := by
  induction ibs generalizing core with
  | nil => simp only [foldlM_nil, map_nil, append_nil]; rfl
  | cons ib ibs ih =>
    have happ : core.inbounds ++ (ib :: ibs).map (toInbound c) =
        core.inbounds ++ [toInbound c ib] ++ ibs.map (toInbound c) := by simp
    have hone : ((core.inbounds ++ [toInbound c ib]).map CoreInbound.tag).Nodup := by
      rw [happ, map_append] at h
      exact (nodup_append.mp h).1
    have hadd := add_eq hone
    have hstep : addInbound c core ib =
        .ok { core with inbounds := core.inbounds ++ [toInbound c ib] } := by
      rw [addInbound, hadd]
    rw [happ] at h ⊢
    rw [foldlM_cons, hstep]
    exact ih _ h

theorem addOutbounds_eq {es : List OutboundEntry} (core : Core)
    (hout : ∀ e ∈ es, toOutbound e.raw = some (entryOutbound e))
    (h : ((core.outbounds ++ es.map entryOutbound).map CoreOutbound.tag).Nodup) :
    (es.map (·.raw)).foldlM addOutbound core =
      .ok { core with outbounds := core.outbounds ++ es.map entryOutbound } := by
  induction es generalizing core with
  | nil => simp only [foldlM_nil, map_nil, append_nil]; rfl
  | cons e es ih =>
    obtain ⟨he, hrest⟩ := forall_mem_cons.mp hout
    have happ : core.outbounds ++ (e :: es).map entryOutbound =
        core.outbounds ++ [entryOutbound e] ++ es.map entryOutbound := by simp
    have hone : ((core.outbounds ++ [entryOutbound e]).map CoreOutbound.tag).Nodup := by
      rw [happ, map_append] at h
      exact (nodup_append.mp h).1
    have hadd := add_eq hone
    have hstep : addOutbound core e.raw =
        .ok { core with outbounds := core.outbounds ++ [entryOutbound e] } := by
      simp only [addOutbound, he, hadd]
    rw [happ] at h ⊢
    rw [map_cons, foldlM_cons, hstep]
    exact ih _ hrest h

theorem lookup_map {R S : Type} {key : S → String} {f : R → S} (rs : List R) (k : String) :
    lookup key (rs.map f) k = (lookup (fun r => key (f r)) rs k).map f := by
  simp only [lookup, find?_map]
  rfl

theorem deleteAll_map {R S : Type} {key : S → String} {f : R → S} (rs : List R) (ks : List String) :
    deleteAll key (rs.map f) ks = (deleteAll (fun r => key (f r)) rs ks).map f := by
  rw [deleteAll_eq, deleteAll_eq, filter_map]
  rfl

end applying

section refinement

variable {c : Codec} {oldCfg newCfg : Config} {diff : HotDiff}

variable {old new : List OutboundEntry}

theorem outbounds_same (hold : (old.map (·.tag)).Nodup)
    (hnew : (new.map (·.tag)).Nodup) (ob : CoreOutbound) :
    ob ∈ (kept OutboundEntry.tag normEqual old new ++ (changed OutboundEntry.tag normEqual old new ++
        fresh OutboundEntry.tag old new)).map entryOutbound ↔ ob ∈ new.map entryOutbound := by
  have happ := applied_nodup normEqual hold hnew
  have hnorm : ∀ a b, normEqual a b = true → a.norm = b.norm :=
    fun a b hab => by simpa [normEqual] using hab
  have hmem : ∀ es : List OutboundEntry, (es.map (·.tag)).Nodup → (ob ∈ es.map entryOutbound ↔
      (lookup OutboundEntry.tag es ob.tag).map (·.norm) = some ob.value) := by
    intro es hes
    rw [mem_map, Option.map_eq_some_iff]
    constructor
    · rintro ⟨e, he, rfl⟩
      exact ⟨e, (lookup_some hes).mpr ⟨he, rfl⟩, rfl⟩
    · rintro ⟨e, hlook, hnorm⟩
      obtain ⟨he, htag⟩ := lookup_mem hlook
      exact ⟨e, he, by rw [entryOutbound, htag, hnorm]⟩
  rw [hmem _ happ, hmem _ hnew,
    lookup_applied hnorm hold hnew]

theorem default_same (hnew : (new.map (·.tag)).Nodup)
    (h : sameDefault old new = true) :
    ((kept OutboundEntry.tag normEqual old new ++ (changed OutboundEntry.tag normEqual old new ++
        fresh OutboundEntry.tag old new)).map entryOutbound).head? =
      (new.map entryOutbound).head? := by
  cases old with
  | nil =>
    cases new with
    | nil => rfl
    | cons => cases h
  | cons o os =>
    cases new with
    | nil => cases h
    | cons n ns =>
      simp only [sameDefault, Bool.and_eq_true, beq_iff_eq] at h
      have hlook : lookup OutboundEntry.tag (n :: ns) o.tag = some n :=
        (lookup_some hnew).mpr ⟨mem_cons_self .., h.1.symm⟩
      have hstays : stays OutboundEntry.tag normEqual (n :: ns) o = true := by
        simp [stays, hlook, normEqual, h.2]
      simp [kept, hstays, entryOutbound, h.1, h.2]

theorem api_untouched {old new : List InboundConfig} (tag : String)
    (hold : (old.map (·.tag)).Nodup) (hnew : (new.map (·.tag)).Nodup)
    (hremoved : ∀ o ∈ removed InboundConfig.tag (inboundEqualNormalized c) old new, o.tag ≠ tag)
    (hfresh : ∀ n ∈ fresh InboundConfig.tag old new, n.tag ≠ tag) :
    (∀ n ∈ changed InboundConfig.tag (inboundEqualNormalized c) old new, n.tag ≠ tag) ∧
      lookup InboundConfig.tag (kept InboundConfig.tag (inboundEqualNormalized c) old new ++
        (changed InboundConfig.tag (inboundEqualNormalized c) old new ++
          fresh InboundConfig.tag old new)) tag = lookup InboundConfig.tag old tag := by
  have hchanged : ∀ n ∈ changed InboundConfig.tag (inboundEqualNormalized c) old new, n.tag ≠ tag := by
    intro n hn htag
    obtain ⟨o, ho, hlook⟩ := mem_filterMap.mp hn
    exact hremoved o ho ((lookup_mem hlook).2.symm.trans htag)
  refine ⟨hchanged, ?_⟩
  have happ := applied_nodup (inboundEqualNormalized c) hold hnew
  cases hlook : lookup InboundConfig.tag old tag with
  | none =>
    rw [lookup_none] at hlook ⊢
    intro r hr
    rcases mem_append.mp hr with hr | hr
    · exact hlook r (mem_of_mem_filter hr)
    · rcases mem_append.mp hr with hr | hr
      · exact hchanged r hr
      · exact hfresh r hr
  | some o =>
    obtain ⟨ho, htag⟩ := lookup_mem hlook
    have hkept : o ∈ kept InboundConfig.tag (inboundEqualNormalized c) old new := by
      cases hs : stays InboundConfig.tag (inboundEqualNormalized c) new o with
      | true => exact mem_filter.mpr ⟨ho, hs⟩
      | false =>
        have hgone := hremoved o (mem_filter.mpr ⟨ho, by rw [hs]; rfl⟩)
        exact absurd htag hgone
    exact (lookup_some happ).mpr ⟨mem_append_left _ hkept, htag⟩

structure Computed (c : Codec) (oldCfg newCfg : Config) (diff : HotDiff)
    (old new : List OutboundEntry) : Prop where
  nodup : (oldCfg.inboundConfigs.map (·.tag)).Nodup ∧ (newCfg.inboundConfigs.map (·.tag)).Nodup
  tagged : ∀ ib ∈ newCfg.inboundConfigs, ib.tag ≠ ""
  oldParsed : Parsed c oldCfg.outboundConfigs old
  newParsed : Parsed c newCfg.outboundConfigs new
  default : sameDefault old new = true
  removed : diff.removedInboundTags = (removed InboundConfig.tag (inboundEqualNormalized c)
    oldCfg.inboundConfigs newCfg.inboundConfigs).map (·.tag)
  added : diff.addedInbounds = changed InboundConfig.tag (inboundEqualNormalized c)
    oldCfg.inboundConfigs newCfg.inboundConfigs ++
      fresh InboundConfig.tag oldCfg.inboundConfigs newCfg.inboundConfigs
  removedOut : diff.removedOutboundTags = (KeyedDiff.removed OutboundEntry.tag normEqual old new).map (·.tag)
  addedOut : diff.addedOutbounds = (changed OutboundEntry.tag normEqual old new ++
    fresh OutboundEntry.tag old new).map (·.raw)
  routing : ∀ core : Core, core.router = toRouter c oldCfg.routerConfig →
    applyRouting c core diff.routingConfig = .ok { core with router := toRouter c newCfg.routerConfig }
  fixed : (staticSections oldCfg).map (toSection c) = (staticSections newCfg).map (toSection c)
  api : ∀ tag, tag = apiTagFromConfig c newCfg.api ∨ tag = "api" →
    (∀ o ∈ KeyedDiff.removed InboundConfig.tag (inboundEqualNormalized c) oldCfg.inboundConfigs
      newCfg.inboundConfigs, o.tag ≠ tag) ∧
    ∀ n ∈ fresh InboundConfig.tag oldCfg.inboundConfigs newCfg.inboundConfigs, n.tag ≠ tag

theorem computeHotDiff_spec (h : computeHotDiff c oldCfg newCfg = some diff) :
    ∃ old new, Computed c oldCfg newCfg diff old new := by
  simp only [computeHotDiff, Option.bind_eq_bind] at h
  split at h
  case isFalse => cases h
  case isTrue hstatic =>
    simp only [Option.bind_eq_some_iff] at h
    obtain ⟨d₁, hin, d₂, hout, hrouting⟩ := h
    obtain ⟨holdTags, hnewTags, htagged, hd₁, hsafe, hsafe'⟩ := diffInbounds_spec hin
    obtain ⟨old, new, hold, hnew, hdefault, hd₂⟩ := diffOutbounds_spec hout
    have hd₂none : d₂.routingConfig = none := hd₂.routing.trans hd₁.routing
    obtain ⟨⟨hrt, had, hrot, hao⟩, hrouter⟩ := diffRouting_spec hd₂none hrouting
    refine ⟨old, new, ⟨⟨holdTags, hnewTags⟩, htagged, hold, hnew, hdefault, ?_, ?_, ?_, ?_, hrouter,
      staticSections_eq hstatic, ?_⟩⟩
    · rw [hrt, hd₂.inbounds.1, hd₁.removed]
      rfl
    · rw [had, hd₂.inbounds.2, hd₁.added]
      rfl
    · rw [hrot, hd₂.removed, hd₁.outbounds.1]
      rfl
    · rw [hao, hd₂.added, hd₁.outbounds.2]
      rfl
    · rintro tag (rfl | rfl)
      · exact ⟨fun o ho => (hsafe o ho).1, fun n hn => (hsafe' n hn).1⟩
      · exact ⟨fun o ho => (hsafe o ho).2, fun n hn => (hsafe' n hn).2⟩

theorem start_parsed {cfg : Config} {entries : List OutboundEntry}
    (h : Parsed c cfg.outboundConfigs entries) :
    start c cfg = some ⟨cfg.inboundConfigs.map (toInbound c), entries.map entryOutbound,
      toRouter c cfg.routerConfig, (staticSections cfg).map (toSection c)⟩ := by
  simp only [start, h.elems, Option.bind_eq_bind, Option.bind_some, start_outbounds h.outbound]
  rfl

theorem Computed.outbound (h : Computed c oldCfg newCfg diff old new) :
    ∀ e ∈ changed OutboundEntry.tag normEqual old new ++ fresh OutboundEntry.tag old new,
      e ∈ new ∧ toOutbound e.raw = some (entryOutbound e) := by
  intro e he
  have hin : e ∈ new := by
    rcases mem_append.mp he with he | he
    · exact ((mem_changed h.newParsed.nodup).mp he).1
    · exact (mem_fresh.mp he).1
  exact ⟨hin, h.newParsed.outbound e hin⟩

theorem hot_reload_refines_restart (hdiff : computeHotDiff c oldCfg newCfg = some diff) :
    ∃ core core' restarted, start c oldCfg = some core ∧ start c newCfg = some restarted ∧
      plainApply c core diff = .ok core' ∧ tryHotApply c core diff = .ok core' ∧
      SameCore core' restarted ∧
      ∀ tag, tag = apiTagFromConfig c newCfg.api ∨ tag = "api" →
        tag ∉ diff.removedInboundTags ∧ tag ∉ diff.addedInbounds.map (·.tag) ∧
          lookup CoreInbound.tag core'.inbounds tag = lookup CoreInbound.tag core.inbounds tag := by
  obtain ⟨old, new, h⟩ := computeHotDiff_spec hdiff
  have hold := h.oldParsed
  have hnew := h.newParsed
  have hinNodup := applied_nodup (inboundEqualNormalized c) h.nodup.1 h.nodup.2
  have houtNodup := applied_nodup normEqual hold.nodup hnew.nodup
  let core : Core := ⟨oldCfg.inboundConfigs.map (toInbound c), old.map entryOutbound,
    toRouter c oldCfg.routerConfig, (staticSections oldCfg).map (toSection c)⟩
  let restarted : Core := ⟨newCfg.inboundConfigs.map (toInbound c), new.map entryOutbound,
    toRouter c newCfg.routerConfig, (staticSections newCfg).map (toSection c)⟩
  let core' : Core := ⟨(kept InboundConfig.tag (inboundEqualNormalized c) oldCfg.inboundConfigs
      newCfg.inboundConfigs ++ (changed InboundConfig.tag (inboundEqualNormalized c)
        oldCfg.inboundConfigs newCfg.inboundConfigs ++ fresh InboundConfig.tag
          oldCfg.inboundConfigs newCfg.inboundConfigs)).map (toInbound c),
    (kept OutboundEntry.tag normEqual old new ++ (changed OutboundEntry.tag normEqual old new ++
      fresh OutboundEntry.tag old new)).map entryOutbound,
    toRouter c newCfg.routerConfig, (staticSections oldCfg).map (toSection c)⟩
  have hstart : start c oldCfg = some core := start_parsed hold
  have hrestart : start c newCfg = some restarted := start_parsed hnew
  have hplain : plainApply c core diff = .ok core' := by
    have hins : deleteAll CoreInbound.tag core.inbounds diff.removedInboundTags =
        (kept InboundConfig.tag (inboundEqualNormalized c) oldCfg.inboundConfigs
          newCfg.inboundConfigs).map (toInbound c) := by
      rw [h.removed, ← deleteAll_removed h.nodup.1]
      exact deleteAll_map _ _
    have hdel : deleteAll CoreOutbound.tag core.outbounds diff.removedOutboundTags =
        (kept OutboundEntry.tag normEqual old new).map entryOutbound := by
      rw [h.removedOut, ← deleteAll_removed hold.nodup]
      exact deleteAll_map _ _
    let core₁ : Core := { core with
      inbounds := (kept InboundConfig.tag (inboundEqualNormalized c) oldCfg.inboundConfigs
        newCfg.inboundConfigs).map (toInbound c) }
    let core₂ : Core := { core₁ with
      outbounds := (kept OutboundEntry.tag normEqual old new).map entryOutbound }
    have h₁ := delInbounds_eq diff.removedInboundTags core
    have h₂ := delOutbounds_eq diff.removedOutboundTags core₁
    rw [hins] at h₁
    rw [show core₁.outbounds = core.outbounds from rfl, hdel] at h₂
    have h₃ := addOutbounds_eq core₂ (fun e he => (h.outbound e he).2) (by
      rw [show core₂.outbounds = (kept OutboundEntry.tag normEqual old new).map entryOutbound
        from rfl, ← map_append, map_map]
      exact houtNodup)
    let core₃ : Core := { core₂ with
      outbounds := core₂.outbounds ++ (changed OutboundEntry.tag normEqual old new ++
        fresh OutboundEntry.tag old new).map entryOutbound }
    have h₄ := addInbounds_eq (changed InboundConfig.tag (inboundEqualNormalized c)
      oldCfg.inboundConfigs newCfg.inboundConfigs ++ fresh InboundConfig.tag
        oldCfg.inboundConfigs newCfg.inboundConfigs) core₃ (by
      rw [show core₃.inbounds = (kept InboundConfig.tag (inboundEqualNormalized c)
        oldCfg.inboundConfigs newCfg.inboundConfigs).map (toInbound c) from rfl,
        ← map_append, map_map]
      exact hinNodup)
    simp only [plainApply, applyWith, bind_ok, h.addedOut, h.added]
    refine ⟨_, h₁, _, h₂, _, h₃, _, h₄, ?_⟩
    rw [h.routing _ rfl]
    simp only [core', core₁, core₂, core₃, core, map_append]
  have hsame : SameCore core' restarted := by
    constructor
    case inbounds =>
      intro tag
      simp only [core', restarted, lookup_map]
      exact lookup_applied (fun a b hab => inboundEqual_iff.mp hab) h.nodup.1 h.nodup.2 tag
    case inboundTags =>
      simp only [core', restarted, map_map]
      exact ⟨hinNodup, h.nodup.2⟩
    case default => exact default_same hnew.nodup h.default
    case outbounds => exact outbounds_same hold.nodup hnew.nodup
    case outboundTags =>
      simp only [core', restarted, map_map]
      exact ⟨houtNodup, hnew.nodup⟩
    case router => rfl
    case fixed => exact h.fixed
  refine ⟨core, core', restarted, hstart, hrestart, hplain, tryHotApply_of_plain hplain, hsame, ?_⟩
  · intro tag htag
    obtain ⟨hremoved, hfresh⟩ := h.api tag htag
    obtain ⟨hchanged, hlook⟩ := api_untouched tag h.nodup.1 h.nodup.2 hremoved hfresh
    refine ⟨?_, ?_, ?_⟩
    · rw [h.removed]
      intro hmem
      obtain ⟨o, ho, heq⟩ := mem_map.mp hmem
      exact hremoved o ho heq
    · rw [h.added]
      intro hmem
      obtain ⟨n, hn, heq⟩ := mem_map.mp hmem
      rcases mem_append.mp hn with hn | hn
      · exact hchanged n hn heq
      · exact hfresh n hn heq
    · simp only [core', core, lookup_map]
      exact congrArg (Option.map (toInbound c)) hlook

end refinement

def plainCodec : Codec :=
  let read := fun raw =>
    if raw = "{}" then some (.obj [])
    else if raw = "[direct,blocked]" then
      some (.arr [.obj [("tag", .str "direct")], .obj [("tag", .str "blocked")]])
    else if raw = "[direct,warp]" then
      some (.arr [.obj [("tag", .str "direct")], .obj [("tag", .str "warp")]])
    else none
  ⟨read, read⟩

def plainConfig (settings outbounds : String) (tags : List String) : Config where
  logConfig := "{}"
  routerConfig := "{}"
  dnsConfig := ""
  inboundConfigs := ⟨"", 62789, "tunnel", "", "", "api", ""⟩ ::
    tags.map fun tag => ⟨"", 443, "vless", settings, "", tag, ""⟩
  outboundConfigs := outbounds
  transport := ""
  policy := "{}"
  api := "{}"
  stats := "{}"
  reverse := ""
  fakeDNS := ""
  observatory := ""
  burstObservatory := ""
  metrics := ""
  geodata := ""

theorem hot_reload_refines_restart_edited :
    ∃ diff core core' restarted,
      computeHotDiff plainCodec (plainConfig "" "[direct,blocked]" ["in-443"])
          (plainConfig "{}" "[direct,warp]" ["in-443", "in-8443"]) = some diff ∧
        diff.removedInboundTags = ["in-443"] ∧ tryHotApply plainCodec core diff = .ok core' ∧
        SameCore core' restarted := by
  have hsome : ((computeHotDiff plainCodec (plainConfig "" "[direct,blocked]" ["in-443"])
      (plainConfig "{}" "[direct,warp]" ["in-443", "in-8443"])).map (·.removedInboundTags)) =
        some ["in-443"] := by decide +kernel
  obtain ⟨diff, hdiff, htags⟩ := Option.map_eq_some_iff.mp hsome
  obtain ⟨core, core', restarted, -, -, -, happly, hsame, -⟩ := hot_reload_refines_restart hdiff
  exact ⟨diff, core, core', restarted, hdiff, htags, happly, hsame⟩

end HotReload

end QuiPanel
