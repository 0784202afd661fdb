import QuiPanel.HotReload
import QuiPanel.Library.Trace

namespace QuiPanel

namespace HotReload

open KeyedDiff Outcome Trace

deriving instance DecidableEq for InboundConfig, Config

structure UserManager where
  add : Section → Json → Option Section
  remove : Section → String → Option Section

inductive ApiCall
  | addInbound (ib : InboundConfig)
  | delInbound (tag : String)
  | addUser (tag : String) (user : Json)
  | removeUser (tag email : String)

structure Delivery where
  executed : Bool
  answered : Bool

structure Process where
  config : Config
  core : Core
  deriving DecidableEq

structure Host where
  generated : Option Config
  process : Option Process
  needRestart : Bool
  manuallyStopped : Bool
  deriving DecidableEq

structure Sweep where
  calls : List (ApiCall × Delivery)
  settle : Option Config → Option Config

structure RestartDraws where
  traffic : Sweep
  apiUp : Bool
  spawned : Bool

structure Poll where
  traffic : Sweep
  restart : Option RestartDraws
  needRestart : Bool

inductive RestartErr
  | config
  | start
  deriving DecidableEq

def HotDiff.isEmpty (diff : HotDiff) : Bool :=
  diff.removedInboundTags.isEmpty && diff.addedInbounds.isEmpty &&
    diff.removedOutboundTags.isEmpty && diff.addedOutbounds.isEmpty && diff.routingConfig.isNone

section runtime

variable (c : Codec) (users : UserManager)

def alterUsers (core : Core) (tag : String) (alter : Section → Option Section) :
    Except ApiErr Core :=
  match lookup CoreInbound.tag core.inbounds tag with
  | none => .error .missingHandler
  | some ib =>
    match alter ib.settings with
    | none => .error .badConfig
    | some settings => .ok { core with
        inbounds := core.inbounds.map fun ib => if ib.tag = tag then { ib with settings } else ib }

def perform (core : Core) : ApiCall → Except ApiErr Core
  | .addInbound ib => addInbound c core ib
  | .delInbound tag => delInbound core tag
  | .addUser tag user => alterUsers core tag fun settings => users.add settings user
  | .removeUser tag email => alterUsers core tag fun settings => users.remove settings email

def withAPI (p : Process) (call : ApiCall) (d : Delivery) : Process × Bool :=
  if d.executed then
    match perform c users p.core call with
    | .ok core => ({ p with core }, d.answered)
    | .error _ => (p, false)
  else (p, false)

def request (h : Host) (call : ApiCall) (d : Delivery) : Host × Bool :=
  match h.process with
  | none => (h, false)
  | some p =>
    let r := withAPI c users p call d
    ({ h with process := some r.1 }, r.2)

def requests (h : Host) : List (ApiCall × Delivery) → Host × Bool
  | [] => (h, true)
  | (call, d) :: rest =>
    let r := request c users h call d
    let r' := requests r.1 rest
    (r'.1, r.2 && r'.2)

def addTraffic (h : Host) (sweep : Sweep) : Host × Bool :=
  let r := requests c users h sweep.calls
  ({ r.1 with generated := sweep.settle r.1.generated }, r.2)

def getXrayConfig (h : Host) (d : RestartDraws) : Host × Option Config :=
  let r := addTraffic c users h d.traffic
  (r.1, r.1.generated)

def hotApply (p : Process) (cfg : Config) (apiUp : Bool) : Option Process := do
  let diff ← computeHotDiff c p.config cfg
  if diff.isEmpty then some { p with config := cfg }
  else if apiUp then
    match tryHotApply c p.core diff with
    | .ok core => some ⟨cfg, core⟩
    | .error _ => none
  else none

def startProcess (h : Host) (cfg : Config) (d : RestartDraws) : Host × Except RestartErr Unit :=
  if d.spawned then
    ({ h with process := (start c cfg).map fun core => ⟨cfg, core⟩ }, .ok ())
  else ({ h with process := none }, .error .start)

def restartXray (isForce : Bool) (h : Host) (d : RestartDraws) : Host × Except RestartErr Unit :=
  match getXrayConfig c users { h with manuallyStopped := false } d with
  | (h, none) => (h, .error .config)
  | (h, some cfg) =>
    match h.process with
    | none => startProcess c h cfg d
    | some p =>
      let configUnchanged := decide (p.config = cfg)
      if !isForce && configUnchanged && !h.needRestart then (h, .ok ())
      else
        match if !isForce && !configUnchanged then hotApply c p cfg d.apiUp else none with
        | some p' => ({ h with process := some p' }, .ok ())
        | none => startProcess c h cfg d

def setToNeedRestart (h : Host) : Host := { h with needRestart := true }

def isNeedRestartAndSetFalse (h : Host) : Host × Bool := ({ h with needRestart := false }, h.needRestart)

def didXrayCrash (h : Host) : Bool := h.process.isNone && !h.manuallyStopped

def tick (h : Host) (d : RestartDraws) : Host × Option (Except RestartErr Unit) :=
  match isNeedRestartAndSetFalse h with
  | (h, false) => (h, none)
  | (h, true) =>
    let r := restartXray c users false h d
    (r.1, some r.2)

def restartOnDisable (h : Host) : Option RestartDraws → Host
  | none => h
  | some d =>
    match restartXray c users true h d with
    | (h, .ok _) => h
    | (h, .error _) => setToNeedRestart h

def poll (h : Host) (p : Poll) : Host :=
  if h.process.isNone then h
  else
    let r := addTraffic c users h p.traffic
    let h := restartOnDisable c users r.1 p.restart
    if p.needRestart || !r.2 then setToNeedRestart h else h

inductive Event
  | edit (generated : Option Config)
  | call (call : ApiCall) (delivery : Delivery)
  | tick (draws : RestartDraws)
  | poll (draws : Poll)
  | start (draws : RestartDraws)

def next (h : Host) : Event → Host
  | .edit generated => { h with generated }
  | .call call d =>
    match request c users h call d with
    | (h, true) => h
    | (h, false) => setToNeedRestart h
  | .tick d => (tick c users h d).1
  | .poll p => poll c users h p
  | .start d => (restartXray c users true h d).1

def off (generated : Option Config) : Host := ⟨generated, none, false, false⟩

end runtime

structure Aside (core core' : Core) : Prop where
  default : core.outbounds.head? = core'.outbounds.head?
  outbounds : ∀ tag, lookup CoreOutbound.tag core.outbounds tag =
    lookup CoreOutbound.tag core'.outbounds tag
  router : core.router = core'.router
  fixed : core.fixed = core'.fixed

def Serves (c : Codec) (core : Core) (cfg : Config) : Prop :=
  ∃ restarted, start c cfg = some restarted ∧ Aside core restarted ∧
    ∀ tag, lookup CoreInbound.tag core.inbounds tag = lookup CoreInbound.tag restarted.inbounds tag

def Drifted (c : Codec) (p : Process) (tag : String) : Prop :=
  lookup CoreInbound.tag p.core.inbounds tag ≠
    (lookup InboundConfig.tag p.config.inboundConfigs tag).map (toInbound c)

def touched (diff : HotDiff) : List String :=
  diff.removedInboundTags ++ diff.addedInbounds.map (·.tag)

section request

variable (c : Codec) (users : UserManager)

def Kept : Host × Except RestartErr Unit → Prop
  | (h, .ok _) => ∃ p cfg, h.process = some p ∧ h.generated = some cfg ∧ Serves c p.core cfg
  | (h, .error _) => h.needRestart = true ∨ didXrayCrash h = true

def Answered (h : Host) : Event → Prop
  | .tick d =>
    match tick c users h d with
    | (_, none) => True
    | (h, some r) => Kept c (h, r)
  | _ => True

def Accepted (cfg : Config) (d : RestartDraws) : Prop := d.spawned = true → (start c cfg).isSome

def Patched (p : Process) (cfg : Config) (d : RestartDraws) : Prop :=
  if p.config = cfg then ∀ tag, ¬ Drifted c p tag
  else match computeHotDiff c p.config cfg with
    | none => Accepted c cfg d
    | some diff => diff.isEmpty ∨ d.apiUp → ∀ tag, tag ∉ touched diff → ¬ Drifted c p tag

def Covered (h : Host) : Event → Prop
  | .tick d => h.needRestart = true →
    match getXrayConfig c users { h with needRestart := false, manuallyStopped := false } d with
    | (h, none) => h.process = none
    | (h, some cfg) =>
      match h.process with
      | none => Accepted c cfg d
      | some p => Patched c p cfg d
  | _ => True

end request

section patching

variable {c : Codec} {core base : Core} {p : Process} {cfg : Config} {diff : HotDiff}

theorem Aside.refl (core : Core) : Aside core core := ⟨rfl, fun _ => rfl, rfl, rfl⟩

attribute [local grind =] request getXrayConfig hotApply startProcess restartXray didXrayCrash tick restartOnDisable poll next

theorem serves_of_start (h : start c cfg = some core) : Serves c core cfg :=
  ⟨core, h, .refl core, fun _ => rfl⟩

theorem lookup_start (h : start c cfg = some core) (tag : String) :
    lookup CoreInbound.tag core.inbounds tag =
      (lookup InboundConfig.tag cfg.inboundConfigs tag).map (toInbound c) := by
  simp only [start, Option.bind_eq_bind, Option.bind_eq_some_iff] at h
  obtain ⟨elems, -, outbounds, -, hcore⟩ := h
  obtain rfl := Option.some.inj hcore
  exact lookup_map _ _

theorem addInbound_reconciled {ib : InboundConfig} (htag : ib.tag ≠ "") :
    addInboundReconciling c core ib =
      .ok { core with inbounds := replace CoreInbound.tag core.inbounds (toInbound c ib) } := by
  by_cases hin : (toInbound c ib).tag ∈ core.inbounds.map CoreInbound.tag
  · have hadd : addInbound c core ib = .error .existingTag := by
      simp only [addInbound, add, if_pos hin]
    have hdel : delInbound core ib.tag =
        .ok { core with inbounds := delete CoreInbound.tag core.inbounds (toInbound c ib).tag } :=
      if_pos hin
    have hagain : addInbound c { core with
        inbounds := delete CoreInbound.tag core.inbounds (toInbound c ib).tag } ib =
          .ok { core with inbounds := replace CoreInbound.tag core.inbounds (toInbound c ib) } := by
      simp only [addInbound, add_deleted]
    simp only [addInboundReconciling, hadd, if_neg htag, hdel, ifPresent]
    exact hagain
  · simp only [addInboundReconciling, addInbound, add_absent hin]

theorem addInbounds_reconciled {ibs : List InboundConfig} (htag : ∀ ib ∈ ibs, ib.tag ≠ "") :
    ibs.foldlM (addInboundReconciling c) core = .ok { core with
      inbounds := replaceAll CoreInbound.tag core.inbounds (ibs.map (toInbound c)) } := by
  induction ibs generalizing core with
  | nil => rfl
  | cons ib ibs ih =>
    obtain ⟨hib, hrest⟩ := List.forall_mem_cons.mp htag
    rw [List.foldlM_cons, addInbound_reconciled hib]
    exact ih hrest

theorem addOutbound_reconciled {e : OutboundEntry} (htag : e.tag ≠ "")
    (hout : toOutbound e.raw = some (entryOutbound e)) :
    addOutboundReconciling core e.raw =
      .ok { core with outbounds := replace CoreOutbound.tag core.outbounds (entryOutbound e) } := by
  by_cases hin : (entryOutbound e).tag ∈ core.outbounds.map CoreOutbound.tag
  · have hadd : addOutbound core e.raw = .error .existingTag := by
      simp only [addOutbound, hout, add, if_pos hin]
    have hmeta : metaTag e.raw = some e.tag := by
      obtain ⟨tag, htag, hob⟩ := Option.map_eq_some_iff.mp hout
      rw [htag, show tag = e.tag from congrArg CoreOutbound.tag hob]
    have hdel : delOutbound core e.tag =
        .ok { core with outbounds := delete CoreOutbound.tag core.outbounds (entryOutbound e).tag } :=
      if_pos hin
    have hagain : addOutbound { core with
        outbounds := delete CoreOutbound.tag core.outbounds (entryOutbound e).tag } e.raw =
          .ok { core with outbounds := replace CoreOutbound.tag core.outbounds (entryOutbound e) } := by
      simp only [addOutbound, hout, add_deleted]
    simp only [addOutboundReconciling, hadd, hmeta, hdel, ifPresent]
    exact hagain
  · simp only [addOutboundReconciling, addOutbound, hout, add_absent hin]

theorem addOutbounds_reconciled {es : List OutboundEntry}
    (h : ∀ e ∈ es, e.tag ≠ "" ∧ toOutbound e.raw = some (entryOutbound e)) :
    (es.map (·.raw)).foldlM addOutboundReconciling core = .ok { core with
      outbounds := replaceAll CoreOutbound.tag core.outbounds (es.map entryOutbound) } := by
  induction es generalizing core with
  | nil => rfl
  | cons e es ih =>
    obtain ⟨he, hrest⟩ := List.forall_mem_cons.mp h
    rw [List.map_cons, List.foldlM_cons, addOutbound_reconciled he.1 he.2]
    exact ih hrest

variable {old new : List OutboundEntry}

theorem default_patched (hold : (old.map (·.tag)).Nodup)
    (hnew : (new.map (·.tag)).Nodup) (hdefault : sameDefault old new = true)
    {obs : List CoreOutbound} (hhead : obs.head? = (old.map entryOutbound).head?) :
    (replaceAll CoreOutbound.tag (deleteAll CoreOutbound.tag obs
        ((removed OutboundEntry.tag normEqual old new).map (·.tag)))
      ((changed OutboundEntry.tag normEqual old new ++ fresh OutboundEntry.tag old new).map
        entryOutbound)).head? = (new.map entryOutbound).head? := by
  cases old with
  | nil =>
    cases new with
    | nil => exact hhead
    | cons => cases hdefault
  | cons o os =>
    cases new with
    | nil => cases hdefault
    | cons n ns =>
      simp only [sameDefault, Bool.and_eq_true, beq_iff_eq] at hdefault
      have hlook : lookup OutboundEntry.tag (n :: ns) o.tag = some n :=
        (lookup_some hnew).mpr ⟨List.mem_cons_self .., hdefault.1.symm⟩
      have hsame : normEqual o n = true := beq_iff_eq.mpr hdefault.2
      have hentry : entryOutbound o = entryOutbound n := by
        simp [entryOutbound, hdefault.1, hdefault.2]
      have hkept : o.tag ∉ (removed OutboundEntry.tag normEqual (o :: os) (n :: ns)).map (·.tag) := by
        intro hmem
        obtain ⟨o', ho', htag, hs⟩ := removed_keys.mp hmem
        rw [nodup_keys hold ho' (List.mem_cons_self ..) htag, stays, hlook, Option.any_some,
          hsame] at hs
        cases hs
      have hstill : o.tag ∉ ((changed OutboundEntry.tag normEqual (o :: os) (n :: ns) ++
          fresh OutboundEntry.tag (o :: os) (n :: ns)).map entryOutbound).map (·.tag) := by
        rw [List.map_map]
        intro hmem
        obtain ⟨n', hn', htag⟩ := List.mem_map.mp hmem
        have htag' : n'.tag = o.tag := htag
        rcases List.mem_append.mp hn' with hn' | hn'
        · obtain ⟨-, o', ho', htag'', hdiff⟩ := (mem_changed hnew).mp hn'
          rw [nodup_keys hold ho' (List.mem_cons_self ..) (htag''.trans htag'),
            nodup_keys hnew ((mem_changed hnew).mp hn').1 (List.mem_cons_self ..)
              (htag'.trans hdefault.1), hsame] at hdiff
          cases hdiff
        · exact (mem_fresh.mp hn').2 o (List.mem_cons_self ..) htag'.symm
      have hobs : obs.head? = some (entryOutbound o) := hhead
      rw [head_replaceAll (head_deleteAll hobs hkept) hstill, hentry]
      rfl

variable {oldCfg : Config}

theorem start_computed
    (hbase : start c oldCfg = some base) (h : Computed c oldCfg cfg diff old new) :
    base = ⟨oldCfg.inboundConfigs.map (toInbound c), old.map entryOutbound,
      toRouter c oldCfg.routerConfig, (staticSections oldCfg).map (toSection c)⟩ :=
  Option.some.inj (hbase.symm.trans (start_parsed h.oldParsed))

theorem outbounds_patched (hold : (old.map (·.tag)).Nodup)
    (hnew : (new.map (·.tag)).Nodup) {obs : List CoreOutbound}
    (hobs : ∀ tag, lookup CoreOutbound.tag obs tag =
      lookup CoreOutbound.tag (old.map entryOutbound) tag) (tag : String) :
    lookup CoreOutbound.tag (replaceAll CoreOutbound.tag (deleteAll CoreOutbound.tag obs
        ((removed OutboundEntry.tag normEqual old new).map OutboundEntry.tag))
      ((changed OutboundEntry.tag normEqual old new ++ fresh OutboundEntry.tag old new).map
        entryOutbound)) tag = lookup CoreOutbound.tag (new.map entryOutbound) tag := by
  have hpatch : ∀ k, lookup CoreOutbound.tag (replaceAll CoreOutbound.tag
      (deleteAll CoreOutbound.tag obs ((removed OutboundEntry.tag normEqual old new).map
        OutboundEntry.tag)) ((changed OutboundEntry.tag normEqual old new ++
          fresh OutboundEntry.tag old new).map entryOutbound)) k = _ :=
    fun k => lookup_patched hold hnew fun _ => rfl
  rw [hpatch]
  split
  case isTrue =>
    rw [lookup_map]
    rfl
  case isFalse hout =>
    obtain ⟨hremoved, hadded⟩ := not_or.mp hout
    have hnorm : ∀ a b, normEqual a b = true → a.norm = b.norm :=
      fun a b hab => by simpa [normEqual] using hab
    have hvalue := lookup_untouched hnorm hremoved hadded
    have hentry : ∀ es : List OutboundEntry, lookup CoreOutbound.tag (es.map entryOutbound) tag =
        ((lookup OutboundEntry.tag es tag).map (·.norm)).map (CoreOutbound.mk tag) := by
      intro es
      rw [lookup_map]
      cases hlook : lookup OutboundEntry.tag es tag with
      | none =>
        rw [show lookup (fun r => (entryOutbound r).tag) es tag = none from hlook]
        rfl
      | some e =>
        rw [show lookup (fun r => (entryOutbound r).tag) es tag = some e from hlook]
        simp only [Option.map_some, entryOutbound, (lookup_mem hlook).2]
    rw [hobs, hentry, hentry, hvalue]

theorem inbounds_patched
    (h : Computed c oldCfg cfg diff old new) (ibs : List CoreInbound) (tag : String) :
    lookup CoreInbound.tag (replaceAll CoreInbound.tag
        (deleteAll CoreInbound.tag ibs diff.removedInboundTags)
        (diff.addedInbounds.map (toInbound c))) tag =
      if tag ∈ touched diff then (lookup InboundConfig.tag cfg.inboundConfigs tag).map (toInbound c)
      else lookup CoreInbound.tag ibs tag := by
  simp only [touched, List.mem_append, h.removed, h.added]
  exact lookup_patched h.nodup.1 h.nodup.2 fun _ => rfl

theorem inbound_untouched
    (h : Computed c oldCfg cfg diff old new) {tag : String} (htag : tag ∉ touched diff) :
    (lookup InboundConfig.tag oldCfg.inboundConfigs tag).map (toInbound c) =
      (lookup InboundConfig.tag cfg.inboundConfigs tag).map (toInbound c) := by
  simp only [touched, List.mem_append, h.removed, h.added, not_or] at htag
  exact lookup_untouched (fun a b hab => inboundEqual_iff.mp hab) htag.1 htag.2

structure Applied (c : Codec) (p : Process) (cfg : Config) (diff : HotDiff) (core : Core) : Prop where
  aside : ∃ restarted, start c cfg = some restarted ∧ Aside core restarted
  inbounds : ∀ tag, lookup CoreInbound.tag core.inbounds tag =
    if tag ∈ touched diff then (lookup InboundConfig.tag cfg.inboundConfigs tag).map (toInbound c)
    else lookup CoreInbound.tag p.core.inbounds tag

theorem tryHotApply_applied (hbase : start c p.config = some base) (haside : Aside p.core base)
    (hdiff : computeHotDiff c p.config cfg = some diff) :
    ∃ core, tryHotApply c p.core diff = .ok core ∧ Applied c p cfg diff core := by
  obtain ⟨old, new, h⟩ := computeHotDiff_spec hdiff
  have hold := h.oldParsed
  have hnew := h.newParsed
  have hb := start_computed hbase h
  have htagged : ∀ ib ∈ diff.addedInbounds, ib.tag ≠ "" := by
    intro ib hib
    rw [h.added] at hib
    rcases List.mem_append.mp hib with hib | hib
    · exact h.tagged ib ((mem_changed h.nodup.2).mp hib).1
    · exact h.tagged ib (mem_fresh.mp hib).1
  let core₁ : Core := { p.core with
    inbounds := deleteAll CoreInbound.tag p.core.inbounds diff.removedInboundTags }
  let core₂ : Core := { core₁ with
    outbounds := deleteAll CoreOutbound.tag p.core.outbounds diff.removedOutboundTags }
  let core₃ : Core := { core₂ with
    outbounds := replaceAll CoreOutbound.tag core₂.outbounds
      ((changed OutboundEntry.tag normEqual old new ++ fresh OutboundEntry.tag old new).map
        entryOutbound) }
  let core₄ : Core := { core₃ with
    inbounds := replaceAll CoreInbound.tag core₁.inbounds (diff.addedInbounds.map (toInbound c)) }
  have h₃ : diff.addedOutbounds.foldlM addOutboundReconciling core₂ = .ok core₃ := by
    rw [h.addedOut]
    exact addOutbounds_reconciled fun e he =>
      ⟨hnew.tagged e (h.outbound e he).1, (h.outbound e he).2⟩
  have h₅ : applyRouting c core₄ diff.routingConfig =
      .ok { core₄ with router := toRouter c cfg.routerConfig } :=
    h.routing core₄ (haside.router.trans (by rw [hb]))
  refine ⟨{ core₄ with router := toRouter c cfg.routerConfig }, ?_,
    ⟨_, start_parsed hnew, ⟨?_, ?_, rfl, ?_⟩⟩, inbounds_patched h p.core.inbounds⟩
  · simp only [tryHotApply, applyWith, bind_ok]
    exact ⟨core₁, delInbounds_eq _ _, core₂, delOutbounds_eq _ _, core₃, h₃, core₄,
      addInbounds_reconciled htagged, h₅⟩
  · have hhead : p.core.outbounds.head? = (old.map entryOutbound).head? := by
      rw [haside.default, hb]
    simp only [core₄, core₃, core₂, h.removedOut]
    exact default_patched hold.nodup hnew.nodup h.default hhead
  · intro tag
    have hlook : ∀ tag, lookup CoreOutbound.tag p.core.outbounds tag =
        lookup CoreOutbound.tag (old.map entryOutbound) tag := by
      intro tag
      rw [haside.outbounds, hb]
    simp only [core₄, core₃, core₂, h.removedOut]
    exact outbounds_patched hold.nodup hnew.nodup hlook tag
  · have hfixed : p.core.fixed = (staticSections p.config).map (toSection c) := by
      rw [haside.fixed, hb]
    exact hfixed.trans h.fixed

theorem untouched_applied (hbase : start c p.config = some base) (haside : Aside p.core base)
    (hdiff : computeHotDiff c p.config cfg = some diff) (hempty : diff.isEmpty = true) :
    Applied c p cfg diff p.core := by
  obtain ⟨core, happly, happlied⟩ := tryHotApply_applied hbase haside hdiff
  simp only [HotDiff.isEmpty, Bool.and_eq_true, List.isEmpty_iff, Option.isNone_iff_eq_none] at hempty
  obtain ⟨⟨⟨⟨h₁, h₂⟩, h₃⟩, h₄⟩, h₅⟩ := hempty
  simp only [tryHotApply, applyWith, bind_ok, h₁, h₂, h₃, h₄, h₅] at happly
  obtain ⟨_, ha, _, hb, _, hc, _, hd, he⟩ := happly
  cases ha
  cases hb
  cases hc
  cases hd
  cases he
  exact happlied

theorem Applied.serves {core : Core} (hdiff : computeHotDiff c p.config cfg = some diff)
    (h : Applied c p cfg diff core) :
    Serves c core cfg ↔ ∀ tag, tag ∉ touched diff → ¬ Drifted c p tag := by
  obtain ⟨old, new, hcomputed⟩ := computeHotDiff_spec hdiff
  obtain ⟨restarted, hstart, haside⟩ := h.aside
  have hlook := lookup_start hstart
  have huntouched : ∀ tag, tag ∉ touched diff → (¬ Drifted c p tag ↔
      lookup CoreInbound.tag core.inbounds tag =
        lookup CoreInbound.tag restarted.inbounds tag) := by
    intro tag htag
    rw [Drifted, not_not, h.inbounds, if_neg htag, hlook, inbound_untouched hcomputed htag]
  constructor
  · rintro ⟨restarted', hstart', -, hin⟩ tag htag
    obtain rfl := Option.some.inj (hstart.symm.trans hstart')
    exact (huntouched tag htag).mpr (hin tag)
  · intro hdrift
    refine ⟨restarted, hstart, haside, ?_⟩
    intro tag
    by_cases htag : tag ∈ touched diff
    · rw [h.inbounds, if_pos htag, hlook]
    · exact (huntouched tag htag).mp (hdrift tag htag)

theorem hotApply_spec {apiUp : Bool} (hbase : start c p.config = some base)
    (haside : Aside p.core base) (hdiff : computeHotDiff c p.config cfg = some diff)
    (hready : diff.isEmpty = true ∨ apiUp = true) :
    ∃ core, hotApply c p cfg apiUp = some ⟨cfg, core⟩ ∧ Applied c p cfg diff core := by
  simp only [hotApply, hdiff, Option.bind_eq_bind, Option.bind_some]
  split
  case isTrue hempty => exact ⟨p.core, rfl, untouched_applied hbase haside hdiff hempty⟩
  case isFalse hsome =>
    obtain ⟨core, happly, happlied⟩ := tryHotApply_applied hbase haside hdiff
    rw [if_pos (hready.resolve_left hsome), happly]
    exact ⟨core, rfl, happlied⟩

theorem hotApply_refused {apiUp : Bool} (hdiff : computeHotDiff c p.config cfg = some diff)
    (hready : ¬ (diff.isEmpty = true ∨ apiUp = true)) : hotApply c p cfg apiUp = none := by
  obtain ⟨hempty, hup⟩ := not_or.mp hready
  simp only [hotApply, hdiff, Option.bind_eq_bind, Option.bind_some, if_neg hempty, if_neg hup]

end patching

section run

variable {c : Codec} (users : UserManager) {core core' : Core} {h : Host} {cfg : Config} {p : Process}

def Tracks (c : Codec) (h : Host) : Prop :=
  ∀ p, h.process = some p → ∃ base, start c p.config = some base ∧ Aside p.core base

theorem perform_keeps {call : ApiCall} (h : perform c users core call = .ok core') :
    core'.outbounds = core.outbounds ∧ core'.router = core.router ∧ core'.fixed = core.fixed := by
  have husers : ∀ {tag alter}, alterUsers core tag alter = .ok core' →
      core'.outbounds = core.outbounds ∧ core'.router = core.router ∧ core'.fixed = core.fixed := by
    intro tag alter halter
    simp only [alterUsers] at halter
    split at halter
    · cases halter
    · split at halter
      · cases halter
      · cases halter
        exact ⟨rfl, rfl, rfl⟩
  cases call with
  | addInbound ib =>
    simp only [perform, addInbound] at h
    split at h
    · cases h
      exact ⟨rfl, rfl, rfl⟩
    · cases h
  | delInbound tag =>
    simp only [perform, delInbound] at h
    split at h
    · cases h
      exact ⟨rfl, rfl, rfl⟩
    · cases h
  | addUser tag user =>
    simp only [perform] at h
    exact husers h
  | removeUser tag email =>
    simp only [perform] at h
    exact husers h

theorem withAPI_keeps (p : Process) (call : ApiCall) (d : Delivery) :
    let p' := (withAPI c users p call d).1
    p'.config = p.config ∧ p'.core.outbounds = p.core.outbounds ∧ p'.core.router = p.core.router ∧
      p'.core.fixed = p.core.fixed := by
  simp only [withAPI]
  split
  case isFalse => exact ⟨rfl, rfl, rfl, rfl⟩
  case isTrue =>
    split
    case h_1 core hcall => exact ⟨rfl, perform_keeps users hcall⟩
    case h_2 => exact ⟨rfl, rfl, rfl, rfl⟩

structure Unmarked (h h' : Host) : Prop where
  needRestart : h'.needRestart = h.needRestart
  manuallyStopped : h'.manuallyStopped = h.manuallyStopped

theorem request_keeps (hh : Tracks c h) (call : ApiCall) (d : Delivery) :
    Tracks c (request c users h call d).1 ∧ Unmarked h (request c users h call d).1 := by
  simp only [request]
  split
  case h_1 => exact ⟨hh, rfl, rfl⟩
  case h_2 p hp =>
    refine ⟨?_, rfl, rfl⟩
    intro p' hp'
    obtain rfl := Option.some.inj hp'
    obtain ⟨hconfig, hout, hrouter, hfixed⟩ := withAPI_keeps users p call d (c := c)
    obtain ⟨base, hbase, haside⟩ := hh p hp
    refine ⟨base, hconfig ▸ hbase, ?_, ?_, ?_, ?_⟩
    · rw [hout, haside.default]
    · rw [hout]
      exact haside.outbounds
    · rw [hrouter, haside.router]
    · rw [hfixed, haside.fixed]

theorem requests_keeps (hh : Tracks c h) (calls : List (ApiCall × Delivery)) :
    Tracks c (requests c users h calls).1 ∧ Unmarked h (requests c users h calls).1 := by
  induction calls generalizing h with
  | nil => exact ⟨hh, rfl, rfl⟩
  | cons call rest ih =>
    obtain ⟨htracks, hmark⟩ := request_keeps users hh call.1 call.2
    obtain ⟨htracks', hmark'⟩ := ih htracks
    exact ⟨htracks', hmark'.needRestart.trans hmark.needRestart,
      hmark'.manuallyStopped.trans hmark.manuallyStopped⟩

theorem addTraffic_keeps (hh : Tracks c h) (sweep : Sweep) :
    Tracks c (addTraffic c users h sweep).1 ∧ Unmarked h (addTraffic c users h sweep).1 :=
  let hdone := requests_keeps users hh sweep.calls
  ⟨hdone.1, hdone.2.needRestart, hdone.2.manuallyStopped⟩

theorem startProcess_tracks (h : Host) (cfg : Config) (d : RestartDraws) :
    Tracks c (startProcess c h cfg d).1 := by
  simp only [startProcess]
  split
  case isTrue =>
    intro p hp
    obtain ⟨core, hcore, rfl⟩ := Option.map_eq_some_iff.mp hp
    exact ⟨core, hcore, .refl core⟩
  case isFalse =>
    intro p hp
    cases hp

theorem hotApply_tracks {p' : Process} {apiUp : Bool} (hp : ∃ base, start c p.config = some base ∧
    Aside p.core base) (happly : hotApply c p cfg apiUp = some p') :
    ∃ restarted, start c p'.config = some restarted ∧ Aside p'.core restarted := by
  obtain ⟨base, hbase, haside⟩ := hp
  cases hdiff : computeHotDiff c p.config cfg with
  | none =>
    simp only [hotApply, hdiff, Option.bind_eq_bind, Option.bind_none] at happly
    cases happly
  | some diff =>
    by_cases hready : diff.isEmpty = true ∨ apiUp = true
    · obtain ⟨core, hsome, happlied⟩ := hotApply_spec hbase haside hdiff hready
      obtain rfl := Option.some.inj (hsome.symm.trans happly)
      exact happlied.aside
    · rw [hotApply_refused hdiff hready] at happly
      cases happly

theorem restartXray_tracks (hh : Tracks c h) (isForce : Bool) (d : RestartDraws) :
    Tracks c (restartXray c users isForce h d).1 := by
  have hstopped : Tracks c { h with manuallyStopped := false } := hh
  have hkept := (addTraffic_keeps users hstopped d.traffic).1
  simp only [restartXray, getXrayConfig]
  generalize (addTraffic c users { h with manuallyStopped := false } d.traffic).1 = h' at hkept
  cases hcfg : h'.generated with
  | none => exact hkept
  | some cfg =>
    simp only
    split
    case h_1 => exact startProcess_tracks h' cfg d
    case h_2 p hp =>
      split
      case isTrue => exact hkept
      case isFalse =>
        split
        case h_1 p' happly =>
          intro p'' hp''
          obtain rfl := Option.some.inj hp''
          split at happly
          · exact hotApply_tracks (hkept p hp) happly
          · cases happly
        case h_2 => exact startProcess_tracks h' cfg d

theorem poll_tracks (hh : Tracks c h) (p : Poll) : Tracks c (poll c users h p) := by
  have hswept := (addTraffic_keeps users hh p.traffic).1
  have hrestart : Tracks c (restartOnDisable c users (addTraffic c users h p.traffic).1 p.restart) := by
    cases p.restart with
    | none => exact hswept
    | some d =>
      have hdone := restartXray_tracks users hswept true d
      simp only [restartOnDisable]
      split
      · rename_i hr
        rw [hr] at hdone
        exact hdone
      · rename_i hr
        rw [hr] at hdone
        exact hdone
  simp only [poll]
  split
  case isTrue => exact hh
  case isFalse =>
    split
    · exact hrestart
    · exact hrestart

theorem next_tracks (hh : Tracks c h) (e : Event) : Tracks c (next c users h e) := by
  cases e with
  | edit generated => exact hh
  | call call d =>
    have hdone := (request_keeps users hh call d).1
    simp only [next]
    split
    · rename_i hr
      rw [hr] at hdone
      exact hdone
    · rename_i hr
      rw [hr] at hdone
      exact hdone
  | tick d =>
    have hcleared : Tracks c { h with needRestart := false } := hh
    simp only [next, tick, isNeedRestartAndSetFalse]
    cases h.needRestart with
    | false => exact hcleared
    | true => exact restartXray_tracks users hcleared false d
  | poll p => exact poll_tracks users hh p
  | start d => exact restartXray_tracks users hh true d

variable {d : RestartDraws}

theorem startProcess_kept (hcfg : h.generated = some cfg)
    (hstopped : h.manuallyStopped = false) :
    Kept c (startProcess c h cfg d) ↔ Accepted c cfg d := by
  simp only [startProcess, Accepted]
  split
  case isFalse hno => simp [Kept, didXrayCrash, hstopped, hno]
  case isTrue hspawned =>
    simp only [hspawned, forall_const]
    constructor
    · rintro ⟨p, -, hp, -⟩
      obtain ⟨core, hcore, -⟩ := Option.map_eq_some_iff.mp hp
      rw [hcore]
      rfl
    · intro hsome
      obtain ⟨core, hcore⟩ := Option.isSome_iff_exists.mp hsome
      exact ⟨⟨cfg, core⟩, cfg, by rw [hcore]; rfl, hcfg, serves_of_start hcore⟩

theorem serves_iff_undrifted (hp : ∃ base, start c p.config = some base ∧ Aside p.core base) :
    Serves c p.core p.config ↔ ∀ tag, ¬ Drifted c p tag := by
  obtain ⟨base, hbase, haside⟩ := hp
  have hlook := lookup_start hbase
  constructor
  · rintro ⟨restarted, hstart, -, hin⟩ tag
    obtain rfl := Option.some.inj (hbase.symm.trans hstart)
    rw [Drifted, not_not, hin, hlook]
  · intro hdrift
    refine ⟨base, hbase, haside, ?_⟩
    intro tag
    rw [hlook]
    exact not_not.mp (hdrift tag)

theorem kept_of_running {p' : Process} (hcfg : h.generated = some cfg) :
    Kept c ({ h with process := some p' }, .ok ()) ↔ Serves c p'.core cfg := by
  constructor
  · rintro ⟨p, cfg', hp, hcfg', hserves⟩
    obtain rfl := Option.some.inj hp
    obtain rfl := Option.some.inj (hcfg.symm.trans hcfg')
    exact hserves
  · intro hserves
    exact ⟨p', cfg, rfl, hcfg, hserves⟩

theorem reconciled_kept (hcfg : h.generated = some cfg)
    (hstopped : h.manuallyStopped = false)
    (hp : ∃ base, start c p.config = some base ∧ Aside p.core base) :
    Kept c (match hotApply c p cfg d.apiUp with
      | some p' => ({ h with process := some p' }, .ok ())
      | none => startProcess c h cfg d) ↔
    match computeHotDiff c p.config cfg with
      | none => Accepted c cfg d
      | some diff => diff.isEmpty ∨ d.apiUp → ∀ tag, tag ∉ touched diff → ¬ Drifted c p tag := by
  obtain ⟨base, hbase, haside⟩ := hp
  cases hdiff : computeHotDiff c p.config cfg with
  | none =>
    have hnone : hotApply c p cfg d.apiUp = none := by
      simp only [hotApply, hdiff, Option.bind_eq_bind, Option.bind_none]
    rw [hnone]
    exact startProcess_kept hcfg hstopped
  | some diff =>
    by_cases hready : diff.isEmpty = true ∨ d.apiUp = true
    · obtain ⟨core, hsome, happlied⟩ := hotApply_spec hbase haside hdiff hready
      simp only [hsome, hready, forall_const]
      rw [kept_of_running hcfg]
      exact happlied.serves hdiff
    · have haccepted : Accepted c cfg d := by
        intro _
        obtain ⟨_, _, happlied⟩ := tryHotApply_applied hbase haside hdiff
        obtain ⟨restarted, hstart, -⟩ := happlied.aside
        rw [hstart]
        rfl
      rw [hotApply_refused hdiff hready]
      constructor
      · intro _ hup
        exact absurd hup hready
      · intro _
        exact (startProcess_kept hcfg hstopped).mpr haccepted

theorem answered_ok (hh : Answered c users h (.tick d))
    (hok : (tick c users h d).2 = some (.ok ())) :
    ∃ p cfg, (tick c users h d).1.process = some p ∧ (tick c users h d).1.generated = some cfg ∧
      ∀ tag, lookup CoreInbound.tag p.core.inbounds tag =
        (lookup InboundConfig.tag cfg.inboundConfigs tag).map (toInbound c) := by
  simp only [Answered] at hh
  split at hh
  case h_1 hr =>
    rw [hr] at hok
    cases hok
  case h_2 r hr =>
    rw [hr] at hok ⊢
    obtain rfl := Option.some.inj hok
    obtain ⟨p, cfg, hp, hcfg, restarted, hstart, -, hin⟩ := hh
    exact ⟨p, cfg, hp, hcfg, fun tag => (hin tag).trans (lookup_start hstart tag)⟩

theorem answered_error {e : RestartErr} (hh : Answered c users h (.tick d))
    (herr : (tick c users h d).2 = some (.error e)) :
    (tick c users h d).1.needRestart = true ∨ didXrayCrash (tick c users h d).1 = true := by
  simp only [Answered] at hh
  split at hh
  case h_1 hr =>
    rw [hr] at herr
    cases herr
  case h_2 r hr =>
    rw [hr] at herr ⊢
    obtain rfl := Option.some.inj herr
    exact hh

theorem answered_iff_covered (hh : Tracks c h) (e : Event) :
    Answered c users h e ↔ Covered c users h e := by
  cases e with
  | edit generated => exact Iff.rfl
  | call call d => exact Iff.rfl
  | poll p => exact Iff.rfl
  | start d => exact Iff.rfl
  | tick d =>
    cases hflag : h.needRestart with
    | false => simp [Answered, Covered, tick, isNeedRestartAndSetFalse, hflag]
    | true =>
      have hcleared : Tracks c { h with needRestart := false, manuallyStopped := false } := hh
      have hkept := addTraffic_keeps users hcleared d.traffic
      simp only [Answered, Covered, tick, isNeedRestartAndSetFalse, hflag, restartXray, getXrayConfig,
        forall_const]
      generalize (addTraffic c users { h with needRestart := false, manuallyStopped := false }
        d.traffic).1 = h' at hkept ⊢
      obtain ⟨htracks, hclear, hstopped⟩ := hkept
      cases hcfg : h'.generated with
      | none => simp [Kept, didXrayCrash, hclear, hstopped]
      | some cfg =>
        cases hp : h'.process with
        | none =>
          simp only [hp]
          exact startProcess_kept hcfg hstopped
        | some p =>
          have hrunning := htracks p hp
          simp only [hp, Patched]
          by_cases hsame : p.config = cfg
          · have hstays : ({ h' with process := some p } : Host) = h' := by rw [← hp]
            subst hsame
            simp only [decide_true, hclear, Bool.not_false, Bool.and_true, if_true]
            rw [← hstays, kept_of_running hcfg]
            exact serves_iff_undrifted hrunning
          · simp only [hsame, Bool.not_false, if_false]
            exact reconciled_kept hcfg hstopped hrunning

theorem restart_requests_kept (c : Codec) (users : UserManager) (generated : Option Config)
    (events : List Event) :
    Throughout (next c users) (Answered c users) (off generated) events ↔
      Throughout (next c users) (Covered c users) (off generated) events := by
  have hoff : Tracks c (off generated) := by
    intro p hp
    cases hp
  exact Throughout.iff_of_keep hoff (fun _ e hh => next_tracks users hh e)
    (fun _ e hh => answered_iff_covered users hh e)

end run

def noUsers : UserManager := ⟨fun _ _ => none, fun _ _ => none⟩

def quiet : RestartDraws := ⟨⟨[], id⟩, true, true⟩

def delivered : Delivery := ⟨true, true⟩

def undelivered : Delivery := ⟨false, false⟩

def inbound8443 : InboundConfig := ⟨"", 443, "vless", "", "", "in-8443", ""⟩

def started : Host := ⟨some (plainConfig "" "[direct,blocked]" ["in-443"]), none, false, false⟩

def staleSnapshot : List Event :=
  [.start quiet, .edit (some (plainConfig "" "[direct,blocked]" ["in-443", "in-8443"])),
    .call (.addInbound inbound8443) delivered,
    .edit (some (plainConfig "" "[direct,blocked]" ["in-443"])),
    .call (.delInbound "in-8443") undelivered]

def unreadableConfig : List Event := [.start quiet, .call (.delInbound "in-443") undelivered]

def unreadable : RestartDraws := ⟨⟨[], fun _ => none⟩, true, true⟩

theorem restart_request_lost :
    ¬ Throughout (next plainCodec noUsers) (Answered plainCodec noUsers) started
        (staleSnapshot ++ [.tick quiet]) ∧
    ¬ Throughout (next plainCodec noUsers) (Answered plainCodec noUsers) started
        (unreadableConfig ++ [.tick unreadable]) := by
  constructor
  · intro h
    let lost := staleSnapshot.foldl (next plainCodec noUsers) started
    have hok : (tick plainCodec noUsers lost quiet).2 = some (.ok ()) := by decide +kernel
    have hcore : (tick plainCodec noUsers lost quiet).1.process.map (fun p : Process =>
        (lookup CoreInbound.tag p.core.inbounds "in-8443").isSome) = some true := by decide +kernel
    have hgen : (tick plainCodec noUsers lost quiet).1.generated.map (fun cfg : Config =>
        (lookup InboundConfig.tag cfg.inboundConfigs "in-8443").isSome) = some false := by
      decide +kernel
    obtain ⟨p, cfg, hp, hcfg, hlook⟩ := answered_ok noUsers h.last hok
    rw [hp, Option.map_some, hlook, Option.isSome_map] at hcore
    rw [hcfg, Option.map_some] at hgen
    cases hcore.symm.trans hgen
  · intro h
    let lost := unreadableConfig.foldl (next plainCodec noUsers) started
    have herr : (tick plainCodec noUsers lost unreadable).2 = some (.error .config) := by
      decide +kernel
    have hgone : ((tick plainCodec noUsers lost unreadable).1.needRestart ||
        didXrayCrash (tick plainCodec noUsers lost unreadable).1) = false := by decide +kernel
    have hpending := answered_error noUsers h.last herr
    rw [← Bool.or_eq_true, hgone] at hpending
    cases hpending

end HotReload

end QuiPanel
