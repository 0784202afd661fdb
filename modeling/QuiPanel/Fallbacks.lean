import QuiPanel.SubService
import QuiPanel.Library.HostPort

namespace QuiPanel

namespace Fallbacks

open Subscription HostPort List

section tables

inductive Protocol
  | vless
  | trojan
  | mtproto
  | other
deriving DecidableEq

structure Inbound where
  id : Int
  enable : Bool
  nodeId : Option Int
  protocol : Protocol
  listen : String
  port : Nat
  settings : Object
  streamSettings : Option Object
  shareAddrStrategy : String
  shareAddr : String

structure Rule where
  id : Int
  masterId : Int
  childId : Int
  name : String
  alpn : String
  path : String
  dest : String
  xver : Int
  sortOrder : Int
deriving DecidableEq

structure FallbackInput where
  childId : Int
  name : String
  alpn : String
  path : String
  dest : String
  xver : Int
  sortOrder : Int

structure Rules where
  rows : List Rule
  lastId : Int

structure Db where
  inbounds : List Inbound
  rules : List Rule

end tables

section rules

def inputChild (masterId : Int) (c : FallbackInput) : Int := if c.childId = masterId then 0 else c.childId

def skipped (masterId : Int) (c : FallbackInput) : Bool :=
  inputChild masterId c ≤ 0 && Text.trimSpace c.dest == ""

def createRule (masterId : Int) (rules : Rules) (item : FallbackInput × Nat) : Rules :=
  let (c, i) := item
  if skipped masterId c then rules
  else
    ⟨rules.rows ++ [{
      id := rules.lastId + 1
      masterId := masterId
      childId := inputChild masterId c
      name := c.name
      alpn := c.alpn
      path := c.path
      dest := c.dest
      xver := c.xver
      sortOrder := if c.sortOrder = 0 then i else c.sortOrder }], rules.lastId + 1⟩

def setByMaster (rules : Rules) (call : Int × List FallbackInput) : Rules :=
  call.2.zipIdx.foldl (createRule call.1) ⟨rules.rows.filter (·.masterId ≠ call.1), rules.lastId⟩

def written (calls : List (Int × List FallbackInput)) : List Rule := (calls.foldl setByMaster ⟨[], 0⟩).rows

end rules

section config

variable (db : Db)

def ruleOrder (a b : Rule) : Bool := a.sortOrder < b.sortOrder || (a.sortOrder = b.sortOrder && a.id ≤ b.id)

def rulesOf (masterId : Int) : List Rule := (db.rules.filter (·.masterId = masterId)).mergeSort ruleOrder

def childOf (r : Rule) : Option Inbound := db.inbounds.find? (·.id = r.childId)

def destHost (child : Inbound) : String :=
  let listen := Text.trimSpace child.listen
  if listen ∈ ["", "0.0.0.0", "::", "::0"] then "127.0.0.1" else listen

def hostPort (host : String) (port : Nat) : String := host ++ ":" ++ Nat.repr port

def childDest (child : Inbound) : String := hostPort (destHost child) child.port

def customDest (r : Rule) : Bool := Text.trimSpace r.dest != ""

def ruleDest (r : Rule) : Option String :=
  if customDest r then some (Text.trimSpace r.dest) else (childOf db r).map childDest

def fallbackEntry (r : Rule) (dest : String) : Object :=
  let entry : Object := [("dest", .str dest)]
  let entry := entry.putIf (r.name ≠ "") "name" (.str r.name)
  let entry := entry.putIf (r.alpn ≠ "") "alpn" (.str r.alpn)
  let entry := entry.putIf (r.path ≠ "") "path" (.str r.path)
  entry.putIf (r.xver > 0) "xver" (.num (toString r.xver))

def buildFallbacks (masterId : Int) : List Object :=
  (rulesOf db masterId).filterMap fun r => (ruleDest db r).map (fallbackEntry r)

def inboundCanHostFallbacks (ib : Inbound) : Bool :=
  (ib.protocol = .vless || ib.protocol = .trojan) &&
    match ib.streamSettings with
    | none => false
    | some stream => stream.get "network" = some (.str "tcp") &&
        (stream.get "security" = some (.str "tls") || stream.get "security" = some (.str "reality"))

def inConfig (ib : Inbound) : Bool := ib.enable && ib.nodeId.isNone && ib.protocol ≠ .mtproto

def configFallbacks (ib : Inbound) : List Json :=
  let fallbacks := buildFallbacks db ib.id
  if inboundCanHostFallbacks ib = true ∧ fallbacks ≠ [] then fallbacks.map .obj
  else arrD (ib.settings.get "fallbacks")

def configListen (ib : Inbound) : String := if ib.listen = "" then "0.0.0.0" else ib.listen

end config

section links

variable (env : Env) (db : Db)

def Inbound.view (ib : Inbound) : Subscription.Inbound where
  id := ib.id
  subSortIndex := 0
  remark := ""
  enable := ib.enable
  listen := ib.listen
  port := ib.port
  protocol := match ib.protocol with
    | .vless => .vless
    | .trojan => .trojan
    | _ => .other
  settings := ib.settings
  streamSettings := ib.streamSettings.getD []
  nodeId := ib.nodeId
  shareAddrStrategy := ib.shareAddrStrategy
  shareAddr := ib.shareAddr
  clientStats := []

def address (ib : Inbound) : String := resolveInboundAddress env ib.view

def parentRule (childId : Int) : Option Rule :=
  ((db.rules.filter (·.childId = childId)).mergeSort ruleOrder).head?

def legacyMaster (listen : String) : Option Inbound :=
  (db.inbounds.mergeSort fun a b => a.id ≤ b.id).find? fun m =>
    (arrD (m.settings.get "fallbacks")).any fun f => (objD (some f)).get "dest" = some (.str listen)

def fallbackMaster (ib : Inbound) : Option Inbound :=
  let tracked := (parentRule db ib.id).bind fun rule => db.inbounds.find? (·.id = rule.masterId)
  tracked.or (if ib.listen.startsWith "@" then legacyMaster db ib.listen else none)

def mergeStream (childStream masterStream : Option Object) : Option Object :=
  match masterStream with
  | none => childStream
  | some mst => some (mergeStreamFromMaster (childStream.getD []) mst)

def projectThroughFallbackMaster (ib : Inbound) : Inbound × Bool :=
  if listenIsInternalOnly env ib.listen then
    match fallbackMaster db ib with
    | some master =>
      ({ ib with
        streamSettings := mergeStream ib.streamSettings master.streamSettings
        listen := master.listen
        port := master.port }, true)
    | none => (ib, false)
  else (ib, false)

end links

section reach

structure Core where
  takes : String → String → Bool

variable (core : Core) (env : Env) (db : Db)

def isSocket (listen : String) : Bool := listen.startsWith "@" || listen.startsWith "/"

def dialled (dest : String) : String :=
  if dest ≠ "" ∧ dest.toList.all Char.isDigit then "localhost:" ++ dest else dest

def leadsTo (dest : String) (child : Inbound) : Bool :=
  if isSocket (configListen child) then dest == configListen child
  else
    match splitHostPort (dialled dest).toList with
    | none => false
    | some (host, port) =>
      port == (Nat.repr child.port).toList && core.takes (String.ofList host) (configListen child)

def entryDest (f : Json) : Option String :=
  match (objD (some f)).get "dest" with
  | some (.str dest) => some dest
  | some (.num digits) => some digits
  | _ => none

def entryLeads (child : Inbound) (f : Json) : Bool := (entryDest f).any fun dest => leadsTo core dest child

def securityKeys : List String := ["security", "tlsSettings", "realitySettings", "externalProxy"]

def streamField (ib : Inbound) (key : String) : Option Json :=
  (ib.streamSettings.bind fun stream => stream.get key).filter (· ≠ .null)

structure Advertises (master link : Inbound) : Prop where
  address : address env link = address env master
  port : link.port = master.port
  security : ∀ key ∈ securityKeys, streamField link key = streamField master key

structure Projected (ib master : Inbound) : Prop where
  inConfig : inConfig master = true
  leads : ∃ f ∈ configFallbacks db master, entryLeads core ib f = true
  advertises : Advertises env master (projectThroughFallbackMaster env db ib).1

structure Reachable : Prop where
  entries : ∀ m ∈ db.inbounds, inConfig m = true → inboundCanHostFallbacks m = true →
    ∀ r ∈ rulesOf db m.id, customDest r = false → ∀ child, childOf db r = some child →
      inConfig child = true ∧ leadsTo core (childDest child) child = true
  links : ∀ ib ∈ db.inbounds,
    ((projectThroughFallbackMaster env db ib).2 = true →
      ∃ m, m ∈ db.inbounds ∧ fallbackMaster db ib = some m ∧ Projected core env db ib m) ∧
    ((projectThroughFallbackMaster env db ib).2 = false → (projectThroughFallbackMaster env db ib).1 = ib)

end reach

section targets

variable {rules : Rules}

end targets

section entries

variable {core : Core} {db : Db} {child : Inbound} {r : Rule}

theorem repr_plain (n : Nat) : ':' ∉ (Nat.repr n).toList ∧ bare (Nat.repr n).toList = true := by
  have hnot : ∀ c : Char, c.isDigit = false → c ∉ (Nat.repr n).toList := by
    intro c hc hmem
    rw [Text.repr_isDigit c hmem] at hc
    cases hc
  refine ⟨hnot ':' (by decide), ?_⟩
  rw [bare, contains_eq_mem, contains_eq_mem, decide_eq_false (hnot '[' (by decide)),
    decide_eq_false (hnot ']' (by decide))]
  rfl

theorem hostPort_toList (host : String) (port : Nat) :
    (hostPort host port).toList = host.toList ++ ':' :: (Nat.repr port).toList := by
  simp [hostPort]

theorem dialled_hostPort (host : String) (port : Nat) : dialled (hostPort host port) = hostPort host port := by
  rw [dialled, if_neg]
  rintro ⟨-, hall⟩
  rw [hostPort_toList, all_eq_true] at hall
  exact absurd (hall ':' (by simp)) (by decide)

theorem socket_mark {listen : String} (h : isSocket listen = true) :
    ∃ mark rest, listen.toList = mark :: rest ∧ Text.isSpace mark = false ∧ mark.isDigit = false := by
  rw [isSocket, Bool.or_eq_true, String.startsWith_string_iff, String.startsWith_string_iff] at h
  rcases h with ⟨rest, hrest⟩ | ⟨rest, hrest⟩
  · exact ⟨'@', rest, hrest.symm, by decide, by decide⟩
  · exact ⟨'/', rest, hrest.symm, by decide, by decide⟩

theorem childDest_ne_socket (h : isSocket (configListen child) = true) :
    childDest child ≠ configListen child := by
  have hlisten : configListen child = child.listen := by
    unfold configListen at h ⊢
    split at h
    · exact absurd h (by decide +kernel)
    · next hne => rw [if_neg hne]
  rw [hlisten] at h ⊢
  intro heq
  have htext : child.listen.toList = (destHost child).toList ++ ':' :: (Nat.repr child.port).toList := by
    rw [← heq, childDest, hostPort_toList]
  obtain ⟨mark, rest, hmark, hspace, hdigit⟩ := socket_mark h
  have hlast : ∀ c, child.listen.toList.getLast? = some c → c.isDigit = true := by
    intro c hc
    have hdigits : (Nat.repr child.port).toList ≠ [] := by simp
    rw [htext, getLast?_append_of_ne_nil _ (cons_ne_nil _ _),
      getLast?_cons_of_ne_nil hdigits] at hc
    exact Text.repr_isDigit _ (mem_of_getLast? hc)
  have hedged : Text.Edged child.listen.toList := by
    constructor
    · intro c hc
      rw [hmark] at hc
      cases hc
      exact hspace
    · intro c hc
      exact Text.isSpace_plain (by simp [Char.isAlphanum, hlast c hc])
  have hhost : destHost child = "127.0.0.1" ∨ destHost child = child.listen := by
    rw [destHost, Text.trimSpace_of_edged hedged]
    split
    · exact .inl rfl
    · exact .inr rfl
  rcases hhost with hloop | hsame
  · rw [hmark, hloop] at htext
    have hhead := congrArg List.head? htext
    cases hhead
    exact absurd hdigit (by decide)
  · have hlength := congrArg List.length htext
    rw [hsame, length_append, length_cons] at hlength
    omega

def Meets (core : Core) (child ib : Inbound) : Prop :=
  (isSocket (configListen ib) = true ∧ configListen ib = destHost child ++ ":" ++ Nat.repr child.port) ∨
    (isSocket (configListen ib) = false ∧ Form (destHost child).toList ∧ child.port = ib.port ∧
      core.takes (String.ofList (unbracket (destHost child).toList)) (configListen ib) = true)

theorem split_hostPort {host : String} {n : Nat} {got want : List Char} :
    splitHostPort (hostPort host n).toList = some (got, want) ↔
      Form host.toList ∧ got = unbracket host.toList ∧ want = (Nat.repr n).toList := by
  obtain ⟨hcolon, hbare⟩ := repr_plain n
  rw [hostPort_toList]
  exact splitHostPort_iff hcolon hbare

theorem leadsTo_childDest {ib : Inbound} : leadsTo core (childDest child) ib = true ↔ Meets core child ib := by
  unfold leadsTo Meets
  cases hsocket : isSocket (configListen ib) with
  | true =>
    simp only [if_true, beq_iff_eq, Bool.true_eq_false, false_and, or_false, true_and]
    exact eq_comm
  | false =>
    simp only [Bool.false_eq_true, if_false, true_and, false_and, false_or]
    rw [childDest, dialled_hostPort]
    constructor
    · intro h
      split at h
      · cases h
      · next host port hsplit =>
        obtain ⟨hform, rfl, rfl⟩ := split_hostPort.mp hsplit
        rw [Bool.and_eq_true, beq_iff_eq] at h
        exact ⟨hform, Nat.repr_inj.mp (String.toList_injective h.1), h.2⟩
    · rintro ⟨hform, hport, htakes⟩
      rw [split_hostPort.mpr ⟨hform, rfl, rfl⟩]
      simp only
      rw [hport, beq_self_eq_true, Bool.true_and]
      exact htakes

end entries

section condition

variable (core : Core) (env : Env) (db : Db)

structure Dialable (child : Inbound) : Prop where
  served : inConfig child = true
  tcp : isSocket (configListen child) = false
  form : Form (destHost child).toList
  bound : core.takes (String.ofList (unbracket (destHost child).toList)) (configListen child) = true

def ruleLeads (ib : Inbound) (r : Rule) : Prop :=
  (customDest r = true ∧ leadsTo core (Text.trimSpace r.dest) ib = true) ∨
    (customDest r = false ∧ ∃ child, childOf db r = some child ∧ Meets core child ib)

def emits (m : Inbound) : Prop :=
  inboundCanHostFallbacks m = true ∧ ∃ r ∈ rulesOf db m.id, customDest r = true ∨ (childOf db r).isSome

def Leads (ib m : Inbound) : Prop :=
  (emits db m ∧ ∃ r ∈ rulesOf db m.id, ruleLeads core db ib r) ∨
    (¬ emits db m ∧ ∃ f ∈ arrD (m.settings.get "fallbacks"), entryLeads core ib f = true)

def Yields (ib m : Inbound) : Prop :=
  match m.streamSettings with
  | none => ∀ key ∈ securityKeys, streamField ib key = none
  | some stream => (stream.get "externalProxy").isSome ∨ streamField ib "externalProxy" = none

structure Fronted (ib m : Inbound) : Prop where
  served : inConfig m = true
  leads : Leads core db ib m
  address : address env { ib with listen := m.listen } = address env m
  yields : Yields ib m

structure Sound : Prop where
  entries : ∀ m ∈ db.inbounds, inConfig m = true → inboundCanHostFallbacks m = true →
    ∀ r ∈ rulesOf db m.id, customDest r = false → ∀ child, childOf db r = some child → Dialable core child
  links : ∀ ib ∈ db.inbounds, listenIsInternalOnly env ib.listen = true →
    ∀ m, fallbackMaster db ib = some m → Fronted core env db ib m

end condition

section config

variable {core : Core} {env : Env} {db : Db} {ib m : Inbound} {r : Rule} {f : Json}

theorem ruleDest_isSome : (ruleDest db r).isSome ↔ customDest r = true ∨ (childOf db r).isSome := by
  unfold ruleDest
  cases customDest r with
  | true => simp
  | false => simp

theorem emits_iff : emits db m ↔ inboundCanHostFallbacks m = true ∧ buildFallbacks db m.id ≠ [] := by
  refine and_congr_right fun _ => ?_
  constructor
  · rintro ⟨r, hr, hdest⟩ hnil
    have hnone := filterMap_eq_nil_iff.mp hnil r hr
    obtain ⟨dest, hsome⟩ := Option.isSome_iff_exists.mp (ruleDest_isSome.mpr hdest)
    rw [hsome] at hnone
    cases hnone
  · intro hne
    obtain ⟨entry, hentry⟩ := exists_mem_of_ne_nil _ hne
    obtain ⟨r, hr, hmap⟩ := mem_filterMap.mp hentry
    obtain ⟨dest, hdest, -⟩ := Option.map_eq_some_iff.mp hmap
    exact ⟨r, hr, ruleDest_isSome.mp (by rw [hdest]; rfl)⟩

theorem fallbackEntry_dest {dest : String} : entryDest (.obj (fallbackEntry r dest)) = some dest := by
  have hget : Fields.get (fallbackEntry r dest) "dest" = some (.str dest) := by
    simp only [fallbackEntry]
    rw [Fields.get_putIf_ne (by decide), Fields.get_putIf_ne (by decide), Fields.get_putIf_ne (by decide),
      Fields.get_putIf_ne (by decide)]
    rfl
  have hfields : objD (some (.obj (fallbackEntry r dest))) = fallbackEntry r dest := rfl
  rw [entryDest, hfields, hget]

theorem ruleLeads_iff :
    ruleLeads core db ib r ↔ ∃ dest, ruleDest db r = some dest ∧ leadsTo core dest ib = true := by
  unfold ruleLeads ruleDest
  cases customDest r with
  | true => simp
  | false => simp [leadsTo_childDest]

theorem built_leads_iff : (∃ f ∈ (buildFallbacks db m.id).map Json.obj, entryLeads core ib f = true) ↔
    ∃ r ∈ rulesOf db m.id, ruleLeads core db ib r := by
  simp only [buildFallbacks, mem_map, mem_filterMap, Option.map_eq_some_iff, ruleLeads_iff]
  constructor
  · rintro ⟨f, ⟨entry, ⟨r, hr, dest, hdest, rfl⟩, rfl⟩, hf⟩
    rw [entryLeads, fallbackEntry_dest] at hf
    exact ⟨r, hr, dest, hdest, hf⟩
  · rintro ⟨r, hr, dest, hdest, hleads⟩
    refine ⟨_, ⟨_, ⟨r, hr, dest, hdest, rfl⟩, rfl⟩, ?_⟩
    rw [entryLeads, fallbackEntry_dest]
    exact hleads

theorem configLeads_iff : (∃ f ∈ configFallbacks db m, entryLeads core ib f = true) ↔ Leads core db ib m := by
  rw [configFallbacks, Leads]
  by_cases h : emits db m
  · rw [if_pos (emits_iff.mp h), built_leads_iff]
    simp [h]
  · rw [if_neg fun hem => h (emits_iff.mpr hem)]
    simp [h]

end config

section project

variable {core : Core} {env : Env} {db : Db} {ib m : Inbound} {stream mst : Object}

theorem mergeSetting_field {key : String} :
    Fields.get (mergeSetting key mst stream) key = Fields.get mst key := by
  unfold mergeSetting
  split
  · next v hv => rw [Fields.get_put_self, hv]
  · next hnone => rw [Fields.get_del_self, hnone]

theorem mergeSetting_other {key other : String} (h : key ≠ other) :
    Fields.get (mergeSetting key mst stream) other = Fields.get stream other := by
  unfold mergeSetting
  split
  · exact Fields.get_put_ne h
  · exact Fields.get_del_ne h

theorem merged_external (stream : Object) {mst : Object} :
    Fields.get (mergeStreamFromMaster stream mst) "externalProxy" =
      (Fields.get mst "externalProxy").or (Fields.get stream "externalProxy") := by
  simp only [mergeStreamFromMaster]
  split
  · next v hv => rw [Fields.get_put_self, hv, Option.some_or]
  · next hnone =>
    rw [mergeSetting_other (by decide), mergeSetting_other (by decide), Fields.get_put_ne (by decide), hnone,
      Option.none_or]

theorem merged_other {key : String} (h : "externalProxy" ≠ key) :
    Fields.get (mergeStreamFromMaster stream mst) key =
      Fields.get (mergeSetting "realitySettings" mst (mergeSetting "tlsSettings" mst
        (Fields.put stream "security" (nullD (Fields.get mst "security"))))) key := by
  simp only [mergeStreamFromMaster]
  split
  · exact Fields.get_put_ne h
  · rfl

theorem merged_security :
    Fields.get (mergeStreamFromMaster stream mst) "security" = some (nullD (Fields.get mst "security")) := by
  rw [merged_other (by decide), mergeSetting_other (by decide), mergeSetting_other (by decide),
    Fields.get_put_self]

theorem merged_tls :
    Fields.get (mergeStreamFromMaster stream mst) "tlsSettings" = Fields.get mst "tlsSettings" := by
  rw [merged_other (by decide), mergeSetting_other (by decide), mergeSetting_field]

theorem merged_reality :
    Fields.get (mergeStreamFromMaster stream mst) "realitySettings" = Fields.get mst "realitySettings" := by
  rw [merged_other (by decide), mergeSetting_field]

theorem filter_nullD (v : Option Json) : (some (nullD v)).filter (· ≠ .null) = v.filter (· ≠ .null) := by
  cases v with
  | none => rfl
  | some v => rfl

theorem security_iff {link : Inbound} (h : link.streamSettings = mergeStream ib.streamSettings m.streamSettings) :
    (∀ key ∈ securityKeys, streamField link key = streamField m key) ↔ Yields ib m := by
  unfold Yields
  cases hm : m.streamSettings with
  | none =>
    rw [hm] at h
    simp only [streamField, h, mergeStream, hm, Option.bind_none, Option.filter_none]
  | some mst =>
    rw [hm] at h
    simp only [securityKeys, forall_mem_cons, not_mem_nil, false_implies, forall_const, and_true,
      streamField, h, mergeStream, hm, Option.bind_some, merged_security, merged_tls, merged_reality,
      merged_external, filter_nullD, true_and]
    cases Fields.get mst "externalProxy" with
    | some v => simp
    | none =>
      cases hchild : ib.streamSettings with
      | none => simp
      | some stream => simp

theorem project_some (h : listenIsInternalOnly env ib.listen = true) (hm : fallbackMaster db ib = some m) :
    projectThroughFallbackMaster env db ib = ({ ib with
      streamSettings := mergeStream ib.streamSettings m.streamSettings
      listen := m.listen
      port := m.port }, true) := by
  rw [projectThroughFallbackMaster, if_pos h, hm]

theorem project_moved : (projectThroughFallbackMaster env db ib).2 = true ↔
    listenIsInternalOnly env ib.listen = true ∧ ∃ m, fallbackMaster db ib = some m := by
  unfold projectThroughFallbackMaster
  split
  · next h =>
    cases fallbackMaster db ib with
    | none => simp
    | some m => simp [h]
  · next h => simp [h]

theorem project_unmoved (h : (projectThroughFallbackMaster env db ib).2 = false) :
    (projectThroughFallbackMaster env db ib).1 = ib := by
  unfold projectThroughFallbackMaster at h ⊢
  split at h
  · next hinternal =>
    rw [if_pos hinternal]
    split at h
    · cases h
    · rfl
  · next hinternal => rw [if_neg hinternal]

theorem fallbackMaster_mem (h : fallbackMaster db ib = some m) : m ∈ db.inbounds := by
  rw [fallbackMaster, Option.or_eq_some_iff] at h
  rcases h with h | ⟨-, h⟩
  · obtain ⟨rule, -, hfind⟩ := Option.bind_eq_some_iff.mp h
    exact mem_of_find?_eq_some hfind
  · split at h
    · exact mem_mergeSort.mp (mem_of_find?_eq_some h)
    · cases h

theorem projected_iff (h : listenIsInternalOnly env ib.listen = true) (hm : fallbackMaster db ib = some m) :
    Projected core env db ib m ↔ Fronted core env db ib m := by
  have hlink := project_some h hm
  constructor
  · rintro ⟨hserved, hleads, haddress, -, hsecurity⟩
    rw [hlink] at haddress hsecurity
    exact ⟨hserved, configLeads_iff.mp hleads, haddress, (security_iff rfl).mp hsecurity⟩
  · rintro ⟨hserved, hleads, haddress, hyields⟩
    refine ⟨hserved, configLeads_iff.mpr hleads, ?_, ?_, ?_⟩
    · rw [hlink]
      exact haddress
    · rw [hlink]
    · rw [hlink]
      exact (security_iff rfl).mpr hyields

end project

section settled

variable {core : Core} {env : Env} {db : Db}

theorem dialable_iff {child : Inbound} :
    (inConfig child = true ∧ leadsTo core (childDest child) child = true) ↔ Dialable core child := by
  rw [leadsTo_childDest]
  constructor
  · rintro ⟨hserved, ⟨hsocket, hlisten⟩ | ⟨htcp, hform, -, hbound⟩⟩
    · exact absurd hlisten.symm (childDest_ne_socket hsocket)
    · exact ⟨hserved, htcp, hform, hbound⟩
  · rintro ⟨hserved, htcp, hform, hbound⟩
    exact ⟨hserved, .inr ⟨htcp, hform, rfl, hbound⟩⟩

theorem reachable_of_sound (h : Sound core env db) : Reachable core env db := by
  constructor
  · intro m hm hserved hhost r hr hcustom child hchild
    exact dialable_iff.mpr (h.entries m hm hserved hhost r hr hcustom child hchild)
  · intro ib hib
    refine ⟨fun hmoved => ?_, project_unmoved⟩
    obtain ⟨hinternal, m, hm⟩ := project_moved.mp hmoved
    exact ⟨m, fallbackMaster_mem hm, hm, (projected_iff hinternal hm).mpr (h.links ib hib hinternal m hm)⟩

theorem sound_of_reachable (h : Reachable core env db) : Sound core env db := by
  constructor
  · intro m hm hserved hhost r hr hcustom child hchild
    exact dialable_iff.mp (h.entries m hm hserved hhost r hr hcustom child hchild)
  · intro ib hib hinternal m hm
    obtain ⟨m', -, hm', hprojected⟩ := (h.links ib hib).1 (project_moved.mpr ⟨hinternal, m, hm⟩)
    rw [hm] at hm'
    cases hm'
    exact (projected_iff hinternal hm).mp hprojected

theorem children_reachable_iff (core : Core) (env : Env) (inbounds : List Inbound)
    (calls : List (Int × List FallbackInput)) :
    Reachable core env ⟨inbounds, written calls⟩ ↔ Sound core env ⟨inbounds, written calls⟩ :=
  ⟨sound_of_reachable, reachable_of_sound⟩

end settled

section socket

def hostCore : Core where
  takes host listen := listen == "0.0.0.0" || host == listen

def tlsMaster : Inbound where
  id := 1
  enable := true
  nodeId := none
  protocol := .vless
  listen := ""
  port := 443
  settings := []
  streamSettings := some [("network", .str "tcp"), ("security", .str "tls")]
  shareAddrStrategy := "node"
  shareAddr := ""

def socketChild : Inbound :=
  { tlsMaster with
    id := 2
    listen := "@vless-ws"
    port := 8443
    streamSettings := some [("network", .str "ws"), ("security", .str "none")] }

def socketItem : FallbackInput where
  childId := 2
  name := ""
  alpn := ""
  path := "/ws"
  dest := ""
  xver := 0
  sortOrder := 0

def socketRule : Rule where
  id := 1
  masterId := 1
  childId := 2
  name := ""
  alpn := ""
  path := "/ws"
  dest := ""
  xver := 0
  sortOrder := 0

theorem written_socket : written [(1, [socketItem])] = [socketRule] := by decide +kernel

theorem socket_child_unreachable :
    ¬ ∃ env, Reachable hostCore env ⟨[tlsMaster, socketChild], written [(1, [socketItem])]⟩ := by
  rintro ⟨env, hentries, -⟩
  rw [written_socket] at hentries
  have hrule : socketRule ∈ rulesOf ⟨[tlsMaster, socketChild], [socketRule]⟩ 1 := by
    rw [rulesOf, mem_mergeSort]
    simp [socketRule]
  have hleads := (hentries tlsMaster (by simp) (by decide) (by decide) socketRule hrule (by decide)
    socketChild rfl).2
  revert hleads
  decide +kernel

end socket

end Fallbacks

end QuiPanel
