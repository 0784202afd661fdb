import QuiPanel.Allowance

namespace QuiPanel

namespace ClientList

open List

open BulkAdjust (wrap64)
open Allowance (InInt64 inInt64_wrap64)

structure Traffic where
  up : Int
  down : Int
  lastOnline : Int
  deriving DecidableEq, Repr

structure Client where
  id : Int
  email : String
  subID : String
  uuid : String
  password : String
  auth : String
  enable : Bool
  totalGB : Int
  expiryTime : Int
  limitIP : Int
  reset : Int
  tgID : Int
  group : String
  comment : String
  inboundIds : List Int
  traffic : Option Traffic
  ownerId : Int
  tenantId : Int
  createdAt : Int
  updatedAt : Int
  deriving DecidableEq, Repr

structure ClientSlim where
  email : String
  subID : String
  enable : Bool
  totalGB : Int
  expiryTime : Int
  limitIP : Int
  reset : Int
  group : String
  comment : String
  inboundIds : List Int
  traffic : Option Traffic
  ownerId : Int
  createdAt : Int
  updatedAt : Int
  deriving DecidableEq, Repr

structure Params where
  page : Int := 0
  pageSize : Int := 0
  search : String := ""
  filter : String := ""
  protocol : String := ""
  inbound : String := ""
  sort : String := ""
  order : String := ""
  expiryFrom : Int := 0
  expiryTo : Int := 0
  usageFrom : Int := 0
  usageTo : Int := 0
  autoRenew : String := ""
  hasTgID : String := ""
  hasComment : String := ""
  group : String := ""
  deriving DecidableEq, Repr

structure Summary where
  total : Nat := 0
  active : Nat := 0
  online : List String := []
  depleted : List String := []
  expiring : List String := []
  deactive : List String := []
  deriving DecidableEq, Repr

structure Response where
  items : List ClientSlim
  total : Nat
  filtered : Nat
  page : Int
  pageSize : Int
  summary : Summary
  groups : List String
  deriving DecidableEq, Repr

inductive Failure
  | list
  | sliceBounds
  | groups
  deriving DecidableEq, Repr

structure Letters where
  lower : Char → Char
  fold : Char → Char

def Letters.lowerRune (l : Letters) (c : Char) : Char := if c.toNat < 128 then c.toLower else l.lower c

def Letters.toLower (l : Letters) (s : String) : String := String.ofList (s.toList.map l.lowerRune)

def Letters.equalFold (l : Letters) (s t : String) : Bool := s.toList.map l.fold == t.toList.map l.fold

def contains (s needle : String) : Bool := decide (needle.toList <:+: s.toList)

def atoi (s : String) : Option Int :=
  let digits := fun (ds : List Char) =>
    if ds ≠ [] && ds.all Char.isDigit then some (ds.foldl (fun n c => 10 * n + ((c.toNat : Int) - 48)) 0) else none
  let value := match s.toList with
    | '-' :: ds => (digits ds).map (- ·)
    | '+' :: ds => digits ds
    | ds => digits ds
  value.filter fun n => InInt64 n

def split (raw : String) : List String := (raw.toList.splitOn ',').map String.ofList

structure Clock where
  onlineSet : List String
  nowMs : Int
  expireDiffMs : Int
  trafficDiffBytes : Int

def used (c : Client) : Int := match c.traffic with
  | some t => wrap64 (t.up + t.down)
  | none => 0

def exhausted (c : Client) : Bool := 0 < c.totalGB && c.totalGB ≤ used c

def expired (k : Clock) (c : Client) : Bool := 0 < c.expiryTime && c.expiryTime ≤ k.nowMs

def nearExpiry (k : Clock) (c : Client) : Bool :=
  0 < c.expiryTime && wrap64 (c.expiryTime - k.nowMs) < k.expireDiffMs

def nearLimit (k : Clock) (c : Client) : Bool :=
  0 < c.totalGB && wrap64 (c.totalGB - used c) < k.trafficDiffBytes

def summaryStep (k : Clock) (s : Summary) (c : Client) : Summary :=
  let s := if c.enable && k.onlineSet.contains c.email then { s with online := s.online ++ [c.email] } else s
  if exhausted c || expired k c then { s with depleted := s.depleted ++ [c.email] }
  else if !c.enable then { s with deactive := s.deactive ++ [c.email] }
  else if nearExpiry k c || nearLimit k c then { s with expiring := s.expiring ++ [c.email] }
  else { s with active := s.active + 1 }

def buildClientsSummary (k : Clock) (all : List Client) : Summary :=
  all.foldl (summaryStep k) { total := all.length }

def toClientSlim (c : Client) : ClientSlim :=
  { email := c.email, subID := c.subID, enable := c.enable, totalGB := c.totalGB, expiryTime := c.expiryTime,
    limitIP := c.limitIP, reset := c.reset, group := c.group, comment := c.comment, inboundIds := c.inboundIds,
    traffic := c.traffic, ownerId := c.ownerId, createdAt := c.createdAt, updatedAt := c.updatedAt }

def clientMatchesSearch (l : Letters) (c : Client) (needle : String) : Bool :=
  needle == "" || [c.email, c.subID, c.comment, c.uuid, c.password, c.auth].any fun v =>
    v != "" && contains (l.toLower v) needle

def parseCSVStrings (l : Letters) (raw : String) : List String :=
  if raw = "" then []
  else ((split raw).map fun p => l.toLower (Text.trimSpace p)).filter (· != "")

def parseCSVInts (raw : String) : List Int :=
  if raw = "" then []
  else (((split raw).map Text.trimSpace).filter (· != "")).filterMap fun s => (atoi s).filter (0 < ·)

def clientMatchesAnyProtocol (l : Letters) (c : Client) (protocols : List String) (byInbound : List (Int × String)) :
    Bool :=
  c.inboundIds.any fun id => match (byInbound.reverse.find? (·.1 == id)).map (·.2) with
    | none => false
    | some p => p != "" && protocols.contains (l.toLower p)

def clientMatchesAnyInbound (c : Client) (inboundIds : List Int) : Bool := c.inboundIds.any inboundIds.contains

def clientMatchesExpiryRange (c : Client) (fromMs toMs : Int) : Bool :=
  if fromMs ≤ 0 ∧ toMs ≤ 0 then true
  else if c.expiryTime = 0 then false
  else if c.expiryTime < 0 then false
  else if 0 < fromMs ∧ c.expiryTime < fromMs then false
  else if 0 < toMs ∧ toMs < c.expiryTime then false
  else true

def clientMatchesUsageRange (c : Client) (fromBytes toBytes : Int) : Bool :=
  if fromBytes ≤ 0 ∧ toBytes ≤ 0 then true
  else if 0 < fromBytes ∧ used c < fromBytes then false
  else if 0 < toBytes ∧ toBytes < used c then false
  else true

def clientMatchesMode (l : Letters) (yes no : String) (p : Bool) (mode : String) : Bool :=
  let m := l.toLower (Text.trimSpace mode)
  if m = yes then p else if m = no then !p else true

def clientMatchesAutoRenew (l : Letters) (c : Client) : String → Bool := clientMatchesMode l "on" "off" (0 < c.reset)

def clientMatchesHasTgID (l : Letters) (c : Client) : String → Bool := clientMatchesMode l "yes" "no" (c.tgID != 0)

def clientMatchesHasComment (l : Letters) (c : Client) : String → Bool :=
  clientMatchesMode l "yes" "no" (Text.trimSpace c.comment != "")

def clientMatchesAnyGroup (l : Letters) (c : Client) (csv : String) : Bool :=
  let groups := parseCSVStrings l csv
  groups.isEmpty || groups.any fun g =>
    if g = "" then Text.trimSpace c.group == "" else l.equalFold g (Text.trimSpace c.group)

def clientMatchesBucket (k : Clock) (c : Client) (bucket : String) : Bool :=
  if bucket = "" then true
  else if bucket = "online" then k.onlineSet.contains c.email && c.enable
  else if bucket = "depleted" then exhausted c || expired k c
  else if bucket = "deactive" then !c.enable
  else if bucket = "active" then c.enable && !exhausted c && !expired k c
  else if bucket = "expiring" then
    if !c.enable || exhausted c || expired k c then false else nearExpiry k c || nearLimit k c
  else true

def clientMatchesAnyBucket (k : Clock) (c : Client) (buckets : List String) : Bool :=
  buckets.any (clientMatchesBucket k c)

def unbounded : Int := 2 ^ 62 - 1

def remaining (c : Client) : Int := if 0 < c.totalGB then wrap64 (c.totalGB - used c) else unbounded

def expiry (c : Client) : Int := if 0 < c.expiryTime then c.expiryTime else unbounded

def lastOnline (c : Client) : Int := match c.traffic with
  | some t => t.lastOnline
  | none => 0

def earlier (stamp : Client → Int) (a b : Client) : Bool :=
  if stamp a = stamp b then a.id < b.id else stamp a < stamp b

def less (l : Letters) (sortKey : String) (a b : Client) : Bool :=
  match sortKey with
  | "enable" => if a.enable = b.enable then false else !a.enable && b.enable
  | "email" => l.toLower a.email < l.toLower b.email
  | "inboundIds" => a.inboundIds.length < b.inboundIds.length
  | "traffic" => used a < used b
  | "remaining" => remaining a < remaining b
  | "expiryTime" => expiry a < expiry b
  | "createdAt" => earlier (·.createdAt) a b
  | "updatedAt" => earlier (·.updatedAt) a b
  | "lastOnline" => earlier lastOnline a b
  | _ => false

def rowLess (l : Letters) (sortKey order : String) (a b : Client) : Bool :=
  if order = "descend" then less l sortKey b a else less l sortKey a b

def sortClients (l : Letters) (rows : List Client) (sortKey order : String) : List Client :=
  if sortKey = "" then rows else rows.mergeSort fun a b => !rowLess l sortKey order b a

def slice {α : Type} (rows : List α) (start stop : Int) : Option (List α) :=
  if 0 ≤ start ∧ start ≤ stop ∧ stop ≤ rows.length then some ((rows.take stop.toNat).drop start.toNat) else none

def clampPageSize (n : Int) : Int :=
  let n := if n ≤ 0 then 10 else n
  if 200 < n then 200 else n

def clampPage (n : Int) : Int := if n ≤ 0 then 1 else n

def pageRows {α : Type} (rows : List α) (page pageSize : Int) : Option (List α) :=
  let start := wrap64 (wrap64 (page - 1) * pageSize)
  let stop := wrap64 (start + pageSize)
  slice rows (min start rows.length) (min stop rows.length)

structure Scope where
  global : Bool
  tenantId : Int
  deriving DecidableEq, Repr

structure World where
  rows : Option (List Client)
  inbounds : Option (List (Int × String))
  onlines : List String
  settings : Option (Option Int × Option Int)
  nowMs : Int
  groups : Option (List String)

def World.clock (w : World) : Clock :=
  { onlineSet := w.onlines, nowMs := w.nowMs
    expireDiffMs := match w.settings with
      | some (some v, _) => wrap64 (v * 86400000)
      | _ => 0
    trafficDiffBytes := match w.settings with
      | some (_, some v) => wrap64 (v * 1073741824)
      | _ => 0 }

def visible (scope : Scope) (ownerFilter : Option Int) (all : List Client) : List Client :=
  let all := if scope.global then all else all.filter fun c => c.tenantId == scope.tenantId
  match ownerFilter with
  | none => all
  | some owner => all.filter fun c => c.ownerId == owner

def admitted (l : Letters) (w : World) (params : Params) (c : Client) : Bool :=
  let needle := l.toLower (Text.trimSpace params.search)
  let protocols := parseCSVStrings l params.protocol
  let inboundIDs := parseCSVInts params.inbound
  let buckets := parseCSVStrings l params.filter
  (needle == "" || clientMatchesSearch l c needle) &&
    (protocols.isEmpty || clientMatchesAnyProtocol l c protocols (w.inbounds.getD [])) &&
    (inboundIDs.isEmpty || clientMatchesAnyInbound c inboundIDs) &&
    (buckets.isEmpty || clientMatchesAnyBucket w.clock c buckets) &&
    clientMatchesExpiryRange c params.expiryFrom params.expiryTo &&
    clientMatchesUsageRange c params.usageFrom params.usageTo &&
    clientMatchesAutoRenew l c params.autoRenew &&
    clientMatchesHasTgID l c params.hasTgID &&
    clientMatchesHasComment l c params.hasComment &&
    clientMatchesAnyGroup l c params.group

def filteredRows (l : Letters) (w : World) (params : Params) (all : List Client) : List Client :=
  sortClients l (all.filter (admitted l w params)) params.sort params.order

def listPaged (l : Letters) (w : World) (params : Params) (ownerFilter : Option Int) (scope : Scope) :
    Except Failure Response :=
  match w.rows with
  | none => .error .list
  | some rows =>
    let all := visible scope ownerFilter rows
    let filtered := filteredRows l w params all
    match pageRows filtered (clampPage params.page) (clampPageSize params.pageSize) with
    | none => .error .sliceBounds
    | some page =>
      match w.groups with
      | none => .error .groups
      | some groups =>
        .ok { items := page.map toClientSlim, total := all.length, filtered := filtered.length
              page := clampPage params.page, pageSize := clampPageSize params.pageSize
              summary := buildClientsSummary w.clock all, groups := groups }

inductive Bucket
  | online
  | depleted
  | deactive
  | expiring
  | active
  deriving DecidableEq, Repr

def Bucket.name : Bucket → String
  | .online => "online"
  | .depleted => "depleted"
  | .deactive => "deactive"
  | .expiring => "expiring"
  | .active => "active"

def Summary.count (s : Summary) : Bucket → Nat
  | .online => s.online.length
  | .depleted => s.depleted.length
  | .deactive => s.deactive.length
  | .expiring => s.expiring.length
  | .active => s.active

def counted (k : Clock) (b : Bucket) (c : Client) : Bool := (buildClientsSummary k [c]).count b == 1

structure Tallied (k : Clock) (all : List Client) (s : Summary) : Prop where
  total : s.total = all.length
  online : s.online = (all.filter (counted k .online)).map (·.email)
  depleted : s.depleted = (all.filter (counted k .depleted)).map (·.email)
  deactive : s.deactive = (all.filter (counted k .deactive)).map (·.email)
  expiring : s.expiring = (all.filter (counted k .expiring)).map (·.email)
  active : s.active = (all.filter (counted k .active)).length

def only (b : Bucket) (params : Params) : Params :=
  { page := params.page, pageSize := params.pageSize, filter := b.name, sort := params.sort, order := params.order }

def responses (l : Letters) (w : World) (params : Params) (ownerFilter : Option Int) (scope : Scope) :
    Nat → Except Failure (List Response)
  | 0 => .ok []
  | k + 1 => do
    let rs ← responses l w params ownerFilter scope k
    let r ← listPaged l w { params with page := k + 1 } ownerFilter scope
    return rs ++ [r]

section summary

variable {k : Clock} {all : List Client} {s : Summary} {c : Client} {b : Bucket}

def classOf (k : Clock) (c : Client) : Bucket :=
  if exhausted c || expired k c then .depleted
  else if !c.enable then .deactive
  else if nearExpiry k c || nearLimit k c then .expiring
  else .active

def isOnline (k : Clock) (c : Client) : Bool := c.enable && k.onlineSet.contains c.email

theorem summaryStep_class (k : Clock) (s : Summary) (c : Client) : summaryStep k s c =
    let s := if isOnline k c then { s with online := s.online ++ [c.email] } else s
    match classOf k c with
    | .depleted => { s with depleted := s.depleted ++ [c.email] }
    | .deactive => { s with deactive := s.deactive ++ [c.email] }
    | .expiring => { s with expiring := s.expiring ++ [c.email] }
    | .active => { s with active := s.active + 1 }
    | .online => s := by
  rw [summaryStep, classOf, isOnline]
  split_ifs <;> rfl

theorem classOf_ne_online (k : Clock) (c : Client) : classOf k c ≠ .online := by
  rw [classOf]
  split_ifs <;> decide

theorem foldl_summary (k : Clock) (all : List Client) (s : Summary) : all.foldl (summaryStep k) s =
    { total := s.total
      active := s.active + (all.filter fun c => classOf k c == .active).length
      online := s.online ++ (all.filter (isOnline k)).map (·.email)
      depleted := s.depleted ++ (all.filter fun c => classOf k c == .depleted).map (·.email)
      expiring := s.expiring ++ (all.filter fun c => classOf k c == .expiring).map (·.email)
      deactive := s.deactive ++ (all.filter fun c => classOf k c == .deactive).map (·.email) } := by
  induction all generalizing s with
  | nil => simp
  | cons c all ih =>
    rw [foldl_cons, ih, summaryStep_class]
    cases honline : isOnline k c <;> cases hclass : classOf k c with
    | online => exact absurd hclass (classOf_ne_online k c)
    | active =>
      simp [honline, hclass]
      omega
    | _ => simp [honline, hclass]

theorem counted_online (k : Clock) (c : Client) : counted k .online c = isOnline k c := by
  rw [counted, buildClientsSummary, foldl_summary]
  cases h : isOnline k c <;> simp [Summary.count, h]

theorem counted_class (hb : b ≠ .online) : counted k b c = (classOf k c == b) := by
  rw [counted, buildClientsSummary, foldl_summary]
  cases b with
  | online => exact absurd rfl hb
  | depleted => cases h : classOf k c == .depleted <;> simp [Summary.count, h]
  | deactive => cases h : classOf k c == .deactive <;> simp [Summary.count, h]
  | expiring => cases h : classOf k c == .expiring <;> simp [Summary.count, h]
  | active => cases h : classOf k c == .active <;> simp [Summary.count, h]

theorem one_class (k : Clock) (c : Client) : ∃! b, b ≠ .online ∧ counted k b c = true := by
  refine ⟨classOf k c, ⟨classOf_ne_online k c, ?_⟩, ?_⟩
  · rw [counted_class (classOf_ne_online k c), beq_self_eq_true]
  · rintro b ⟨hb, hcounted⟩
    rw [counted_class hb, beq_iff_eq] at hcounted
    exact hcounted.symm

theorem tallied (k : Clock) (all : List Client) : Tallied k all (buildClientsSummary k all) := by
  have honline := funext (counted_online k)
  have hclass : ∀ b, b ≠ .online → counted k b = fun c => classOf k c == b := fun b hb =>
    funext fun c => counted_class hb
  rw [buildClientsSummary, foldl_summary]
  constructor
  · rfl
  · rw [honline]
    rfl
  · rw [hclass _ (by decide)]
    rfl
  · rw [hclass _ (by decide)]
    rfl
  · rw [hclass _ (by decide)]
    rfl
  · rw [hclass _ (by decide)]
    exact Nat.zero_add _

end summary

section buckets

variable {k : Clock} {all : List Client} {c : Client} {b : Bucket} {l : Letters} {w : World} {params : Params}

structure Plain (k : Clock) (all : List Client) : Prop where
  disabled : ∀ c ∈ all, c.enable = false → exhausted c = false ∧ expired k c = false
  near : ∀ c ∈ all, c.enable = true → exhausted c = false → expired k c = false →
    nearExpiry k c = false ∧ nearLimit k c = false

theorem matches_name (k : Clock) (c : Client) (b : Bucket) : clientMatchesBucket k c b.name = match b with
    | .online => isOnline k c
    | .depleted => exhausted c || expired k c
    | .deactive => !c.enable
    | .expiring => c.enable && !exhausted c && !expired k c && (nearExpiry k c || nearLimit k c)
    | .active => c.enable && !exhausted c && !expired k c := by
  cases b with
  | online => exact Bool.and_comm _ _
  | depleted => rfl
  | deactive => rfl
  | active => rfl
  | expiring =>
    have hbody : clientMatchesBucket k c Bucket.expiring.name =
        if !c.enable || exhausted c || expired k c then false else nearExpiry k c || nearLimit k c := rfl
    rw [hbody]
    cases c.enable <;> cases exhausted c <;> cases expired k c <;> rfl

theorem matches_iff (k : Clock) (c : Client) : (∀ b : Bucket, clientMatchesBucket k c b.name = counted k b c) ↔
    (c.enable = false → exhausted c = false ∧ expired k c = false) ∧
      (c.enable = true → exhausted c = false → expired k c = false → nearExpiry k c = false ∧ nearLimit k c = false) := by
  have hclass : ∀ b, b ≠ .online → counted k b c = (classOf k c == b) := fun b hb => counted_class hb
  constructor
  · intro h
    have hdeactive := h .deactive
    have hactive := h .active
    rw [matches_name, hclass _ (by decide), classOf] at hdeactive hactive
    dsimp only at hdeactive hactive
    revert hdeactive hactive
    cases c.enable <;> cases exhausted c <;> cases expired k c <;> cases nearExpiry k c <;> cases nearLimit k c <;>
      decide
  · rintro ⟨hdisabled, hnear⟩ b
    rw [matches_name]
    cases b with
    | online => exact (counted_online k c).symm
    | _ =>
      rw [hclass _ (by decide), classOf]
      dsimp only
      revert hdisabled hnear
      cases c.enable <;> cases exhausted c <;> cases expired k c <;> cases nearExpiry k c <;> cases nearLimit k c <;>
        decide

theorem parseCSVStrings_name (l : Letters) (b : Bucket) : parseCSVStrings l b.name = [b.name] := by
  cases b <;> rfl

theorem toLower_empty (l : Letters) : l.toLower (Text.trimSpace "") = "" := rfl

theorem clientMatchesMode_empty (l : Letters) (yes no : String) (p : Bool) (hyes : yes ≠ "") (hno : no ≠ "") :
    clientMatchesMode l yes no p "" = true := by
  unfold clientMatchesMode
  dsimp only
  rw [if_neg (by rw [toLower_empty]; exact hyes.symm), if_neg (by rw [toLower_empty]; exact hno.symm)]

theorem clientMatchesAnyGroup_empty (l : Letters) (c : Client) : clientMatchesAnyGroup l c "" = true := rfl

theorem admitted_only (l : Letters) (w : World) (params : Params) (b : Bucket) (c : Client) :
    admitted l w (only b params) c = clientMatchesBucket w.clock c b.name := by
  have hsearch : (only b params).search = "" := rfl
  have hprotocols : parseCSVStrings l (only b params).protocol = [] := rfl
  have hinbounds : parseCSVInts (only b params).inbound = [] := rfl
  have hbuckets : parseCSVStrings l (only b params).filter = [b.name] := parseCSVStrings_name l b
  have hexpiry : clientMatchesExpiryRange c (only b params).expiryFrom (only b params).expiryTo = true := rfl
  have husage : clientMatchesUsageRange c (only b params).usageFrom (only b params).usageTo = true := rfl
  have hrenew : clientMatchesAutoRenew l c (only b params).autoRenew = true :=
    clientMatchesMode_empty l _ _ _ (by decide) (by decide)
  have htg : clientMatchesHasTgID l c (only b params).hasTgID = true :=
    clientMatchesMode_empty l _ _ _ (by decide) (by decide)
  have hcomment : clientMatchesHasComment l c (only b params).hasComment = true :=
    clientMatchesMode_empty l _ _ _ (by decide) (by decide)
  have hgroup : clientMatchesAnyGroup l c (only b params).group = true := clientMatchesAnyGroup_empty l c
  simp only [admitted, hsearch, toLower_empty, hprotocols, hinbounds, hbuckets, hexpiry, husage, hrenew, htg, hcomment,
    hgroup, clientMatchesAnyBucket, any_cons, any_nil, isEmpty_nil, isEmpty_cons, beq_self_eq_true,
    Bool.true_or, Bool.false_or, Bool.true_and, Bool.and_true, Bool.or_false]

theorem filter_eq_iff {α : Type} {p q : α → Bool} {xs : List α} :
    xs.filter p = xs.filter q ↔ ∀ x ∈ xs, p x = q x := by
  constructor
  · intro h x hx
    rw [Bool.eq_iff_iff]
    constructor
    · intro hp
      exact (mem_filter.mp (h ▸ mem_filter.mpr ⟨hx, hp⟩)).2
    · intro hq
      exact (mem_filter.mp (h.symm ▸ mem_filter.mpr ⟨hx, hq⟩)).2
  · exact filter_congr

theorem matched_iff (l : Letters) (w : World) (params : Params) (all : List Client) :
    (∀ b : Bucket, all.filter (admitted l w (only b params)) = all.filter (counted w.clock b)) ↔ Plain w.clock all := by
  have hplain : (∀ b : Bucket, all.filter (admitted l w (only b params)) = all.filter (counted w.clock b)) ↔
      ∀ c ∈ all, ∀ b : Bucket, clientMatchesBucket w.clock c b.name = counted w.clock b c := by
    simp only [filter_eq_iff, admitted_only]
    exact ⟨fun h c hc b => h b c hc, fun h b c hc => h c hc b⟩
  rw [hplain]
  constructor
  · intro h
    exact ⟨fun c hc => ((matches_iff w.clock c).mp (h c hc)).1, fun c hc => ((matches_iff w.clock c).mp (h c hc)).2⟩
  · intro h c hc
    exact (matches_iff w.clock c).mpr ⟨h.disabled c hc, h.near c hc⟩

end buckets

section ordering

variable {l : Letters} {sortKey order : String} {a b c : Client} {rows : List Client}

def Weak (lt : Client → Client → Bool) : Prop :=
  (∀ a b, lt a b = true → lt b a = false) ∧ ∀ a b c, lt a b = false → lt b c = false → lt a c = false

theorem weak_of_key {β : Type} [LinearOrder β] (key : Client → β) : Weak fun a b => decide (key a < key b) := by
  constructor
  · intro a b h
    rw [decide_eq_true_eq] at h
    exact decide_eq_false h.le.not_gt
  · intro a b c hab hbc
    rw [decide_eq_false_iff_not, not_lt] at hab hbc ⊢
    exact hbc.trans hab

theorem weak_earlier (stamp : Client → Int) : Weak (earlier stamp) := by
  have hkey : earlier stamp = fun a b => decide (toLex (stamp a, a.id) < toLex (stamp b, b.id)) := by
    funext a b
    rw [earlier, Bool.eq_iff_iff]
    split_ifs with h
    · simp [Prod.Lex.toLex_lt_toLex, h]
    · simp [Prod.Lex.toLex_lt_toLex, h]
  rw [hkey]
  exact weak_of_key fun a => toLex (stamp a, a.id)

theorem weak_less (l : Letters) (sortKey : String) : Weak (less l sortKey) := by
  have henable : Weak fun a b : Client => if a.enable = b.enable then false else !a.enable && b.enable := by
    have hkey : (fun a b : Client => if a.enable = b.enable then false else !a.enable && b.enable) =
        fun a b => decide (a.enable < b.enable) := by
      funext a b
      cases a.enable <;> cases b.enable <;> rfl
    rw [hkey]
    exact weak_of_key (·.enable)
  have hnone : Weak fun _ _ => false := ⟨fun _ _ _ => rfl, fun _ _ _ _ _ => rfl⟩
  unfold less
  split
  · exact henable
  · exact weak_of_key fun a => l.toLower a.email
  · exact weak_of_key fun a => a.inboundIds.length
  · exact weak_of_key used
  · exact weak_of_key remaining
  · exact weak_of_key expiry
  · exact weak_earlier (·.createdAt)
  · exact weak_earlier (·.updatedAt)
  · exact weak_earlier lastOnline
  · exact hnone

theorem weak_rowLess (l : Letters) (sortKey order : String) : Weak (rowLess l sortKey order) := by
  obtain ⟨hasymm, htrans⟩ := weak_less l sortKey
  unfold rowLess
  split_ifs
  · exact ⟨fun a b => hasymm b a, fun a b c hab hbc => htrans c b a hbc hab⟩
  · exact ⟨hasymm, htrans⟩

theorem sortClients_perm (l : Letters) (rows : List Client) (sortKey order : String) :
    (sortClients l rows sortKey order).Perm rows := by
  rw [sortClients]
  split_ifs
  · exact .refl _
  · exact mergeSort_perm _ _

def Sorted (l : Letters) (sortKey order : String) (rows sorted : List Client) : Prop :=
  sorted.Pairwise (fun a b => rowLess l sortKey order b a = false) ∧
    ∀ a b, rowLess l sortKey order b a = false → [a, b].Sublist rows → [a, b].Sublist sorted

theorem sortClients_sorted (l : Letters) (rows : List Client) (order : String) (h : sortKey ≠ "") :
    Sorted l sortKey order rows (sortClients l rows sortKey order) := by
  obtain ⟨hasymm, htrans⟩ := weak_rowLess l sortKey order
  have hle : ∀ a b c, (!rowLess l sortKey order b a) = true → (!rowLess l sortKey order c b) = true →
      (!rowLess l sortKey order c a) = true := by
    intro a b c hab hbc
    rw [Bool.not_eq_true'] at hab hbc ⊢
    exact htrans c b a hbc hab
  have htotal : ∀ a b, (!rowLess l sortKey order b a || !rowLess l sortKey order a b) = true := by
    intro a b
    cases hba : rowLess l sortKey order b a with
    | false => rfl
    | true => rw [hasymm b a hba]; rfl
  rw [sortClients, if_neg h]
  constructor
  · exact (pairwise_mergeSort hle htotal rows).imp fun hab => by rwa [Bool.not_eq_true'] at hab
  · intro a b hba hsub
    exact sublist_mergeSort hle htotal (pairwise_pair.mpr (by rw [hba]; rfl)) hsub

end ordering

def offset (page size : Int) : Int := wrap64 ((page - 1) * size)

structure Fits (page size : Int) (count : Nat) : Prop where
  start : 0 ≤ offset page size
  stop : offset page size + size < 2 ^ 63
  here : offset page size = (page - 1) * size ∨ count ≤ offset page size

def window {α : Type} (rows : List α) (page size : Int) : List α :=
  (rows.drop ((page - 1) * size).toNat).take size.toNat

section paging

variable {α : Type} {rows p : List α} {page size : Int}

theorem wrap64_of_lt {n : Int} (hlo : 0 ≤ n) (hhi : n < 2 ^ 63) : wrap64 n = n := by
  rw [Allowance.wrap64_eq (by omega) (by omega), if_neg (by omega), if_pos hhi]

theorem offset_cases (hpage : 1 ≤ page) (hsize : 1 ≤ size) :
    offset page size = (page - 1) * size ∨ 2 ^ 63 ≤ (page - 1) * size := by
  have hnonneg : 0 ≤ (page - 1) * size := Int.mul_nonneg (by omega) (by omega)
  by_cases hlt : (page - 1) * size < 2 ^ 63
  · exact .inl (wrap64_of_lt hnonneg hlt)
  · exact .inr (by omega)

theorem pageRows_eq (hpage : 1 ≤ page) (hmax : page < 2 ^ 63) (rows : List α) (size : Int) : pageRows rows page size =
    slice rows (min (offset page size) rows.length) (min (wrap64 (offset page size + size)) rows.length) := by
  have hprev : wrap64 (page - 1) = page - 1 := wrap64_of_lt (by omega) (by omega)
  rw [pageRows, hprev]
  rfl

theorem slice_window (rows : List α) (m n : Nat) :
    (rows.take (min (m + n) rows.length)).drop (min m rows.length) = (rows.drop m).take n := by
  have hdrop : rows.drop (min m rows.length) = rows.drop m := by
    rcases Nat.le_total m rows.length with hle | hle
    · rw [Nat.min_eq_left hle]
    · rw [Nat.min_eq_right hle, drop_length, drop_eq_nil_of_le hle]
  rw [drop_take, hdrop, take_eq_take_iff, length_drop]
  omega

theorem pageRows_fits (hpage : 1 ≤ page) (hmax : page < 2 ^ 63) (hsize : 1 ≤ size) (hlen : rows.length < 2 ^ 63)
    (h : Fits page size rows.length) : pageRows rows page size = some (window rows page size) := by
  have hstart := h.start
  have hstop := h.stop
  have hwrap : wrap64 (offset page size + size) = offset page size + size := wrap64_of_lt (by omega) hstop
  rw [pageRows_eq hpage hmax, hwrap, slice, if_pos ⟨by omega, by omega, by omega⟩, window]
  rcases offset_cases hpage hsize with hoff | hfar
  · rw [← hoff, ← slice_window]
    have hm : (min (offset page size) rows.length).toNat = min (offset page size).toNat rows.length := by omega
    have hn : (min (offset page size + size) rows.length).toNat =
        min ((offset page size).toNat + size.toNat) rows.length := by omega
    rw [hm, hn]
  · have hcount : (rows.length : Int) ≤ offset page size := by
      rcases h.here with hhere | hcount
      · omega
      · exact hcount
    rw [drop_eq_nil_of_le (by rw [length_take]; omega), drop_eq_nil_of_le (by omega), take_nil]

theorem fits_of_pageRows (hpage : 1 ≤ page) (hmax : page < 2 ^ 63) (hsize : 1 ≤ size) (hsmall : size ≤ 200)
    (hlen : rows.length < 2 ^ 63) (h : pageRows rows page size = some p)
    (hsame : p.length = (window rows page size).length) : Fits page size rows.length := by
  obtain ⟨hlo, hhi⟩ := inInt64_wrap64 ((page - 1) * size)
  change -2 ^ 63 ≤ offset page size at hlo
  change offset page size < 2 ^ 63 at hhi
  have hstop := Allowance.wrap64_eq (n := offset page size + size) (by omega) (by omega)
  rw [pageRows_eq hpage hmax, slice] at h
  split_ifs at h with hbounds
  obtain ⟨hnonneg, hordered, -⟩ := hbounds
  have hfit : offset page size + size < 2 ^ 63 := by
    by_contra hover
    rw [if_neg (by omega), if_neg hover] at hstop
    omega
  rw [if_neg (by omega), if_pos hfit] at hstop
  refine ⟨by omega, hfit, ?_⟩
  rcases offset_cases hpage hsize with hoff | hfar
  · exact .inl hoff
  · obtain rfl := Option.some.inj h
    rw [window, drop_eq_nil_of_le (show rows.length ≤ ((page - 1) * size).toNat by omega), take_nil,
      length_nil, length_drop, length_take] at hsame
    exact .inr (by omega)

end paging

structure Agrees (l : Letters) (w : World) (params : Params) (ownerFilter : Option Int) (scope : Scope)
    (all : List Client) (k : Nat) : Prop where
  tallied : Tallied w.clock all (buildClientsSummary w.clock all)
  one_class : ∀ c ∈ all, ∃! b, b ≠ .online ∧ counted w.clock b c = true
  matched : ∀ b : Bucket, all.filter (admitted l w (only b params)) = all.filter (counted w.clock b)
  paged : ∃ rows, rows.Perm (all.filter (admitted l w params)) ∧
    (params.sort ≠ "" → Sorted l params.sort params.order (all.filter (admitted l w params)) rows) ∧
      ∀ j ≤ k, ∃ rs, responses l w params ownerFilter scope j = .ok rs ∧
        rs.flatMap (·.items) = (rows.take (j * (clampPageSize params.pageSize).toNat)).map toClientSlim ∧
          ∀ r ∈ rs, r.summary = buildClientsSummary w.clock all ∧ r.total = all.length ∧ r.filtered = rows.length

section requests

variable {l : Letters} {w : World} {params : Params} {ownerFilter : Option Int} {scope : Scope} {rows : List Client}
  {gs : List String} {j k : Nat}

theorem clampPageSize_bounds (n : Int) : 1 ≤ clampPageSize n ∧ clampPageSize n ≤ 200 := by
  unfold clampPageSize
  dsimp only
  split_ifs <;> omega

def reply (w : World) (params : Params) (all filtered : List Client) (gs : List String) (j : Nat) (page : List Client) :
    Response :=
  { items := page.map toClientSlim, total := all.length, filtered := filtered.length
    page := j + 1, pageSize := clampPageSize params.pageSize
    summary := buildClientsSummary w.clock all, groups := gs }

theorem visible_length (scope : Scope) (ownerFilter : Option Int) (all : List Client) :
    (visible scope ownerFilter all).length ≤ all.length := by
  have hscope : (if scope.global then all else all.filter fun c => c.tenantId == scope.tenantId).length ≤
      all.length := by
    split_ifs
    · exact le_refl _
    · exact length_filter_le _ _
  unfold visible
  cases ownerFilter with
  | none => exact hscope
  | some owner => exact (length_filter_le _ _).trans hscope

theorem listPaged_page (hrows : w.rows = some rows) (hgroups : w.groups = some gs) (j : Nat) :
    listPaged l w { params with page := j + 1 } ownerFilter scope =
      match pageRows (filteredRows l w params (visible scope ownerFilter rows)) (j + 1)
        (clampPageSize params.pageSize) with
      | none => .error .sliceBounds
      | some page => .ok (reply w params (visible scope ownerFilter rows)
          (filteredRows l w params (visible scope ownerFilter rows)) gs j page) := by
  have hpage : clampPage (j + 1 : Int) = j + 1 := if_neg (by omega)
  have hfiltered : filteredRows l w { params with page := (j : Int) + 1 } (visible scope ownerFilter rows) =
      filteredRows l w params (visible scope ownerFilter rows) := rfl
  simp only [listPaged, hrows, hgroups, hpage, hfiltered, reply]

theorem responses_succ (hrows : w.rows = some rows) (hgroups : w.groups = some gs) {rs : List Response}
    (h : responses l w params ownerFilter scope (j + 1) = .ok rs) :
    ∃ head page, responses l w params ownerFilter scope j = .ok head ∧
      pageRows (filteredRows l w params (visible scope ownerFilter rows)) (j + 1) (clampPageSize params.pageSize) =
        some page ∧ rs.flatMap (·.items) = head.flatMap (·.items) ++ page.map toClientSlim := by
  rw [responses, listPaged_page hrows hgroups] at h
  cases hhead : responses l w params ownerFilter scope j with
  | error e =>
    rw [hhead] at h
    cases h
  | ok head =>
    rw [hhead] at h
    cases hpage : pageRows (filteredRows l w params (visible scope ownerFilter rows)) (j + 1)
      (clampPageSize params.pageSize) with
    | none =>
      rw [hpage] at h
      cases h
    | some page =>
      rw [hpage] at h
      cases h
      refine ⟨head, page, rfl, rfl, ?_⟩
      rw [flatMap_append, flatMap_singleton]
      rfl

theorem window_succ (rows : List Client) (j : Nat) {size : Int} (hsize : 1 ≤ size) :
    rows.take ((j + 1) * size.toNat) = rows.take (j * size.toNat) ++ window rows (j + 1) size := by
  have hoffset : (((j : Int) + 1 - 1) * size).toNat = j * size.toNat := by
    rw [Int.add_sub_cancel, Int.toNat_mul (by omega) (by omega), Int.toNat_natCast]
  rw [window, hoffset, Nat.succ_mul, take_add]

theorem responses_fits (hrows : w.rows = some rows) (hgroups : w.groups = some gs)
    (hlen : (filteredRows l w params (visible scope ownerFilter rows)).length < 2 ^ 63) (hk : k < 2 ^ 63)
    (h : ∀ j < k, Fits (j + 1) (clampPageSize params.pageSize)
      (filteredRows l w params (visible scope ownerFilter rows)).length) :
    ∃ rs, responses l w params ownerFilter scope k = .ok rs ∧
      rs.flatMap (·.items) = ((filteredRows l w params (visible scope ownerFilter rows)).take
        (k * (clampPageSize params.pageSize).toNat)).map toClientSlim ∧
        ∀ r ∈ rs, r.summary = buildClientsSummary w.clock (visible scope ownerFilter rows) ∧
          r.total = (visible scope ownerFilter rows).length ∧
            r.filtered = (filteredRows l w params (visible scope ownerFilter rows)).length := by
  have hsize := (clampPageSize_bounds params.pageSize).1
  induction k with
  | zero => exact ⟨[], rfl, by simp, fun r hr => absurd hr not_mem_nil⟩
  | succ k ih =>
    obtain ⟨head, hhead, hitems, hall⟩ := ih (by omega) fun j hj => h j (by omega)
    have hpage := pageRows_fits (by omega) (by omega) hsize hlen (h k (by omega))
    refine ⟨head ++ [reply w params (visible scope ownerFilter rows)
      (filteredRows l w params (visible scope ownerFilter rows)) gs k
      (window (filteredRows l w params (visible scope ownerFilter rows)) (k + 1) (clampPageSize params.pageSize))],
      ?_, ?_, ?_⟩
    · rw [responses, hhead, listPaged_page hrows hgroups, hpage]
      rfl
    · rw [flatMap_append, flatMap_singleton, hitems, window_succ _ _ hsize, map_append]
      rfl
    · intro r hr
      rcases mem_append.mp hr with hr | hr
      · exact hall r hr
      · obtain rfl := mem_singleton.mp hr
        exact ⟨rfl, rfl, rfl⟩

theorem list_summary_agree (hrows : w.rows = some rows) (hgroups : w.groups = some gs) (hlen : rows.length < 2 ^ 63)
    (hk : k < 2 ^ 63) : Agrees l w params ownerFilter scope (visible scope ownerFilter rows) k ↔
      Plain w.clock (visible scope ownerFilter rows) ∧ ∀ j < k, Fits (j + 1) (clampPageSize params.pageSize)
        ((visible scope ownerFilter rows).filter (admitted l w params)).length := by
  have hperm := sortClients_perm l ((visible scope ownerFilter rows).filter (admitted l w params)) params.sort
    params.order
  change (filteredRows l w params (visible scope ownerFilter rows)).Perm _ at hperm
  have hfiltered : (filteredRows l w params (visible scope ownerFilter rows)).length < 2 ^ 63 := by
    rw [hperm.length_eq]
    exact (length_filter_le _ _).trans_lt ((visible_length scope ownerFilter rows).trans_lt hlen)
  obtain ⟨hsize, hsmall⟩ := clampPageSize_bounds params.pageSize
  constructor
  · intro h
    refine ⟨(matched_iff l w params _).mp h.matched, fun j hj => ?_⟩
    obtain ⟨sorted, hsorted, -, hpages⟩ := h.paged
    obtain ⟨rs, hrs, hitems, -⟩ := hpages (j + 1) hj
    obtain ⟨head, page, hhead, hpage, hlast⟩ := responses_succ hrows hgroups hrs
    obtain ⟨head', hhead', hitems', -⟩ := hpages j (by omega)
    obtain rfl := Except.ok.inj (hhead.symm.trans hhead')
    rw [hitems, hitems', window_succ sorted j hsize, map_append, append_cancel_left_eq] at hlast
    have hsame := congrArg List.length hlast
    rw [length_map, length_map] at hsame
    rw [← hperm.length_eq]
    refine fits_of_pageRows (by omega) (by omega) hsize hsmall hfiltered hpage ?_
    rw [← hsame, window, window, length_take, length_take, length_drop, length_drop,
      hperm.length_eq, hsorted.length_eq]
  · rintro ⟨hplain, hfits⟩
    refine ⟨tallied _ _, fun c _ => one_class _ c, (matched_iff l w params _).mpr hplain, _, hperm,
      fun hsort => sortClients_sorted l _ params.order hsort, fun j hj => ?_⟩
    exact responses_fits hrows hgroups hfiltered (by omega) fun i hi => hperm.length_eq ▸ hfits i (by omega)

def sampleClient : Client :=
  { id := 1, email := "a@x", subID := "s", uuid := "", password := "", auth := "", enable := true, totalGB := 0
    expiryTime := 0, limitIP := 0, reset := 0, tgID := 0, group := "", comment := "", inboundIds := [1], traffic := none
    ownerId := 0, tenantId := 0, createdAt := 1, updatedAt := 1 }

def usedUp : Client :=
  { sampleClient with id := 2, email := "b@x", enable := false, totalGB := 10, traffic := some ⟨8, 2, 0⟩ }

def almostExpired : Client := { sampleClient with id := 3, email := "c@x", expiryTime := 1050 }

def ascii : Letters := { lower := id, fold := Char.toLower }

def worldOf (rows : List Client) : World :=
  { rows := some rows, inbounds := some [], onlines := [], settings := none, nowMs := 1000, groups := some [] }

def asAdmin : Scope := { global := true, tenantId := 0 }

theorem list_summary_agree_sample :
    Agrees ascii (worldOf [sampleClient]) { sort := "email", pageSize := 1 } none asAdmin [sampleClient] 2 := by
  refine (@list_summary_agree ascii (worldOf [sampleClient]) { sort := "email", pageSize := 1 } none asAdmin
    [sampleClient] [] 2 rfl rfl (by decide) (by decide)).mpr ⟨⟨?_, ?_⟩, ?_⟩
  · decide
  · decide
  · intro j hj
    have hcases : j = 0 ∨ j = 1 := by omega
    rcases hcases with rfl | rfl
    · exact ⟨by decide, by decide, .inl (by decide)⟩
    · exact ⟨by decide, by decide, .inl (by decide)⟩

theorem disabled_and_depleted_listed_twice :
    ¬ Agrees ascii (worldOf [usedUp]) {} none asAdmin [usedUp] 0 ∧
    ¬ Agrees ascii { worldOf [almostExpired] with settings := some (some 1, none) } {} none asAdmin [almostExpired] 0 ∧
      listPaged ascii (worldOf [usedUp]) { page := 2 ^ 62 + 1, pageSize := 2 } none asAdmin = .error .sliceBounds := by
  refine ⟨fun h => ?_, fun h => ?_, by decide⟩
  · have hmatched := h.matched .deactive
    revert hmatched
    decide
  · have hmatched := h.matched .active
    revert hmatched
    decide

end requests

end ClientList

end QuiPanel
