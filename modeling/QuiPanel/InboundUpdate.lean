import QuiPanel.ListSync
import QuiPanel.Library.Deferred
import QuiPanel.Library.HostPort

namespace QuiPanel

namespace InboundUpdate

open Keyed Outcome Deferred Clients
open Ports (Protocol)
open OneEmail (Dialect readAs)

structure Columns (X : Type) where
  tag : String
  shareAddrStrategy : String
  shareAddr : String
  rest : X

structure Store (X : Type) where
  db : DB
  columns : Int → Columns X

variable {X : Type}

def Store.withTraffics (s : Store X) (traffics : List ClientTraffic) : Store X :=
  { s with db := { s.db with traffics } }

section shareAddress

structure IP where
  text : String
  v4 : Bool

variable (parseIP : String → Option IP)

def hostLabel (label : List Char) : Bool :=
  label.all (fun c => c.isAlphanum || c == '-') && label.head?.any Char.isAlphanum &&
    label.getLast?.any Char.isAlphanum

def hostname (addr : String) : Bool := (addr.toList.splitOn '.').all hostLabel

def unwrapBrackets (addr : String) : String :=
  match addr.toList with
  | '[' :: rest => if rest.getLast? = some ']' then String.ofList rest.dropLast else addr
  | _ => addr

def normalizeHost (addr : String) : Except String String :=
  let addr := Text.trimSpace addr
  if addr = "" then .error "address is required"
  else
    let addr := unwrapBrackets addr
    match parseIP addr with
    | some ip => .ok ip.text
    | none => if 253 < addr.utf8ByteSize ∨ !hostname addr then .error "invalid host" else .ok addr

def bracketedIPv6 (text : String) : Except String String :=
  match parseIP text with
  | some ip => if ip.v4 then .error "invalid IPv6 host" else .ok ("[" ++ ip.text ++ "]")
  | none => .error "invalid IPv6 host"

def normalizeInboundShareHost (raw : String) : Except String String :=
  let addr := Text.trimSpace raw
  if addr = "" then .ok ""
  else if addr.toList.any fun c => c ∈ ['/', '?', '#', '@'] then .error "invalid share address"
  else match addr.toList with
    | '[' :: rest =>
      if rest.getLast? = some ']' then bracketedIPv6 parseIP (String.ofList rest.dropLast)
      else .error "invalid IPv6 host"
    | text =>
      if ':' ∈ text then
        if (HostPort.splitHostPort text).isSome then .error "share address must not include port"
        else bracketedIPv6 parseIP addr
      else normalizeHost parseIP addr

def normalizeInboundShareAddrStrategy (strategy : String) : String :=
  let strategy := Text.trimSpace strategy
  if strategy = "listen" ∨ strategy = "custom" then strategy else "node"

def normalizeInboundShareAddress (c : Columns X) : Columns X :=
  { c with
    shareAddrStrategy := normalizeInboundShareAddrStrategy c.shareAddrStrategy
    shareAddr := match normalizeInboundShareHost parseIP c.shareAddr with
      | .ok addr => addr
      | .error _ => Text.trimSpace c.shareAddr }

def normalizeInboundShareAddressStrict (c : Columns X) : Except String (Columns X) :=
  match normalizeInboundShareHost parseIP c.shareAddr with
  | .error _ => .error "shareAddr must be a host or IP without scheme or port"
  | .ok addr => .ok { c with
      shareAddrStrategy := normalizeInboundShareAddrStrategy c.shareAddrStrategy, shareAddr := addr }

end shareAddress

structure UpdateFaults where
  refusal : Option String
  oldSettings : Option String
  newSettings : Option String
  lookup : Nat → Option String
  delStat : Nat → Option String
  delRest : Nat → Option String
  put : Nat → Option String
  tag : Except String String
  plan : Option String
  save : Option String
  savedSettings : Option String
  sync : Option String
  commit : Option String
  stamp : OneEmail.SaveDraws
  now : Int

structure UpdateRequest (X : Type) where
  id : Int
  protocol : Protocol
  method : String
  tlsFlowCapable : Bool
  clients : Option (List Client)
  columns : Columns X

section update

variable (parseIP : String → Option IP) (dialect : Dialect) (f : UpdateFaults) (before : Store X)
  (req : UpdateRequest X)

def spared (kept : List String) (c : Client) : Bool := c.email == "" || kept.contains c.email

def usedElsewhere (id : Int) (c : Client) : Bool :=
  emailUsedByOtherInbounds (readAs dialect before.db) c.email id

def dropStats (id : Int) (kept : List String) : Nat → Store X → List Client → Store X × Except Escape Unit
  | _, s, [] => (s, .ok ())
  | k, s, c :: cs =>
    if spared kept c then dropStats id kept (k + 1) s cs
    else andThen (statement (f.lookup k) s s) fun s _ =>
      if usedElsewhere dialect before id c then dropStats id kept (k + 1) s cs
      else andThen (statement (f.delStat k) s (s.withTraffics (delClientStat s.db.traffics c.email))) fun s _ =>
        andThen (statement (f.delRest k) s s) fun s _ => dropStats id kept (k + 1) s cs

def putStats (id : Int) (existed : List String) : Nat → Store X → List Client → Store X × Except Escape Unit
  | _, s, [] => (s, .ok ())
  | k, s, c :: cs =>
    if c.email = "" then putStats id existed (k + 1) s cs
    else andThen (statement (f.put k) s
        (s.withTraffics (RuntimePush.putStat id existed s.db.traffics c))) fun s _ =>
      putStats id existed (k + 1) s cs

def updateClientTraffics (s : Store X) (id : Int) (oldClients newClients : List Client) :
    Store X × Except Escape Unit :=
  andThen (statement f.oldSettings s s) fun s _ => andThen (statement f.newSettings s s) fun s _ =>
    andThen (dropStats dialect f before id (newClients.map (·.email)) 0 s oldClients) fun s _ =>
      putStats f id (oldClients.map (·.email)) 0 s newClients

def shareColumns (old : Columns X) : Except String (Columns X) :=
  if Text.trimSpace req.columns.shareAddrStrategy = "" then
    .ok (normalizeInboundShareAddress parseIP
      { req.columns with shareAddrStrategy := old.shareAddrStrategy, shareAddr := old.shareAddr })
  else normalizeInboundShareAddressStrict parseIP req.columns

def storedClients : Option (List Client) := req.clients.map (List.map (OneEmail.stampTimes f.stamp))

def savedDb (db : DB) : DB :=
  { db with inbounds := db.inbounds.modify (·.id == req.id) (fun ib =>
    ⟨ib.id, req.protocol, ib.nodeId, req.method, req.tlsFlowCapable, storedClients f req⟩) fun _ => rfl }

def saved (s : Store X) (columns : Columns X) : Store X :=
  ⟨savedDb f req s.db, Function.update s.columns req.id columns⟩

def syncSaved (s : Store X) : Store X × Except Escape Unit :=
  match ListSync.syncInbound f.now s.db req.id ((storedClients f req).getD []) with
  | .error e => (s, .error (.assigned e))
  | .ok db => statement f.sync s { s with db }

def updateBody (old : Inbound) (s : Store X) : Store X × Except Escape Unit :=
  andThen (updateClientTraffics dialect f before s req.id (old.clients.getD []) (req.clients.getD [])) fun s _ =>
    match shareColumns parseIP req (s.columns req.id) with
    -- the error sits in an err of the inner scope, the deferred closure reads the outer one
    | .error e => (s, .error (.shadowed e))
    | .ok columns =>
      match f.tag with
      | .error e => (s, .error (.assigned e))
      | .ok tag => andThen (statement f.plan s s) fun s _ =>
          andThen (statement f.save s (saved f req s { columns with tag })) fun s _ =>
            andThen (statement f.savedSettings s s) fun s _ => syncSaved f req s

def updateInbound : Closed (Store X) :=
  match f.refusal, before.db.inbounds.find req.id with
  | some e, _ => refused before e
  | none, none => refused before errNotFound
  | none, some old => finish f.commit before (updateBody parseIP dialect f before req old before)

end update

section updating

variable (parseIP : String → Option IP) (dialect : Dialect) (f : UpdateFaults) (before : Store X)
  (req : UpdateRequest X)

def DropsHold (id : Int) (kept : List String) : Nat → List Client → Prop
  | _, [] => True
  | k, c :: cs =>
    (spared kept c = false → f.lookup k = none ∧
      (usedElsewhere dialect before id c = false → f.delStat k = none ∧ f.delRest k = none)) ∧
    DropsHold id kept (k + 1) cs

def PutsHold : Nat → List Client → Prop
  | _, [] => True
  | k, c :: cs => (c.email ≠ "" → f.put k = none) ∧ PutsHold (k + 1) cs

structure TrafficsHold (id : Int) (oldClients newClients : List Client) : Prop where
  oldSettings : f.oldSettings = none
  newSettings : f.newSettings = none
  drops : DropsHold dialect f before id (newClients.map (·.email)) 0 oldClients
  puts : PutsHold f 0 newClients

def updatedTraffics (old : Inbound) : List ClientTraffic :=
  OneEmail.updateClientTraffics dialect before.db req.id (old.clients.getD []) (req.clients.getD [])

def rewritten (old : Inbound) : DB :=
  savedDb f req { before.db with traffics := updatedTraffics dialect before req old }

structure Reflects (old : Inbound) (s' : Store X) : Prop where
  row : ∃ columns tag, shareColumns parseIP req (before.columns req.id) = .ok columns ∧ f.tag = .ok tag ∧
    s'.columns = Function.update before.columns req.id { columns with tag }
  synced : ListSync.syncInbound f.now (rewritten dialect f before req old) req.id
    ((storedClients f req).getD []) = .ok s'.db

structure StepsHold (old : Inbound) : Prop where
  tag : ∃ tag, f.tag = .ok tag
  plan : f.plan = none
  save : f.save = none
  savedSettings : f.savedSettings = none
  synced : ∃ db, ListSync.syncInbound f.now (rewritten dialect f before req old) req.id
    ((storedClients f req).getD []) = .ok db
  sync : f.sync = none

def AddressRead : Prop := ∃ columns, shareColumns parseIP req (before.columns req.id) = .ok columns

def UpdateSound : Prop :=
  f.refusal = none → ∀ old, before.db.inbounds.find req.id = some old →
    TrafficsHold dialect f before req.id (old.clients.getD []) (req.clients.getD []) →
    AddressRead parseIP before req ∧ (StepsHold dialect f before req old → f.commit = none)

variable {parseIP dialect f before req} {s : Store X} {cs : List Client} {id : Int}
  {kept existed : List String} {k : Nat}
  {fault : Option String} {full : Store X → Prop} {g : Store X → Unit → Store X × Except Escape Unit}

variable {traffics : List ClientTraffic}

theorem dropStat_spared {c : Client} (h : spared kept c = true) :
    OneEmail.dropStat dialect before.db id kept traffics c = traffics := by
  rw [spared, Bool.or_eq_true, beq_iff_eq, List.contains_iff_mem] at h
  exact if_pos (h.imp_right .inl)

theorem dropStat_live {c : Client} (h : spared kept c = false) :
    OneEmail.dropStat dialect before.db id kept traffics c =
      if usedElsewhere dialect before id c then traffics else delClientStat traffics c.email := by
  rw [spared, Bool.or_eq_false_iff, beq_eq_false_iff_ne] at h
  have hkept : c.email ∉ kept := fun hmem => by simp [hmem] at h
  rw [OneEmail.dropStat, usedElsewhere]
  simp [h.1, hkept]

theorem dropStats_then : Sound fault full (andThen (dropStats dialect f before id kept k s cs) g) ↔
    (DropsHold dialect f before id kept k cs → Sound fault full
      (g (s.withTraffics (cs.foldl (OneEmail.dropStat dialect before.db id kept) s.db.traffics)) ())) := by
  induction cs generalizing k s with
  | nil => exact ⟨fun h _ => h, fun h => h trivial⟩
  | cons c cs ih =>
    rw [dropStats, DropsHold, List.foldl_cons]
    cases hspared : spared kept c with
    | true =>
      rw [if_pos rfl, ih, dropStat_spared hspared]
      simp
    | false =>
      rw [if_neg (by simp), andThen_assoc, statement_then, dropStat_live hspared]
      cases hused : usedElsewhere dialect before id c with
      | true =>
        simp only [if_true, ih]
        simp
      | false =>
        simp only [Bool.false_eq_true, if_false, andThen_assoc, statement_then, ih]
        simp only [true_implies, and_imp]
        rfl

theorem putStats_then : Sound fault full (andThen (putStats f id existed k s cs) g) ↔
    (PutsHold f k cs → Sound fault full
      (g (s.withTraffics (cs.foldl (RuntimePush.putStat id existed) s.db.traffics)) ())) := by
  induction cs generalizing k s with
  | nil => exact ⟨fun h _ => h, fun h => h trivial⟩
  | cons c cs ih =>
    rw [putStats, PutsHold, List.foldl_cons]
    by_cases hemail : c.email = ""
    · rw [if_pos hemail, ih, RuntimePush.putStat, if_pos hemail]
      simp [hemail]
    · rw [if_neg hemail, andThen_assoc, statement_then, ih]
      simp only [ne_eq, hemail, not_false_eq_true, true_implies, and_imp]
      rfl

theorem updateClientTraffics_then {oldClients newClients : List Client} :
    Sound fault full (andThen (updateClientTraffics dialect f before before id oldClients newClients) g) ↔
      (TrafficsHold dialect f before id oldClients newClients → Sound fault full
        (g (before.withTraffics (OneEmail.updateClientTraffics dialect before.db id oldClients newClients)) ())) := by
  simp only [updateClientTraffics, andThen_assoc, statement_then, dropStats_then, putStats_then]
  constructor
  · intro h hold
    exact h hold.oldSettings hold.newSettings hold.drops hold.puts
  · intro h hold hnew hdrops hputs
    exact h ⟨hold, hnew, hdrops, hputs⟩

theorem syncSaved_then (fault : Option String) (dialect : Dialect) (old : Inbound) {columns : Columns X}
    {tag : String}
    (hcolumns : shareColumns parseIP req (before.columns req.id) = .ok columns) (htag : f.tag = .ok tag) :
    Sound fault (Reflects parseIP dialect f before req old)
      (syncSaved f req ⟨rewritten dialect f before req old,
        Function.update before.columns req.id { columns with tag }⟩) ↔
      ((∃ db, ListSync.syncInbound f.now (rewritten dialect f before req old) req.id
        ((storedClients f req).getD []) = .ok db) → f.sync = none → fault = none) := by
  rw [syncSaved]
  cases hsync : ListSync.syncInbound f.now (rewritten dialect f before req old) req.id
      ((storedClients f req).getD []) with
  | error e => exact iff_of_true trivial fun h => nomatch h.choose_spec
  | ok db =>
    cases hfault : f.sync with
    | some e => exact iff_of_true trivial fun _ h => nomatch h
    | none =>
      have hfull : Reflects parseIP dialect f before req old
          ⟨db, Function.update before.columns req.id { columns with tag }⟩ :=
        ⟨⟨columns, tag, hcolumns, htag, rfl⟩, hsync⟩
      exact ⟨fun h _ _ => h.1, fun h => ⟨h ⟨db, rfl⟩ rfl, hfull⟩⟩

theorem updateBody_sound_iff {old : Inbound} :
    Sound fault (Reflects parseIP dialect f before req old) (updateBody parseIP dialect f before req old before) ↔
      (TrafficsHold dialect f before req.id (old.clients.getD []) (req.clients.getD []) →
        AddressRead parseIP before req ∧ (StepsHold dialect f before req old → fault = none)) := by
  rw [updateBody, updateClientTraffics_then]
  refine imp_congr_right fun _ => ?_
  cases hcolumns : shareColumns parseIP req (before.columns req.id) with
  | error e =>
    refine iff_of_false (fun h => ?_) fun h => ?_
    · simp only [Store.withTraffics, hcolumns] at h
      exact h
    · obtain ⟨columns, hread⟩ := h.1
      rw [hcolumns] at hread
      cases hread
  | ok columns =>
    have hread : AddressRead parseIP before req := ⟨columns, hcolumns⟩
    rw [and_iff_right hread]
    simp only [Store.withTraffics, hcolumns]
    cases htag : f.tag with
    | error e => exact iff_of_true trivial fun h => nomatch htag.symm.trans h.tag.choose_spec
    | ok tag =>
      simp only [statement_then, saved]
      have hsync := syncSaved_then fault dialect old hcolumns htag
      constructor
      · intro h hold
        exact hsync.mp (h hold.plan hold.save hold.savedSettings) hold.synced hold.sync
      · intro h hplan hsave hsaved
        exact hsync.mpr fun hdb hs => h ⟨⟨tag, htag⟩, hplan, hsave, hsaved, hdb, hs⟩

theorem updateInbound_sound_iff :
    Atomic before (fun s' => ∀ old, before.db.inbounds.find req.id = some old →
      Reflects parseIP dialect f before req old s') (updateInbound parseIP dialect f before req) ↔
      UpdateSound parseIP dialect f before req := by
  rw [updateInbound, UpdateSound]
  cases hrefusal : f.refusal with
  | some e => exact iff_of_true refused_atomic fun h => nomatch h
  | none =>
    cases hfind : before.db.inbounds.find req.id with
    | none => exact iff_of_true refused_atomic fun _ _ h => nomatch h
    | some old =>
      have hfull : (fun s' => ∀ old', some old = some old' → Reflects parseIP dialect f before req old' s') =
          Reflects parseIP dialect f before req old :=
        funext fun s' => propext ⟨fun h => h old rfl, fun h old' heq => Option.some.inj heq ▸ h⟩
      rw [hfull, finish_atomic_iff, updateBody_sound_iff]
      exact ⟨fun h _ old' heq => Option.some.inj heq ▸ h, fun h => h rfl old rfl⟩

end updating

structure ClientFaults where
  refusal : Option String
  emails : Option String
  count : Option String
  lookup : Option String
  delStat : Option String
  delRest : Option String
  updateStat : Option String
  updateIPs : Option String
  addStat : Option String
  plan : Except String Bool
  cipher : Bool
  save : Option String
  savedSettings : Option String
  sync : Option String
  commit : Option String
  stamp : Attempt
  now : Int

structure ClientRequest where
  id : Int
  client : Client
  others : List Client
  oldEmail : String

section updateClient

variable (dialect : Dialect) (f : ClientFaults) (before : Store X) (req : ClientRequest)

def preflight : Except String (Inbound × Nat × Client) := do
  check f.refusal.isNone (f.refusal.getD "")
  let oldInbound ← orErr (before.db.inbounds.find req.id) errNotFound
  let oldClients := oldInbound.clients.getD []
  let index := oldClients.findIdx fun c => Text.equalFold c.email req.oldEmail
  let located := if credential oldInbound.protocol req.client = "" then none else oldClients[index]?
  let oldClient ← orErr located "empty client ID\n"
  check (Text.trimSpace req.client.email != "") "client email is required\n"
  if req.client.email ≠ oldClient.email then
    check f.emails.isNone (f.emails.getD "")
    let existEmail := checkEmailsExist (readAs dialect before.db) (req.client :: req.others) []
    check existEmail.isNone ("Duplicate email: " ++ existEmail.getD "" ++ "\n")
  return (oldInbound, index, oldClient)

def putStat (s : Store X) (email : String) : Store X × Except Escape Unit :=
  match updateClientStat s.db.traffics email req.client with
  | .error e => (s, .error (.assigned e))
  | .ok traffics => statement f.updateStat s (s.withTraffics traffics)

def dropUnused (s : Store X) (oldEmail : String) : Store X × Except Escape Unit :=
  if emailUsedByOtherInbounds (readAs dialect before.db) oldEmail req.id then (s, .ok ())
  else andThen (statement f.delStat s (s.withTraffics (delClientStat s.db.traffics oldEmail))) fun s _ =>
    statement f.delRest s s

def shadow (r : Store X × Except Escape Unit) : Store X × Except Escape Unit :=
  match r with
  | (s, .error (.assigned e)) => (s, .error (.shadowed e))
  | r => r

def renames (traffics : List ClientTraffic) (oldEmail : String) : Bool :=
  !Text.equalFold oldEmail req.client.email && traffics.any (·.email == req.client.email)

def moveStats (s : Store X) (oldEmail : String) : Store X × Except Escape Unit :=
  if req.client.email ≠ "" then
    if oldEmail ≠ "" then
      andThen (statement (if Text.equalFold oldEmail req.client.email then none else f.count) s s) fun s _ =>
        if renames req s.db.traffics oldEmail then
          -- the lookup's own error variable is returned, err stays nil
          match f.lookup with
          | some e => (s, .error (.shadowed e))
          | none => andThen (dropUnused dialect f before req s oldEmail) fun s _ => putStat f req s req.client.email
        else andThen (putStat f req s oldEmail) fun s _ => statement f.updateIPs s s
    -- the error of the insert is dropped
    else (match f.addStat with
      | some _ => s
      | none => s.withTraffics (addClientStat req.id s.db.traffics req.client), .ok ())
  else match f.lookup with
    | some e => (s, .error (.shadowed e))
    | none => shadow (dropUnused dialect f before req s oldEmail)

def pushPlan (old : Inbound) (s : Store X) (oldEmail : String) : Store X × Except Escape Unit :=
  if oldEmail = "" then (s, .ok ())
  else match f.plan with
    | .error e => (s, .error (.assigned e))
    | .ok push =>
      if old.nodeId.isNone ∧ push ∧ req.client.enable ∧ old.protocol = .shadowsocks ∧ !f.cipher then
        (s, .error (.panic "interface conversion: interface \x7b\x7d is nil, not string"))
      else (s, .ok ())

def replaced (old : Inbound) (index : Nat) (oldClient : Client) : List Client :=
  (old.clients.getD []).set index (restampEntry f.stamp oldClient req.client)

def syncClients (s : Store X) (clients : List Client) : Store X × Except Escape Unit :=
  match ListSync.syncInbound f.now s.db req.id clients with
  | .error e => (s, .error (.assigned e))
  | .ok db => statement f.sync s { s with db }

def clientBody (old : Inbound) (index : Nat) (oldClient : Client) (s : Store X) : Store X × Except Escape Unit :=
  let clients := replaced f req old index oldClient
  andThen (moveStats dialect f before req s oldClient.email) fun s _ =>
    andThen (pushPlan f req old s oldClient.email) fun s _ =>
      andThen (statement f.save s { s with db := saveClients s.db req.id clients }) fun s _ =>
        andThen (statement f.savedSettings s s) fun s _ => syncClients f req s clients

def updateInboundClient : Closed (Store X) :=
  match preflight dialect f before req with
  | .error e => refused before e
  | .ok (old, index, oldClient) => finish f.commit before (clientBody dialect f before req old index oldClient before)

end updateClient

section updatingClient

variable (dialect : Dialect) (f : ClientFaults) (before : Store X) (req : ClientRequest)

def movedTraffics (oldEmail : String) : Except String (List ClientTraffic) :=
  if oldEmail = "" then .ok (addClientStat req.id before.db.traffics req.client)
  else moveStat (readAs dialect before.db) req.id oldEmail req.client

def LookupHolds (oldEmail : String) : Prop :=
  oldEmail ≠ "" → renames req before.db.traffics oldEmail = true → f.count = none → f.lookup = none

structure MovesHold (oldEmail : String) : Prop where
  count : oldEmail ≠ "" → Text.equalFold oldEmail req.client.email = false → f.count = none
  unused : oldEmail ≠ "" → renames req before.db.traffics oldEmail = true →
    emailUsedByOtherInbounds (readAs dialect before.db) oldEmail req.id = false → f.delStat = none ∧ f.delRest = none
  update : oldEmail ≠ "" → f.updateStat = none
  ips : oldEmail ≠ "" → renames req before.db.traffics oldEmail = false → f.updateIPs = none

def InsertHolds (oldEmail : String) : Prop :=
  oldEmail = "" → f.addStat = none ∨ before.db.traffics.any (·.email == req.client.email) = true

def PlanHolds (old : Inbound) (oldEmail : String) : Prop :=
  oldEmail ≠ "" → ∃ push, f.plan = .ok push ∧
    ¬(old.nodeId.isNone ∧ push ∧ req.client.enable ∧ old.protocol = .shadowsocks ∧ !f.cipher)

def moved (traffics : List ClientTraffic) (clients : List Client) : DB :=
  saveClients { before.db with traffics } req.id clients

structure ClientReflects (old : Inbound) (index : Nat) (oldClient : Client) (s' : Store X) : Prop where
  columns : s'.columns = before.columns
  synced : ∃ traffics, movedTraffics dialect before req oldClient.email = .ok traffics ∧
    ListSync.syncInbound f.now (moved before req traffics (replaced f req old index oldClient)) req.id
      (replaced f req old index oldClient) = .ok s'.db

structure ClientStepsHold (old : Inbound) (index : Nat) (oldClient : Client) : Prop where
  moves : MovesHold dialect f before req oldClient.email
  plan : PlanHolds f req old oldClient.email
  save : f.save = none
  savedSettings : f.savedSettings = none
  synced : ∃ traffics, movedTraffics dialect before req oldClient.email = .ok traffics ∧
    ∃ db, ListSync.syncInbound f.now (moved before req traffics (replaced f req old index oldClient)) req.id
      (replaced f req old index oldClient) = .ok db
  sync : f.sync = none

def ClientSound : Prop :=
  ∀ old index oldClient, preflight dialect f before req = .ok (old, index, oldClient) →
    LookupHolds f before req oldClient.email ∧
    (ClientStepsHold dialect f before req old index oldClient →
      f.commit = none ∧ InsertHolds f before req oldClient.email)

variable {dialect f before req} {s : Store X} {oldEmail email : String} {old : Inbound} {index : Nat}
  {oldClient : Client}
  {fault : Option String} {full : Store X → Prop} {g : Store X → Unit → Store X × Except Escape Unit}

theorem putStat_then : Sound fault full (andThen (putStat f req s email) g) ↔
    ∀ traffics, updateClientStat s.db.traffics email req.client = .ok traffics → f.updateStat = none →
      Sound fault full (g (s.withTraffics traffics) ()) := by
  rw [putStat]
  cases hput : updateClientStat s.db.traffics email req.client with
  | error e => exact iff_of_true trivial fun _ h => nomatch h
  | ok traffics =>
    simp only [statement_then]
    exact ⟨fun h t ht => Except.ok.inj ht ▸ h, fun h => h traffics rfl⟩

theorem pushPlan_then : Sound fault full (andThen (pushPlan f req old s oldEmail) g) ↔
    (PlanHolds f req old oldEmail → Sound fault full (g s ())) := by
  rw [pushPlan, PlanHolds]
  by_cases hemail : oldEmail = ""
  · rw [if_pos hemail]
    exact ⟨fun h _ => h, fun h => h fun hne => absurd hemail hne⟩
  · rw [if_neg hemail]
    cases hplan : f.plan with
    | error e => exact iff_of_true trivial fun h => nomatch (h hemail).choose_spec.1
    | ok push =>
      by_cases hpanic : old.nodeId.isNone ∧ push ∧ req.client.enable ∧ old.protocol = .shadowsocks ∧ !f.cipher
      · simp only [if_pos hpanic]
        refine iff_of_true trivial fun h => ?_
        obtain ⟨push', hpush, hno⟩ := h hemail
        exact absurd (Except.ok.inj hpush ▸ hpanic) hno
      · simp only [if_neg hpanic]
        exact ⟨fun h _ => h, fun h => h fun _ => ⟨push, rfl, hpanic⟩⟩

def keptTraffics (dialect : Dialect) (before : Store X) (req : ClientRequest)
    (oldEmail : String) : List ClientTraffic :=
  if emailUsedByOtherInbounds (readAs dialect before.db) oldEmail req.id then before.db.traffics
  else delClientStat before.db.traffics oldEmail

theorem dropUnused_then : Sound fault full (andThen (dropUnused dialect f before req before oldEmail) g) ↔
    ((emailUsedByOtherInbounds (readAs dialect before.db) oldEmail req.id = false →
      f.delStat = none ∧ f.delRest = none) →
      Sound fault full (g (before.withTraffics (keptTraffics dialect before req oldEmail)) ())) := by
  rw [dropUnused, keptTraffics]
  cases emailUsedByOtherInbounds (readAs dialect before.db) oldEmail req.id with
  | true => exact ⟨fun h _ => h, fun h => h fun hno => nomatch hno⟩
  | false =>
    simp only [Bool.false_eq_true, if_false, andThen_assoc, statement_then, true_implies, and_imp]

theorem moveStat_renames (h : renames req before.db.traffics oldEmail = true) :
    moveStat (readAs dialect before.db) req.id oldEmail req.client =
      updateClientStat (keptTraffics dialect before req oldEmail) req.client.email req.client := by
  rw [renames, Bool.and_eq_true, Bool.not_eq_true'] at h
  have hany : (readAs dialect before.db).traffics.any (·.email == req.client.email) = true := h.2
  rw [moveStat, if_neg (by simp [h.1, hany])]
  rfl

theorem moveStat_plain (h : renames req before.db.traffics oldEmail = false) :
    moveStat (readAs dialect before.db) req.id oldEmail req.client =
      updateClientStat before.db.traffics oldEmail req.client := by
  have hcond : Text.equalFold oldEmail req.client.email = true ∨
      (!(readAs dialect before.db).traffics.any (·.email == req.client.email)) = true := by
    rw [renames, Bool.and_eq_false_iff, Bool.not_eq_false'] at h
    exact h.imp_right fun hany => by rw [Bool.not_eq_true']; exact hany
  rw [moveStat, if_pos hcond]
  rfl

theorem moveStats_then (hclient : req.client.email ≠ "") (hold : oldEmail ≠ "") :
    Sound fault full (andThen (moveStats dialect f before req before oldEmail) g) ↔
      LookupHolds f before req oldEmail ∧ ∀ traffics, movedTraffics dialect before req oldEmail = .ok traffics →
        MovesHold dialect f before req oldEmail → Sound fault full (g (before.withTraffics traffics) ()) := by
  rw [moveStats, if_pos hclient, if_pos hold, andThen_assoc, statement_then, movedTraffics, if_neg hold]
  cases hrenames : renames req before.db.traffics oldEmail with
  | true =>
    have hfold : Text.equalFold oldEmail req.client.email = false := by
      rw [renames, Bool.and_eq_true, Bool.not_eq_true'] at hrenames
      exact hrenames.1
    rw [moveStat_renames hrenames, if_neg (by simp [hfold])]
    simp only [if_true]
    cases hlookup : f.lookup with
    | some e =>
      constructor
      · intro h
        refine ⟨fun _ _ hcount => False.elim (h hcount), fun _ _ hmoves => False.elim (h (hmoves.count hold hfold))⟩
      · intro h hcount
        exact nomatch hlookup.symm.trans (h.1 hold hrenames hcount)
    | none =>
      simp only [andThen_assoc, dropUnused_then, putStat_then]
      constructor
      · intro h
        refine ⟨fun _ _ _ => hlookup, fun traffics hput hmoves => ?_⟩
        exact h (hmoves.count hold hfold) (hmoves.unused hold hrenames) traffics hput (hmoves.update hold)
      · intro h hcount hunused traffics hput hupdate
        refine h.2 traffics hput ⟨fun _ _ => hcount, fun _ _ => hunused, fun _ => hupdate, fun _ hno => ?_⟩
        rw [hrenames] at hno
        cases hno
  | false =>
    rw [moveStat_plain hrenames]
    simp only [Bool.false_eq_true, if_false, andThen_assoc, putStat_then, statement_then]
    constructor
    · intro h
      refine ⟨fun _ hyes => ?_, fun traffics hput hmoves => ?_⟩
      · rw [hrenames] at hyes
        cases hyes
      · refine h ?_ traffics hput (hmoves.update hold) (hmoves.ips hold hrenames)
        cases hfold : Text.equalFold oldEmail req.client.email with
        | true => rfl
        | false => exact hmoves.count hold hfold
    · intro h hcount traffics hput hupdate hips
      refine h.2 traffics hput ⟨fun _ hfold => ?_, fun _ hyes => ?_, fun _ => hupdate, fun _ _ => hips⟩
      · simpa [hfold] using hcount
      · rw [hrenames] at hyes
        cases hyes

variable {traffics : List ClientTraffic}

theorem synced_moved (traffics' : List ClientTraffic) {clients : List Client}
    {db : DB}
    (h : ListSync.syncInbound f.now (moved before req traffics clients) req.id clients = .ok db) :
    ListSync.syncInbound f.now (moved before req traffics' clients) req.id clients =
      .ok { db with traffics := traffics' } ∧ db.traffics = traffics := by
  obtain ⟨records, hrecords, rfl⟩ := ListSync.syncInbound_ok.mp h
  exact ⟨ListSync.syncInbound_ok.mpr ⟨records, hrecords, rfl⟩, rfl⟩

theorem syncClients_then {clients : List Client} :
    Sound fault full (andThen (pushPlan f req old (before.withTraffics traffics) oldEmail) fun s _ =>
      andThen (statement f.save s { s with db := saveClients s.db req.id clients }) fun s _ =>
        andThen (statement f.savedSettings s s) fun s _ => syncClients f req s clients) ↔
      (PlanHolds f req old oldEmail → f.save = none → f.savedSettings = none →
        ∀ db, ListSync.syncInbound f.now (moved before req traffics clients) req.id clients = .ok db →
          f.sync = none → fault = none ∧ full { before with db }) := by
  rw [pushPlan_then]
  refine imp_congr_right fun _ => ?_
  simp only [statement_then, syncClients]
  refine imp_congr_right fun _ => imp_congr_right fun _ => ?_
  cases hsync : ListSync.syncInbound f.now (moved before req traffics clients) req.id clients with
  | error e =>
    have hsync' : ListSync.syncInbound f.now (saveClients (before.withTraffics traffics).db req.id clients) req.id
        clients = .error e := hsync
    rw [hsync']
    exact iff_of_true trivial fun _ h => nomatch h
  | ok db =>
    have hsync' : ListSync.syncInbound f.now (saveClients (before.withTraffics traffics).db req.id clients) req.id
        clients = .ok db := hsync
    rw [hsync']
    cases f.sync with
    | some e => exact iff_of_true trivial fun _ _ h => nomatch h
    | none => exact ⟨fun h db' heq _ => Except.ok.inj heq ▸ h, fun h => h db rfl rfl⟩

theorem addClientStat_kept {client : Client} {id : Int}
    (h : addClientStat id traffics client = traffics) : traffics.any (·.email == client.email) = true := by
  by_contra hany
  rw [addClientStat, if_neg hany] at h
  exact absurd (congrArg List.length h) (by simp)

theorem preflight_named (h : preflight dialect f before req = .ok (old, index, oldClient)) :
    req.client.email ≠ "" := by
  simp only [preflight, bind_ok, check_ok] at h
  obtain ⟨_, _, _, _, _, _, _, hnamed, _⟩ := h
  intro hempty
  rw [hempty] at hnamed
  exact absurd hnamed (by decide)

theorem clientBody_sound_iff (hclient : req.client.email ≠ "") :
    Sound fault (ClientReflects dialect f before req old index oldClient)
      (clientBody dialect f before req old index oldClient before) ↔
      LookupHolds f before req oldClient.email ∧
      (ClientStepsHold dialect f before req old index oldClient →
        fault = none ∧ InsertHolds f before req oldClient.email) := by
  rw [clientBody]
  by_cases hold : oldClient.email = ""
  · have hmoved : movedTraffics dialect before req oldClient.email =
        .ok (addClientStat req.id before.db.traffics req.client) := if_pos hold
    have hmoves : MovesHold dialect f before req oldClient.email :=
      ⟨fun h => absurd hold h, fun h => absurd hold h, fun h => absurd hold h, fun h => absurd hold h⟩
    have hlookup : LookupHolds f before req oldClient.email := fun h => absurd hold h
    rw [and_iff_right hlookup, moveStats, if_pos hclient, if_neg (not_not.mpr hold)]
    cases hadd : f.addStat with
    | none =>
      refine syncClients_then.trans ⟨fun h hsteps => ?_, fun h hplan hsave hsaved db hsync hs => ?_⟩
      · obtain ⟨traffics, heq, db, hsync⟩ := hsteps.synced
        obtain rfl := Except.ok.inj (hmoved.symm.trans heq)
        exact ⟨(h hsteps.plan hsteps.save hsteps.savedSettings db hsync hsteps.sync).1, fun _ => .inl hadd⟩
      · exact ⟨(h ⟨hmoves, hplan, hsave, hsaved, ⟨_, hmoved, db, hsync⟩, hs⟩).1, rfl, _, hmoved, hsync⟩
    | some e =>
      have hsame : before.withTraffics before.db.traffics = before := rfl
      refine (hsame ▸ syncClients_then).trans ⟨fun h hsteps => ?_, fun h hplan hsave hsaved db hsync hs => ?_⟩
      · obtain ⟨traffics, -, db, hsync⟩ := hsteps.synced
        obtain ⟨hplain, -⟩ := synced_moved before.db.traffics hsync
        obtain ⟨hfault, -, traffics', heq, hfull⟩ :=
          h hsteps.plan hsteps.save hsteps.savedSettings _ hplain hsteps.sync
        refine ⟨hfault, fun _ => .inr ?_⟩
        obtain rfl := Except.ok.inj (hmoved.symm.trans heq)
        have hkept := (synced_moved before.db.traffics hfull).2
        exact addClientStat_kept hkept.symm
      · obtain ⟨hfull, htraffics⟩ := synced_moved (addClientStat req.id before.db.traffics req.client) hsync
        obtain ⟨hfault, hinsert⟩ := h ⟨hmoves, hplan, hsave, hsaved, ⟨_, hmoved, _, hfull⟩, hs⟩
        have hany : before.db.traffics.any (·.email == req.client.email) = true :=
          (hinsert hold).resolve_left fun hnone => nomatch hadd.symm.trans hnone
        refine ⟨hfault, rfl, _, hmoved, ?_⟩
        rw [addClientStat, if_pos hany]
        exact hsync
  · rw [moveStats_then hclient hold]
    refine and_congr_right fun _ => ?_
    simp only [syncClients_then]
    constructor
    · intro h hsteps
      obtain ⟨traffics, hmoved, db, hsync⟩ := hsteps.synced
      have hdone := h traffics hmoved hsteps.moves hsteps.plan hsteps.save hsteps.savedSettings db hsync hsteps.sync
      exact ⟨hdone.1, fun hempty => absurd hempty hold⟩
    · intro h traffics hmoved hmoves hplan hsave hsaved db hsync hs
      exact ⟨(h ⟨hmoves, hplan, hsave, hsaved, ⟨traffics, hmoved, db, hsync⟩, hs⟩).1, rfl, traffics, hmoved, hsync⟩

theorem updateInboundClient_sound_iff :
    Atomic before (fun s' => ∀ old index oldClient, preflight dialect f before req = .ok (old, index, oldClient) →
      ClientReflects dialect f before req old index oldClient s') (updateInboundClient dialect f before req) ↔
      ClientSound dialect f before req := by
  rw [updateInboundClient, ClientSound]
  cases hpre : preflight dialect f before req with
  | error e => exact iff_of_true refused_atomic fun _ _ _ h => nomatch h
  | ok found =>
    obtain ⟨old, index, oldClient⟩ := found
    have hfull : (fun s' => ∀ old' index' oldClient',
        (.ok (old, index, oldClient) : Except String (Inbound × Nat × Client)) = .ok (old', index', oldClient') →
        ClientReflects dialect f before req old' index' oldClient' s') =
        ClientReflects dialect f before req old index oldClient := by
      funext s'
      refine propext ⟨fun h => h old index oldClient rfl, fun h _ _ _ heq => ?_⟩
      cases heq
      exact h
    simp only [hfull, finish_atomic_iff, clientBody_sound_iff (preflight_named hpre)]
    refine ⟨fun h old' index' oldClient' heq => ?_, fun h => h old index oldClient rfl⟩
    cases heq
    exact h

end updatingClient

inductive Call (X : Type)
  | updateInbound (f : UpdateFaults) (req : UpdateRequest X)
  | updateInboundClient (f : ClientFaults) (req : ClientRequest)

section calls

variable (parseIP : String → Option IP) (dialect : Dialect) (before : Store X)

def Call.run : Call X → Closed (Store X)
  | .updateInbound f req => InboundUpdate.updateInbound parseIP dialect f before req
  | .updateInboundClient f req => InboundUpdate.updateInboundClient dialect f before req

def Call.Reflected (s' : Store X) : Call X → Prop
  | .updateInbound f req => ∀ old, before.db.inbounds.find req.id = some old →
      Reflects parseIP dialect f before req old s'
  | .updateInboundClient f req => ∀ old index oldClient,
      preflight dialect f before req = .ok (old, index, oldClient) →
        ClientReflects dialect f before req old index oldClient s'

def Call.Covered : Call X → Prop
  | .updateInbound f req => UpdateSound parseIP dialect f before req
  | .updateInboundClient f req => ClientSound dialect f before req

theorem call_atomic_iff (call : Call X) :
    Atomic before (fun s' => call.Reflected parseIP dialect before s') (call.run parseIP dialect before) ↔
      call.Covered parseIP dialect before := by
  cases call with
  | updateInbound f req => exact updateInbound_sound_iff
  | updateInboundClient f req => exact updateInboundClient_sound_iff

end calls

section sample

def calm : UpdateFaults where
  refusal := none
  oldSettings := none
  newSettings := none
  lookup _ := none
  delStat _ := none
  delRest _ := none
  put _ := none
  tag := .ok "in-443-tcp"
  plan := none
  save := none
  savedSettings := none
  sync := none
  commit := none
  stamp := ⟨none, fun _ => 1, fun _ => 1⟩
  now := 1

def member : Client where
  id := "u1"
  security := ""
  password := ""
  flow := ""
  reverse := none
  auth := ""
  email := "a@x"
  limitIP := 0
  totalGB := 0
  expiryTime := 0
  enable := true
  tgID := 0
  subID := "s1"
  group := ""
  comment := ""
  reset := 0
  createdAt := 1
  updatedAt := 1

def stored : Store Unit where
  db := ⟨⟨[⟨1, .vless, none, "", true, some [member]⟩], 2, by decide, by decide⟩, Table.empty, [],
    [⟨1, "a@x", 5, 7, 0, 0, true, 0⟩]⟩
  columns _ := ⟨"in-443-tcp", "node", "", ()⟩

def schemed : UpdateRequest Unit where
  id := 1
  protocol := .vless
  method := ""
  tlsFlowCapable := true
  clients := some []
  columns := ⟨"in-443-tcp", "custom", "http://h", ()⟩

theorem rejected_update_commits :
    (updateInbound (fun _ => none) .sqlite calm stored schemed).state.db.traffics = [] ∧
    ¬Atomic stored (fun s' => (Call.updateInbound calm schemed).Reflected (fun _ => none) .sqlite stored s')
      ((Call.updateInbound calm schemed).run (fun _ => none) .sqlite stored) := by
  have hrun : (updateInbound (fun _ => none) .sqlite calm stored schemed).answer =
      .error "shareAddr must be a host or IP without scheme or port" := rfl
  refine ⟨rfl, fun h => ?_⟩
  have hkept := congrArg (fun s => s.db.traffics) (h.rejected _ hrun).2
  exact List.cons_ne_nil _ _ (hkept.symm.trans rfl)

end sample

end InboundUpdate

end QuiPanel
