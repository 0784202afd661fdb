import QuiPanel.Lifecycle

namespace QuiPanel

namespace RuntimePush

open Keyed Outcome Clients List
open Ports (Protocol)

structure RawClient where
  client : Client
  flag : Option Bool
  parsed : client.enable = flag.getD false

structure PanelInbound where
  id : Int
  protocol : Protocol
  nodeId : Option Int
  enable : Bool
  clients : Option (List RawClient)

structure Panel where
  inbounds : Table PanelInbound PanelInbound.id
  records : Records
  links : List ClientInbound
  traffics : List ClientTraffic

structure PushDraws where
  refusal : Option String
  createdAt : Client → Int
  updatedAt : Client → Int
  runtime : Bool

def RawClient.email (e : RawClient) : String := e.client.email

def RawClient.disabled (e : RawClient) : Bool := e.flag == some false

def PanelInbound.getClients (ib : PanelInbound) : List Client := (ib.clients.getD []).map (·.client)

def PanelInbound.local (ib : PanelInbound) : Bool := ib.nodeId.isNone && ib.protocol != .mtproto

def Panel.db (p : Panel) : DB where
  inbounds := p.inbounds.map (fun ib => ⟨ib.id, ib.protocol, ib.nodeId, "", false,
    ib.clients.map fun es => es.map (·.client)⟩) fun _ => rfl
  records := p.records
  links := p.links
  traffics := p.traffics

def Panel.synced (p : Panel) (db : DB) : Panel := { p with records := db.records, links := db.links }

section generated

def enableMap (stats : List ClientTraffic) (email : String) : Option Bool :=
  (stats.reverse.find? (·.email = email)).map (·.enable)

def preloaded (p : Panel) (id : Int) : List ClientTraffic := p.traffics.filter (·.inboundId = id)

def seenKeys (stats : List ClientTraffic) : List String :=
  (stats.filter (·.email ≠ "")).map fun t => Text.toLower t.email

def missing (p : Panel) : List String :=
  p.inbounds.rows.flatMap fun ib =>
    (ib.getClients.filter fun c => c.email ≠ "" ∧
      Text.toLower c.email ∉ seenKeys (preloaded p ib.id)).map (·.email)

def byEmail (p : Panel) (key : String) : Option ClientTraffic :=
  (p.traffics.filter fun t => t.email ∈ missing p).reverse.find? fun t => Text.toLower t.email = key

def backfill (p : Panel) : List Client → List String → List ClientTraffic
  | [], _ => []
  | c :: cs, seen =>
    let key := Text.toLower c.email
    if c.email = "" ∨ key ∈ seen then backfill p cs seen
    else match byEmail p key with
      | none => backfill p cs seen
      | some st => st :: backfill p cs (key :: seen)

def enriched (p : Panel) (ib : PanelInbound) : List ClientTraffic :=
  preloaded p ib.id ++ backfill p ib.getClients (seenKeys (preloaded p ib.id))

def listForInbound (p : Panel) (id : Int) : List ClientRecord :=
  (p.records.rows.insertionSort fun r r' => r.recordId ≤ r'.recordId).flatMap fun r =>
    (p.links.filter fun l => l.clientId = r.recordId ∧ l.inboundId = id).map fun _ => r

def finalClients (p : Panel) (ib : PanelInbound) : List ClientRecord :=
  (listForInbound p ib.id).filter fun r =>
    enableMap (enriched p ib) r.email ≠ some false && r.enable

end generated

def buildRuntimeInbound (p : Panel) (ib : PanelInbound) : Option (List RawClient) :=
  ib.clients.map fun es => es.filter fun e =>
    enableMap (preloaded p ib.id) e.email ≠ some false && !e.disabled

section operations

variable (o : PushDraws) (p : Panel)

structure AddRequest where
  protocol : Protocol
  nodeId : Option Int
  enable : Bool
  clients : Option (List RawClient)
  stats : List ClientTraffic

def stampTimes (e : RawClient) : RawClient where
  client := { e.client with createdAt := o.createdAt e.client, updatedAt := o.updatedAt e.client }
  flag := e.flag
  parsed := e.parsed

def remarshalled (c : Client) : RawClient := ⟨c, some c.enable, rfl⟩

def stampClients (clients : Option (List RawClient)) : Option (List RawClient) :=
  match clients with
  | none | some [] => clients
  | some es => some (es.map fun e => remarshalled (stampTimes o e).client)

def importStat (id : Int) (traffics : List ClientTraffic) (st : ClientTraffic) : List ClientTraffic :=
  if st.email = "" ∨ traffics.any (·.email == st.email) then traffics
  else traffics ++ [{ st with inboundId := id }]

abbrev Pushed := Option (PanelInbound × Option (List RawClient))

def addInbound (req : AddRequest) : Except String (Panel × Pushed) := do
  check o.refusal.isNone (o.refusal.getD "")
  let clients := (req.clients.getD []).map (·.client)
  let existEmail := checkEmailsExist p.db clients []
  check existEmail.isNone ("Duplicate email: " ++ existEmail.getD "" ++ "\n")
  check (clients.all fun c => credential req.protocol c != "") "empty client ID\n"
  let ib : PanelInbound :=
    ⟨p.inbounds.next, req.protocol, req.nodeId, req.enable, stampClients o req.clients⟩
  let inbounds := p.inbounds.insert (fun id => { ib with id }) fun _ => rfl
  let imported := req.stats.foldl (importStat ib.id) p.traffics
  let traffics := clients.foldl (addClientStat ib.id) imported
  let p := { p with inbounds, traffics }
  let db ← syncInbound p.db ib.id clients
  let push := ib.enable && ib.local && o.runtime
  return (p.synced db, if push then some (ib, ib.clients) else none)

def updateStat (email : String) (client : Client) (traffics : List ClientTraffic) :
    List ClientTraffic :=
  traffics.map fun t => if t.email = email then { t with
    enable := client.enable, email := client.email, total := client.totalGB
    expiryTime := client.expiryTime, reset := client.reset } else t

def dropStat (id : Int) (kept : List String) (traffics : List ClientTraffic) (c : Client) :
    List ClientTraffic :=
  if c.email = "" ∨ c.email ∈ kept ∨ emailUsedByOtherInbounds p.db c.email id then traffics
  else delClientStat traffics c.email

def putStat (id : Int) (existed : List String) (traffics : List ClientTraffic) (c : Client) :
    List ClientTraffic :=
  if c.email = "" then traffics
  else if c.email ∈ existed then updateStat c.email c traffics
  else addClientStat id traffics c

def updateClientTraffics (id : Int) (oldClients newClients : List Client) : List ClientTraffic :=
  let dropped := oldClients.foldl (dropStat p id (newClients.map (·.email))) p.traffics
  newClients.foldl (putStat id (oldClients.map (·.email))) dropped

structure UpdateRequest where
  id : Int
  protocol : Protocol
  enable : Bool
  clients : Option (List RawClient)

def updateInbound (req : UpdateRequest) : Except String (Panel × Pushed) := do
  check o.refusal.isNone (o.refusal.getD "")
  let old ← orErr (p.inbounds.find req.id) errNotFound
  let newClients := (req.clients.getD []).map (·.client)
  let traffics := updateClientTraffics p old.id old.getClients newClients
  let ib : PanelInbound :=
    ⟨old.id, req.protocol, old.nodeId, req.enable, req.clients.map fun es => es.map (stampTimes o)⟩
  let pushed := buildRuntimeInbound { p with traffics } ib
  let inbounds := p.inbounds.modify (·.id == old.id) (fun row => { ib with id := row.id }) fun _ => rfl
  let p := { p with inbounds, traffics }
  let db ← syncInbound p.db old.id ib.getClients
  let push := ib.enable && ib.local && o.runtime
  return (p.synced db, if push then some (ib, pushed) else none)

def setInboundEnable (id : Int) (enable : Bool) : Except String (Panel × Pushed) := do
  let old ← orErr (p.inbounds.find id) errNotFound
  if old.enable = enable then return (p, none)
  else
    check o.refusal.isNone (o.refusal.getD "")
    let inbounds := p.inbounds.modify (·.id == id) (fun row => { row with enable }) fun _ => rfl
    let p := { p with inbounds }
    let ib := { old with enable }
    let push := enable && ib.local && o.runtime
    return (p, if push then some (ib, buildRuntimeInbound p ib) else none)

inductive PanelOp
  | addInbound (req : AddRequest)
  | updateInbound (req : UpdateRequest)
  | setInboundEnable (id : Int) (enable : Bool)

def PanelOp.run : PanelOp → Except String (Panel × Pushed)
  | .addInbound req => RuntimePush.addInbound o p req
  | .updateInbound req => RuntimePush.updateInbound o p req
  | .setInboundEnable id enable => RuntimePush.setInboundEnable o p id enable

end operations

def Attached (p : Panel) (id : Int) (email : String) : Prop :=
  ∃ r ∈ listForInbound p id, r.email = email ∧ r.enable = true

def Depleted (p : Panel) (email : String) : Prop :=
  ∃ t ∈ p.traffics, t.email = email ∧ t.enable = false

def HomeDisabled (p : Panel) (id : Int) (email : String) : Prop :=
  enableMap (preloaded p id) email = some false

def Marked (p : Panel) (ib : PanelInbound) (email : String) : Prop :=
  enableMap (enriched p ib) email = some false

def PushAgrees (p : Panel) (ib : PanelInbound) (pushed : Option (List RawClient)) : Prop :=
  ∀ email,
    (email ∈ (pushed.getD []).map (·.email) ↔ email ∈ (finalClients p ib).map (·.email)) ∧
    (email ∈ (finalClients p ib).map (·.email) ↔ Attached p ib.id email ∧ ¬ Depleted p email)

structure AllLive (p : Panel) (ib : PanelInbound) : Prop where
  attached : ∀ e ∈ ib.clients.getD [], Attached p ib.id e.email
  undepleted : ∀ e ∈ ib.clients.getD [], ¬ Depleted p e.email

structure InStep (p : Panel) (ib : PanelInbound) : Prop where
  attached : ∀ e ∈ ib.clients.getD [], e.disabled = false → ¬ HomeDisabled p ib.id e.email →
    Attached p ib.id e.email
  home : ∀ e ∈ ib.clients.getD [], e.disabled = false → Depleted p e.email →
    HomeDisabled p ib.id e.email
  covered : ∀ email, Attached p ib.id email → ¬ Marked p ib email →
    ∃ e ∈ ib.clients.getD [], e.email = email ∧ e.disabled = false

def PanelOp.Fits (p : Panel) (ib : PanelInbound) : PanelOp → Prop
  | .addInbound _ => AllLive p ib
  | _ => InStep p ib

section stats

variable {p : Panel} {ib : PanelInbound} {stats extra : List ClientTraffic} {email : String}

theorem enableMap_mem {b : Bool} (h : enableMap stats email = some b) :
    ∃ t ∈ stats, t.email = email ∧ t.enable = b := by
  obtain ⟨t, hfind, henable⟩ := Option.map_eq_some_iff.mp h
  have hmem := mem_of_find?_eq_some hfind
  have hemail := find?_some hfind
  exact ⟨t, mem_reverse.mp hmem, by simpa using hemail, henable⟩

theorem enableMap_append (h : ∀ t ∈ extra, t.email ≠ email) :
    enableMap (stats ++ extra) email = enableMap stats email := by
  have hnone : extra.reverse.find? (·.email = email) = none := by
    rw [find?_eq_none]
    intro t ht
    simpa using h t (mem_reverse.mp ht)
  rw [enableMap, reverse_append, find?_append, hnone, Option.none_or, enableMap]

theorem mem_backfill {cs : List Client} {seen : List String} {t : ClientTraffic}
    (h : t ∈ backfill p cs seen) :
    t ∈ p.traffics ∧ Text.toLower t.email ∉ seen ∧ t.email ≠ "" := by
  induction cs generalizing seen with
  | nil => exact absurd h not_mem_nil
  | cons c cs ih =>
    simp only [backfill] at h
    split at h
    case isTrue => exact ih h
    case isFalse hkey =>
      obtain ⟨hnamed, hseen⟩ := not_or.mp hkey
      split at h
      case h_1 => exact ih h
      case h_2 st hfind =>
        rcases mem_cons.mp h with rfl | hrest
        · have hmem := mem_reverse.mp (mem_of_find?_eq_some hfind)
          have hlower : Text.toLower t.email = Text.toLower c.email := by
            simpa using find?_some hfind
          refine ⟨mem_of_mem_filter hmem, hlower ▸ hseen, ?_⟩
          intro hblank
          rw [hblank] at hlower
          exact toLower_ne hnamed hlower.symm
        · obtain ⟨hmem, hout, hne⟩ := ih hrest
          exact ⟨hmem, fun hin => hout (mem_cons_of_mem _ hin), hne⟩

theorem Marked.depleted (h : Marked p ib email) : Depleted p email := by
  obtain ⟨t, ht, hemail, henable⟩ := enableMap_mem h
  rcases mem_append.mp ht with hhome | hextra
  · exact ⟨t, mem_of_mem_filter hhome, hemail, henable⟩
  · exact ⟨t, (mem_backfill hextra).1, hemail, henable⟩

theorem HomeDisabled.marked (h : HomeDisabled p ib.id email) : Marked p ib email := by
  obtain ⟨t, ht, hemail, -⟩ := enableMap_mem h
  have hextra : ∀ t' ∈ backfill p ib.getClients (seenKeys (preloaded p ib.id)), t'.email ≠ email := by
    intro t' ht' he
    obtain ⟨-, hout, hne⟩ := mem_backfill ht'
    apply hout
    have hkept : t ∈ (preloaded p ib.id).filter (·.email ≠ "") :=
      mem_filter.mpr ⟨ht, by simpa [hemail, ← he] using hne⟩
    exact mem_map.mpr ⟨t, hkept, by rw [hemail, he]⟩
  rw [Marked, enriched, enableMap_append hextra]
  exact h

theorem mem_finalClients : email ∈ (finalClients p ib).map (·.email) ↔
    Attached p ib.id email ∧ ¬ Marked p ib email := by
  simp only [finalClients, mem_map, mem_filter, Bool.and_eq_true, decide_eq_true_eq]
  constructor
  · rintro ⟨r, ⟨hr, hmark, henable⟩, rfl⟩
    exact ⟨⟨r, hr, rfl, henable⟩, hmark⟩
  · rintro ⟨⟨r, hr, rfl, henable⟩, hmark⟩
    exact ⟨r, ⟨hr, hmark, henable⟩, rfl⟩

theorem mem_buildRuntimeInbound : email ∈ ((buildRuntimeInbound p ib).getD []).map (·.email) ↔
    (∃ e ∈ ib.clients.getD [], e.email = email ∧ e.disabled = false) ∧
      ¬ HomeDisabled p ib.id email := by
  have hgetD : (buildRuntimeInbound p ib).getD [] = (ib.clients.getD []).filter fun e =>
      enableMap (preloaded p ib.id) e.email ≠ some false && !e.disabled := by
    rw [buildRuntimeInbound]
    cases ib.clients <;> rfl
  rw [hgetD]
  simp only [mem_map, mem_filter, Bool.and_eq_true, decide_eq_true_eq, Bool.not_eq_true']
  constructor
  · rintro ⟨e, ⟨he, hhome, henable⟩, rfl⟩
    exact ⟨⟨e, he, rfl, henable⟩, hhome⟩
  · rintro ⟨⟨e, he, rfl, henable⟩, hhome⟩
    exact ⟨e, ⟨he, hhome, henable⟩, rfl⟩

theorem agrees_filtered : PushAgrees p ib (buildRuntimeInbound p ib) ↔ InStep p ib := by
  simp only [PushAgrees, mem_finalClients, mem_buildRuntimeInbound]
  constructor
  · intro h
    refine ⟨?_, ?_, ?_⟩
    · intro e he henable hhome
      exact ((h e.email).1.mp ⟨⟨e, he, rfl, henable⟩, hhome⟩).1
    · intro e he henable hdepleted
      by_contra hhome
      have hlisted := (h e.email).1.mp ⟨⟨e, he, rfl, henable⟩, hhome⟩
      exact ((h e.email).2.mp hlisted).2 hdepleted
    · intro email hattached hmark
      exact ((h email).1.mpr ⟨hattached, hmark⟩).1
  · intro h email
    have hlive : Attached p ib.id email ∧ ¬ Marked p ib email →
        (∃ e ∈ ib.clients.getD [], e.email = email ∧ e.disabled = false) ∧ ¬ Depleted p email := by
      rintro ⟨hattached, hmark⟩
      obtain ⟨e, he, rfl, henable⟩ := h.covered email hattached hmark
      exact ⟨⟨e, he, rfl, henable⟩, fun hdepleted => hmark (h.home e he henable hdepleted).marked⟩
    refine ⟨⟨?_, ?_⟩, ⟨?_, ?_⟩⟩
    · rintro ⟨⟨e, he, rfl, henable⟩, hhome⟩
      exact ⟨h.attached e he henable hhome, fun hmark => hhome (h.home e he henable hmark.depleted)⟩
    · intro hlisted
      exact ⟨(hlive hlisted).1, fun hhome => hlisted.2 hhome.marked⟩
    · intro hlisted
      exact ⟨hlisted.1, (hlive hlisted).2⟩
    · rintro ⟨hattached, hdepleted⟩
      exact ⟨hattached, fun hmark => hdepleted hmark.depleted⟩

theorem agrees_unfiltered (hnamed : ∀ email, Attached p ib.id email →
      ∃ e ∈ ib.clients.getD [], Text.trimSpace e.email = email) :
    PushAgrees p ib ib.clients ↔ AllLive p ib := by
  simp only [PushAgrees, mem_finalClients]
  constructor
  · intro h
    have hlive : ∀ e ∈ ib.clients.getD [], Attached p ib.id e.email ∧ ¬ Depleted p e.email := by
      intro e he
      exact (h e.email).2.mp ((h e.email).1.mp (mem_map_of_mem he))
    exact ⟨fun e he => (hlive e he).1, fun e he => (hlive e he).2⟩
  · intro h email
    have hpushed : Attached p ib.id email → email ∈ (ib.clients.getD []).map (·.email) := by
      intro hattached
      obtain ⟨e, he, htrim⟩ := hnamed email hattached
      obtain ⟨e', -, htrim'⟩ := hnamed e.email (h.attached e he)
      have hedged : Text.trimSpace e.email = e.email := by
        rw [← htrim']
        exact Text.trimSpace_of_edged (Text.edged_trimSpace _)
      rw [← htrim, hedged]
      exact mem_map_of_mem he
    have hlive : email ∈ (ib.clients.getD []).map (·.email) →
        Attached p ib.id email ∧ ¬ Depleted p email := by
      intro hmem
      obtain ⟨e, he, rfl⟩ := mem_map.mp hmem
      exact ⟨h.attached e he, h.undepleted e he⟩
    refine ⟨⟨?_, ?_⟩, ⟨?_, ?_⟩⟩
    · intro hmem
      obtain ⟨hattached, hdepleted⟩ := hlive hmem
      exact ⟨hattached, fun hmark => hdepleted hmark.depleted⟩
    · rintro ⟨hattached, -⟩
      exact hpushed hattached
    · rintro ⟨hattached, -⟩
      exact hlive (hpushed hattached)
    · rintro ⟨hattached, hdepleted⟩
      exact ⟨hattached, fun hmark => hdepleted hmark.depleted⟩

end stats

section operations

variable {o : PushDraws} {p p' : Panel} {ib : PanelInbound} {pushed : Option (List RawClient)}
  {db db' : DB} {cs : List Client} {i : Int}

theorem mem_linkClients {t : Records} {linked : List Int} {l : ClientInbound}
    (h : l ∈ linkClients t i cs linked) :
    ∃ c ∈ cs, ∃ r ∈ t.rows, r.recordId = l.clientId ∧ r.email = Text.trimSpace c.email := by
  induction cs generalizing linked with
  | nil => exact absurd h not_mem_nil
  | cons c cs ih =>
    simp only [linkClients] at h
    split at h
    case h_1 =>
      obtain ⟨c', hc', hr⟩ := ih h
      exact ⟨c', mem_cons_of_mem _ hc', hr⟩
    case h_2 r hfind =>
      split at h
      case isTrue =>
        obtain ⟨c', hc', hr⟩ := ih h
        exact ⟨c', mem_cons_of_mem _ hc', hr⟩
      case isFalse =>
        rcases mem_cons.mp h with rfl | hrest
        · have hemail := find?_some hfind
          exact ⟨c, mem_cons_self, r, mem_of_find?_eq_some hfind, rfl, by simpa using hemail⟩
        · obtain ⟨c', hc', hr⟩ := ih hrest
          exact ⟨c', mem_cons_of_mem _ hc', hr⟩

theorem mem_listForInbound {id : Int} {r : ClientRecord} : r ∈ listForInbound p id ↔
    r ∈ p.records.rows ∧ ∃ l ∈ p.links, l.clientId = r.recordId ∧ l.inboundId = id := by
  simp only [listForInbound, mem_flatMap, mem_insertionSort, mem_map, mem_filter,
    decide_eq_true_eq]
  constructor
  · rintro ⟨r', hr', l, ⟨hl, hkey⟩, rfl⟩
    exact ⟨hr', l, hl, hkey⟩
  · rintro ⟨hr, l, hl, hkey⟩
    exact ⟨r, hr, l, ⟨hl, hkey⟩, rfl⟩

theorem synced_named (h : syncInbound db i cs = .ok db') {email : String}
    (hattached : Attached (p.synced db') i email) : ∃ c ∈ cs, Text.trimSpace c.email = email := by
  simp only [syncInbound, bind_ok] at h
  obtain ⟨records, -, h⟩ := h
  cases h
  obtain ⟨r, hr, rfl, -⟩ := hattached
  obtain ⟨hrow, l, hl, hclient, hinbound⟩ := mem_listForInbound.mp hr
  rcases mem_append.mp hl with hold | hnew
  · exact absurd hinbound (by simpa using (mem_filter.mp hold).2)
  · obtain ⟨c, hc, r', hr', hkey, hemail⟩ := mem_linkClients hnew
    obtain rfl := Table.eq_of_key hr' hrow (hkey.trans hclient)
    exact ⟨c, (mem_filter.mp hc).1, hemail.symm⟩

theorem stampClients_emails (clients : Option (List RawClient)) :
    ((stampClients o clients).getD []).map (·.email) = (clients.getD []).map (·.email) := by
  cases clients with
  | none => rfl
  | some es =>
    cases es with
    | nil => rfl
    | cons e es =>
      simp only [stampClients, Option.getD_some, map_map]
      rfl

theorem push_agrees_iff {op : PanelOp} (h : op.run o p = .ok (p', some (ib, pushed))) :
    PushAgrees p' ib pushed ↔ op.Fits p' ib := by
  cases op with
  | addInbound req =>
    simp only [PanelOp.run, addInbound, bind_ok] at h
    obtain ⟨_, -, _, -, _, -, db, hsync, h⟩ := h
    split at h
    case isFalse => cases h
    case isTrue =>
      cases h
      apply agrees_unfiltered
      intro email hattached
      obtain ⟨c, hc, htrim⟩ := synced_named hsync hattached
      obtain ⟨e, he, rfl⟩ := mem_map.mp hc
      have hmem : e.email ∈ ((stampClients o req.clients).getD []).map (·.email) := by
        rw [stampClients_emails]
        exact mem_map_of_mem he
      obtain ⟨e', he', hemail⟩ := mem_map.mp hmem
      exact ⟨e', he', by rw [hemail]; exact htrim⟩
  | updateInbound req =>
    simp only [PanelOp.run, updateInbound, bind_ok, orErr_ok] at h
    obtain ⟨_, -, old, -, db, hsync, h⟩ := h
    split at h
    case isFalse => cases h
    case isTrue =>
      cases h
      exact agrees_filtered
  | setInboundEnable id enable =>
    simp only [PanelOp.run, setInboundEnable, bind_ok, orErr_ok] at h
    obtain ⟨old, -, h⟩ := h
    split at h
    case isTrue => cases h
    case isFalse =>
      simp only [bind_ok] at h
      obtain ⟨_, -, h⟩ := h
      split at h
      case isFalse => cases h
      case isTrue =>
        cases h
        exact agrees_filtered

end operations

def openPanel : PushDraws := ⟨none, fun _ => 0, fun _ => 0, true⟩

def noPanel : Panel := ⟨.empty, .empty, [], []⟩

def bob (enable : Bool) : Client :=
  ⟨"id-bob", "", "", "", none, "", "bob", 0, 0, 0, enable, 0, "sub-bob", "", "", 0, 0, 0⟩

def disabledImport : PanelOp :=
  .addInbound ⟨.vless, none, true, some [remarshalled (bob false)], []⟩

def depletedPanel : Panel where
  inbounds := (Table.empty.insert (fun id => ⟨id, .vless, none, true, some [remarshalled (bob false)]⟩)
    fun _ => rfl).insert (fun id => ⟨id, .vless, none, true, some []⟩) fun _ => rfl
  records := Table.empty.insert (fun recordId => { bob false with recordId, ownerId := 0, tenantId := 0 })
    fun _ => rfl
  links := [⟨1, 1, ""⟩]
  traffics := [⟨1, "bob", 0, 0, 0, 0, false, 0⟩]

def bobRecord (recordId : Int) : ClientRecord :=
  { bob true with recordId, ownerId := 0, tenantId := 0 }

def livePanel (enable : Bool) : Panel where
  inbounds := Table.empty.insert (fun id => ⟨id, .vless, none, enable, some [remarshalled (bob true)]⟩)
    fun _ => rfl
  records := Table.empty.insert bobRecord fun _ => rfl
  links := [⟨1, 1, ""⟩]
  traffics := [⟨1, "bob", 0, 0, 0, 0, true, 0⟩]

def sharedUpdate : PanelOp := .updateInbound ⟨2, .vless, true, some [remarshalled (bob true)]⟩

def pushedOnly (email : String) (r : Except String (Panel × Pushed)) : Bool :=
  match r with
  | .ok (p, some (ib, pushed)) =>
    decide (email ∈ (pushed.getD []).map (·.email)) &&
      !decide (email ∈ (finalClients p ib).map (·.email))
  | _ => false

theorem disagrees {r : Except String (Panel × Pushed)} {email : String} (h : pushedOnly email r = true) :
    ∃ p ib pushed, r = .ok (p, some (ib, pushed)) ∧ ¬ PushAgrees p ib pushed := by
  simp only [pushedOnly] at h
  split at h
  case h_1 p ib pushed =>
    simp only [Bool.and_eq_true, decide_eq_true_eq, Bool.not_eq_true', decide_eq_false_iff_not] at h
    exact ⟨p, ib, pushed, rfl, fun hagrees => h.2 ((hagrees email).1.mp h.1)⟩
  case h_2 => cases h

theorem push_disagrees :
    (∃ p ib pushed, disabledImport.run openPanel noPanel = .ok (p, some (ib, pushed)) ∧
      ¬ PushAgrees p ib pushed) ∧
    ∃ p ib pushed, sharedUpdate.run openPanel depletedPanel = .ok (p, some (ib, pushed)) ∧
      ¬ PushAgrees p ib pushed := by
  have himport : pushedOnly "bob" (disabledImport.run openPanel noPanel) = true := by decide +kernel
  have hupdate : pushedOnly "bob" (sharedUpdate.run openPanel depletedPanel) = true := by decide +kernel
  exact ⟨disagrees himport, disagrees hupdate⟩

theorem push_agrees_iff_reenabled :
    ∃ p ib pushed, (PanelOp.setInboundEnable 1 true).run openPanel (livePanel false) =
      .ok (p, some (ib, pushed)) ∧ PushAgrees p ib pushed := by
  have hstep : ∃ p ib pushed, (PanelOp.setInboundEnable 1 true).run openPanel (livePanel false) =
      .ok (p, some (ib, pushed)) ∧ InStep p ib := by
    refine ⟨_, _, _, rfl, ?_, ?_, ?_⟩
    · intro e he _ _
      obtain rfl := mem_singleton.mp he
      exact ⟨bobRecord 1, mem_listForInbound.mpr
        ⟨mem_singleton_self _, ⟨1, 1, ""⟩, mem_singleton_self _, rfl, rfl⟩, rfl, rfl⟩
    · rintro e he _ ⟨t, ht, -, henable⟩
      obtain rfl := mem_singleton.mp ht
      cases henable
    · rintro email ⟨r, hr, rfl, -⟩ _
      obtain rfl := mem_singleton.mp (mem_listForInbound.mp hr).1
      exact ⟨remarshalled (bob true), mem_singleton_self _, rfl, rfl⟩
  obtain ⟨p, ib, pushed, hrun, hfits⟩ := hstep
  exact ⟨p, ib, pushed, hrun, (push_agrees_iff hrun).mpr hfits⟩

end RuntimePush

end QuiPanel
