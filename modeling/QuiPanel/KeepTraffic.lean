import QuiPanel.GlobalUsage
import QuiPanel.BulkAdjust
import QuiPanel.Library.Sweep

namespace QuiPanel

namespace KeepTraffic

open Keyed Outcome Clients Sweep List
open GlobalUsage (ClientGlobalTraffic NodeClientTraffic clearGlobalTraffic)
open BulkAdjust (cleanEmails wanted mappedInbounds)

structure InboundClientIps where
  clientEmail : String
  ips : String

structure ClientExternalLink where
  clientId : Int
  kind : String
  value : String
  remark : String

structure Store extends DB where
  globals : List ClientGlobalTraffic
  ips : List InboundClientIps
  baselines : List NodeClientTraffic
  externalLinks : List ClientExternalLink

structure RemovalFaults where
  load : Option String
  shared : Option String
  lookup : Option String
  ips : Option String
  traffics : Option String
  globals : Option String
  baselines : Option String
  plan : Option String
  write : Option String

structure FinishFaults where
  links : Option String
  externalLinks : Option String
  traffics : Option String
  globals : Option String
  ips : Option String
  records : Option String

structure Faults where
  read : Option String
  removal : Nat → RemovalFaults
  finish : FinishFaults

structure BulkFaults where
  order : List Int → List Int
  order_perm : ∀ ids, (order ids).Perm ids
  read : Option String
  removal : Int → RemovalFaults
  finish : FinishFaults

section tables

variable (f : RemovalFaults) (s : Store)

def delClientIPsByEmails (emails : List String) : Store × Except String Unit :=
  exec f.ips s { s with ips := s.ips.filter fun row => !emails.contains row.clientEmail }

def delClientIPs (email : String) : Store × Except String Unit := delClientIPsByEmails f s [email]

def delClientStatsByEmails (emails : List String) : Store × Except String Unit :=
  andThen (exec f.traffics s
    { s with traffics := s.traffics.filter fun row => !emails.contains row.email }) fun s _ =>
  andThen (exec f.globals s { s with globals := clearGlobalTraffic s.globals emails }) fun s _ =>
  exec f.baselines s { s with baselines := s.baselines.filter fun row => !emails.contains row.email }

def delClientStat (email : String) : Store × Except String Unit := delClientStatsByEmails f s [email]

def getClientTrafficByEmail (email : String) : Except String (Option ClientTraffic) := do
  check f.lookup.isNone (f.lookup.getD "")
  match s.traffics.find? (·.email = email) with
  | none => return none
  | some traffic =>
    if s.recorded email then return some traffic
    else
      let inbound ← orErr (s.inbounds.find traffic.inboundId) errNotFound
      check ((inbound.clients.getD []).any (·.email == email)) "Client Not Found In Inbound For Email:"
      return some traffic

def purgeClient (email : String) : Store × Except String Unit :=
  andThen (delClientIPs f s email) fun s _ =>
  if email = "" then (s, .ok ())
  else
    match getClientTrafficByEmail f s email with
    | .error err => (s, .error err)
    | .ok none => (s, .ok ())
    | .ok (some _) => delClientStat f s email

def saveInbound (inboundId : Int) (clients : List Client) : Store × Except String Bool :=
  match f.write with
  | some err => (s, .error err)
  | none =>
    let saved := saveClients s.toDB inboundId clients
    match syncInbound saved inboundId clients with
    | .error err => ({ s with toDB := saved }, .error err)
    | .ok db => ({ s with toDB := db }, .ok true)

def delInboundClientByEmail (inboundId : Int) (email : String) (keepTraffic : Bool) :
    Store × Except String Bool :=
  match f.load, s.inbounds.find inboundId with
  | some err, _ => (s, .error err)
  | none, none => (s, .error errNotFound)
  | none, some oldInbound =>
    match oldInbound.clients with
    | none => (s, .error "invalid clients format in inbound settings\n")
    | some clients =>
      if !clients.any (·.email == email) then (s, .ok false)
      else
        let needApiDel := ((clients.filter (·.email == email)).getLast?).any (·.enable)
        let newClients := compactOrphans s.toDB (clients.filter (·.email != email))
        match f.shared with
        | some err => (s, .error err)
        | none =>
          let emailShared := emailUsedByOtherInbounds s.toDB email inboundId
          let pushed := email ≠ "" ∧ !emailShared ∧ (oldInbound.nodeId.isSome ∨ needApiDel)
          andThen (if !emailShared ∧ !keepTraffic then purgeClient f s email else (s, .ok ())) fun s _ =>
          andThen (exec (if pushed then f.plan else none) s s) fun s _ =>
          saveInbound f s inboundId newClients

end tables

section single

def delFromInbounds (f : Nat → RemovalFaults) (email : String) :
    Nat → Store → List Int → Store × Except String Unit
  | _, s, [] => (s, .ok ())
  | k, s, ibId :: ids =>
    match (f k).load with
    | some err => (s, .error err)
    | none =>
      if (s.inbounds.find ibId).isNone ∨ email = "" then delFromInbounds f email (k + 1) s ids
      else
        andThen (delInboundClientByEmail (f k) s ibId email false) fun s _ =>
        delFromInbounds f email (k + 1) s ids

def forgetUsage (f : FinishFaults) (s : Store) (email : String) : Store × Except String Unit :=
  andThen (exec f.traffics s { s with traffics := s.traffics.filter (·.email != email) }) fun s _ =>
  andThen (exec f.globals s { s with globals := clearGlobalTraffic s.globals [email] }) fun s _ =>
  exec f.ips s { s with ips := s.ips.filter (·.clientEmail != email) }

def delete (f : Faults) (s : Store) (id : Int) (keepTraffic : Bool) : Store × Except String Unit :=
  match f.read, s.records.find id with
  | some err, _ => (s, .error err)
  | none, none => (s, .error errNotFound)
  | none, some existing =>
    andThen (delFromInbounds f.removal existing.email 0 s (s.inboundIdsOf id)) fun s _ =>
    andThen (exec f.finish.links s { s with links := s.links.filter (·.clientId != id) }) fun s _ =>
    andThen (exec f.finish.externalLinks s
      { s with externalLinks := s.externalLinks.filter (·.clientId != id) }) fun s _ =>
    andThen (if !keepTraffic ∧ existing.email ≠ "" then forgetUsage f.finish s existing.email
      else (s, .ok ())) fun s _ =>
    exec f.finish.records s { s with records := s.records.delete (·.recordId == id) }

def findInboundIdsByClientEmail (s : Store) (email : String) : List Int :=
  (s.inbounds.rows.filter fun ib => (ib.clients.getD []).any (·.email == email)).map (·.id)

def deleteByEmail (f : Faults) (s : Store) (email : String) (keepTraffic : Bool) : Store × Except String Unit :=
  if email = "" then (s, .error "client email is required\n")
  else
    match f.read, s.record email with
    | some err, _ => (s, .error err)
    | none, some rec => delete f s rec.recordId keepTraffic
    | none, none =>
      let inboundIds := findInboundIdsByClientEmail s email
      if inboundIds = [] then (s, .error ("client \"" ++ email ++ "\" not found in any inbound or client record\n"))
      else
        andThen (delFromInbounds f.removal email 0 s inboundIds) fun s _ =>
        if !keepTraffic then forgetUsage f.finish s email else (s, .ok ())

end single

section bulk

def sharedKey (email : String) : String := Text.toLower (Text.trimSpace email)

def emailsUsedByOtherInbounds (db : DB) (emails : List String) (exceptInboundId : Int) : List String :=
  let want := (emails.map sharedKey).filter (· ≠ "")
  let others := db.inbounds.rows.filter (·.id != exceptInboundId)
  (others.flatMap fun ib => (ib.clients.getD []).map (sharedKey ·.email)).filter want.contains

def unshared (db : DB) (emails : List String) (exceptInboundId : Int) : List String :=
  let sharedSet := emailsUsedByOtherInbounds db emails exceptInboundId
  emails.filter fun email => !sharedSet.contains (sharedKey email)

def present (clients : List Client) (emails : List String) : List String :=
  emails.filter fun email => clients.any (·.email == email)

structure BulkRun where
  store : Store
  skipped : List (String × String)

def BulkRun.skip (run : BulkRun) (emails : List String) (err : String) : BulkRun :=
  { run with skipped := run.skipped ++ emails.map (·, err) }

def purgeClients (f : RemovalFaults) (s : Store) (emails : List String) : Store × Except String Unit :=
  if emails = [] then (s, .ok ())
  else andThen (delClientIPsByEmails f s emails) fun s _ => delClientStatsByEmails f s emails

def replaceInbound (f : RemovalFaults) (s : Store) (inboundId : Int) (clients : List Client) :
    Except String Store := do
  check f.write.isNone (f.write.getD "")
  let db ← syncInbound (saveClients s.toDB inboundId clients) inboundId clients
  return { s with toDB := db }

def settle (f : RemovalFaults) (run : BulkRun) (oldInbound : Inbound) (found : List String)
    (newClients : List Client) : BulkRun :=
  let perr := if oldInbound.nodeId.isSome then f.plan else none
  let run := perr.elim run (run.skip found)
  match replaceInbound f run.store oldInbound.id newClients with
  | .error err => run.skip (if perr.isSome then [] else found) err
  | .ok store => { run with store }

def bulkDelInboundClients (f : RemovalFaults) (run : BulkRun) (inboundId : Int) (emails : List String)
    (keepTraffic : Bool) : BulkRun :=
  match f.load, run.store.inbounds.find inboundId with
  | some err, _ => run.skip emails err
  | none, none => run.skip emails errNotFound
  | none, some oldInbound =>
    let clients := oldInbound.clients.getD []
    let found := present clients emails
    let run := run.skip (emails.filter fun email => !clients.any (·.email == email)) "Client Not Found In Inbound"
    let newClients := compactOrphans run.store.toDB (clients.filter fun c => !emails.contains c.email)
    match if keepTraffic then none else f.shared with
    | some err => run.skip found err
    | none =>
      let purge := if keepTraffic then [] else unshared run.store.toDB found inboundId
      match purgeClients f run.store purge with
      | (store, .error err) =>
        settle f ({ run with store }.skip purge err) oldInbound (found.filter fun email => !purge.contains email)
          newClients
      | (store, .ok ()) => settle f { run with store } oldInbound found newClients

structure BulkDeleteResult where
  deleted : Nat
  skipped : List (String × String)

def removals (f : BulkFaults) (s : Store) (recorded : List String) (notFound : List (String × String)) : BulkRun :=
  (f.order (mappedInbounds s.toDB recorded)).foldl
    (fun run i => bulkDelInboundClients (f.removal i) run i (wanted s.toDB recorded i) false) ⟨s, notFound⟩

def eraseClients (f : FinishFaults) (s : Store) (emails : List String) (ids : List Int) (keepTraffic : Bool) :
    Store × Except String Unit :=
  andThen (exec f.links s { s with links := s.links.filter fun l => !ids.contains l.clientId }) fun s _ =>
  andThen (if keepTraffic then (s, .ok ()) else
    andThen (exec f.traffics s
      { s with traffics := s.traffics.filter fun row => !emails.contains row.email }) fun s _ =>
    exec f.ips s { s with ips := s.ips.filter fun row => !emails.contains row.clientEmail }) fun s _ =>
  exec f.records s { s with records := s.records.delete fun r => ids.contains r.recordId }

def bulkDelete (f : BulkFaults) (s : Store) (emails : List String) (keepTraffic : Bool) :
    Store × Except String BulkDeleteResult :=
  let cleanEmails := cleanEmails emails
  if cleanEmails = [] then (s, .ok ⟨0, []⟩)
  else
    match f.read with
    | some err => (s, .error err)
    | none =>
      let recorded := cleanEmails.filter s.recorded
      let notFound := (cleanEmails.filter fun email => !s.recorded email).map (·, "client not found")
      let run := removals f s recorded notFound
      let successEmails := recorded.filter fun email => !run.skipped.any (·.1 == email)
      let successIds := successEmails.filterMap fun email => (s.record email).map (·.recordId)
      let reports := cleanEmails.filterMap fun email => run.skipped.find? (·.1 = email)
      andThen (if successIds = [] then (run.store, .ok ())
        else eraseClients f.finish run.store successEmails successIds keepTraffic) fun s _ =>
      (s, .ok ⟨successEmails.length, reports⟩)

end bulk

section rows

structure Rows where
  traffics : List ClientTraffic
  globals : List ClientGlobalTraffic
  ips : List InboundClientIps
  baselines : List NodeClientTraffic

def Store.rowsOf (s : Store) (email : String) : Rows where
  traffics := s.traffics.filter (·.email == email)
  globals := s.globals.filter (·.email == email)
  ips := s.ips.filter (·.clientEmail == email)
  baselines := s.baselines.filter (·.email == email)

def Rows.usage (r : Rows) : List ClientTraffic × List ClientGlobalTraffic × List InboundClientIps :=
  (r.traffics, r.globals, r.ips)

def Rows.none : Rows := ⟨[], [], [], []⟩

def Rows.purged (r : Rows) : Rows := if r.traffics.isEmpty then { r with ips := [] } else Rows.none

def Honoured (keepTraffic : Bool) (before after : Rows) : Prop :=
  if keepTraffic then after.usage = before.usage else after.usage = ([], [], [])

def cut (recorded : String → Bool) (emails : List String) (cs : List Client) : List Client :=
  (cs.filter fun c => !emails.contains c.email).filter fun c => c.email == "" || recorded c.email

def Holds (email : String) (c : Int → List Client) (i : Int) : Prop := ∃ x ∈ c i, x.email = email

def Elsewhere (key : String → String) (email : String) (c : Int → List Client) (i : Int) : Prop :=
  ∃ j ≠ i, ∃ x ∈ c j, key x.email = key email

def removed (recorded : String → Bool) (email : String) (_ : Int) (cs : List Client) : List Client :=
  if cs.any (·.email == email) then cut recorded [email] cs else cs

def AlwaysShared (s : Store) (email : String) (ids : List Int) : Prop :=
  Throughout (removed s.recorded email) (fun c i => Holds email c i → Elsewhere Text.toLower email c i)
    s.settingsClients ids

def Settled (recorded : String → Bool) (cs : List Client) : Prop :=
  ∀ c ∈ cs, Text.trimSpace c.email = "" ∨ recorded (Text.trimSpace c.email)

instance (recorded : String → Bool) (cs : List Client) : Decidable (Settled recorded cs) :=
  inferInstanceAs (Decidable (∀ _ ∈ cs, _))

def bulkRemoved (f : Int → RemovalFaults) (s : Store) (emails : Int → List String) (i : Int) (cs : List Client) :
    List Client :=
  if ((f i).load = none ∧ (f i).shared = none ∧ (f i).write = none ∧ (s.inbounds.find i).isSome) ∧
      Settled s.recorded (cut s.recorded (emails i) cs) then
    cut s.recorded (emails i) cs
  else cs

def AlwaysSharedInBulk (f : BulkFaults) (s : Store) (emails : List String) (email : String) : Prop :=
  let recorded := (cleanEmails emails).filter s.recorded
  Throughout (bulkRemoved f.removal s (wanted s.toDB recorded))
    (fun c i => email ∈ wanted s.toDB recorded i → Holds email c i → Elsewhere sharedKey email c i)
    s.settingsClients (f.order (mappedInbounds s.toDB recorded))

variable {s s' : Store} {email e : String} {emails : List String} {f : RemovalFaults} {r : Rows}

theorem purged_twice (r : Rows) : r.purged.purged = r.purged := by
  cases h : r.traffics.isEmpty with
  | true => simp [Rows.purged, h]
  | false => simp [Rows.purged, h, Rows.none]

theorem filter_dropped {α : Type} {key : α → String} {xs : List α} (he : e ∈ emails) :
    (xs.filter fun x => !emails.contains (key x)).filter (key · == e) = [] := by
  rw [filter_eq_nil_iff]
  rintro x hx heq
  obtain ⟨-, hkept⟩ := mem_filter.mp hx
  rw [beq_iff_eq.mp heq] at hkept
  simp [he] at hkept

theorem filter_kept {α : Type} {key : α → String} {xs : List α} (he : e ∉ emails) :
    (xs.filter fun x => !emails.contains (key x)).filter (key · == e) = xs.filter (key · == e) := by
  rw [filter_filter]
  refine filter_congr fun x _ => ?_
  cases h : key x == e with
  | false => rfl
  | true =>
    rw [beq_iff_eq.mp h]
    simp [he]

structure OnlyRows (s s' : Store) : Prop where
  inbounds : s'.inbounds = s.inbounds
  records : s'.records = s.records
  links : s'.links = s.links
  externalLinks : s'.externalLinks = s.externalLinks

theorem OnlyRows.refl (s : Store) : OnlyRows s s := ⟨rfl, rfl, rfl, rfl⟩

theorem OnlyRows.trans {mid : Store} (h : OnlyRows s mid) (h' : OnlyRows mid s') : OnlyRows s s' :=
  ⟨h'.inbounds.trans h.inbounds, h'.records.trans h.records, h'.links.trans h.links,
    h'.externalLinks.trans h.externalLinks⟩

theorem OnlyRows.content (h : OnlyRows s s') : s'.settingsClients = s.settingsClients := by
  funext i
  rw [DB.settingsClients, DB.settingsClients, DB.clientsOf, DB.clientsOf, h.inbounds]

theorem OnlyRows.recorded (h : OnlyRows s s') : s'.recorded = s.recorded := by
  funext m
  rw [DB.recorded, DB.recorded, h.records]

theorem delClientIPs_only : OnlyRows s (delClientIPsByEmails f s emails).1 := by
  rw [delClientIPsByEmails]
  cases f.ips <;> exact ⟨rfl, rfl, rfl, rfl⟩

theorem delClientStats_only : OnlyRows s (delClientStatsByEmails f s emails).1 := by
  rw [delClientStatsByEmails]
  cases f.traffics <;> cases f.globals <;> cases f.baselines <;> exact ⟨rfl, rfl, rfl, rfl⟩

theorem delClientIPs_rows (h : delClientIPsByEmails f s emails = (s', .ok ())) (he : e ∈ emails) :
    s'.rowsOf e = { s.rowsOf e with ips := [] } := by
  obtain ⟨-, rfl⟩ := exec_ok.mp h
  simp only [Store.rowsOf, filter_dropped he]

theorem delClientIPs_others (he : e ∉ emails) : (delClientIPsByEmails f s emails).1.rowsOf e = s.rowsOf e := by
  rw [delClientIPsByEmails]
  cases f.ips with
  | some err => rfl
  | none => simp only [exec, Store.rowsOf, filter_kept he]

theorem delClientStats_rows (h : delClientStatsByEmails f s emails = (s', .ok ())) (he : e ∈ emails) :
    s'.rowsOf e = { Rows.none with ips := (s.rowsOf e).ips } := by
  simp only [delClientStatsByEmails, andThen_ok, exec_ok] at h
  obtain ⟨_, -, ⟨-, rfl⟩, _, -, ⟨-, rfl⟩, -, rfl⟩ := h
  simp only [Store.rowsOf, clearGlobalTraffic, filter_dropped he, Rows.none]

theorem delClientStats_others (he : e ∉ emails) :
    (delClientStatsByEmails f s emails).1.rowsOf e = s.rowsOf e := by
  rw [delClientStatsByEmails]
  cases f.traffics <;> cases f.globals <;> cases f.baselines <;>
    simp only [andThen, exec, Store.rowsOf, clearGlobalTraffic, filter_kept he]

end rows

section purging

variable {s s' : Store} {email e : String} {emails : List String} {f : RemovalFaults} {cs : List Client}
  {i j : Int} {db db' : DB}

theorem getClientTrafficByEmail_none (h : getClientTrafficByEmail f s email = .ok none) :
    (s.rowsOf email).traffics = [] := by
  simp only [getClientTrafficByEmail, bind_ok] at h
  obtain ⟨_, -, h⟩ := h
  split at h
  case h_1 hfind =>
    rw [find?_eq_none] at hfind
    exact filter_eq_nil_iff.mpr fun t ht he => hfind t ht (by simpa using he)
  case h_2 =>
    split at h
    · cases h
    · simp only [bind_ok] at h
      obtain ⟨_, -, _, -, h⟩ := h
      cases h

theorem getClientTrafficByEmail_some {t : ClientTraffic} (h : getClientTrafficByEmail f s email = .ok (some t)) :
    (s.rowsOf email).traffics ≠ [] := by
  simp only [getClientTrafficByEmail, bind_ok] at h
  obtain ⟨_, -, h⟩ := h
  split at h
  case h_1 => cases h
  case h_2 traffic hfind =>
    have hmem := mem_of_find?_eq_some hfind
    have hemail := find?_some hfind
    exact ne_nil_of_mem (mem_filter.mpr ⟨hmem, by simpa using hemail⟩)

theorem purgeClient_only : OnlyRows s (purgeClient f s email).1 := by
  rw [purgeClient]
  have hips : OnlyRows s (delClientIPs f s email).1 := delClientIPs_only
  generalize delClientIPs f s email = deleted at hips ⊢
  obtain ⟨mid, result⟩ := deleted
  cases result with
  | error err => exact hips
  | ok _ =>
    simp only [andThen]
    split
    · exact hips
    · split
      · exact hips
      · exact hips
      · exact hips.trans delClientStats_only

theorem purgeClient_rows (hne : email ≠ "") (h : purgeClient f s email = (s', .ok ())) :
    s'.rowsOf email = (s.rowsOf email).purged := by
  simp only [purgeClient, andThen_ok, if_neg hne] at h
  obtain ⟨mid, _, hips, h⟩ := h
  have hmid := delClientIPs_rows hips (mem_singleton_self email)
  have htraffics : (mid.rowsOf email).traffics = (s.rowsOf email).traffics := by rw [hmid]
  split at h
  · cases h
  case h_2 hlookup =>
    cases h
    have hnone := getClientTrafficByEmail_none hlookup
    rw [htraffics] at hnone
    rw [hmid, Rows.purged, if_pos (by rw [hnone]; rfl)]
  case h_3 t hlookup =>
    have hsome := getClientTrafficByEmail_some hlookup
    rw [htraffics] at hsome
    rw [delClientStats_rows h (mem_singleton_self email), hmid, Rows.purged, if_neg (by simpa using hsome)]
    rfl

theorem purgeClients_only : OnlyRows s (purgeClients f s emails).1 := by
  rw [purgeClients]
  split
  · exact OnlyRows.refl s
  · have hips : OnlyRows s (delClientIPsByEmails f s emails).1 := delClientIPs_only
    generalize delClientIPsByEmails f s emails = deleted at hips ⊢
    obtain ⟨mid, result⟩ := deleted
    cases result with
    | error err => exact hips
    | ok _ => exact hips.trans delClientStats_only

theorem purgeClients_others (he : e ∉ emails) : (purgeClients f s emails).1.rowsOf e = s.rowsOf e := by
  rw [purgeClients]
  split
  · rfl
  · have hips : (delClientIPsByEmails f s emails).1.rowsOf e = s.rowsOf e := delClientIPs_others he
    generalize delClientIPsByEmails f s emails = deleted at hips ⊢
    obtain ⟨mid, result⟩ := deleted
    cases result with
    | error err => exact hips
    | ok _ => exact (delClientStats_others he).trans hips

theorem purgeClients_rows (he : e ∈ emails) (h : purgeClients f s emails = (s', .ok ())) :
    s'.rowsOf e = Rows.none := by
  rw [purgeClients, if_neg (ne_nil_of_mem he), andThen_ok] at h
  obtain ⟨mid, _, hips, hstats⟩ := h
  rw [delClientStats_rows hstats he, delClientIPs_rows hips he]
  rfl

end purging

section syncing

variable {db db' : DB} {cs : List Client} {c : Client} {i : Int} {email : String} {emails : List String}

theorem settings_elsewhere : (∃ ib ∈ db.inbounds.rows, ib.id ≠ i ∧ c ∈ ib.clients.getD []) ↔
    ∃ j ≠ i, c ∈ db.settingsClients j := by
  constructor
  · rintro ⟨ib, hib, hother, hc⟩
    refine ⟨ib.id, hother, ?_⟩
    rw [DB.settingsClients, DB.clientsOf, Table.find_of_mem hib]
    exact hc
  · rintro ⟨j, hother, hc⟩
    rw [DB.settingsClients, DB.clientsOf] at hc
    cases hfind : db.inbounds.find j with
    | none =>
      rw [hfind] at hc
      cases hc
    | some ib =>
      rw [hfind] at hc
      obtain ⟨hib, rfl⟩ := Table.mem_of_find hfind
      exact ⟨ib, hib, hother, hc⟩

theorem emailUsed_iff (hne : email ≠ "") : emailUsedByOtherInbounds db email i = true ↔
    Elsewhere Text.toLower email db.settingsClients i := by
  simp only [emailUsedByOtherInbounds, Bool.and_eq_true, bne_iff_ne, ne_eq, hne, not_false_eq_true, true_and,
    any_eq_true, beq_iff_eq]
  constructor
  · rintro ⟨ib, hib, hother, c, hc, hkey⟩
    obtain ⟨j, hj, hmem⟩ := settings_elsewhere.mp ⟨ib, hib, hother, hc⟩
    exact ⟨j, hj, c, hmem, hkey⟩
  · rintro ⟨j, hj, c, hmem, hkey⟩
    obtain ⟨ib, hib, hother, hc⟩ := settings_elsewhere.mpr ⟨j, hj, hmem⟩
    exact ⟨ib, hib, hother, c, hc, hkey⟩

theorem emailsUsed_iff (hmem : email ∈ emails) (hne : sharedKey email ≠ "") :
    (emailsUsedByOtherInbounds db emails i).contains (sharedKey email) = true ↔
      Elsewhere sharedKey email db.settingsClients i := by
  have hwant : sharedKey email ∈ (emails.map sharedKey).filter (· ≠ "") :=
    mem_filter.mpr ⟨mem_map_of_mem hmem, by simpa using hne⟩
  simp only [emailsUsedByOtherInbounds, contains_iff_mem, mem_filter, mem_flatMap, mem_map,
    bne_iff_ne]
  constructor
  · rintro ⟨⟨ib, ⟨hib, hother⟩, c, hc, hkey⟩, -⟩
    obtain ⟨j, hj, hmem⟩ := settings_elsewhere.mp ⟨ib, hib, hother, hc⟩
    exact ⟨j, hj, c, hmem, hkey⟩
  · rintro ⟨j, hj, c, hmem, hkey⟩
    obtain ⟨ib, hib, hother, hc⟩ := settings_elsewhere.mpr ⟨j, hj, hmem⟩
    refine ⟨⟨ib, ⟨hib, hother⟩, c, hc, hkey⟩, ?_⟩
    simpa only [mem_filter, mem_map] using hwant

theorem cut_kept : ∀ c ∈ cut db.recorded emails cs, c.email = "" ∨ c.email ∈ Clients.emails db.records :=
  compactOrphans_kept _

theorem toCreate_iff (hkept : ∀ c ∈ cs, c.email = "" ∨ c.email ∈ Clients.emails db.records)
    (h : syncInbound db i cs = .ok db') : toCreate db.records (named cs) = [] := by
  simp only [syncInbound, bind_ok] at h
  obtain ⟨records, hcreate, -⟩ := h
  refine eq_nil_iff_forall_not_mem.mpr fun c hc => ?_
  obtain ⟨hnamed, hfresh, hfirst⟩ := ListSync.mem_toCreate_first.mp hc
  have hnew := createRecords_fresh hcreate hc
  rw [mergeRecords_emails] at hnew
  rcases hkept c (ListSync.email_of_head hfirst).1 with hblank | hrec
  · rw [hblank] at hnamed
    exact hnamed (by decide)
  · exact hnew hrec

theorem sync_settled_iff (hkept : ∀ c ∈ cs, c.email = "" ∨ c.email ∈ Clients.emails db.records) :
    (∃ db', syncInbound db i cs = .ok db') ↔ Settled db.recorded cs := by
  constructor
  · rintro ⟨db', h⟩ c hc
    by_contra hunsettled
    obtain ⟨hnamed, hfresh⟩ := not_or.mp hunsettled
    rw [recorded_iff] at hfresh
    obtain ⟨first, hfirst⟩ := ListSync.head_of_mem hc
    have hsame := (ListSync.email_of_head hfirst).2
    have hcreated : first ∈ toCreate db.records (named cs) := by
      rw [ListSync.mem_toCreate_first, hsame]
      exact ⟨hnamed, hfresh, hfirst⟩
    rw [toCreate_iff hkept h] at hcreated
    cases hcreated
  · intro hsettled
    have hnone : toCreate db.records (named cs) = [] := by
      refine eq_nil_iff_forall_not_mem.mpr fun c hc => ?_
      obtain ⟨hnamed, hfresh, hfirst⟩ := ListSync.mem_toCreate_first.mp hc
      rcases hsettled c (ListSync.email_of_head hfirst).1 with hblank | hrec
      · exact hnamed hblank
      · exact hfresh (recorded_iff.mp hrec)
    simp only [syncInbound, hnone, foldlM_nil]
    exact ⟨_, rfl⟩

theorem sync_recorded (hkept : ∀ c ∈ cs, c.email = "" ∨ c.email ∈ Clients.emails db.records)
    (h : syncInbound db i cs = .ok db') : db'.recorded = db.recorded := by
  obtain ⟨-, -, hemails⟩ := syncInbound_ok h
  rw [toCreate_iff hkept h, map_nil, append_nil] at hemails
  funext m
  rw [Bool.eq_iff_iff, recorded_iff, recorded_iff, hemails]

theorem sync_content (hfind : (db.inbounds.find i).isSome) (h : syncInbound (saveClients db i cs) i cs = .ok db') :
    db'.settingsClients = Function.update db.settingsClients i cs := by
  obtain ⟨hinbounds, -, -⟩ := syncInbound_ok h
  obtain ⟨ib, hib⟩ := Option.isSome_iff_exists.mp hfind
  funext j
  have hof : db'.clientsOf j = (saveClients db i cs).clientsOf j := by rw [DB.clientsOf, hinbounds, ← DB.clientsOf]
  rw [DB.settingsClients, hof, clientsOf_saveClients]
  by_cases hj : j = i
  · rw [if_pos hj, hj, Function.update_self, hib]
    rfl
  · rw [if_neg hj, Function.update_of_ne hj, DB.settingsClients]

theorem sync_found (h : syncInbound (saveClients db i cs) i cs = .ok db') (j : Int) :
    (db'.inbounds.find j).isSome = (db.inbounds.find j).isSome := by
  obtain ⟨hinbounds, -, -⟩ := syncInbound_ok h
  rw [hinbounds, saveClients, Table.find_modify, Option.isSome_map]

end syncing

section single

variable {f : RemovalFaults} {s s' : Store} {email : String} {ids : List Int} {i : Int} {cs : List Client}

theorem holds_iff : Holds email s.settingsClients i ↔ (s.settingsClients i).any (·.email == email) = true := by
  simp [Holds]

structure Removal (email : String) (s : Store) (i : Int) (s' : Store) : Prop where
  visited : Visited (removed s.recorded email) (fun c i => Holds email c i → Elsewhere Text.toLower email c i)
    (·.settingsClients) (·.rowsOf email) Rows.purged s i s'
  recorded : s'.recorded = s.recorded
  externalLinks : s'.externalLinks = s.externalLinks

theorem Removal.absent (h : ¬Holds email s.settingsClients i) : Removal email s i s := by
  refine ⟨⟨?_, fun _ => rfl, fun hp => absurd (fun hholds => absurd hholds h) hp⟩, rfl, rfl⟩
  have hsame : removed s.recorded email i (s.settingsClients i) = s.settingsClients i := by
    rw [removed, if_neg (mt holds_iff.mpr h)]
  show s.settingsClients = visit _ s.settingsClients i
  rw [visit, hsame, Function.update_eq_self]

theorem saveInbound_ok {b : Bool} (h : saveInbound f s i cs = (s', .ok b)) :
    ∃ db, syncInbound (saveClients s.toDB i cs) i cs = .ok db ∧ s' = { s with toDB := db } := by
  rw [saveInbound] at h
  split at h
  · cases h
  · dsimp only at h
    split at h
    · cases h
    case h_2 db hsync =>
      cases h
      exact ⟨db, hsync, rfl⟩

variable {u : Unit}

theorem purgeUnless_effect {mid : Store} {shared : Bool} (hne : email ≠ "")
    (h : (if (!shared) = true ∧ (!false) = true then purgeClient f s email else (s, .ok ())) = (mid, .ok u)) :
    OnlyRows s mid ∧ (shared = true → mid.rowsOf email = s.rowsOf email) ∧
      (shared = false → mid.rowsOf email = (s.rowsOf email).purged) := by
  cases shared with
  | true =>
    cases h
    exact ⟨OnlyRows.refl s, fun _ => rfl, nofun⟩
  | false =>
    have hpurge : purgeClient f s email = (mid, .ok ()) := h
    have honly : OnlyRows s (purgeClient f s email).1 := purgeClient_only
    rw [hpurge] at honly
    exact ⟨honly, nofun, fun _ => purgeClient_rows hne hpurge⟩

theorem cut_one (recorded : String → Bool) (cs : List Client) :
    (cs.filter (·.email != email)).filter (fun c => c.email == "" || recorded c.email) =
      cut recorded [email] cs := by
  refine congrArg _ (filter_congr fun c _ => ?_)
  simp only [contains_cons, contains_nil, Bool.or_false, bne]

theorem sync_removal {mid : Store} {db : DB} {g : Int → List Client → List Client} (honly : OnlyRows s mid)
    (hfind : (s.inbounds.find i).isSome) (hcs : cs = g i (s.settingsClients i))
    (hkept : ∀ c ∈ cs, c.email = "" ∨ c.email ∈ Clients.emails s.records)
    (hsync : syncInbound (saveClients mid.toDB i cs) i cs = .ok db) :
    db.settingsClients = visit g s.settingsClients i ∧ db.recorded = s.recorded ∧ db.traffics = mid.traffics ∧
      ∀ j, (db.inbounds.find j).isSome = (s.inbounds.find j).isSome := by
  refine ⟨?_, ?_, (syncInbound_ok hsync).2.1, fun j => ?_⟩
  · rw [sync_content (by rw [honly.inbounds]; exact hfind) hsync, honly.content, hcs]
    rfl
  · have hsaved : (saveClients mid.toDB i cs).records = s.records := honly.records
    have hrecorded := sync_recorded (fun c hc => hsaved.symm ▸ hkept c hc) hsync
    exact hrecorded.trans honly.recorded
  · rw [sync_found hsync, honly.inbounds]

theorem delInbound_removal {b : Bool} (hne : email ≠ "")
    (h : delInboundClientByEmail f s i email false = (s', .ok b)) : Removal email s i s' := by
  rw [delInboundClientByEmail] at h
  split at h
  · cases h
  · cases h
  case h_3 oldInbound hload hfind =>
    split at h
    · cases h
    case h_2 clients hclients =>
      have hsettings : s.settingsClients i = clients := by
        rw [settingsClients_find hfind, hclients]
        rfl
      split at h
      case isTrue habsent =>
        cases h
        refine Removal.absent fun hholds => ?_
        rw [holds_iff, hsettings] at hholds
        rw [hholds] at habsent
        cases habsent
      case isFalse hpresent =>
        have hany : clients.any (·.email == email) = true := by simpa using hpresent
        have hholds : Holds email s.settingsClients i := holds_iff.mpr (hsettings ▸ hany)
        dsimp only at h
        split at h
        · cases h
        · simp only [andThen_ok, exec_ok] at h
          obtain ⟨mid, _, hpurge, _, _, ⟨-, hpushed⟩, hsave⟩ := h
          rw [hpushed] at hsave
          obtain ⟨db, hsync, rfl⟩ := saveInbound_ok hsave
          obtain ⟨honly, hkept, hpurged⟩ := purgeUnless_effect hne hpurge
          have hnew : compactOrphans s.toDB (clients.filter (·.email != email)) =
              removed s.recorded email i (s.settingsClients i) := by
            rw [removed, if_pos (hsettings ▸ hany), hsettings, ← cut_one]
            rfl
          obtain ⟨hcontent, hrecorded, htraffics, -⟩ := sync_removal honly (by rw [hfind]; rfl) hnew
            (compactOrphans_kept _) hsync
          have hrows : ({ mid with toDB := db } : Store).rowsOf email = mid.rowsOf email := by
            simp only [Store.rowsOf, htraffics]
          refine ⟨⟨hcontent, fun hp => hrows.trans (hkept ?_), fun hp => hrows.trans (hpurged ?_)⟩, hrecorded,
            honly.externalLinks⟩
          · exact (emailUsed_iff hne).mpr (hp hholds)
          · rw [Bool.eq_false_iff, ne_eq, emailUsed_iff hne]
            exact fun helse => hp fun _ => helse

theorem delFromInbounds_run {f : Nat → RemovalFaults} {k : Nat} (hne : email ≠ "")
    (h : delFromInbounds f email k s ids = (s', .ok u)) : Run (Removal email) s ids s' := by
  induction ids generalizing k s with
  | nil =>
    cases h
    exact .nil _
  | cons i ids ih =>
    rw [delFromInbounds] at h
    split at h
    · cases h
    · split at h
      case isTrue hmissing =>
        have hnone := hmissing.resolve_right hne
        refine .cons (Removal.absent ?_) (ih h)
        rintro ⟨c, hc, -⟩
        rw [DB.settingsClients, DB.clientsOf, Option.isNone_iff_eq_none.mp hnone] at hc
        cases hc
      case isFalse =>
        rw [andThen_ok] at h
        obtain ⟨mid, _, hdel, hrest⟩ := h
        exact .cons (delInbound_removal hne hdel) (ih hrest)

theorem delFromInbounds_nameless {f : Nat → RemovalFaults} {k : Nat}
    (h : delFromInbounds f "" k s ids = (s', .ok u)) : s' = s := by
  induction ids generalizing k with
  | nil =>
    cases h
    rfl
  | cons i ids ih =>
    rw [delFromInbounds] at h
    split at h
    · cases h
    · rw [if_pos (.inr rfl)] at h
      exact ih h

theorem Removal.rows (hrun : Run (Removal email) s ids s') :
    (AlwaysShared s email ids → s'.rowsOf email = s.rowsOf email) ∧
      (¬AlwaysShared s email ids → s'.rowsOf email = (s.rowsOf email).purged) := by
  have hvisit : ∀ t i t', t.recorded = s.recorded → Removal email t i t' →
      Visited (removed s.recorded email) (fun c i => Holds email c i → Elsewhere Text.toLower email c i)
        (fun t : Store => t.settingsClients) (fun t => t.rowsOf email) Rows.purged t i t' := by
    intro t i t' ht h
    rw [← ht]
    exact h.visited
  exact Run.visited (fun t i t' ht h => h.recorded.trans ht) hvisit purged_twice hrun rfl

theorem forgetUsage_rows {f : FinishFaults} (h : forgetUsage f s email = (s', .ok u)) :
    s'.rowsOf email = { Rows.none with baselines := (s.rowsOf email).baselines } ∧ OnlyRows s s' := by
  simp only [forgetUsage, andThen_ok, exec_ok] at h
  obtain ⟨_, -, ⟨-, rfl⟩, _, -, ⟨-, rfl⟩, -, rfl⟩ := h
  refine ⟨?_, rfl, rfl, rfl, rfl⟩
  simp [Store.rowsOf, clearGlobalTraffic, Rows.none, filter_filter]

end single

section bulk

variable {f : RemovalFaults} {run run' : BulkRun} {s s' : Store} {e err : String} {emails found : List String}
  {i : Int} {ib : Inbound} {cs : List Client}

def BulkRun.Skips (run : BulkRun) (email : String) : Prop := email ∈ run.skipped.map (·.1)

theorem skip_store : (run.skip emails err).store = run.store := rfl

theorem skips_skip : (run.skip emails err).Skips e ↔ run.Skips e ∨ e ∈ emails := by
  simp [BulkRun.Skips, BulkRun.skip, mem_map]

theorem replaceInbound_iff (hkept : ∀ c ∈ cs, c.email = "" ∨ c.email ∈ Clients.emails s.records) :
    (∃ s', replaceInbound f s i cs = .ok s') ↔ f.write = none ∧ Settled s.recorded cs := by
  have hsync := @sync_settled_iff (saveClients s.toDB i cs) cs i hkept
  have hrecorded : (saveClients s.toDB i cs).recorded = s.recorded := rfl
  rw [hrecorded] at hsync
  simp only [replaceInbound, bind_ok, check_ok, Option.isNone_iff_eq_none]
  constructor
  · rintro ⟨s', _, hwrite, db, h, -⟩
    exact ⟨hwrite, hsync.mp ⟨db, h⟩⟩
  · rintro ⟨hwrite, hsettled⟩
    obtain ⟨db, h⟩ := hsync.mpr hsettled
    exact ⟨_, (), hwrite, db, h, rfl⟩

theorem settle_skips (h : run.Skips e) : (settle f run ib found cs).Skips e := by
  rw [settle]
  cases (if ib.nodeId.isSome then f.plan else none) with
  | none =>
    dsimp only [Option.elim_none]
    split
    · exact skips_skip.mpr (.inl h)
    · exact h
  | some perr =>
    have hskip : (run.skip found perr).Skips e := skips_skip.mpr (.inl h)
    dsimp only [Option.elim_some]
    split
    · exact skips_skip.mpr (.inl hskip)
    · exact hskip

theorem bulkDel_skips (h : run.Skips e) : (bulkDelInboundClients f run i emails false).Skips e := by
  rw [bulkDelInboundClients]
  split
  · exact skips_skip.mpr (.inl h)
  · exact skips_skip.mpr (.inl h)
  · dsimp only
    split
    · exact skips_skip.mpr (.inl (skips_skip.mpr (.inl h)))
    · split
      · exact settle_skips (skips_skip.mpr (.inl (skips_skip.mpr (.inl h))))
      · exact settle_skips (skips_skip.mpr (.inl h))

structure Settling (f : RemovalFaults) (s : Store) (i : Int) (cs : List Client) (s' : Store) : Prop where
  content : s'.settingsClients =
    Function.update s.settingsClients i
      (if f.write = none ∧ Settled s.recorded cs then cs else s.settingsClients i)
  recorded : s'.recorded = s.recorded
  found : ∀ j, (s'.inbounds.find j).isSome = (s.inbounds.find j).isSome
  rows : ∀ e, s'.rowsOf e = s.rowsOf e
  externalLinks : s'.externalLinks = s.externalLinks

theorem settle_settling (hfind : (run.store.inbounds.find ib.id).isSome)
    (hkept : ∀ c ∈ cs, c.email = "" ∨ c.email ∈ Clients.emails run.store.records) :
    Settling f run.store ib.id cs (settle f run ib found cs).store := by
  have hstore : ((if ib.nodeId.isSome then f.plan else none).elim run (run.skip found)).store = run.store := by
    cases (if ib.nodeId.isSome then f.plan else none) <;> rfl
  have hiff := @replaceInbound_iff f run.store ib.id cs hkept
  rw [settle, hstore]
  split
  case h_1 err hfailed =>
    have hnot : ¬(f.write = none ∧ Settled run.store.recorded cs) := by
      rw [← hiff, hfailed]
      rintro ⟨s', h⟩
      cases h
    refine ⟨?_, ?_, fun j => ?_, fun e => ?_, ?_⟩
    · rw [if_neg hnot, Function.update_eq_self]
      exact congrArg (fun t : Store => t.settingsClients) hstore
    · exact congrArg (fun t : Store => t.recorded) hstore
    · exact congrArg (fun t : Store => (t.inbounds.find j).isSome) hstore
    · exact congrArg (fun t : Store => t.rowsOf e) hstore
    · exact congrArg (fun t : Store => t.externalLinks) hstore
  case h_2 store hreplaced =>
    have hgoes := hiff.mp ⟨store, hreplaced⟩
    simp only [replaceInbound, bind_ok] at hreplaced
    obtain ⟨_, -, db, hsync, hdb⟩ := hreplaced
    cases hdb
    obtain ⟨hcontent, hrecorded, htraffics, hfound⟩ := sync_removal (g := fun _ _ => cs)
      (OnlyRows.refl run.store) hfind rfl hkept hsync
    refine ⟨?_, hrecorded, hfound, fun e => ?_, rfl⟩
    · rw [if_pos hgoes]
      exact hcontent
    · simp only [Store.rowsOf, htraffics]

structure BulkRemoval (f : Int → RemovalFaults) (W : Int → List String) (e : String) (run : BulkRun) (i : Int)
    (run' : BulkRun) : Prop where
  visited : Visited (bulkRemoved f run.store W)
    (fun c i => e ∈ W i → Holds e c i → Elsewhere sharedKey e c i)
    (fun run : BulkRun => run.store.settingsClients) (fun run => run.store.rowsOf e) (fun _ => Rows.none) run i run'
  recorded : run'.store.recorded = run.store.recorded
  found : ∀ j, (run'.store.inbounds.find j).isSome = (run.store.inbounds.find j).isSome
  externalLinks : run'.store.externalLinks = run.store.externalLinks

variable {f : Int → RemovalFaults} {W : Int → List String}

theorem BulkRemoval.unsaved (hstore : run'.store = run.store)
    (hfailed : ¬((f i).load = none ∧ (f i).shared = none ∧ (f i).write = none ∧
      (run.store.inbounds.find i).isSome))
    (huninvolved : e ∈ W i → Holds e run.store.settingsClients i → run'.Skips e) (hskips : ¬run'.Skips e) :
    BulkRemoval f W e run i run' := by
  refine ⟨⟨?_, fun _ => by rw [hstore], fun hp => ?_⟩, by rw [hstore], fun j => by rw [hstore],
    by rw [hstore]⟩
  · have hsame : bulkRemoved f run.store W i (run.store.settingsClients i) = run.store.settingsClients i := by
      rw [bulkRemoved, if_neg fun h => hfailed h.1]
    show run'.store.settingsClients = visit _ run.store.settingsClients i
    rw [visit, hsame, Function.update_eq_self, hstore]
  · exact absurd (fun hin hholds => absurd (huninvolved hin hholds) hskips) hp

theorem BulkRemoval.saved {mid : Store}
    (hload : (f i).load = none) (hshared : (f i).shared = none) (hfind : (run.store.inbounds.find i).isSome)
    (honly : OnlyRows run.store mid)
    (hsettling : Settling (f i) mid i (cut run.store.recorded (W i) (run.store.settingsClients i)) run'.store)
    (hkept : (e ∈ W i → Holds e run.store.settingsClients i →
      Elsewhere sharedKey e run.store.settingsClients i) → mid.rowsOf e = run.store.rowsOf e)
    (hpurged : ¬(e ∈ W i → Holds e run.store.settingsClients i →
      Elsewhere sharedKey e run.store.settingsClients i) → mid.rowsOf e = Rows.none) :
    BulkRemoval f W e run i run' := by
  refine ⟨⟨?_, fun hp => (hsettling.rows e).trans (hkept hp), fun hp => (hsettling.rows e).trans (hpurged hp)⟩,
    hsettling.recorded.trans honly.recorded, fun j => ?_, hsettling.externalLinks.trans honly.externalLinks⟩
  · have hremoved : bulkRemoved f run.store W i (run.store.settingsClients i) =
        if (f i).write = none ∧ Settled mid.recorded
          (cut run.store.recorded (W i) (run.store.settingsClients i)) then
          cut run.store.recorded (W i) (run.store.settingsClients i) else mid.settingsClients i := by
      rw [bulkRemoved, honly.recorded, honly.content]
      simp only [hload, hshared, hfind, true_and, and_true]
    show run'.store.settingsClients = visit _ run.store.settingsClients i
    rw [visit, hremoved, hsettling.content, honly.content]
  · rw [hsettling.found j, honly.inbounds]

theorem mem_unshared {db : DB} (hkey : sharedKey e ≠ "") : e ∈ unshared db emails i ↔
    e ∈ emails ∧ ¬Elsewhere sharedKey e db.settingsClients i := by
  rw [unshared, mem_filter, Bool.not_eq_true']
  refine and_congr_right fun hmem => ?_
  rw [← emailsUsed_iff hmem hkey, Bool.not_eq_true]

theorem bulkDel_removal (hkey : sharedKey e ≠ "")
    (hskips : ¬(bulkDelInboundClients (f i) run i (W i) false).Skips e) :
    BulkRemoval f W e run i (bulkDelInboundClients (f i) run i (W i) false) := by
  rw [bulkDelInboundClients] at hskips ⊢
  split at hskips
  case h_1 err hload =>
    refine BulkRemoval.unsaved rfl (fun h => ?_) (fun hin _ => skips_skip.mpr (.inr hin)) hskips
    rw [h.1] at hload
    cases hload
  case h_2 hload hfind =>
    refine BulkRemoval.unsaved rfl (fun h => ?_) (fun hin _ => skips_skip.mpr (.inr hin)) hskips
    rw [hfind] at h
    cases h.2.2.2
  case h_3 oldInbound hload hfind =>
    simp only [Bool.false_eq_true, if_false] at hskips ⊢
    have hsettings := settingsClients_find hfind
    have hid := (Table.mem_of_find hfind).2
    split at hskips
    case h_1 err hshared =>
      refine BulkRemoval.unsaved rfl (fun h => ?_) (fun hin hholds => skips_skip.mpr (.inr ?_)) hskips
      · rw [h.2.1] at hshared
        cases hshared
      · rw [holds_iff, hsettings] at hholds
        exact mem_filter.mpr ⟨hin, hholds⟩
    case h_2 hshared =>
      have hkept := @cut_kept run.store.toDB (run.store.settingsClients i) (W i)
      have hpurge : (e ∈ W i → Holds e run.store.settingsClients i →
          Elsewhere sharedKey e run.store.settingsClients i) ↔
          e ∉ unshared run.store.toDB (present (oldInbound.clients.getD []) (W i)) i := by
        rw [mem_unshared hkey, present, mem_filter, ← hsettings, ← holds_iff, not_and_not_right, and_imp]
      have hcut : compactOrphans run.store.toDB
          ((oldInbound.clients.getD []).filter fun c => !(W i).contains c.email) =
            cut run.store.recorded (W i) (run.store.settingsClients i) := by
        rw [hsettings]
        rfl
      have hsome : (run.store.inbounds.find oldInbound.id).isSome := by rw [hid, hfind]; rfl
      rw [skip_store, hcut] at hskips ⊢
      generalize unshared run.store.toDB (present (oldInbound.clients.getD []) (W i)) i = purge at hpurge hskips ⊢
      have honly : OnlyRows run.store (purgeClients (f i) run.store purge).1 := purgeClients_only
      have hothers : e ∉ purge → (purgeClients (f i) run.store purge).1.rowsOf e = run.store.rowsOf e :=
        purgeClients_others
      have hpurged : ∀ store, purgeClients (f i) run.store purge = (store, .ok ()) → e ∈ purge →
          store.rowsOf e = Rows.none := fun store h he => purgeClients_rows he h
      generalize purgeClients (f i) run.store purge = purged at hskips honly hothers hpurged ⊢
      obtain ⟨mid, result⟩ := purged
      have hmid : (mid.inbounds.find oldInbound.id).isSome := by
        rw [honly.inbounds]
        exact hsome
      have hclean : ∀ c ∈ cut run.store.recorded (W i) (run.store.settingsClients i),
          c.email = "" ∨ c.email ∈ Clients.emails mid.records := by
        rw [honly.records]
        exact cut_kept
      have hsettling : ∀ {run' : BulkRun} {found}, run'.store = mid → Settling (f i) mid i
          (cut run.store.recorded (W i) (run.store.settingsClients i)) (settle (f i) run' oldInbound found
            (cut run.store.recorded (W i) (run.store.settingsClients i))).store := by
        rintro run' found rfl
        have hsettled := @settle_settling (f i) run' found oldInbound _ hmid hclean
        rwa [hid] at hsettled
      cases result with
      | error err =>
        refine BulkRemoval.saved hload hshared (hid ▸ hsome) honly (hsettling rfl)
          (fun hp => hothers (hpurge.mp hp)) ?_
        · intro hp
          have hin : e ∈ purge := not_not.mp (mt hpurge.mpr hp)
          exact absurd (settle_skips (skips_skip.mpr (.inr hin))) hskips
      | ok _ =>
        refine BulkRemoval.saved hload hshared (hid ▸ hsome) honly (hsettling rfl)
          (fun hp => hothers (hpurge.mp hp)) ?_
        · intro hp
          exact hpurged mid rfl (not_not.mp (mt hpurge.mpr hp))

variable {ids : List Int}

theorem removals_skips (h : run.Skips e) :
    (ids.foldl (fun run i => bulkDelInboundClients (f i) run i (W i) false) run).Skips e := by
  induction ids generalizing run with
  | nil => exact h
  | cons i ids ih => exact ih (bulkDel_skips h)

theorem removals_run
    (hkey : sharedKey e ≠ "")
    (h : ¬(ids.foldl (fun run i => bulkDelInboundClients (f i) run i (W i) false) run).Skips e) :
    Run (BulkRemoval f W e) run ids
      (ids.foldl (fun run i => bulkDelInboundClients (f i) run i (W i) false) run) := by
  induction ids generalizing run with
  | nil => exact .nil run
  | cons i ids ih =>
    rw [foldl_cons] at h ⊢
    exact .cons (bulkDel_removal hkey fun hskip => h (removals_skips hskip)) (ih h)

theorem BulkRemoval.rows
    (hrun : Run (BulkRemoval f W e) run ids run') :
    (Throughout (bulkRemoved f run.store W) (fun c i => e ∈ W i → Holds e c i → Elsewhere sharedKey e c i)
      run.store.settingsClients ids → run'.store.rowsOf e = run.store.rowsOf e) ∧
    (¬Throughout (bulkRemoved f run.store W) (fun c i => e ∈ W i → Holds e c i → Elsewhere sharedKey e c i)
      run.store.settingsClients ids → run'.store.rowsOf e = Rows.none) := by
  have hinv : ∀ t i t', (t.store.recorded = run.store.recorded ∧
      ∀ j, (t.store.inbounds.find j).isSome = (run.store.inbounds.find j).isSome) → BulkRemoval f W e t i t' →
      t'.store.recorded = run.store.recorded ∧
        ∀ j, (t'.store.inbounds.find j).isSome = (run.store.inbounds.find j).isSome :=
    fun t i t' ht h => ⟨h.recorded.trans ht.1, fun j => (h.found j).trans (ht.2 j)⟩
  have hvisit : ∀ t i t', (t.store.recorded = run.store.recorded ∧
      ∀ j, (t.store.inbounds.find j).isSome = (run.store.inbounds.find j).isSome) → BulkRemoval f W e t i t' →
      Visited (bulkRemoved f run.store W) (fun c i => e ∈ W i → Holds e c i → Elsewhere sharedKey e c i)
        (fun run : BulkRun => run.store.settingsClients) (fun run => run.store.rowsOf e) (fun _ => Rows.none)
        t i t' := by
    rintro t i t' ⟨hrecorded, hfound⟩ h
    have hsame : bulkRemoved f run.store W = bulkRemoved f t.store W := by
      funext j cs
      rw [bulkRemoved, bulkRemoved, hrecorded, hfound]
    rw [hsame]
    exact h.visited
  exact Run.visited hinv hvisit (fun _ => rfl) hrun ⟨rfl, fun _ => rfl⟩

theorem BulkRemoval.links
    (hrun : Run (BulkRemoval f W e) run ids run') : run'.store.externalLinks = run.store.externalLinks :=
  hrun.invariant (I := fun t => t.store.externalLinks = run.store.externalLinks)
    (fun _ _ _ ht h => h.externalLinks.trans ht) rfl

end bulk

section deleting

structure Remains where
  rows : Rows
  externalLinks : List ClientExternalLink
  links : List ClientInbound
  record : Option ClientRecord

def Store.remains (s : Store) (r : ClientRecord) : Remains where
  rows := s.rowsOf r.email
  externalLinks := s.externalLinks.filter (·.clientId == r.recordId)
  links := s.links.filter (·.clientId == r.recordId)
  record := s.records.find r.recordId

variable {s s' : Store} {r : ClientRecord} {e : String} {emails : List String} {id : Int}
  {keepTraffic : Bool}

theorem find_deleted {p : ClientRecord → Bool} (hp : ∀ r, r.recordId = id → p r = true) :
    (s.records.delete p).find id = none := by
  refine find?_eq_none.mpr fun r hr => ?_
  obtain ⟨-, hkept⟩ := Table.mem_delete.mp hr
  intro heq
  rw [hp r (by simpa using heq)] at hkept
  cases hkept

theorem delete_remains {f : Faults} {u : Unit} (hfind : s.records.find r.recordId = some r)
    (h : delete f s r.recordId keepTraffic = (s', .ok u)) :
    ∃ mid, delFromInbounds f.removal r.email 0 s (s.inboundIdsOf r.recordId) = (mid, .ok ()) ∧
      s'.remains r = ⟨if keepTraffic ∨ r.email = "" then mid.rowsOf r.email
        else { Rows.none with baselines := (mid.rowsOf r.email).baselines }, [], [], none⟩ := by
  rw [delete, hfind] at h
  split at h
  · cases h
  · cases h
  case h_3 existing hread hexisting =>
    cases hexisting
    simp only [andThen_ok, exec_ok] at h
    obtain ⟨mid, _, hloop, _, _, ⟨-, rfl⟩, _, _, ⟨-, rfl⟩, used, _, hforget, -, rfl⟩ := h
    refine ⟨mid, hloop, ?_⟩
    have hrecord : (used.records.delete (·.recordId == r.recordId)).find r.recordId = none :=
      find_deleted fun r' h => by rw [h, beq_self_eq_true]
    have hnone : ∀ k : Int, ((mid.links.filter (·.clientId != k)).filter (·.clientId == k) = []) ∧
        (mid.externalLinks.filter (·.clientId != k)).filter (·.clientId == k) = [] := by
      intro k
      simp [filter_filter]
    split at hforget
    case isTrue hdrop =>
      obtain ⟨hrows, honly⟩ := forgetUsage_rows hforget
      rw [if_neg (by simpa using hdrop)]
      simp only [Store.remains, hrecord, honly.links, honly.externalLinks, hnone, Remains.mk.injEq, and_self,
        and_true]
      exact hrows
    case isFalse hkeep =>
      cases hforget
      rw [if_pos (by simpa [or_iff_not_imp_left] using hkeep)]
      simp only [Store.remains, hrecord, hnone, Remains.mk.injEq, and_self, and_true]
      rfl

theorem eraseClients_rows {f : FinishFaults} {clientIds : List Int} {u : Unit} (he : e ∈ emails)
    (h : eraseClients f s emails clientIds keepTraffic = (s', .ok u)) :
    s'.rowsOf e = (if keepTraffic then s.rowsOf e else { s.rowsOf e with traffics := [], ips := [] }) ∧
      s'.externalLinks = s.externalLinks ∧ (∀ i ∈ clientIds, s'.links.filter (·.clientId == i) = []) ∧
        ∀ i ∈ clientIds, s'.records.find i = none := by
  simp only [eraseClients, andThen_ok, exec_ok] at h
  obtain ⟨_, -, ⟨-, rfl⟩, mid, _, hforget, -, rfl⟩ := h
  have hrecord : ∀ i ∈ clientIds, (mid.records.delete fun r => clientIds.contains r.recordId).find i = none := by
    intro i hi
    exact find_deleted fun r h => by simpa [h] using hi
  have hlinks : ∀ i ∈ clientIds,
      (s.links.filter fun l => !clientIds.contains l.clientId).filter (·.clientId == i) = [] := by
    intro i hi
    refine filter_eq_nil_iff.mpr fun l hl heq => ?_
    obtain ⟨-, hkept⟩ := mem_filter.mp hl
    rw [beq_iff_eq.mp heq] at hkept
    simp [hi] at hkept
  cases keepTraffic with
  | true =>
    cases hforget
    exact ⟨rfl, rfl, hlinks, hrecord⟩
  | false =>
    simp only [Bool.false_eq_true, if_false, andThen_ok, exec_ok] at hforget
    obtain ⟨_, -, ⟨-, rfl⟩, -, rfl⟩ := hforget
    refine ⟨?_, rfl, hlinks, hrecord⟩
    simp only [Store.rowsOf, filter_dropped he, Bool.false_eq_true, if_false]

theorem skips_reported {run : BulkRun} (hskip : run.Skips e) (he : e ∈ emails) :
    e ∈ (emails.filterMap fun email => run.skipped.find? (·.1 = email)).map (·.1) := by
  cases hfind : run.skipped.find? (·.1 = e) with
  | none =>
    obtain ⟨x, hx, rfl⟩ := mem_map.mp hskip
    exact absurd (find?_eq_none.mp hfind x hx) (by simp)
  | some x =>
    have hname : x.1 = e := by simpa using find?_some hfind
    exact mem_map.mpr ⟨x, mem_filterMap.mpr ⟨e, he, hfind⟩, hname⟩

theorem sharedKey_ne (hclean : e ∈ cleanEmails emails) : sharedKey e ≠ "" := by
  rw [sharedKey, BulkAdjust.trimmed_of_clean hclean]
  exact fun h => (BulkAdjust.mem_cleanEmails.mp hclean).1 (Text.toLower_eq_empty h)

theorem bulkDelete_remains {f : BulkFaults} {result : BulkDeleteResult} (hclean : r.email ∈ cleanEmails emails)
    (hrecord : s.record r.email = some r) (hdeleted : r.email ∉ result.skipped.map (·.1))
    (h : bulkDelete f s emails keepTraffic = (s', .ok result)) :
    ∃ rows, (AlwaysSharedInBulk f s emails r.email → rows = s.rowsOf r.email) ∧
      (¬AlwaysSharedInBulk f s emails r.email → rows = Rows.none) ∧
        s'.remains r = ⟨if keepTraffic then rows else { rows with traffics := [], ips := [] },
          s.externalLinks.filter (·.clientId == r.recordId), [], none⟩ := by
  have hrecorded : s.recorded r.email = true :=
    recorded_iff.mpr (mem_map.mpr ⟨r, mem_of_find?_eq_some hrecord, rfl⟩)
  rw [bulkDelete] at h
  dsimp only at h
  rw [if_neg (ne_nil_of_mem hclean)] at h
  split at h
  · cases h
  · obtain ⟨t, _, herase, hresult⟩ := andThen_ok.mp h
    cases hresult
    have hskips : ¬(removals f s ((cleanEmails emails).filter s.recorded)
        (((cleanEmails emails).filter fun email => !s.recorded email).map (·, "client not found"))).Skips r.email :=
      fun hskip => hdeleted (skips_reported hskip hclean)
    rw [removals] at hskips herase
    have hrun := removals_run (sharedKey_ne hclean) hskips
    obtain ⟨hkept, hpurged⟩ := BulkRemoval.rows hrun
    have hlinks := BulkRemoval.links hrun
    generalize List.foldl _ _ (f.order _) = run at hskips herase hkept hpurged hlinks
    generalize hsuccess : ((cleanEmails emails).filter s.recorded).filter
      (fun email => !run.skipped.any (·.1 == email)) = success at herase
    have hmem : r.email ∈ success := by
      rw [← hsuccess]
      refine mem_filter.mpr ⟨mem_filter.mpr ⟨hclean, hrecorded⟩, ?_⟩
      rw [Bool.not_eq_true', Bool.eq_false_iff]
      intro hany
      obtain ⟨x, hx, hname⟩ := any_eq_true.mp hany
      exact hskips (mem_map.mpr ⟨x, hx, by simpa using hname⟩)
    have hid : r.recordId ∈ success.filterMap fun email => (s.record email).map (·.recordId) :=
      mem_filterMap.mpr ⟨r.email, hmem, by rw [hrecord]; rfl⟩
    rw [if_neg (ne_nil_of_mem hid)] at herase
    obtain ⟨hrows, hexternal, hlinked, hfind⟩ := eraseClients_rows hmem herase
    refine ⟨run.store.rowsOf r.email, hkept, hpurged, ?_⟩
    rw [Store.remains, hrows, hexternal, hlinks, hlinked _ hid, hfind _ hid]

end deleting

section honouring

variable {s s' s₁ s₂ : Store} {r : ClientRecord} {email : String} {emails : List String} {ids : List Int}
  {keepTraffic : Bool} {rows : Rows}

def Rows.Empty (r : Rows) : Prop := r.usage = ([], [], [])

def SingleHonours (keepTraffic : Bool) (s : Store) (email : String) (ids : List Int) : Prop :=
  if keepTraffic then
    email = "" ∨ AlwaysShared s email ids ∨ (s.rowsOf email).traffics = [] ∧ (s.rowsOf email).ips = []
  else email ≠ "" ∨ (s.rowsOf email).Empty

def BulkHonours (keepTraffic : Bool) (f : BulkFaults) (s : Store) (emails : List String) (email : String) : Prop :=
  if keepTraffic then AlwaysSharedInBulk f s emails email ∨ (s.rowsOf email).Empty
  else ¬AlwaysSharedInBulk f s emails email ∨ (s.rowsOf email).globals = []

def SameRest (f : BulkFaults) (s : Store) (emails : List String) (r : ClientRecord) : Prop :=
  s.externalLinks.filter (·.clientId == r.recordId) = [] ∧
    ((s.rowsOf r.email).baselines = [] ∨
      (AlwaysShared s r.email (s.inboundIdsOf r.recordId) ∨ (s.rowsOf r.email).traffics = [] ↔
        AlwaysSharedInBulk f s emails r.email))

def heldBy (s : Store) (email : String) : List Int :=
  match s.record email with
  | some rec => s.inboundIdsOf rec.recordId
  | none => findInboundIdsByClientEmail s email

theorem purged_usage_iff : rows.purged.usage = rows.usage ↔ rows.traffics = [] ∧ rows.ips = [] := by
  cases h : rows.traffics with
  | nil => simp [Rows.purged, Rows.usage, h, eq_comm]
  | cons t ts => simp [Rows.purged, Rows.usage, Rows.none, h]

theorem single_iff {f : Nat → RemovalFaults} {mid : Store} {after : Rows} {u : Unit}
    (hloop : delFromInbounds f email 0 s ids = (mid, .ok u))
    (hafter : after = if keepTraffic ∨ email = "" then mid.rowsOf email
      else { Rows.none with baselines := (mid.rowsOf email).baselines }) :
    Honoured keepTraffic (s.rowsOf email) after ↔ SingleHonours keepTraffic s email ids := by
  by_cases hname : email = ""
  · subst hname
    rw [if_pos (.inr rfl), delFromInbounds_nameless hloop] at hafter
    rw [hafter]
    cases keepTraffic with
    | true => exact iff_of_true rfl (.inl rfl)
    | false => exact ⟨.inr, fun h => h.resolve_left (not_not_intro rfl)⟩
  · obtain ⟨hkept, hpurged⟩ := Removal.rows (delFromInbounds_run hname hloop)
    cases keepTraffic with
    | true =>
      rw [if_pos (.inl rfl)] at hafter
      rw [hafter]
      simp only [Honoured, SingleHonours, if_true, hname, false_or]
      by_cases hshared : AlwaysShared s email ids
      · rw [hkept hshared]
        exact iff_of_true rfl (.inl hshared)
      · rw [hpurged hshared, purged_usage_iff, or_iff_right hshared]
    | false =>
      rw [if_neg (by simpa using hname)] at hafter
      rw [hafter]
      exact iff_of_true rfl (.inl hname)

theorem bulk_iff {f : BulkFaults} {after : Rows}
    (hkept : AlwaysSharedInBulk f s emails email → rows = s.rowsOf email)
    (hpurged : ¬AlwaysSharedInBulk f s emails email → rows = Rows.none)
    (hafter : after = if keepTraffic then rows else { rows with traffics := [], ips := [] }) :
    Honoured keepTraffic (s.rowsOf email) after ↔ BulkHonours keepTraffic f s emails email := by
  rw [hafter]
  by_cases hshared : AlwaysSharedInBulk f s emails email
  · rw [hkept hshared]
    cases keepTraffic with
    | true => exact iff_of_true rfl (.inl hshared)
    | false => simp [Honoured, BulkHonours, Rows.usage, hshared]
  · rw [hpurged hshared]
    cases keepTraffic with
    | true =>
      simp only [Honoured, BulkHonours, if_true, hshared, false_or]
      exact eq_comm
    | false => exact iff_of_true rfl (.inl hshared)

theorem rows_ext {a b : Rows} (husage : a.usage = b.usage) : a = b ↔ a.baselines = b.baselines := by
  obtain ⟨_, _, _, _⟩ := a
  obtain ⟨_, _, _, _⟩ := b
  simp only [Rows.usage, Prod.mk.injEq] at husage
  simp [husage]

theorem purged_baselines : rows.purged.baselines = if rows.traffics = [] then rows.baselines else [] := by
  cases h : rows.traffics <;> simp [Rows.purged, Rows.none, h]

theorem honoured_usage {before a b : Rows} (ha : Honoured keepTraffic before a) (hb : Honoured keepTraffic before b) :
    a.usage = b.usage := by
  cases keepTraffic with
  | true => exact ha.trans hb.symm
  | false => exact ha.trans hb.symm

open Classical in
theorem baselines_single {f : Nat → RemovalFaults} {mid : Store} {u : Unit} (hne : email ≠ "")
    (hloop : delFromInbounds f email 0 s ids = (mid, .ok u)) : (mid.rowsOf email).baselines =
      if AlwaysShared s email ids ∨ (s.rowsOf email).traffics = [] then (s.rowsOf email).baselines else [] := by
  obtain ⟨hkept, hpurged⟩ := Removal.rows (delFromInbounds_run hne hloop)
  by_cases hshared : AlwaysShared s email ids
  · rw [hkept hshared, if_pos (.inl hshared)]
  · simp only [hpurged hshared, purged_baselines, hshared, false_or]

theorem chosen_iff {α : Type} {xs : List α} {p q : Prop} [Decidable p] [Decidable q] :
    (if p then xs else []) = (if q then xs else []) ↔ xs = [] ∨ (p ↔ q) := by
  by_cases hp : p <;> by_cases hq : q <;> simp [hp, hq, eq_comm]

theorem remains_iff {f : Faults} {f' : BulkFaults} {result : BulkDeleteResult}
    (hunique : (Clients.emails s.records).Nodup) (hr : r ∈ s.records.rows)
    (hsingle : delete f s r.recordId keepTraffic = (s₁, .ok ()))
    (hbulk : bulkDelete f' s emails keepTraffic = (s₂, .ok result)) (hclean : r.email ∈ cleanEmails emails)
    (hdeleted : r.email ∉ result.skipped.map (·.1)) :
    (Honoured keepTraffic (s.rowsOf r.email) (s₁.rowsOf r.email) ∧
      Honoured keepTraffic (s.rowsOf r.email) (s₂.rowsOf r.email) ∧ s₁.remains r = s₂.remains r) ↔
      SingleHonours keepTraffic s r.email (s.inboundIdsOf r.recordId) ∧
        BulkHonours keepTraffic f' s emails r.email ∧ SameRest f' s emails r := by
  classical
  have hfind := Table.find_of_mem hr
  have hrecord := BulkAdjust.record_of_mem hunique hr
  obtain ⟨mid, hloop, hremains⟩ := delete_remains hfind hsingle
  obtain ⟨rows, hkept, hpurged, hremains'⟩ := bulkDelete_remains hclean hrecord hdeleted hbulk
  have hne : r.email ≠ "" := (BulkAdjust.mem_cleanEmails.mp hclean).1
  have hfirst := single_iff hloop (congrArg Remains.rows hremains)
  have hsecond := bulk_iff hkept hpurged (congrArg Remains.rows hremains')
  have hrows : (s₁.remains r).rows = s₁.rowsOf r.email := rfl
  have hrows' : (s₂.remains r).rows = s₂.rowsOf r.email := rfl
  rw [hrows] at hfirst
  rw [hrows'] at hsecond
  rw [hfirst, hsecond]
  refine and_congr_right fun hh => and_congr_right fun hh' => ?_
  have husage := honoured_usage (hfirst.mpr hh) (hsecond.mpr hh')
  have hbaselines : (s₁.rowsOf r.email).baselines = (mid.rowsOf r.email).baselines := by
    rw [← hrows, hremains]
    dsimp only
    split <;> rfl
  have hbaselines' : (s₂.rowsOf r.email).baselines =
      if AlwaysSharedInBulk f' s emails r.email then (s.rowsOf r.email).baselines else [] := by
    have hkeep : (s₂.rowsOf r.email).baselines = rows.baselines := by
      rw [← hrows', hremains']
      dsimp only
      split <;> rfl
    by_cases hshared : AlwaysSharedInBulk f' s emails r.email
    · rw [hkeep, hkept hshared, if_pos hshared]
    · rw [hkeep, hpurged hshared, if_neg hshared]
      rfl
  have heq : s₁.remains r = s₂.remains r ↔
      s₁.rowsOf r.email = s₂.rowsOf r.email ∧ [] = s.externalLinks.filter (·.clientId == r.recordId) := by
    rw [← hrows, ← hrows', hremains, hremains']
    simp only [Remains.mk.injEq, and_true]
  rw [heq, rows_ext husage, hbaselines, hbaselines', baselines_single hne hloop, chosen_iff, and_comm]
  exact and_congr_left fun _ => eq_comm

theorem deleteByEmail_iff {f : Faults} (h : deleteByEmail f s email keepTraffic = (s', .ok ())) :
    Honoured keepTraffic (s.rowsOf email) (s'.rowsOf email) ↔
      SingleHonours keepTraffic s email (heldBy s email) := by
  rw [deleteByEmail] at h
  split at h
  · cases h
  case isFalse hne =>
    split at h
    · cases h
    case h_2 rec hread hrecord =>
      have hemail : rec.email = email := by simpa using find?_some hrecord
      have hfind := Table.find_of_mem (mem_of_find?_eq_some hrecord)
      obtain ⟨mid, hloop, hremains⟩ := delete_remains hfind h
      subst hemail
      rw [heldBy, hrecord]
      exact single_iff hloop (congrArg Remains.rows hremains)
    case h_3 hread hrecord =>
      dsimp only at h
      split at h
      · cases h
      · rw [andThen_ok] at h
        obtain ⟨mid, _, hloop, hforget⟩ := h
        rw [heldBy, hrecord]
        refine single_iff hloop ?_
        cases keepTraffic with
        | true =>
          cases hforget
          rfl
        | false =>
          rw [if_neg (by simpa using hne)]
          exact (forgetUsage_rows hforget).1

theorem keepTraffic_honoured_iff (s : Store) (keepTraffic : Bool) (hunique : (Clients.emails s.records).Nodup) :
    (∀ f r s', r ∈ s.records.rows → delete f s r.recordId keepTraffic = (s', .ok ()) →
      (Honoured keepTraffic (s.rowsOf r.email) (s'.rowsOf r.email) ↔
        SingleHonours keepTraffic s r.email (s.inboundIdsOf r.recordId))) ∧
    (∀ f email s', deleteByEmail f s email keepTraffic = (s', .ok ()) →
      (Honoured keepTraffic (s.rowsOf email) (s'.rowsOf email) ↔
        SingleHonours keepTraffic s email (heldBy s email))) ∧
    (∀ f emails s' result r, r ∈ s.records.rows → bulkDelete f s emails keepTraffic = (s', .ok result) →
      r.email ∈ cleanEmails emails → r.email ∉ result.skipped.map (·.1) →
      (Honoured keepTraffic (s.rowsOf r.email) (s'.rowsOf r.email) ↔
        BulkHonours keepTraffic f s emails r.email)) ∧
    (∀ f f' emails s₁ s₂ result r, r ∈ s.records.rows →
      delete f s r.recordId keepTraffic = (s₁, .ok ()) →
      bulkDelete f' s emails keepTraffic = (s₂, .ok result) → r.email ∈ cleanEmails emails →
      r.email ∉ result.skipped.map (·.1) →
      ((Honoured keepTraffic (s.rowsOf r.email) (s₁.rowsOf r.email) ∧
        Honoured keepTraffic (s.rowsOf r.email) (s₂.rowsOf r.email) ∧ s₁.remains r = s₂.remains r) ↔
        SingleHonours keepTraffic s r.email (s.inboundIdsOf r.recordId) ∧
          BulkHonours keepTraffic f' s emails r.email ∧ SameRest f' s emails r)) := by
  refine ⟨fun f r s' hr h => ?_, fun f email s' h => deleteByEmail_iff h,
    fun f emails s' result r hr h hclean hdeleted => ?_,
    fun f f' emails s₁ s₂ result r hr hsingle hbulk hclean hdeleted =>
      remains_iff hunique hr hsingle hbulk hclean hdeleted⟩
  · obtain ⟨mid, hloop, hremains⟩ := delete_remains (Table.find_of_mem hr) h
    exact single_iff hloop (congrArg Remains.rows hremains)
  · obtain ⟨rows, hkept, hpurged, hremains⟩ :=
      bulkDelete_remains hclean (BulkAdjust.record_of_mem hunique hr) hdeleted h
    exact bulk_iff hkept hpurged (congrArg Remains.rows hremains)

end honouring

section examples

def noRemovalFaults : RemovalFaults := ⟨none, none, none, none, none, none, none, none, none⟩

def noFinishFaults : FinishFaults := ⟨none, none, none, none, none, none⟩

def calm : Faults := ⟨none, fun _ => noRemovalFaults, noFinishFaults⟩

theorem id_perm (ids : List Int) : (id ids).Perm ids := .refl _

def calmBulk : BulkFaults where
  order := id
  order_perm := id_perm
  read := none
  removal := fun _ => noRemovalFaults
  finish := noFinishFaults

def spent : Store where
  toDB := { BulkAdjust.attachedOnce 0 0 with traffics := [⟨1, "alice", 5, 7, 0, 0, true, 0⟩] }
  globals := [⟨"m1", "alice", 5, 7⟩]
  ips := [⟨"alice", "[]"⟩]
  baselines := []
  externalLinks := []

def alice : ClientRecord := BulkAdjust.holderRecord 0 0

theorem kept_traffic_purged : ¬ ∀ f s r s', (Clients.emails s.records).Nodup → r ∈ s.records.rows →
    delete f s r.recordId true = (s', .ok ()) → Honoured true (s.rowsOf r.email) (s'.rowsOf r.email) := by
  intro hclaim
  have hhonoured := hclaim calm spent alice (delete calm spent 1 true).1 (nodup_singleton _)
    (mem_singleton_self _) rfl
  have htraffics := congrArg (·.1) hhonoured
  exact absurd htraffics nofun

theorem keepTraffic_honoured_alice :
    (Honoured true (spent.rowsOf "alice") ((delete calm spent 1 true).1.rowsOf "alice") ↔
      SingleHonours true spent "alice" [1]) ∧
    (Honoured true (spent.rowsOf "alice") ((bulkDelete calmBulk spent ["alice"] true).1.rowsOf "alice") ↔
      BulkHonours true calmBulk spent ["alice"] "alice") := by
  obtain ⟨hdelete, -, hbulk, -⟩ := keepTraffic_honoured_iff spent true (nodup_singleton _)
  have hclean : "alice" ∈ cleanEmails ["alice"] := by decide
  exact ⟨hdelete calm alice _ (mem_singleton_self _) rfl,
    hbulk calmBulk ["alice"] _ ⟨1, []⟩ alice (mem_singleton_self _) rfl hclean not_mem_nil⟩

end examples

end KeepTraffic

end QuiPanel
