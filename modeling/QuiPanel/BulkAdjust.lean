import QuiPanel.Rewriting

namespace QuiPanel

namespace BulkAdjust

open Keyed Outcome Clients ListSync Overwrite List
open Rewriting (mergeAll_append occurrences_append)

def wrap64 (n : Int) : Int := n.bmod (2 ^ 64)

inductive Reason
  | clientNotFound
  | unlimitedExpiry
  | reductionExceedsRemainingTime
  | reductionExceedsDelayWindow
  | unlimitedTraffic
  | clientNotFoundInInbound
  | failed (err : String)
  deriving DecidableEq

def Reason.text : Reason → String
  | .clientNotFound => "client not found"
  | .unlimitedExpiry => "unlimited expiry"
  | .reductionExceedsRemainingTime => "reduction exceeds remaining time"
  | .reductionExceedsDelayWindow => "reduction exceeds delay window"
  | .unlimitedTraffic => "unlimited traffic"
  | .clientNotFoundInInbound => "Client Not Found In Inbound"
  | .failed err => err

structure Entry where
  newExpiry : Option Int
  newTotal : Option Int
  deriving DecidableEq

structure Result where
  adjusted : Nat
  skipped : List (String × Reason)

structure Faults where
  now : Int
  order : List Int → List Int
  order_perm : ∀ ids, (order ids).Perm ids
  read : Option String
  load : Int → Option String
  nodePlan : Int → Option String
  write : Int → Option String
  updates : String → Option String

section planning

variable (addDays addBytes : Int)

def addExpiryMs : Int := wrap64 (addDays * 24 * 60 * 60 * 1000)

def planExpiry (expiryTime : Int) : Except Reason (Option Int) :=
  if addDays = 0 then .ok none
  else if expiryTime = 0 then .error .unlimitedExpiry
  else if 0 < expiryTime then
    let next := wrap64 (expiryTime + addExpiryMs addDays)
    if next ≤ 0 then .error .reductionExceedsRemainingTime else .ok (some next)
  else
    let next := wrap64 (expiryTime - addExpiryMs addDays)
    if 0 ≤ next then .error .reductionExceedsDelayWindow else .ok (some next)

def planTotal (totalGB : Int) : Except Reason (Option Int) :=
  if addBytes = 0 then .ok none
  else if totalGB = 0 then .error .unlimitedTraffic
  else .ok (some (max (wrap64 (totalGB + addBytes)) 0))

def chosen (planned : Except Reason (Option Int)) : Option Int := planned.toOption.join

def refusal (planned : Except Reason (Option Int)) : Option Reason :=
  match planned with
  | .error reason => some reason
  | .ok _ => none

def entryFor (rec : ClientRecord) : Option Entry :=
  let entry : Entry := ⟨chosen (planExpiry addDays rec.expiryTime), chosen (planTotal addBytes rec.totalGB)⟩
  if entry.newExpiry.isSome || entry.newTotal.isSome then some entry else none

def skippedFirst (rec : ClientRecord) : Option Reason :=
  (refusal (planExpiry addDays rec.expiryTime)).or (refusal (planTotal addBytes rec.totalGB))

def planFor (db : DB) (email : String) : Option Entry :=
  (db.record email).bind (entryFor addDays addBytes)

def reasonFor (db : DB) (email : String) : Option Reason :=
  match db.record email with
  | none => some .clientNotFound
  | some rec => skippedFirst addDays addBytes rec

end planning

def cleanEmails (emails : List String) : List String :=
  ((emails.map Text.trimSpace).filter (· ≠ "")).reverse.dedup.reverse

section inbounds

variable (f : Faults) (plan : String → Option Entry)

def adjustEntry (wantedEmails : List String) (c : Client) : Client :=
  if wantedEmails.contains c.email then
    match plan c.email with
    | none => c
    | some entry =>
      { c with
        expiryTime := entry.newExpiry.getD c.expiryTime
        totalGB := entry.newTotal.getD c.totalGB
        updatedAt := f.now }
  else c

structure Run where
  db : DB
  skipped : List (String × Reason)
  failures : List String

def Run.failAll (run : Run) (emails : List String) (err : String) : Run :=
  { run with
    skipped := run.skipped ++ emails.map (·, .failed err)
    failures := run.failures ++ [err] }

def getInbound (db : DB) (inboundId : Int) : Except String Inbound := do
  check (f.load inboundId).isNone ((f.load inboundId).getD "")
  orErr (db.inbounds.find inboundId) errNotFound

def bulkAdjustInboundClients (run : Run) (inboundId : Int) (emails : List String) : Run :=
  match getInbound f run.db inboundId with
  | .error err => run.failAll emails err
  | .ok oldInbound =>
    let clients := oldInbound.clients.getD []
    let foundEmails := emails.filter fun email => clients.any (·.email == email)
    let missing := (emails.filter fun email => !clients.any (·.email == email)).map
      (·, Reason.clientNotFoundInInbound)
    let run := { run with skipped := run.skipped ++ missing }
    if foundEmails = [] then run
    else
      let finalClients := clients.map (adjustEntry f plan emails)
      let perr := if oldInbound.nodeId.isSome then f.nodePlan inboundId else none
      let run := perr.elim run (run.failAll foundEmails)
      let synced := do
        check (f.write inboundId).isNone ((f.write inboundId).getD "")
        syncInbound f.now (saveClients run.db inboundId finalClients) inboundId finalClients
      match synced with
      | .error err => run.failAll (if perr.isSome then [] else foundEmails) err
      | .ok db => { run with db }

def wanted (db : DB) (plannedEmails : List String) (inboundId : Int) : List String :=
  plannedEmails.filter fun email =>
    (db.record email).any fun rec => (db.inboundIdsOf rec.recordId).contains inboundId

def mappedInbounds (db : DB) (plannedEmails : List String) : List Int :=
  (plannedEmails.flatMap fun email => ((db.record email).map fun rec => db.inboundIdsOf rec.recordId).getD []).dedup

def adjustInbounds (db : DB) (plannedEmails : List String) : Run :=
  (f.order (mappedInbounds db plannedEmails)).foldl
    (fun run i => bulkAdjustInboundClients f plan run i (wanted db plannedEmails i)) ⟨db, [], []⟩

end inbounds

section adjusting

variable (f : Faults)

def updateTraffic (entry : Entry) (email : String) (traffics : List ClientTraffic) : List ClientTraffic :=
  traffics.map fun t =>
    if t.email = email then
      { t with
        expiryTime := entry.newExpiry.getD t.expiryTime, total := entry.newTotal.getD t.total }
    else t

def reported (addDays addBytes : Int) (db : DB) (run : Run) (email : String) : Option Reason :=
  (reasonFor addDays addBytes db email).or ((run.skipped.find? (·.1 = email)).map (·.2))

def adjustTraffics (addDays addBytes : Int) (db : DB) (run : Run) (plannedEmails : List String) :
    List ClientTraffic :=
  plannedEmails.foldl (fun traffics email =>
    match planFor addDays addBytes db email with
    | none => traffics
    | some entry =>
      if (reported addDays addBytes db run email).isSome || (f.updates email).isSome then traffics
      else updateTraffic entry email traffics) run.db.traffics

def finalReason (addDays addBytes : Int) (db : DB) (run : Run) (email : String) : Option Reason :=
  (reported addDays addBytes db run email).or ((f.updates email).map .failed)

def bulkAdjust (db : DB) (emails : List String) (addDays addBytes : Int) : DB × Except String Result :=
  let cleanEmails := cleanEmails emails
  if emails = [] then (db, .ok ⟨0, []⟩)
  else if addDays = 0 ∧ addBytes = 0 then (db, .error "no adjustment specified\n")
  else if cleanEmails = [] then (db, .ok ⟨0, []⟩)
  else
    match f.read with
    | some err => (db, .error err)
    | none =>
      let plannedEmails := cleanEmails.filter fun email => (planFor addDays addBytes db email).isSome
      let run := adjustInbounds f (planFor addDays addBytes db) db plannedEmails
      let reasonOf := fun email =>
        if (planFor addDays addBytes db email).isSome then finalReason f addDays addBytes db run email
        else reasonFor addDays addBytes db email
      ({ run.db with traffics := adjustTraffics f addDays addBytes db run plannedEmails },
        .ok {
          adjusted := (plannedEmails.filter fun email => (reasonOf email).isNone).length
          skipped := cleanEmails.filterMap fun email => (reasonOf email).map (email, ·) })

end adjusting

section agreement

def limits (c : Client) : Int × Int := (c.totalGB, c.expiryTime)

def rowLimits (t : ClientTraffic) : Int × Int := (t.total, t.expiryTime)

structure Agree (db : DB) (r : ClientRecord) : Prop where
  entries : ∀ i, ∀ c ∈ occurrences (db.settingsClients i) r.email, limits c = limits r.toClient
  rows : ∀ t ∈ db.traffics, t.email = r.email → rowLimits t = limits r.toClient

def foundIn (db : DB) (i : Int) (email : String) : Bool :=
  (db.settingsClients i).any (·.email == email)

def Attached (db : DB) (r : ClientRecord) : Prop :=
  ∀ i ∈ db.inboundIdsOf r.recordId, foundIn db i r.email = true

structure Unchanged (db db' : DB) (email : String) : Prop where
  record : ∀ r ∈ db.records.rows, r.email = email →
    ∃ r', db'.records.find r.recordId = some r' ∧ limits r'.toClient = limits r.toClient
  entries : ∀ i, (occurrences (db'.settingsClients i) email).map limits =
    (occurrences (db.settingsClients i) email).map limits
  rows : (db'.traffics.filter (·.email == email)).map rowLimits =
    (db.traffics.filter (·.email == email)).map rowLimits

structure Coherent (db : DB) (emails : List String) (db' : DB) (res : Result) : Prop where
  agree : ∀ r ∈ db.records.rows, Agree db r →
    ∃ r', db'.records.find r.recordId = some r' ∧ r'.email = r.email ∧ Agree db' r'
  skipped : ∀ email reason, (email, reason) ∈ res.skipped → Unchanged db db' email
  adjusted : res.adjusted =
    ((cleanEmails emails).filter fun e => db.recorded e && !res.skipped.any (·.1 == e)).length

def newLimits (addDays addBytes : Int) (r : ClientRecord) : Int × Int :=
  ((chosen (planTotal addBytes r.totalGB)).getD r.totalGB,
    (chosen (planExpiry addDays r.expiryTime)).getD r.expiryTime)

structure Fits (db : DB) (addDays addBytes : Int) (r : ClientRecord) : Prop where
  detached : db.inboundIdsOf r.recordId = [] →
    (skippedFirst addDays addBytes r).isSome ∨ ∀ t ∈ db.traffics, t.email ≠ r.email
  attached : db.inboundIdsOf r.recordId ≠ [] → skippedFirst addDays addBytes r = none ∧
    ∀ i, ∀ c ∈ occurrences (db.settingsClients i) r.email, c.email = r.email ∧ i ∈ db.inboundIdsOf r.recordId

def plannedEmails (addDays addBytes : Int) (db : DB) (emails : List String) : List String :=
  (cleanEmails emails).filter fun email => (planFor addDays addBytes db email).isSome

structure Faultless (f : Faults) (addDays addBytes : Int) (db : DB) (emails : List String) : Prop where
  inbounds : (adjustInbounds f (planFor addDays addBytes db) db
    (plannedEmails addDays addBytes db emails)).failures = []
  updates : ∀ email, f.updates email = none

end agreement

section running

variable {f : Faults} {plan : String → Option Entry} {run start mid : Run} {i j : Int} {emails : List String}
  {ids : List Int} {want : Int → List String} {db db' : DB} {c : Client} {cs : List Client}

def adjusted (f : Faults) (plan : String → Option Entry) (want : Int → List String) (db : DB) (i : Int) :
    List Client :=
  (db.settingsClients i).map (adjustEntry f plan (want i))

def missingIn (want : Int → List String) (db : DB) (i : Int) : List (String × Reason) :=
  ((want i).filter fun email => !foundIn db i email).map (·, Reason.clientNotFoundInInbound)

structure Ran (f : Faults) (plan : String → Option Entry) (want : Int → List String) (ids synced : List Int)
    (start run : Run) : Prop where
  settings : ∀ j, run.db.settingsClients j =
    if j ∈ ids then adjusted f plan want start.db j else start.db.settingsClients j
  traffics : run.db.traffics = start.db.traffics
  sound : ∀ i ∈ synced, i ∈ ids
  covers : ∀ i ∈ ids, ∀ email ∈ want i, foundIn start.db i email = true → i ∈ synced
  records : ∀ id r, start.db.records.find id = some r → run.db.records.find id =
    some (mergeAll (occurrences (named (synced.flatMap (adjusted f plan want start.db))) r.email) r)
  skipped : run.skipped = start.skipped ++ ids.flatMap (missingIn want start.db)

theorem adjustEntry_unwanted (h : c.email ∉ emails) : adjustEntry f plan emails c = c := by
  rw [adjustEntry, if_neg (by simpa using h)]

theorem adjustEntry_email : (adjustEntry f plan emails c).email = c.email := by
  rw [adjustEntry]
  split
  · split <;> rfl
  · rfl

theorem failures_failAll {err : String} : (run.failAll emails err).failures ≠ [] := by
  simp [Run.failAll]

theorem sync_saved {now : Int} (hfind : (db.inbounds.find i).isSome)
    (h : syncInbound now (saveClients db i cs) i cs = .ok db') :
    (∀ j, db'.settingsClients j = if j = i then cs else db.settingsClients j) ∧
      db'.traffics = db.traffics ∧ ∀ id r, db.records.find id = some r →
        db'.records.find id = some (mergeAll (occurrences (named cs) r.email) r) := by
  obtain ⟨records, hcreate, rfl⟩ := ListSync.syncInbound_ok.mp h
  refine ⟨fun j => ?_, rfl, fun id r hr => ?_⟩
  · exact settingsClients_saved hfind j
  · obtain ⟨hmem, rfl⟩ := Table.mem_of_find hr
    have hmerged : mergeAll (occurrences (named cs) r.email) r ∈ (mergeRecords db.records (named cs)).rows := by
      rw [rows_mergeRecords]
      exact mem_map.mpr ⟨r, hmem, rfl⟩
    have hfound := Table.find_of_mem (createInBatches_kept hcreate hmerged)
    rw [mergeAll_recordId] at hfound
    exact hfound

theorem bulkAdjustInboundClients_ran
    (h : (bulkAdjustInboundClients f plan run i (want i)).failures = []) :
    run.failures = [] ∧ ∃ synced,
      Ran f plan want [i] synced run (bulkAdjustInboundClients f plan run i (want i)) := by
  rw [bulkAdjustInboundClients] at h ⊢
  cases hload : getInbound f run.db i with
  | error err =>
    rw [hload] at h
    exact absurd h failures_failAll
  | ok ib =>
    have hfind : run.db.inbounds.find i = some ib := by
      simp only [getInbound, bind_ok, orErr_ok] at hload
      obtain ⟨_, -, hfind⟩ := hload
      exact hfind
    rw [hload] at h
    simp only [← settingsClients_find hfind] at h ⊢
    split at h
    case isTrue hnone =>
      rw [if_pos hnone]
      have hunfound : ∀ email ∈ want i, foundIn run.db i email = false := by
        intro email hemail
        have hout := filter_eq_nil_iff.mp hnone email hemail
        simpa [foundIn] using hout
      have hsame : adjusted f plan want run.db i = run.db.settingsClients i := by
        refine (map_congr_left fun c hc => adjustEntry_unwanted fun hwant => ?_).trans (map_id _)
        have hin : foundIn run.db i c.email = true := any_eq_true.mpr ⟨c, hc, by simp⟩
        rw [hunfound _ hwant] at hin
        cases hin
      refine ⟨h, [], fun j => ?_, rfl, forall_mem_nil _, ?_, fun id r hr => hr, ?_⟩
      · split
        case isTrue hj =>
          obtain rfl := mem_singleton.mp hj
          exact hsame.symm
        case isFalse => rfl
      · intro j hj email hemail hin
        obtain rfl := mem_singleton.mp hj
        rw [hunfound email hemail] at hin
        cases hin
      · simp only [flatMap_cons, flatMap_nil, append_nil]
        rfl
    case isFalse hfound =>
      rw [if_neg hfound]
      cases hperr : (if ib.nodeId.isSome then f.nodePlan i else none) with
      | some err =>
        rw [hperr] at h
        simp only [Option.elim_some] at h
        split at h
        · exact absurd h failures_failAll
        · simp [Run.failAll] at h
      | none =>
        rw [hperr] at h
        simp only [Option.elim_none] at h ⊢
        split at h
        case h_1 => exact absurd h failures_failAll
        case h_2 db' hsync =>
          simp only [bind_ok] at hsync
          obtain ⟨_, -, hsync⟩ := hsync
          obtain ⟨hsettings, htraffics, hrecords⟩ := sync_saved (by rw [hfind]; rfl) hsync
          refine ⟨h, [i], fun j => ?_, htraffics, fun _ hj => hj, fun j hj _ _ _ => hj, fun id r hr => ?_, ?_⟩
          · rw [hsettings]
            simp only [mem_singleton]
            split
            case isTrue hj =>
              subst hj
              rfl
            case isFalse => rfl
          · simp only [flatMap_cons, flatMap_nil, append_nil]
            exact hrecords id r hr
          · simp only [flatMap_cons, flatMap_nil, append_nil]
            rfl

theorem Ran.refl : Ran f plan want [] [] run run :=
  ⟨fun _ => (if_neg not_mem_nil).symm, rfl, forall_mem_nil _, forall_mem_nil _,
    fun _ _ hr => hr, (append_nil _).symm⟩

theorem Ran.cons {synced synced' : List Int} (h : Ran f plan want [i] synced start mid)
    (h' : Ran f plan want ids synced' mid run) (hnew : i ∉ ids) :
    Ran f plan want (i :: ids) (synced ++ synced') start run := by
  have hother : ∀ j ∈ ids, mid.db.settingsClients j = start.db.settingsClients j := by
    intro j hj
    rw [h.settings j, if_neg]
    intro hi
    rw [mem_singleton.mp hi] at hj
    exact hnew hj
  have hfound : ∀ j ∈ ids, ∀ email, foundIn mid.db j email = foundIn start.db j email := by
    intro j hj email
    rw [foundIn, foundIn, hother j hj]
  have hadjusted : ∀ j ∈ ids, adjusted f plan want mid.db j = adjusted f plan want start.db j := by
    intro j hj
    rw [adjusted, adjusted, hother j hj]
  refine ⟨fun j => ?_, h'.traffics.trans h.traffics, ?_, ?_, fun id r hr => ?_, ?_⟩
  · rw [h'.settings j]
    by_cases hj : j ∈ ids
    · rw [if_pos hj, if_pos (mem_cons_of_mem _ hj), hadjusted j hj]
    · rw [if_neg hj, h.settings j]
      by_cases hi : j = i
      · rw [if_pos (mem_singleton.mpr hi), if_pos (mem_cons.mpr (.inl hi))]
      · rw [if_neg (by simpa using hi), if_neg (by simp [hi, hj])]
  · intro j hj
    rcases mem_append.mp hj with hj | hj
    · exact mem_cons.mpr (.inl (mem_singleton.mp (h.sound j hj)))
    · exact mem_cons_of_mem _ (h'.sound j hj)
  · intro j hj email hemail hin
    rcases mem_cons.mp hj with rfl | hj
    · exact mem_append_left _ (h.covers j (mem_singleton_self j) email hemail hin)
    · exact mem_append_right _ (h'.covers j hj email hemail ((hfound j hj email).trans hin))
  · have hmid := h.records id r hr
    have hlist : synced'.flatMap (adjusted f plan want mid.db) = synced'.flatMap (adjusted f plan want start.db) :=
      flatMap_congr fun j hj => hadjusted j (h'.sound j hj)
    rw [h'.records id _ hmid, mergeAll_email, ← mergeAll_append, ← occurrences_append, hlist,
      flatMap_append, named, named, named, filter_append]
  · have hlist : ids.flatMap (missingIn want mid.db) = ids.flatMap (missingIn want start.db) := by
      refine flatMap_congr fun j hj => ?_
      simp only [missingIn, hfound j hj]
    rw [h'.skipped, h.skipped, hlist, flatMap_cons, flatMap_cons, flatMap_nil, append_nil,
      append_assoc]

theorem adjustInbounds_ran (hnodup : ids.Nodup)
    (h : (ids.foldl (fun run i => bulkAdjustInboundClients f plan run i (want i)) start).failures = []) :
    start.failures = [] ∧ ∃ synced,
      Ran f plan want ids synced start
        (ids.foldl (fun run i => bulkAdjustInboundClients f plan run i (want i)) start) := by
  induction ids generalizing start with
  | nil => exact ⟨h, [], .refl⟩
  | cons i ids ih =>
    obtain ⟨hnew, hnodup⟩ := nodup_cons.mp hnodup
    obtain ⟨hmid, synced', hrest⟩ := ih hnodup h
    obtain ⟨hstart, synced, hone⟩ := bulkAdjustInboundClients_ran hmid
    exact ⟨hstart, synced ++ synced', hone.cons hrest hnew⟩

end running

section outcome

variable {f : Faults} {addDays addBytes : Int} {db db' : DB} {emails : List String} {res : Result}
  {r r' : ClientRecord} {c : Client} {i j : Int} {e : String} {t : ClientTraffic}

theorem mem_cleanEmails : e ∈ cleanEmails emails ↔ e ≠ "" ∧ ∃ x ∈ emails, Text.trimSpace x = e := by
  simp only [cleanEmails, mem_reverse, mem_dedup, mem_filter, mem_map, ne_eq,
    decide_eq_true_eq]
  exact and_comm

theorem cleanEmails_nodup : (cleanEmails emails).Nodup :=
  nodup_reverse.mpr (nodup_dedup _)

theorem trimmed_of_clean (h : e ∈ cleanEmails emails) : Text.trimSpace e = e := by
  obtain ⟨-, x, -, rfl⟩ := mem_cleanEmails.mp h
  exact trimSpace_twice x

abbrev Unique (db : DB) : Prop := (Clients.emails db.records).Nodup

theorem record_of_mem (hunique : Unique db) (hr : r ∈ db.records.rows) :
    db.record r.email = some r := by
  cases h : db.record r.email with
  | none => exact absurd (find?_eq_none.mp h r hr) (by simp)
  | some r' =>
    have hemail : r'.email = r.email := by simpa using find?_some h
    rw [eq_of_email hunique (mem_of_find?_eq_some h) hr hemail]

theorem record_mem (h : db.record e = some r) : r ∈ db.records.rows ∧ r.email = e :=
  ⟨mem_of_find?_eq_some h, by simpa using find?_some h⟩

def runOf (f : Faults) (addDays addBytes : Int) (db : DB) (emails : List String) : Run :=
  adjustInbounds f (planFor addDays addBytes db) db (plannedEmails addDays addBytes db emails)

def reasonOf (f : Faults) (addDays addBytes : Int) (db : DB) (emails : List String) (email : String) :
    Option Reason :=
  if (planFor addDays addBytes db email).isSome then
    finalReason f addDays addBytes db (runOf f addDays addBytes db emails) email
  else reasonFor addDays addBytes db email

theorem adjustInbounds_nil (plan : String → Option Entry) : adjustInbounds f plan db [] = ⟨db, [], []⟩ := by
  have hnone : f.order (mappedInbounds db []) = [] := perm_nil.mp (f.order_perm [])
  rw [adjustInbounds, hnone]
  rfl

def finalDB (f : Faults) (addDays addBytes : Int) (db : DB) (emails : List String) : DB :=
  { (runOf f addDays addBytes db emails).db with
    traffics := adjustTraffics f addDays addBytes db (runOf f addDays addBytes db emails)
      (plannedEmails addDays addBytes db emails) }

def finalResult (f : Faults) (addDays addBytes : Int) (db : DB) (emails : List String) : Result where
  adjusted := ((plannedEmails addDays addBytes db emails).filter fun email =>
    (reasonOf f addDays addBytes db emails email).isNone).length
  skipped := (cleanEmails emails).filterMap fun email =>
    (reasonOf f addDays addBytes db emails email).map (email, ·)

theorem final_empty (f : Faults) (addDays addBytes : Int) (db : DB) (emails : List String)
    (h : cleanEmails emails = []) :
    finalDB f addDays addBytes db emails = db ∧ finalResult f addDays addBytes db emails = ⟨0, []⟩ := by
  have hplanned : plannedEmails addDays addBytes db emails = [] := by
    rw [plannedEmails, h]
    rfl
  have hrun : runOf f addDays addBytes db emails = ⟨db, [], []⟩ := by
    rw [runOf, hplanned, adjustInbounds_nil]
  rw [finalDB, finalResult, hplanned, h, hrun]
  exact ⟨rfl, rfl⟩

theorem bulkAdjust_eq (h : bulkAdjust f db emails addDays addBytes = (db', .ok res)) :
    db' = finalDB f addDays addBytes db emails ∧ res = finalResult f addDays addBytes db emails := by
  rw [bulkAdjust] at h
  split at h
  case isTrue hnone =>
    subst hnone
    simp only [Prod.mk.injEq, Except.ok.injEq] at h
    obtain ⟨hdb, hres⟩ := final_empty f addDays addBytes db [] rfl
    exact ⟨h.1.symm.trans hdb.symm, h.2.symm.trans hres.symm⟩
  case isFalse =>
    split at h
    · cases h
    · split at h
      case isTrue hnone =>
        simp only [Prod.mk.injEq, Except.ok.injEq] at h
        obtain ⟨hdb, hres⟩ := final_empty f addDays addBytes db emails hnone
        exact ⟨h.1.symm.trans hdb.symm, h.2.symm.trans hres.symm⟩
      case isFalse =>
        split at h
        · cases h
        · simp only [Prod.mk.injEq, Except.ok.injEq] at h
          exact ⟨h.1.symm, h.2.symm⟩

abbrev wantedOf (addDays addBytes : Int) (db : DB) (emails : List String) : Int → List String :=
  wanted db (plannedEmails addDays addBytes db emails)

theorem planFor_of_mem (hunique : Unique db) (hr : r ∈ db.records.rows) :
    planFor addDays addBytes db r.email = entryFor addDays addBytes r := by
  rw [planFor, record_of_mem hunique hr]
  rfl

theorem mem_wanted (hunique : Unique db) (hr : r ∈ db.records.rows) :
    r.email ∈ wantedOf addDays addBytes db emails i ↔
      r.email ∈ cleanEmails emails ∧ (entryFor addDays addBytes r).isSome ∧ i ∈ db.inboundIdsOf r.recordId := by
  simp only [wantedOf, wanted, plannedEmails, mem_filter, planFor_of_mem hunique hr,
    record_of_mem hunique hr, Option.any_some, contains_iff_mem, and_assoc]

theorem wanted_record (h : e ∈ wantedOf addDays addBytes db emails i) :
    e ∈ cleanEmails emails ∧ ∃ r ∈ db.records.rows, r.email = e ∧ i ∈ db.inboundIdsOf r.recordId := by
  simp only [wantedOf, wanted, plannedEmails, mem_filter] at h
  obtain ⟨⟨hclean, -⟩, hany⟩ := h
  cases hrec : db.record e with
  | none =>
    rw [hrec] at hany
    cases hany
  | some r =>
    rw [hrec] at hany
    obtain ⟨hmem, hemail⟩ := record_mem hrec
    exact ⟨hclean, r, hmem, hemail, by simpa using hany⟩

theorem wanted_mapped (h : e ∈ wantedOf addDays addBytes db emails i) :
    i ∈ f.order (mappedInbounds db (plannedEmails addDays addBytes db emails)) := by
  rw [(f.order_perm _).mem_iff, mappedInbounds, mem_dedup, mem_flatMap]
  simp only [wantedOf, wanted, mem_filter] at h
  obtain ⟨hplanned, hany⟩ := h
  refine ⟨e, hplanned, ?_⟩
  cases hrec : db.record e with
  | none =>
    rw [hrec] at hany
    cases hany
  | some r =>
    rw [hrec] at hany
    simpa using hany

theorem runOf_ran (hfaultless : Faultless f addDays addBytes db emails) : ∃ synced,
    Ran f (planFor addDays addBytes db) (wantedOf addDays addBytes db emails)
      (f.order (mappedInbounds db (plannedEmails addDays addBytes db emails))) synced ⟨db, [], []⟩
      (runOf f addDays addBytes db emails) := by
  have hnodup := ((f.order_perm _).nodup_iff).mpr
    (nodup_dedup ((plannedEmails addDays addBytes db emails).flatMap fun email =>
      ((db.record email).map fun rec => db.inboundIdsOf rec.recordId).getD []))
  exact (adjustInbounds_ran hnodup hfaultless.inbounds).2

variable {plan : String → Option Entry}

theorem adjusted_unwanted {want : Int → List String}
    (h : ∀ c ∈ db.settingsClients i, c.email ∉ want i) : adjusted f plan want db i = db.settingsClients i :=
  (map_congr_left fun c hc => adjustEntry_unwanted (h c hc)).trans (map_id _)

theorem settings_final (hfaultless : Faultless f addDays addBytes db emails) (j : Int) :
    (finalDB f addDays addBytes db emails).settingsClients j =
      adjusted f (planFor addDays addBytes db) (wantedOf addDays addBytes db emails) db j := by
  obtain ⟨synced, hran⟩ := runOf_ran hfaultless
  refine (hran.settings j).trans ?_
  split
  · rfl
  case isFalse hj => exact (adjusted_unwanted fun c _ hc => hj (wanted_mapped hc)).symm

theorem occurrences_adjusted {want : Int → List String} :
    occurrences (adjusted f plan want db i) e =
      (occurrences (db.settingsClients i) e).map (adjustEntry f plan (want i)) := by
  rw [adjusted, occurrences, filter_map]
  simp only [Function.comp_def, adjustEntry_email]
  rfl

theorem limits_adjustEntry (hunique : Unique db) (hr : r ∈ db.records.rows)
    (hlimits : limits c = limits r.toClient) (htrim : Text.trimSpace c.email = r.email) :
    limits (adjustEntry f (planFor addDays addBytes db) (wantedOf addDays addBytes db emails i) c) =
      if c.email = r.email ∧ r.email ∈ wantedOf addDays addBytes db emails i then
        newLimits addDays addBytes r
      else limits r.toClient := by
  by_cases hin : c.email ∈ wantedOf addDays addBytes db emails i
  · have hexact : c.email = r.email := by
      rw [← htrim, trimmed_of_clean (wanted_record hin).1]
    have hwant := hexact ▸ hin
    rw [if_pos ⟨hexact, hwant⟩, adjustEntry, if_pos (by simpa using hin), hexact, planFor_of_mem hunique hr]
    have hsome := ((mem_wanted hunique hr).mp hwant).2.1
    simp only [limits, Prod.mk.injEq] at hlimits
    rw [entryFor] at hsome ⊢
    split at hsome
    case isTrue hany => rw [if_pos hany]; simp only [limits, newLimits, hlimits.1, hlimits.2]
    case isFalse => cases hsome
  · rw [adjustEntry_unwanted hin, hlimits, if_neg]
    rintro ⟨hexact, hwant⟩
    exact hin (hexact ▸ hwant)

theorem mergeAll_limits {cs : List Client} :
    limits (mergeAll cs r).toClient = (cs.getLast?.map limits).getD (limits r.toClient) := by
  rw [mergeAll, foldl_field (g := fun c : Client => some (limits c)) (fun r c => mergeRecord c r)
    (fun r : ClientRecord => limits r.toClient) (fun _ _ => rfl), overwrite_eq, filterMap_eq_map',
    getLast?_map]

theorem record_final (hfaultless : Faultless f addDays addBytes db emails) (hr : r ∈ db.records.rows) :
    ∃ synced : List Int,
      (∀ i, ∀ email ∈ wantedOf addDays addBytes db emails i, foundIn db i email = true → i ∈ synced) ∧
      (finalDB f addDays addBytes db emails).records.find r.recordId = some (mergeAll (occurrences (named
        (synced.flatMap (adjusted f (planFor addDays addBytes db) (wantedOf addDays addBytes db emails) db)))
        r.email) r) := by
  obtain ⟨synced, hran⟩ := runOf_ran hfaultless
  exact ⟨synced, fun i email hin hfound => hran.covers i (wanted_mapped hin) email hin hfound,
    hran.records _ _ (Table.find_of_mem hr)⟩

theorem record_limits (hfaultless : Faultless f addDays addBytes db emails) (hr : r ∈ db.records.rows) :
    ∃ r', (finalDB f addDays addBytes db emails).records.find r.recordId = some r' ∧ r'.email = r.email ∧
      ((∃ i, ∃ c ∈ occurrences ((finalDB f addDays addBytes db emails).settingsClients i) r.email,
          limits r'.toClient = limits c) ∨
        limits r'.toClient = limits r.toClient ∧
          ∀ i, r.email ∈ wantedOf addDays addBytes db emails i → foundIn db i r.email = false) := by
  obtain ⟨synced, hcovers, hfind⟩ := record_final hfaultless hr
  refine ⟨_, hfind, mergeAll_email, ?_⟩
  rw [mergeAll_limits]
  cases hlast : (occurrences (named (synced.flatMap (adjusted f (planFor addDays addBytes db)
      (wantedOf addDays addBytes db emails) db))) r.email).getLast? with
  | some c =>
    obtain ⟨hmem, hname⟩ := mem_filter.mp (mem_of_getLast? hlast)
    obtain ⟨i, -, hi⟩ := mem_flatMap.mp (mem_filter.mp hmem).1
    refine .inl ⟨i, c, ?_, rfl⟩
    rw [settings_final hfaultless]
    exact mem_filter.mpr ⟨hi, hname⟩
  | none =>
    refine .inr ⟨rfl, fun i hin => ?_⟩
    by_contra hfound
    rw [Bool.not_eq_false] at hfound
    obtain ⟨c, hc, hemail⟩ := any_eq_true.mp hfound
    have hemail : c.email = r.email := by simpa using hemail
    have htrim := trimmed_of_clean (wanted_record hin).1
    have hne : r.email ≠ "" := (mem_cleanEmails.mp (wanted_record hin).1).1
    have hmem : adjustEntry f (planFor addDays addBytes db) (wantedOf addDays addBytes db emails i) c ∈
        occurrences (named (synced.flatMap (adjusted f (planFor addDays addBytes db)
          (wantedOf addDays addBytes db emails) db))) r.email := by
      rw [occurrences_named hne]
      refine mem_filter.mpr ⟨mem_flatMap.mpr ⟨i, hcovers i _ hin hfound, ?_⟩, ?_⟩
      · exact mem_map.mpr ⟨c, hc, rfl⟩
      · rw [adjustEntry_email, hemail, htrim]
        exact beq_self_eq_true _
    rw [getLast?_eq_none_iff.mp hlast] at hmem
    cases hmem

def adjustRow (addDays addBytes : Int) (db : DB) (run : Run) (planned : List String) (t : ClientTraffic) :
    ClientTraffic :=
  match planFor addDays addBytes db t.email with
  | none => t
  | some entry =>
    if t.email ∈ planned ∧ reported addDays addBytes db run t.email = none then
      { t with
        expiryTime := entry.newExpiry.getD t.expiryTime, total := entry.newTotal.getD t.total }
    else t

variable {planned : List String} {run : Run}

theorem adjustRow_email :
    (adjustRow addDays addBytes db run planned t).email = t.email := by
  rw [adjustRow]
  split
  · rfl
  · split <;> rfl

theorem adjustRow_other (h : t.email ∉ planned) :
    adjustRow addDays addBytes db run planned t = t := by
  rw [adjustRow]
  split
  · rfl
  · exact if_neg fun hin => h hin.1

theorem adjustRow_congr {planned planned' : List String} (h : t.email ∈ planned ↔ t.email ∈ planned') :
    adjustRow addDays addBytes db run planned t = adjustRow addDays addBytes db run planned' t := by
  rw [adjustRow, adjustRow]
  simp only [h]

theorem updateTraffic_eq {traffics : List ClientTraffic} :
    (match planFor addDays addBytes db e with
      | none => traffics
      | some entry =>
        if (reported addDays addBytes db run e).isSome || (none : Option String).isSome then traffics
        else updateTraffic entry e traffics) =
      traffics.map (adjustRow addDays addBytes db run [e]) := by
  have hkept : (∀ t ∈ traffics, adjustRow addDays addBytes db run [e] t = t) →
      traffics = traffics.map (adjustRow addDays addBytes db run [e]) := by
    intro hsame
    exact ((map_congr_left hsame).trans (map_id traffics)).symm
  cases hplan : planFor addDays addBytes db e with
  | none =>
    refine hkept fun t _ => ?_
    by_cases ht : t.email = e
    · rw [adjustRow, ht, hplan]
    · exact adjustRow_other (by simpa using ht)
  | some entry =>
    simp only [Option.isSome_none, Bool.or_false]
    split
    case isTrue hreported =>
      refine hkept fun t _ => ?_
      by_cases ht : t.email = e
      · rw [adjustRow, ht, hplan]
        exact if_neg fun hin => by rw [hin.2] at hreported; cases hreported
      · exact adjustRow_other (by simpa using ht)
    case isFalse hreported =>
      have hnone : reported addDays addBytes db run e = none := by simpa using hreported
      refine map_congr_left fun t _ => ?_
      by_cases ht : t.email = e
      · rw [if_pos ht, adjustRow, ht, hplan]
        exact (if_pos ⟨mem_singleton_self e, hnone⟩).symm
      · rw [if_neg ht, adjustRow_other (by simpa using ht)]

theorem adjustTraffics_eq (hupdates : ∀ email, f.updates email = none)
    (hnodup : planned.Nodup) : adjustTraffics f addDays addBytes db run planned =
      run.db.traffics.map (adjustRow addDays addBytes db run planned) := by
  simp only [adjustTraffics, hupdates]
  generalize run.db.traffics = traffics
  induction planned generalizing traffics with
  | nil =>
    exact ((map_congr_left fun t _ => adjustRow_other not_mem_nil).trans (map_id traffics)).symm
  | cons e planned ih =>
    obtain ⟨hnew, hnodup⟩ := nodup_cons.mp hnodup
    rw [foldl_cons, ih hnodup, updateTraffic_eq, map_map]
    refine map_congr_left fun t _ => ?_
    simp only [Function.comp_apply]
    by_cases ht : t.email = e
    · rw [adjustRow_other (by rw [adjustRow_email, ht]; exact hnew)]
      exact adjustRow_congr (by simp [ht])
    · have hsame : adjustRow addDays addBytes db run [e] t = t := adjustRow_other (by simpa using ht)
      rw [hsame]
      exact adjustRow_congr (by simp [ht])

theorem reported_listed (hunique : Unique db)
    (hfaultless : Faultless f addDays addBytes db emails) (hr : r ∈ db.records.rows) (hattached : Attached db r) :
    reported addDays addBytes db (runOf f addDays addBytes db emails) r.email = skippedFirst addDays addBytes r := by
  obtain ⟨synced, hran⟩ := runOf_ran hfaultless
  have hnone : (runOf f addDays addBytes db emails).skipped.find? (·.1 = r.email) = none := by
    rw [hran.skipped, nil_append]
    refine find?_eq_none.mpr fun x hx => ?_
    obtain ⟨i, -, hi⟩ := mem_flatMap.mp hx
    obtain ⟨e, he, rfl⟩ := mem_map.mp hi
    obtain ⟨hin, hunfound⟩ := mem_filter.mp he
    simp only [decide_eq_true_eq]
    rintro rfl
    rw [hattached i ((mem_wanted hunique hr).mp hin).2.2] at hunfound
    cases hunfound
  rw [reported, hnone, reasonFor, record_of_mem hunique hr, Option.map_none, Option.or_none]

theorem reasonOf_listed (hunique : Unique db)
    (hfaultless : Faultless f addDays addBytes db emails) (hr : r ∈ db.records.rows) (hattached : Attached db r) :
    reasonOf f addDays addBytes db emails r.email = skippedFirst addDays addBytes r := by
  rw [reasonOf]
  split
  · rw [finalReason, reported_listed hunique hfaultless hr hattached, hfaultless.updates, Option.map_none,
      Option.or_none]
  · rw [reasonFor, record_of_mem hunique hr]

theorem reasonOf_missing (h : db.record e = none) :
    reasonOf f addDays addBytes db emails e = some .clientNotFound := by
  have hplan : planFor addDays addBytes db e = none := by
    rw [planFor, h]
    rfl
  rw [reasonOf, hplan, reasonFor, h]
  rfl

theorem traffics_final (hfaultless : Faultless f addDays addBytes db emails) :
    (finalDB f addDays addBytes db emails).traffics = db.traffics.map
      (adjustRow addDays addBytes db (runOf f addDays addBytes db emails)
        (plannedEmails addDays addBytes db emails)) := by
  obtain ⟨synced, hran⟩ := runOf_ran hfaultless
  have hnodup : (plannedEmails addDays addBytes db emails).Nodup := cleanEmails_nodup.filter _
  simp only [finalDB]
  rw [adjustTraffics_eq hfaultless.updates hnodup, hran.traffics]

theorem row_kept
    (h : t.email ∈ planned → (reported addDays addBytes db run t.email).isSome) :
    adjustRow addDays addBytes db run planned t = t := by
  rw [adjustRow]
  split
  · rfl
  · refine if_neg fun hin => ?_
    have hsome := h hin.1
    rw [hin.2] at hsome
    cases hsome

theorem row_moved (hunique : Unique db)
    (hr : r ∈ db.records.rows) (ht : t.email = r.email) (hlimits : rowLimits t = limits r.toClient)
    (hplanned : r.email ∈ planned) (hsome : (entryFor addDays addBytes r).isSome)
    (hreported : reported addDays addBytes db run r.email = none) :
    rowLimits (adjustRow addDays addBytes db run planned t) = newLimits addDays addBytes r := by
  simp only [rowLimits, limits, Prod.mk.injEq] at hlimits
  rw [entryFor] at hsome
  split at hsome
  case isTrue hany =>
    rw [adjustRow, ht, planFor_of_mem hunique hr, entryFor, if_pos hany]
    simp only [hplanned, hreported, and_self, if_true, rowLimits, newLimits, hlimits.1, hlimits.2]
  case isFalse => cases hsome

theorem entryFor_of_changed (h : newLimits addDays addBytes r ≠ limits r.toClient) :
    (entryFor addDays addBytes r).isSome := by
  rw [entryFor]
  split
  · rfl
  case isFalse hnone =>
    simp only [Bool.or_eq_true, not_or, Option.not_isSome_iff_eq_none] at hnone
    exact absurd (by rw [newLimits, hnone.1, hnone.2]; rfl) h

theorem chosen_expiry (hdays : addDays ≠ 0) {expiryTime : Int}
    (h : refusal (planExpiry addDays expiryTime) = none) : (chosen (planExpiry addDays expiryTime)).isSome := by
  rw [planExpiry, if_neg hdays] at h ⊢
  dsimp only at h ⊢
  split_ifs at h ⊢ <;> first | rfl | cases h

theorem chosen_total (hbytes : addBytes ≠ 0) {totalGB : Int} (h : refusal (planTotal addBytes totalGB) = none) :
    (chosen (planTotal addBytes totalGB)).isSome := by
  rw [planTotal, if_neg hbytes] at h ⊢
  split_ifs at h ⊢ <;> first | rfl | cases h

theorem entryFor_of_unskipped (hasked : addDays ≠ 0 ∨ addBytes ≠ 0)
    (h : skippedFirst addDays addBytes r = none) : (entryFor addDays addBytes r).isSome := by
  simp only [skippedFirst, Option.or_eq_none_iff] at h
  obtain ⟨hexpiry, htotal⟩ := h
  have hany : (chosen (planExpiry addDays r.expiryTime)).isSome ∨ (chosen (planTotal addBytes r.totalGB)).isSome := by
    rcases hasked with hdays | hbytes
    · exact .inl (chosen_expiry hdays hexpiry)
    · exact .inr (chosen_total hbytes htotal)
  rw [entryFor, if_pos (by simpa using hany)]
  rfl

theorem occurrences_final (hfaultless : Faultless f addDays addBytes db emails) (i : Int) (e : String) :
    occurrences ((finalDB f addDays addBytes db emails).settingsClients i) e =
      (occurrences (db.settingsClients i) e).map
        (adjustEntry f (planFor addDays addBytes db) (wantedOf addDays addBytes db emails i)) := by
  rw [settings_final hfaultless, occurrences_adjusted]

theorem name_of_occurrence {cs : List Client} (h : c ∈ occurrences cs e) : Text.trimSpace c.email = e := by
  simpa using (mem_filter.mp h).2

theorem entry_final (hunique : Unique db) (hr : r ∈ db.records.rows)
    (hagree : Agree db r) (hc : c ∈ occurrences (db.settingsClients i) r.email) :
    limits (adjustEntry f (planFor addDays addBytes db) (wantedOf addDays addBytes db emails i) c) =
      if c.email = r.email ∧ r.email ∈ wantedOf addDays addBytes db emails i then
        newLimits addDays addBytes r
      else limits r.toClient :=
  limits_adjustEntry hunique hr (hagree.entries i c hc) (name_of_occurrence hc)

theorem entries_kept (hunique : Unique db)
    (hfaultless : Faultless f addDays addBytes db emails) (hr : r ∈ db.records.rows) (hagree : Agree db r)
    (h : newLimits addDays addBytes r = limits r.toClient ∨
      ∀ i, r.email ∉ wantedOf addDays addBytes db emails i) :
    ∀ i, ∀ c ∈ occurrences ((finalDB f addDays addBytes db emails).settingsClients i) r.email,
      limits c = limits r.toClient := by
  intro i c hc
  rw [occurrences_final hfaultless] at hc
  obtain ⟨c₀, hc₀, rfl⟩ := mem_map.mp hc
  rw [entry_final hunique hr hagree hc₀]
  split
  case isTrue hin =>
    rcases h with hsame | hout
    · exact hsame
    · exact absurd hin.2 (hout i)
  case isFalse => rfl

theorem record_kept (hfaultless : Faultless f addDays addBytes db emails) (hr : r ∈ db.records.rows)
    (h : ∀ i, ∀ c ∈ occurrences ((finalDB f addDays addBytes db emails).settingsClients i) r.email,
      limits c = limits r.toClient) :
    ∃ r', (finalDB f addDays addBytes db emails).records.find r.recordId = some r' ∧ r'.email = r.email ∧
      limits r'.toClient = limits r.toClient := by
  obtain ⟨r', hfind, hemail, ⟨i, c, hc, heq⟩ | ⟨heq, -⟩⟩ := record_limits hfaultless hr
  · exact ⟨r', hfind, hemail, heq.trans (h i c hc)⟩
  · exact ⟨r', hfind, hemail, heq⟩

theorem not_wanted_of_detached (hunique : Unique db) (hr : r ∈ db.records.rows)
    (h : db.inboundIdsOf r.recordId = []) (i : Int) : r.email ∉ wantedOf addDays addBytes db emails i := by
  intro hin
  have hi := ((mem_wanted hunique hr).mp hin).2.2
  rw [h] at hi
  cases hi

theorem mem_planned_iff (hunique : Unique db) (hr : r ∈ db.records.rows) :
    r.email ∈ plannedEmails addDays addBytes db emails ↔
      r.email ∈ cleanEmails emails ∧ (entryFor addDays addBytes r).isSome := by
  simp only [plannedEmails, mem_filter, planFor_of_mem hunique hr]

theorem kept_agree (hunique : Unique db)
    (hfaultless : Faultless f addDays addBytes db emails) (hr : r ∈ db.records.rows) (hagree : Agree db r)
    (hentries : newLimits addDays addBytes r = limits r.toClient ∨
      ∀ i, r.email ∉ wantedOf addDays addBytes db emails i)
    (hrows : ∀ t ∈ (finalDB f addDays addBytes db emails).traffics, t.email = r.email →
      rowLimits t = limits r.toClient) :
    ∃ r', (finalDB f addDays addBytes db emails).records.find r.recordId = some r' ∧ r'.email = r.email ∧
      Agree (finalDB f addDays addBytes db emails) r' := by
  have hkept := entries_kept hunique hfaultless hr hagree hentries
  obtain ⟨r', hfind, hemail, hlimits⟩ := record_kept hfaultless hr hkept
  refine ⟨r', hfind, hemail, fun i c hc => ?_, fun t ht he => ?_⟩
  · rw [hlimits]
    exact hkept i c (hemail ▸ hc)
  · rw [hlimits]
    exact hrows t ht (he.trans hemail)

theorem rows_of_final (hfaultless : Faultless f addDays addBytes db emails)
    (ht : t ∈ (finalDB f addDays addBytes db emails).traffics) : ∃ t₀ ∈ db.traffics, t₀.email = t.email ∧
      t = adjustRow addDays addBytes db (runOf f addDays addBytes db emails)
        (plannedEmails addDays addBytes db emails) t₀ := by
  rw [traffics_final hfaultless] at ht
  obtain ⟨t₀, ht₀, rfl⟩ := mem_map.mp ht
  exact ⟨t₀, ht₀, adjustRow_email.symm, rfl⟩

theorem row_final (hunique : Unique db) (hr : r ∈ db.records.rows)
    (hagree : Agree db r) (ht : t ∈ db.traffics) (he : t.email = r.email) (run : Run) :
    rowLimits (adjustRow addDays addBytes db run (plannedEmails addDays addBytes db emails) t) =
      if r.email ∈ plannedEmails addDays addBytes db emails ∧ reported addDays addBytes db run r.email = none then
        newLimits addDays addBytes r
      else limits r.toClient := by
  split
  case isTrue hmoved =>
    have hsome := ((mem_planned_iff hunique hr).mp hmoved.1).2
    exact row_moved hunique hr he (hagree.rows t ht he) hmoved.1 hsome hmoved.2
  case isFalse hkept =>
    rw [row_kept, hagree.rows t ht he]
    intro hin
    rw [he] at hin ⊢
    exact Option.isSome_iff_ne_none.mpr fun hnone => hkept ⟨hin, hnone⟩

theorem moved_agree (hunique : Unique db)
    (hfaultless : Faultless f addDays addBytes db emails) (hr : r ∈ db.records.rows) (hagree : Agree db r)
    (hattached : Attached db r) (hlisted : r.email ∈ cleanEmails emails)
    (hsome : (entryFor addDays addBytes r).isSome) (hlinked : db.inboundIdsOf r.recordId ≠ [])
    (hskipped : skippedFirst addDays addBytes r = none)
    (hentries : ∀ i, ∀ c ∈ occurrences (db.settingsClients i) r.email,
      c.email = r.email ∧ i ∈ db.inboundIdsOf r.recordId) :
    ∃ r', (finalDB f addDays addBytes db emails).records.find r.recordId = some r' ∧ r'.email = r.email ∧
      Agree (finalDB f addDays addBytes db emails) r' := by
  have hwanted : ∀ i ∈ db.inboundIdsOf r.recordId, r.email ∈ wantedOf addDays addBytes db emails i :=
    fun i hi => (mem_wanted hunique hr).mpr ⟨hlisted, hsome, hi⟩
  have hmoved : ∀ i, ∀ c ∈ occurrences ((finalDB f addDays addBytes db emails).settingsClients i) r.email,
      limits c = newLimits addDays addBytes r := by
    intro i c hc
    rw [occurrences_final hfaultless] at hc
    obtain ⟨c₀, hc₀, rfl⟩ := mem_map.mp hc
    obtain ⟨hexact, hi⟩ := hentries i c₀ hc₀
    rw [entry_final hunique hr hagree hc₀, if_pos ⟨hexact, hwanted i hi⟩]
  obtain ⟨r', hfind, hemail, hlimits⟩ := record_limits hfaultless hr
  have hlimits : limits r'.toClient = newLimits addDays addBytes r := by
    rcases hlimits with ⟨i, c, hc, heq⟩ | ⟨-, hunfound⟩
    · exact heq.trans (hmoved i c hc)
    · obtain ⟨i, hi⟩ := exists_mem_of_ne_nil _ hlinked
      have hfound := hattached i hi
      rw [hunfound i (hwanted i hi)] at hfound
      cases hfound
  refine ⟨r', hfind, hemail, fun i c hc => ?_, fun t ht he => ?_⟩
  · rw [hlimits]
    exact hmoved i c (hemail ▸ hc)
  · obtain ⟨t₀, ht₀, hname, rfl⟩ := rows_of_final hfaultless ht
    rw [hlimits, row_final hunique hr hagree ht₀ (hname.trans (he.trans hemail)), if_pos]
    exact ⟨(mem_planned_iff hunique hr).mpr ⟨hlisted, hsome⟩,
      (reported_listed hunique hfaultless hr hattached).trans hskipped⟩

theorem agree_final (hunique : Unique db)
    (hfaultless : Faultless f addDays addBytes db emails) (hr : r ∈ db.records.rows) (hagree : Agree db r)
    (hattached : r.email ∈ cleanEmails emails → Attached db r)
    (hfits : r.email ∈ cleanEmails emails → newLimits addDays addBytes r ≠ limits r.toClient →
      Fits db addDays addBytes r) :
    ∃ r', (finalDB f addDays addBytes db emails).records.find r.recordId = some r' ∧ r'.email = r.email ∧
      Agree (finalDB f addDays addBytes db emails) r' := by
  by_cases hlisted : r.email ∈ cleanEmails emails
  · have hown := hattached hlisted
    by_cases hsame : newLimits addDays addBytes r = limits r.toClient
    · refine kept_agree hunique hfaultless hr hagree (.inl hsame) fun t ht he => ?_
      obtain ⟨t₀, ht₀, hname, rfl⟩ := rows_of_final hfaultless ht
      rw [row_final hunique hr hagree ht₀ (hname.trans he), hsame, ite_self]
    · obtain ⟨hdetached, hlinked⟩ := hfits hlisted hsame
      by_cases hnone : db.inboundIdsOf r.recordId = []
      · refine kept_agree hunique hfaultless hr hagree (.inr (not_wanted_of_detached hunique hr hnone))
          fun t ht he => ?_
        obtain ⟨t₀, ht₀, hname, rfl⟩ := rows_of_final hfaultless ht
        rw [row_final hunique hr hagree ht₀ (hname.trans he)]
        rcases hdetached hnone with hmixed | hrowless
        · refine if_neg fun hmoved => ?_
          rw [← reported_listed hunique hfaultless hr hown, hmoved.2] at hmixed
          cases hmixed
        · exact absurd (hname.trans he) (hrowless t₀ ht₀)
      · obtain ⟨hskipped, hentries⟩ := hlinked hnone
        exact moved_agree hunique hfaultless hr hagree hown hlisted (entryFor_of_changed hsame) hnone hskipped
          hentries
  · have hout : ∀ i, r.email ∉ wantedOf addDays addBytes db emails i :=
      fun i hin => hlisted (wanted_record hin).1
    refine kept_agree hunique hfaultless hr hagree (.inr hout) fun t ht he => ?_
    obtain ⟨t₀, ht₀, hname, rfl⟩ := rows_of_final hfaultless ht
    rw [row_final hunique hr hagree ht₀ (hname.trans he), if_neg]
    exact fun hmoved => hlisted ((mem_planned_iff hunique hr).mp hmoved.1).1

theorem unchanged_of_skipped (hunique : Unique db)
    (hfaultless : Faultless f addDays addBytes db emails) (hr : r ∈ db.records.rows) (hagree : Agree db r)
    (hattached : Attached db r) (hskipped : (skippedFirst addDays addBytes r).isSome)
    (hentries : newLimits addDays addBytes r = limits r.toClient ∨
      ∀ i, r.email ∉ wantedOf addDays addBytes db emails i) :
    Unchanged db (finalDB f addDays addBytes db emails) r.email := by
  have hkept := entries_kept hunique hfaultless hr hagree hentries
  refine ⟨fun r₀ hr₀ he => ?_, fun i => ?_, ?_⟩
  · obtain rfl := eq_of_email hunique hr₀ hr he
    obtain ⟨r', hfind, -, hlimits⟩ := record_kept hfaultless hr hkept
    exact ⟨r', hfind, hlimits⟩
  · rw [occurrences_final hfaultless, map_map]
    refine map_congr_left fun c hc => ?_
    rw [hagree.entries i c hc]
    refine hkept i _ ?_
    rw [occurrences_final hfaultless]
    exact mem_map_of_mem hc
  · rw [traffics_final hfaultless, filter_map, map_map]
    simp only [Function.comp_def, adjustRow_email]
    refine map_congr_left fun t ht => ?_
    obtain ⟨-, he⟩ := mem_filter.mp ht
    have he : t.email = r.email := by simpa using he
    rw [row_kept]
    intro _
    rw [he, reported_listed hunique hfaultless hr hattached]
    exact hskipped

theorem unchanged_of_missing (hfaultless : Faultless f addDays addBytes db emails) (h : db.record e = none) :
    Unchanged db (finalDB f addDays addBytes db emails) e := by
  have hplan : planFor addDays addBytes db e = none := by
    rw [planFor, h]
    rfl
  refine ⟨fun r hr he => ?_, fun i => ?_, ?_⟩
  · exact absurd (find?_eq_none.mp h r hr) (by simpa using he)
  · rw [occurrences_final hfaultless, map_map]
    refine map_congr_left fun c hc => ?_
    simp only [Function.comp_apply]
    rw [adjustEntry_unwanted]
    intro hin
    obtain ⟨hclean, r, hr, hemail, -⟩ := wanted_record hin
    have hexact : c.email = e := (trimmed_of_clean hclean).symm.trans (name_of_occurrence hc)
    exact absurd (find?_eq_none.mp h r hr) (by simpa using hemail.trans hexact)
  · rw [traffics_final hfaultless, filter_map, map_map]
    simp only [Function.comp_def, adjustRow_email]
    refine map_congr_left fun t ht => ?_
    obtain ⟨-, he⟩ := mem_filter.mp ht
    have he : t.email = e := by simpa using he
    rw [adjustRow, he, hplan]

theorem asked_of_ok (h : bulkAdjust f db emails addDays addBytes = (db', .ok res))
    (he : e ∈ cleanEmails emails) : addDays ≠ 0 ∨ addBytes ≠ 0 := by
  by_contra hnone
  obtain ⟨hdays, hbytes⟩ := not_or.mp hnone
  obtain ⟨-, x, hx, -⟩ := mem_cleanEmails.mp he
  rw [bulkAdjust, if_neg (ne_nil_of_mem hx), if_pos ⟨not_not.mp hdays, not_not.mp hbytes⟩] at h
  cases h

theorem mem_skipped {reason : Reason} : (e, reason) ∈ (finalResult f addDays addBytes db emails).skipped ↔
    e ∈ cleanEmails emails ∧ reasonOf f addDays addBytes db emails e = some reason := by
  simp only [finalResult, mem_filterMap, Option.map_eq_some_iff, Prod.mk.injEq]
  constructor
  · rintro ⟨_, he, _, hreason, rfl, rfl⟩
    exact ⟨he, hreason⟩
  · rintro ⟨he, hreason⟩
    exact ⟨e, he, reason, hreason, rfl, rfl⟩

theorem adjusted_final (hunique : Unique db)
    (hstart : ∀ r ∈ db.records.rows, r.email ∈ cleanEmails emails → Attached db r ∧ Agree db r)
    (hfaultless : Faultless f addDays addBytes db emails)
    (hasked : ∀ e ∈ cleanEmails emails, addDays ≠ 0 ∨ addBytes ≠ 0) :
    (finalResult f addDays addBytes db emails).adjusted = ((cleanEmails emails).filter fun e =>
      db.recorded e && !(finalResult f addDays addBytes db emails).skipped.any (·.1 == e)).length := by
  have hskipped : ∀ e ∈ cleanEmails emails,
      (finalResult f addDays addBytes db emails).skipped.any (·.1 == e) =
        (reasonOf f addDays addBytes db emails e).isSome := by
    intro e he
    rw [Bool.eq_iff_iff, any_eq_true, Option.isSome_iff_exists]
    constructor
    · rintro ⟨⟨e', reason⟩, hmem, hname⟩
      obtain rfl : e' = e := by simpa using hname
      exact ⟨reason, (mem_skipped.mp hmem).2⟩
    · rintro ⟨reason, hreason⟩
      exact ⟨(e, reason), mem_skipped.mpr ⟨he, hreason⟩, beq_self_eq_true _⟩
  have hadjusted : (finalResult f addDays addBytes db emails).adjusted =
      ((plannedEmails addDays addBytes db emails).filter fun e =>
        (reasonOf f addDays addBytes db emails e).isNone).length := rfl
  rw [hadjusted, plannedEmails, filter_filter]
  refine congrArg List.length (filter_congr fun e he => ?_)
  rw [hskipped e he]
  cases hrec : db.record e with
  | none =>
    rw [reasonOf_missing hrec]
    simp
  | some r =>
    obtain ⟨hr, rfl⟩ := record_mem hrec
    rw [reasonOf_listed hunique hfaultless hr (hstart r hr he).1, planFor_of_mem hunique hr]
    have hrecorded : db.recorded r.email = true := recorded_iff.mpr (mem_map.mpr ⟨r, hr, rfl⟩)
    cases hreason : skippedFirst addDays addBytes r with
    | some reason => simp
    | none => simp [hrecorded, entryFor_of_unskipped (hasked _ he) hreason]

theorem bulkAdjust_coherent_iff (hunique : (Clients.emails db.records).Nodup)
    (hstart : ∀ r ∈ db.records.rows, r.email ∈ cleanEmails emails → Attached db r ∧ Agree db r)
    (hfaultless : Faultless f addDays addBytes db emails)
    (h : bulkAdjust f db emails addDays addBytes = (db', .ok res)) :
    Coherent db emails db' res ↔ ∀ r ∈ db.records.rows, r.email ∈ cleanEmails emails →
      newLimits addDays addBytes r ≠ limits r.toClient → Fits db addDays addBytes r := by
  have hasked : ∀ e ∈ cleanEmails emails, addDays ≠ 0 ∨ addBytes ≠ 0 := fun e he => asked_of_ok h he
  obtain ⟨rfl, rfl⟩ := bulkAdjust_eq h
  constructor
  · intro hcoherent r hr hlisted hchanged
    obtain ⟨hattached, hagree⟩ := hstart r hr hlisted
    obtain ⟨r', hfind, hemail, hagree'⟩ := hcoherent.agree r hr hagree
    have hsome := entryFor_of_changed hchanged
    have hreported : reported addDays addBytes db (runOf f addDays addBytes db emails) r.email =
        skippedFirst addDays addBytes r := reported_listed hunique hfaultless hr hattached
    constructor
    · intro hdetached
      by_contra hneither
      obtain ⟨hmixed, hrows⟩ := not_or.mp hneither
      have hskipped : skippedFirst addDays addBytes r = none := by simpa using hmixed
      push Not at hrows
      obtain ⟨t, ht, he⟩ := hrows
      have hout : ∀ i, r.email ∉ wantedOf addDays addBytes db emails i :=
        not_wanted_of_detached hunique hr hdetached
      obtain ⟨r₁, hfind₁, -, hlimits⟩ :=
        record_kept hfaultless hr (entries_kept hunique hfaultless hr hagree (.inr hout))
      obtain rfl := Option.some.inj (hfind.symm.trans hfind₁)
      have hmoved : rowLimits (adjustRow addDays addBytes db (runOf f addDays addBytes db emails)
          (plannedEmails addDays addBytes db emails) t) = newLimits addDays addBytes r := by
        rw [row_final hunique hr hagree ht he, if_pos]
        exact ⟨(mem_planned_iff hunique hr).mpr ⟨hlisted, hsome⟩, hreported.trans hskipped⟩
      have hrow := hagree'.rows _ (by rw [traffics_final hfaultless]; exact mem_map_of_mem ht)
        (adjustRow_email.trans (he.trans hemail.symm))
      exact hchanged (hmoved.symm.trans (hrow.trans hlimits))
    · intro hlinked
      obtain ⟨i, hi⟩ := exists_mem_of_ne_nil _ hlinked
      have hwanted : r.email ∈ wantedOf addDays addBytes db emails i :=
        (mem_wanted hunique hr).mpr ⟨hlisted, hsome, hi⟩
      obtain ⟨c, hc, hexact⟩ := any_eq_true.mp (hattached i hi)
      have hexact : c.email = r.email := by simpa using hexact
      have hocc : c ∈ occurrences (db.settingsClients i) r.email := by
        refine mem_filter.mpr ⟨hc, ?_⟩
        rw [hexact, trimmed_of_clean hlisted]
        exact beq_self_eq_true _
      have hafter : ∀ j, ∀ c₀ ∈ occurrences (db.settingsClients j) r.email,
          limits (adjustEntry f (planFor addDays addBytes db) (wantedOf addDays addBytes db emails j) c₀) =
            limits r'.toClient := by
        intro j c₀ hc₀
        refine hagree'.entries j _ ?_
        rw [hemail, occurrences_final hfaultless]
        exact mem_map_of_mem hc₀
      have hnew : limits r'.toClient = newLimits addDays addBytes r := by
        rw [← hafter i c hocc, entry_final hunique hr hagree hocc, if_pos ⟨hexact, hwanted⟩]
      refine ⟨?_, fun j c₀ hc₀ => ?_⟩
      · by_contra hmixed
        obtain ⟨reason, hreason⟩ := Option.ne_none_iff_exists'.mp hmixed
        have hmem : (r.email, reason) ∈ (finalResult f addDays addBytes db emails).skipped :=
          mem_skipped.mpr ⟨hlisted, (reasonOf_listed hunique hfaultless hr hattached).trans hreason⟩
        obtain ⟨r₁, hfind₁, hlimits⟩ := (hcoherent.skipped _ _ hmem).record r hr rfl
        obtain rfl := Option.some.inj (hfind.symm.trans hfind₁)
        exact hchanged (hnew.symm.trans hlimits)
      · have hmoved := hafter j c₀ hc₀
        rw [entry_final hunique hr hagree hc₀, hnew] at hmoved
        split at hmoved
        case isTrue hin => exact ⟨hin.1, ((mem_wanted hunique hr).mp hin.2).2.2⟩
        case isFalse => exact absurd hmoved.symm hchanged
  · intro hfits
    refine ⟨fun r hr hagree => ?_, fun e reason hmem => ?_, adjusted_final hunique hstart hfaultless hasked⟩
    · exact agree_final hunique hfaultless hr hagree (fun hlisted => (hstart r hr hlisted).1) (hfits r hr)
    · obtain ⟨hlisted, hreason⟩ := mem_skipped.mp hmem
      cases hrec : db.record e with
      | none => exact unchanged_of_missing hfaultless hrec
      | some r =>
        obtain ⟨hr, rfl⟩ := record_mem hrec
        obtain ⟨hattached, hagree⟩ := hstart r hr hlisted
        rw [reasonOf_listed hunique hfaultless hr hattached] at hreason
        refine unchanged_of_skipped hunique hfaultless hr hagree hattached (by rw [hreason]; rfl) ?_
        by_cases hsame : newLimits addDays addBytes r = limits r.toClient
        · exact .inl hsame
        · refine .inr (not_wanted_of_detached hunique hr ?_)
          by_contra hlinked
          rw [((hfits r hr hlisted hsame).attached hlinked).1] at hreason
          cases hreason

end outcome

section examples

def holder (totalGB expiryTime : Int) : Client where
  id := "u1"
  security := ""
  password := ""
  flow := ""
  reverse := none
  auth := ""
  email := "alice"
  limitIP := 0
  totalGB := totalGB
  expiryTime := expiryTime
  enable := true
  tgID := 0
  subID := "s1"
  group := ""
  comment := ""
  reset := 0
  createdAt := 1
  updatedAt := 1

def holderRecord (totalGB expiryTime : Int) : ClientRecord :=
  { holder totalGB expiryTime with recordId := 1, ownerId := 0, tenantId := 0 }

def attachedOnce (totalGB expiryTime : Int) : DB where
  inbounds := Table.empty.insert
    (fun id => ⟨id, .vless, none, "", true, some [holder totalGB expiryTime]⟩) fun _ => rfl
  records := Table.empty.insert
    (fun recordId => { holder totalGB expiryTime with recordId, ownerId := 0, tenantId := 0 }) fun _ => rfl
  links := [⟨1, 1, ""⟩]
  traffics := [⟨1, "alice", 0, 0, totalGB, expiryTime, true, 0⟩]

def calm : Faults where
  now := 9
  order := id
  order_perm := fun _ => .refl _
  read := none
  load := fun _ => none
  nodePlan := fun _ => none
  write := fun _ => none
  updates := fun _ => none

theorem record_of_attachedOnce {totalGB expiryTime : Int} {r : ClientRecord}
    (hr : r ∈ (attachedOnce totalGB expiryTime).records.rows) : r = holderRecord totalGB expiryTime :=
  mem_singleton.mp hr

theorem attachedOnce_agrees (totalGB expiryTime : Int) :
    Attached (attachedOnce totalGB expiryTime) (holderRecord totalGB expiryTime) ∧
      Agree (attachedOnce totalGB expiryTime) (holderRecord totalGB expiryTime) := by
  refine ⟨fun i hi => ?_, fun i c hc => ?_, fun t ht _ => ?_⟩
  · obtain rfl : i = 1 := mem_singleton.mp hi
    rfl
  · by_cases hi : i = 1
    · subst hi
      obtain rfl : c = holder totalGB expiryTime := mem_singleton.mp (mem_filter.mp hc).1
      rfl
    · have hnone : (attachedOnce totalGB expiryTime).inbounds.find i = none := by
        simp [attachedOnce, Table.find, Table.insert, Table.empty, Ne.symm hi]
      rw [DB.settingsClients, DB.clientsOf, hnone] at hc
      cases hc
  · obtain rfl := mem_singleton.mp ht
    rfl

theorem mixed_adjustment_splits : ¬ ∀ f db emails addDays addBytes db' res,
    (Clients.emails db.records).Nodup →
    (∀ r ∈ db.records.rows, r.email ∈ cleanEmails emails → Attached db r ∧ Agree db r) →
    Faultless f addDays addBytes db emails → bulkAdjust f db emails addDays addBytes = (db', .ok res) →
    Coherent db emails db' res := by
  intro hclaim
  have hrun : bulkAdjust calm (attachedOnce 100 0) ["alice"] 30 50 =
      ((bulkAdjust calm (attachedOnce 100 0) ["alice"] 30 50).1, .ok ⟨0, [("alice", .unlimitedExpiry)]⟩) := rfl
  have hcoherent := hclaim calm (attachedOnce 100 0) ["alice"] 30 50 _ _ (by decide)
    (fun r hr _ => record_of_attachedOnce hr ▸ attachedOnce_agrees 100 0) ⟨rfl, fun _ => rfl⟩ hrun
  obtain ⟨r', hfind, hlimits⟩ := (hcoherent.skipped "alice" .unlimitedExpiry (by decide)).record
    (holderRecord 100 0) mem_cons_self rfl
  have hmoved : ((bulkAdjust calm (attachedOnce 100 0) ["alice"] 30 50).1.records.find 1).map
      (fun r => limits r.toClient) = some (150, 0) := rfl
  have hfind : (bulkAdjust calm (attachedOnce 100 0) ["alice"] 30 50).1.records.find 1 = some r' := hfind
  rw [hfind] at hmoved
  exact absurd ((Option.some.inj hmoved).symm.trans hlimits) (by decide)

theorem quota_adjustment_coherent :
    Coherent (attachedOnce 100 0) ["alice"] (bulkAdjust calm (attachedOnce 100 0) ["alice"] 0 50).1 ⟨1, []⟩ ↔
      ∀ r ∈ (attachedOnce 100 0).records.rows, r.email ∈ cleanEmails ["alice"] →
        newLimits 0 50 r ≠ limits r.toClient → Fits (attachedOnce 100 0) 0 50 r := by
  have hrun : bulkAdjust calm (attachedOnce 100 0) ["alice"] 0 50 =
      ((bulkAdjust calm (attachedOnce 100 0) ["alice"] 0 50).1, .ok ⟨1, []⟩) := rfl
  exact bulkAdjust_coherent_iff (by decide)
    (fun r hr _ => record_of_attachedOnce hr ▸ attachedOnce_agrees 100 0) ⟨rfl, fun _ => rfl⟩ hrun

end examples

end BulkAdjust

end QuiPanel
