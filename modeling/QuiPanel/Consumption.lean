import QuiPanel.Exhausted
import QuiPanel.Library.Sums

namespace QuiPanel

namespace Consumption

open List hiding sum_nonneg
open Keyed Outcome Clients Trace Sums

structure Sent where
  email : String
  up : Nat
  down : Nat

structure Report where
  sent : List Sent
  distinct : (sent.map (·.email)).Nodup

structure TickDraws where
  now : Int
  seconds : Int
  pushedOver : ClientTraffic → Bool

def day : Int := 86400000

section traffic

variable (db : DB)

def linkedInbounds (emails : List String) : List Int :=
  ((db.links.filter fun l => db.records.rows.any fun r =>
    r.recordId == l.clientId && emails.contains r.email).map (·.inboundId)).dedup

def found (ids : List Int) : List Int := (db.inbounds.rows.filter fun ib => ids.contains ib.id).map (·.id)

def rewriteClients (ids : List Int) (f : Int → Client → Client) : DB :=
  { db with
    inbounds := db.inbounds.modify (fun ib => ids.contains ib.id)
      (fun ib => { ib with clients := ib.clients.map (List.map (f ib.id)) }) fun _ => rfl }

def syncOne (db : DB) (i : Int) : DB := (syncInbound db i (db.settingsClients i)).toOption.getD db

def reported (report : Report) (email : String) : Option Sent :=
  report.sent.find? (·.email = email)

def delayed (report : Report) : List ClientTraffic :=
  db.traffics.filter fun t => (reported report t.email).isSome && decide (t.expiryTime < 0)

def firstUse (now : Int) (rows : List ClientTraffic) (c : Client) : Client :=
  let hit := rows.find? (·.email = c.email)
  { c with
    expiryTime := hit.elim c.expiryTime fun t => now - t.expiryTime
    createdAt := if c.createdAt = 0 then now else c.createdAt
    updatedAt := if hit.isSome ∨ c.updatedAt = 0 then now else c.updatedAt }

def countRow (now : Int) (started : Bool) (report : Report) (t : ClientTraffic) : ClientTraffic :=
  match reported report t.email with
  | none => t
  | some x =>
    { t with
      up := t.up + x.up, down := t.down + x.down
      expiryTime := if started ∧ t.expiryTime < 0 then now - t.expiryTime else t.expiryTime }

def addClientTraffic (now : Int) (report : Report) : DB :=
  if db.traffics.any fun t => (reported report t.email).isSome then
    let rows := delayed db report
    let ids := linkedInbounds db (rows.map (·.email))
    let adjusted := (found db ids).foldl syncOne (rewriteClients db ids fun _ => firstUse now rows)
    { adjusted with traffics := db.traffics.map (countRow now (!ids.isEmpty) report) }
  else db

def due (seconds : Int) (t : ClientTraffic) : Bool :=
  0 < t.reset && 0 < t.expiryTime && t.expiryTime ≤ seconds &&
    !(db.inbounds.find t.inboundId).any (·.nodeId.isSome)

def advance (reset seconds : Int) : Nat → Int → Int
  | 0, expiry => expiry
  | n + 1, expiry => if expiry < seconds then advance reset seconds n (expiry + reset * day) else expiry

def renewedExpiry (seconds : Int) (t : ClientTraffic) : Int :=
  advance t.reset seconds (seconds - t.expiryTime).toNat t.expiryTime

def renewEntries (seconds : Int) (rows : List ClientTraffic) :
    List Client → List String → List Client × List String
  | [], seen => ([], seen)
  | c :: cs, seen =>
    match rows.find? (·.email = c.email) with
    | none =>
      let (cs, seen) := renewEntries seconds rows cs seen
      (c :: cs, seen)
    | some t =>
      let renewed := { c with
        expiryTime := renewedExpiry seconds t
        enable := c.enable || (!t.enable && !seen.contains c.email) }
      let (cs, seen) := renewEntries seconds rows cs (c.email :: seen)
      (renewed :: cs, seen)

def renewInbounds (seconds : Int) (rows : List ClientTraffic) : DB → List Int → List String → DB
  | db, [], _ => db
  | db, i :: is, seen =>
    let (clients, seen) := renewEntries seconds rows (db.settingsClients i) seen
    renewInbounds seconds rows (saveClients db i clients) is seen

def dueRows (seconds : Int) : List ClientTraffic := db.traffics.filter (due db seconds)

def renewalInbounds (seconds : Int) : List Int :=
  found db (linkedInbounds db ((dueRows db seconds).map (·.email)))

def renews (seconds : Int) (t : ClientTraffic) : Bool :=
  due db seconds t &&
    (renewalInbounds db seconds).any fun i => (db.settingsClients i).any (·.email == t.email)

def renewRow (seconds : Int) (t : ClientTraffic) : ClientTraffic :=
  if renews db seconds t then
    { t with up := 0, down := 0, expiryTime := renewedExpiry seconds t, enable := true }
  else t

def autoRenewClients (seconds : Int) : DB :=
  if (dueRows db seconds).isEmpty then db
  else
    let ids := renewalInbounds db seconds
    let renewed := ids.foldl syncOne (renewInbounds seconds (dueRows db seconds) db ids [])
    { renewed with traffics := db.traffics.map (renewRow db seconds) }

def depleted (d : TickDraws) (t : ClientTraffic) : Bool :=
  t.enable && ((decide (0 < t.total) && decide (t.total ≤ t.up + t.down)) ||
    (decide (0 < t.expiryTime) && decide (t.expiryTime ≤ d.seconds)) ||
    (decide (0 < t.total) && d.pushedOver t))

def disableEntry (d : TickDraws) (emails : List String) (i : Int) (c : Client) : Client :=
  let linked := db.links.any fun l => l.inboundId == i &&
    db.records.rows.any fun r => r.recordId == l.clientId && r.email == c.email
  if c.enable && emails.contains c.email && linked then { c with enable := false, updatedAt := d.seconds }
  else c

def disableInvalidClients (d : TickDraws) : DB :=
  let emails := ((db.traffics.filter (depleted d)).map (·.email)).filter (· != "")
  let marked := rewriteClients db (linkedInbounds db emails) (disableEntry db d emails)
  { marked with
    traffics := db.traffics.map fun t => if depleted d t then { t with enable := false } else t
    records := db.records.modify (fun r => emails.contains r.email)
      (fun r => { r with enable := false, updatedAt := d.seconds }) fun _ => rfl }

def addTraffic (d : TickDraws) (report : Report) : DB :=
  disableInvalidClients (autoRenewClients (addClientTraffic db d.now report) d.seconds) d

def spentIn (traffics : List ClientTraffic) (email : String) : Int :=
  ((traffics.filter (·.email = email)).map fun t => t.up + t.down).sum

def spent (email : String) : Int := spentIn db.traffics email

def bandwidthUsed (tenantId : Int) : Int :=
  ((db.records.rows.filter (·.tenantId == tenantId)).map fun r => spent db r.email).sum

def transferred (W : Int) (report : Report) : Int :=
  ((report.sent.filter fun x => (workspaceClients db W).contains x.email).map
    fun x => (x.up + x.down : Int)).sum

end traffic

def recalculateBandwidthUsage (s : Shop) : Shop :=
  { s with quotas := fun tenantId => (s.quotas tenantId).map fun t =>
      { t with usedBytes := if tenantId = globalTenantId then 0 else bandwidthUsed s.db tenantId } }

structure Member (W : Int) extends Account where
  home : tenantId = W

inductive Event (W : Int)
  | tick (d : TickDraws) (report : Report)
  | request (user : Member W) (x : ShopDraw) (r : ShopRequest)
  | delete (user : Member W) (x : Draw) (email : String) (keepTraffic : Bool)
  | recalculate

def after (env : Env) {W : Int} (s : Shop) : Event W → Shop
  | .tick d report => { s with db := addTraffic s.db d report }
  | .request user x r => (serve env user.toAccount x s r).1
  | .delete user x email keepTraffic => (onPanel s (deleteClient user.toStaff x s.toPanel email keepTraffic)).1
  | .recalculate => recalculateBandwidthUsage s

def carried {W : Int} (s : Shop) : Event W → Int
  | .tick _ report => transferred s.db W report
  | _ => 0

section holding

variable {env : Env} {d : Draws} {o : Attempt} {W : Int} {touched : String → Prop} {db db' db'' : DB}
  {client client' : Client} {cs : List Client} {t t' : Clients.Records} {i : Int} {is : List Int} {k : Nat}
  {e email : String} {ts ts' : List ClientTraffic} {r r' : ClientRecord}

def Counted (ts : List ClientTraffic) : Prop := ∀ t ∈ ts, 0 ≤ t.up ∧ 0 ≤ t.down

def Stays (W : Int) (touched : String → Prop) (t t' : Clients.Records) : Prop :=
  ∀ r ∈ t.rows, r.tenantId = W → ¬ touched r.email →
    ∃ r' ∈ t'.rows, r'.recordId = r.recordId ∧ r'.email = r.email ∧ r'.tenantId = W

structure Holds (W : Int) (touched : String → Prop) (db db' : DB) : Prop where
  stays : Stays W touched db.records db'.records
  spent : ∀ e, ¬ touched e → spent db e ≤ spent db' e
  counted : Counted db.traffics → Counted db'.traffics

theorem spentIn_cons (t : ClientTraffic) :
    spentIn (t :: ts) e = (if t.email = e then t.up + t.down else 0) + spentIn ts e := by
  by_cases h : t.email = e
  · simp [spentIn, h]
  · simp [spentIn, h]

theorem spentIn_nonneg (h : Counted ts) : 0 ≤ spentIn ts e := by
  apply sum_nonneg
  intro t ht
  obtain ⟨hup, hdown⟩ := h t (mem_of_mem_filter ht)
  omega

variable {f : ClientTraffic → ClientTraffic}

theorem spentIn_map
    (h : ∀ t ∈ ts, t.email = e ∨ (f t).email = e →
      (f t).email = t.email ∧ (f t).up + (f t).down = t.up + t.down) :
    spentIn (ts.map f) e = spentIn ts e := by
  induction ts with
  | nil => rfl
  | cons t ts ih =>
    obtain ⟨ht, hts⟩ := forall_mem_cons.mp h
    rw [map_cons, spentIn_cons, spentIn_cons, ih hts]
    by_cases hnew : (f t).email = e
    · obtain ⟨hemail, hsum⟩ := ht (Or.inr hnew)
      rw [if_pos hnew, if_pos (hemail ▸ hnew), hsum]
    · by_cases hold : t.email = e
      · exact absurd ((ht (Or.inl hold)).1.trans hold) hnew
      · rw [if_neg hnew, if_neg hold]

theorem spentIn_addClientStat : spentIn (addClientStat i ts client) e = spentIn ts e := by
  rw [addClientStat]
  split
  · rfl
  · have hzero : spentIn [⟨i, client.email, 0, 0, client.totalGB, client.expiryTime, client.enable,
        client.reset⟩] e = 0 := by
      rw [spentIn_cons]
      split <;> rfl
    rw [spentIn] at hzero
    rw [spentIn, filter_append, map_append, sum_append, hzero, add_zero, spentIn]

theorem Counted.addClientStat (h : Counted ts) : Counted (addClientStat i ts client) := by
  rw [Clients.addClientStat]
  split
  · exact h
  · intro t ht
    rcases mem_append.mp ht with ht | ht
    · exact h t ht
    · rw [mem_singleton.mp ht]
      exact ⟨le_refl 0, le_refl 0⟩

theorem Counted.map (h : Counted ts)
    (hf : ∀ t, 0 ≤ t.up ∧ 0 ≤ t.down → 0 ≤ (f t).up ∧ 0 ≤ (f t).down) : Counted (ts.map f) := by
  intro t' ht'
  obtain ⟨t, ht, rfl⟩ := mem_map.mp ht'
  exact hf t (h t ht)

theorem Counted.filter {p : ClientTraffic → Bool} (h : Counted ts) : Counted (ts.filter p) :=
  fun t ht => h t (mem_of_mem_filter ht)

theorem Stays.refl (W : Int) (touched : String → Prop) (t : Clients.Records) : Stays W touched t t :=
  fun r hr hW _ => ⟨r, hr, rfl, rfl, hW⟩

theorem Stays.trans {t'' : Clients.Records} (h : Stays W touched t t') (h' : Stays W touched t' t'') :
    Stays W touched t t'' := by
  intro r hr hW htouched
  obtain ⟨r', hr', hkey, hemail, hW'⟩ := h r hr hW htouched
  obtain ⟨r'', hr'', hkey', hemail', hW''⟩ := h' r' hr' hW' (hemail ▸ htouched)
  exact ⟨r'', hr'', hkey'.trans hkey, hemail'.trans hemail, hW''⟩

theorem Stays.modify {p : ClientRecord → Bool} {f : ClientRecord → ClientRecord}
    (hf : ∀ r, (f r).recordId = r.recordId)
    (hkeeps : ∀ r ∈ t.rows, r.tenantId = W → p r = true → (f r).email = r.email ∧ (f r).tenantId = W) :
    Stays W touched t (t.modify p f hf) := by
  intro r hr hW _
  refine ⟨_, Table.mem_modify.mpr ⟨r, hr, rfl⟩, ?_⟩
  split
  case isTrue hp =>
    obtain ⟨hemail, hW'⟩ := hkeeps r hr hW hp
    exact ⟨hf r, hemail, hW'⟩
  case isFalse => exact ⟨rfl, rfl, hW⟩

theorem Holds.refl (W : Int) (touched : String → Prop) (db : DB) : Holds W touched db db :=
  ⟨.refl W touched _, fun _ _ => le_refl _, fun h => h⟩

theorem Holds.trans (h : Holds W touched db db') (h' : Holds W touched db' db'') :
    Holds W touched db db'' :=
  ⟨h.stays.trans h'.stays, fun e he => (h.spent e he).trans (h'.spent e he),
    fun hdb => h'.counted (h.counted hdb)⟩

theorem Holds.records (h : Stays W touched db.records t) : Holds W touched db { db with records := t } :=
  ⟨h, fun _ _ => le_refl _, fun hdb => hdb⟩

theorem Holds.traffics (h : ∀ e, ¬ touched e → spentIn ts e = spentIn db.traffics e)
    (hcounted : Counted db.traffics → Counted ts) : Holds W touched db { db with traffics := ts } :=
  ⟨.refl W touched _, fun e he => le_of_eq (h e he).symm, hcounted⟩

theorem mergeRecords_stays (t : Clients.Records) (cs : List Client) :
    Stays W touched t (mergeRecords t cs) := by
  induction cs generalizing t with
  | nil => exact .refl W touched t
  | cons c cs ih =>
    refine Stays.trans (Stays.modify (by exact fun _ => rfl) ?_) (ih _)
    exact fun r _ hW _ => ⟨rfl, hW⟩

theorem createRecords_stays (h : cs.foldlM createRecord t = .ok t') : Stays W touched t t' := by
  induction cs generalizing t with
  | nil =>
    cases h
    exact .refl W touched _
  | cons c cs ih =>
    rw [foldlM_cons, bind_ok] at h
    obtain ⟨mid, hcreate, hrest⟩ := h
    obtain ⟨-, rfl⟩ := createRecord_ok.mp hcreate
    refine Stays.trans ?_ (ih hrest)
    exact fun r hr hW _ => ⟨r, Table.mem_insert.mpr (Or.inl hr), rfl, rfl, hW⟩

theorem syncInbound_holds (h : syncInbound db i cs = .ok db') : Holds W touched db db' := by
  simp only [syncInbound, bind_ok] at h
  obtain ⟨records, hcreate, h⟩ := h
  cases h
  exact ⟨(mergeRecords_stays _ _).trans (createRecords_stays hcreate), fun _ _ => le_refl _, fun hdb => hdb⟩

theorem spentIn_updateClientStat {oldEmail : String}
    (h : updateClientStat ts oldEmail client = .ok ts') (hold : e ≠ oldEmail) (hnew : e ≠ client.email) :
    spentIn ts' e = spentIn ts e := by
  simp only [updateClientStat, bind_ok, check_ok] at h
  obtain ⟨_, -, h⟩ := h
  cases h
  apply spentIn_map
  intro t _ ht
  by_cases hmatch : t.email = oldEmail
  · rw [if_pos hmatch] at ht
    rcases ht with ht | ht
    · exact absurd (ht.symm.trans hmatch) hold
    · exact absurd ht.symm hnew
  · rw [if_neg hmatch]
    exact ⟨rfl, rfl⟩

theorem Counted.updateClientStat {oldEmail : String}
    (h : Clients.updateClientStat ts oldEmail client = .ok ts') (hts : Counted ts) : Counted ts' := by
  simp only [Clients.updateClientStat, bind_ok, check_ok] at h
  obtain ⟨_, -, h⟩ := h
  cases h
  apply hts.map
  intro t ht
  split <;> exact ht

theorem spentIn_resetStat (h : e ≠ email) : spentIn (resetStat ts email) e = spentIn ts e := by
  apply spentIn_map
  intro t _ ht
  by_cases hmatch : t.email = email
  · rw [if_pos hmatch] at ht
    rcases ht with ht | ht <;> exact absurd (ht.symm.trans hmatch) h
  · rw [if_neg hmatch]
    exact ⟨rfl, rfl⟩

theorem Counted.resetStat (h : Counted ts) : Counted (resetStat ts email) := by
  apply h.map
  intro t ht
  split
  · exact ⟨le_refl 0, le_refl 0⟩
  · exact ht

theorem spentIn_delClientStat (h : e ≠ email) : spentIn (delClientStat ts email) e = spentIn ts e := by
  have hkept : ∀ t ∈ ts, (decide (t.email = e) && (t.email != email)) = decide (t.email = e) := by
    intro t _
    by_cases he : t.email = e
    · simp [he, h]
    · simp [he]
  rw [spentIn, delClientStat, filter_filter, filter_congr hkept, spentIn]

theorem holds_frame : Frame touched (Holds W touched) where
  refl := .refl W touched
  trans := Holds.trans
  sync := syncInbound_holds
  save _ _ _ := ⟨.refl W touched _, fun _ _ => le_refl _, fun hdb => hdb⟩
  links _ _ := ⟨.refl W touched _, fun _ _ => le_refl _, fun hdb => hdb⟩
  stat _ _ _ := .traffics (fun _ _ => spentIn_addClientStat) Counted.addClientStat
  moved hold hnew h := .traffics
    (fun _ he => spentIn_updateClientStat h (untouched_ne hold he) (untouched_ne hnew he))
    (Counted.updateClientStat h)
  reset hemail := .traffics (fun _ he => spentIn_resetStat (untouched_ne hemail he)) Counted.resetStat
  dropped hemail := .traffics (fun _ he => spentIn_delClientStat (untouched_ne hemail he)) Counted.filter
  reverse _ _ _ _ := .records (.modify (by exact fun _ => rfl) fun _ _ hW _ => ⟨rfl, hW⟩)

variable {payload : ClientCreatePayload}

theorem Holds.stampOwner (h : Holds W touched db db')
    (hW : payload.tenantId = W ∨ email ∉ workspaceClients db W) :
    Holds W touched db (stampOwner db' email payload) := by
  refine ⟨?_, h.spent, h.counted⟩
  intro r hr htenant htouched
  obtain ⟨r', hr', hkey, hemail, htenant'⟩ := h.stays r hr htenant htouched
  refine ⟨_, mem_map_of_mem hr', ?_⟩
  split
  case isFalse => exact ⟨hkey, hemail, htenant'⟩
  case isTrue hmatch =>
    rcases hW with hW | hW
    · exact ⟨hkey, hemail, hW⟩
    · refine absurd (mem_workspaceClients.mpr ⟨r, hr, ?_, htenant⟩) hW
      exact hemail.symm.trans (by simpa using hmatch)

theorem create_holds
    (hemail : payload.client.email = email) (hW : payload.tenantId = W ∨ email ∉ workspaceClients db W) :
    Holds W touched db (create env d db payload).1 := by
  rw [create]
  split
  · exact .refl W _ db
  case h_2 client hprepare =>
    have hloop := @Frame.addToInbounds env d touched _ db client payload.inboundIds 0 (holds_frame (W := W))
    generalize addToInbounds env d 0 db client payload.inboundIds = looped at hloop ⊢
    obtain ⟨db', result⟩ := looped
    cases result with
    | error err => exact hloop
    | ok last =>
      dsimp only
      split
      · exact hloop
      · rw [prepare_email hprepare, hemail]
        exact hloop.stampOwner hW

theorem deleteByEmail_holds {keepTraffic : Bool} :
    Holds W (· = email) db (deleteByEmail d db email keepTraffic).1 := by
  have htraffics : ∀ db' : DB, Holds W (· = email) db' { db' with
      traffics := if keepTraffic then db'.traffics else delClientStat db'.traffics email } := by
    intro db'
    split
    · exact .refl W _ db'
    · exact holds_frame.dropped rfl
  rw [deleteByEmail]
  split
  case h_1 existing hexisting =>
    split at hexisting
    · cases hexisting
    · have hloop := @Frame.delFromInbounds d (· = email) _ db (db.inboundIdsOf existing.recordId) 0 email
        (holds_frame (W := W)) rfl
      generalize delFromInbounds d email 0 db (db.inboundIdsOf existing.recordId) = looped at hloop ⊢
      obtain ⟨db', result⟩ := looped
      cases result with
      | error err => exact hloop
      | ok last =>
        simp only [andThen]
        split
        · exact hloop
        · refine ⟨?_, (hloop.trans (htraffics db')).spent, (hloop.trans (htraffics db')).counted⟩
          intro r hr hW htouched
          obtain ⟨r', hr', hkey, hemail, hW'⟩ := hloop.stays r hr hW htouched
          refine ⟨r', Table.mem_delete.mpr ⟨hr', ?_⟩, hkey, hemail, hW'⟩
          have hne : r'.recordId ≠ existing.recordId := by
            intro hsame
            have heq := Table.eq_of_key hr (mem_of_find?_eq_some hexisting) (hkey.symm.trans hsame)
            exact htouched ((congrArg (·.email) heq).trans (record_email hexisting))
          simpa using hne
  case h_2 =>
    dsimp only
    split
    · exact .refl W _ db
    · generalize ((db.inbounds.rows.filter fun ib =>
        (ib.clients.getD []).any (·.email == email)).map (·.id)) = holders
      have hloop := @Frame.delFromInbounds d (· = email) _ db holders 0 email (holds_frame (W := W)) rfl
      generalize delFromInbounds d email 0 db holders = looped at hloop ⊢
      obtain ⟨db', result⟩ := looped
      cases result with
      | error err => exact hloop
      | ok last => exact hloop.trans (htraffics db')

end holding

section ticking

variable {W : Int} {touched : String → Prop} {db db' : DB} {e : String} {ts : List ClientTraffic}
  {report : Report} {now seconds : Int} {d : TickDraws} {ids : List Int}

def gain (report : Report) (e : String) : Int := (reported report e).elim 0 fun x => x.up + x.down

theorem gain_nonneg (report : Report) (e : String) : 0 ≤ gain report e := by
  rw [gain]
  cases reported report e with
  | none => exact le_refl 0
  | some x => exact Int.add_nonneg (Int.natCast_nonneg _) (Int.natCast_nonneg _)

theorem reported_sent {x : Sent} (hx : x ∈ report.sent) : reported report x.email = some x := by
  cases hfind : reported report x.email with
  | none => exact absurd (find?_eq_none.mp hfind x hx) (by simp)
  | some y =>
    have hemail : y.email = x.email := by simpa using find?_some hfind
    rw [inj_on_of_nodup_map report.distinct (mem_of_find?_eq_some hfind) hx hemail]

theorem gain_sent {x : Sent} (hx : x ∈ report.sent) : gain report x.email = x.up + x.down := by
  rw [gain, reported_sent hx]
  rfl

theorem syncOne_holds (i : Int) : Holds W touched db (syncOne db i) := by
  rw [syncOne]
  cases hsync : syncInbound db i (db.settingsClients i) with
  | error err => exact .refl W touched db
  | ok db' => exact syncInbound_holds hsync

theorem syncAll_holds : Holds W touched db (ids.foldl syncOne db) := by
  induction ids generalizing db with
  | nil => exact .refl W touched db
  | cons i ids ih => exact (syncOne_holds i).trans ih

theorem renewInbounds_holds {rows : List ClientTraffic} {seen : List String} :
    Holds W touched db (renewInbounds seconds rows db ids seen) := by
  induction ids generalizing db seen with
  | nil => exact .refl W touched db
  | cons i ids ih =>
    rw [renewInbounds]
    exact (holds_frame.save db i _).trans ih

theorem countRow_email (started : Bool) (t : ClientTraffic) :
    (countRow now started report t).email = t.email := by
  rw [countRow]
  split <;> rfl

theorem countRow_sum (started : Bool) (t : ClientTraffic) :
    (countRow now started report t).up + (countRow now started report t).down =
      t.up + t.down + gain report t.email := by
  rw [countRow, gain]
  cases reported report t.email with
  | none => exact (add_zero _).symm
  | some x =>
    simp only [Option.elim]
    omega

theorem spentIn_countRow (started : Bool) :
    spentIn (ts.map (countRow now started report)) e =
      spentIn ts e + (ts.countP fun t => t.email = e) * gain report e := by
  induction ts with
  | nil => simp [spentIn]
  | cons t ts ih =>
    rw [map_cons, spentIn_cons, spentIn_cons, ih, countRow_email, countRow_sum, countP_cons]
    by_cases hemail : t.email = e
    · rw [if_pos hemail, if_pos hemail, if_pos (by simpa using hemail), hemail, Nat.cast_add, add_mul]
      omega
    · rw [if_neg hemail, if_neg hemail, if_neg (by simpa using hemail), Nat.add_zero]
      omega

theorem addClientTraffic_stays (now : Int) (report : Report) :
    Stays W touched db.records (addClientTraffic db now report).records := by
  rw [addClientTraffic]
  split
  · intro r hr hW htouched
    dsimp only
    exact syncAll_holds.stays r hr hW htouched
  · exact .refl W touched _

theorem addClientTraffic_counted (h : Counted db.traffics) :
    Counted (addClientTraffic db now report).traffics := by
  rw [addClientTraffic]
  split
  · apply h.map
    intro t ht
    rw [countRow]
    split
    · exact ht
    · exact ⟨Int.add_nonneg ht.1 (Int.natCast_nonneg _), Int.add_nonneg ht.2 (Int.natCast_nonneg _)⟩
  · exact h

theorem addClientTraffic_spent (hrow : 0 < gain report e → ∃ t ∈ db.traffics, t.email = e) :
    spent db e + gain report e ≤ spent (addClientTraffic db now report) e := by
  rw [addClientTraffic]
  split
  case isTrue =>
    rw [spent, spent, spentIn_countRow]
    have hgain := gain_nonneg report e
    rcases hgain.eq_or_lt with hzero | hpos
    · rw [← hzero, mul_zero]
    · obtain ⟨t, ht, hemail⟩ := hrow hpos
      have hcount : 0 < db.traffics.countP fun t => t.email = e :=
        countP_pos_iff.mpr ⟨t, ht, by simpa using hemail⟩
      have hone : (1 : Int) ≤ db.traffics.countP fun t => t.email = e := by exact_mod_cast hcount
      have hmul := mul_le_mul_of_nonneg_right hone hgain
      omega
  case isFalse hnone =>
    rcases (gain_nonneg report e).eq_or_lt with hzero | hpos
    · omega
    · obtain ⟨t, ht, hemail⟩ := hrow hpos
      refine absurd (any_eq_true.mpr ⟨t, ht, ?_⟩) hnone
      rw [hemail]
      cases hreported : reported report e with
      | none =>
        rw [gain, hreported] at hpos
        exact absurd hpos (lt_irrefl _)
      | some x => rfl

def Undue (db : DB) (seconds W : Int) : Prop :=
  ∀ t ∈ db.traffics, renews db seconds t = true → t.email ∈ workspaceClients db W → t.up + t.down = 0

theorem autoRenewClients_holds (h : Undue db seconds W) :
    Holds W (· ∉ workspaceClients db W) db (autoRenewClients db seconds) := by
  rw [autoRenewClients]
  split
  · exact .refl W _ db
  · refine ⟨(renewInbounds_holds.trans syncAll_holds).stays, ?_, ?_⟩
    · intro e he
      rw [not_not] at he
      refine le_of_eq (spentIn_map ?_).symm
      intro t ht hemail
      rw [renewRow]
      split
      case isTrue hrenews =>
        rw [renewRow, if_pos hrenews, or_self] at hemail
        exact ⟨rfl, (h t ht hrenews (hemail ▸ he)).symm⟩
      case isFalse => exact ⟨rfl, rfl⟩
    · intro hcounted
      apply hcounted.map
      intro t ht
      rw [renewRow]
      split
      · exact ⟨le_refl 0, le_refl 0⟩
      · exact ht

theorem disableInvalidClients_holds : Holds W touched db (disableInvalidClients db d) := by
  refine ⟨.modify (by exact fun _ => rfl) fun _ _ hW _ => ⟨rfl, hW⟩, ?_, ?_⟩
  · intro e _
    refine le_of_eq (spentIn_map ?_).symm
    intro t _ _
    split <;> exact ⟨rfl, rfl⟩
  · intro hcounted
    apply hcounted.map
    intro t ht
    split <;> exact ht

end ticking

section usage

variable {W : Int} {touched : String → Prop} {db db' : DB} {report : Report} {d : TickDraws}

def housed (db : DB) (W : Int) : List ClientRecord := db.records.rows.filter (·.tenantId == W)

theorem mem_housed {r : ClientRecord} : r ∈ housed db W ↔ r ∈ db.records.rows ∧ r.tenantId = W := by
  simp [housed]

theorem named_housed {r : ClientRecord} (h : r ∈ housed db W) : r.email ∈ workspaceClients db W := by
  obtain ⟨hr, hW⟩ := mem_housed.mp h
  exact mem_workspaceClients.mpr ⟨r, hr, rfl, hW⟩

def Unspent (db : DB) (W : Int) (touched : String → Prop) : Prop :=
  ∀ r ∈ housed db W, touched r.email → spent db r.email = 0

theorem bandwidthUsed_le {f : String → Int} [DecidablePred touched]
    (hstays : Stays W touched db.records db'.records) (hcounted : Counted db'.traffics)
    (hspent : ∀ r ∈ housed db W, ¬ touched r.email → f r.email ≤ spent db' r.email)
    (hzero : ∀ r ∈ housed db W, touched r.email → f r.email ≤ 0) :
    ((housed db W).map fun r => f r.email).sum ≤ bandwidthUsed db' W := by
  have hnodup : ((housed db W).map (·.recordId)).Nodup :=
    db.records.nodup.sublist (filter_sublist.map _)
  have hkept : (((housed db W).filter fun r => !decide (touched r.email)).map
      fun r => (r.recordId, r.email)).Nodup := by
    apply List.Nodup.of_map Prod.fst
    rw [map_map]
    exact hnodup.sublist (filter_sublist.map _)
  have hsub : (((housed db W).filter fun r => !decide (touched r.email)).map
      fun r => (r.recordId, r.email)) ⊆ (housed db' W).map fun r => (r.recordId, r.email) := by
    intro p hp
    obtain ⟨r, hr, rfl⟩ := mem_map.mp hp
    obtain ⟨hr, htouched⟩ := mem_filter.mp hr
    obtain ⟨hr, hW⟩ := mem_housed.mp hr
    obtain ⟨r', hr', hkey, hemail, hW'⟩ := hstays r hr hW (by simpa using htouched)
    exact mem_map.mpr ⟨r', mem_housed.mpr ⟨hr', hW'⟩, by rw [hkey, hemail]⟩
  calc ((housed db W).map fun r => f r.email).sum
      ≤ (((housed db W).filter fun r => !decide (touched r.email)).map fun r => f r.email).sum :=
        sum_filter fun r hr ht => hzero r hr (by simpa using ht)
    _ ≤ (((housed db W).filter fun r => !decide (touched r.email)).map fun r => spent db' r.email).sum := by
        apply sum_mono
        intro r hr
        obtain ⟨hr, htouched⟩ := mem_filter.mp hr
        exact hspent r hr (by simpa using htouched)
    _ = ((((housed db W).filter fun r => !decide (touched r.email)).map
          fun r => (r.recordId, r.email)).map fun p => spent db' p.2).sum := by
        rw [map_map]
        rfl
    _ ≤ (((housed db' W).map fun r => (r.recordId, r.email)).map fun p => spent db' p.2).sum :=
        sum_subset hkept hsub fun p _ => spentIn_nonneg hcounted
    _ = bandwidthUsed db' W := by
        rw [map_map]
        rfl

theorem Holds.usage (h : Holds W touched db db') (hcounted : Counted db.traffics)
    (hunspent : Unspent db W touched) : bandwidthUsed db W ≤ bandwidthUsed db' W := by
  classical
  exact bandwidthUsed_le h.stays (h.counted hcounted) (fun r _ ht => h.spent r.email ht)
    fun r hr ht => le_of_eq (hunspent r hr ht)

theorem transferred_le (db : DB) (W : Int) (report : Report) :
    transferred db W report ≤ ((housed db W).map fun r => gain report r.email).sum := by
  have hbytes : transferred db W report =
      (((report.sent.filter fun x => (workspaceClients db W).contains x.email).map (·.email)).map
        (gain report)).sum := by
    rw [transferred, map_map]
    congr 1
    apply map_congr_left
    intro x hx
    exact (gain_sent (mem_of_mem_filter hx)).symm
  rw [hbytes]
  calc _ ≤ (((housed db W).map (·.email)).map (gain report)).sum := by
        apply sum_subset (report.distinct.sublist (filter_sublist.map _))
        · intro e he
          obtain ⟨x, hx, rfl⟩ := mem_map.mp he
          have hnamed := (mem_filter.mp hx).2
          obtain ⟨r, hr, hemail, hW⟩ := mem_workspaceClients.mp (by simpa using hnamed)
          exact mem_map.mpr ⟨r, mem_housed.mpr ⟨hr, hW⟩, hemail⟩
        · exact fun e _ => gain_nonneg report e
    _ = ((housed db W).map fun r => gain report r.email).sum := by
        rw [map_map]
        rfl

def Accounted (db : DB) (W : Int) (report : Report) : Prop :=
  ∀ x ∈ report.sent, x.email ∈ workspaceClients db W → 0 < x.up + x.down →
    ∃ t ∈ db.traffics, t.email = x.email

theorem addClientTraffic_usage (hcounted : Counted db.traffics) (h : Accounted db W report) :
    bandwidthUsed db W + transferred db W report ≤ bandwidthUsed (addClientTraffic db d.now report) W := by
  have hrow : ∀ r ∈ housed db W, 0 < gain report r.email → ∃ t ∈ db.traffics, t.email = r.email := by
    intro r hr hpos
    cases hreported : reported report r.email with
    | none =>
      rw [gain, hreported] at hpos
      exact absurd hpos (lt_irrefl _)
    | some x =>
      have hx := mem_of_find?_eq_some hreported
      have hemail : x.email = r.email := by simpa using find?_some hreported
      rw [← hemail, gain_sent hx] at hpos
      rw [← hemail]
      exact h x hx (hemail ▸ named_housed hr) (by exact_mod_cast hpos)
  have hle := @bandwidthUsed_le W (fun _ => False) db (addClientTraffic db d.now report)
    (fun e => spent db e + gain report e) _ (addClientTraffic_stays d.now report) (addClientTraffic_counted hcounted)
    (fun r hr _ => addClientTraffic_spent (hrow r hr)) (fun _ _ => False.elim)
  rw [sum_add] at hle
  have htransferred := transferred_le db W report
  have hused : bandwidthUsed db W = ((housed db W).map fun r => spent db r.email).sum := rfl
  omega

theorem addTraffic_usage (hcounted : Counted db.traffics) (h : Accounted db W report)
    (hundue : Undue (addClientTraffic db d.now report) d.seconds W) :
    bandwidthUsed db W + transferred db W report ≤ bandwidthUsed (addTraffic db d report) W ∧
      Counted (addTraffic db d report).traffics := by
  have hcounted₁ : Counted (addClientTraffic db d.now report).traffics := addClientTraffic_counted hcounted
  have hrenewed := autoRenewClients_holds hundue
  have hcounted₂ := hrenewed.counted hcounted₁
  have hdisabled : Holds W (fun _ => False) (autoRenewClients (addClientTraffic db d.now report) d.seconds)
      (addTraffic db d report) := disableInvalidClients_holds
  have hle₁ := addClientTraffic_usage (d := d) hcounted h
  have hle₂ := hrenewed.usage hcounted₁ fun r hr ht => absurd (named_housed hr) ht
  have hle₃ := hdisabled.usage hcounted₂ fun _ _ => False.elim
  exact ⟨by omega, hdisabled.counted hcounted₂⟩

end usage

def SparedRequest (W : Int) (s : Shop) (user : Account) (x : ShopDraw) : ShopRequest → Prop
  | .create _ => True
  | .attach _ _ => True
  | .purchase productId name view =>
    ∀ product orderId, purchasable user x.order s productId view = .ok (product, orderId) →
      view.tenantId = W ∨ clientName x.order.client user.buyer orderId name ∉ workspaceClients s.db W
  | .renew productId email view =>
    (renewable user x.order s productId email view).isOk = false ∨ Unspent s.db W (sameName email)
  | .resetTraffic email =>
    requireOwnership user.toStaff s.toPanel email = false ∨
      (resetCharge user.toStaff x.desk.wallet s.toPanel email).isOk = false ∨
        Unspent s.db W (sameName email)

def Spared (W : Int) (s : Shop) : Event W → Prop
  | .tick d report =>
    Accounted s.db W report ∧ Undue (addClientTraffic s.db d.now report) d.seconds W
  | .request user x r => SparedRequest W s user.toAccount x r
  | .delete user _ email _ =>
    requireOwnership user.toStaff s.toPanel email = false ∨ Unspent s.db W (· = email)
  | .recalculate => True

section running

variable {env : Env} {W q : Int} {s : Shop} {db db' : DB} {c : Int}

structure Retains (W : Int) (db db' : DB) : Prop where
  used : bandwidthUsed db W ≤ bandwidthUsed db' W
  counted : Counted db'.traffics

theorem Retains.same (h : Counted db.traffics) : Retains W db db := ⟨le_refl _, h⟩

theorem Holds.retains {touched : String → Prop} (h : Holds W touched db db') (hcounted : Counted db.traffics)
    (hunspent : Unspent db W touched) : Retains W db db' :=
  ⟨h.usage hcounted hunspent, h.counted hcounted⟩

theorem untouched_retains (h : Holds W (fun _ => False) db db') (hcounted : Counted db.traffics) :
    Retains W db db' :=
  h.retains hcounted fun _ _ => False.elim

theorem charge_quotas {user : Staff} {w : WalletDraws} {p p' : Clients.Panel} {cost totalBytes : Int}
    (h : charge user w p cost totalBytes = .ok p') : p'.quotas = p.quotas := by
  rw [charge] at h
  split at h
  · cases h
    rfl
  · split at h
    · cases h
    · cases h
      rfl

theorem prepaid_quotas {user : Staff} {w : WalletDraws} {p : Clients.Panel} {cost totalBytes : Int}
    {act : DB → DB × Except String Unit} : (prepaid user w p cost totalBytes act).1.quotas = p.quotas := by
  rw [prepaid]
  split
  · rfl
  case h_2 p' hcharge =>
    have hsame := charge_quotas hcharge
    split
    · rw [refundCharge]
      split <;> exact hsame
    · exact hsame

theorem createClient_retains (user : Member W) (x : Draw) (payload : ClientCreatePayload)
    (hcounted : Counted s.db.traffics) :
    Retains W s.db (createClient env user.toStaff x s.toPanel payload).1.db ∧
      (createClient env user.toStaff x s.toPanel payload).1.quotas = s.quotas := by
  rw [createClient]
  split
  · exact ⟨.same hcounted, rfl⟩
  · refine ⟨?_, prepaid_quotas⟩
    rcases prepaid_keeps.2 with ⟨-, hsame⟩ | ⟨-, hacted⟩
    · rw [hsame]
      exact .same hcounted
    · rw [hacted]
      exact untouched_retains (create_holds rfl (Or.inl user.home)) hcounted

theorem attachClient_retains (user : Staff) (x : Draw) (email : String) (inboundIds : List Int)
    (hcounted : Counted s.db.traffics) :
    Retains W s.db (attachClient env user x s.toPanel email inboundIds).1.db ∧
      (attachClient env user x s.toPanel email inboundIds).1.quotas = s.quotas := by
  rw [attachClient, owned]
  split
  · exact ⟨untouched_retains holds_frame.attachByEmail hcounted, rfl⟩
  · exact ⟨.same hcounted, rfl⟩

theorem resetClient_retains (user : Staff) (x : Draw) {email : String} (hcounted : Counted s.db.traffics)
    (h : requireOwnership user s.toPanel email = false ∨
      (resetCharge user x.wallet s.toPanel email).isOk = false ∨ Unspent s.db W (sameName email)) :
    Retains W s.db (resetClient env user x s.toPanel email).1.db ∧
      (resetClient env user x s.toPanel email).1.quotas = s.quotas := by
  rw [resetClient, owned]
  split
  case isFalse => exact ⟨.same hcounted, rfl⟩
  case isTrue howned =>
    refine ⟨?_, prepaid_quotas⟩
    have hkeeps := (@prepaid_keeps user x.wallet s.toPanel
      (resetCostOf user s.toPanel (if user.isAdmin then 0 else quotaInForce s.db email))
      (if user.isAdmin then 0 else quotaInForce s.db email)
      fun db => resetTrafficByEmail env x.client x.reset db email).2
    rcases hkeeps with ⟨-, hsame⟩ | ⟨hcharged, hacted⟩
    · rw [hsame]
      exact .same hcounted
    · rw [hacted]
      rcases h with hforeign | huncharged | hunspent
      · rw [howned] at hforeign
        cases hforeign
      · rw [resetCharge, hcharged] at huncharged
        cases huncharged
      · exact (holds_frame.resetTrafficByEmail fun _ h => h).retains hcounted hunspent

theorem purchase_retains (user : Account) (x : OrderDraws) {productId : Int} {name : String} {view : Scope}
    (hcounted : Counted s.db.traffics)
    (h : ∀ product orderId, purchasable user x s productId view = .ok (product, orderId) →
      view.tenantId = W ∨ clientName x.client user.buyer orderId name ∉ workspaceClients s.db W) :
    Retains W s.db (purchase env user x s productId name view).1.db ∧
      (purchase env user x s productId name view).1.quotas = s.quotas := by
  rw [purchase]
  split
  · exact ⟨.same hcounted, rfl⟩
  case h_2 product orderId hpurchasable =>
    split
    · exact ⟨.same hcounted, rfl⟩
    · have hemail : (orderPayload env x.client user.buyer product orderId name view.tenantId).client.email =
          clientName x.client user.buyer orderId name := by
        rw [orderPayload]
      have hcreated : Holds W (fun _ => False) s.db (create env x.client s.db
          (orderPayload env x.client user.buyer product orderId name view.tenantId)).1 :=
        create_holds hemail (h product orderId hpurchasable)
      have hretains : Retains W s.db
          (provision env x.client s.db user.buyer product orderId name view.tenantId).1 := by
        rw [provision]
        generalize create env x.client s.db
          (orderPayload env x.client user.buyer product orderId name view.tenantId) = created at hcreated ⊢
        exact untouched_retains hcreated hcounted
      generalize provision env x.client s.db user.buyer product orderId name view.tenantId =
        provided at hretains ⊢
      exact ⟨hretains, rfl⟩

theorem applyPlan_holds {x : OrderDraws} {email : String} {product : Product} :
    Holds W (sameName email) db (applyPlan env x db email product).1 := by
  rw [applyPlan]
  split
  · exact .refl W _ db
  case h_2 rec hrec =>
    have hframe : Frame (sameName email) (Holds W (sameName email)) := holds_frame
    have hupdate := @Frame.updateByEmail env x.client _ _ db (planned env x.client.now rec product) email []
      hframe (fun _ h => h) (record_email hrec)
    generalize updateByEmail env x.client db email (planned env x.client.now rec product) [] =
      updated at hupdate ⊢
    obtain ⟨db', result⟩ := updated
    cases result with
    | error err => exact hupdate
    | ok u => exact hupdate.trans (hframe.resetTrafficByEmail fun _ h => h)

theorem renew_retains (user : Account) (x : OrderDraws) {productId : Int} {email : String} {view : Scope}
    (hcounted : Counted s.db.traffics)
    (h : (renewable user x s productId email view).isOk = false ∨ Unspent s.db W (sameName email)) :
    Retains W s.db (renew env user x s productId email view).1.db ∧
      (renew env user x s productId email view).1.quotas = s.quotas := by
  rw [renew]
  split
  · exact ⟨.same hcounted, rfl⟩
  case h_2 product hrenewable =>
    rcases h with hrefused | hunspent
    · rw [hrenewable] at hrefused
      cases hrefused
    · have hplan := @applyPlan_holds env W s.db x email product
      generalize applyPlan env x s.db email product = plan at hplan ⊢
      obtain ⟨db', result⟩ := plan
      cases result with
      | error err => exact ⟨hplan.retains hcounted hunspent, rfl⟩
      | ok u =>
        dsimp only
        split
        · exact ⟨hplan.retains hcounted hunspent, rfl⟩
        · exact ⟨(hplan.trans holds_frame.attachByEmail).retains hcounted hunspent, rfl⟩

theorem serve_retains (user : Member W) (x : ShopDraw) (r : ShopRequest) (hcounted : Counted s.db.traffics)
    (h : SparedRequest W s user.toAccount x r) :
    Retains W s.db (serve env user.toAccount x s r).1.db ∧
      (serve env user.toAccount x s r).1.quotas = s.quotas := by
  cases r with
  | create payload => exact createClient_retains user x.desk payload hcounted
  | attach email inboundIds => exact attachClient_retains user.toStaff x.desk email inboundIds hcounted
  | purchase productId name view =>
    rw [serve]
    exact purchase_retains user.toAccount x.order hcounted h
  | renew productId email view =>
    rw [serve]
    exact renew_retains user.toAccount x.order hcounted h
  | resetTraffic email => exact resetClient_retains user.toStaff x.desk hcounted h

theorem deleteClient_retains (user : Staff) (x : Draw) {email : String} (keepTraffic : Bool)
    (hcounted : Counted s.db.traffics)
    (h : requireOwnership user s.toPanel email = false ∨ Unspent s.db W (· = email)) :
    Retains W s.db (deleteClient user x s.toPanel email keepTraffic).1.db ∧
      (deleteClient user x s.toPanel email keepTraffic).1.quotas = s.quotas := by
  rw [deleteClient, owned]
  split
  case isFalse => exact ⟨.same hcounted, rfl⟩
  case isTrue howned =>
    rcases h with hforeign | hunspent
    · rw [howned] at hforeign
      cases hforeign
    · exact ⟨deleteByEmail_holds.retains hcounted hunspent, rfl⟩

structure Sound (W q consumed : Int) (s : Shop) : Prop where
  counted : Counted s.db.traffics
  quota : ∃ used, s.quotas W = some ⟨q, used⟩ ∧ used ≤ bandwidthUsed s.db W
  consumed : consumed ≤ bandwidthUsed s.db W

theorem Sound.retains {s' : Shop} (hs : Sound W q c s) (h : Retains W s.db s'.db)
    (hquotas : s'.quotas = s.quotas) : Sound W q c s' := by
  obtain ⟨used, hquota, hused⟩ := hs.quota
  exact ⟨h.counted, ⟨used, hquotas ▸ hquota, hused.trans h.used⟩, hs.consumed.trans h.used⟩

theorem Sound.after (hW : W ≠ globalTenantId) (hs : Sound W q c s) {a : Event W} (h : Spared W s a) :
    Sound W q (c + carried s a) (after env s a) := by
  cases a with
  | tick d report =>
    obtain ⟨used, hquota, hused⟩ := hs.quota
    obtain ⟨hle, hcounted⟩ := addTraffic_usage hs.counted h.1 h.2
    have hreport : 0 ≤ transferred s.db W report :=
      sum_nonneg fun x _ => Int.add_nonneg (Int.natCast_nonneg _) (Int.natCast_nonneg _)
    have hconsumed := hs.consumed
    refine ⟨hcounted, ⟨used, hquota, ?_⟩, ?_⟩
    · show used ≤ bandwidthUsed (addTraffic s.db d report) W
      omega
    · show c + transferred s.db W report ≤ bandwidthUsed (addTraffic s.db d report) W
      omega
  | request user x r =>
    obtain ⟨hretains, hquotas⟩ := serve_retains user x r hs.counted h
    have hnone : carried s (.request user x r) = 0 := rfl
    rw [hnone, add_zero]
    exact hs.retains hretains hquotas
  | delete user x email keepTraffic =>
    obtain ⟨hretains, hquotas⟩ := deleteClient_retains (W := W) user.toStaff x keepTraffic hs.counted h
    have hnone : carried s (.delete user x email keepTraffic) = 0 := rfl
    rw [hnone, add_zero]
    exact hs.retains hretains hquotas
  | recalculate =>
    obtain ⟨used, hquota, -⟩ := hs.quota
    have hnone : carried s (.recalculate : Event W) = 0 := rfl
    rw [hnone, add_zero]
    refine ⟨hs.counted, ⟨bandwidthUsed s.db W, ?_, le_refl _⟩, hs.consumed⟩
    rw [Consumption.after, recalculateBandwidthUsage]
    simp only [hquota, Option.map_some, if_neg hW]

theorem sound_run (hW : W ≠ globalTenantId) (hs : Sound W q c s) {acts : List (Event W)}
    (h : Throughout (after env) (Spared W) s acts) :
    Sound W q (c + total (after env) carried s acts) (acts.foldl (after env) s) := by
  induction acts generalizing s c with
  | nil => simpa only [total, add_zero, foldl_nil] using hs
  | cons a acts ih =>
    have hrest := ih (hs.after hW h.1) h.2
    rw [total, ← add_assoc]
    exact hrest

structure Remembered (W q consumed : Int) (s : Shop) : Prop where
  recalculated : ∃ used, s.quotas W = some ⟨q, used⟩ ∧
    (recalculateBandwidthUsage s).quotas W = some ⟨q, bandwidthUsed s.db W⟩ ∧
      used ≤ bandwidthUsed s.db W ∧ consumed ≤ bandwidthUsed s.db W
  stays_over : overBandwidthQuota s.toPanel W = true →
    overBandwidthQuota (recalculateBandwidthUsage s).toPanel W = true
  over_quota : 0 < q → q ≤ consumed → overBandwidthQuota (recalculateBandwidthUsage s).toPanel W = true

theorem Sound.remembered (hW : globalTenantId < W) (hs : Sound W q c s) : Remembered W q c s := by
  obtain ⟨used, hquota, hused⟩ := hs.quota
  have hconsumed := hs.consumed
  have hrecalculated : (recalculateBandwidthUsage s).quotas W = some ⟨q, bandwidthUsed s.db W⟩ := by
    rw [recalculateBandwidthUsage]
    simp only [hquota, Option.map_some, if_neg (ne_of_gt hW)]
  refine ⟨⟨used, hquota, hrecalculated, hused, hconsumed⟩, ?_, ?_⟩
  · rw [overBandwidthQuota, overBandwidthQuota, if_neg (not_le.mpr hW), if_neg (not_le.mpr hW),
      hrecalculated, hquota]
    simp only [Option.any_some, Bool.and_eq_true, decide_eq_true_eq]
    omega
  · intro hpos hle
    rw [overBandwidthQuota, if_neg (not_le.mpr hW), hrecalculated]
    simp only [Option.any_some, Bool.and_eq_true, decide_eq_true_eq]
    omega

theorem consumption_remembered (env : Env) (W q : Int) (s : Shop) (acts : List (Event W))
    (hW : globalTenantId < W) (hcounted : Counted s.db.traffics) (hnew : workspaceClients s.db W = [])
    (hquota : s.quotas W = some ⟨q, 0⟩) (h : Throughout (after env) (Spared W) s acts) :
    ∀ n, Remembered W q (total (after env) carried s (acts.take n)) ((acts.take n).foldl (after env) s) := by
  intro n
  have hnone : bandwidthUsed s.db W = 0 := by
    rw [workspaceClients, map_eq_nil_iff] at hnew
    rw [bandwidthUsed, hnew]
    rfl
  have hstart : Sound W q 0 s := ⟨hcounted, ⟨0, hquota, hnone ▸ le_refl _⟩, hnone ▸ le_refl _⟩
  have hrun := sound_run (ne_of_gt hW) hstart (h.take n)
  rw [zero_add] at hrun
  exact hrun.remembered hW

end running

def newShop : Shop := { exhaustedShop with
  db :=
    { inbounds := Table.empty.insert (fun id => ⟨id, .vless, none, "", true, some []⟩) (bare_keyed true)
      records := Table.empty
      links := []
      traffics := [] }
  quotas := fun tenantId => if tenantId = 4 then some ⟨150, 0⟩ else none }

def buyer : Member 4 := ⟨customer, rfl⟩

def surfed : List (Event 4) :=
  [.request buyer paid (.create freshPayload),
    .tick ⟨0, 0, fun _ => false⟩ ⟨[⟨"cfg", 80, 120⟩], by decide⟩,
    .recalculate]

theorem newShop_counted : Counted newShop.db.traffics := fun _ ht => absurd ht not_mem_nil

theorem consumption_remembered_surfed :
    Remembered 4 150 (total (after plainEnv) carried newShop (surfed.take 3))
      ((surfed.take 3).foldl (after plainEnv) newShop) := by
  refine consumption_remembered plainEnv 4 150 newShop surfed (by decide) newShop_counted (by decide) rfl
    ⟨trivial, ⟨?_, ?_⟩, trivial, trivial⟩ 3
  · rw [Accounted]
    decide +kernel
  · rw [Undue]
    decide +kernel

def wiped : List (Event 4) := surfed ++ [.request buyer paid (.resetTraffic "cfg"), .recalculate]

theorem consumption_forgotten :
    workspaceClients newShop.db 4 = [] ∧ total (after plainEnv) carried newShop wiped = 200 ∧
      ((surfed.foldl (after plainEnv) newShop).quotas 4).map (·.usedBytes) = some 200 ∧
      ((wiped.foldl (after plainEnv) newShop).quotas 4).map (·.usedBytes) = some 0 ∧
      overBandwidthQuota (surfed.foldl (after plainEnv) newShop).toPanel 4 = true ∧
      overBandwidthQuota (wiped.foldl (after plainEnv) newShop).toPanel 4 = false ∧
      ¬ Remembered 4 150 200 (wiped.foldl (after plainEnv) newShop) := by
  refine ⟨by decide, by decide +kernel, by decide +kernel, by decide +kernel, by decide +kernel,
    by decide +kernel, ?_⟩
  intro h
  obtain ⟨used, -, -, -, hle⟩ := h.recalculated
  have hzero : bandwidthUsed (wiped.foldl (after plainEnv) newShop).db 4 = 0 := by decide +kernel
  omega

end Consumption

end QuiPanel
