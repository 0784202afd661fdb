import QuiPanel.Consumption
import QuiPanel.Library.Diff
import QuiPanel.Library.TwoRuns
import QuiPanel.Library.Peaks

namespace QuiPanel

namespace GlobalUsage

open Keyed KeyedDiff Outcome Clients Consumption Trace TwoRuns Peaks List

section tables

structure ClientGlobalTraffic where
  masterGuid : String
  email : String
  up : Int
  down : Int
  deriving DecidableEq

abbrev Globals := List ClientGlobalTraffic

def ClientGlobalTraffic.key (g : ClientGlobalTraffic) : String × String := (g.masterGuid, g.email)

structure NodeClientTraffic where
  nodeId : Int
  email : String
  up : Int
  down : Int

structure Local where
  panel : Clients.Panel
  baselines : List NodeClientTraffic

structure Site extends Local where
  globals : Globals

structure Usage where
  email : String
  up : Int
  down : Int

def Local.db (l : Local) : DB := l.panel.db

def Local.withDb (l : Local) (db : DB) : Local := { l with panel := { l.panel with db } }

end tables

section globals

def byEmail (traffics : List Usage) (email : String) : Option Usage :=
  (traffics.filter (·.email = email)).getLast?

def pushedRows (db : DB) (guid : String) (traffics : List Usage) : Globals :=
  let emails := ((traffics.map (·.email)).filter (· ≠ "")).dedup
  let known := ((db.traffics.map (·.email)).filter emails.contains).dedup
  known.filterMap fun email => (byEmail traffics email).map fun t => ⟨guid, email, t.up, t.down⟩

def acceptGlobalTraffic (s : Site) (masterGuid : String) (traffics : List Usage) : Site :=
  let guid := Text.trimSpace masterGuid
  if guid = "" then s
  else { s with globals := replaceAll ClientGlobalTraffic.key s.globals (pushedRows s.db guid traffics) }

def clearGlobalTraffic (globals : Globals) (emails : List String) : Globals :=
  globals.filter fun g => !emails.contains g.email

def raise (r : ClientTraffic) (gs : Globals) : ClientTraffic :=
  { r with up := peak (·.up) r.up gs, down := peak (·.down) r.down gs }

def spellings : List String → List ClientTraffic → List String
  | _, [] => []
  | seen, r :: rs =>
    let key := Text.toLower r.email
    if r.email = "" ∨ key ∈ seen then spellings seen rs else r.email :: spellings (key :: seen) rs

def overlayGlobalTraffic (globals : Globals) (rows : List ClientTraffic) : List ClientTraffic :=
  if globals.isEmpty then rows
  else
    let fetched := globals.filter fun g => (spellings [] rows).contains g.email
    rows.map fun r =>
      if r.email = "" then r
      else raise r (fetched.filter fun g => Text.toLower g.email = Text.toLower r.email)

end globals

section reads

variable (db : DB)

def preloaded (ib : Inbound) : List ClientTraffic := db.traffics.filter (·.inboundId = ib.id)

def seenKeys (stats : List ClientTraffic) : List String :=
  (stats.filter (·.email ≠ "")).map fun t => Text.toLower t.email

def missing (listed : List Inbound) : List String :=
  listed.flatMap fun ib =>
    ((ib.clients.getD []).filter fun c =>
      c.email ≠ "" && !(seenKeys (preloaded db ib)).contains (Text.toLower c.email)).map (·.email)

def extraStats (listed : List Inbound) : List ClientTraffic :=
  db.traffics.filter fun t => (missing db listed).contains t.email

def topUp (extra : List ClientTraffic) : List ClientTraffic → List Client → List ClientTraffic
  | stats, [] => stats
  | stats, c :: cs =>
    let key := Text.toLower c.email
    if c.email = "" ∨ key ∈ seenKeys stats then topUp extra stats cs
    else
      match (extra.filter fun t => Text.toLower t.email = key).getLast? with
      | some t => topUp extra (stats ++ [t]) cs
      | none => topUp extra stats cs

def backfillClientStats (listed : List Inbound) : List (List ClientTraffic) :=
  listed.map fun ib => topUp (extraStats db listed) (preloaded db ib) (ib.clients.getD [])

def listed (ids : List Int) : List Inbound := db.inbounds.rows.filter fun ib => ids.contains ib.id

def getAllInbounds : List (Int × List ClientTraffic) :=
  (db.inbounds.rows.map (·.id)).zip (backfillClientStats db db.inbounds.rows)

def clientByEmail (email : String) : Option ClientTraffic :=
  (db.traffics.find? (·.email = email)).filter fun t =>
    (db.settingsClients t.inboundId).any (·.email == email)

def getClientTrafficByEmail (globals : Globals) (email : String) : Option ClientTraffic :=
  match overlayGlobalTraffic globals (db.traffics.filter (·.email = email)) with
  | [] => none
  | t :: _ => if db.recorded email then some t else clientByEmail db email

inductive Read
  | inboundsSlim (ids : List Int)
  | allInboundsSlim
  | inboundDetail (id : Int)
  | searchInbounds (ids : List Int)
  | allClientTraffics
  | activeClientTraffics (emails : List String)
  | clientTraffic (email : String)
  | clientList

namespace Read

def rows : Read → List ClientTraffic
  | .inboundsSlim ids => (backfillClientStats db (listed db ids)).flatten
  | .allInboundsSlim => db.inbounds.rows.flatMap (preloaded db)
  | .inboundDetail id => (backfillClientStats db (listed db [id])).flatten
  | .searchInbounds ids => (listed db ids).flatMap (preloaded db)
  | .allClientTraffics => db.traffics
  | .activeClientTraffics emails => db.traffics.filter fun t => emails.contains t.email && t.email != ""
  | .clientTraffic email =>
    if db.recorded email then (db.traffics.find? (·.email = email)).toList else (clientByEmail db email).toList
  | .clientList => db.traffics.filter fun t => db.recorded t.email && t.email != ""

def overlaid : Read → Bool
  | .allInboundsSlim => false
  | .searchInbounds _ => false
  | .activeClientTraffics _ => false
  | .clientTraffic email => db.recorded email
  | _ => true

def shown (globals : Globals) : Read → List ClientTraffic
  | .clientTraffic email => (getClientTrafficByEmail db globals email).toList
  | read => if read.overlaid db then overlayGlobalTraffic globals (read.rows db) else read.rows db

end Read

end reads

section resets

variable (env : Env) (d : Draws)

def emptied (t : ClientTraffic) : ClientTraffic := { t with up := 0, down := 0, enable := true }

def saveTraffic (traffics : List ClientTraffic) (t : ClientTraffic) : List ClientTraffic :=
  match traffics.findIdx? (·.email = t.email) with
  | some i => traffics.set i t
  | none => traffics ++ [t]

def resetClientTrafficLocked (o : Attempt) (db : DB) (globals : Globals) (inboundId : Int) (email : String) :
    Except String (DB × Globals) := do
  let traffic ← orErr (getClientTrafficByEmail db globals email)
    "invalid memory address or nil pointer dereference"
  check (traffic.enable || (db.inbounds.find inboundId).isSome) errNotFound
  let _ ← o.plan
  check o.write.isNone (o.write.getD "")
  let traffics := saveTraffic db.traffics (emptied traffic)
  return ({ db with traffics }, clearGlobalTraffic globals [email])

def resetInInbounds (email : String) : Nat → DB → Globals → List Int → DB × Globals × Except String Unit
  | _, db, globals, [] => (db, globals, .ok ())
  | k, db, globals, ibId :: ids =>
    match resetClientTrafficLocked (d.attempts k) db globals ibId email with
    | .error e => (db, globals, .error e)
    | .ok (db, globals) => resetInInbounds email (k + 1) db globals ids

def resetTrafficByEmail (reset : Draws) (globals : Globals) (db : DB) (email : String) :
    DB × Globals × Except String Unit :=
  match if email = "" then none else db.record email with
  | none => (db, globals, .error errNotFound)
  | some rec =>
    let inboundIds := db.inboundIdsOf rec.recordId
    let db := enableForReset env d db rec
    if inboundIds = [] then
      let cleared := clearGlobalTraffic globals [email]
      match reset.stamp with
      | some e => (db, cleared, .error e)
      | none => ({ db with traffics := resetStat db.traffics email }, cleared, .ok ())
    else resetInInbounds reset email 0 db globals inboundIds

def resetClient (user : Staff) (x : Draw) (s : Site) (email : String) : Site :=
  let run := fun db => resetTrafficByEmail env x.client x.reset s.globals db email
  let quota := if user.isAdmin then 0 else quotaInForce s.db email
  let cost := resetCostOf user s.panel quota
  let act := fun db => let r := run db; (r.1, r.2.2)
  if requireOwnership user s.panel email then
    { s with
      panel := (prepaid user x.wallet s.panel cost quota act).1
      globals := if (charge user x.wallet s.panel cost quota).isOk then (run s.db).2.1 else s.globals }
  else s

def enableAll (db : DB) (emails : List String) : DB :=
  emails.foldl (fun db email =>
    match db.record email with
    | some rec => enableForReset env d db rec
    | none => db) db

def bulkResetTraffic (s : Site) (emails : List String) : Site :=
  let emails := ((emails.map Text.trimSpace).filter (· ≠ "")).dedup
  let db := enableAll env d s.db emails
  let traffics := db.traffics.map fun t =>
    if emails.contains t.email then { t with enable := true, up := 0, down := 0 } else t
  { s with
    toLocal := s.toLocal.withDb { db with traffics }
    globals := clearGlobalTraffic s.globals emails }

def resetAllClientTraffics (s : Site) (id : Int) : Site :=
  let hit := fun t : ClientTraffic => if id = -1 then decide (-1 < t.inboundId) else t.inboundId == id
  let traffics := s.db.traffics.map fun t => if hit t then { t with enable := true, up := 0, down := 0 } else t
  { s with
    toLocal := s.toLocal.withDb { s.db with traffics }
    globals := clearGlobalTraffic s.globals ((s.db.traffics.filter hit).map (·.email)) }

def resetAllTraffics (s : Site) : Site :=
  let traffics := s.db.traffics.map fun t => { t with up := 0, down := 0 }
  { s with toLocal := s.toLocal.withDb { s.db with traffics }, globals := [] }

end resets

section ticks

def pushedOver (globals : Globals) (t : ClientTraffic) : Bool :=
  globals.any fun g => g.email == t.email && decide (t.total ≤ g.up + g.down)

def renewEmails (db : DB) (seconds : Int) : List String :=
  (db.traffics.filter (renews db seconds)).map (·.email)

def tickDraws (now seconds : Int) (globals : Globals) : TickDraws := ⟨now, seconds, pushedOver globals⟩

def keptGlobals (s : Site) (now seconds : Int) (report : Report) : Globals :=
  clearGlobalTraffic s.globals (renewEmails (addClientTraffic s.db now report) seconds)

def swept (db : DB) (now seconds : Int) (report : Report) : DB :=
  autoRenewClients (addClientTraffic db now report) seconds

def tick (s : Site) (now seconds : Int) (report : Report) : Site :=
  let globals := keptGlobals s now seconds report
  { s with
    toLocal := s.toLocal.withDb
      (disableInvalidClients (swept s.db now seconds report) (tickDraws now seconds globals))
    globals }

end ticks

section nodes

structure SnapClient where
  email : String
  enable : Bool
  total : Int
  expiryTime : Int
  reset : Int
  up : Int
  down : Int

structure SnapInbound where
  inboundId : Int
  clientStats : List SnapClient

def nodeTotal (snap : List SnapInbound) (email : String) : Int × Int :=
  let stats := (snap.flatMap (·.clientStats)).filter (·.email = email)
  (peak (·.up) 0 stats, peak (·.down) 0 stats)

def mergeActivationExpiry (existing node : Int) : Int := if 0 < existing ∧ node ≤ 0 then existing else node

def grown (canon : Int) : Option Int → Int
  | none => 0
  | some base => if canon - base < 0 then canon else canon - base

def baselineOf (l : Local) (nodeId : Int) (email : String) : Option NodeClientTraffic :=
  l.baselines.find? fun b => b.nodeId = nodeId ∧ b.email = email

def upsertNodeBaseline (l : Local) (nodeId : Int) (email : String) (total : Int × Int) : Local :=
  { l with
    baselines := replace (fun b => (b.nodeId, b.email)) l.baselines ⟨nodeId, email, total.1, total.2⟩ }

def countStat (nodeId : Int) (snap : List SnapInbound) (dirty : Bool) (inboundId : Int) (l : Local)
    (cs : SnapClient) : Local :=
  let canon := nodeTotal snap cs.email
  let base := baselineOf l nodeId cs.email
  if l.db.traffics.any (·.email == cs.email) then
    let traffics := l.db.traffics.map fun t =>
      if t.email = cs.email then
        { t with
          up := t.up + grown canon.1 (base.map (·.up))
          down := t.down + grown canon.2 (base.map (·.down))
          enable := if cs.enable then t.enable else false
          total := cs.total
          expiryTime := mergeActivationExpiry t.expiryTime cs.expiryTime
          reset := cs.reset }
      else t
    upsertNodeBaseline (l.withDb { l.db with traffics }) nodeId cs.email canon
  else if dirty then l
  else
    let row : ClientTraffic :=
      ⟨inboundId, cs.email, canon.1, canon.2, cs.total, cs.expiryTime, cs.enable, cs.reset⟩
    upsertNodeBaseline (l.withDb { l.db with traffics := l.db.traffics ++ [row] }) nodeId cs.email canon

def countInbound (nodeId : Int) (snap : List SnapInbound) (dirty : Bool) (l : Local) (ib : SnapInbound) : Local :=
  ib.clientStats.foldl (countStat nodeId snap dirty ib.inboundId) l

structure Adoption where
  inbounds : Local → Local
  clients : Local → Local

def setRemoteTraffic (nodeId : Int) (snap : List SnapInbound) (dirty : Bool) (a : Adoption) (l : Local) : Local :=
  a.clients (snap.foldl (countInbound nodeId snap dirty) (a.inbounds l))

end nodes

section runs

variable (env : Env)

inductive Event
  | push (masterGuid : String) (traffics : List Usage)
  | tick (now seconds : Int) (report : Report)
  | nodeSync (nodeId : Int) (snap : List SnapInbound) (dirty : Bool) (a : Adoption)
  | request (user : Staff) (x : Draw) (r : Request) (dropped cleared : List String)
  | bulkReset (d : Draws) (emails : List String)
  | resetAllClients (id : Int)
  | resetAll
  | read (r : Read)

def Event.isPush : Event → Bool
  | .push .. => true
  | _ => false

def serve (s : Site) (user : Staff) (x : Draw) (r : Request) (dropped cleared : List String) : Site :=
  match r with
  | .resetTraffic email => resetClient env user x s email
  | r =>
    { panel := (handle env user x s.panel r).1
      baselines := s.baselines.filter fun b => !dropped.contains b.email
      globals := clearGlobalTraffic s.globals (dropped ++ cleared) }

def step (s : Site) : Event → Site
  | .push masterGuid traffics => acceptGlobalTraffic s masterGuid traffics
  | .tick now seconds report => tick s now seconds report
  | .nodeSync nodeId snap dirty a => { s with toLocal := setRemoteTraffic nodeId snap dirty a s.toLocal }
  | .request user x r dropped cleared => serve env s user x r dropped cleared
  | .bulkReset d emails => bulkResetTraffic env d s emails
  | .resetAllClients id => resetAllClientTraffics s id
  | .resetAll => resetAllTraffics s
  | .read _ => s

def unpushed (l : Local) (e : Event) : Local := (step env ⟨l, []⟩ e).toLocal

def Quiet (s : Site) : Event → Prop
  | .tick now seconds report => ∀ t ∈ (swept s.db now seconds report).traffics,
      depleted (tickDraws now seconds (keptGlobals s now seconds report)) t =
        depleted (tickDraws now seconds []) t
  | _ => True

def rightRow (globals : Globals) (r : ClientTraffic) : ClientTraffic :=
  raise r (globals.filter fun g => g.email = r.email)

def DisplayRight (s : Site) : Event → Prop
  | .read r => r.shown s.db s.globals = (r.rows s.db).map (rightRow s.globals)
  | _ => True

def accepted (s : Site) (pushes : List (String × List Usage)) : Site :=
  pushes.foldl (fun s p => acceptGlobalTraffic s p.1 p.2) s

def Commutes (s : Site) : Prop :=
  ∀ a b ta tb, Text.trimSpace a ≠ Text.trimSpace b →
    (accepted s [(a, ta), (b, tb)]).toLocal = (accepted s [(b, tb), (a, ta)]).toLocal ∧
      ∀ k, lookup ClientGlobalTraffic.key (accepted s [(a, ta), (b, tb)]).globals k =
        lookup ClientGlobalTraffic.key (accepted s [(b, tb), (a, ta)]).globals k

structure Unleaked (s : Site) (events : List Event) : Prop where
  agree : ∀ others, Throughout (step env) Quiet s events → Throughout (step env) Quiet s others →
    ∀ n m, shown Event.isPush (events.take n) = shown Event.isPush (others.take m) →
      ((events.take n).foldl (step env) s).toLocal = ((others.take m).foldl (step env) s).toLocal ∧
        getAllInbounds ((events.take n).foldl (step env) s).db =
          getAllInbounds ((others.take m).foldl (step env) s).db
  displayed : Throughout (step env) DisplayRight s events
  commutes : ∀ n, Commutes ((events.take n).foldl (step env) s)

def firstSpelling (rows : List ClientTraffic) (email : String) : String :=
  ((rows.find? fun r => Text.toLower r.email = Text.toLower email).map (·.email)).getD email

def consulted (s : Site) (read : Read) (r : ClientTraffic) : Globals :=
  if read.overlaid s.db = true ∧ r.email ≠ "" then
    s.globals.filter fun g => g.email = firstSpelling (read.rows s.db) r.email
  else []

structure Matches (r : ClientTraffic) (gs own : Globals) : Prop where
  up : Peaked (·.up) r.up gs own ∧ Peaked (·.up) r.up own gs
  down : Peaked (·.down) r.down gs own ∧ Peaked (·.down) r.down own gs

def DisplayClean (s : Site) : Event → Prop
  | .read read => ∀ r ∈ read.rows s.db,
      Matches r (consulted s read r) (s.globals.filter fun g => g.email = r.email)
  | _ => True

end runs

section overlay

variable {globals : Globals} {rows : List ClientTraffic} {r : ClientTraffic} {seen : List String} {email e : String}

theorem raise_eq_iff {gs gs' : Globals} : raise r gs = raise r gs' ↔ Matches r gs gs' := by
  have hfields : raise r gs = raise r gs' ↔
      peak (·.up) r.up gs = peak (·.up) r.up gs' ∧ peak (·.down) r.down gs = peak (·.down) r.down gs' := by
    simp [raise]
  rw [hfields, peak_eq_iff, peak_eq_iff]
  exact ⟨fun h => ⟨h.1, h.2⟩, fun h => ⟨h.up, h.down⟩⟩

theorem spellings_fresh (h : e ∈ spellings seen rows) : Text.toLower e ∉ seen := by
  induction rows generalizing seen with
  | nil => exact absurd h not_mem_nil
  | cons r rows ih =>
    simp only [spellings] at h
    split at h
    · exact ih h
    · next hnew =>
      rcases mem_cons.mp h with rfl | h
      · exact (not_or.mp hnew).2
      · exact fun hmem => ih h (mem_cons_of_mem _ hmem)

theorem mem_spellings (hne : email ≠ "") (hseen : Text.toLower email ∉ seen) :
    (e ∈ spellings seen rows ∧ Text.toLower e = Text.toLower email) ↔
      (rows.find? fun r => Text.toLower r.email = Text.toLower email).map (·.email) = some e := by
  induction rows generalizing seen with
  | nil => simp [spellings]
  | cons r rows ih =>
    simp only [spellings]
    split
    · next hskip =>
      have hother : ¬ Text.toLower r.email = Text.toLower email := by
        intro hsame
        rcases hskip with hblank | hmem
        · rw [hblank] at hsame
          exact hne (Text.toLower_eq_empty hsame.symm)
        · exact hseen (hsame ▸ hmem)
      rw [ih hseen, find?_cons_of_neg (by simpa using hother)]
    · next hnew =>
      by_cases hsame : Text.toLower r.email = Text.toLower email
      · rw [find?_cons_of_pos (by simpa using hsame), Option.map_some, Option.some.injEq]
        constructor
        · rintro ⟨hmem, hkey⟩
          rcases mem_cons.mp hmem with rfl | hmem
          · rfl
          · exact absurd (mem_cons.mpr (.inl (hkey.trans hsame.symm))) (spellings_fresh hmem)
        · rintro rfl
          exact ⟨mem_cons_self, hsame⟩
      · have hseen' : Text.toLower email ∉ Text.toLower r.email :: seen := by
          rw [mem_cons, not_or]
          exact ⟨fun hkey => hsame hkey.symm, hseen⟩
        rw [find?_cons_of_neg (by simpa using hsame), ← ih hseen']
        refine and_congr_left fun hkey => ?_
        rw [mem_cons]
        constructor
        · rintro (rfl | hmem)
          · exact absurd hkey hsame
          · exact hmem
        · exact .inr

theorem spelled_iff (hr : r ∈ rows) (hne : r.email ≠ "") :
    (e ∈ spellings [] rows ∧ Text.toLower e = Text.toLower r.email) ↔ e = firstSpelling rows r.email := by
  rw [mem_spellings hne not_mem_nil, firstSpelling]
  have hfound : (rows.find? fun t => Text.toLower t.email = Text.toLower r.email).isSome := by
    rw [find?_isSome]
    exact ⟨r, hr, by simp⟩
  obtain ⟨t, ht⟩ := Option.isSome_iff_exists.mp hfound
  rw [ht, Option.map_some, Option.getD_some, Option.some.injEq]
  exact eq_comm

theorem overlay_eq : overlayGlobalTraffic globals rows = rows.map fun r =>
    if r.email = "" then r else raise r (globals.filter fun g => g.email = firstSpelling rows r.email) := by
  rw [overlayGlobalTraffic]
  split
  · next hnone =>
    rw [isEmpty_iff.mp hnone]
    symm
    rw [map_id'']
    intro r
    split
    · rfl
    · rfl
  · apply map_congr_left
    intro r hr
    split
    · rfl
    · next hne =>
      rw [filter_filter]
      congr 1
      apply filter_congr
      intro g _
      rw [Bool.eq_iff_iff, Bool.and_eq_true, decide_eq_true_iff, decide_eq_true_iff, contains_iff_mem,
        and_comm]
      exact spelled_iff hr hne

end overlay

section display

variable {s : Site} {db : DB} {globals : Globals} {rows : List ClientTraffic} {r : ClientTraffic}
  {email : String} {read : Read}

theorem firstSpelling_head : firstSpelling (r :: rows) r.email = r.email := by
  simp [firstSpelling]

theorem find_filtered {p : ClientTraffic → Bool} {t : ClientTraffic} {ts : List ClientTraffic}
    (h : db.traffics.filter p = t :: ts) : db.traffics.find? p = some t := by
  rw [← head?_filter, h, head?_cons]

theorem getClientTraffic_eq : getClientTrafficByEmail db globals email =
    if db.recorded email then
      (db.traffics.find? (·.email = email)).map fun t =>
        if t.email = "" then t else raise t (globals.filter fun g => g.email = t.email)
    else clientByEmail db email := by
  rw [getClientTrafficByEmail, overlay_eq]
  cases hrows : db.traffics.filter (·.email = email) with
  | nil =>
    have hnone : db.traffics.find? (·.email = email) = none := by
      rw [← head?_filter, hrows, head?_nil]
    rw [clientByEmail, hnone]
    simp
  | cons t ts =>
    rw [find_filtered hrows, map_cons, firstSpelling_head]
    rfl

theorem consulted_eq (hover : read.overlaid s.db = true) :
    (if r.email = "" then r
      else raise r (s.globals.filter fun g => g.email = firstSpelling (read.rows s.db) r.email)) =
      raise r (consulted s read r) := by
  rw [consulted]
  by_cases hblank : r.email = ""
  · rw [if_pos hblank, if_neg fun h => h.2 hblank]
    rfl
  · rw [if_neg hblank, if_pos ⟨hover, hblank⟩]

theorem consulted_raw (hraw : read.overlaid s.db = false) : consulted s read r = [] := by
  rw [consulted, if_neg]
  rintro ⟨hover, -⟩
  rw [hraw] at hover
  cases hover

theorem shown_list (hshown : read.shown s.db s.globals =
      if read.overlaid s.db then overlayGlobalTraffic s.globals (read.rows s.db) else read.rows s.db) :
    read.shown s.db s.globals = (read.rows s.db).map fun r => raise r (consulted s read r) := by
  rw [hshown]
  cases hover : read.overlaid s.db with
  | true =>
    rw [if_pos rfl, overlay_eq]
    exact map_congr_left fun r _ => consulted_eq hover
  | false =>
    rw [if_neg Bool.false_ne_true]
    symm
    rw [map_id'']
    intro r
    rw [consulted_raw hover]
    rfl

theorem shown_client : (Read.clientTraffic email).shown s.db s.globals =
    ((Read.clientTraffic email).rows s.db).map fun r => raise r (consulted s (.clientTraffic email) r) := by
  have hshown : (Read.clientTraffic email).shown s.db s.globals =
      (getClientTrafficByEmail s.db s.globals email).toList := rfl
  rw [hshown, getClientTraffic_eq]
  cases hrec : s.db.recorded email with
  | true =>
    have hrows : (Read.clientTraffic email).rows s.db = (s.db.traffics.find? (·.email = email)).toList := by
      rw [Read.rows, if_pos hrec]
    rw [if_pos rfl, hrows]
    cases hfind : s.db.traffics.find? (·.email = email) with
    | none => rfl
    | some t =>
      have hsame := @consulted_eq s t (.clientTraffic email) hrec
      rw [hrows, hfind, Option.toList_some, firstSpelling_head] at hsame
      simp only [Option.map_some, Option.toList_some, map_cons, map_nil]
      rw [hsame]
  | false =>
    have hrows : (Read.clientTraffic email).rows s.db = (clientByEmail s.db email).toList := by
      rw [Read.rows, if_neg (by rw [hrec]; exact Bool.false_ne_true)]
    rw [if_neg Bool.false_ne_true, hrows]
    symm
    rw [map_id'']
    intro r
    rw [@consulted_raw s r (.clientTraffic email) hrec]
    rfl

theorem shown_eq : read.shown s.db s.globals = (read.rows s.db).map fun r => raise r (consulted s read r) := by
  cases read with
  | clientTraffic email => exact shown_client
  | inboundsSlim | allInboundsSlim | inboundDetail | searchInbounds | allClientTraffics | activeClientTraffics
  | clientList => exact shown_list rfl

theorem display_iff {e : Event} : DisplayRight s e ↔ DisplayClean s e := by
  cases e with
  | read read =>
    have hiff : DisplayRight s (.read read) ↔
        (read.rows s.db).map (fun r => raise r (consulted s read r)) = (read.rows s.db).map (rightRow s.globals) := by
      rw [← shown_eq]
      exact Iff.rfl
    rw [hiff, map_inj_left]
    exact forall₂_congr fun r _ => raise_eq_iff
  | push | tick | nodeSync | request | bulkReset | resetAllClients | resetAll => exact Iff.rfl

end display

section unseen

variable {env : Env} {d : Draws} {o : Attempt} {s : Site} {db : DB} {globals globals' : Globals} {i : Int}
  {is : List Int} {k : Nat} {email : String}

theorem getClientTraffic_fields {α : Type} (f : ClientTraffic → α) (hf : ∀ r gs, f (raise r gs) = f r) :
    (getClientTrafficByEmail db globals email).map f = (getClientTrafficByEmail db [] email).map f := by
  rw [getClientTraffic_eq, getClientTraffic_eq]
  split
  · rw [Option.map_map, Option.map_map]
    congr 1
    funext t
    simp only [Function.comp_apply, filter_nil]
    split
    · rfl
    · rw [hf, hf]
  · rfl

theorem resetLocked_unseen : (resetClientTrafficLocked o db globals i email).map Prod.fst =
    (resetClientTrafficLocked o db globals' i email).map Prod.fst := by
  have hrow := @getClientTraffic_fields db globals email _ (fun t => (t.enable, emptied t)) fun _ _ => rfl
  rw [← @getClientTraffic_fields db globals' email _ (fun t => (t.enable, emptied t)) fun _ _ => rfl] at hrow
  unfold resetClientTrafficLocked
  cases ht : getClientTrafficByEmail db globals email with
  | none =>
    rw [ht] at hrow
    cases ht' : getClientTrafficByEmail db globals' email with
    | none => rfl
    | some t' =>
      rw [ht'] at hrow
      cases hrow
  | some t =>
    rw [ht] at hrow
    cases ht' : getClientTrafficByEmail db globals' email with
    | none =>
      rw [ht'] at hrow
      cases hrow
    | some t' =>
      rw [ht'] at hrow
      obtain ⟨henable, hemptied⟩ := Prod.mk.inj (Option.some.inj hrow)
      have hbind : ∀ {α β : Type} (a : α) (f : α → Except String β), Except.ok a >>= f = f a := fun _ _ => rfl
      simp only [orErr, Option.elim_some, hbind, henable, hemptied]
      cases check (t'.enable || (db.inbounds.find i).isSome) errNotFound with
      | error => rfl
      | ok =>
        cases o.plan with
        | error => rfl
        | ok =>
          cases check o.write.isNone (o.write.getD "") with
          | error => rfl
          | ok => rfl

theorem resetInInbounds_unseen : (resetInInbounds d email k db globals is).1 =
      (resetInInbounds d email k db globals' is).1 ∧
    (resetInInbounds d email k db globals is).2.2 = (resetInInbounds d email k db globals' is).2.2 := by
  induction is generalizing k db globals globals' with
  | nil => exact ⟨rfl, rfl⟩
  | cons i is ih =>
    have hstep := @resetLocked_unseen (d.attempts k) db globals globals' i email
    rw [resetInInbounds, resetInInbounds]
    cases h : resetClientTrafficLocked (d.attempts k) db globals i email with
    | error e =>
      rw [h] at hstep
      cases h' : resetClientTrafficLocked (d.attempts k) db globals' i email with
      | error e' =>
        rw [h'] at hstep
        cases hstep
        exact ⟨rfl, rfl⟩
      | ok r' =>
        rw [h'] at hstep
        cases hstep
    | ok r =>
      rw [h] at hstep
      cases h' : resetClientTrafficLocked (d.attempts k) db globals' i email with
      | error e' =>
        rw [h'] at hstep
        cases hstep
      | ok r' =>
        rw [h'] at hstep
        have hdb : r.1 = r'.1 := Except.ok.inj hstep
        dsimp only
        rw [hdb]
        exact ih

theorem resetTraffic_unseen {reset : Draws} : (resetTrafficByEmail env d reset globals db email).1 =
      (resetTrafficByEmail env d reset globals' db email).1 ∧
    (resetTrafficByEmail env d reset globals db email).2.2 =
      (resetTrafficByEmail env d reset globals' db email).2.2 := by
  unfold resetTrafficByEmail
  split
  · exact ⟨rfl, rfl⟩
  · dsimp only
    split
    · cases reset.stamp with
      | none => exact ⟨rfl, rfl⟩
      | some e => exact ⟨rfl, rfl⟩
    · exact resetInInbounds_unseen

theorem resetClient_unseen {user : Staff} {x : Draw} : (resetClient env user x s email).toLocal =
    (resetClient env user x ⟨s.toLocal, globals'⟩ email).toLocal := by
  have hact : (fun db => let r := resetTrafficByEmail env x.client x.reset s.globals db email; (r.1, r.2.2)) =
      fun db => let r := resetTrafficByEmail env x.client x.reset globals' db email; (r.1, r.2.2) := by
    funext db
    obtain ⟨hdb, hres⟩ := @resetTraffic_unseen env x.client db s.globals globals' email x.reset
    dsimp only
    rw [hdb, hres]
  unfold resetClient
  dsimp only at hact ⊢
  rw [hact]
  split
  · rfl
  · rfl

theorem disable_congr {x y : TickDraws} (hseconds : x.seconds = y.seconds)
    (h : ∀ t ∈ db.traffics, depleted x t = depleted y t) :
    disableInvalidClients db x = disableInvalidClients db y := by
  have hrows : db.traffics.filter (depleted x) = db.traffics.filter (depleted y) :=
    filter_congr fun t ht => h t ht
  have hmap : (db.traffics.map fun t => if depleted x t then { t with enable := false } else t) =
      db.traffics.map fun t => if depleted y t then { t with enable := false } else t :=
    map_congr_left fun t ht => by rw [h t ht]
  have hentry : disableEntry db x = disableEntry db y := by
    funext emails i c
    simp only [disableEntry, hseconds]
  unfold disableInvalidClients
  dsimp only
  rw [hrows, hmap, hentry, hseconds]

theorem tick_unseen {now seconds : Int} {report : Report} (h : Quiet s (.tick now seconds report)) :
    (tick s now seconds report).toLocal = (tick ⟨s.toLocal, []⟩ now seconds report).toLocal := by
  have hkept : keptGlobals ⟨s.toLocal, []⟩ now seconds report = [] := rfl
  simp only [tick, hkept]
  congr 1
  exact disable_congr rfl h

theorem serve_unseen {user : Staff} {x : Draw} {r : Request} {dropped cleared : List String} :
    (serve env s user x r dropped cleared).toLocal =
      (serve env ⟨s.toLocal, []⟩ user x r dropped cleared).toLocal := by
  cases r with
  | resetTraffic email => exact resetClient_unseen
  | create | update | rotate | attach | delete => rfl

theorem accept_unseen {masterGuid : String} {traffics : List Usage} :
    (acceptGlobalTraffic s masterGuid traffics).toLocal = s.toLocal := by
  rw [acceptGlobalTraffic]
  split
  · rfl
  · rfl

theorem unseen : Unseen (step env) Site.toLocal (unpushed env) Event.isPush Quiet := by
  constructor
  · intro s e he
    cases e with
    | push => exact accept_unseen
    | tick | nodeSync | request | bulkReset | resetAllClients | resetAll | read => cases he
  · intro s e he hquiet
    cases e with
    | push => cases he
    | tick => exact tick_unseen hquiet
    | request => exact serve_unseen
    | nodeSync | bulkReset | resetAllClients | resetAll | read => rfl

end unseen

section commute

variable {s : Site} {db : DB} {guid a b : String} {traffics ta tb : List Usage} {k : String × String}

theorem pushedRows_guid {g : ClientGlobalTraffic} (h : g ∈ pushedRows db guid traffics) : g.masterGuid = guid := by
  obtain ⟨email, -, hmap⟩ := mem_filterMap.mp h
  obtain ⟨t, -, rfl⟩ := Option.map_eq_some_iff.mp hmap
  rfl

theorem lookup_accept_other (h : k.1 ≠ Text.trimSpace guid) :
    lookup ClientGlobalTraffic.key (acceptGlobalTraffic s guid traffics).globals k =
      lookup ClientGlobalTraffic.key s.globals k := by
  rw [acceptGlobalTraffic]
  split
  · rfl
  · apply lookup_replaceAll_absent
    intro hmem
    obtain ⟨g, hg, rfl⟩ := mem_map.mp hmem
    exact h (pushedRows_guid hg)

theorem lookup_accept_congr {s' : Site} (hdb : s'.db = s.db)
    (h : lookup ClientGlobalTraffic.key s'.globals k = lookup ClientGlobalTraffic.key s.globals k) :
    lookup ClientGlobalTraffic.key (acceptGlobalTraffic s' guid traffics).globals k =
      lookup ClientGlobalTraffic.key (acceptGlobalTraffic s guid traffics).globals k := by
  rw [acceptGlobalTraffic, acceptGlobalTraffic]
  split
  · exact h
  · rw [hdb]
    exact lookup_replaceAll_congr h

theorem accept_db : (acceptGlobalTraffic s guid traffics).db = s.db := congrArg Local.db accept_unseen

theorem commutes (s : Site) : Commutes s := by
  intro a b ta tb hne
  have htwo : ∀ p q, accepted s [p, q] = acceptGlobalTraffic (acceptGlobalTraffic s p.1 p.2) q.1 q.2 :=
    fun _ _ => rfl
  rw [htwo, htwo]
  refine ⟨?_, ?_⟩
  · rw [accept_unseen, accept_unseen, accept_unseen, accept_unseen]
  · intro k
    dsimp only
    by_cases hb : k.1 = Text.trimSpace b
    · have ha : k.1 ≠ Text.trimSpace a := fun ha => hne (ha.symm.trans hb)
      rw [lookup_accept_other ha]
      exact lookup_accept_congr accept_db (lookup_accept_other ha)
    · rw [lookup_accept_other hb]
      exact (lookup_accept_congr accept_db (lookup_accept_other hb)).symm

end commute

section settled

variable {env : Env} {s : Site} {events others : List Event}

theorem runs_agree (h : Throughout (step env) Quiet s events) (h' : Throughout (step env) Quiet s others)
    {n m : Nat} (hsame : shown Event.isPush (events.take n) = shown Event.isPush (others.take m)) :
    ((events.take n).foldl (step env) s).toLocal = ((others.take m).foldl (step env) s).toLocal :=
  view_agree unseen rfl (h.take n) (h'.take m) hsame

theorem display_throughout : Throughout (step env) DisplayRight s events ↔
    Throughout (step env) DisplayClean s events :=
  ⟨fun h => h.imp fun _ _ => display_iff.mp, fun h => h.imp fun _ _ => display_iff.mpr⟩

theorem unleaked_iff (env : Env) (s : Site) (events : List Event) :
    Unleaked env s events ↔ Throughout (step env) DisplayClean s events := by
  constructor
  · exact fun h => display_throughout.mp h.displayed
  · intro h
    refine ⟨?_, display_throughout.mpr h, fun n => commutes _⟩
    intro others hquiet hquiet' n m hsame
    have hlocal := runs_agree hquiet hquiet' hsame
    refine ⟨hlocal, ?_⟩
    have hdb := congrArg Local.db hlocal
    exact congrArg getAllInbounds hdb

end settled

section slim

def edge : Inbound where
  id := 1
  protocol := .vless
  nodeId := none
  method := ""
  tlsFlowCapable := false
  clients := some []

def site : Site where
  panel :=
    { db := ⟨Table.empty.insert (fun id => { edge with id }) fun _ => rfl, Table.empty, [],
        [⟨1, "alice", 5, 5, 0, 0, true, 0⟩]⟩
      workspaceInbounds := fun _ => []
      quotas := fun _ => none
      clientCost := fun _ _ => (0, 0)
      resetCost := fun _ _ => (0, 0)
      charges := [] }
  baselines := []
  globals := []

theorem slim_list_local :
    ¬ ∃ env, Unleaked env site [.push "master" [⟨"alice", 70, 20⟩], .read .allInboundsSlim] := by
  rintro ⟨env, h⟩
  have hright : Read.allInboundsSlim.shown site.db (acceptGlobalTraffic site "master" [⟨"alice", 70, 20⟩]).globals =
      (Read.allInboundsSlim.rows site.db).map
        (rightRow (acceptGlobalTraffic site "master" [⟨"alice", 70, 20⟩]).globals) := h.displayed.2.1
  revert hright
  decide +kernel

end slim

end GlobalUsage

end QuiPanel
