import QuiPanel.AutoRenew
import QuiPanel.Library.OpenTx

namespace QuiPanel

namespace TrafficTick

open Keyed Outcome OpenTx Clients List
open Consumption (Report reported delayed linkedInbounds found rewriteClients firstUse countRow dueRows due
  renewalInbounds depleted disableEntry TickDraws)
open GlobalUsage (clearGlobalTraffic)
open AutoRenew (Tables refused renewAll pushedOver)

structure Traffic where
  isInbound : Bool
  tag : String
  up : Nat
  down : Nat

structure InboundRow where
  tag : String
  nodeId : Option Int
  up : Int
  down : Int
  total : Int
  expiryTime : Int
  enable : Bool

structure Store extends Tables where
  inbounds : List InboundRow

structure Batch where
  inbounds : List Traffic
  clients : Report

abbrev Leftover := Clients.Records × List ClientInbound

structure Faults where
  updateInbound : Nat → Bool
  findTraffics : Bool
  pluckDelayed : Bool
  findDelayed : Bool
  saveDelayed : Bool
  syncDelayed : Int → Option Leftover
  saveTraffics : Bool
  findDue : Bool
  pluckDue : Bool
  findRenewal : Bool
  saveRenewal : Bool
  syncRenewal : Int → Option Leftover
  saveRenewed : Bool
  clearGlobals : Option Nat
  findDepleted : Bool
  findTargets : Bool
  markSettings : Int → Bool
  updateTraffics : Bool
  updateRecords : Bool
  scanTags : Bool
  updateInbounds : Bool
  commit : Bool

def Store.withDb (s : Store) (db : DB) : Store := { s with db }

section steps

variable (f : Faults) (now seconds : Int)

def addInboundTraffic : Nat → Tx Store → List Traffic → Tx Store × Except Failure Unit
  | _, t, [] => (t, .ok ())
  | k, t, traffic :: traffics =>
    if traffic.isInbound then
      let counted := t.state.inbounds.map fun r =>
        if r.tag = traffic.tag ∧ r.nodeId = none then
          { r with up := r.up + traffic.up, down := r.down + traffic.down }
        else r
      andThen (write (f.updateInbound k) t { t.state with inbounds := counted }) fun t _ =>
        addInboundTraffic (k + 1) t traffics
    else addInboundTraffic k t traffics

def syncAll (left : Int → Option Leftover) (db : DB) (ids : List Int) : DB :=
  ids.foldl (fun db i => match left i with
    | none => Consumption.syncOne db i
    | some (records, links) => { db with records, links }) db

def adjustTraffics (t : Tx Store) (report : Report) : Tx Store × Except Failure Bool :=
  let db := t.state.db
  let rows := delayed db report
  if rows.isEmpty then (t, .ok false)
  else andThen (read f.pluckDelayed t) fun t _ =>
    let ids := linkedInbounds db (rows.map (·.email))
    if ids.isEmpty then (t, .ok false)
    else andThen (read f.findDelayed t) fun t _ =>
      -- a failed save of the inbounds is only logged
      if f.saveDelayed then (t, .ok true)
      else
        let saved := rewriteClients db ids fun _ => firstUse now rows
        (⟨t.state.withDb (syncAll f.syncDelayed saved (found db ids)), true⟩, .ok true)

def addClientTraffic (t : Tx Store) (report : Report) : Tx Store × Except Failure Unit :=
  if report.sent.isEmpty then (t, .ok ())
  else andThen (read f.findTraffics t) fun t _ =>
    if !t.state.db.traffics.any fun r => (reported report r.email).isSome then (t, .ok ())
    else andThen (adjustTraffics f now t report) fun t started =>
      let db := t.state.db
      let counted := { db with traffics := db.traffics.map (countRow now started report) }
      -- the error of the save is logged and dropped
      ((write f.saveTraffics t (t.state.withDb counted)).1, .ok ())

def renewRows (t : Tx Store) : Tx Store × Except Failure Unit :=
  let s := t.state
  let rows := dueRows s.db seconds
  let ids := renewalInbounds s.db seconds
  let outcome := renewAll seconds s.db rows ids
  let saved := fun r => if due s.db seconds r then (outcome.2.1.find? (·.email = r.email)).getD r else r
  let emails := rows.map (·.email)
  andThen (write f.saveRenewal t (s.withDb outcome.1)) fun t _ =>
    let db := syncAll f.syncRenewal t.state.db ids
    andThen (write f.saveRenewed ⟨t.state.withDb db, t.wrote⟩
        (t.state.withDb { db with traffics := s.db.traffics.map saved })) fun t _ =>
      match f.clearGlobals with
      | none => (⟨{ t.state with globals := clearGlobalTraffic t.state.globals emails }, true⟩, .ok ())
      | some n => (⟨{ t.state with globals := clearGlobalTraffic t.state.globals (emails.take n) }, true⟩,
          .error .error)

def autoRenewClients (t : Tx Store) : Tx Store × Except Failure Unit :=
  let db := t.state.db
  andThen (read f.findDue t) fun t _ =>
    if (dueRows db seconds).isEmpty then (t, .ok ())
    else andThen (read f.pluckDue t) fun t _ =>
      let ids := renewalInbounds db seconds
      let linked := linkedInbounds db ((dueRows db seconds).map (·.email))
      andThen (read (!linked.isEmpty && f.findRenewal) t) fun t _ =>
        if ids.any fun i => (db.clientsOf i).isNone then (t, .error .panic)
        -- gorm refuses to save an empty slice
        else if ids.isEmpty then (t, .error .error)
        else renewRows f seconds t

def tickDraws (s : Store) : TickDraws := ⟨now, seconds, pushedOver s.globals⟩

def markClientsDisabledInSettings (s : Store) (db : DB) (emails : List String) (ids : List Int) : DB :=
  rewriteClients db (ids.filter fun i => !f.markSettings i) (disableEntry s.db (tickDraws now seconds s) emails)

def marks (s : Store) (emails : List String) (ids : List Int) : Bool :=
  (ids.filter fun i => !f.markSettings i).any fun i =>
    (s.db.settingsClients i).any fun c => disableEntry s.db (tickDraws now seconds s) emails i c != c

def onNode (db : DB) (i : Int) : Bool := (db.inbounds.find i).any (·.nodeId.isSome)

def depletedEmails (s : Store) : List String :=
  ((s.db.traffics.filter (depleted (tickDraws now seconds s))).map (·.email)).filter (· != "")

def localTargets (s : Store) : List Int :=
  (linkedInbounds s.db (depletedEmails now seconds s)).filter fun i => !onNode s.db i

def remoteTargets (s : Store) : List Int :=
  (linkedInbounds s.db (depletedEmails now seconds s)).filter (onNode s.db)

def disableInvalidClients (t : Tx Store) : Tx Store × Except Failure Unit :=
  let s := t.state
  let d := tickDraws now seconds s
  let emails := depletedEmails now seconds s
  andThen (read f.findDepleted t) fun t _ =>
    if !s.db.traffics.any (depleted d) then (t, .ok ())
    else andThen (read (!emails.isEmpty && f.findTargets) t) fun t _ =>
      let here := localTargets now seconds s
      let marked := markClientsDisabledInSettings f now seconds s s.db emails here
      let t := t.wrap (t.state.withDb marked) (marks f now seconds s emails here)
      andThen (write f.updateTraffics t (t.state.withDb { t.state.db with
          traffics := s.db.traffics.map fun r => if depleted d r then { r with enable := false } else r }))
        fun t _ =>
          let db := t.state.db
          let records := db.records.modify (fun r => emails.contains r.email)
            (fun r => { r with enable := false, updatedAt := seconds }) fun _ => rfl
          let disabled := if emails.isEmpty || f.updateRecords then db else { db with records }
          (⟨t.state.withDb (markClientsDisabledInSettings f now seconds s disabled emails
            (remoteTargets now seconds s)), true⟩, .ok ())

def invalid (r : InboundRow) : Bool :=
  ((decide (0 < r.total) && decide (r.total ≤ r.up + r.down)) ||
    (decide (0 < r.expiryTime) && decide (r.expiryTime ≤ seconds))) && r.enable && r.nodeId.isNone

def disableInvalidInbounds (t : Tx Store) : Tx Store × Except Failure Unit :=
  andThen (read f.scanTags t) fun t _ =>
    write f.updateInbounds t { t.state with
      inbounds := t.state.inbounds.map fun r => if invalid seconds r then { r with enable := false } else r }

end steps

structure Tick where
  db : Store
  committed : Bool
  exit : Except Failure Unit

section tick

variable (f : Faults) (now seconds : Int) (s : Store) (b : Batch)

def counting : Tx Store × Except Failure Unit :=
  andThen (addInboundTraffic f 0 (begun s) b.inbounds) fun t _ => addClientTraffic f now t b.clients

def renewing : Tx Store × Except Failure Unit := autoRenewClients f seconds (begun (counting f now s b).1.state)

def disabling : Tx Store × Except Failure Unit :=
  disableInvalidClients f now seconds (begun (renewing f now seconds s b).1.state)

def stopping : Tx Store × Except Failure Unit :=
  disableInvalidInbounds f seconds (begun (disabling f now seconds s b).1.state)

def addTrafficLocked : Tick :=
  match (counting f now s b).2 with
  | .error e => ⟨s, false, .error e⟩
  | .ok () =>
    match renewing f now seconds s b with
    | (t, .error .panic) =>
      let closed := close f.commit s (t, .ok ())
      ⟨closed.1, closed.2, .error .panic⟩
    | _ =>
      -- `:=` assigns the outer err again, so the deferred call sees the error of the last sub-step only
      let closed := close f.commit s (stopping f now seconds s b)
      ⟨closed.1, closed.2, .ok ()⟩

end tick

section spec

variable (f : Faults) (now seconds : Int) (s : Store) (b : Batch)

def share (field : Traffic → Nat) (traffics : List Traffic) (r : InboundRow) : Int :=
  ((traffics.filter fun x => x.isInbound && x.tag == r.tag && r.nodeId.isNone).map field).sum

def sentBy (report : Report) (field : Consumption.Sent → Nat) (email : String) : Int :=
  (reported report email).elim 0 fun x => field x

structure Addressed : Prop where
  inbounds : ∀ x ∈ b.inbounds, x.isInbound = true → 0 < x.up + x.down →
    ∃ r ∈ s.inbounds, r.tag = x.tag ∧ r.nodeId = none
  clients : ∀ x ∈ b.clients.sent, 0 < x.up + x.down → ∃ r ∈ s.db.traffics, r.email = x.email

structure Recorded (counted : Store) : Prop extends Addressed s b where
  counters : counted.inbounds = s.inbounds.map fun r =>
    { r with up := r.up + share (·.up) b.inbounds r, down := r.down + share (·.down) b.inbounds r }
  rows : counted.db.traffics.map (fun r => (r.email, r.up, r.down)) = s.db.traffics.map fun r =>
    (r.email, r.up + sentBy b.clients (·.up) r.email, r.down + sentBy b.clients (·.down) r.email)

structure Carried (counted final : Store) : Prop where
  counters : final.inbounds.map (fun r => (r.tag, r.up, r.down)) =
    counted.inbounds.map fun r => (r.tag, r.up, r.down)
  rows : ∃ g : ClientTraffic → ClientTraffic, final.db.traffics = counted.db.traffics.map g ∧
    ∀ r, (g r).email = r.email ∧ (due counted.db seconds r = false → (g r).up = r.up ∧ (g r).down = r.down)

structure Honest : Prop where
  agrees : (addTrafficLocked f now seconds s b).committed = true ↔
    (addTrafficLocked f now seconds s b).exit = .ok ()
  recorded : (addTrafficLocked f now seconds s b).exit = .ok () →
    Recorded s b (counting f now s b).1.state ∧
      Carried seconds (counting f now s b).1.state (addTrafficLocked f now seconds s b).db
  clean : (addTrafficLocked f now seconds s b).committed = true →
    Clean (renewing f now seconds s b) ∧ Clean (disabling f now seconds s b) ∧ Clean (stopping f now seconds s b)

def CountingFails : Prop :=
  (∃ k < (b.inbounds.filter (·.isInbound)).length, f.updateInbound k = true) ∨
    b.clients.sent ≠ [] ∧ (f.findTraffics = true ∨
      delayed s.db b.clients ≠ [] ∧ (f.pluckDelayed = true ∨
        linkedInbounds s.db ((delayed s.db b.clients).map (·.email)) ≠ [] ∧ f.findDelayed = true))

def Silent : Prop :=
  ∀ r ∈ s.db.traffics, ∀ x, reported b.clients r.email = some x → x.up + x.down = 0

structure Selects (db : DB) : Prop where
  due : dueRows db seconds ≠ []
  reads : f.findDue = false ∧ f.pluckDue = false ∧
    (linkedInbounds db ((dueRows db seconds).map (·.email)) ≠ [] → f.findRenewal = false)

def Panics (db : DB) : Prop := Selects f seconds db ∧ ∃ i ∈ renewalInbounds db seconds, db.clientsOf i = none

def RenewsWhole (db : DB) : Prop :=
  Selects f seconds db → renewalInbounds db seconds ≠ [] → f.saveRenewal = false →
    f.saveRenewed = false ∧ f.clearGlobals = none

def DisablesWhole (s : Store) : Prop :=
  f.findDepleted = false → f.findTargets = false →
    (∃ i ∈ localTargets now seconds s, f.markSettings i = false ∧ ∃ c ∈ s.db.settingsClients i,
      disableEntry s.db (tickDraws now seconds s) (depletedEmails now seconds s) i c ≠ c) →
    f.updateTraffics = false

structure Smooth : Prop where
  addressed : Addressed s b
  saved : f.saveTraffics = false ∨ Silent s b
  renews : RenewsWhole f seconds (counting f now s b).1.state.db
  disables : DisablesWhole f now seconds (renewing f now seconds s b).1.state
  stops : f.scanTags = false ∧ f.updateInbounds = false
  commits : f.commit = false

end spec

section counting

variable {f : Faults} {now seconds : Int} {s : Store} {b : Batch} {t : Tx Store} {ts : List Traffic}
  {report : Report} {db : DB} {k : Nat}

theorem addInboundTraffic_fails :
    Fails (addInboundTraffic f k t ts) ↔
      ∃ j < (ts.filter (·.isInbound)).length, f.updateInbound (k + j) = true := by
  induction ts generalizing k t with
  | nil => exact iff_of_false fails_ok fun ⟨_, hj, _⟩ => absurd hj (Nat.not_lt_zero _)
  | cons x ts ih =>
    rw [addInboundTraffic]
    split
    case isTrue hin =>
      rw [write_then, filter_cons_of_pos hin, length_cons]
      split
      case isTrue hfails => exact iff_of_true fails_error ⟨0, Nat.succ_pos _, hfails⟩
      case isFalse hfails =>
        rw [ih]
        constructor
        · rintro ⟨j, hj, hfail⟩
          exact ⟨j + 1, Nat.succ_lt_succ hj, by rwa [Nat.add_right_comm] at hfail⟩
        · rintro ⟨j, hj, hfail⟩
          cases j with
          | zero => exact absurd hfail hfails
          | succ j => exact ⟨j, Nat.lt_of_succ_lt_succ hj, by rwa [Nat.add_right_comm]⟩
    case isFalse hin => rw [ih, filter_cons_of_neg hin]

def counted (ts : List Traffic) (r : InboundRow) : InboundRow :=
  { r with up := r.up + share (·.up) ts r, down := r.down + share (·.down) ts r }

theorem counted_nil (r : InboundRow) : counted [] r = r := by
  simp [counted, share]

theorem counted_cons (x : Traffic) (r : InboundRow) :
    counted (x :: ts) r = counted ts (if x.isInbound ∧ r.tag = x.tag ∧ r.nodeId = none then
      { r with up := r.up + x.up, down := r.down + x.down } else r) := by
  by_cases hmatch : x.isInbound ∧ r.tag = x.tag ∧ r.nodeId = none
  · obtain ⟨hin, htag, hnode⟩ := hmatch
    rw [if_pos ⟨hin, htag, hnode⟩]
    simp [counted, share, hin, htag, hnode, add_assoc]
  · have hskip : (x.isInbound && x.tag == r.tag && r.nodeId.isNone) = false := by
      rw [Bool.eq_false_iff]
      intro h
      simp only [Bool.and_eq_true, beq_iff_eq, Option.isNone_iff_eq_none] at h
      exact hmatch ⟨h.1.1, h.1.2.symm, h.2⟩
    rw [if_neg hmatch]
    simp [counted, share, hskip]

theorem addInboundTraffic_state (h : ¬Fails (addInboundTraffic f k t ts)) :
    (addInboundTraffic f k t ts).1.state = { t.state with inbounds := t.state.inbounds.map (counted ts) } := by
  induction ts generalizing k t with
  | nil =>
    have hsame : counted [] = id := funext counted_nil
    rw [addInboundTraffic, hsame, map_id]
  | cons x ts ih =>
    rw [addInboundTraffic] at h ⊢
    have hcons : counted (x :: ts) = counted ts ∘ fun r =>
        if x.isInbound ∧ r.tag = x.tag ∧ r.nodeId = none then
          { r with up := r.up + x.up, down := r.down + x.down } else r := funext (counted_cons x)
    split
    case isTrue hin =>
      rw [if_pos hin, write_then] at h
      rw [write_then]
      split at h
      case isTrue => exact absurd fails_error h
      case isFalse hwrite =>
        rw [if_neg hwrite, ih h, hcons, ← map_map]
        simp only [hin, true_and]
    case isFalse hin =>
      rw [if_neg hin] at h
      have hskip : (fun r : InboundRow => if x.isInbound ∧ r.tag = x.tag ∧ r.nodeId = none then
          { r with up := r.up + x.up, down := r.down + x.down } else r) = id :=
        funext fun r => if_neg fun hm => hin hm.1
      rw [ih h, hcons, hskip, Function.comp_id]

theorem syncOne_traffics (db : DB) (i : Int) : (Consumption.syncOne db i).traffics = db.traffics := by
  rw [Consumption.syncOne]
  cases hsync : syncInbound db i (db.settingsClients i) with
  | error err => rfl
  | ok db' => exact (syncInbound_ok hsync).2.1

theorem syncAll_traffics (left : Int → Option Leftover) (db : DB) (ids : List Int) :
    (syncAll left db ids).traffics = db.traffics := by
  induction ids generalizing db with
  | nil => rfl
  | cons i ids ih =>
    refine (ih _).trans ?_
    dsimp only
    split
    · exact syncOne_traffics db i
    · rfl

theorem adjustTraffics_fails : Fails (adjustTraffics f now t report) ↔ delayed t.state.db report ≠ [] ∧
    (f.pluckDelayed = true ∨
      linkedInbounds t.state.db ((delayed t.state.db report).map (·.email)) ≠ [] ∧ f.findDelayed = true) := by
  simp only [adjustTraffics, read_then]
  split
  case isTrue hempty => exact iff_of_false fails_ok fun h => h.1 (List.isEmpty_iff.mp hempty)
  case isFalse hrows =>
    rw [List.isEmpty_iff] at hrows
    rw [and_iff_right hrows]
    split
    case isTrue hpluck => exact iff_of_true fails_error (.inl hpluck)
    case isFalse hpluck =>
      rw [or_iff_right hpluck]
      split
      case isTrue hempty => exact iff_of_false fails_ok fun h => h.1 (List.isEmpty_iff.mp hempty)
      case isFalse hids =>
        rw [List.isEmpty_iff] at hids
        rw [and_iff_right hids]
        split
        case isTrue hfind => exact iff_of_true fails_error hfind
        case isFalse hfind =>
          refine iff_of_false ?_ hfind
          split <;> exact fails_ok

theorem adjustTraffics_state : (adjustTraffics f now t report).1.state.db.traffics = t.state.db.traffics ∧
    (adjustTraffics f now t report).1.state.inbounds = t.state.inbounds := by
  simp only [adjustTraffics, read_then]
  split
  · exact ⟨rfl, rfl⟩
  · split
    · exact ⟨rfl, rfl⟩
    · split
      · exact ⟨rfl, rfl⟩
      · split
        · exact ⟨rfl, rfl⟩
        · split
          · exact ⟨rfl, rfl⟩
          · exact ⟨syncAll_traffics _ _ _, rfl⟩

theorem reported_of_delayed (h : delayed db report ≠ []) : report.sent ≠ [] ∧
    db.traffics.any fun r => (reported report r.email).isSome := by
  obtain ⟨r, hr⟩ := exists_mem_of_ne_nil _ h
  obtain ⟨hr, hhit⟩ := mem_filter.mp hr
  have hreported := (Bool.and_eq_true _ _ ▸ hhit).1
  refine ⟨?_, any_eq_true.mpr ⟨r, hr, hreported⟩⟩
  intro hnil
  rw [reported, hnil] at hreported
  exact Bool.false_ne_true hreported

theorem fails_counted {r : Tx Store × Except Failure Bool} {g : Tx Store → Bool → Tx Store} :
    Fails (andThen r fun t started => (g t started, (.ok () : Except Failure Unit))) ↔ Fails r := by
  rw [fails_andThen]
  exact or_iff_left fun ⟨_, _, h⟩ => fails_ok h

theorem addClientTraffic_fails : Fails (addClientTraffic f now t report) ↔ report.sent ≠ [] ∧
    (f.findTraffics = true ∨ delayed t.state.db report ≠ [] ∧ (f.pluckDelayed = true ∨
      linkedInbounds t.state.db ((delayed t.state.db report).map (·.email)) ≠ [] ∧ f.findDelayed = true)) := by
  simp only [addClientTraffic, read_then]
  split
  case isTrue hempty => exact iff_of_false fails_ok fun h => h.1 (List.isEmpty_iff.mp hempty)
  case isFalse hsent =>
    rw [List.isEmpty_iff] at hsent
    rw [and_iff_right hsent]
    split
    case isTrue hfind => exact iff_of_true fails_error (.inl hfind)
    case isFalse hfind =>
      rw [or_iff_right hfind]
      split
      case isTrue hnone =>
        refine iff_of_false fails_ok fun h => ?_
        rw [(reported_of_delayed h.1).2] at hnone
        exact Bool.false_ne_true hnone
      case isFalse => exact fails_counted.trans adjustTraffics_fails

theorem countRow_unreported {r : ClientTraffic} {started : Bool} (h : reported report r.email = none) :
    countRow now started report r = r := by
  rw [countRow, h]

theorem countRow_counts (started : Bool) (r : ClientTraffic) :
    (countRow now started report r).email = r.email ∧
      (countRow now started report r).up = r.up + sentBy report (·.up) r.email ∧
      (countRow now started report r).down = r.down + sentBy report (·.down) r.email := by
  rw [countRow, sentBy, sentBy]
  cases reported report r.email with
  | none => exact ⟨rfl, (add_zero _).symm, (add_zero _).symm⟩
  | some x => exact ⟨rfl, rfl, rfl⟩

theorem unreported_map {rows : List ClientTraffic} {started : Bool}
    (h : ∀ r ∈ rows, reported report r.email = none) : rows.map (countRow now started report) = rows :=
  (map_congr_left fun r hr => countRow_unreported (h r hr)).trans (map_id _)

theorem addClientTraffic_state (h : ¬Fails (addClientTraffic f now t report)) :
    (addClientTraffic f now t report).1.state.inbounds = t.state.inbounds ∧
    ∃ started, (addClientTraffic f now t report).1.state.db.traffics =
      if f.saveTraffics then t.state.db.traffics else t.state.db.traffics.map (countRow now started report) := by
  simp only [addClientTraffic, read_then] at h ⊢
  split
  case isTrue hempty =>
    rw [List.isEmpty_iff] at hempty
    refine ⟨rfl, true, ?_⟩
    rw [unreported_map fun r _ => by rw [reported, hempty]; rfl, ite_self]
  case isFalse hsent =>
    rw [if_neg hsent] at h
    split
    case isTrue hfind =>
      rw [if_pos hfind] at h
      exact absurd fails_error h
    case isFalse hfind =>
      rw [if_neg hfind] at h
      split
      case isTrue hnone =>
        refine ⟨rfl, true, ?_⟩
        have hall := any_eq_false.mp ((Bool.not_eq_true' _).mp hnone)
        rw [unreported_map fun r hr => Option.not_isSome_iff_eq_none.mp (hall r hr), ite_self]
      case isFalse hsome =>
        rw [if_neg hsome, fails_counted] at h
        obtain ⟨htraffics, hinbounds⟩ := @adjustTraffics_state f now t report
        cases hadjust : adjustTraffics f now t report with
        | mk t' result =>
          rw [hadjust] at h htraffics hinbounds
          cases result with
          | error e => exact absurd fails_error h
          | ok started =>
            refine ⟨?_, started, ?_⟩
            · rw [andThen, write_state]
              split <;> exact hinbounds
            · rw [andThen, write_state]
              split
              · exact htraffics
              · exact congrArg (List.map _) htraffics

theorem counting_fails : Fails (counting f now s b) ↔ CountingFails f s b := by
  rw [counting, fails_andThen, addInboundTraffic_fails, CountingFails]
  simp only [Nat.zero_add]
  refine or_congr_right' fun hwrites => ?_
  have hok : ¬Fails (addInboundTraffic f 0 (begun s) b.inbounds) := by
    rw [addInboundTraffic_fails]
    simpa only [Nat.zero_add] using hwrites
  have hstate := addInboundTraffic_state hok
  cases hadd : addInboundTraffic f 0 (begun s) b.inbounds with
  | mk t result =>
    rw [hadd] at hstate hok
    have hdb : t.state.db = s.db := congrArg (·.db) hstate
    cases result with
    | error e => exact absurd fails_error hok
    | ok u =>
      constructor
      · rintro ⟨_, -, h⟩
        rw [addClientTraffic_fails, hdb] at h
        exact h
      · intro h
        refine ⟨u, rfl, ?_⟩
        rw [addClientTraffic_fails, hdb]
        exact h

theorem counting_state (h : ¬Fails (counting f now s b)) :
    (counting f now s b).1.state.inbounds = s.inbounds.map (counted b.inbounds) ∧
    ∃ started, (counting f now s b).1.state.db.traffics =
      if f.saveTraffics then s.db.traffics else s.db.traffics.map (countRow now started b.clients) := by
  rw [counting, fails_andThen, not_or] at h
  rw [counting]
  have hstate := addInboundTraffic_state h.1
  cases hadd : addInboundTraffic f 0 (begun s) b.inbounds with
  | mk t result =>
    rw [hadd] at hstate h
    cases result with
    | error e => exact absurd fails_error h.1
    | ok u =>
      have hok : ¬Fails (addClientTraffic f now t b.clients) := fun hfails => h.2 ⟨u, rfl, hfails⟩
      obtain ⟨hinbounds, started, htraffics⟩ := addClientTraffic_state hok
      have hdb : t.state.db = s.db := congrArg (·.db) hstate
      rw [hdb] at htraffics
      rw [andThen]
      exact ⟨hinbounds.trans (congrArg (·.inbounds) hstate), started, htraffics⟩

theorem recorded_iff (h : ¬Fails (counting f now s b)) :
    Recorded s b (counting f now s b).1.state ↔ Addressed s b ∧ (f.saveTraffics = false ∨ Silent s b) := by
  obtain ⟨hinbounds, started, htraffics⟩ := counting_state h
  have hrows : (counting f now s b).1.state.db.traffics.map (fun r => (r.email, r.up, r.down)) =
      s.db.traffics.map (fun r => (r.email, r.up + sentBy b.clients (·.up) r.email,
        r.down + sentBy b.clients (·.down) r.email)) ↔ f.saveTraffics = false ∨ Silent s b := by
    rw [htraffics]
    cases f.saveTraffics with
    | false =>
      refine iff_of_true ?_ (.inl rfl)
      rw [if_neg Bool.false_ne_true, map_map]
      refine map_congr_left fun r _ => ?_
      obtain ⟨hemail, hup, hdown⟩ := @countRow_counts now b.clients started r
      rw [Function.comp_apply, hemail, hup, hdown]
    | true =>
      rw [if_pos rfl, map_inj_left, or_iff_right Bool.false_ne_true.symm]
      refine forall_congr' fun r => forall_congr' fun _ => ?_
      rw [sentBy, sentBy]
      cases reported b.clients r.email with
      | none => simp
      | some x =>
        simp only [Option.elim, Prod.mk.injEq, true_and, Option.some.injEq, forall_eq']
        omega
  constructor
  · intro hrecorded
    exact ⟨hrecorded.toAddressed, hrows.mp hrecorded.rows⟩
  · rintro ⟨haddressed, hsaved⟩
    exact ⟨haddressed, hinbounds, hrows.mpr hsaved⟩

end counting

section later

variable {f : Faults} {now seconds : Int} {s : Store} {b : Batch} {t : Tx Store} {db : DB}

theorem renewRows_fails : Fails (renewRows f seconds t) ↔
    f.saveRenewal = true ∨ f.saveRenewed = true ∨ f.clearGlobals ≠ none := by
  simp only [renewRows, write_then]
  split
  case isTrue hsave => exact iff_of_true fails_error (.inl hsave)
  case isFalse hsave =>
    rw [or_iff_right hsave]
    split
    case isTrue hrows => exact iff_of_true fails_error (.inl hrows)
    case isFalse hrows =>
      rw [or_iff_right hrows]
      cases f.clearGlobals with
      | none => exact iff_of_false fails_ok fun h => h rfl
      | some n => exact iff_of_true fails_error (Option.some_ne_none n)

theorem renewRows_wrote : (renewRows f seconds t).1.wrote = (t.wrote || !f.saveRenewal) := by
  simp only [renewRows, write_then]
  cases f.saveRenewal with
  | true => exact (Bool.or_false _).symm
  | false =>
    simp only [Bool.false_eq_true, if_false, Bool.not_false, Bool.or_true]
    split
    · rfl
    · split <;> rfl

theorem selects_iff : Selects f seconds db ↔
    dueRows db seconds ≠ [] ∧ f.findDue = false ∧ f.pluckDue = false ∧
    (!(linkedInbounds db ((dueRows db seconds).map (·.email))).isEmpty && f.findRenewal) = false := by
  have hreads : (!(linkedInbounds db ((dueRows db seconds).map (·.email))).isEmpty && f.findRenewal) = false ↔
      (linkedInbounds db ((dueRows db seconds).map (·.email)) ≠ [] → f.findRenewal = false) := by
    rw [Bool.and_eq_false_iff, Bool.not_eq_false', List.isEmpty_iff]
    exact or_iff_not_imp_left
  rw [hreads]
  exact ⟨fun h => ⟨h.due, h.reads⟩, fun h => ⟨h.1, h.2⟩⟩

theorem autoRenewClients_selected (h : Selects f seconds t.state.db) : autoRenewClients f seconds t =
    if (renewalInbounds t.state.db seconds).any fun i => (t.state.db.clientsOf i).isNone then (t, .error .panic)
    else if (renewalInbounds t.state.db seconds).isEmpty then (t, .error .error)
    else renewRows f seconds t := by
  obtain ⟨hdue, hfind, hpluck, hrenewal⟩ := selects_iff.mp h
  have hsome : ¬(dueRows t.state.db seconds).isEmpty = true := fun hempty => hdue (List.isEmpty_iff.mp hempty)
  simp only [autoRenewClients, read_then]
  rw [hfind, hpluck, hrenewal, if_neg Bool.false_ne_true, if_neg hsome, if_neg Bool.false_ne_true,
    if_neg Bool.false_ne_true]

theorem autoRenewClients_unselected (h : ¬Selects f seconds t.state.db) :
    (autoRenewClients f seconds t).1 = t ∧ (autoRenewClients f seconds t).2 ≠ .error .panic := by
  have herror : (.error .error : Except Failure Unit) ≠ .error .panic := fun h => nomatch h
  simp only [autoRenewClients, read_then]
  split
  case isTrue => exact ⟨rfl, herror⟩
  case isFalse hfind =>
    split
    case isTrue => exact ⟨rfl, fun h => nomatch h⟩
    case isFalse hdue =>
      split
      case isTrue => exact ⟨rfl, herror⟩
      case isFalse hpluck =>
        split
        case isTrue => exact ⟨rfl, herror⟩
        case isFalse hrenewal =>
          refine absurd (selects_iff.mpr ⟨?_, ?_, ?_, ?_⟩) h
          · exact fun hempty => hdue (List.isEmpty_iff.mpr hempty)
          · exact Bool.eq_false_of_not_eq_true hfind
          · exact Bool.eq_false_of_not_eq_true hpluck
          · exact Bool.eq_false_of_not_eq_true hrenewal

theorem any_missing {ids : List Int} :
    (ids.any fun i => (db.clientsOf i).isNone) = true ↔ ∃ i ∈ ids, db.clientsOf i = none := by
  simp only [any_eq_true, Option.isNone_iff_eq_none]

theorem renewRows_panic : (renewRows f seconds t).2 ≠ .error .panic := by
  simp only [renewRows, write_then]
  split
  · rintro ⟨⟩
  · split
    · rintro ⟨⟩
    · split <;> rintro ⟨⟩

theorem autoRenewClients_panics :
    (autoRenewClients f seconds t).2 = .error .panic ↔ Panics f seconds t.state.db := by
  by_cases hselects : Selects f seconds t.state.db
  · rw [Panics, and_iff_right hselects, autoRenewClients_selected hselects, ← any_missing]
    split
    case isTrue hmissing => exact iff_of_true rfl hmissing
    case isFalse hmissing =>
      refine iff_of_false ?_ hmissing
      split
      · exact fun h => nomatch h
      · exact renewRows_panic
  · exact iff_of_false (autoRenewClients_unselected hselects).2 fun h => hselects h.1

theorem autoRenewClients_clean (hpanics : ¬Panics f seconds s.db) :
    Clean (autoRenewClients f seconds (begun s)) ↔ RenewsWhole f seconds s.db := by
  by_cases hselects : Selects f seconds s.db
  · have hmissing : ¬((renewalInbounds s.db seconds).any fun i => (s.db.clientsOf i).isNone) = true := by
      rw [any_missing]
      exact fun h => hpanics ⟨hselects, h⟩
    have hcases := @autoRenewClients_selected f seconds (begun s) hselects
    have hdb : (begun s).state.db = s.db := rfl
    rw [hdb, if_neg hmissing] at hcases
    rw [hcases]
    split
    case isTrue hempty =>
      exact iff_of_true (clean_of_unwritten rfl) fun _ hne => absurd (List.isEmpty_iff.mp hempty) hne
    case isFalse hne =>
      rw [List.isEmpty_iff] at hne
      have hwhole : RenewsWhole f seconds s.db ↔
          (f.saveRenewal = false → f.saveRenewed = false ∧ f.clearGlobals = none) :=
        ⟨fun h => h hselects hne, fun h _ _ => h⟩
      rw [hwhole]
      have hwrote := @renewRows_wrote f seconds (begun s)
      cases hsave : f.saveRenewal with
      | true =>
        rw [hsave] at hwrote
        exact iff_of_true (clean_of_unwritten hwrote) fun h => absurd h Bool.false_ne_true.symm
      | false =>
        rw [hsave] at hwrote
        rw [clean_iff_succeeds hwrote, renewRows_fails, hsave]
        simp only [Bool.false_eq_true, false_or, not_or, not_not, Bool.not_eq_true, true_implies]
  · refine iff_of_true (clean_of_unwritten ?_) fun h => absurd h hselects
    rw [(autoRenewClients_unselected hselects).1]
    rfl

theorem linkedInbounds_nil (db : DB) : linkedInbounds db [] = [] := by
  simp [linkedInbounds]

theorem localTargets_emails {i : Int} (hi : i ∈ localTargets now seconds s) :
    depletedEmails now seconds s ≠ [] := by
  intro hnone
  rw [localTargets, hnone, linkedInbounds_nil] at hi
  exact absurd hi not_mem_nil

theorem depleted_of_emails (h : depletedEmails now seconds s ≠ []) :
    s.db.traffics.any (depleted (tickDraws now seconds s)) = true := by
  obtain ⟨e, he⟩ := exists_mem_of_ne_nil _ h
  obtain ⟨r, hr, -⟩ := mem_map.mp (mem_of_mem_filter he)
  obtain ⟨hr, hdepleted⟩ := mem_filter.mp hr
  exact any_eq_true.mpr ⟨r, hr, hdepleted⟩

theorem marks_iff {emails : List String} {ids : List Int} : marks f now seconds s emails ids = true ↔
    ∃ i ∈ ids, f.markSettings i = false ∧
      ∃ c ∈ s.db.settingsClients i, disableEntry s.db (tickDraws now seconds s) emails i c ≠ c := by
  simp only [marks, any_eq_true, mem_filter, Bool.not_eq_true', bne_iff_ne, and_assoc]

theorem disableInvalidClients_clean :
    Clean (disableInvalidClients f now seconds (begun s)) ↔ DisablesWhole f now seconds s := by
  simp only [disableInvalidClients, read_then, write_then]
  split
  case isTrue hfind => exact iff_of_true (clean_of_unwritten rfl) fun h => absurd (h.symm.trans hfind) (by decide)
  case isFalse hfind =>
    split
    case isTrue hnone =>
      refine iff_of_true clean_ok ?_
      rintro - - ⟨i, hi, -⟩
      have hsome : s.db.traffics.any (depleted (tickDraws now seconds s)) = true :=
        depleted_of_emails (localTargets_emails hi)
      exact absurd hsome ((Bool.not_eq_true _).mpr ((Bool.not_eq_true' _).mp hnone))
    case isFalse =>
      split
      case isTrue htargets =>
        refine iff_of_true (clean_of_unwritten rfl) fun _ hfound => ?_
        have hfails : f.findTargets = true := ((Bool.and_eq_true _ _).mp htargets).2
        exact absurd (hfound.symm.trans hfails) (by decide)
      case isFalse htargets =>
        split
        case isTrue hupdate =>
          have hwhole : DisablesWhole f now seconds s ↔
              marks f now seconds s (depletedEmails now seconds s) (localTargets now seconds s) = false := by
            rw [DisablesWhole, ← marks_iff, hupdate]
            constructor
            · intro h
              rw [Bool.eq_false_iff]
              intro hmarks
              obtain ⟨i, hi, -⟩ := marks_iff.mp hmarks
              have hemails : (depletedEmails now seconds s).isEmpty = false :=
                isEmpty_eq_false_iff.mpr (localTargets_emails hi)
              have hreads : f.findTargets = false := by
                have hand : (!(depletedEmails now seconds s).isEmpty && f.findTargets) = false :=
                  Bool.eq_false_of_not_eq_true htargets
                rwa [hemails, Bool.not_false, Bool.true_and] at hand
              exact absurd (h (Bool.eq_false_of_not_eq_true hfind) hreads hmarks) (by decide)
            · exact fun h _ _ hmarks => absurd (h.symm.trans hmarks) (by decide)
          rw [clean_error, hwhole]
          exact Iff.rfl
        case isFalse hupdate =>
          exact iff_of_true clean_ok fun _ _ _ => Bool.eq_false_of_not_eq_true hupdate

end later

section carried

variable {f : Faults} {now seconds : Int} {s s' s'' : Store} {b : Batch} {t : Tx Store} {db : DB}

structure Untouched (s s' : Store) : Prop where
  counters : s'.inbounds.map (fun r => (r.tag, r.up, r.down)) = s.inbounds.map fun r => (r.tag, r.up, r.down)
  rows : ∃ g : ClientTraffic → ClientTraffic, s'.db.traffics = s.db.traffics.map g ∧
    ∀ r, (g r).email = r.email ∧ (g r).up = r.up ∧ (g r).down = r.down

theorem Untouched.refl (s : Store) : Untouched s s :=
  ⟨rfl, id, (map_id _).symm, fun _ => ⟨rfl, rfl, rfl⟩⟩

theorem Carried.refl (seconds : Int) (s : Store) : Carried seconds s s :=
  ⟨rfl, id, (map_id _).symm, fun _ => ⟨rfl, fun _ => ⟨rfl, rfl⟩⟩⟩

theorem Carried.untouched (h : Carried seconds s s') (h' : Untouched s' s'') : Carried seconds s s'' := by
  obtain ⟨g, hg, hrow⟩ := h.rows
  obtain ⟨g', hg', hrow'⟩ := h'.rows
  refine ⟨h'.counters.trans h.counters, g' ∘ g, ?_, fun r => ?_⟩
  · rw [hg', hg, map_map]
  · obtain ⟨hemail, hcounts⟩ := hrow r
    obtain ⟨hemail', hup', hdown'⟩ := hrow' (g r)
    refine ⟨hemail'.trans hemail, fun hdue => ?_⟩
    obtain ⟨hup, hdown⟩ := hcounts hdue
    exact ⟨hup'.trans hup, hdown'.trans hdown⟩

theorem renewAll_traffics (rows : List ClientTraffic) (ids : List Int) :
    (renewAll seconds db rows ids).1.traffics = db.traffics := by
  induction ids generalizing db rows with
  | nil => rfl
  | cons i ids ih =>
    rw [renewAll]
    exact ih _

theorem renewRows_carried : Carried seconds t.state (renewRows f seconds t).1.state := by
  have hsynced : (syncAll f.syncRenewal (renewAll seconds t.state.db (dueRows t.state.db seconds)
      (renewalInbounds t.state.db seconds)).1 (renewalInbounds t.state.db seconds)).traffics =
      t.state.db.traffics := by
    rw [syncAll_traffics, renewAll_traffics]
  simp only [renewRows, write_then]
  split
  case isTrue => exact .refl seconds _
  case isFalse =>
    split
    case isTrue =>
      exact ⟨rfl, id, hsynced.trans (map_id _).symm, fun _ => ⟨rfl, fun _ => ⟨rfl, rfl⟩⟩⟩
    case isFalse =>
      have hsaved : ∀ (rows : List ClientTraffic) (r : ClientTraffic),
          (if due t.state.db seconds r then (rows.find? (·.email = r.email)).getD r else r).email = r.email ∧
          (due t.state.db seconds r = false →
            (if due t.state.db seconds r then (rows.find? (·.email = r.email)).getD r else r).up = r.up ∧
            (if due t.state.db seconds r then (rows.find? (·.email = r.email)).getD r else r).down = r.down) := by
        intro rows r
        constructor
        · split
          case isTrue =>
            cases hfind : rows.find? (·.email = r.email) with
            | none => rfl
            | some r' =>
              have hemail : r'.email = r.email := by simpa using find?_some hfind
              exact hemail
          case isFalse => rfl
        · intro hdue
          rw [hdue]
          exact ⟨rfl, rfl⟩
      split
      · exact ⟨rfl, _, rfl, hsaved _⟩
      · exact ⟨rfl, _, rfl, hsaved _⟩

theorem autoRenewClients_carried : Carried seconds t.state (autoRenewClients f seconds t).1.state := by
  by_cases hselects : Selects f seconds t.state.db
  · rw [autoRenewClients_selected hselects]
    split
    · exact .refl seconds _
    · split
      · exact .refl seconds _
      · exact renewRows_carried
  · rw [(autoRenewClients_unselected hselects).1]
    exact .refl seconds _

theorem disableInvalidClients_untouched :
    Untouched t.state (disableInvalidClients f now seconds t).1.state := by
  have hsame : ∀ s : Store, ∀ r : ClientTraffic,
      (if depleted (tickDraws now seconds s) r then { r with enable := false } else r).email = r.email ∧
      (if depleted (tickDraws now seconds s) r then { r with enable := false } else r).up = r.up ∧
      (if depleted (tickDraws now seconds s) r then { r with enable := false } else r).down = r.down := by
    intro s r
    split <;> exact ⟨rfl, rfl, rfl⟩
  simp only [disableInvalidClients, read_then, write_then]
  split
  · exact .refl _
  · split
    · exact .refl _
    · split
      · exact .refl _
      · split
        · exact ⟨rfl, id, (map_id _).symm, fun _ => ⟨rfl, rfl, rfl⟩⟩
        · refine ⟨rfl, _, ?_, hsame t.state⟩
          split <;> rfl

theorem disableInvalidInbounds_untouched :
    Untouched t.state (disableInvalidInbounds f seconds t).1.state := by
  simp only [disableInvalidInbounds, read_then]
  split
  · exact .refl _
  · rw [write_state]
    split
    · exact .refl _
    · refine ⟨?_, id, (map_id _).symm, fun _ => ⟨rfl, rfl, rfl⟩⟩
      rw [map_map]
      refine map_congr_left fun r _ => ?_
      rw [Function.comp_apply]
      split <;> rfl

theorem stopping_carried :
    Carried seconds (counting f now s b).1.state (stopping f now seconds s b).1.state := by
  rw [stopping]
  refine Carried.untouched ?_ (@disableInvalidInbounds_untouched f seconds (begun _))
  rw [disabling]
  refine Carried.untouched ?_ (@disableInvalidClients_untouched f now seconds (begun _))
  rw [renewing]
  exact @autoRenewClients_carried f seconds (begun _)

theorem tick_refused {e : Failure} (h : (counting f now s b).2 = .error e) :
    addTrafficLocked f now seconds s b = ⟨s, false, .error e⟩ := by
  rw [addTrafficLocked, h]

theorem tick_panicked (hcounted : (counting f now s b).2 = .ok ())
    (h : (renewing f now seconds s b).2 = .error .panic) :
    (addTrafficLocked f now seconds s b).committed = !f.commit ∧
      (addTrafficLocked f now seconds s b).exit = .error .panic := by
  cases hrenew : renewing f now seconds s b with
  | mk t result =>
    rw [hrenew] at h
    subst h
    rw [addTrafficLocked, hcounted, hrenew]
    dsimp only
    rw [close_ok fails_ok]
    cases f.commit <;> exact ⟨rfl, rfl⟩

theorem tick_returned (hcounted : (counting f now s b).2 = .ok ())
    (h : (renewing f now seconds s b).2 ≠ .error .panic) :
    addTrafficLocked f now seconds s b = ⟨(close f.commit s (stopping f now seconds s b)).1,
      (close f.commit s (stopping f now seconds s b)).2, .ok ()⟩ := by
  rw [addTrafficLocked, hcounted]
  dsimp only
  split
  case h_1 t hrenew =>
    rw [hrenew] at h
    exact absurd rfl h
  case h_2 => rfl

theorem close_fails {σ α : Type} {fails : Bool} {before : σ} {r : Tx σ × Except Failure α}
    (h : r.2 = .error .error) : close fails before r = (before, false) := by
  rw [close, h]

theorem smooth_iff (hcounted : ¬Fails (counting f now s b))
    (hpanics : ¬Panics f seconds (counting f now s b).1.state.db) :
    Smooth f now seconds s b ↔ (f.scanTags = false ∧ f.updateInbounds = false) ∧ f.commit = false ∧
      Recorded s b (counting f now s b).1.state ∧ Clean (renewing f now seconds s b) ∧
      Clean (disabling f now seconds s b) := by
  rw [recorded_iff hcounted, renewing, autoRenewClients_clean hpanics, disabling, disableInvalidClients_clean]
  constructor
  · intro h
    exact ⟨h.stops, h.commits, ⟨h.addressed, h.saved⟩, h.renews, h.disables⟩
  · rintro ⟨hstops, hcommits, ⟨haddressed, hsaved⟩, hrenews, hdisables⟩
    exact ⟨haddressed, hsaved, hrenews, hdisables, hstops, hcommits⟩

theorem stopping_result : (stopping f now seconds s b).2 =
    if f.scanTags = false ∧ f.updateInbounds = false then .ok () else .error .error := by
  simp only [stopping, disableInvalidInbounds, read_then]
  cases f.scanTags with
  | true => rfl
  | false => cases hupdate : f.updateInbounds <;> rfl

theorem honest_panicked (hcounted : (counting f now s b).2 = .ok ())
    (h : (renewing f now seconds s b).2 = .error .panic) : Honest f now seconds s b ↔ f.commit = true := by
  obtain ⟨hcommitted, hexit⟩ := tick_panicked hcounted h
  have hfailed : (addTrafficLocked f now seconds s b).exit ≠ .ok () := by
    rw [hexit]
    exact fun h => nomatch h
  have hcommit : (addTrafficLocked f now seconds s b).committed = true ↔ f.commit = false := by
    rw [hcommitted, Bool.not_eq_true']
  constructor
  · intro hhonest
    rw [← Bool.not_eq_false, ← hcommit, hhonest.agrees]
    exact hfailed
  · intro hfails
    have hnot : (addTrafficLocked f now seconds s b).committed ≠ true := by
      rw [Ne, hcommit, hfails]
      exact Bool.false_ne_true.symm
    exact ⟨iff_of_false hnot hfailed, fun h => absurd h hfailed, fun h => absurd h hnot⟩

theorem honest_returned (hcounted : (counting f now s b).2 = .ok ())
    (h : (renewing f now seconds s b).2 ≠ .error .panic) : Honest f now seconds s b ↔
      (f.scanTags = false ∧ f.updateInbounds = false) ∧ f.commit = false ∧
      Recorded s b (counting f now s b).1.state ∧ Clean (renewing f now seconds s b) ∧
      Clean (disabling f now seconds s b) := by
  have htick := tick_returned hcounted h
  have hexit : (addTrafficLocked f now seconds s b).exit = .ok () := by rw [htick]
  by_cases hstops : f.scanTags = false ∧ f.updateInbounds = false
  · have hok : ¬Fails (stopping f now seconds s b) := by
      rintro ⟨e, he⟩
      rw [stopping_result, if_pos hstops] at he
      cases he
    rw [close_ok hok] at htick
    rw [and_iff_right hstops]
    cases hcommit : f.commit with
    | true =>
      rw [hcommit, if_pos rfl] at htick
      refine iff_of_false (fun hhonest => ?_) fun h => absurd h.1.symm Bool.false_ne_true
      have hcommitted := hhonest.agrees.mpr hexit
      rw [htick] at hcommitted
      exact Bool.false_ne_true hcommitted
    | false =>
      rw [hcommit, if_neg Bool.false_ne_true] at htick
      have hcommitted : (addTrafficLocked f now seconds s b).committed = true := by rw [htick]
      have hdb : (addTrafficLocked f now seconds s b).db = (stopping f now seconds s b).1.state := by rw [htick]
      rw [and_iff_right rfl]
      constructor
      · intro hhonest
        obtain ⟨hrenewed, hdisabled, -⟩ := hhonest.clean hcommitted
        exact ⟨(hhonest.recorded hexit).1, hrenewed, hdisabled⟩
      · rintro ⟨hrecorded, hrenewed, hdisabled⟩
        refine ⟨iff_of_true hcommitted hexit, fun _ => ⟨hrecorded, hdb ▸ stopping_carried⟩, fun _ => ?_⟩
        exact ⟨hrenewed, hdisabled, fun hfails => absurd hfails hok⟩
  · refine iff_of_false (fun hhonest => ?_) fun h => hstops h.1
    have hcommitted := hhonest.agrees.mpr hexit
    have hclose := @close_fails _ _ f.commit s (stopping f now seconds s b)
      (stopping_result.trans (if_neg hstops))
    rw [htick, hclose] at hcommitted
    exact Bool.false_ne_true hcommitted

end carried

section examples

def quiet : Faults where
  updateInbound _ := false
  findTraffics := false
  pluckDelayed := false
  findDelayed := false
  saveDelayed := false
  syncDelayed _ := none
  saveTraffics := false
  findDue := false
  pluckDue := false
  findRenewal := false
  saveRenewal := false
  syncRenewal _ := none
  saveRenewed := false
  clearGlobals := none
  findDepleted := false
  findTargets := false
  markSettings _ := false
  updateTraffics := false
  updateRecords := false
  scanTags := false
  updateInbounds := false
  commit := false

def late : Faults := { quiet with updateInbounds := true }

def metered : Store := { AutoRenew.lapsed with inbounds := [⟨"in", none, 0, 0, 0, 0, true⟩] }

def oneReport : Batch := ⟨[⟨true, "in", 5, 7⟩], ⟨[⟨"alice", 5, 7⟩], by decide⟩⟩

end examples

end TrafficTick

end QuiPanel
