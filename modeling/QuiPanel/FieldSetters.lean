import QuiPanel.Rotation

namespace QuiPanel

namespace FieldSetters

open Keyed Outcome Clients ListSync List

inductive Edit where
  | enable (v : Bool)
  | tgID (v : Int)
  | limitIP (v : Int)
  | expiryTime (v : Int)
  | totalGB (v : Int)

def Edit.mutate : Edit → Client → Client
  | .enable v, c => { c with enable := v }
  | .tgID v, c => { c with tgID := v }
  | .limitIP v, c => { c with limitIP := v }
  | .expiryTime v, c => { c with expiryTime := v }
  | .totalGB v, c => { c with totalGB := v }

structure Outside where
  attempts : Nat → Attempt
  order : List Int → List Int
  order_perm : ∀ ids, (order ids).Perm ids
  rowId : String → Int

section setters

variable (o : Outside) (db : DB)

def linkedIds (email : String) : List Int :=
  (db.links.filter fun l => (db.records.find l.clientId).any (·.email == email)).map (·.inboundId)

def getInboundIdsForEmail (email : String) : List Int := o.order (linkedIds db email)

def hostOf (traffic : ClientTraffic) : Except String Inbound :=
  match db.inbounds.find traffic.inboundId with
  | some ib => .ok ib
  | none =>
    match getInboundIdsForEmail o db traffic.email with
    | [] => .error errNotFound
    | i :: _ => orErr (db.inbounds.find i) errNotFound

def getClientInboundByEmail (email : String) : Except String Inbound := do
  let traffic ← orErr (db.traffics.find? (·.email == email)) "Inbound Not Found For Email:"
  hostOf o db traffic

def entryOf (ib : Inbound) (email : String) : Option Client := (ib.clients.getD []).find? (·.email == email)

def patch (k : Nat) (db : DB) (ib : Inbound) (e : Edit) (entry : Client) (email : String) : Except String DB :=
  updateInboundClient (o.attempts k) db ib.id (e.mutate entry) email

def setClientTelegramUserID (trafficId tgId : Int) : Except String DB := do
  let traffic ← orErr (db.traffics.find? (o.rowId ·.email == trafficId)) "Inbound Not Found For Traffic ID:"
  let inbound ← hostOf o db traffic
  let entry ← orErr (entryOf inbound traffic.email) "Client Not Found For Email:"
  patch o 0 db inbound (.tgID tgId) entry traffic.email

def checkIsEnabledByEmail (email : String) : Except String Bool := do
  let inbound ← getClientInboundByEmail o db email
  return ((entryOf inbound email).map (·.enable)).getD false

def toggleClientEnableByEmail (email : String) : Except String DB := do
  let inbound ← getClientInboundByEmail o db email
  let entry ← orErr (entryOf inbound email) "Client Not Found For Email:"
  patch o 0 db inbound (.enable !entry.enable) entry email

def setClientEnableByEmail (email : String) (enable : Bool) : Except String DB := do
  let current ← checkIsEnabledByEmail o db email
  if current = enable then return db
  toggleClientEnableByEmail o db email

def applyToInbounds (e : Edit) (email : String) : Nat → DB → List Int → DB × Except String Bool
  | _, db, [] => (db, .ok false)
  | k, db, ibId :: ids =>
    match db.inbounds.find ibId with
    | none => (db, .error errNotFound)
    | some inbound =>
      match entryOf inbound email with
      | none => applyToInbounds e email (k + 1) db ids
      | some entry =>
        match patch o k db inbound e entry email with
        | .error err => (db, .error err)
        | .ok db => andThen (applyToInbounds e email (k + 1) db ids) fun db _ => (db, .ok true)

def fieldTargets (email : String) : Except String (List Int) :=
  match getInboundIdsForEmail o db email with
  | [] => (getClientInboundByEmail o db email).map fun ib => [ib.id]
  | ids => .ok ids

def applyClientFieldByEmail (email : String) (e : Edit) : DB × Except String Unit :=
  match fieldTargets o db email with
  | .error err => (db, .error err)
  | .ok ids => andThen (applyToInbounds o e email 0 db ids) fun db found =>
      if found then (db, .ok ()) else (db, .error "Client Not Found For Email:")

def resetClientIpLimitByEmail (email : String) (count : Int) : DB × Except String Unit :=
  applyClientFieldByEmail o db email (.limitIP count)

def resetClientExpiryTimeByEmail (email : String) (expiryTime : Int) : DB × Except String Unit :=
  applyClientFieldByEmail o db email (.expiryTime expiryTime)

def resetClientTrafficLimitByEmail (email : String) (totalGB : Int) : DB × Except String Unit :=
  if totalGB < 0 then (db, .error "totalGB must be >= 0")
  else applyClientFieldByEmail o db email (.totalGB ((totalGB * 1024 * 1024 * 1024).bmod (2 ^ 64)))

end setters

structure Patch where
  inbound : Inbound
  attempt : Attempt
  entry : Client
  old : Client

namespace Patch

variable (e : Edit) (email : String) (p : Patch)

def clients : List Client := p.inbound.clients.getD []

def index : Nat := p.clients.findIdx fun c => Text.equalFold c.email email

def stamped : Client := restampEntry p.attempt p.old (e.mutate p.entry)

def after : List Client := p.clients.set (p.index email) (p.stamped e)

def restat (t : ClientTraffic) : ClientTraffic :=
  let client := e.mutate p.entry
  if t.email = p.old.email then
    { t with
      enable := client.enable, email := client.email, total := client.totalGB
      expiryTime := client.expiryTime, reset := client.reset }
  else t

structure Located : Prop where
  entry : entryOf p.inbound email = some p.entry
  old : p.clients[p.index email]? = some p.old

end Patch

def plan (o : Outside) (db : DB) (email : String) : Nat → List Int → List Patch
  | _, [] => []
  | k, ibId :: ids =>
    match db.inbounds.find ibId with
    | none => plan o db email (k + 1) ids
    | some ib =>
      match entryOf ib email,
        (ib.clients.getD [])[(ib.clients.getD []).findIdx fun c => Text.equalFold c.email email]? with
      | some entry, some old => ⟨ib, o.attempts k, entry, old⟩ :: plan o db email (k + 1) ids
      | _, _ => plan o db email (k + 1) ids

structure Ran (e : Edit) (email : String) (ps : List Patch) (db db' : DB) : Prop where
  settings : ∀ i, db'.settingsClients i =
    ((ps.find? (·.inbound.id == i)).map (·.after e email)).getD (db.settingsClients i)
  others : ∀ i, (∀ p ∈ ps, p.inbound.id ≠ i) → db'.inbounds.find i = db.inbounds.find i
  records : ∀ id r, db.records.find id = some r →
    db'.records.find id = some (mergeAll (occurrences (named (ps.flatMap (·.after e email))) r.email) r)
  traffics : db'.traffics = ps.foldl (fun ts p => ts.map (p.restat e)) db.traffics
  located : ∀ p ∈ ps, p.Located email ∧ db.inbounds.find p.inbound.id = some p.inbound
  distinct : (ps.map (·.inbound.id)).Nodup
  named : ps ≠ [] → Text.trimSpace email ≠ ""

section running

variable {o : Outside} {e : Edit} {email : String} {db db₁ db' : DB} {ib : Inbound} {entry : Client} {k : Nat}
  {p : Patch} {ps : List Patch} {ids : List Int}

theorem entry_email (h : entryOf ib email = some entry) : entry.email = email := by
  simpa using find?_some h

theorem mutate_email (e : Edit) (c : Client) : (e.mutate c).email = c.email := by
  cases e <;> rfl

theorem patch_ran (hfind : db.inbounds.find ib.id = some ib) (hentry : entryOf ib email = some entry)
    (h : patch o k db ib e entry email = .ok db') :
    ∃ old, Ran e email [⟨ib, o.attempts k, entry, old⟩] db db' := by
  have hemail : (e.mutate entry).email = email := (mutate_email e entry).trans (entry_email hentry)
  simp only [patch, updateInboundClient, bind_ok, orErr_ok, check_ok, Option.isNone_iff_eq_none] at h
  obtain ⟨_, -, ib', hib, old, hlocated, _, hnamed, _, hcheck, traffics, hmove, _, -, _, -, hsync⟩ := h
  obtain rfl := Option.some.inj (hfind.symm.trans hib)
  have hold : (ib.clients.getD [])[(ib.clients.getD []).findIdx fun c => Text.equalFold c.email email]? =
      some old := by
    split at hlocated
    · cases hlocated
    · exact hlocated
  have hfold : Text.equalFold old.email email = true := by
    obtain ⟨hlt, hget⟩ := List.getElem?_eq_some_iff.mp hold
    rw [← hget]
    exact findIdx_getElem (p := fun c : Client => Text.equalFold c.email email) (w := hlt)
  refine ⟨old, fun i => ?_, fun i hi => ?_, fun id r hr => ?_, ?_, ?_, nodup_singleton _, fun _ => ?_⟩
  · rw [DB.settingsClients, DB.clientsOf, (syncInbound_ok hsync).1]
    have hsaved : (saveClients { db with traffics } ib.id
        (Patch.after e email ⟨ib, o.attempts k, entry, old⟩)).settingsClients i = _ :=
      settingsClients_saved (by rw [hfind]; rfl) i
    refine hsaved.trans ?_
    rw [find?_cons]
    by_cases hi : i = ib.id
    · rw [if_pos hi, hi]
      simp only [beq_self_eq_true, Option.map_some, Option.getD_some]
    · have hne : (ib.id == i) = false := beq_eq_false_iff_ne.mpr (Ne.symm hi)
      rw [if_neg hi, hne]
      rfl
  · have hother : ib.id ≠ i := hi _ (mem_singleton_self _)
    rw [(syncInbound_ok hsync).1, saveClients, Table.find_modify]
    cases hj : db.inbounds.find i with
    | none => rfl
    | some ib' =>
      have hne : (ib'.id == ib.id) = false := by
        rw [(Table.mem_of_find hj).2]
        exact beq_eq_false_iff_ne.mpr (Ne.symm hother)
      simp only [Option.map_some, hne, Bool.false_eq_true, if_false]
  · have hstep := Rewriting.find_syncInbound hsync hr
    rw [hstep, flatMap_cons, flatMap_nil, append_nil]
    rfl
  · rw [(syncInbound_ok hsync).2.1]
    rw [moveStat, if_pos (.inl (by rw [hemail]; exact hfold))] at hmove
    simp only [updateClientStat, bind_ok, check_ok] at hmove
    obtain ⟨_, -, hmove⟩ := hmove
    cases hmove
    rfl
  · intro q hq
    obtain rfl := mem_singleton.mp hq
    exact ⟨⟨hentry, hold⟩, hfind⟩
  · rw [← hemail]
    simpa using hnamed

theorem Ran.refl : Ran e email [] db db where
  settings _ := rfl
  others _ _ := rfl
  records _ _ hr := hr
  traffics := rfl
  located := forall_mem_nil _
  distinct := nodup_nil
  named h := absurd rfl h

theorem Ran.cons (h : Ran e email [p] db db₁) (h' : Ran e email ps db₁ db')
    (hnew : ∀ q ∈ ps, q.inbound.id ≠ p.inbound.id) : Ran e email (p :: ps) db db' where
  settings i := by
    rw [h'.settings i, h.settings i, find?_cons, find?_cons]
    by_cases hi : p.inbound.id = i
    · have hnone : ps.find? (·.inbound.id == i) = none := by
        refine find?_eq_none.mpr fun q hq => ?_
        simpa [← hi] using hnew q hq
      rw [hnone]
      simp only [hi, beq_self_eq_true, Option.map_none, Option.getD_none]
    · simp only [beq_eq_false_iff_ne.mpr hi, find?_nil, Option.map_none, Option.getD_none]
  others i hi := by
    rw [h'.others i fun q hq => hi q (mem_cons_of_mem _ hq),
      h.others i fun q hq => hi q (mem_singleton.mp hq ▸ mem_cons_self)]
  records id r hr := by
    have hmid := h.records id r hr
    rw [h'.records id _ hmid, mergeAll_email, ← Rewriting.mergeAll_append, ← Rewriting.occurrences_append]
    simp only [Clients.named, flatMap_cons, flatMap_nil, append_nil, filter_append]
  traffics := by
    rw [h'.traffics, h.traffics]
    rfl
  located q hq := by
    rcases mem_cons.mp hq with rfl | hin
    · exact h.located _ (mem_singleton_self _)
    · obtain ⟨hlocated, hfind⟩ := h'.located q hin
      refine ⟨hlocated, (h.others _ fun p' hp' => ?_) ▸ hfind⟩
      rw [mem_singleton.mp hp']
      exact (hnew q hin).symm
  distinct := by
    rw [map_cons, nodup_cons]
    refine ⟨fun hin => ?_, h'.distinct⟩
    obtain ⟨q, hq, heq⟩ := mem_map.mp hin
    exact hnew q hq heq
  named _ := h.named (cons_ne_nil _ _)

theorem plan_congr (h : ∀ i ∈ ids, db₁.inbounds.find i = db.inbounds.find i) :
    plan o db₁ email k ids = plan o db email k ids := by
  induction ids generalizing k with
  | nil => rfl
  | cons i ids ih =>
    obtain ⟨hi, hids⟩ := forall_mem_cons.mp h
    simp only [plan, hi, ih hids]

theorem plan_ids (h : p ∈ plan o db email k ids) : p.inbound.id ∈ ids := by
  induction ids generalizing k with
  | nil => cases h
  | cons i ids ih =>
    simp only [plan] at h
    split at h
    · exact mem_cons_of_mem _ (ih h)
    case h_2 ib hib =>
      split at h
      · rcases mem_cons.mp h with rfl | h
        · exact mem_cons.mpr (.inl (Table.mem_of_find hib).2)
        · exact mem_cons_of_mem _ (ih h)
      · exact mem_cons_of_mem _ (ih h)

theorem plan_single (hfind : db.inbounds.find ib.id = some ib) (hentry : entryOf ib email = some entry)
    (h : patch o 0 db ib e entry email = .ok db') :
    Ran e email (plan o db email 0 [ib.id]) db db' ∧ plan o db email 0 [ib.id] ≠ [] := by
  obtain ⟨old, hran⟩ := patch_ran hfind hentry h
  have hold := (hran.located _ (mem_singleton_self _)).1.old
  have hplan : plan o db email 0 [ib.id] = [⟨ib, o.attempts 0, entry, old⟩] := by
    simp only [plan, hfind, hentry]
    have hat : (ib.clients.getD [])[(ib.clients.getD []).findIdx fun c => Text.equalFold c.email email]? = some old :=
      hold
    rw [hat]
  rw [hplan]
  exact ⟨hran, cons_ne_nil _ _⟩

theorem apply_ran {found : Bool} (hnodup : ids.Nodup)
    (h : applyToInbounds o e email k db ids = (db', .ok found)) :
    Ran e email (plan o db email k ids) db db' ∧ (found = true → plan o db email k ids ≠ []) := by
  induction ids generalizing k db found with
  | nil =>
    cases h
    exact ⟨.refl, nofun⟩
  | cons j ids ih =>
    obtain ⟨hj, hids⟩ := nodup_cons.mp hnodup
    simp only [applyToInbounds] at h
    split at h
    · cases h
    case h_2 ib hib =>
      have hid := (Table.mem_of_find hib).2
      split at h
      case h_1 hnone =>
        have hskip : plan o db email k (j :: ids) = plan o db email (k + 1) ids := by
          simp only [plan, hib, hnone]
        rw [hskip]
        exact ih hids h
      case h_2 entry hentry =>
        split at h
        · cases h
        case h_2 db₁ hpatch =>
          have hib' : db.inbounds.find ib.id = some ib := hid ▸ hib
          obtain ⟨old, hone⟩ := patch_ran hib' hentry hpatch
          have hat : (ib.clients.getD [])[(ib.clients.getD []).findIdx fun c => Text.equalFold c.email email]? =
              some old := (hone.located _ (mem_singleton_self _)).1.old
          generalize hrun : applyToInbounds o e email (k + 1) db₁ ids = run at h
          obtain ⟨db₂, res⟩ := run
          cases res with
          | error err => cases h
          | ok found' =>
            simp only [andThen, Prod.mk.injEq, Except.ok.injEq] at h
            obtain ⟨rfl, rfl⟩ := h
            have hsame : ∀ i ∈ ids, db₁.inbounds.find i = db.inbounds.find i := by
              intro i hi
              have hne : ib.id ≠ i := fun heq => hj (hid ▸ heq ▸ hi)
              exact hone.others i fun q hq => by rw [mem_singleton.mp hq]; exact hne
            have hrest := (ih hids hrun).1
            rw [plan_congr hsame] at hrest
            have hplan : plan o db email k (j :: ids) =
                ⟨ib, o.attempts k, entry, old⟩ :: plan o db email (k + 1) ids := by
              simp only [plan, hib, hentry, hat]
            rw [hplan]
            refine ⟨hone.cons hrest fun q hq heq => hj ?_, fun _ => cons_ne_nil _ _⟩
            have hin := plan_ids hq
            rw [heq, hid] at hin
            exact hin

end running

section agreement

def Edit.value : Edit → Bool ⊕ Int
  | .enable v => .inl v
  | .tgID v | .limitIP v | .expiryTime v | .totalGB v => .inr v

def Edit.field : Edit → Client → Bool ⊕ Int
  | .enable _, c => .inl c.enable
  | .tgID _, c => .inr c.tgID
  | .limitIP _, c => .inr c.limitIP
  | .expiryTime _, c => .inr c.expiryTime
  | .totalGB _, c => .inr c.totalGB

def Edit.rowField : Edit → ClientTraffic → Option (Bool ⊕ Int)
  | .enable _, t => some (.inl t.enable)
  | .expiryTime _, t => some (.inr t.expiryTime)
  | .totalGB _, t => some (.inr t.total)
  | .tgID _, _ | .limitIP _, _ => none

def Edit.mutateRow : Edit → ClientTraffic → ClientTraffic
  | .enable v, t => { t with enable := v }
  | .expiryTime v, t => { t with expiryTime := v }
  | .totalGB v, t => { t with total := v }
  | .tgID _, t | .limitIP _, t => t

def fields (c : Client) := (c.enable, c.tgID, c.limitIP, c.expiryTime, c.totalGB)

def rowFields (t : ClientTraffic) := (t.enable, t.expiryTime, t.total)

structure Agree (db : DB) (r : ClientRecord) : Prop where
  entries : ∀ i, ∀ c ∈ occurrences (db.settingsClients i) r.email, fields c = fields r.toClient
  rows : ∀ t ∈ db.traffics, Text.trimSpace t.email = r.email → rowFields t = (r.enable, r.expiryTime, r.totalGB)

def stampless (c : Client) : Client := { c with updatedAt := 0 }

def stamplessRecord (r : ClientRecord) : ClientRecord := { r with updatedAt := 0 }

def Edit.mutateRecord (e : Edit) (r : ClientRecord) : ClientRecord := { r with toClient := e.mutate r.toClient }

def erase (e : Edit) (key : String) (c : Client) : Client :=
  stampless (if Text.trimSpace c.email = key then e.mutate c else c)

def eraseRecord (e : Edit) (key : String) (r : ClientRecord) : ClientRecord :=
  stamplessRecord (if r.email = key then e.mutateRecord r else r)

def eraseRow (e : Edit) (key : String) (t : ClientTraffic) : ClientTraffic :=
  if Text.trimSpace t.email = key then e.mutateRow t else t

structure OneField (e : Edit) (key : String) (db db' : DB) : Prop where
  agreement : ∀ r ∈ db.records.rows, r.email = key → ∃ r', db'.records.find r.recordId = some r' ∧
    (∀ i, ∀ c ∈ occurrences (db'.settingsClients i) key, e.field c = e.field r'.toClient) ∧
    ∀ t ∈ db'.traffics, Text.trimSpace t.email = key → ∀ v, e.rowField t = some v → v = e.field r'.toClient
  records : ∀ r ∈ db.records.rows, ∃ r', db'.records.find r.recordId = some r' ∧
    eraseRecord e key r' = eraseRecord e key r
  entries : ∀ (i : Int) (j : Nat) c, (db.settingsClients i)[j]? = some c →
    ∃ c', (db'.settingsClients i)[j]? = some c' ∧ erase e key c' = erase e key c
  rows : ∀ (j : Nat) t, db.traffics[j]? = some t →
    ∃ t', db'.traffics[j]? = some t' ∧ eraseRow e key t' = eraseRow e key t

structure Fits (e : Edit) (email : String) (ps : List Patch) (db : DB) : Prop where
  exact : ∀ p ∈ ps, p.old.email = email
  stamped : ∀ p ∈ ps, (p.old.createdAt = 0 → p.attempt.now = 0) ∧ Text.trimSpace p.old.subID ≠ ""
  reset : ∀ p, ps.getLast? = some p → ∀ t ∈ db.traffics, t.email = email → t.reset = p.old.reset
  synced : ∀ r ∈ db.records.rows,
    stamplessRecord (mergeAll (occurrences (named (ps.flatMap Patch.clients)) r.email) r) = stamplessRecord r
  reached : ∀ r ∈ db.records.rows, r.email = Text.trimSpace email → e.field r.toClient = e.value ∨
    (∀ (i : Int) (j : Nat) c, (db.settingsClients i)[j]? = some c → Text.trimSpace c.email = Text.trimSpace email →
      ∃ p ∈ ps, p.inbound.id = i ∧ p.index email = j) ∧
    ∀ t ∈ db.traffics, Text.trimSpace t.email = Text.trimSpace email → (e.rowField t).isSome = true → t.email = email

end agreement

section merging

variable {e : Edit} {cs cs' : List Client} {r r' : ClientRecord} {c c' : Client}

theorem stampless_mergeRecord (c : Client) (r : ClientRecord) :
    stamplessRecord (mergeRecord c r) = mergeRecord (stampless c) (stamplessRecord r) := by
  obtain ⟨⟨_, _, _, _, _, _, _, _, _, _, _, _, _, _, _, _, _, _⟩, _, _, _⟩ := r
  obtain ⟨_, _, _, _, _, _, _, _, _, _, _, _, _, _, _, _, _, _⟩ := c
  rfl

theorem mutate_mergeRecord (e : Edit) (c : Client) (r : ClientRecord) :
    e.mutateRecord (mergeRecord c r) = mergeRecord (e.mutate c) (e.mutateRecord r) := by
  obtain ⟨⟨_, _, _, _, _, _, _, _, _, _, _, _, _, _, _, _, _, _⟩, _, _, _⟩ := r
  obtain ⟨_, _, _, _, _, _, _, _, _, _, _, _, _, _, _, _, _, _⟩ := c
  cases e <;> rfl

theorem stampless_mergeAll (cs : List Client) (r : ClientRecord) :
    stamplessRecord (mergeAll cs r) = mergeAll (cs.map stampless) (stamplessRecord r) := by
  induction cs generalizing r with
  | nil => rfl
  | cons c cs ih =>
    exact (ih (mergeRecord c r)).trans (congrArg (mergeAll (cs.map stampless)) (stampless_mergeRecord c r))

theorem mutate_mergeAll (e : Edit) (cs : List Client) (r : ClientRecord) :
    e.mutateRecord (mergeAll cs r) = mergeAll (cs.map e.mutate) (e.mutateRecord r) := by
  induction cs generalizing r with
  | nil => rfl
  | cons c cs ih =>
    exact (ih (mergeRecord c r)).trans (congrArg (mergeAll (cs.map e.mutate)) (mutate_mergeRecord e c r))

theorem field_mergeAll (e : Edit) (cs : List Client) (r : ClientRecord) :
    e.field (mergeAll cs r).toClient = (cs.getLast?.map e.field).getD (e.field r.toClient) := by
  induction cs generalizing r with
  | nil => rfl
  | cons c cs ih =>
    have hone : e.field (mergeRecord c r).toClient = e.field c := by
      cases e <;> rfl
    refine (ih (mergeRecord c r)).trans ?_
    rw [hone, getLast?_cons]
    cases cs.getLast? with
    | none => rfl
    | some last => rfl

theorem field_of_fields (e : Edit) (h : fields c = fields c') : e.field c = e.field c' := by
  simp only [fields, Prod.mk.injEq] at h
  obtain ⟨henable, htg, hip, hexpiry, htotal⟩ := h
  cases e <;> simp only [Edit.field] <;> congr

theorem field_mutate (e : Edit) (c : Client) : e.field (e.mutate c) = e.value := by
  cases e <;> rfl

theorem mutateRecord_stampless (e : Edit) (r : ClientRecord) :
    e.mutateRecord (stamplessRecord r) = stamplessRecord (e.mutateRecord r) := by
  cases e <;> rfl

theorem mutateRecord_inj (h : e.mutateRecord r = e.mutateRecord r')
    (hfield : e.field r.toClient = e.field r'.toClient) : r = r' := by
  obtain ⟨⟨_, _, _, _, _, _, _, _, _, _, _, _, _, _, _, _, _, _⟩, _, _, _⟩ := r
  obtain ⟨⟨_, _, _, _, _, _, _, _, _, _, _, _, _, _, _, _, _, _⟩, _, _, _⟩ := r'
  cases e <;> simp_all [Edit.mutateRecord, Edit.mutate, Edit.field]

end merging

section entries

variable {e : Edit} {email key : String} {ps : List Patch} {db db' : DB} {p : Patch} {c : Client}

theorem Ran.at_patched (h : Ran e email ps db db') (hp : p ∈ ps) :
    db.settingsClients p.inbound.id = p.clients ∧ db'.settingsClients p.inbound.id = p.after e email := by
  have hfind : ps.find? (·.inbound.id == p.inbound.id) = some p := by
    cases hfind : ps.find? (·.inbound.id == p.inbound.id) with
    | none => exact absurd (find?_eq_none.mp hfind p hp) (by simp)
    | some q =>
      have hid : q.inbound.id = p.inbound.id := by simpa using find?_some hfind
      rw [inj_on_of_nodup_map h.distinct (mem_of_find?_eq_some hfind) hp hid]
  refine ⟨settingsClients_find (h.located p hp).2, ?_⟩
  rw [h.settings, hfind]
  rfl

theorem Ran.position (h : Ran e email ps db db') (i : Int) (j : Nat) :
    (∃ p ∈ ps, (p.inbound.id = i ∧ p.index email = j) ∧ (db.settingsClients i)[j]? = some p.old ∧
      (db'.settingsClients i)[j]? = some (p.stamped e)) ∨
    (∀ p ∈ ps, ¬ (p.inbound.id = i ∧ p.index email = j)) ∧
      (db'.settingsClients i)[j]? = (db.settingsClients i)[j]? := by
  by_cases hin : ∃ p ∈ ps, p.inbound.id = i ∧ p.index email = j
  · obtain ⟨p, hp, rfl, rfl⟩ := hin
    obtain ⟨hbefore, hafter⟩ := h.at_patched hp
    have hold := (h.located p hp).1.old
    have hlt : p.index email < p.clients.length := (List.getElem?_eq_some_iff.mp hold).1
    refine .inl ⟨p, hp, ⟨rfl, rfl⟩, hbefore ▸ hold, ?_⟩
    rw [hafter, Patch.after, getElem?_set_self hlt]
  · have hnot : ∀ p ∈ ps, ¬ (p.inbound.id = i ∧ p.index email = j) := fun p hp hboth => hin ⟨p, hp, hboth⟩
    refine .inr ⟨hnot, ?_⟩
    by_cases hi : ∃ p ∈ ps, p.inbound.id = i
    · obtain ⟨p, hp, rfl⟩ := hi
      obtain ⟨hbefore, hafter⟩ := h.at_patched hp
      have hne : p.index email ≠ j := fun hj => hnot p hp ⟨rfl, hj⟩
      rw [hafter, hbefore, Patch.after, getElem?_set_ne hne]
    · have hnone : ps.find? (·.inbound.id == i) = none := by
        refine find?_eq_none.mpr fun p hp => ?_
        simpa using fun heq => hi ⟨p, hp, heq⟩
      rw [h.settings, hnone]
      rfl

theorem located_exact (h : p.Located email) (hexact : p.old.email = email) : p.entry = p.old := by
  obtain ⟨hlt, hget⟩ := List.getElem?_eq_some_iff.mp h.old
  have hfirst : p.clients.find? (·.email == email) = some p.old := by
    refine find?_eq_some_iff_getElem.mpr ⟨by simpa using hexact, p.index email, hlt, hget, fun j hj => ?_⟩
    have hfold := not_of_lt_findIdx hj
    simp only [Bool.not_eq_true', beq_eq_false_iff_ne]
    intro heq
    simp [heq, Text.equalFold] at hfold
  exact Option.some.inj (h.entry.symm.trans hfirst)

theorem mutate_subID (e : Edit) (c : Client) : (e.mutate c).subID = c.subID := by
  cases e <;> rfl

theorem restampEntry_email (a : Attempt) (old c : Client) : (restampEntry a old c).email = c.email := by
  simp only [restampEntry]

theorem stamped_email (h : p.Located email) : (p.stamped e).email = email := by
  rw [Patch.stamped, restampEntry_email, mutate_email]
  exact entry_email h.entry

theorem erase_email : (erase e key c).email = c.email := by
  rw [erase]
  split
  · exact mutate_email e c
  · rfl

theorem stamped_erase (h : p.Located email) :
    erase e (Text.trimSpace email) (p.stamped e) = erase e (Text.trimSpace email) p.old ↔
      p.old.email = email ∧ (p.old.createdAt = 0 → p.attempt.now = 0) ∧ Text.trimSpace p.old.subID ≠ "" := by
  have hemail : erase e (Text.trimSpace email) (p.stamped e) = erase e (Text.trimSpace email) p.old →
      p.old.email = email := by
    intro heq
    have hsame := congrArg Client.email heq
    rw [erase_email, erase_email, stamped_email h] at hsame
    exact hsame.symm
  have hstamped : p.old.email = email → (erase e (Text.trimSpace email) (p.stamped e) =
      erase e (Text.trimSpace email) p.old ↔ (p.stamped e).subID = p.old.subID ∧
        (p.stamped e).createdAt = p.old.createdAt) := by
    intro hexact
    have hentry := located_exact h hexact
    rw [erase, erase, if_pos (by rw [stamped_email h]), if_pos (by rw [hexact]), Patch.stamped, hentry, restampEntry]
    cases e <;> simp [stampless, Edit.mutate]
  constructor
  · intro heq
    have hexact := hemail heq
    obtain ⟨hsub, hcreated⟩ := (hstamped hexact).mp heq
    rw [Patch.stamped, restampEntry] at hcreated hsub
    refine ⟨hexact, fun hzero => ?_, fun hblank => ?_⟩
    · simp only [hzero, if_true] at hcreated
      exact hcreated
    · simp only [mutate_subID, located_exact h hexact, hblank, ne_eq, not_true_eq_false, if_false] at hsub
      have htoken := token_trimmed p.attempt.subID
      rw [hsub, hblank] at htoken
      exact token_ne p.attempt.subID (hsub.trans htoken.symm)
  · rintro ⟨hexact, hcreated, hsub⟩
    refine (hstamped hexact).mpr ⟨?_, ?_⟩
    · rw [Patch.stamped, restampEntry]
      simp only [mutate_subID, located_exact h hexact, ne_eq, hsub, not_false_eq_true, if_true]
    · rw [Patch.stamped, restampEntry]
      by_cases hzero : p.old.createdAt = 0
      · simp only [hzero, if_true, hcreated hzero]
      · simp only [hzero, if_false]

end entries

section rows

variable {e : Edit} {email key : String} {ps : List Patch} {db db' : DB} {p : Patch} {t : ClientTraffic}

def restatAll (e : Edit) (ps : List Patch) (t : ClientTraffic) : ClientTraffic := ps.foldl (fun t p => p.restat e t) t

theorem Ran.row (h : Ran e email ps db db') (j : Nat) :
    db'.traffics[j]? = (db.traffics[j]?).map (restatAll e ps) := by
  have hfold : ∀ (ps : List Patch) (ts : List ClientTraffic),
      ps.foldl (fun ts p => ts.map (p.restat e)) ts = ts.map (restatAll e ps) := by
    intro ps
    induction ps with
    | nil => exact fun ts => (map_id ts).symm
    | cons p ps ih =>
      intro ts
      rw [foldl_cons, ih, map_map]
      rfl
  rw [h.traffics, hfold, getElem?_map]

theorem restat_other (hexact : ∀ p ∈ ps, p.old.email = email) (ht : t.email ≠ email) : restatAll e ps t = t := by
  induction ps with
  | nil => rfl
  | cons p ps ih =>
    have hskip : p.restat e t = t := by
      rw [Patch.restat, if_neg]
      rw [hexact p mem_cons_self]
      exact ht
    rw [restatAll, foldl_cons, hskip]
    exact ih fun q hq => hexact q (mem_cons_of_mem _ hq)

def refilled (e : Edit) (c : Client) (t : ClientTraffic) : ClientTraffic :=
  { t with
    enable := (e.mutate c).enable, total := (e.mutate c).totalGB, expiryTime := (e.mutate c).expiryTime
    reset := c.reset }

theorem restat_one (hlocated : p.Located email) (hexact : p.old.email = email) (ht : t.email = email) :
    p.restat e t = refilled e p.old t := by
  have hemail : (e.mutate p.old).email = email := (mutate_email e p.old).trans hexact
  have hreset : (e.mutate p.old).reset = p.old.reset := by
    cases e <;> rfl
  rw [Patch.restat, located_exact hlocated hexact, if_pos (ht.trans hexact.symm), refilled, hreset]
  simp only [hemail, ht]

theorem restat_last (hlocated : ∀ p ∈ ps, p.Located email) (hexact : ∀ p ∈ ps, p.old.email = email)
    (ht : t.email = email) (hlast : ps.getLast? = some p) : restatAll e ps t = refilled e p.old t := by
  induction ps generalizing t with
  | nil => cases hlast
  | cons q ps ih =>
    have hone := restat_one (e := e) (hlocated q mem_cons_self) (hexact q mem_cons_self) ht
    rw [restatAll, foldl_cons, hone]
    cases hps : ps with
    | nil =>
      rw [hps] at hlast
      cases hlast
      rfl
    | cons q' ps' =>
      have hlast' : ps.getLast? = some p := by
        rw [← hlast, getLast?_cons, hps, getLast?_cons]
        rfl
      rw [← hps]
      exact ih (fun x hx => hlocated x (mem_cons_of_mem _ hx)) (fun x hx => hexact x (mem_cons_of_mem _ hx))
        ht hlast'

theorem refilled_mutate {c : Client} (hfields : rowFields t = (c.enable, c.expiryTime, c.totalGB))
    (hreset : t.reset = c.reset) : refilled e c t = e.mutateRow t := by
  simp only [rowFields, Prod.mk.injEq] at hfields
  obtain ⟨henable, hexpiry, htotal⟩ := hfields
  cases e <;> simp only [refilled, Edit.mutate, Edit.mutateRow, ← henable, ← hexpiry, ← htotal, ← hreset]

theorem eraseRow_reset : (eraseRow e key t).reset = t.reset := by
  rw [eraseRow]
  split
  · cases e <;> rfl
  · rfl

theorem eraseRow_mutate : eraseRow e key (e.mutateRow t) = eraseRow e key t ∨ Text.trimSpace t.email ≠ key := by
  by_cases hkey : Text.trimSpace t.email = key
  · left
    cases e <;> simp [eraseRow, Edit.mutateRow, hkey]
  · exact .inr hkey

theorem rowField_mutate {v : Bool ⊕ Int} (h : e.rowField (e.mutateRow t) = some v) : v = e.value := by
  cases e <;> cases h <;> rfl

end rows

section records

variable {e : Edit} {email key : String} {ps : List Patch} {db db' : DB} {cs : List Client} {r : ClientRecord}

theorem eraseRecord_mergeAll (h : ∀ c ∈ cs, Text.trimSpace c.email = r.email) :
    eraseRecord e key (mergeAll cs r) = mergeAll (cs.map (erase e key)) (eraseRecord e key r) := by
  rw [eraseRecord, eraseRecord, mergeAll_email]
  split
  case isTrue hkey =>
    have hmap : cs.map (erase e key) = (cs.map e.mutate).map stampless := by
      rw [map_map]
      refine map_congr_left fun c hc => ?_
      rw [erase, if_pos ((h c hc).trans hkey)]
      rfl
    rw [mutate_mergeAll, stampless_mergeAll, hmap]
  case isFalse hkey =>
    have hmap : cs.map (erase e key) = cs.map stampless := by
      refine map_congr_left fun c hc => ?_
      rw [erase, if_neg fun heq => hkey ((h c hc).symm.trans heq)]
    rw [stampless_mergeAll, hmap]

theorem occurrences_erase (cs : List Client) (k : String) :
    (occurrences (named cs) k).map (erase e key) = occurrences (named (cs.map (erase e key))) k := by
  rw [occurrences, named, occurrences, named, filter_filter, filter_filter, filter_map]
  refine congrArg (List.map (erase e key)) (filter_congr fun c _ => ?_)
  rw [Function.comp_apply, erase_email]

theorem after_erase (h : Ran e email ps db db') (hexact : ∀ p ∈ ps, p.old.email = email)
    (hstamped : ∀ p ∈ ps, (p.old.createdAt = 0 → p.attempt.now = 0) ∧ Text.trimSpace p.old.subID ≠ "") :
    (ps.flatMap (·.after e email)).map (erase e (Text.trimSpace email)) =
      (ps.flatMap Patch.clients).map (erase e (Text.trimSpace email)) := by
  rw [map_flatMap, map_flatMap]
  refine flatMap_congr fun p hp => ?_
  have hlocated := (h.located p hp).1
  have hsame := (stamped_erase (e := e) hlocated).mpr ⟨hexact p hp, hstamped p hp⟩
  obtain ⟨hlt, hget⟩ := List.getElem?_eq_some_iff.mp hlocated.old
  have hat : (p.clients.map (erase e (Text.trimSpace email)))[p.index email]? =
      some (erase e (Text.trimSpace email) p.old) := by
    rw [getElem?_map, hlocated.old, Option.map_some]
  rw [Patch.after, map_set, hsame]
  obtain ⟨hlt', hget'⟩ := List.getElem?_eq_some_iff.mp hat
  rw [← hget', set_getElem_self]

theorem merged_erase (h : Ran e email ps db db') (hexact : ∀ p ∈ ps, p.old.email = email)
    (hstamped : ∀ p ∈ ps, (p.old.createdAt = 0 → p.attempt.now = 0) ∧ Text.trimSpace p.old.subID ≠ "") :
    eraseRecord e (Text.trimSpace email) (mergeAll (occurrences (named (ps.flatMap (·.after e email))) r.email) r) =
      eraseRecord e (Text.trimSpace email) (mergeAll (occurrences (named (ps.flatMap Patch.clients)) r.email) r) := by
  have hnamed : ∀ cs : List Client, ∀ c ∈ occurrences cs r.email, Text.trimSpace c.email = r.email :=
    fun cs c hc => by simpa using (mem_filter.mp hc).2
  rw [eraseRecord_mergeAll (hnamed _), eraseRecord_mergeAll (hnamed _), occurrences_erase, occurrences_erase,
    after_erase h hexact hstamped]

theorem synced_iff (hagree : r.email = key → Agree db r) (hcs : ∀ c ∈ cs, ∃ i, c ∈ db.settingsClients i) :
    eraseRecord e key (mergeAll (occurrences (named cs) r.email) r) = eraseRecord e key r ↔
      stamplessRecord (mergeAll (occurrences (named cs) r.email) r) = stamplessRecord r := by
  rw [eraseRecord, eraseRecord, mergeAll_email]
  split
  case isFalse => exact Iff.rfl
  case isTrue hkey =>
    refine ⟨fun heq => ?_, fun heq => ?_⟩
    · rw [← mutateRecord_stampless, ← mutateRecord_stampless] at heq
      refine mutateRecord_inj heq ?_
      have hfield : ∀ x : ClientRecord, e.field (stamplessRecord x).toClient = e.field x.toClient := by
        intro x
        cases e <;> rfl
      rw [hfield, hfield, field_mergeAll]
      cases hlast : (occurrences (named cs) r.email).getLast? with
      | none => rfl
      | some last =>
        obtain ⟨hmem, hname⟩ := mem_filter.mp (mem_of_getLast? hlast)
        obtain ⟨i, hi⟩ := hcs last (mem_filter.mp hmem).1
        exact field_of_fields e ((hagree hkey).entries i last (mem_filter.mpr ⟨hi, hname⟩))
    · rw [← mutateRecord_stampless, heq, mutateRecord_stampless]

end records

section exactness

variable {e : Edit} {email : String} {ps : List Patch} {db db' : DB} {r : ClientRecord} {p : Patch} {c : Client}

theorem mem_occurrences {cs : List Client} {k : String} :
    c ∈ occurrences cs k ↔ (∃ j : Nat, cs[j]? = some c) ∧ Text.trimSpace c.email = k := by
  rw [occurrences, mem_filter, beq_iff_eq, mem_iff_getElem?]

theorem listed_clients (h : Ran e email ps db db') (hc : c ∈ ps.flatMap Patch.clients) :
    ∃ i, c ∈ db.settingsClients i := by
  obtain ⟨p, hp, hin⟩ := mem_flatMap.mp hc
  exact ⟨p.inbound.id, (h.at_patched hp).1 ▸ hin⟩

theorem record_after (h : Ran e email ps db db') (hr : r ∈ db.records.rows) : db'.records.find r.recordId =
    some (mergeAll (occurrences (named (ps.flatMap (·.after e email))) r.email) r) :=
  h.records _ r (Table.find_of_mem hr)

theorem restampEntry_field (e : Edit) (a : Attempt) (old c : Client) :
    e.field (restampEntry a old c) = e.field c := by
  cases e <;> simp only [restampEntry, Edit.field]

theorem stamped_field (p : Patch) : e.field (p.stamped e) = e.value := by
  rw [Patch.stamped, restampEntry_field, field_mutate]

theorem fits_of_oneField (hrun : Ran e email ps db db') (hne : ps ≠ [])
    (hagree : ∀ r ∈ db.records.rows, r.email = Text.trimSpace email → Agree db r)
    (h : OneField e (Text.trimSpace email) db db') : Fits e email ps db := by
  have hentry : ∀ p ∈ ps, p.old.email = email ∧ (p.old.createdAt = 0 → p.attempt.now = 0) ∧
      Text.trimSpace p.old.subID ≠ "" := by
    intro p hp
    obtain ⟨hbefore, hafter⟩ := hrun.at_patched hp
    have hlocated := (hrun.located p hp).1
    obtain ⟨c', hc', hsame⟩ := h.entries p.inbound.id (p.index email) p.old (hbefore ▸ hlocated.old)
    have hlt : p.index email < p.clients.length := (List.getElem?_eq_some_iff.mp hlocated.old).1
    rw [hafter, Patch.after, getElem?_set_self hlt] at hc'
    obtain rfl := Option.some.inj hc'
    exact (stamped_erase hlocated).mp hsame
  have hexact : ∀ p ∈ ps, p.old.email = email := fun p hp => (hentry p hp).1
  have hstamped := fun p hp => (hentry p hp).2
  have hlocated : ∀ p ∈ ps, p.Located email := fun p hp => (hrun.located p hp).1
  refine ⟨hexact, hstamped, fun p hlast t ht htemail => ?_, fun r hr => ?_, fun r hr hkey => ?_⟩
  · obtain ⟨j, hj⟩ := mem_iff_getElem?.mp ht
    obtain ⟨t', ht', hsame⟩ := h.rows j t hj
    rw [hrun.row, hj, Option.map_some, restat_last hlocated hexact htemail hlast] at ht'
    obtain rfl := Option.some.inj ht'
    have hreset := congrArg ClientTraffic.reset hsame
    rw [eraseRow_reset, eraseRow_reset] at hreset
    exact hreset.symm
  · obtain ⟨r', hr', hsame⟩ := h.records r hr
    rw [record_after hrun hr] at hr'
    obtain rfl := Option.some.inj hr'
    rw [merged_erase hrun hexact hstamped] at hsame
    exact (synced_iff (hagree r hr) fun c hc => listed_clients hrun hc).mp hsame
  · obtain ⟨r', hr', hfields, hrows⟩ := h.agreement r hr hkey
    by_cases hheld : e.field r.toClient = e.value
    · exact .inl hheld
    right
    have hvalue : e.field r'.toClient = e.value := by
      obtain ⟨p, hp⟩ := exists_mem_of_ne_nil ps hne
      obtain ⟨-, hafter⟩ := hrun.at_patched hp
      have hlt : p.index email < p.clients.length := (List.getElem?_eq_some_iff.mp (hlocated p hp).old).1
      have hin : p.stamped e ∈ occurrences (db'.settingsClients p.inbound.id) (Text.trimSpace email) := by
        refine mem_occurrences.mpr ⟨⟨p.index email, ?_⟩, by rw [stamped_email (hlocated p hp)]⟩
        rw [hafter, Patch.after, getElem?_set_self hlt]
      rw [← hfields _ _ hin, stamped_field]
    refine ⟨fun i j c hc hname => ?_, fun t ht hname htouched => ?_⟩
    · rcases hrun.position i j with ⟨p, hp, hat, -⟩ | ⟨-, hsame⟩
      · exact ⟨p, hp, hat⟩
      · rw [hc] at hsame
        have hafter := hfields i c (mem_occurrences.mpr ⟨⟨j, hsame⟩, hname⟩)
        have hbefore := (hagree r hr hkey).entries i c (mem_occurrences.mpr ⟨⟨j, hc⟩, hname.trans hkey.symm⟩)
        exact absurd ((field_of_fields e hbefore).symm.trans (hafter.trans hvalue)) hheld
    · by_contra hother
      obtain ⟨j, hj⟩ := mem_iff_getElem?.mp ht
      have hrow := hrun.row j
      rw [hj, Option.map_some, restat_other hexact hother] at hrow
      obtain ⟨v, hv⟩ := Option.isSome_iff_exists.mp htouched
      have hafter := hrows t (mem_iff_getElem?.mpr ⟨j, hrow⟩) hname v hv
      have hbefore := (hagree r hr hkey).rows t ht (hname.trans hkey.symm)
      simp only [rowFields, Prod.mk.injEq] at hbefore
      obtain ⟨henable, hexpiry, htotal⟩ := hbefore
      have hsame : v = e.field r.toClient := by
        cases e <;> cases hv <;> simp only [Edit.field, henable, hexpiry, htotal]
      exact hheld (hsame.symm.trans (hafter.trans hvalue))

theorem oneField_of_fits (hrun : Ran e email ps db db') (hne : ps ≠ [])
    (hr : r ∈ db.records.rows) (hname : r.email = Text.trimSpace email)
    (hagree : ∀ r ∈ db.records.rows, r.email = Text.trimSpace email → Agree db r)
    (h : Fits e email ps db) : OneField e (Text.trimSpace email) db db' := by
  have hlocated : ∀ p ∈ ps, p.Located email := fun p hp => (hrun.located p hp).1
  obtain ⟨last, hlast⟩ : ∃ last, ps.getLast? = some last := ⟨_, getLast?_eq_some_getLast hne⟩
  have hmem := mem_of_getLast? hlast
  have hrowAt : ∀ t ∈ db.traffics, t.email = email → restatAll e ps t = e.mutateRow t := by
    intro t ht htemail
    rw [restat_last hlocated h.exact htemail hlast]
    refine refilled_mutate ?_ (h.reset last hlast t ht htemail)
    have hold : fields last.old = fields r.toClient := by
      refine (hagree r hr hname).entries last.inbound.id last.old ?_
      refine mem_occurrences.mpr ⟨⟨last.index email, ?_⟩, by rw [h.exact last hmem, hname]⟩
      rw [(hrun.at_patched hmem).1]
      exact (hlocated last hmem).old
    have hrow := (hagree r hr hname).rows t ht (by rw [htemail, hname])
    simp only [fields, Prod.mk.injEq] at hold
    rw [hrow, hold.1, hold.2.2.2.1, hold.2.2.2.2]
  refine ⟨fun r hr hname => ?_, fun r hr => ?_, fun i j c hc => ?_, fun j t hj => ?_⟩
  · refine ⟨_, record_after hrun hr, ?_⟩
    have hwhole : (∀ i, ∀ c ∈ occurrences (db'.settingsClients i) (Text.trimSpace email), e.field c = e.value) ∧
        ∀ t ∈ db'.traffics, Text.trimSpace t.email = Text.trimSpace email → ∀ v, e.rowField t = some v →
          v = e.value := by
      refine ⟨fun i c hc => ?_, fun t' ht' htname v hv => ?_⟩
      · obtain ⟨⟨j, hj⟩, hcname⟩ := mem_occurrences.mp hc
        rcases hrun.position i j with ⟨p, -, -, -, hat⟩ | ⟨hnot, hsame⟩
        · rw [hj] at hat
          rw [Option.some.inj hat, stamped_field]
        · rw [hj] at hsame
          rcases h.reached r hr hname with hheld | ⟨hall, -⟩
          · have hbefore := (hagree r hr hname).entries i c
              (mem_occurrences.mpr ⟨⟨j, hsame.symm⟩, hcname.trans hname.symm⟩)
            exact (field_of_fields e hbefore).trans hheld
          · obtain ⟨p, hp, hat⟩ := hall i j c hsame.symm hcname
            exact absurd hat (hnot p hp)
      · obtain ⟨j, hj⟩ := mem_iff_getElem?.mp ht'
        rw [hrun.row] at hj
        obtain ⟨t, ht, rfl⟩ := Option.map_eq_some_iff.mp hj
        have hin := mem_iff_getElem?.mpr ⟨j, ht⟩
        by_cases htemail : t.email = email
        · rw [hrowAt t hin htemail] at hv
          exact rowField_mutate hv
        · rw [restat_other h.exact htemail] at hv htname
          rcases h.reached r hr hname with hheld | ⟨-, hrows⟩
          · have hbefore := (hagree r hr hname).rows t hin (htname.trans hname.symm)
            simp only [rowFields, Prod.mk.injEq] at hbefore
            obtain ⟨henable, hexpiry, htotal⟩ := hbefore
            rw [← hheld]
            cases e <;> cases hv <;> simp only [Edit.field, henable, hexpiry, htotal]
          · exact absurd (hrows t hin htname (by rw [hv]; rfl)) htemail
    have hfield : e.field (mergeAll (occurrences (named (ps.flatMap (·.after e email))) r.email) r).toClient =
        e.value := by
      have hstamped : last.stamped e ∈ occurrences (named (ps.flatMap (·.after e email))) r.email := by
        rw [occurrences_named (hname ▸ hrun.named hne), hname]
        have hat := (List.getElem?_eq_some_iff.mp (hlocated last hmem).old).1
        refine mem_occurrences.mpr ⟨mem_iff_getElem?.mp (mem_flatMap.mpr ⟨last, hmem, ?_⟩),
          by rw [stamped_email (hlocated last hmem)]⟩
        exact mem_iff_getElem?.mpr ⟨last.index email, by rw [Patch.after, getElem?_set_self hat]⟩
      obtain ⟨final, hfinal⟩ : ∃ final,
          (occurrences (named (ps.flatMap (·.after e email))) r.email).getLast? = some final :=
        ⟨_, getLast?_eq_some_getLast (ne_nil_of_mem hstamped)⟩
      rw [field_mergeAll, hfinal, Option.map_some, Option.getD_some]
      obtain ⟨hin, hfname⟩ := mem_filter.mp (mem_of_getLast? hfinal)
      obtain ⟨p, hp, hafter⟩ := mem_flatMap.mp (mem_filter.mp hin).1
      refine hwhole.1 p.inbound.id final ?_
      rw [(hrun.at_patched hp).2, ← hname]
      exact mem_filter.mpr ⟨hafter, hfname⟩
    rw [hfield]
    exact hwhole
  · refine ⟨_, record_after hrun hr, ?_⟩
    rw [merged_erase hrun h.exact h.stamped]
    exact (synced_iff (hagree r hr) fun c hc => listed_clients hrun hc).mpr (h.synced r hr)
  · rcases hrun.position i j with ⟨p, hp, -, hbefore, hafter⟩ | ⟨-, hsame⟩
    · rw [hc] at hbefore
      obtain rfl := Option.some.inj hbefore
      exact ⟨_, hafter, (stamped_erase (hlocated p hp)).mpr ⟨h.exact p hp, h.stamped p hp⟩⟩
    · exact ⟨c, hsame.trans hc, rfl⟩
  · have hin := mem_iff_getElem?.mpr ⟨j, hj⟩
    refine ⟨restatAll e ps t, by rw [hrun.row, hj, Option.map_some], ?_⟩
    by_cases htemail : t.email = email
    · rw [hrowAt t hin htemail]
      exact eraseRow_mutate.resolve_right fun hne => hne (by rw [htemail])
    · rw [restat_other h.exact htemail]

theorem one_field_iff (hrun : Ran e email ps db db') (hne : ps ≠ [])
    (hr : r ∈ db.records.rows) (hname : r.email = Text.trimSpace email)
    (hagree : ∀ r ∈ db.records.rows, r.email = Text.trimSpace email → Agree db r) :
    OneField e (Text.trimSpace email) db db' ↔ Fits e email ps db :=
  ⟨fits_of_oneField hrun hne hagree, oneField_of_fits hrun hne hr hname hagree⟩

end exactness

section setting

variable {o : Outside} {e : Edit} {email : String} {db db' : DB} {r : ClientRecord} {ib : Inbound}
  {traffic : ClientTraffic} {ids : List Int} {enable : Bool}

def hostPatches (o : Outside) (db : DB) (traffic : ClientTraffic) : List Patch :=
  match hostOf o db traffic with
  | .ok ib => plan o db traffic.email 0 [ib.id]
  | .error _ => []

def emailPatches (o : Outside) (db : DB) (email : String) : List Patch :=
  match db.traffics.find? (·.email == email) with
  | some traffic => hostPatches o db traffic
  | none => []

def linkedPatches (o : Outside) (db : DB) (email : String) : List Patch :=
  match fieldTargets o db email with
  | .ok ids => plan o db email 0 ids
  | .error _ => []

theorem hostOf_find (h : hostOf o db traffic = .ok ib) : db.inbounds.find ib.id = some ib := by
  rw [hostOf] at h
  split at h
  case h_1 found hfound =>
    cases h
    rw [(Table.mem_of_find hfound).2]
    exact hfound
  case h_2 =>
    split at h
    · cases h
    · have hfound := orErr_ok.mp h
      rw [(Table.mem_of_find hfound).2]
      exact hfound

theorem host_ran {entry : Client} (hhost : hostOf o db traffic = .ok ib)
    (hentry : entryOf ib traffic.email = some entry) (h : patch o 0 db ib e entry traffic.email = .ok db') :
    Ran e traffic.email (hostPatches o db traffic) db db' ∧ hostPatches o db traffic ≠ [] := by
  rw [hostPatches, hhost]
  exact plan_single (hostOf_find hhost) hentry h

theorem found_email (h : db.traffics.find? (·.email == email) = some traffic) : traffic.email = email := by
  simpa using find?_some h

def oldEnable (o : Outside) (db : DB) (email : String) : Bool :=
  ((checkIsEnabledByEmail o db email).toOption).getD false

theorem toggle_ran (h : toggleClientEnableByEmail o db email = .ok db') :
    Ran (.enable !oldEnable o db email) email (emailPatches o db email) db db' ∧ emailPatches o db email ≠ [] := by
  simp only [toggleClientEnableByEmail, getClientInboundByEmail, bind_ok, orErr_ok] at h
  obtain ⟨ib, ⟨traffic, hfound, hhost⟩, entry, hentry, hpatch⟩ := h
  obtain rfl := found_email hfound
  have hold : oldEnable o db traffic.email = entry.enable := by
    have hcheck : checkIsEnabledByEmail o db traffic.email = .ok entry.enable := by
      simp only [checkIsEnabledByEmail, getClientInboundByEmail, bind_ok, orErr_ok]
      exact ⟨ib, ⟨traffic, hfound, hhost⟩, by rw [hentry]; rfl⟩
    rw [oldEnable, hcheck]
    rfl
  rw [hold, emailPatches, hfound]
  exact host_ran hhost hentry hpatch

theorem setEnable_ran (h : setClientEnableByEmail o db email enable = .ok db') :
    (oldEnable o db email = enable ∧ db' = db) ∨ oldEnable o db email ≠ enable ∧
      Ran (.enable enable) email (emailPatches o db email) db db' ∧ emailPatches o db email ≠ [] := by
  simp only [setClientEnableByEmail, bind_ok] at h
  obtain ⟨current, hcheck, h⟩ := h
  have hold : oldEnable o db email = current := by
    rw [oldEnable, hcheck]
    rfl
  split at h
  case isTrue hsame =>
    cases h
    exact .inl ⟨hold.trans hsame, rfl⟩
  case isFalse hne =>
    have hran := toggle_ran h
    have hflip : (!oldEnable o db email) = enable := by
      rw [hold]
      cases current <;> cases enable <;> simp_all
    rw [hflip] at hran
    exact .inr ⟨fun heq => hne (hold.symm.trans heq), hran⟩

theorem setTelegram_ran {trafficId tgId : Int}
    (hfound : db.traffics.find? (o.rowId ·.email == trafficId) = some traffic)
    (h : setClientTelegramUserID o db trafficId tgId = .ok db') :
    Ran (.tgID tgId) traffic.email (hostPatches o db traffic) db db' ∧ hostPatches o db traffic ≠ [] := by
  simp only [setClientTelegramUserID, bind_ok, orErr_ok] at h
  obtain ⟨traffic', hfound', ib, hhost, entry, hentry, hpatch⟩ := h
  obtain rfl := Option.some.inj (hfound.symm.trans hfound')
  exact host_ran hhost hentry hpatch

theorem fieldTargets_nodup (hlinks : (linkedIds db email).Nodup)
    (h : fieldTargets o db email = .ok ids) : ids.Nodup := by
  rw [fieldTargets] at h
  split at h
  case h_1 =>
    cases hhost : getClientInboundByEmail o db email with
    | error err =>
      rw [hhost] at h
      cases h
    | ok ib =>
      rw [hhost] at h
      cases h
      exact nodup_singleton _
  case h_2 =>
    cases h
    exact (o.order_perm _).nodup_iff.mpr hlinks

theorem field_ran (hlinks : (linkedIds db email).Nodup) (h : applyClientFieldByEmail o db email e = (db', .ok ())) :
    Ran e email (linkedPatches o db email) db db' ∧ linkedPatches o db email ≠ [] := by
  rw [applyClientFieldByEmail] at h
  rw [linkedPatches]
  cases htargets : fieldTargets o db email with
  | error err =>
    rw [htargets] at h
    cases h
  | ok ids =>
    rw [htargets] at h
    dsimp only at h ⊢
    generalize hrun : applyToInbounds o e email 0 db ids = run at h
    obtain ⟨db₁, res⟩ := run
    cases res with
    | error err => cases h
    | ok found =>
      obtain ⟨hran, hfound⟩ := apply_ran (fieldTargets_nodup hlinks htargets) hrun
      cases found with
      | false => cases h
      | true =>
        cases h
        exact ⟨hran, hfound rfl⟩

theorem oneField_refl (hagree : ∀ r ∈ db.records.rows, r.email = Text.trimSpace email → Agree db r) :
    OneField e (Text.trimSpace email) db db where
  agreement r hr hname := by
    refine ⟨r, Table.find_of_mem hr, fun i c hc => ?_, fun t ht htname v hv => ?_⟩
    · exact field_of_fields e ((hagree r hr hname).entries i c (hname ▸ hc))
    · have hrow := (hagree r hr hname).rows t ht (htname.trans hname.symm)
      simp only [rowFields, Prod.mk.injEq] at hrow
      obtain ⟨henable, hexpiry, htotal⟩ := hrow
      cases e <;> cases hv <;> simp only [Edit.field, henable, hexpiry, htotal]
  records r hr := ⟨r, Table.find_of_mem hr, rfl⟩
  entries _ _ c hc := ⟨c, hc, rfl⟩
  rows _ t ht := ⟨t, ht, rfl⟩

theorem setters_agree_iff (o : Outside) (db : DB) (email : String) (hlinks : (linkedIds db email).Nodup)
    (hr : r ∈ db.records.rows) (hname : r.email = Text.trimSpace email)
    (hagree : ∀ r ∈ db.records.rows, r.email = Text.trimSpace email → Agree db r) :
    (∀ db', toggleClientEnableByEmail o db email = .ok db' →
      (OneField (.enable !oldEnable o db email) (Text.trimSpace email) db db' ↔
        Fits (.enable !oldEnable o db email) email (emailPatches o db email) db)) ∧
    (∀ enable db', setClientEnableByEmail o db email enable = .ok db' →
      (OneField (.enable enable) (Text.trimSpace email) db db' ↔
        oldEnable o db email = enable ∨ Fits (.enable enable) email (emailPatches o db email) db)) ∧
    (∀ trafficId tgId traffic db', db.traffics.find? (o.rowId ·.email == trafficId) = some traffic →
      traffic.email = email → setClientTelegramUserID o db trafficId tgId = .ok db' →
      (OneField (.tgID tgId) (Text.trimSpace email) db db' ↔ Fits (.tgID tgId) email (hostPatches o db traffic) db)) ∧
    (∀ e db', applyClientFieldByEmail o db email e = (db', .ok ()) →
      (OneField e (Text.trimSpace email) db db' ↔ Fits e email (linkedPatches o db email) db)) := by
  refine ⟨fun db' h => ?_, fun enable db' h => ?_, fun trafficId tgId traffic db' hfound hemail h => ?_,
    fun e db' h => ?_⟩
  · obtain ⟨hran, hne⟩ := toggle_ran h
    exact one_field_iff hran hne hr hname hagree
  · rcases setEnable_ran h with ⟨hsame, rfl⟩ | ⟨hother, hran, hne⟩
    · exact iff_of_true (oneField_refl hagree) (.inl hsame)
    · exact (one_field_iff hran hne hr hname hagree).trans (or_iff_right hother).symm
  · subst hemail
    obtain ⟨hran, hne⟩ := setTelegram_ran hfound h
    exact one_field_iff hran hne hr hname hagree
  · obtain ⟨hran, hne⟩ := field_ran hlinks h
    exact one_field_iff hran hne hr hname hagree

end setting

section examples

open Rotation (attempt subscriber)

def twoInbounds : DB where
  inbounds := (Table.empty.insert
    (fun id => ⟨id, .vless, none, "", true, some [subscriber "u1"]⟩) Rotation.subscribed_keyed).insert
    (fun id => ⟨id, .vless, none, "", true, some [subscriber "u1"]⟩) Rotation.subscribed_keyed
  records := Table.empty.insert
    (fun recordId => { subscriber "u1" with recordId, ownerId := 0, tenantId := 0 }) (Rotation.recorded_keyed "u1")
  links := [⟨1, 1, ""⟩, ⟨1, 2, ""⟩]
  traffics := [⟨1, "alice", 0, 0, 0, 0, true, 0⟩]

def steady : Outside where
  attempts := fun _ => attempt
  order := id
  order_perm := fun ids => .refl ids
  rowId := fun _ => 1

theorem twoInbounds_agree :
    ∀ r ∈ twoInbounds.records.rows, r.email = Text.trimSpace "alice" → Agree twoInbounds r := by
  intro r hr _
  obtain rfl := mem_singleton.mp hr
  refine ⟨fun i c hc => ?_, fun t ht _ => ?_⟩
  · have hin := (mem_filter.mp hc).1
    by_cases hone : i = 1
    · subst hone
      obtain rfl := mem_singleton.mp hin
      rfl
    · by_cases htwo : i = 2
      · subst htwo
        obtain rfl := mem_singleton.mp hin
        rfl
      · have hnone : twoInbounds.inbounds.find i = none := by
          simp [twoInbounds, Table.find, Table.insert, Table.empty, Ne.symm hone, Ne.symm htwo]
        rw [DB.settingsClients, DB.clientsOf, hnone] at hin
        cases hin
  · obtain rfl := mem_singleton.mp ht
    rfl

theorem listed_places {i : Int} {j : Nat} {c : Client} (h : (twoInbounds.settingsClients i)[j]? = some c) :
    (i = 1 ∨ i = 2) ∧ j = 0 := by
  have hsingle : ∀ {j : Nat} {c : Client}, [subscriber "u1"][j]? = some c → j = 0 := by
    intro j c hj
    have hlt := (List.getElem?_eq_some_iff.mp hj).1
    simpa using hlt
  by_cases hone : i = 1
  · subst hone
    exact ⟨.inl rfl, hsingle h⟩
  · by_cases htwo : i = 2
    · subst htwo
      exact ⟨.inr rfl, hsingle h⟩
    · have hnone : twoInbounds.inbounds.find i = none := by
        simp [twoInbounds, Table.find, Table.insert, Table.empty, Ne.symm hone, Ne.symm htwo]
      rw [DB.settingsClients, DB.clientsOf, hnone] at h
      cases h

def alicePatch (id : Int) : Patch :=
  ⟨⟨id, .vless, none, "", true, some [subscriber "u1"]⟩, attempt, subscriber "u1", subscriber "u1"⟩

theorem setters_agree_limit :
    (resetClientIpLimitByEmail steady twoInbounds "alice" 3).2 = .ok () ∧
      OneField (.limitIP 3) (Text.trimSpace "alice") twoInbounds
        (resetClientIpLimitByEmail steady twoInbounds "alice" 3).1 := by
  have hlinks : (linkedIds twoInbounds "alice").Nodup := by decide
  have hpatches : linkedPatches steady twoInbounds "alice" = [alicePatch 1, alicePatch 2] := rfl
  have hok : resetClientIpLimitByEmail steady twoInbounds "alice" 3 =
      ((resetClientIpLimitByEmail steady twoInbounds "alice" 3).1, .ok ()) := rfl
  refine ⟨rfl, ((setters_agree_iff steady twoInbounds "alice" hlinks mem_cons_self rfl
    twoInbounds_agree).2.2.2 (.limitIP 3) _ hok).mpr ?_⟩
  rw [hpatches]
  have hboth : ∀ p ∈ [alicePatch 1, alicePatch 2], p.old = subscriber "u1" := by
    intro p hp
    rcases mem_cons.mp hp with rfl | hp
    · rfl
    · rw [mem_singleton.mp hp]
      rfl
  refine ⟨fun p hp => ?_, fun p hp => ?_, fun p hlast t ht _ => ?_, fun r hr => ?_, fun r _ _ => ?_⟩
  · rw [hboth p hp]
    rfl
  · rw [hboth p hp]
    exact ⟨fun hzero => absurd hzero (by decide), by decide⟩
  · rw [hboth p (mem_of_getLast? hlast), mem_singleton.mp ht]
    rfl
  · rw [mem_singleton.mp hr]
    rfl
  · refine .inr ⟨fun i j c hc _ => ?_, fun t ht _ _ => by rw [mem_singleton.mp ht]⟩
    obtain ⟨rfl | rfl, rfl⟩ := listed_places hc
    · exact ⟨alicePatch 1, mem_cons_self, rfl, rfl⟩
    · exact ⟨alicePatch 2, mem_cons_of_mem _ mem_cons_self, rfl, rfl⟩

theorem toggle_leaves_copy : ¬ ∀ (o : Outside) (db db' : DB) (email : String) (r : ClientRecord),
    (linkedIds db email).Nodup → r ∈ db.records.rows → r.email = Text.trimSpace email →
    (∀ r ∈ db.records.rows, r.email = Text.trimSpace email → Agree db r) →
    toggleClientEnableByEmail o db email = .ok db' →
    OneField (.enable !oldEnable o db email) (Text.trimSpace email) db db' := by
  intro hclaim
  have hlisted : (toggleClientEnableByEmail steady twoInbounds "alice").toOption.map
      (fun db => ((db.records.find 1).map (·.enable), (occurrences (db.settingsClients 2) "alice").map (·.enable))) =
        some (some false, [true]) := rfl
  cases htoggle : toggleClientEnableByEmail steady twoInbounds "alice" with
  | error err =>
    rw [htoggle] at hlisted
    cases hlisted
  | ok db' =>
    rw [htoggle] at hlisted
    simp only [Except.toOption, Option.map_some, Option.some.injEq, Prod.mk.injEq] at hlisted
    obtain ⟨hrecord, hcopies⟩ := hlisted
    obtain ⟨r', hr', hfields, -⟩ := (hclaim steady twoInbounds db' "alice" _ (by decide) mem_cons_self rfl
      twoInbounds_agree htoggle).agreement _ mem_cons_self rfl
    have hr' : db'.records.find 1 = some r' := hr'
    rw [hr', Option.map_some, Option.some.injEq] at hrecord
    obtain ⟨c, hc⟩ : ∃ c, occurrences (db'.settingsClients 2) "alice" = [c] :=
      length_eq_one_iff.mp (by rw [← length_map (f := (·.enable)), hcopies]; rfl)
    have hmem : c ∈ occurrences (db'.settingsClients 2) (Text.trimSpace "alice") := by
      rw [show Text.trimSpace "alice" = "alice" from rfl, hc]
      exact mem_singleton_self c
    have hfield := hfields 2 c hmem
    rw [hc, map_singleton, List.cons.injEq] at hcopies
    have htrue : c.enable = r'.enable := Sum.inl.inj hfield
    rw [hcopies.1, hrecord] at htrue
    cases htrue

end examples

end FieldSetters

end QuiPanel
