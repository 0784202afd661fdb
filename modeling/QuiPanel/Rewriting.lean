import QuiPanel.ListSync

namespace QuiPanel

namespace Rewriting

open Keyed Outcome Clients ListSync Overwrite List

structure Step where
  inbound : Inbound
  attempt : Attempt
  client : Client

def Step.clients (st : Step) : List Client := st.inbound.clients.getD []

def Step.index (st : Step) (oldEmail : String) : Nat :=
  st.clients.findIdx fun c => Text.equalFold c.email oldEmail

def Step.wire (st : Step) : Client := clientWithInboundFlow st.client st.inbound

def Step.rewritten (oldEmail : String) (st : Step) : List Client :=
  match st.clients[st.index oldEmail]? with
  | none => st.clients
  | some old => st.clients.set (st.index oldEmail) (restampEntry st.attempt old st.wire)

def plannedSteps (env : Env) (d : Draws) (db : DB) : Nat → Client → List Int → List Step
  | _, _, [] => []
  | k, updated, ibId :: ids =>
    match db.inbounds.find ibId with
    | none => plannedSteps env d db (k + 1) updated ids
    | some inbound =>
      let updated := fillProtocolDefaults env (d.attempts k) updated inbound
      ⟨inbound, d.attempts k, updated⟩ :: plannedSteps env d db (k + 1) updated ids

def inboundAfter (oldEmail : String) (steps : List Step) (db : DB) (i : Int) : Option Inbound :=
  match steps.find? fun st => st.inbound.id == i with
  | some st => some { st.inbound with clients := some (st.rewritten oldEmail) }
  | none => db.inbounds.find i

structure Rewrote (oldEmail : String) (steps : List Step) (db db' : DB) : Prop where
  inbounds : ∀ i, db'.inbounds.find i = inboundAfter oldEmail steps db i
  records : ∀ id r, db.records.find id = some r → db'.records.find id =
    some (mergeAll (occurrences (named (steps.flatMap (·.rewritten oldEmail))) r.email) r)

def renamed (db : DB) (rec : ClientRecord) (email : String) : DB :=
  if email = rec.email then db else renameRecord db rec.recordId email

def targets (db : DB) (id : Int) (inboundFilter : List Int) : List Int :=
  if inboundFilter = [] then db.inboundIdsOf id else (db.inboundIdsOf id).filter inboundFilter.contains

structure Admitted (oldEmail : String) (st : Step) : Prop where
  located : ∃ old, st.clients[st.index oldEmail]? = some old ∧
    (st.client.email ≠ old.email → st.client.email ≠ "" → st.client.subID ≠ "" →
      ∀ c ∈ st.clients, Text.toLower c.email = Text.toLower st.client.email → c.subID = st.client.subID)
  keyed : credential st.inbound.protocol st.client ≠ ""

section step

variable {env : Env} {d : Draws} {o : Attempt} {db db₁ db' : DB} {i clientId : Int} {ids : List Int}
  {client c : Client} {oldEmail e : String} {ib : Inbound} {st : Step} {steps : List Step} {k : Nat}
  {cs cs' : List Client} {r : ClientRecord} {t t' : Clients.Records}

theorem mergeAll_append : mergeAll (cs ++ cs') r = mergeAll cs' (mergeAll cs r) := by
  rw [mergeAll, foldl_append]
  rfl

theorem occurrences_append : occurrences (cs ++ cs') e = occurrences cs e ++ occurrences cs' e :=
  filter_append ..

theorem createRecords_kept (h : cs.foldlM createRecord t = .ok t') (hr : r ∈ t.rows) : r ∈ t'.rows := by
  induction cs generalizing t with
  | nil =>
    cases h
    exact hr
  | cons c cs ih =>
    rw [foldlM_cons, bind_ok] at h
    obtain ⟨mid, hone, hrest⟩ := h
    obtain ⟨-, rfl⟩ := createRecord_ok.mp hone
    exact ih hrest (Table.mem_insert.mpr (.inl hr))

theorem find_syncInbound {id : Int} (h : Clients.syncInbound db i cs = .ok db')
    (hfind : db.records.find id = some r) :
    db'.records.find id = some (mergeAll (occurrences (named cs) r.email) r) := by
  simp only [Clients.syncInbound, bind_ok] at h
  obtain ⟨records, hcreate, h⟩ := h
  cases h
  obtain ⟨hr, rfl⟩ := Table.mem_of_find hfind
  have hmerged : mergeAll (occurrences (named cs) r.email) r ∈ (mergeRecords db.records (named cs)).rows := by
    rw [rows_mergeRecords]
    exact mem_map.mpr ⟨r, hr, rfl⟩
  have hfound := Table.find_of_mem (createRecords_kept hcreate hmerged)
  rw [mergeAll_recordId] at hfound
  exact hfound

theorem Rewrote.refl : Rewrote oldEmail [] db db := by
  refine ⟨fun _ => rfl, fun id r hfind => ?_⟩
  rw [hfind]
  rfl

theorem Rewrote.cons (h : Rewrote oldEmail [st] db db₁) (h' : Rewrote oldEmail steps db₁ db')
    (hnew : ∀ st' ∈ steps, st'.inbound.id ≠ st.inbound.id) : Rewrote oldEmail (st :: steps) db db' := by
  constructor
  · intro i
    rw [h'.inbounds i, inboundAfter, inboundAfter, find?_cons]
    by_cases hi : st.inbound.id = i
    · have hnone : steps.find? (fun st' => st'.inbound.id == i) = none := by
        refine find?_eq_none.mpr fun st' hst' => ?_
        simpa [← hi] using hnew st' hst'
      rw [hnone, h.inbounds i, inboundAfter, find?_cons]
      simp only [hi, beq_self_eq_true]
    · rw [h.inbounds i, inboundAfter, find?_cons]
      simp only [beq_eq_false_iff_ne.mpr hi, find?_nil]
  · intro id r hfind
    have hmid := h.records id r hfind
    rw [h'.records id _ hmid, mergeAll_email, ← mergeAll_append, ← occurrences_append]
    simp only [named, flatMap_cons, flatMap_nil, append_nil, filter_append]

theorem updateInboundClient_step (hfind : db.inbounds.find i = some ib)
    (h : updateInboundClient o db i (clientWithInboundFlow client ib) oldEmail = .ok db₁) :
    Rewrote oldEmail [⟨ib, o, client⟩] db db₁ ∧ Admitted oldEmail ⟨ib, o, client⟩ := by
  obtain ⟨hmem, rfl⟩ := Table.mem_of_find hfind
  have hwire : (clientWithInboundFlow client ib).email = client.email ∧
      (clientWithInboundFlow client ib).subID = client.subID ∧
      credential ib.protocol (clientWithInboundFlow client ib) = credential ib.protocol client := by
    rw [clientWithInboundFlow]
    split
    · exact ⟨rfl, rfl, rfl⟩
    · refine ⟨rfl, rfl, ?_⟩
      cases ib.protocol <;> rfl
  obtain ⟨hemail, hsub, hcredential⟩ := hwire
  simp only [updateInboundClient, bind_ok, orErr_ok, check_ok, Option.isNone_iff_eq_none] at h
  obtain ⟨_, -, ib', hib, old, hlocated, _, -, _, hcheck, traffics, -, _, -, _, -, hsync⟩ := h
  obtain rfl := Option.some.inj (hfind.symm.trans hib)
  have hkeyed : credential ib.protocol client ≠ "" := by
    intro hblank
    rw [if_pos (hcredential.trans hblank)] at hlocated
    cases hlocated
  rw [if_neg (by rw [hcredential]; exact hkeyed)] at hlocated
  have hrewritten : Step.rewritten oldEmail ⟨ib, o, client⟩ =
      (ib.clients.getD []).set (Step.index ⟨ib, o, client⟩ oldEmail)
        (restampEntry o old (clientWithInboundFlow client ib)) := by
    rw [Step.rewritten]
    have hold : (Step.clients ⟨ib, o, client⟩)[Step.index ⟨ib, o, client⟩ oldEmail]? = some old := hlocated
    rw [hold]
    rfl
  refine ⟨⟨fun j => ?_, fun id r hr => ?_⟩, ⟨old, hlocated, ?_⟩, hkeyed⟩
  · rw [(syncInbound_ok hsync).1, saveClients, Table.find_modify, inboundAfter, find?_cons]
    by_cases hj : ib.id = j
    · subst hj
      simp only [beq_self_eq_true, hfind, Option.map_some, if_true]
      rw [hrewritten]
      rfl
    · simp only [beq_eq_false_iff_ne.mpr hj, find?_nil]
      cases hj' : db.inbounds.find j with
      | none => rfl
      | some ib' =>
        obtain ⟨-, hid⟩ := Table.mem_of_find hj'
        have hne : (ib'.id == ib.id) = false := by
          rw [hid]
          exact beq_eq_false_iff_ne.mpr (Ne.symm hj)
        simp only [Option.map_some, hne, Bool.false_eq_true, if_false]
  · have hstep := find_syncInbound hsync hr
    rw [hstep, flatMap_cons, flatMap_nil, append_nil, hrewritten]
    rfl
  · intro hne hnamed hsubbed c hc hlower
    rw [if_neg (by rw [hemail]; exact hne)] at hcheck
    have hexist := (checkEmailsExist_single (by rw [hemail]; exact hnamed) (by rw [hsub]; exact hsubbed)).mp
      hcheck c (mem_flatMap.mpr ⟨ib, hmem, hc⟩)
    rw [hemail, hsub] at hexist
    exact hexist hlower

theorem planned_congr (h : ∀ i ∈ ids, db₁.inbounds.find i = db.inbounds.find i) :
    plannedSteps env d db₁ k client ids = plannedSteps env d db k client ids := by
  induction ids generalizing k client with
  | nil => rfl
  | cons i ids ih =>
    obtain ⟨hi, hids⟩ := forall_mem_cons.mp h
    simp only [plannedSteps, hi]
    split
    · exact ih hids
    · rw [ih hids]

theorem mem_planned (h : st ∈ plannedSteps env d db k client ids) :
    st.inbound.id ∈ ids ∧ db.inbounds.find st.inbound.id = some st.inbound := by
  induction ids generalizing k client with
  | nil => cases h
  | cons i ids ih =>
    simp only [plannedSteps] at h
    split at h
    · obtain ⟨hmem, hfind⟩ := ih h
      exact ⟨mem_cons_of_mem _ hmem, hfind⟩
    case h_2 ib hib =>
      rcases mem_cons.mp h with rfl | h
      · obtain ⟨-, hid⟩ := Table.mem_of_find hib
        exact ⟨mem_cons.mpr (.inl hid), by rw [hid]; exact hib⟩
      · obtain ⟨hmem, hfind⟩ := ih h
        exact ⟨mem_cons_of_mem _ hmem, hfind⟩

theorem Rewrote.of_links {links : List ClientInbound}
    (h : Rewrote oldEmail steps { db with links } db') : Rewrote oldEmail steps db db' := by
  refine ⟨fun i => ?_, fun id r hfind => h.records id r hfind⟩
  rw [h.inbounds i, inboundAfter, inboundAfter]

theorem planned_covers (hi : i ∈ ids) (hib : db.inbounds.find i = some ib) :
    ∃ st ∈ plannedSteps env d db k client ids, st.inbound = ib := by
  induction ids generalizing k client with
  | nil => cases hi
  | cons j ids ih =>
    simp only [plannedSteps]
    rcases mem_cons.mp hi with rfl | hi
    · rw [hib]
      exact ⟨_, mem_cons_self, rfl⟩
    · split
      · exact ih hi
      · obtain ⟨st, hst, he⟩ := ih hi
        exact ⟨st, mem_cons_of_mem _ hst, he⟩

theorem planned_ids : ((plannedSteps env d db k client ids).map (·.inbound.id)).Sublist ids := by
  induction ids generalizing k client with
  | nil => exact List.Sublist.slnil
  | cons i ids ih =>
    simp only [plannedSteps]
    split
    case h_1 => exact ih.cons i
    case h_2 ib hib =>
      rw [map_cons, (Table.mem_of_find hib).2]
      exact ih.cons_cons i

theorem find_planned (hnodup : ids.Nodup) (hst : st ∈ plannedSteps env d db k client ids) :
    (plannedSteps env d db k client ids).find? (fun st' => st'.inbound.id == st.inbound.id) = some st := by
  cases hfind : (plannedSteps env d db k client ids).find? (fun st' => st'.inbound.id == st.inbound.id) with
  | none => exact absurd (find?_eq_none.mp hfind st hst) (by simp)
  | some st' =>
    have hid : st'.inbound.id = st.inbound.id := by simpa using find?_some hfind
    have hunique := hnodup.sublist (@planned_ids env d db ids client k)
    rw [inj_on_of_nodup_map hunique (mem_of_find?_eq_some hfind) hst hid]

theorem planned_links {links : List ClientInbound} :
    plannedSteps env d { db with links } k client ids = plannedSteps env d db k client ids :=
  planned_congr fun _ _ => rfl

theorem updateInInbounds_rewrote (hne : oldEmail ≠ "") (hnodup : ids.Nodup)
    {res : Except String Client} (h : updateInInbounds env d oldEmail clientId k db client ids = (db', res)) :
    ∃ done rest, plannedSteps env d db k client ids = done ++ rest ∧ Rewrote oldEmail done db db' ∧
      (∀ st ∈ done, Admitted oldEmail st) ∧ (res.isOk = true → rest = []) := by
  induction ids generalizing k db client with
  | nil =>
    simp only [updateInInbounds, Prod.mk.injEq] at h
    obtain ⟨rfl, -⟩ := h
    exact ⟨[], [], rfl, .refl, forall_mem_nil _, fun _ => rfl⟩
  | cons i ids ih =>
    obtain ⟨hi, hnodup⟩ := nodup_cons.mp hnodup
    simp only [updateInInbounds] at h
    split at h
    case h_1 hnone =>
      obtain ⟨done, rest, hplan, hrewrote, hadmitted, hall⟩ := ih hnodup h
      refine ⟨done, rest, ?_, hrewrote.of_links, hadmitted, hall⟩
      rw [planned_links] at hplan
      simp only [plannedSteps, hnone]
      exact hplan
    case h_2 ib hib =>
      rw [if_neg hne] at h
      split at h
      case h_1 e hrefused =>
        simp only [Prod.mk.injEq] at h
        obtain ⟨rfl, rfl⟩ := h
        exact ⟨[], _, rfl, .refl, forall_mem_nil _, fun hok => by cases hok⟩
      case h_2 db₁ hstep =>
        obtain ⟨hone, hadmitted⟩ := updateInboundClient_step hib hstep
        obtain ⟨done, rest, hplan, hrewrote, hrest, hall⟩ := ih hnodup h
        have hsame : ∀ j ∈ ids, db₁.inbounds.find j = db.inbounds.find j := by
          intro j hj
          obtain ⟨-, hid⟩ := Table.mem_of_find hib
          have hij : ib.id ≠ j := fun he => hi (hid ▸ he ▸ hj)
          rw [hone.inbounds j, inboundAfter, find?_cons]
          simp only [beq_eq_false_iff_ne.mpr hij, find?_nil]
        have hnew : ∀ st' ∈ done, st'.inbound.id ≠ ib.id := by
          intro st' hst' he
          have hmem := (mem_planned (hplan ▸ mem_append_left rest hst')).1
          rw [he, (Table.mem_of_find hib).2] at hmem
          exact hi hmem
        refine ⟨_ :: done, rest, ?_, hone.cons hrewrote hnew, forall_mem_cons.mpr ⟨hadmitted, hrest⟩, hall⟩
        simp only [plannedSteps, hib, cons_append]
        rw [← hplan, planned_congr hsame]

end step

section update

variable {env : Env} {d : Draws} {db db' : DB} {rec : ClientRecord} {updated : Client} {id : Int}
  {inboundFilter : List Int}

theorem find_renamed (hfind : db.records.find rec.recordId = some rec) (email : String) :
    (renamed db rec email).records.find rec.recordId = some { rec with email } := by
  rw [renamed]
  split
  case isTrue he =>
    rw [hfind, he]
  case isFalse =>
    rw [renameRecord, Table.find_modify, hfind]
    simp

theorem inbounds_renamed (email : String) : (renamed db rec email).inbounds = db.inbounds := by
  rw [renamed]
  split <;> rfl

theorem find_setReverse {r : ClientRecord} {reverse : Option String} {now : Int}
    (hfind : db.records.find id = some r) :
    (setReverse db id reverse now).records.find id = some { r with reverse, updatedAt := now } := by
  obtain ⟨-, rfl⟩ := Table.mem_of_find hfind
  rw [setReverse, Table.find_modify, hfind]
  simp

theorem mergeAll_subID {cs : List Client} {r : ClientRecord} :
    (mergeAll cs r).subID = (cs.getLast?.map (·.subID)).getD r.subID := by
  rw [mergeAll, foldl_field (g := fun c : Client => some c.subID) (fun r c => mergeRecord c r)
    (fun r : ClientRecord => r.subID) (fun _ _ => rfl), overwrite_eq, filterMap_eq_map', getLast?_map]

theorem update_ran (hfind : db.records.find id = some rec)
    (h : update env d db id updated inboundFilter = (db', .ok ())) :
    ∃ u, prepareUpdate d db rec updated = .ok u ∧ ∃ db₁ u',
      updateInInbounds env d rec.email rec.recordId 0 (renamed db rec u.email) u (targets db id inboundFilter) =
          (db₁, .ok u') ∧
        db' = setReverse db₁ rec.recordId (u'.reverse.filter (Text.trimSpace · != "")) d.now := by
  obtain ⟨-, rfl⟩ := Table.mem_of_find hfind
  simp only [update, hfind] at h
  cases hprepare : prepareUpdate d db rec updated with
  | error e =>
    rw [hprepare] at h
    cases h
  | ok u =>
    have hrenamed : (if u.email = rec.email then db else renameRecord db rec.recordId u.email) =
        renamed db rec u.email := rfl
    have htargets : (if inboundFilter = [] then db.inboundIdsOf rec.recordId
        else (db.inboundIdsOf rec.recordId).filter inboundFilter.contains) =
        targets db rec.recordId inboundFilter := rfl
    rw [hprepare] at h
    simp only [hrenamed, htargets] at h
    refine ⟨u, rfl, ?_⟩
    split at h
    · cases h
    · generalize hrun : updateInInbounds env d rec.email rec.recordId 0 (renamed db rec u.email) u
        (targets db rec.recordId inboundFilter) = run at h
      obtain ⟨db₁, res⟩ := run
      cases res with
      | error e => cases h
      | ok u' =>
        simp only [andThen] at h
        split at h
        · cases h
        · simp only [Prod.mk.injEq, and_true] at h
          exact ⟨db₁, u', rfl, h.symm⟩

end update

end Rewriting

end QuiPanel
