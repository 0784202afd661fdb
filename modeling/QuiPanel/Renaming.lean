import QuiPanel.Rotation

namespace QuiPanel

namespace Renaming

open Keyed Outcome Clients ListSync Rewriting
open Rotation (planned_named wire_named)

structure Unchanged (db db' : DB) (id : Int) : Prop where
  email : (db'.records.find id).map (·.email) = (db.records.find id).map (·.email)
  settings : ∀ i, db'.inbounds.find i = db.inbounds.find i

def Moved (db db' : DB) (rec : ClientRecord) (email : String) : Prop :=
  ∀ i ∈ db.inboundIdsOf rec.recordId, ∀ ib, db.inbounds.find i = some ib →
    (∃ c ∈ db'.settingsClients i, c.email = email) ∧ ∀ c ∈ db'.settingsClients i, c.email ≠ rec.email

section conditions

variable (env : Env) (d : Draws)

def SameUntilRefusal (oldEmail : String) (clientId : Int) : Nat → DB → Client → List Int → Prop
  | _, _, _, [] => True
  | k, db, updated, ibId :: ids =>
    match db.inbounds.find ibId with
    | none =>
      let links := db.links.filter fun l => !(l.clientId == clientId && l.inboundId == ibId)
      SameUntilRefusal oldEmail clientId (k + 1) { db with links } updated ids
    | some inbound =>
      if oldEmail = "" then SameUntilRefusal oldEmail clientId (k + 1) db updated ids
      else
        let updated := fillProtocolDefaults env (d.attempts k) updated inbound
        match updateInboundClient (d.attempts k) db ibId (clientWithInboundFlow updated inbound) oldEmail with
        | .error _ => True
        | .ok db' => inbound.clients = some (Step.rewritten oldEmail ⟨inbound, d.attempts k, updated⟩) ∧
            SameUntilRefusal oldEmail clientId (k + 1) db' updated ids

def SubIDTaken (db : DB) (id : Int) (subID : String) : Prop :=
  ∃ r ∈ db.records.rows, r.subID = subID ∧ r.recordId ≠ id

def Undisturbed (db : DB) (id : Int) (updated : Client) (inboundFilter : List Int) : Prop :=
  ∀ rec, db.records.find id = some rec → ∀ u, prepareUpdate d db rec updated = .ok u →
    u.email = rec.email ∧
      (SubIDTaken db id u.subID ∨ SameUntilRefusal env d rec.email id 0 db u (targets db id inboundFilter))

def Covered (db : DB) (rec : ClientRecord) (email : String) (inboundFilter : List Int) : Prop :=
  ∀ i ∈ db.inboundIdsOf rec.recordId, ∀ ib, db.inbounds.find i = some ib →
    if rec.email ≠ "" ∧ i ∈ targets db rec.recordId inboundFilter then
      ∀ j c, (ib.clients.getD [])[j]? = some c → c.email = rec.email →
        j = (ib.clients.getD []).findIdx fun c => Text.equalFold c.email rec.email
    else (∃ c ∈ ib.clients.getD [], c.email = email) ∧ ∀ c ∈ ib.clients.getD [], c.email ≠ rec.email

end conditions

section loop

variable {env : Env} {d : Draws} {db db' : DB} {oldEmail : String} {clientId id i : Int} {ids : List Int} {k : Nat}
  {client : Client} {r : ClientRecord} {res : Except String Client}

theorem loop_find (h : updateInInbounds env d oldEmail clientId k db client ids = (db', res)) (hi : i ∉ ids) :
    db'.inbounds.find i = db.inbounds.find i := by
  induction ids generalizing k db client with
  | nil =>
    cases h
    rfl
  | cons j ids ih =>
    obtain ⟨hij, hids⟩ := not_or.mp (mt List.mem_cons.mpr hi)
    simp only [updateInInbounds] at h
    split at h
    · have hrest := ih h hids
      exact hrest
    case h_2 ib hib =>
      split at h
      · exact ih h hids
      · split at h
        · cases h
          rfl
        case h_2 db₁ hstep =>
          obtain ⟨hone, -⟩ := updateInboundClient_step hib hstep
          have hother : (ib.id == i) = false := by
            rw [(Table.mem_of_find hib).2]
            exact beq_eq_false_iff_ne.mpr (Ne.symm hij)
          rw [ih h hids, hone.inbounds i, inboundAfter, List.find?_cons]
          simp only [hother, List.find?_nil]

theorem loop_email (h : updateInInbounds env d oldEmail clientId k db client ids = (db', res))
    (hfind : db.records.find id = some r) : (db'.records.find id).map (·.email) = some r.email := by
  induction ids generalizing k db client r with
  | nil =>
    cases h
    rw [hfind]
    rfl
  | cons j ids ih =>
    simp only [updateInInbounds] at h
    split at h
    · exact ih h hfind
    case h_2 ib hib =>
      split at h
      · exact ih h hfind
      · split at h
        · cases h
          rw [hfind]
          rfl
        case h_2 db₁ hstep =>
          obtain ⟨hone, -⟩ := updateInboundClient_step hib hstep
          exact (ih h (hone.records id r hfind)).trans (congrArg some mergeAll_email)

theorem loop_same_iff (hnodup : ids.Nodup)
    (h : updateInInbounds env d oldEmail clientId k db client ids = (db', res)) :
    (∀ i, db'.inbounds.find i = db.inbounds.find i) ↔
      SameUntilRefusal env d oldEmail clientId k db client ids := by
  induction ids generalizing k db client with
  | nil =>
    cases h
    exact iff_of_true (fun _ => rfl) trivial
  | cons j ids ih =>
    obtain ⟨hj, hids⟩ := List.nodup_cons.mp hnodup
    rw [updateInInbounds] at h
    rw [SameUntilRefusal]
    cases hib : db.inbounds.find j with
    | none =>
      rw [hib] at h
      exact ih hids h
    | some ib =>
      rw [hib] at h
      dsimp only at h ⊢
      by_cases hnamed : oldEmail = ""
      · rw [if_pos hnamed] at h ⊢
        exact ih hids h
      · rw [if_neg hnamed] at h ⊢
        cases hstep : updateInboundClient (d.attempts k) db j
            (clientWithInboundFlow (fillProtocolDefaults env (d.attempts k) client ib) ib) oldEmail with
        | error err =>
          rw [hstep] at h
          cases h
          exact iff_of_true (fun _ => rfl) trivial
        | ok db₁ =>
          rw [hstep] at h
          dsimp only at h ⊢
          obtain ⟨hone, -⟩ := updateInboundClient_step hib hstep
          have hid := (Table.mem_of_find hib).2
          have hat : db₁.inbounds.find j = some
              { ib with
                clients := some (Step.rewritten oldEmail
                  ⟨ib, d.attempts k, fillProtocolDefaults env (d.attempts k) client ib⟩) } := by
            rw [hone.inbounds j, inboundAfter, List.find?_cons]
            simp only [hid, beq_self_eq_true]
          have hother : ∀ i ≠ j, db₁.inbounds.find i = db.inbounds.find i := by
            intro i hi
            have hne : (ib.id == i) = false := by
              rw [hid]
              exact beq_eq_false_iff_ne.mpr (Ne.symm hi)
            rw [hone.inbounds i, inboundAfter, List.find?_cons]
            simp only [hne, List.find?_nil]
          have hsame : (∀ i, db₁.inbounds.find i = db.inbounds.find i) ↔ ib.clients = some
              (Step.rewritten oldEmail ⟨ib, d.attempts k, fillProtocolDefaults env (d.attempts k) client ib⟩) := by
            constructor
            · intro hall
              have hj := (hat.symm.trans (hall j)).trans hib
              exact (congrArg Inbound.clients (Option.some.inj hj)).symm
            · intro hclients i
              by_cases hi : i = j
              · rw [hi, hat, hib, ← hclients]
              · exact hother i hi
          rw [← hsame, ← ih hids h]
          constructor
          · intro hall
            have hj' : db'.inbounds.find j = db₁.inbounds.find j := loop_find h hj
            have hmid : ∀ i, db₁.inbounds.find i = db.inbounds.find i := by
              intro i
              by_cases hi : i = j
              · rw [hi, ← hj', hall j]
              · exact hother i hi
            exact ⟨hmid, fun i => (hall i).trans (hmid i).symm⟩
          · rintro ⟨hmid, hrest⟩ i
            exact (hrest i).trans (hmid i)

theorem loop_nameless (h : updateInInbounds env d "" clientId k db client ids = (db', res)) :
    ∀ i, db'.inbounds.find i = db.inbounds.find i := by
  induction ids generalizing k db client with
  | nil =>
    cases h
    exact fun _ => rfl
  | cons j ids ih =>
    simp only [updateInInbounds] at h
    split at h
    · have hrest := ih h
      exact hrest
    · exact ih h

end loop

section update

variable {env : Env} {d : Draws} {db db' : DB} {rec : ClientRecord} {updated u : Client} {id : Int}
  {inboundFilter : List Int} {err : String}

theorem subIDTaken_renamed {email sub : String} : (renamed db rec email).records.rows.any
    (fun r => r.subID == sub && r.recordId != id) = true ↔ SubIDTaken db id sub := by
  rw [SubIDTaken, renamed]
  split
  case isTrue => simp
  case isFalse =>
    rw [renameRecord, Table.rows_modify, List.any_map, List.any_eq_true]
    have hsame : ∀ r : ClientRecord,
        (if r.recordId == rec.recordId then { r with email } else r).subID = r.subID ∧
        (if r.recordId == rec.recordId then { r with email } else r).recordId = r.recordId := by
      intro r
      split <;> exact ⟨rfl, rfl⟩
    refine exists_congr fun r => and_congr_right fun _ => ?_
    rw [Function.comp_apply, (hsame r).1, (hsame r).2, Bool.and_eq_true, beq_iff_eq, bne_iff_ne]

theorem update_refused (hfind : db.records.find id = some rec) (hu : prepareUpdate d db rec updated = .ok u)
    (h : update env d db id updated inboundFilter = (db', .error err)) :
    SubIDTaken db id u.subID ∧ db' = renamed db rec u.email ∨
      ¬SubIDTaken db id u.subID ∧ ∃ res, updateInInbounds env d rec.email id 0 (renamed db rec u.email) u
        (targets db id inboundFilter) = (db', res) := by
  obtain ⟨-, rfl⟩ := Table.mem_of_find hfind
  have hrenamed : (if u.email = rec.email then db else renameRecord db rec.recordId u.email) =
      renamed db rec u.email := rfl
  have htargets : (if inboundFilter = [] then db.inboundIdsOf rec.recordId
      else (db.inboundIdsOf rec.recordId).filter inboundFilter.contains) =
      targets db rec.recordId inboundFilter := rfl
  simp only [update, hfind, hu, hrenamed, htargets] at h
  split at h
  case isTrue htaken =>
    cases h
    exact .inl ⟨subIDTaken_renamed.mp htaken, rfl⟩
  case isFalse hfree =>
    refine .inr ⟨mt subIDTaken_renamed.mpr hfree, ?_⟩
    generalize updateInInbounds env d rec.email rec.recordId 0 (renamed db rec u.email) u
      (targets db rec.recordId inboundFilter) = run at h
    obtain ⟨db₁, res⟩ := run
    refine ⟨res, ?_⟩
    cases res with
    | error e =>
      cases h
      rfl
    | ok u' =>
      simp only [andThen] at h
      split at h
      · cases h
        rfl
      · cases h

theorem update_early (hfind : db.records.find id = some rec) (hu : prepareUpdate d db rec updated = .error err) :
    update env d db id updated inboundFilter = (db, .error err) := by
  simp only [update, hfind, hu]

theorem targets_nodup (hlinks : (db.inboundIdsOf id).Nodup) : (targets db id inboundFilter).Nodup := by
  rw [targets]
  split
  · exact hlinks
  · exact hlinks.filter _

theorem renamed_same : renamed db rec rec.email = db := if_pos rfl

theorem refused_iff (hlinks : (db.inboundIdsOf id).Nodup)
    (h : update env d db id updated inboundFilter = (db', .error err)) :
    Unchanged db db' id ↔ Undisturbed env d db id updated inboundFilter := by
  cases hfind : db.records.find id with
  | none =>
    simp only [update, hfind, Prod.mk.injEq] at h
    obtain ⟨rfl, -⟩ := h
    refine iff_of_true ⟨rfl, fun _ => rfl⟩ fun rec hrec => ?_
    rw [hfind] at hrec
    cases hrec
  | some rec =>
    cases hu : prepareUpdate d db rec updated with
    | error e =>
      rw [update_early hfind hu, Prod.mk.injEq] at h
      obtain ⟨rfl, -⟩ := h
      refine iff_of_true ⟨rfl, fun _ => rfl⟩ fun rec' hrec u hu' => ?_
      obtain rfl := Option.some.inj (hfind.symm.trans hrec)
      rw [hu] at hu'
      cases hu'
    | ok u =>
      have hunfold : Undisturbed env d db id updated inboundFilter ↔ u.email = rec.email ∧
          (SubIDTaken db id u.subID ∨
            SameUntilRefusal env d rec.email id 0 db u (targets db id inboundFilter)) := by
        constructor
        · exact fun hall => hall rec hfind u hu
        · intro hboth rec' hrec u' hu'
          obtain rfl := Option.some.inj (hfind.symm.trans hrec)
          obtain rfl := Except.ok.inj (hu.symm.trans hu')
          exact hboth
      rw [hunfold]
      have hrecord : (db.records.find id).map (·.email) = some rec.email := by rw [hfind]; rfl
      have hid := (Table.mem_of_find hfind).2
      have hmid := find_renamed (hid ▸ hfind) u.email
      rw [hid] at hmid
      rcases update_refused hfind hu h with ⟨htaken, rfl⟩ | ⟨hfree, res, hloop⟩
      · constructor
        · intro hsame
          have hemail := hsame.email
          rw [hmid, hrecord] at hemail
          exact ⟨Option.some.inj hemail, .inl htaken⟩
        · rintro ⟨hemail, -⟩
          rw [hemail, renamed_same]
          exact ⟨rfl, fun _ => rfl⟩
      · have hkept := loop_email hloop hmid
        constructor
        · intro hsame
          have hemail := hsame.email
          rw [hkept, hrecord] at hemail
          have hemail : u.email = rec.email := Option.some.inj hemail
          rw [hemail, renamed_same] at hloop
          exact ⟨hemail, .inr ((loop_same_iff (targets_nodup hlinks) hloop).mp hsame.settings)⟩
        · rintro ⟨hemail, htaken | hsame⟩
          · exact absurd htaken hfree
          · rw [hemail, renamed_same] at hloop
            refine ⟨?_, (loop_same_iff (targets_nodup hlinks) hloop).mpr hsame⟩
            rw [hkept, hrecord]
            exact congrArg some hemail

theorem mem_set_iff {α : Type} {l : List α} {n : Nat} {x : α} {P : α → Prop} (hx : ¬P x) :
    (∀ c ∈ l.set n x, ¬P c) ↔ ∀ j c, l[j]? = some c → P c → j = n := by
  constructor
  · intro hnone j c hj hc
    by_contra hne
    refine hnone c (List.mem_iff_getElem?.mpr ⟨j, ?_⟩) hc
    rw [List.getElem?_set_ne (Ne.symm hne)]
    exact hj
  · intro honly c hc hp
    obtain ⟨j, hj⟩ := List.mem_iff_getElem?.mp hc
    by_cases hne : n = j
    · subst hne
      rw [List.getElem?_set] at hj
      split at hj
      · split at hj
        · obtain rfl := Option.some.inj hj
          exact hx hp
        · cases hj
      case isFalse hself => exact hself rfl
    · rw [List.getElem?_set_ne hne] at hj
      exact hne (honly j c hj hp).symm

theorem targeted (hne : rec.email ≠ "") (hlinks : (db.inboundIdsOf id).Nodup) {db₁ : DB} {u' : Client}
    (hloop : updateInInbounds env d rec.email id 0 (renamed db rec u.email) u (targets db id inboundFilter) =
      (db₁, .ok u')) {i : Int} {ib : Inbound} (hib : db.inbounds.find i = some ib)
    (hi : i ∈ targets db id inboundFilter) (hnew : u.email ≠ rec.email) :
    (∃ c ∈ db₁.settingsClients i, c.email = u.email) ∧
      ((∀ c ∈ db₁.settingsClients i, c.email ≠ rec.email) ↔ ∀ j c,
        (ib.clients.getD [])[j]? = some c → c.email = rec.email →
          j = (ib.clients.getD []).findIdx fun c => Text.equalFold c.email rec.email) := by
  obtain ⟨done, rest, hplan, hrewrote, hadmitted, hall⟩ :=
    updateInInbounds_rewrote hne (targets_nodup hlinks) hloop
  obtain rfl := hall rfl
  rw [List.append_nil] at hplan
  have hib' : (renamed db rec u.email).inbounds.find i = some ib := by
    rw [inbounds_renamed]
    exact hib
  obtain ⟨st, hst, rfl⟩ := @planned_covers env d _ i _ u ib 0 hi hib'
  have hat := @find_planned env d _ _ u st 0 (targets_nodup hlinks) hst
  have hemail := (planned_named hst).1
  rw [hplan] at hst hat
  obtain ⟨old, hlocated, -⟩ := (hadmitted st hst).located
  have hid := (Table.mem_of_find hib).2
  have hclients : db₁.settingsClients i =
      st.clients.set (st.index rec.email) (restampEntry st.attempt old st.wire) := by
    have hfind := hrewrote.inbounds i
    rw [inboundAfter, ← hid, hat] at hfind
    rw [← hid, settingsClients_find hfind, Option.getD_some, Step.rewritten, hlocated]
  have hwire : (restampEntry st.attempt old st.wire).email = u.email := wire_named.1.trans hemail
  rw [hclients]
  refine ⟨⟨_, List.mem_set (List.getElem?_eq_some_iff.mp hlocated).1 _, hwire⟩, ?_⟩
  exact mem_set_iff (P := fun c : Client => c.email = rec.email) (by rw [hwire]; exact hnew)

theorem moved_iff (hlinks : (db.inboundIdsOf id).Nodup) (hfind : db.records.find id = some rec)
    (hnew : updated.email ≠ rec.email) (h : update env d db id updated inboundFilter = (db', .ok ())) :
    Moved db db' rec updated.email ↔ Covered db rec updated.email inboundFilter := by
  obtain ⟨u, hu, db₁, u', hloop, rfl⟩ := update_ran hfind h
  obtain ⟨-, rfl⟩ := Table.mem_of_find hfind
  rw [← prepareUpdate_email hu] at hnew ⊢
  have hskipped : ∀ i ib, db.inbounds.find i = some ib →
      ¬(rec.email ≠ "" ∧ i ∈ targets db rec.recordId inboundFilter) →
      db₁.settingsClients i = ib.clients.getD [] := by
    intro i ib hib hnot
    have hsame : db₁.inbounds.find i = (renamed db rec u.email).inbounds.find i := by
      by_cases hblank : rec.email = ""
      · rw [hblank] at hloop
        exact loop_nameless hloop i
      · exact loop_find hloop fun hi => hnot ⟨hblank, hi⟩
    rw [inbounds_renamed, hib] at hsame
    exact settingsClients_find hsame
  refine forall_congr' fun i => forall_congr' fun hi => forall_congr' fun ib => forall_congr' fun hib => ?_
  have hreversed : (setReverse db₁ rec.recordId (u'.reverse.filter (Text.trimSpace · != ""))
      d.now).settingsClients i = db₁.settingsClients i := rfl
  rw [hreversed]
  split
  case isTrue htarget =>
    obtain ⟨hcarried, hdropped⟩ := targeted htarget.1 hlinks hloop hib htarget.2 hnew
    rw [and_iff_right hcarried, hdropped]
  case isFalse hskip => rw [hskipped i ib hib hskip]

theorem update_all_or_nothing_iff (env : Env) (d : Draws) (db : DB) (id : Int) (updated : Client)
    (inboundFilter : List Int) (hlinks : (db.inboundIdsOf id).Nodup) :
    (∀ db' err, update env d db id updated inboundFilter = (db', .error err) →
      (Unchanged db db' id ↔ Undisturbed env d db id updated inboundFilter)) ∧
    (∀ db' rec, db.records.find id = some rec → updated.email ≠ rec.email →
      update env d db id updated inboundFilter = (db', .ok ()) →
      (Moved db db' rec updated.email ↔ Covered db rec updated.email inboundFilter)) :=
  ⟨fun _ _ h => refused_iff hlinks h, fun _ _ hfind hnew h => moved_iff hlinks hfind hnew h⟩

end update

section examples

open Rotation (anyKey draws subscriber)

def bob : Client := { subscriber "u2" with email := "bob", subID := "s2" }

def twoClients : DB where
  inbounds := Table.empty.insert
    (fun id => ⟨id, .vless, none, "", true, some [subscriber "u1"]⟩) Rotation.subscribed_keyed
  records := (Table.empty.insert
    (fun recordId => { subscriber "u1" with recordId, ownerId := 0, tenantId := 0 }) (Rotation.recorded_keyed "u1")).insert
    (fun recordId => { bob with recordId, ownerId := 0, tenantId := 0 }) fun _ => rfl
  links := [⟨1, 1, ""⟩]
  traffics := []

def takeover : Client := { subscriber "u1" with email := "carol", subID := "s2" }

theorem refused_update_renames : ¬ ∀ env d db id updated inboundFilter, (db.inboundIdsOf id).Nodup →
    (∀ db' err, update env d db id updated inboundFilter = (db', .error err) → Unchanged db db' id) ∧
    (∀ db' rec, db.records.find id = some rec → updated.email ≠ rec.email →
      update env d db id updated inboundFilter = (db', .ok ()) → Moved db db' rec updated.email) := by
  intro hclaim
  have hsame := (hclaim anyKey draws twoClients 1 takeover [] (by decide)).1
    (update anyKey draws twoClients 1 takeover []).1 errSubIdInUse rfl
  have hemail : some "carol" = some "alice" := hsame.email
  exact absurd hemail (by decide)

theorem update_all_or_nothing_takeover :
    Unchanged twoClients (update anyKey draws twoClients 1 takeover []).1 1 ↔
      Undisturbed anyKey draws twoClients 1 takeover [] :=
  (update_all_or_nothing_iff anyKey draws twoClients 1 takeover [] (by decide)).1 _ errSubIdInUse rfl

end examples

end Renaming

end QuiPanel
