import QuiPanel.Rewriting

namespace QuiPanel

namespace Rotation

open List hiding rotate
open Keyed Outcome Clients ListSync Rewriting Overwrite
open Credentials (Secret asks)

def held (db : DB) (i : Int) (email : String) : Option Client :=
  (db.settingsClients i).find? fun c => Text.equalFold c.email email

structure Revoked (db db' : DB) (rec rec' : ClientRecord) : Prop where
  subID : rec'.subID ≠ rec.subID
  secret : ∀ i ∈ db.inboundIdsOf rec.recordId, ∀ ib, db.inbounds.find i = some ib →
    ∀ s, asks ib.protocol = some s → ∃ old new, held db i rec.email = some old ∧
      held db' i rec'.email = some new ∧ s.of new ≠ s.of old ∧ s.of rec'.toClient = s.of new

def Draw (o : Attempt) (v : String) : Prop :=
  v = o.uuid.val ∨ v = o.secret.val ∨ ∃ method, v = (o.shadowsocksKey method).val

structure Fresh (d : Draws) (db : DB) : Prop where
  subID : ∀ i, ∀ c ∈ db.settingsClients i, c.subID ≠ d.subID.val
  secret : ∀ k v, Draw (d.attempts k) v → ∀ i, ∀ c ∈ db.settingsClients i, ∀ s : Secret, s.of c ≠ v

def restored (d : Draws) (rec : ClientRecord) (opts : RotateOptions) : Client :=
  { rotated d rec opts with
    updatedAt := d.now, createdAt := rec.createdAt, id := rec.id, password := rec.password, auth := rec.auth }

def rejects (env : Env) (ib : Inbound) (c : Client) : Bool :=
  match ib.protocol with
  | .vmess | .vless => c.id == ""
  | .trojan => c.password == ""
  | .shadowsocks => c.password == "" || !env.validShadowsocksClientKey ib.method c.password
  | .hysteria => c.auth == ""
  | _ => false

section condition

variable (env : Env) (d : Draws) (db : DB) (rec : ClientRecord) (opts : RotateOptions)

def newEmail : String := (rotated d rec opts).email

def steps : List Step := plannedSteps env d db 0 (restored d rec opts) (db.inboundIdsOf rec.recordId)

def entriesListed : List Client :=
  occurrences (named ((steps env d db rec opts).flatMap (·.rewritten rec.email))) (newEmail d rec opts)

structure Renews : Prop where
  listed : ∃ last, (entriesListed env d db rec opts).getLast? = some last ∧ last.subID ≠ rec.subID
  renewed : ∀ earlier st later, steps env d db rec opts = earlier ++ st :: later →
    ∀ s, asks st.inbound.protocol = some s → ∀ old, st.clients[st.index rec.email]? = some old →
      s.of rec.toClient ≠ s.of old ∨
        ∃ st' ∈ earlier ++ [st], asks st'.inbound.protocol = some s ∧ rejects env st'.inbound rec.toClient
  stored : ∀ st ∈ steps env d db rec opts, ∀ s, asks st.inbound.protocol = some s →
    overwrite (fun c => nonEmpty (s.of c)) (s.of rec.toClient) (entriesListed env d db rec opts) =
      s.of st.client

end condition

section filling

variable {env : Env} {d : Draws} {o : Attempt} {db : DB} {ib : Inbound} {c c' : Client} {s s' : Secret}
  {ids : List Int} {k : Nat} {st : Step} {earlier later : List Step}

theorem rejects_congr (hs : asks ib.protocol = some s) (h : s.of c = s.of c') :
    rejects env ib c = rejects env ib c' := by
  rw [rejects, rejects]
  cases hp : ib.protocol <;> rw [hp] at hs <;> cases hs <;> simp only [Secret.of] at h <;> rw [h]

theorem fill_rejected (hs : asks ib.protocol = some s) (h : rejects env ib c = true) :
    Draw o (s.of (fillProtocolDefaults env o c ib)) := by
  rw [rejects] at h
  rw [fillProtocolDefaults]
  cases hp : ib.protocol <;> rw [hp] at hs h <;> cases hs <;> simp only at h ⊢
  case vmess => rw [if_pos (by simpa using h)]; exact .inl rfl
  case vless => rw [if_pos (by simpa using h)]; exact .inl rfl
  case trojan => rw [if_pos (by simpa using h)]; exact .inr (.inl rfl)
  case shadowsocks => rw [if_pos (by simpa using h)]; exact .inr (.inr ⟨ib.method, rfl⟩)
  case hysteria => rw [if_pos (by simpa using h)]; exact .inr (.inl rfl)

theorem fill_kept (h : asks ib.protocol = some s → rejects env ib c = false) :
    s.of (fillProtocolDefaults env o c ib) = s.of c := by
  rw [rejects] at h
  rw [fillProtocolDefaults]
  cases hp : ib.protocol <;> rw [hp] at h <;> cases s <;> simp only [asks, Secret.of] at h ⊢
  all_goals split <;> simp_all

theorem planned_named (h : st ∈ plannedSteps env d db k c ids) :
    st.client.email = c.email ∧ st.client.subID = c.subID := by
  induction ids generalizing k c with
  | nil => cases h
  | cons i ids ih =>
    simp only [plannedSteps] at h
    split at h
    · exact ih h
    case h_2 ib _ =>
      obtain ⟨hemail, hsub⟩ := fillProtocolDefaults_keeps env (d.attempts k) c ib
      rcases mem_cons.mp h with rfl | h
      · exact ⟨hemail, hsub⟩
      · obtain ⟨hemail', hsub'⟩ := ih h
        exact ⟨hemail'.trans hemail, hsub'.trans hsub⟩

theorem planned_secret (h : st ∈ plannedSteps env d db k c ids) :
    s.of st.client = s.of c ∨ ∃ n, Draw (d.attempts n) (s.of st.client) := by
  induction ids generalizing k c with
  | nil => cases h
  | cons i ids ih =>
    simp only [plannedSteps] at h
    split at h
    · exact ih h
    case h_2 ib _ =>
      have hhead : s.of (fillProtocolDefaults env (d.attempts k) c ib) = s.of c ∨
          ∃ n, Draw (d.attempts n) (s.of (fillProtocolDefaults env (d.attempts k) c ib)) := by
        by_cases hreject : asks ib.protocol = some s ∧ rejects env ib c = true
        · exact .inr ⟨k, fill_rejected hreject.1 hreject.2⟩
        · refine .inl (fill_kept fun hs => ?_)
          exact Bool.eq_false_iff.mpr fun hr => hreject ⟨hs, hr⟩
      rcases mem_cons.mp h with rfl | h
      · exact hhead
      · rcases ih h with hsame | hdrawn
        · rw [hsame]
          exact hhead
        · exact .inr hdrawn

theorem planned_kept (h : plannedSteps env d db k c ids = earlier ++ st :: later)
    (hkept : ∀ st' ∈ earlier ++ [st], asks st'.inbound.protocol = some s → rejects env st'.inbound c = false) :
    s.of st.client = s.of c := by
  induction ids generalizing k c earlier with
  | nil => exact absurd h.symm (by simp [plannedSteps])
  | cons i ids ih =>
    simp only [plannedSteps] at h
    split at h
    · exact ih h hkept
    case h_2 ib _ =>
      cases earlier with
      | nil =>
        obtain ⟨rfl, -⟩ := List.cons.inj h
        exact fill_kept (hkept _ (mem_singleton_self _))
      | cons first earlier =>
        obtain ⟨rfl, htail⟩ := List.cons.inj h
        have hhead : s.of (fillProtocolDefaults env (d.attempts k) c ib) = s.of c :=
          fill_kept (hkept _ mem_cons_self)
        rw [← hhead]
        refine ih htail fun st' hst' hs => ?_
        rw [rejects_congr hs hhead]
        exact hkept st' (mem_cons_of_mem _ hst') hs

theorem planned_renewed (h : plannedSteps env d db k c ids = earlier ++ st :: later) {st' : Step}
    (hst' : st' ∈ earlier ++ [st]) (hs : asks st'.inbound.protocol = some s)
    (hreject : rejects env st'.inbound c = true) : ∃ n, Draw (d.attempts n) (s.of st.client) := by
  induction ids generalizing k c earlier with
  | nil => exact absurd h.symm (by simp [plannedSteps])
  | cons i ids ih =>
    simp only [plannedSteps] at h
    split at h
    · exact ih h hst' hreject
    case h_2 ib _ =>
      by_cases hhead : asks ib.protocol = some s ∧ rejects env ib c = true
      · have hdraw := fill_rejected (o := d.attempts k) hhead.1 hhead.2
        cases earlier with
        | nil =>
          obtain ⟨rfl, -⟩ := List.cons.inj h
          exact ⟨k, hdraw⟩
        | cons first earlier =>
          obtain ⟨rfl, htail⟩ := List.cons.inj h
          have hmem : st ∈ plannedSteps env d db (k + 1) (fillProtocolDefaults env (d.attempts k) c ib) ids := by
            rw [htail]
            exact mem_append_right earlier mem_cons_self
          rcases planned_secret (s := s) hmem with hsame | hdrawn
          · rw [hsame]
            exact ⟨k, hdraw⟩
          · exact hdrawn
      · have hkept : s.of (fillProtocolDefaults env (d.attempts k) c ib) = s.of c :=
          fill_kept fun hs => Bool.eq_false_iff.mpr fun hr => hhead ⟨hs, hr⟩
        cases earlier with
        | nil =>
          obtain ⟨rfl, -⟩ := List.cons.inj h
          obtain rfl := mem_singleton.mp hst'
          exact absurd ⟨hs, hreject⟩ hhead
        | cons first earlier =>
          obtain ⟨rfl, htail⟩ := List.cons.inj h
          rcases mem_cons.mp hst' with rfl | hst'
          · exact absurd ⟨hs, hreject⟩ hhead
          · refine ih htail hst' ?_
            rw [rejects_congr hs hkept]
            exact hreject

theorem renewed_iff {old : Client} (hdraw : ∀ n v, Draw (d.attempts n) v → s.of old ≠ v)
    (h : plannedSteps env d db k c ids = earlier ++ st :: later) :
    s.of st.client ≠ s.of old ↔ s.of c ≠ s.of old ∨
      ∃ st' ∈ earlier ++ [st], asks st'.inbound.protocol = some s ∧ rejects env st'.inbound c = true := by
  by_cases hany : ∃ st' ∈ earlier ++ [st], asks st'.inbound.protocol = some s ∧ rejects env st'.inbound c = true
  · obtain ⟨st', hst', hs, hreject⟩ := hany
    obtain ⟨n, hdrawn⟩ := planned_renewed h hst' hs hreject
    exact iff_of_true (hdraw n _ hdrawn).symm (.inr ⟨st', hst', hs, hreject⟩)
  · have hsame : s.of st.client = s.of c := planned_kept h fun st' hst' hs =>
      Bool.eq_false_iff.mpr fun hr => hany ⟨st', hst', hs, hr⟩
    rw [hsame, or_iff_left hany]

end filling

section holding

variable {st : Step} {oldEmail : String} {old : Client} {l : List Client} {p q : Client → Bool} {new : Client}

theorem find_set (hnew : q new = true) (hlt : l.findIdx p < l.length)
    (hskip : ∀ c ∈ l, p c = false → q c = false) : (l.set (l.findIdx p) new).find? q = some new := by
  have hbefore : (l.take (l.findIdx p)).find? q = none := by
    refine find?_eq_none.mpr fun c hc => ?_
    obtain ⟨j, hj, rfl⟩ := getElem_of_mem hc
    rw [getElem_take]
    rw [length_take] at hj
    have hlt' : j < l.findIdx p := by omega
    have hp := not_of_lt_findIdx hlt'
    simp [hskip _ (getElem_mem _) (by simpa using hp)]
  rw [set_eq_take_append_cons_drop, if_pos hlt, find?_append, hbefore, Option.none_or,
    find?_cons_of_pos hnew]

theorem toLower_eq_iff {s t : String} : Text.toLower s = Text.toLower t ↔ Text.equalFold s t = true := by
  simp [Text.toLower, Text.equalFold, String.ofList_inj]

theorem equalFold_trans {s t u : String} (h : Text.equalFold s t = true) (h' : Text.equalFold t u = true) :
    Text.equalFold s u = true := by
  rw [← toLower_eq_iff] at *
  exact h.trans h'

theorem wire_named : st.wire.email = st.client.email ∧ st.wire.subID = st.client.subID := by
  rw [Step.wire, clientWithInboundFlow]
  split <;> exact ⟨rfl, rfl⟩

theorem rewritten_held (h : Admitted oldEmail st) (hnamed : st.client.email ≠ "")
    (hsub : st.client.subID ≠ "") (hfresh : ∀ c ∈ st.clients, c.subID ≠ st.client.subID) :
    ∃ old, st.clients[st.index oldEmail]? = some old ∧
      (st.rewritten oldEmail).find? (fun c => Text.equalFold c.email st.client.email) =
        some (restampEntry st.attempt old st.wire) := by
  obtain ⟨old, hold, hunused⟩ := h.located
  refine ⟨old, hold, ?_⟩
  obtain ⟨hlt, hget⟩ := List.getElem?_eq_some_iff.mp hold
  have hmatch : Text.equalFold old.email oldEmail = true := by
    rw [← hget]
    exact findIdx_getElem (p := fun c : Client => Text.equalFold c.email oldEmail) (w := hlt)
  rw [Step.rewritten, hold]
  refine find_set ?_ hlt fun c hc hother => ?_
  · have hemail : (restampEntry st.attempt old st.wire).email = st.client.email := wire_named.1
    rw [hemail]
    exact beq_self_eq_true _
  · by_contra hsame
    rw [Bool.not_eq_false] at hsame
    by_cases heq : st.client.email = old.email
    · have hfold := equalFold_trans (heq ▸ hsame) hmatch
      rw [hother] at hfold
      cases hfold
    · exact hfresh c hc (hunused heq hnamed hsub c hc (toLower_eq_iff.mpr hsame))

end holding

section rotating

theorem secret_mem_texts (s : Secret) : s.of ∈ texts := by
  cases s with
  | id => exact mem_cons_self
  | password => exact mem_cons_of_mem _ mem_cons_self
  | auth => exact mem_cons_of_mem _ (mem_cons_of_mem _ mem_cons_self)

variable {env : Env} {d : Draws} {db db' : DB} {rec rec' : ClientRecord} {opts : RotateOptions} {email : String}
  {u : Client} {s : Secret}

theorem prepareUpdate_rotated (hregen : opts.regenerate = true)
    (h : prepareUpdate d db rec (rotated d rec opts) = .ok u) :
    u = restored d rec opts ∧ Text.trimSpace (newEmail d rec opts) ≠ "" := by
  have hsub : (rotated d rec opts).subID = d.subID.val := by simp [rotated, hregen]
  have hid : (rotated d rec opts).id = "" := by simp [rotated, hregen]
  have hpassword : (rotated d rec opts).password = "" := by simp [rotated, hregen]
  have hauth : (rotated d rec opts).auth = "" := by simp [rotated, hregen]
  have hcreated : (rotated d rec opts).createdAt = rec.createdAt := by
    simp only [rotated, hregen, if_true]
    split <;> rfl
  simp only [prepareUpdate, bind_ok, check_ok] at h
  obtain ⟨_, hnamed, _, -, _, -, _, -, h⟩ := h
  cases h
  refine ⟨?_, by simpa [newEmail] using hnamed⟩
  simp only [hsub, hid, hpassword, hauth, hcreated, d.subID.property.1, if_true, if_false, ite_self]
  rw [restored, ← hsub]

theorem rotate_ran (hrec : db.record email = some rec) (hregen : opts.regenerate = true)
    (h : rotate env d db email opts = (db', .ok ())) :
    rec.email ≠ "" ∧ Text.trimSpace (newEmail d rec opts) ≠ "" ∧ ∃ db₁ u,
      updateInInbounds env d rec.email rec.recordId 0 (renamed db rec (newEmail d rec opts))
          (restored d rec opts) (db.inboundIdsOf rec.recordId) = (db₁, .ok u) ∧
        db' = setReverse db₁ rec.recordId (u.reverse.filter (Text.trimSpace · != "")) d.now := by
  have hmem := mem_of_find?_eq_some hrec
  have hemail : rec.email = email := by simpa using find?_some hrec
  rw [rotate, hrec] at h
  simp only [updateByEmail, hrec] at h
  by_cases hne : email = ""
  · rw [if_pos hne] at h
    cases h
  · rw [if_neg hne] at h
    obtain ⟨u, hprepare, db₁, u', hrun, rfl⟩ := update_ran (Table.find_of_mem hmem) h
    obtain ⟨rfl, hnamed⟩ := prepareUpdate_rotated hregen hprepare
    exact ⟨hemail ▸ hne, hnamed, db₁, u', hrun, rfl⟩

structure Rotated (env : Env) (d : Draws) (db db' : DB) (rec : ClientRecord) (opts : RotateOptions) : Prop where
  inbounds : ∀ i, db'.inbounds.find i = inboundAfter rec.email (steps env d db rec opts) db i
  admitted : ∀ st ∈ steps env d db rec opts, Admitted rec.email st
  record : ∃ rec', db'.records.find rec.recordId = some rec' ∧ rec'.email = newEmail d rec opts ∧
    rec'.subID = ((entriesListed env d db rec opts).getLast?.map (·.subID)).getD rec.subID ∧
    ∀ s : Secret, s.of rec'.toClient =
      overwrite (fun c => nonEmpty (s.of c)) (s.of rec.toClient) (entriesListed env d db rec opts)

theorem rotated_of_ok (hlinks : (db.inboundIdsOf rec.recordId).Nodup) (hrec : db.record email = some rec)
    (hregen : opts.regenerate = true) (h : rotate env d db email opts = (db', .ok ())) :
    Rotated env d db db' rec opts := by
  have hfind := Table.find_of_mem (mem_of_find?_eq_some hrec)
  obtain ⟨hne, hnamed, db₁, u, hrun, rfl⟩ := rotate_ran hrec hregen h
  obtain ⟨done, rest, hplan, hrewrote, hadmitted, hall⟩ := updateInInbounds_rewrote hne hlinks hrun
  obtain rfl := hall rfl
  have hsteps : steps env d db rec opts = done := by
    rw [steps, ← append_nil done, ← hplan]
    refine (planned_congr fun i _ => ?_).symm
    rw [inbounds_renamed]
  refine ⟨fun i => ?_, hsteps ▸ hadmitted, ?_⟩
  · rw [hsteps]
    refine (hrewrote.inbounds i).trans ?_
    rw [inboundAfter, inboundAfter, inbounds_renamed]
  · have hmid := hrewrote.records _ _ (find_renamed hfind (newEmail d rec opts))
    rw [← hsteps] at hmid
    refine ⟨_, find_setReverse hmid, mergeAll_email, mergeAll_subID, fun s => ?_⟩
    have hmerged : s.of (mergeAll (entriesListed env d db rec opts)
          { rec with email := newEmail d rec opts }).toClient =
        overwrite (fun c => nonEmpty (s.of c)) (s.of { rec with email := newEmail d rec opts }.toClient)
          (entriesListed env d db rec opts) := mergeAll_text (secret_mem_texts s)
    cases s with
    | id => exact hmerged
    | password => exact hmerged
    | auth => exact hmerged

theorem restamp_secret (o : Attempt) (old : Client) (st : Step) :
    s.of (restampEntry o old st.wire) = s.of st.client := by
  rw [Credentials.restampEntry_secret, Step.wire, Credentials.clientWithInboundFlow_secret]

theorem step_held (hlinks : (db.inboundIdsOf rec.recordId).Nodup) (hfresh : Fresh d db)
    (hregen : opts.regenerate = true) (hnamed : newEmail d rec opts ≠ "")
    (h : Rotated env d db db' rec opts) {st : Step} (hst : st ∈ steps env d db rec opts) :
    ∃ old new, st.clients[st.index rec.email]? = some old ∧ held db st.inbound.id rec.email = some old ∧
      held db' st.inbound.id (newEmail d rec opts) = some new ∧ ∀ s : Secret, s.of new = s.of st.client := by
  have hclients : db.settingsClients st.inbound.id = st.clients := by
    rw [DB.settingsClients, DB.clientsOf, (mem_planned hst).2, Option.bind_some, Step.clients]
  have hrewritten : db'.settingsClients st.inbound.id = st.rewritten rec.email := by
    rw [DB.settingsClients, DB.clientsOf, h.inbounds, inboundAfter, steps, find_planned hlinks hst]
    rfl
  obtain ⟨hemail, hsub⟩ := planned_named hst
  have hsubID : st.client.subID = d.subID.val := by
    rw [hsub]
    simp [restored, rotated, hregen]
  have hemail : st.client.email = newEmail d rec opts := hemail
  obtain ⟨old, hold, hnew⟩ := rewritten_held (h.admitted st hst) (by rw [hemail]; exact hnamed)
    (by rw [hsubID]; exact d.subID.property.1)
    (fun c hc => by rw [hsubID]; exact hfresh.subID _ c (by rw [hclients]; exact hc))
  refine ⟨old, _, hold, ?_, ?_, fun s => restamp_secret st.attempt old st⟩
  · rw [held, hclients, find?_eq_getElem?_findIdx]
    exact hold
  · rw [held, hrewritten, ← hemail]
    exact hnew

theorem steps_renewed_iff {st : Step} {old : Client} {earlier later : List Step}
    (hdraw : ∀ n v, Draw (d.attempts n) v → s.of old ≠ v)
    (h : steps env d db rec opts = earlier ++ st :: later) :
    s.of st.client ≠ s.of old ↔ s.of rec.toClient ≠ s.of old ∨
      ∃ st' ∈ earlier ++ [st], asks st'.inbound.protocol = some s ∧ rejects env st'.inbound rec.toClient := by
  have hsecret : s.of (restored d rec opts) = s.of rec.toClient := by cases s <;> rfl
  have hrejects : ∀ ib, rejects env ib (restored d rec opts) = rejects env ib rec.toClient := fun _ => rfl
  rw [renewed_iff hdraw h, hsecret]
  simp only [hrejects]

theorem rotate_revokes_iff (hlinks : (db.inboundIdsOf rec.recordId).Nodup) (hfresh : Fresh d db)
    (hrec : db.record email = some rec) (hregen : opts.regenerate = true)
    (h : rotate env d db email opts = (db', .ok ())) :
    (∃ rec', db'.records.find rec.recordId = some rec' ∧ Revoked db db' rec rec') ↔
      Renews env d db rec opts := by
  have hrotated := rotated_of_ok hlinks hrec hregen h
  obtain ⟨-, hnamed, -⟩ := rotate_ran hrec hregen h
  have hnamed : newEmail d rec opts ≠ "" := fun he => hnamed (by rw [he]; rfl)
  obtain ⟨rec', hrec', hemail', hsub', hsecret'⟩ := hrotated.record
  have hstep := fun st => @step_held env d db db' rec opts hlinks hfresh hregen hnamed hrotated st
  have hdrawn : ∀ st ∈ steps env d db rec opts, ∀ old, st.clients[st.index rec.email]? = some old →
      ∀ s : Secret, ∀ n v, Draw (d.attempts n) v → s.of old ≠ v := by
    intro st hst old hold s n v hv
    refine hfresh.secret n v hv st.inbound.id old ?_ s
    rw [DB.settingsClients, DB.clientsOf, (mem_planned hst).2]
    exact mem_of_getElem? hold
  constructor
  · rintro ⟨_, hfound, hrevoked⟩
    obtain rfl := Option.some.inj (hrec'.symm.trans hfound)
    refine ⟨?_, ?_, ?_⟩
    · have hchanged := hrevoked.subID
      rw [hsub'] at hchanged
      cases hlast : (entriesListed env d db rec opts).getLast? with
      | none => rw [hlast] at hchanged; exact absurd rfl hchanged
      | some last => rw [hlast] at hchanged; exact ⟨last, rfl, hchanged⟩
    · intro earlier st later hsplit s hs old hold
      have hst : st ∈ steps env d db rec opts := hsplit ▸ mem_append_right earlier mem_cons_self
      obtain ⟨old', new, hold', hbefore, hafter, hnew⟩ := hstep st hst
      obtain rfl := Option.some.inj (hold.symm.trans hold')
      obtain ⟨hid, hfind⟩ := mem_planned hst
      obtain ⟨_, _, hb, ha, hne, -⟩ := hrevoked.secret _ hid _ hfind s hs
      rw [hemail'] at ha
      cases hbefore.symm.trans hb
      cases hafter.symm.trans ha
      rw [hnew] at hne
      exact (steps_renewed_iff (hdrawn st hst old hold s) hsplit).mp hne
    · intro st hst s hs
      obtain ⟨old, new, -, -, hafter, hnew⟩ := hstep st hst
      obtain ⟨hid, hfind⟩ := mem_planned hst
      obtain ⟨_, _, -, ha, -, heq⟩ := hrevoked.secret _ hid _ hfind s hs
      rw [hemail'] at ha
      cases hafter.symm.trans ha
      rw [← hsecret', heq, hnew]
  · intro hrenews
    refine ⟨rec', hrec', ?_, ?_⟩
    · obtain ⟨last, hlast, hne⟩ := hrenews.listed
      rw [hsub', hlast]
      exact hne
    · intro i hi ib hib s hs
      obtain ⟨st, hst, rfl⟩ := @planned_covers env d db i _ (restored d rec opts) ib 0 hi hib
      obtain rfl := (Table.mem_of_find hib).2
      obtain ⟨old, new, hold, hbefore, hafter, hnew⟩ := hstep st hst
      refine ⟨old, new, hbefore, by rw [hemail']; exact hafter, ?_, ?_⟩
      · obtain ⟨earlier, later, hsplit⟩ := append_of_mem hst
        rw [hnew]
        exact (steps_renewed_iff (hdrawn st hst old hold s) hsplit).mpr
          (hrenews.renewed earlier st later hsplit s hs old hold)
      · rw [hsecret', hnew]
        exact hrenews.stored st hst s hs

end rotating

section examples

theorem token_alphanum : "t0" ≠ "" ∧ "t0".toList.all fun c => c.isAlphanum || c == '-' := by decide

def token : Token := ⟨"t0", token_alphanum⟩

def attempt : Attempt where
  now := 7
  uuid := ⟨"u9", by decide⟩
  secret := ⟨"p9", by decide⟩
  shadowsocksKey := fun _ => ⟨"k9", by decide⟩
  subID := token
  read := none
  plan := .ok true
  write := none

def draws : Draws where
  now := 7
  uuid := token
  subID := ⟨"s9", by decide⟩
  password := token
  auth := token
  nameToken := token
  attempts := fun _ => attempt
  stamp := none

def anyKey : Env := ⟨fun _ _ => true, "xtls-rprx-vision", fun ms _ => ms⟩

def subscriber (id : String) : Client where
  id := id
  security := ""
  password := ""
  flow := ""
  reverse := none
  auth := ""
  email := "alice"
  limitIP := 0
  totalGB := 0
  expiryTime := 0
  enable := true
  tgID := 0
  subID := "s1"
  group := ""
  comment := ""
  reset := 0
  createdAt := 1
  updatedAt := 1

theorem subscribed_keyed (id : Int) :
    (Inbound.mk id .vless none "" true (some [subscriber "u1"])).id = id := rfl

theorem recorded_keyed (stored : String) (recordId : Int) :
    ({ subscriber stored with recordId, ownerId := 0, tenantId := 0 } : ClientRecord).recordId = recordId := rfl

def oneInbound (stored : String) : DB where
  inbounds := Table.empty.insert
    (fun id => ⟨id, .vless, none, "", true, some [subscriber "u1"]⟩) fun _ => rfl
  records := Table.empty.insert
    (fun recordId => { subscriber stored with recordId, ownerId := 0, tenantId := 0 }) fun _ => rfl
  links := [⟨1, 1, ""⟩]
  traffics := []

def aliceRecord (stored : String) : ClientRecord :=
  { subscriber stored with recordId := 1, ownerId := 0, tenantId := 0 }

def regenerate : RotateOptions := ⟨"", none, true⟩

theorem fresh_draws (stored : String) : Fresh draws (oneInbound stored) := by
  have hone : ∀ i, ∀ c ∈ (oneInbound stored).settingsClients i, c = subscriber "u1" := by
    intro i c hc
    by_cases hi : i = 1
    · subst hi
      exact mem_singleton.mp hc
    · have hnone : (oneInbound stored).inbounds.find i = none := by
        simp [oneInbound, Table.find, Table.insert, Table.empty, Ne.symm hi]
      rw [DB.settingsClients, DB.clientsOf, hnone] at hc
      cases hc
  refine ⟨fun i c hc => ?_, fun k v hv i c hc s => ?_⟩
  · rw [hone i c hc]
    decide
  · rw [hone i c hc]
    have hv : v = "u9" ∨ v = "p9" ∨ ∃ _ : String, v = "k9" := hv
    rcases hv with rfl | rfl | ⟨_, rfl⟩ <;> cases s <;> decide

theorem rotation_keeps_uuid : ¬ ∀ env d db db' email rec opts, (db.inboundIdsOf rec.recordId).Nodup →
    Fresh d db → db.record email = some rec → opts.regenerate = true →
    rotate env d db email opts = (db', .ok ()) →
      ∃ rec', db'.records.find rec.recordId = some rec' ∧ Revoked db db' rec rec' := by
  intro hclaim
  have hrotate : rotate anyKey draws (oneInbound "u1") "alice" regenerate =
      ((rotate anyKey draws (oneInbound "u1") "alice" regenerate).1, .ok ()) := rfl
  obtain ⟨rec', hfound, hrevoked⟩ := hclaim anyKey draws (oneInbound "u1") _ "alice" (aliceRecord "u1") regenerate
    (by decide) (fresh_draws "u1") rfl rfl hrotate
  have hstored : ((rotate anyKey draws (oneInbound "u1") "alice" regenerate).1.records.find 1).map
      (fun r => Secret.id.of r.toClient) = some "u1" := rfl
  have hheld : (held (oneInbound "u1") 1 "alice").map Secret.id.of = some "u1" := rfl
  obtain ⟨old, new, hold, -, hne, hsame⟩ := hrevoked.secret 1 (by decide) _ rfl .id rfl
  have hfound : (rotate anyKey draws (oneInbound "u1") "alice" regenerate).1.records.find 1 = some rec' := hfound
  have hold : held (oneInbound "u1") 1 "alice" = some old := hold
  rw [hfound] at hstored
  rw [hold] at hheld
  have hsame := hsame.symm.trans (Option.some.inj hstored)
  exact hne (hsame.trans (Option.some.inj hheld).symm)

theorem rotation_fills_uuid :
    (∃ rec', (rotate anyKey draws (oneInbound "") "alice" regenerate).1.records.find 1 = some rec' ∧
      Revoked (oneInbound "") (rotate anyKey draws (oneInbound "") "alice" regenerate).1 (aliceRecord "") rec') ↔
        Renews anyKey draws (oneInbound "") (aliceRecord "") regenerate := by
  have hrotate : rotate anyKey draws (oneInbound "") "alice" regenerate =
      ((rotate anyKey draws (oneInbound "") "alice" regenerate).1, .ok ()) := rfl
  exact rotate_revokes_iff (by decide) (fresh_draws "") rfl rfl hrotate

end examples

end Rotation

end QuiPanel
