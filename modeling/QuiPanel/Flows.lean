import QuiPanel.FieldSetters

namespace QuiPanel

namespace Flows

open List hiding rotate
open Keyed Outcome Clients ListSync Trace
open FieldSetters (Edit Outside entryOf hostOf patch applyToInbounds fieldTargets linkedIds getClientInboundByEmail
  checkIsEnabledByEmail toggleClientEnableByEmail setClientEnableByEmail setClientTelegramUserID
  applyClientFieldByEmail)

def listed (cs : List Client) : List (String × String) := cs.map fun c => (Text.trimSpace c.email, c.flow)

def heirFlow (ls : List (String × String)) (name : String) : Option String :=
  if name = "" then none else (ls.find? (·.1 == name)).map (·.2)

def linkFlow (db : DB) (id i : Int) : Option String :=
  (db.links.find? fun l => l.clientId == id && l.inboundId == i).map (·.flowOverride)

structure Indexed (db : DB) : Prop where
  emails : (emails db.records).Nodup
  links : (db.links.map fun l => (l.clientId, l.inboundId)).Nodup

structure Write where
  inbound : Inbound
  index : Nat
  name : String
  flow : String

def Write.clients (w : Write) : List Client := w.inbound.clients.getD []

def Write.listed (w : Write) : List (String × String) :=
  (Flows.listed w.clients).set w.index (Text.trimSpace w.name, w.flow)

structure Wrote (ws : List Write) (db db' : DB) : Prop where
  listed : ∀ i, listed (db'.settingsClients i) =
    ((ws.find? (·.inbound.id == i)).map Write.listed).getD (Flows.listed (db.settingsClients i))
  links : ∀ id r, db.records.find id = some r → ∀ i, (db.inbounds.find i).isSome → linkFlow db' id i =
    ((ws.find? (·.inbound.id == i)).map fun w => heirFlow w.listed r.email).getD (linkFlow db id i)
  others : ∀ i, (∀ w ∈ ws, w.inbound.id ≠ i) → db'.inbounds.find i = db.inbounds.find i
  capable : ∀ i, (db'.inbounds.find i).map (·.tlsFlowCapable) = (db.inbounds.find i).map (·.tlsFlowCapable)
  records : ∀ id r, db.records.find id = some r → ∃ r', db'.records.find id = some r' ∧ r'.email = r.email

section links

variable {db db' : DB} {cs : List Client} {i j id : Int} {r : ClientRecord} {name : String}

theorem heirFlow_listed (cs : List Client) (name : String) :
    heirFlow (listed cs) name = (occurrences (named cs) name).head?.map (·.flow) := by
  rw [heirFlow]
  split
  case isTrue hblank =>
    rw [hblank, occurrences_unnamed]
    rfl
  case isFalse hne =>
    rw [occurrences_named hne, occurrences, head?_filter, listed, find?_map, Option.map_map]
    rfl

theorem linkFlow_sync (hunique : (emails db.records).Nodup) (hfind : db.records.find id = some r)
    (h : Clients.syncInbound db i cs = .ok db') :
    linkFlow db' id j = if j = i then heirFlow (listed cs) r.email else linkFlow db id j := by
  have hunique' := syncInbound_nodup h hunique
  have hfind' := Rewriting.find_syncInbound h hfind
  obtain ⟨hmem, hid⟩ := Table.mem_of_find hfind'
  simp only [Clients.syncInbound, bind_ok] at h
  obtain ⟨records, -, h⟩ := h
  cases h
  rw [linkFlow, find?_append]
  split
  case isTrue hj =>
    subst hj
    have hold : (db.links.filter (·.inboundId != j)).find? (fun l => l.clientId == id && l.inboundId == j) =
        none := by
      refine find?_eq_none.mpr fun l hl => ?_
      have hne : l.inboundId ≠ j := by simpa using (mem_filter.mp hl).2
      simp [hne]
    rw [hold, Option.none_or, heirFlow_listed]
    cases hnew : (linkClients records j (named cs) []).find? (fun l => l.clientId == id && l.inboundId == j) with
    | none =>
      cases hhead : (occurrences (named cs) r.email).head? with
      | none => rfl
      | some first =>
        have hlink := (@mem_linkClients_iff j (named cs) _ _ hunique' []).mpr
          ⟨not_mem_nil, _, hmem, first, by rw [mergeAll_email]; exact hhead, rfl⟩
        refine absurd (find?_eq_none.mp hnew _ hlink) ?_
        simp [hid]
    | some l =>
      have hl : l.clientId = id ∧ l.inboundId = j := by simpa using find?_some hnew
      obtain ⟨-, r', hr', first, hhead, hlink⟩ :=
        (mem_linkClients_iff hunique').mp (mem_of_find?_eq_some hnew)
      have hsame : r'.recordId = id := by
        rw [← hl.1, hlink]
      obtain rfl := Table.eq_of_key hr' hmem (hsame.trans hid.symm)
      rw [mergeAll_email] at hhead
      rw [hhead, hlink]
      rfl
  case isFalse hj =>
    have hnew : (linkClients records i (named cs) []).find? (fun l => l.clientId == id && l.inboundId == j) =
        none := by
      refine find?_eq_none.mpr fun l hl => ?_
      simp only [Bool.and_eq_true, beq_iff_eq, not_and]
      rintro - heq
      exact hj (heq ▸ (Credentials.linkClients_inbound hl))
    rw [hnew, Option.or_none, find?_filter, linkFlow]
    congr 1
    refine congrFun (congrArg List.find? (funext fun l => ?_)) _
    rw [Bool.decide_and, Bool.decide_eq_true, Bool.decide_eq_true]
    by_cases hl : l.inboundId = j <;> simp [hl, hj]

end links

section writing

variable {o : Attempt} {db db₁ db' : DB} {cs : List Client} {i id : Int} {r : ClientRecord} {ib : Inbound}
  {client : Client} {oldEmail : String} {ws : List Write} {w : Write}

theorem Indexed.sync (h : Indexed db) (hsync : Clients.syncInbound db i cs = .ok db') : Indexed db' := by
  have hunique' := syncInbound_nodup hsync h.emails
  simp only [Clients.syncInbound, bind_ok] at hsync
  obtain ⟨records, -, hsync⟩ := hsync
  cases hsync
  refine ⟨hunique', ?_⟩
  rw [map_append, nodup_append]
  refine ⟨h.links.sublist (filter_sublist.map _), ?_, ?_⟩
  · refine List.Nodup.of_map Prod.fst ?_
    rw [map_map]
    exact linkClients_nodup hunique'
  · rintro _ hold _ hnew rfl
    obtain ⟨l, hl, rfl⟩ := mem_map.mp hold
    obtain ⟨l', hl', hsame⟩ := mem_map.mp hnew
    have hne : l.inboundId ≠ i := by simpa using (mem_filter.mp hl).2
    exact hne ((Prod.mk.inj hsame).2 ▸ Credentials.linkClients_inbound hl')

theorem Indexed.keep (h : Indexed db) (hemails : Clients.emails db'.records = Clients.emails db.records)
    (hlinks : db'.links.Sublist db.links) : Indexed db' :=
  ⟨hemails ▸ h.emails, h.links.sublist (hlinks.map _)⟩

theorem listed_set (cs : List Client) (k : Nat) (c : Client) :
    listed (cs.set k c) = (listed cs).set k (Text.trimSpace c.email, c.flow) :=
  map_set

theorem updateInboundClient_wrote (hindexed : Indexed db) (hfind : db.inbounds.find i = some ib)
    (h : updateInboundClient o db i client oldEmail = .ok db') :
    Wrote [⟨ib, (ib.clients.getD []).findIdx fun c => Text.equalFold c.email oldEmail, client.email, client.flow⟩]
      db db' ∧ Indexed db' := by
  obtain ⟨-, rfl⟩ := Table.mem_of_find hfind
  simp only [updateInboundClient, bind_ok, orErr_ok, check_ok] at h
  obtain ⟨_, -, ib', hib, old, -, _, -, _, -, traffics, -, _, -, _, -, hsync⟩ := h
  obtain rfl := Option.some.inj (hfind.symm.trans hib)
  generalize hw : (⟨ib, (ib.clients.getD []).findIdx fun c => Text.equalFold c.email oldEmail, client.email,
    client.flow⟩ : Write) = w
  have hid : w.inbound.id = ib.id := by rw [← hw]
  generalize hcs : (ib.clients.getD []).set _ (restampEntry o old client) = cs at hsync
  have hlisted : listed cs = w.listed := by
    rw [← hcs, listed_set, ← hw]
    rfl
  have hsome : (db.inbounds.find ib.id).isSome := by rw [hfind]; rfl
  have hinbounds := (Clients.syncInbound_ok hsync).1
  have hsettings : ∀ j, db'.settingsClients j = if j = ib.id then cs else db.settingsClients j := by
    intro j
    rw [DB.settingsClients, DB.clientsOf, hinbounds]
    exact @settingsClients_saved { db with traffics } ib.id cs hsome j
  have hfound : ∀ j, [w].find? (·.inbound.id == j) = if j = ib.id then some w else none := by
    intro j
    rw [find?_singleton, hid]
    by_cases hj : j = ib.id
    · simp [hj]
    · simp [hj, Ne.symm hj]
  refine ⟨⟨fun j => ?_, fun id r hr j hj => ?_, fun j hj => ?_, fun j => ?_, fun id r hr => ?_⟩, ?_⟩
  · rw [hsettings j, hfound j]
    split
    · exact hlisted
    · rfl
  · rw [@linkFlow_sync (saveClients { db with traffics } ib.id cs) _ _ _ j _ _ hindexed.emails hr hsync, hfound j,
      hlisted]
    split <;> rfl
  · rw [hinbounds, saveClients, Table.find_modify]
    cases hfind' : db.inbounds.find j with
    | none => rfl
    | some ib' =>
      have hne : ib'.id ≠ ib.id := (Table.mem_of_find hfind').2 ▸ (hid ▸ hj w (mem_singleton_self w)).symm
      rw [Option.map_some, if_neg (by simpa using hne)]
  · rw [hinbounds, saveClients, Table.find_modify, Option.map_map]
    refine congrFun (congrArg Option.map (funext fun ib' => ?_)) _
    rw [Function.comp_apply]
    split <;> rfl
  · exact ⟨_, Rewriting.find_syncInbound hsync hr, mergeAll_email⟩
  · have hsaved : Indexed (saveClients { db with traffics } ib.id cs) := ⟨hindexed.emails, hindexed.links⟩
    exact hsaved.sync hsync

theorem Wrote.refl : Wrote [] db db :=
  ⟨fun _ => rfl, fun _ _ _ _ _ => rfl, fun _ _ => rfl, fun _ => rfl, fun _ r hr => ⟨r, hr, rfl⟩⟩

theorem Wrote.cons (h : Wrote [w] db db₁) (h' : Wrote ws db₁ db')
    (hnew : ∀ w' ∈ ws, w'.inbound.id ≠ w.inbound.id) : Wrote (w :: ws) db db' := by
  have hnone : ∀ i, w.inbound.id = i → ws.find? (·.inbound.id == i) = none := by
    rintro i rfl
    exact find?_eq_none.mpr fun w' hw' => by simpa using hnew w' hw'
  refine ⟨fun i => ?_, fun id r hr i hi => ?_, fun i hi => ?_, fun i => (h'.capable i).trans (h.capable i), ?_⟩
  · rw [h'.listed i, h.listed i, find?_cons, find?_cons]
    by_cases hi : w.inbound.id = i
    · rw [hnone i hi]
      simp [hi]
    · simp only [beq_eq_false_iff_ne.mpr hi, find?_nil, Option.map_none, Option.getD_none]
  · obtain ⟨r', hr', hemail⟩ := h.records id r hr
    have hsome : (db₁.inbounds.find i).isSome := by
      have hsame := congrArg Option.isSome (h.capable i)
      rw [Option.isSome_map, Option.isSome_map] at hsame
      exact hsame.trans hi
    rw [h'.links id r' hr' i hsome, h.links id r hr i hi, hemail, find?_cons, find?_cons]
    by_cases hi : w.inbound.id = i
    · rw [hnone i hi]
      simp [hi]
    · simp only [beq_eq_false_iff_ne.mpr hi, find?_nil, Option.map_none, Option.getD_none]
  · obtain ⟨hne, hrest⟩ := forall_mem_cons.mp hi
    exact (h'.others i hrest).trans (h.others i (forall_mem_singleton.mpr hne))
  · intro id r hr
    obtain ⟨r', hr', hemail⟩ := h.records id r hr
    obtain ⟨r'', hr'', hemail'⟩ := h'.records id r' hr'
    exact ⟨r'', hr'', hemail'.trans hemail⟩

end writing

def carriedFlow (ib : Inbound) (flow : String) : String := if ib.tlsFlowCapable then flow else ""

def rewrites (db : DB) (oldEmail name flow : String) (ids : List Int) : List Write :=
  ids.filterMap fun i => (db.inbounds.find i).map fun ib =>
    ⟨ib, (ib.clients.getD []).findIdx fun c => Text.equalFold c.email oldEmail, name, carriedFlow ib flow⟩

structure FlowKept (email : String) (db db' : DB) : Prop where
  entries : ∀ i, (db'.settingsClients i).map (·.flow) = (db.settingsClients i).map (·.flow)
  links : ∀ rec, db.record email = some rec → ∀ i, (db.inbounds.find i).isSome →
    linkFlow db' rec.recordId i = linkFlow db rec.recordId i

structure Carries (email name : String) (db : DB) (w : Write) : Prop where
  entry : ∀ c, w.clients[w.index]? = some c → c.flow = w.flow
  link : ∀ rec, db.record email = some rec → linkFlow db rec.recordId w.inbound.id = heirFlow w.listed name

structure Owned (db : DB) (ws : List Write) : Prop where
  found : ∀ w ∈ ws, db.inbounds.find w.inbound.id = some w.inbound
  distinct : (ws.map (·.inbound.id)).Nodup

theorem Owned.left {db : DB} {done rest : List Write} (h : Owned db (done ++ rest)) : Owned db done :=
  ⟨fun w hw => h.found w (mem_append_left _ hw), h.distinct.sublist ((sublist_append_left _ _).map _)⟩

section kept

variable {env : Env} {d : Draws} {db db₀ db₁ db' : DB} {email name flow oldEmail : String} {ws : List Write}
  {w : Write} {i id clientId : Int} {ids : List Int} {rec : ClientRecord} {k : Nat} {client updated : Client}

theorem listed_flows (cs : List Client) : (listed cs).map (·.2) = cs.map (·.flow) := by
  rw [listed, map_map]
  rfl

theorem FlowKept.of_same (hinbounds : db'.inbounds = db.inbounds) (hlinks : db'.links = db.links) :
    FlowKept email db db' := by
  refine ⟨fun i => ?_, fun rec _ i _ => ?_⟩
  · rw [DB.settingsClients, DB.settingsClients, DB.clientsOf, DB.clientsOf, hinbounds]
  · rw [linkFlow, linkFlow, hlinks]

theorem find_write (howned : Owned db ws) (hw : w ∈ ws) :
    ws.find? (·.inbound.id == w.inbound.id) = some w := by
  cases hfind : ws.find? (·.inbound.id == w.inbound.id) with
  | none => exact absurd (find?_eq_none.mp hfind w hw) (by simp)
  | some w' =>
    have hid : w'.inbound.id = w.inbound.id := by simpa using find?_some hfind
    rw [inj_on_of_nodup_map howned.distinct (mem_of_find?_eq_some hfind) hw hid]

theorem flows_iff (w : Write) : w.listed.map (·.2) = w.clients.map (·.flow) ↔
    ∀ c, w.clients[w.index]? = some c → c.flow = w.flow := by
  rw [Write.listed, map_set, listed_flows]
  constructor
  · intro hsame c hc
    obtain ⟨hlt, rfl⟩ := List.getElem?_eq_some_iff.mp hc
    have hat := congrArg (·[w.index]?) hsame
    simp only [getElem?_map, hc, Option.map_some] at hat
    rw [getElem?_set_self (by simpa using hlt)] at hat
    exact (Option.some.inj hat).symm
  · intro hsame
    refine ext_getElem? fun j => ?_
    by_cases hj : w.index = j
    · subst hj
      cases hc : w.clients[w.index]? with
      | none =>
        rw [getElem?_eq_none_iff.mpr, getElem?_map, hc]
        · rfl
        · simpa using getElem?_eq_none_iff.mp hc
      | some c =>
        obtain ⟨hlt, -⟩ := List.getElem?_eq_some_iff.mp hc
        rw [getElem?_set_self (by simpa using hlt), getElem?_map, hc, Option.map_some, hsame c hc]
    · rw [getElem?_set_ne hj]

theorem Wrote.kept_iff (h : Wrote ws db₀ db') (hinbounds : db₀.inbounds = db.inbounds)
    (hlinks : db₀.links = db.links) (howned : Owned db ws)
    (hname : ∀ rec, db.record email = some rec → ∃ r, db₀.records.find rec.recordId = some r ∧ r.email = name) :
    FlowKept email db db' ↔ ∀ w ∈ ws, Carries email name db w := by
  have hbefore : ∀ i, db₀.settingsClients i = db.settingsClients i := by
    intro i
    rw [DB.settingsClients, DB.settingsClients, DB.clientsOf, DB.clientsOf, hinbounds]
  have hlinkFlow : ∀ id i, linkFlow db₀ id i = linkFlow db id i := by
    intro id i
    rw [linkFlow, linkFlow, hlinks]
  have hclients : ∀ w ∈ ws, db.settingsClients w.inbound.id = w.clients :=
    fun w hw => settingsClients_find (howned.found w hw)
  constructor
  · intro hkept w hw
    constructor
    · rw [← flows_iff, ← hclients w hw, ← hkept.entries, ← listed_flows, h.listed, find_write howned hw]
      rfl
    · intro rec hrec
      obtain ⟨r, hr, rfl⟩ := hname rec hrec
      have hsome : (db.inbounds.find w.inbound.id).isSome := by rw [howned.found w hw]; rfl
      rw [← hkept.links rec hrec _ hsome, h.links _ r hr _ (hinbounds ▸ hsome), find_write howned hw]
      rfl
  · intro hcarries
    refine ⟨fun i => ?_, fun rec hrec i hi => ?_⟩
    · rw [← listed_flows, h.listed, hbefore]
      cases hfind : ws.find? (·.inbound.id == i) with
      | none => exact listed_flows _
      | some w =>
        have hw := mem_of_find?_eq_some hfind
        have hid : w.inbound.id = i := by simpa using find?_some hfind
        rw [← hid, hclients w hw]
        exact (flows_iff w).mpr (hcarries w hw).entry
    · obtain ⟨r, hr, rfl⟩ := hname rec hrec
      rw [h.links _ r hr _ (hinbounds ▸ hi), hlinkFlow]
      cases hfind : ws.find? (·.inbound.id == i) with
      | none => rfl
      | some w =>
        have hw := mem_of_find?_eq_some hfind
        have hid : w.inbound.id = i := by simpa using find?_some hfind
        rw [← hid]
        exact ((hcarries w hw).link rec hrec).symm

theorem mem_rewrites (h : w ∈ rewrites db oldEmail name flow ids) :
    w.inbound.id ∈ ids ∧ db.inbounds.find w.inbound.id = some w.inbound ∧ w.flow = carriedFlow w.inbound flow ∧
      w.index = w.clients.findIdx (fun c => Text.equalFold c.email oldEmail) ∧ w.name = name := by
  obtain ⟨i, hi, hw⟩ := mem_filterMap.mp h
  obtain ⟨ib, hib, rfl⟩ := Option.map_eq_some_iff.mp hw
  obtain ⟨-, hid⟩ := Table.mem_of_find hib
  exact ⟨hid ▸ hi, hid ▸ hib, rfl, rfl, rfl⟩

theorem rewrites_owned (hnodup : ids.Nodup) : Owned db (rewrites db oldEmail name flow ids) := by
  refine ⟨fun w hw => (mem_rewrites hw).2.1, ?_⟩
  have hsub : ((rewrites db oldEmail name flow ids).map (·.inbound.id)).Sublist ids := by
    clear hnodup
    induction ids with
    | nil => exact List.Sublist.slnil
    | cons i ids ih =>
      rw [rewrites, filterMap_cons]
      cases hib : db.inbounds.find i with
      | none => exact ih.cons i
      | some ib =>
        rw [Option.map_some, map_cons, (Table.mem_of_find hib).2]
        exact ih.cons_cons i
  exact hnodup.sublist hsub

theorem rewrites_congr (h : ∀ i ∈ ids, db₁.inbounds.find i = db.inbounds.find i) :
    rewrites db₁ oldEmail name flow ids = rewrites db oldEmail name flow ids := by
  refine filterMap_congr fun i hi => ?_
  rw [h i hi]

end kept

section updating

variable {env : Env} {d : Draws} {o : Attempt} {db db₁ db' : DB} {email oldEmail : String} {ws : List Write}
  {i j id clientId : Int} {ids : List Int} {rec : ClientRecord} {ib : Inbound} {k : Nat} {c u updated : Client}

theorem wire_flow (c : Client) (ib : Inbound) : (clientWithInboundFlow c ib).flow = carriedFlow ib c.flow := by
  rw [clientWithInboundFlow, carriedFlow]
  split <;> rfl

theorem wire_email (c : Client) (ib : Inbound) : (clientWithInboundFlow c ib).email = c.email := by
  rw [clientWithInboundFlow]
  split <;> rfl

theorem fill_keeps (o : Attempt) (c : Client) (ib : Inbound) :
    (fillProtocolDefaults env o c ib).flow = c.flow ∧ (fillProtocolDefaults env o c ib).email = c.email ∧
      (fillProtocolDefaults env o c ib).enable = c.enable := by
  rw [fillProtocolDefaults]
  cases ib.protocol <;> dsimp only <;> first | exact ⟨rfl, rfl, rfl⟩ | split <;> exact ⟨rfl, rfl, rfl⟩

theorem Wrote.of_links (hmissing : db.inbounds.find j = none)
    (h : Wrote ws { db with links := db.links.filter fun l => !(l.clientId == clientId && l.inboundId == j) } db') :
    Wrote ws db db' := by
  refine ⟨h.listed, fun id r hr i hi => ?_, h.others, h.capable, h.records⟩
  have hne : i ≠ j := by
    rintro rfl
    rw [hmissing] at hi
    cases hi
  rw [h.links id r hr i hi, linkFlow, linkFlow, find?_filter]
  congr 2
  refine congrFun (congrArg List.find? (funext fun l => ?_)) _
  by_cases hl : l.inboundId = i
  · simp [hl, hne, Bool.beq_eq_decide_eq]
  · simp [hl]

theorem updateInInbounds_wrote (hne : oldEmail ≠ "") (hnodup : ids.Nodup) (hindexed : Indexed db)
    {res : Except String Client} (h : updateInInbounds env d oldEmail clientId k db c ids = (db', res)) :
    ∃ done rest, rewrites db oldEmail c.email c.flow ids = done ++ rest ∧ Wrote done db db' ∧ Indexed db' ∧
      (res.isOk = true → rest = []) := by
  induction ids generalizing k db c with
  | nil =>
    simp only [updateInInbounds, Prod.mk.injEq] at h
    obtain ⟨rfl, -⟩ := h
    exact ⟨[], [], rfl, .refl, hindexed, fun _ => rfl⟩
  | cons i ids ih =>
    obtain ⟨hi, hnodup⟩ := nodup_cons.mp hnodup
    simp only [updateInInbounds] at h
    split at h
    case h_1 hnone =>
      have hfiltered : Indexed { db with links := db.links.filter fun l =>
          !(l.clientId == clientId && l.inboundId == i) } := hindexed.keep rfl filter_sublist
      obtain ⟨done, rest, hplan, hwrote, hindexed', hall⟩ := ih hnodup hfiltered h
      refine ⟨done, rest, ?_, hwrote.of_links hnone, hindexed', hall⟩
      rw [rewrites, filterMap_cons, hnone]
      exact hplan
    case h_2 ib hib =>
      rw [if_neg hne] at h
      obtain ⟨hflow, hemail, -⟩ := @fill_keeps env (d.attempts k) c ib
      have hplan : ∀ db : DB, db.inbounds.find i = some ib → rewrites db oldEmail c.email c.flow (i :: ids) =
          ⟨ib, (ib.clients.getD []).findIdx fun c => Text.equalFold c.email oldEmail, c.email,
            carriedFlow ib c.flow⟩ :: rewrites db oldEmail c.email c.flow ids := by
        intro db hib
        rw [rewrites, filterMap_cons, hib]
        rfl
      split at h
      case h_1 e hrefused =>
        simp only [Prod.mk.injEq] at h
        obtain ⟨rfl, rfl⟩ := h
        exact ⟨[], _, rfl, .refl, hindexed, fun hok => by cases hok⟩
      case h_2 db₁ hstep =>
        obtain ⟨hone, hindexed₁⟩ := updateInboundClient_wrote hindexed hib hstep
        rw [wire_flow, wire_email, hflow, hemail] at hone
        obtain ⟨done, rest, hrest, hwrote, hindexed', hall⟩ := ih hnodup hindexed₁ h
        rw [hflow, hemail] at hrest
        have hid := (Table.mem_of_find hib).2
        have hsame : ∀ j ∈ ids, db₁.inbounds.find j = db.inbounds.find j := by
          intro j hj
          refine hone.others j (forall_mem_singleton.mpr fun heq => hi ?_)
          rw [← hid, heq]
          exact hj
        have hnew : ∀ w ∈ done, w.inbound.id ≠ ib.id := by
          intro w hw heq
          have hmem := (mem_rewrites (hrest ▸ mem_append_left rest hw)).1
          rw [heq, hid] at hmem
          exact hi hmem
        refine ⟨_ :: done, rest, ?_, hone.cons hwrote hnew, hindexed', hall⟩
        rw [hplan db hib, ← rewrites_congr hsame, hrest]
        rfl

theorem prepared_keeps (h : prepareUpdate d db rec updated = .ok u) :
    u.flow = updated.flow ∧ u.email = updated.email ∧ u.enable = updated.enable ∧ (u.email ≠ rec.email →
      ∀ r ∈ db.records.rows, r.email = u.email → r.recordId = rec.recordId) := by
  simp only [prepareUpdate, bind_ok, check_ok] at h
  obtain ⟨_, -, _, -, _, -, _, hfree, h⟩ := h
  cases h
  refine ⟨rfl, rfl, rfl, fun hne r hr hemail => ?_⟩
  by_contra hother
  simp only [Bool.not_eq_true', decide_eq_false_iff_not, not_and] at hfree
  refine hfree hne (any_eq_true.mpr ⟨r, hr, ?_⟩)
  simpa [hemail] using hother

end updating

section update

variable {env : Env} {d : Draws} {db db₁ db' : DB} {email name : String} {id : Int} {rec : ClientRecord}
  {u updated : Client} {res : Except String Unit}

theorem record_find (h : db.record email = some rec) :
    db.records.find rec.recordId = some rec ∧ rec.email = email := by
  refine ⟨Table.find_of_mem (mem_of_find?_eq_some h), ?_⟩
  simpa using find?_some h

theorem Indexed.record (hindexed : Indexed db) (h : db.records.find id = some rec) :
    db.record rec.email = some rec := by
  obtain ⟨hmem, -⟩ := Table.mem_of_find h
  cases hrec : db.record rec.email with
  | none => exact absurd (find?_eq_none.mp hrec rec hmem) (by simp)
  | some rec' =>
    obtain ⟨hfind', hemail⟩ := record_find hrec
    rw [eq_of_email hindexed.emails (Table.mem_of_find hfind').1 hmem hemail]

theorem Indexed.ids (h : Indexed db) (id : Int) : (db.inboundIdsOf id).Nodup := by
  rw [DB.inboundIdsOf, (perm_insertionSort _ _).nodup_iff]
  have hpairs : ((db.links.filter (·.clientId == id)).map fun l => (l.clientId, l.inboundId)).Nodup :=
    h.links.sublist (filter_sublist.map _)
  have hsame : ((db.links.filter (·.clientId == id)).map fun l => (l.clientId, l.inboundId)) =
      ((db.links.filter (·.clientId == id)).map (·.inboundId)).map fun i => (id, i) := by
    rw [map_map]
    refine map_congr_left fun l hl => ?_
    have hid : l.clientId = id := by simpa using (mem_filter.mp hl).2
    rw [hid]
    rfl
  rw [hsame] at hpairs
  exact hpairs.of_map

theorem Indexed.renamed (hindexed : Indexed db) (hprepared : prepareUpdate d db rec updated = .ok u) :
    Indexed (Rewriting.renamed db rec u.email) := by
  rw [Rewriting.renamed]
  split
  case isTrue => exact hindexed
  case isFalse hne =>
    exact ⟨Credentials.renameRecord_unique hindexed.emails ((prepared_keeps hprepared).2.2.2 hne), hindexed.links⟩

theorem renamed_same (db : DB) (rec : ClientRecord) (email : String) :
    (Rewriting.renamed db rec email).inbounds = db.inbounds ∧ (Rewriting.renamed db rec email).links = db.links := by
  rw [Rewriting.renamed]
  split <;> exact ⟨rfl, rfl⟩

theorem Indexed.setReverse {reverse : Option String} {now : Int} (h : Indexed db) :
    Indexed (Clients.setReverse db id reverse now) := by
  refine h.keep ?_ (List.Sublist.refl _)
  rw [Clients.emails, Clients.setReverse, Table.rows_modify, map_map]
  refine map_congr_left fun r _ => ?_
  rw [Function.comp_apply]
  split <;> rfl

theorem FlowKept.congr (hinbounds : db'.inbounds = db₁.inbounds) (hlinks : db'.links = db₁.links) :
    FlowKept email db db' ↔ FlowKept email db db₁ := by
  have hsettings : ∀ i, db'.settingsClients i = db₁.settingsClients i := by
    intro i
    rw [DB.settingsClients, DB.settingsClients, DB.clientsOf, DB.clientsOf, hinbounds]
  have hlinkFlow : ∀ id i, linkFlow db' id i = linkFlow db₁ id i := by
    intro id i
    rw [linkFlow, linkFlow, hlinks]
  constructor
  · intro h
    exact ⟨fun i => hsettings i ▸ h.entries i, fun rec hrec i hi => hlinkFlow _ i ▸ h.links rec hrec i hi⟩
  · intro h
    exact ⟨fun i => (hsettings i).symm ▸ h.entries i,
      fun rec hrec i hi => (hlinkFlow _ i).symm ▸ h.links rec hrec i hi⟩

theorem update_flows (hindexed : Indexed db) (hrec : db.record email = some rec) (hne : email ≠ "")
    (h : update env d db rec.recordId updated [] = (db', res)) :
    ∃ done rest, rewrites db email updated.email updated.flow (db.inboundIdsOf rec.recordId) = done ++ rest ∧
      (FlowKept email db db' ↔ ∀ w ∈ done, Carries email updated.email db w) ∧ Indexed db' ∧
      (res.isOk = true → rest = []) := by
  obtain ⟨hfind, rfl⟩ := record_find hrec
  have hunwritten : ∀ {e : String} {db' : DB}, db'.inbounds = db.inbounds → db'.links = db.links → Indexed db' →
      ∃ done rest, rewrites db rec.email updated.email updated.flow (db.inboundIdsOf rec.recordId) = done ++ rest ∧
        (FlowKept rec.email db db' ↔ ∀ w ∈ done, Carries rec.email updated.email db w) ∧ Indexed db' ∧
        ((Except.error (α := Unit) e).isOk = true → rest = []) :=
    fun hinbounds hlinks hindexed' => ⟨[], _, rfl,
      ⟨fun _ => forall_mem_nil _, fun _ => .of_same hinbounds hlinks⟩, hindexed', fun hok => by cases hok⟩
  simp only [update, hfind] at h
  cases hprepared : prepareUpdate d db rec updated with
  | error e =>
    simp only [hprepared, Prod.mk.injEq] at h
    obtain ⟨rfl, rfl⟩ := h
    exact hunwritten rfl rfl hindexed
  | ok u =>
    obtain ⟨hflow, hemail, -, -⟩ := prepared_keeps hprepared
    obtain ⟨hinbounds, hlinks⟩ := renamed_same db rec u.email
    have hrenamed : (if u.email = rec.email then db else renameRecord db rec.recordId u.email) =
        Rewriting.renamed db rec u.email := rfl
    simp only [hprepared, hrenamed, if_true] at h
    split at h
    case isTrue =>
      simp only [Prod.mk.injEq] at h
      obtain ⟨rfl, rfl⟩ := h
      exact hunwritten hinbounds hlinks (hindexed.renamed hprepared)
    case isFalse =>
      generalize hrun : updateInInbounds env d rec.email rec.recordId 0 (Rewriting.renamed db rec u.email) u
        (db.inboundIdsOf rec.recordId) = run at h
      obtain ⟨db₁, ran⟩ := run
      obtain ⟨done, rest, hplan, hwrote, hindexed₁, hall⟩ :=
        updateInInbounds_wrote hne (hindexed.ids _) (hindexed.renamed hprepared) hrun
      have hsame : ∀ i ∈ db.inboundIdsOf rec.recordId,
          (Rewriting.renamed db rec u.email).inbounds.find i = db.inbounds.find i :=
        fun i _ => congrArg (·.find i) hinbounds
      rw [rewrites_congr hsame, hemail, hflow] at hplan
      have howned : Owned db done := by
        have hwhole := @rewrites_owned db updated.email updated.flow rec.email _ (hindexed.ids rec.recordId)
        rw [hplan] at hwhole
        exact hwhole.left
      have hkept : FlowKept rec.email db db₁ ↔ ∀ w ∈ done, Carries rec.email updated.email db w := by
        refine hwrote.kept_iff hinbounds hlinks howned fun rec' hrec' => ?_
        obtain rfl := Option.some.inj (hrec.symm.trans hrec')
        exact ⟨_, Rewriting.find_renamed hfind u.email, hemail⟩
      cases ran with
      | error e =>
        simp only [andThen, Prod.mk.injEq] at h
        obtain ⟨rfl, rfl⟩ := h
        exact ⟨done, rest, hplan, hkept, hindexed₁, fun hok => by cases hok⟩
      | ok u' =>
        simp only [andThen] at h
        split at h
        · simp only [Prod.mk.injEq] at h
          obtain ⟨rfl, rfl⟩ := h
          exact ⟨done, rest, hplan, hkept, hindexed₁, fun hok => by cases hok⟩
        · simp only [Prod.mk.injEq] at h
          obtain ⟨rfl, rfl⟩ := h
          refine ⟨done, rest, hplan, Iff.trans ?_ hkept, hindexed₁.setReverse, fun _ => hall rfl⟩
          exact FlowKept.congr rfl rfl

end update

def LoneCopies (email flow : String) (ws : List Write) : Prop :=
  ∀ w ∈ ws, ∀ (j : Nat) c, w.clients[j]? = some c → j ≠ w.index → Text.trimSpace c.email = email →
    c.enable = true ∨ c.flow = flow

section again

open Rewriting (Step plannedSteps inboundAfter)

variable {env : Env} {d enable reset : Draws} {db db₁ db' : DB} {email name flow oldEmail : String} {id : Int}
  {rec rec₁ r : ClientRecord} {c u updated : Client} {res : Except String Unit} {ids : List Int} {k : Nat}
  {cs : List Client} {st : Step} {w : Write} {ib : Inbound} {i : Int}

theorem planned_client (h : st ∈ plannedSteps env d db k c ids) :
    st.client.flow = c.flow ∧ st.client.email = c.email ∧ st.client.enable = c.enable := by
  induction ids generalizing k c with
  | nil => cases h
  | cons i ids ih =>
    simp only [plannedSteps] at h
    split at h
    · exact ih h
    case h_2 ib _ =>
      obtain ⟨hflow, hemail, henable⟩ := @fill_keeps env (d.attempts k) c ib
      rcases mem_cons.mp h with rfl | h
      · exact ⟨hflow, hemail, henable⟩
      · obtain ⟨hflow', hemail', henable'⟩ := ih h
        exact ⟨hflow'.trans hflow, hemail'.trans hemail, henable'.trans henable⟩

theorem rewrites_mem (hi : i ∈ ids) (hib : db.inbounds.find i = some ib) :
    ⟨ib, (ib.clients.getD []).findIdx fun c => Text.equalFold c.email oldEmail, name, carriedFlow ib flow⟩ ∈
      rewrites db oldEmail name flow ids :=
  mem_filterMap.mpr ⟨i, hi, by rw [hib]; rfl⟩

theorem merged_last {α : Type} (f : ClientRecord → α) (g : Client → α)
    (hmerge : ∀ c r, f (mergeRecord c r) = g c) (cs : List Client) (r : ClientRecord) :
    f (mergeAll cs r) = (cs.getLast?.map g).getD (f r) := by
  induction cs generalizing r with
  | nil => rfl
  | cons c cs ih =>
    refine (ih (mergeRecord c r)).trans ?_
    rw [hmerge, getLast?_cons]
    cases cs.getLast? with
    | none => rfl
    | some last => rfl

theorem findIdx_set {p : Client → Bool} (hc : p c = true) (hlt : cs.findIdx p < cs.length) :
    (cs.set (cs.findIdx p) c).findIdx p = cs.findIdx p := by
  rw [findIdx_eq (by simpa using hlt)]
  refine ⟨by rw [getElem_set_self]; exact hc, fun j hj => ?_⟩
  rw [getElem_set_ne (Nat.ne_of_gt hj)]
  exact not_of_lt_findIdx hj

theorem record_flow (hplanned : ∀ st ∈ plannedSteps env d db 0 u ids, Rewriting.Admitted rec.email st)
    (henable : u.enable = true)
    (hlone : LoneCopies rec.email rec.flow (rewrites db rec.email rec.email flow ids))
    (hdisabled : (mergeAll (occurrences (named ((plannedSteps env d db 0 u ids).flatMap
      (·.rewritten rec.email))) rec.email) rec).enable = false) :
    (mergeAll (occurrences (named ((plannedSteps env d db 0 u ids).flatMap (·.rewritten rec.email))) rec.email)
      rec).flow = rec.flow := by
  generalize hcs : occurrences (named ((plannedSteps env d db 0 u ids).flatMap (·.rewritten rec.email)))
    rec.email = cs at hdisabled ⊢
  rw [merged_last (·.enable) (·.enable) fun _ _ => rfl] at hdisabled
  rw [merged_last (·.flow) (·.flow) fun _ _ => rfl]
  cases hlast : cs.getLast? with
  | none => rfl
  | some c =>
    rw [hlast] at hdisabled
    change c.enable = false at hdisabled
    change c.flow = rec.flow
    obtain ⟨hmem, hname⟩ := mem_filter.mp (hcs ▸ mem_of_getLast? hlast)
    obtain ⟨st, hst, hin⟩ := mem_flatMap.mp (mem_filter.mp hmem).1
    obtain ⟨hids, hib⟩ := Rewriting.mem_planned hst
    obtain ⟨-, -, hon⟩ := planned_client hst
    obtain ⟨old, hold, -⟩ := (hplanned st hst).located
    rw [Step.rewritten, hold] at hin
    obtain ⟨j, hj⟩ := mem_iff_getElem?.mp hin
    by_cases hat : j = st.index rec.email
    · subst hat
      have hlt := (List.getElem?_eq_some_iff.mp hold).1
      rw [getElem?_set_self hlt] at hj
      obtain rfl := Option.some.inj hj
      have hwire : (restampEntry st.attempt old st.wire).enable = true := by
        rw [restampEntry, Step.wire, clientWithInboundFlow]
        split <;> exact hon.trans henable
      rw [hwire] at hdisabled
      cases hdisabled
    · rw [getElem?_set_ne (Ne.symm hat)] at hj
      rcases hlone _ (rewrites_mem hids hib) j c hj hat (by simpa using hname) with hkeep | hflow
      · rw [hkeep] at hdisabled
        cases hdisabled
      · exact hflow

theorem updated_once (hindexed : Indexed db) (hrec : db.record email = some rec) (hne : email ≠ "")
    (hemail : updated.email = rec.email) (hflow : updated.flow = rec.flow)
    (h : update env d db rec.recordId updated [] = (db₁, .ok ())) :
    ∃ u db₀, u.email = email ∧ u.enable = updated.enable ∧
      Wrote (rewrites db email email rec.flow (db.inboundIdsOf rec.recordId)) db db₀ ∧
      Rewriting.Rewrote email (plannedSteps env d db 0 u (db.inboundIdsOf rec.recordId)) db db₀ ∧
      (∀ st ∈ plannedSteps env d db 0 u (db.inboundIdsOf rec.recordId), Rewriting.Admitted email st) ∧
      ∃ reverse, db₁ = setReverse db₀ rec.recordId reverse d.now := by
  obtain ⟨hfind, rfl⟩ := record_find hrec
  obtain ⟨u, hprepared, db₀, u', hrun, rfl⟩ := Rewriting.update_ran hfind h
  obtain ⟨hflow', hemail', henable', -⟩ := prepared_keeps hprepared
  have hsame : u.email = rec.email := hemail'.trans hemail
  rw [Rewriting.renamed, if_pos hsame] at hrun
  obtain ⟨done, rest, hplan, hwrote, -, hall⟩ :=
    updateInInbounds_wrote hne (hindexed.ids _) hindexed hrun
  obtain ⟨done', rest', hplan', hrewrote, hadmitted, hall'⟩ :=
    Rewriting.updateInInbounds_rewrote hne (hindexed.ids _) hrun
  rw [hall rfl, append_nil, hsame, hflow', hflow] at hplan
  rw [hall' rfl, append_nil] at hplan'
  exact ⟨u, db₀, hsame, henable', hplan ▸ hwrote, hplan' ▸ hrewrote, hplan' ▸ hadmitted, _, rfl⟩

theorem rewritten_clients (hrewrote : Rewriting.Rewrote email (plannedSteps env d db 0 u ids) db db₁)
    (hadmitted : ∀ st ∈ plannedSteps env d db 0 u ids, Rewriting.Admitted email st) (hnodup : ids.Nodup)
    (hemail : u.email = email) (hi : i ∈ ids) (hib : db.inbounds.find i = some ib) :
    ∃ c, c.email = email ∧ (ib.clients.getD []).findIdx (fun c => Text.equalFold c.email email) <
        (ib.clients.getD []).length ∧
      db₁.settingsClients i =
        (ib.clients.getD []).set ((ib.clients.getD []).findIdx fun c => Text.equalFold c.email email) c := by
  obtain ⟨st, hst, rfl⟩ := @Rewriting.planned_covers env d db i ids u ib 0 hi hib
  obtain ⟨old, hold, -⟩ := (hadmitted st hst).located
  obtain ⟨-, hwire, -⟩ := planned_client hst
  obtain rfl : st.inbound.id = i := (Table.mem_of_find hib).2
  refine ⟨restampEntry st.attempt old st.wire, ?_, (List.getElem?_eq_some_iff.mp hold).1, ?_⟩
  · rw [FieldSetters.restampEntry_email, Step.wire, wire_email, hwire, hemail]
  · have hafter := hrewrote.inbounds st.inbound.id
    rw [inboundAfter, Rewriting.find_planned hnodup hst] at hafter
    rw [DB.settingsClients, DB.clientsOf, hafter]
    change st.rewritten email = _
    rw [Step.rewritten, hold]
    rfl

theorem linkFlow_isSome : (linkFlow db id i).isSome = true ↔ i ∈ db.inboundIdsOf id := by
  rw [linkFlow, Option.isSome_map, find?_isSome, Credentials.mem_inboundIdsOf]
  simp

theorem relinked (hwrote : Wrote (rewrites db oldEmail name flow (db.inboundIdsOf rec.recordId)) db db₁)
    (hfind : db.records.find rec.recordId = some rec) (hmem : i ∈ db₁.inboundIdsOf rec.recordId)
    (hib₁ : db₁.inbounds.find i = some ib) :
    i ∈ db.inboundIdsOf rec.recordId ∧ ∃ ib, db.inbounds.find i = some ib := by
  have hsome : (db.inbounds.find i).isSome := by
    have hsame := congrArg Option.isSome (hwrote.capable i)
    rw [Option.isSome_map, Option.isSome_map, hib₁] at hsame
    exact hsame.symm
  refine ⟨?_, Option.isSome_iff_exists.mp hsome⟩
  by_contra hout
  have hnone : (rewrites db oldEmail name flow (db.inboundIdsOf rec.recordId)).find? (·.inbound.id == i) = none := by
    refine find?_eq_none.mpr fun w hw => ?_
    simp only [beq_iff_eq]
    rintro rfl
    exact hout (mem_rewrites hw).1
  have hlink := hwrote.links _ rec hfind i hsome
  rw [hnone] at hlink
  have hlinked := linkFlow_isSome.mpr hmem
  rw [hlink] at hlinked
  exact hout (linkFlow_isSome.mp hlinked)

theorem second_pass (hindexed : Indexed db) (hrec : db.record email = some rec) (hne : email ≠ "")
    (hemail : updated.email = rec.email) (henable : updated.enable = true) (hflow : updated.flow = rec.flow)
    (h : update env d db rec.recordId updated [] = (db₁, .ok ()))
    (hlone : LoneCopies email rec.flow (rewrites db email email rec.flow (db.inboundIdsOf rec.recordId)))
    (hrec₁ : db₁.record email = some rec₁) (hdisabled : rec₁.enable = false) :
    ∀ w ∈ rewrites db₁ email email rec₁.flow (db₁.inboundIdsOf rec₁.recordId), Carries email email db₁ w := by
  obtain ⟨-, -, -, -, hindexed₁, -⟩ := update_flows hindexed hrec hne h
  obtain ⟨u, db₀, hsame, hon, hwrote, hrewrote, hadmitted, reverse, rfl⟩ :=
    updated_once hindexed hrec hne hemail hflow h
  obtain ⟨hfind, rfl⟩ := record_find hrec
  have hmerged := hrewrote.records _ rec hfind
  have hfound := @Rewriting.find_setReverse db₀ _ _ reverse d.now hmerged
  have hr₁ : _ = rec₁ := Option.some.inj ((hindexed₁.record hfound).symm.trans
    ((congrArg _ mergeAll_email).trans hrec₁))
  have hid₁ : rec₁.recordId = rec.recordId := by
    rw [← hr₁]
    exact mergeAll_recordId
  have hflow₁ : rec₁.flow = rec.flow := by
    rw [← hr₁] at hdisabled ⊢
    exact record_flow hadmitted (hon.trans henable) hlone hdisabled
  rw [hid₁, hflow₁]
  intro w₁ hw₁
  obtain ⟨hmem, hib₁, hw₁flow, hw₁index, hw₁name⟩ := mem_rewrites hw₁
  obtain ⟨hin, ib, hib⟩ := relinked hwrote hfind hmem hib₁
  have hw := @rewrites_mem db rec.email rec.flow rec.email _ _ _ hin hib
  generalize hwrite : (⟨ib, (ib.clients.getD []).findIdx fun c => Text.equalFold c.email rec.email, rec.email,
    carriedFlow ib rec.flow⟩ : Write) = w at hw
  obtain ⟨c', hc', hlt, hlist⟩ := rewritten_clients hrewrote hadmitted (hindexed.ids _) hsame hin hib
  have hclients : w₁.clients = (ib.clients.getD []).set
      ((ib.clients.getD []).findIdx fun c => Text.equalFold c.email rec.email) c' :=
    (settingsClients_find hib₁).symm.trans hlist
  have hindex : w₁.index = w.index := by
    rw [hw₁index, hclients, ← hwrite]
    exact findIdx_set (by rw [hc']; exact equalFold_self _) hlt
  have hat : w.inbound.id = w₁.inbound.id := by
    rw [← hwrite]
    exact (Table.mem_of_find hib).2
  have hwritten : w.index < w.listed.length := by
    rw [Write.listed, length_set, listed, length_map, ← hwrite]
    exact hlt
  have hlisted : listed w₁.clients = w.listed := by
    have hafter := hwrote.listed w.inbound.id
    rw [find_write (rewrites_owned (hindexed.ids _)) hw, hat] at hafter
    exact (congrArg listed (settingsClients_find hib₁).symm).trans hafter
  have hcapable : w₁.flow = w.flow := by
    have hsame := hwrote.capable w₁.inbound.id
    rw [show db₀.inbounds.find w₁.inbound.id = some w₁.inbound from hib₁, hib] at hsame
    have hsame : w₁.inbound.tlsFlowCapable = ib.tlsFlowCapable := Option.some.inj hsame
    rw [hw₁flow, ← hwrite, carriedFlow, carriedFlow, hsame]
  constructor
  · intro c hc
    have hentry : w.listed[w.index]? = some (Text.trimSpace c.email, c.flow) := by
      rw [← hlisted, listed, getElem?_map, ← hindex, hc]
      rfl
    rw [Write.listed, getElem?_set_self (by simpa [Write.listed] using hwritten)] at hentry
    exact (Prod.mk.inj (Option.some.inj hentry)).2.symm.trans hcapable.symm
  · intro rec' hrec'
    have hrec' : rec' = rec₁ := Option.some.inj (hrec'.symm.trans hrec₁)
    have hlink := hwrote.links _ rec hfind w.inbound.id (by rw [hat, hib]; rfl)
    rw [find_write (rewrites_owned (hindexed.ids _)) hw, hat] at hlink
    rw [hrec', hid₁]
    refine hlink.trans (congrArg (heirFlow · rec.email) ?_)
    have hwname : w.name = w₁.name := by
      rw [hw₁name, ← hwrite]
    rw [Write.listed, Write.listed, hlisted, hindex, hcapable, Write.listed, set_set, hwname]

end again

def fieldWrites (db : DB) (email : String) (ids : List Int) : List Write :=
  ids.filterMap fun i => (db.inbounds.find i).bind fun ib => (entryOf ib email).map fun entry =>
    ⟨ib, (ib.clients.getD []).findIdx fun c => Text.equalFold c.email email, email, entry.flow⟩

def hostWrites (db : DB) (email : String) : Except String Inbound → List Write
  | .ok ib => fieldWrites db email [ib.id]
  | .error _ => []

section setters

variable {o : Outside} {e : Edit} {db db₁ db' : DB} {email : String} {ib : Inbound} {entry : Client} {k : Nat}
  {ids : List Int} {i : Int} {w : Write} {traffic : ClientTraffic}

theorem mutate_flow (e : Edit) (c : Client) : (e.mutate c).flow = c.flow := by
  cases e <;> rfl

theorem mem_fieldWrites (h : w ∈ fieldWrites db email ids) :
    w.inbound.id ∈ ids ∧ db.inbounds.find w.inbound.id = some w.inbound := by
  obtain ⟨i, hi, hw⟩ := mem_filterMap.mp h
  obtain ⟨ib, hib, hw⟩ := Option.bind_eq_some_iff.mp hw
  obtain ⟨entry, -, rfl⟩ := Option.map_eq_some_iff.mp hw
  obtain ⟨-, hid⟩ := Table.mem_of_find hib
  exact ⟨hid ▸ hi, hid ▸ hib⟩

theorem fieldWrites_congr (h : ∀ i ∈ ids, db₁.inbounds.find i = db.inbounds.find i) :
    fieldWrites db₁ email ids = fieldWrites db email ids := by
  refine filterMap_congr fun i hi => ?_
  rw [h i hi]

theorem fieldWrites_owned (hnodup : ids.Nodup) : Owned db (fieldWrites db email ids) := by
  refine ⟨fun w hw => (mem_fieldWrites hw).2, ?_⟩
  have hsub : ((fieldWrites db email ids).map (·.inbound.id)).Sublist ids := by
    clear hnodup
    induction ids with
    | nil => exact List.Sublist.slnil
    | cons i ids ih =>
      rw [fieldWrites, filterMap_cons]
      cases hib : db.inbounds.find i with
      | none => exact ih.cons i
      | some ib =>
        rw [Option.bind_some]
        cases entryOf ib email with
        | none => exact ih.cons i
        | some entry =>
          rw [Option.map_some, map_cons, (Table.mem_of_find hib).2]
          exact ih.cons_cons i
  exact hnodup.sublist hsub

theorem patch_wrote (hindexed : Indexed db) (hib : db.inbounds.find i = some ib)
    (hentry : entryOf ib email = some entry) (h : patch o k db ib e entry email = .ok db') :
    Wrote [⟨ib, (ib.clients.getD []).findIdx fun c => Text.equalFold c.email email, email, entry.flow⟩] db db' ∧
      Indexed db' := by
  obtain ⟨-, rfl⟩ := Table.mem_of_find hib
  have hwrote := updateInboundClient_wrote hindexed hib h
  rw [mutate_flow, FieldSetters.mutate_email, FieldSetters.entry_email hentry] at hwrote
  exact hwrote

theorem applyToInbounds_wrote (hnodup : ids.Nodup) (hindexed : Indexed db) {res : Except String Bool}
    (h : applyToInbounds o e email k db ids = (db', res)) :
    ∃ done rest, fieldWrites db email ids = done ++ rest ∧ Wrote done db db' ∧ Indexed db' ∧
      (res.isOk = true → rest = []) := by
  induction ids generalizing k db db' res with
  | nil =>
    cases h
    exact ⟨[], [], rfl, .refl, hindexed, fun _ => rfl⟩
  | cons i ids ih =>
    obtain ⟨hi, hnodup⟩ := nodup_cons.mp hnodup
    have hunwritten : ∀ {err : String}, ∃ done rest, fieldWrites db email (i :: ids) = done ++ rest ∧
        Wrote done db db ∧ Indexed db ∧ ((Except.error (α := Bool) err).isOk = true → rest = []) :=
      ⟨[], _, rfl, .refl, hindexed, fun hok => by cases hok⟩
    simp only [applyToInbounds] at h
    split at h
    case h_1 =>
      cases h
      exact hunwritten
    case h_2 ib hib =>
      split at h
      case h_1 hnone =>
        have hskip : fieldWrites db email (i :: ids) = fieldWrites db email ids := by
          rw [fieldWrites, filterMap_cons, hib, Option.bind_some, hnone]
          rfl
        rw [hskip]
        exact ih hnodup hindexed h
      case h_2 entry hentry =>
        split at h
        case h_1 =>
          cases h
          exact hunwritten
        case h_2 db₁ hpatch =>
          obtain ⟨hone, hindexed₁⟩ := patch_wrote hindexed hib hentry hpatch
          generalize hrun : applyToInbounds o e email (k + 1) db₁ ids = run at h
          obtain ⟨db₂, res'⟩ := run
          obtain ⟨done, rest, hrest, hwrote, hindexed', hall⟩ := ih hnodup hindexed₁ hrun
          have hid := (Table.mem_of_find hib).2
          have hsame : ∀ j ∈ ids, db₁.inbounds.find j = db.inbounds.find j := by
            intro j hj
            refine hone.others j (forall_mem_singleton.mpr fun heq => hi ?_)
            rw [← hid, heq]
            exact hj
          have hnew : ∀ w ∈ done, w.inbound.id ≠ ib.id := by
            intro w hw heq
            have hmem := (mem_fieldWrites (hrest ▸ mem_append_left rest hw)).1
            rw [heq, hid] at hmem
            exact hi hmem
          have hplan : fieldWrites db email (i :: ids) =
              ⟨ib, (ib.clients.getD []).findIdx fun c => Text.equalFold c.email email, email, entry.flow⟩ ::
                (done ++ rest) := by
            rw [← hrest, fieldWrites_congr hsame, fieldWrites, filterMap_cons, hib, Option.bind_some, hentry]
            rfl
          have hdb : db' = db₂ ∧ (res.isOk = true → res'.isOk = true) := by
            cases res' with
            | error err =>
              cases h
              exact ⟨rfl, id⟩
            | ok found =>
              cases h
              exact ⟨rfl, fun _ => rfl⟩
          refine ⟨_ :: done, rest, hplan, ?_, ?_, fun hok => hall (hdb.2 hok)⟩
          · rw [hdb.1]
            exact hone.cons hwrote hnew
          · rw [hdb.1]
            exact hindexed'

end setters

inductive Event
  | create (d : Draws) (payload : ClientCreatePayload)
  | attach (d : Draws) (email : String) (inboundIds : List Int)
  | rotate (d : Draws) (email : String) (opts : RotateOptions)
  | applyPlan (x : OrderDraws) (email : String) (product : Product)
  | resetTraffic (enable reset : Draws) (email : String)
  | toggleEnable (o : Outside) (email : String)
  | setEnable (o : Outside) (email : String) (enable : Bool)
  | setTelegram (o : Outside) (trafficId tgId : Int)
  | setField (o : Outside) (email : String) (e : Edit)

def call (env : Env) (db : DB) : Event → DB × Except String Unit
  | .create d payload => create env d db payload
  | .attach d email inboundIds => attachByEmail env d db email inboundIds
  | .rotate d email opts => rotate env d db email opts
  | .applyPlan x email product => applyPlan env x db email product
  | .resetTraffic enable reset email => resetTrafficByEmail env enable reset db email
  | .toggleEnable o email => commit db (toggleClientEnableByEmail o db email)
  | .setEnable o email enable => commit db (setClientEnableByEmail o db email enable)
  | .setTelegram o trafficId tgId => commit db (setClientTelegramUserID o db trafficId tgId)
  | .setField o email e => applyClientFieldByEmail o db email e

def after (env : Env) (db : DB) (e : Event) : DB := (call env db e).1

def edited (db : DB) : Event → Option String
  | .create .. | .attach .. => none
  | .rotate _ email _ | .applyPlan _ email _ | .resetTraffic _ _ email => some email
  | .toggleEnable _ email | .setEnable _ email _ | .setField _ email _ => some email
  | .setTelegram o trafficId _ => (db.traffics.find? (o.rowId ·.email == trafficId)).map (·.email)

structure Plan where
  name : String
  writes : List Write
  again : Option String

def Plan.idle : Plan := ⟨"", [], none⟩

def recordPlan (db : DB) (email : String) (f : ClientRecord → Plan) : Plan :=
  if email = "" then .idle else (db.record email).elim .idle f

def rewritePlan (db : DB) (email name : String) (again : Option String) (rec : ClientRecord) : Plan :=
  ⟨name, rewrites db email name rec.flow (db.inboundIdsOf rec.recordId), again⟩

def plan (db : DB) : Event → Plan
  | .create .. | .attach .. => .idle
  | .rotate d email opts => recordPlan db email fun rec => rewritePlan db email (rotated d rec opts).email none rec
  | .applyPlan _ email _ => recordPlan db email fun rec => rewritePlan db email email (some rec.flow) rec
  | .resetTraffic _ _ email =>
    recordPlan db email fun rec => if rec.enable then .idle else rewritePlan db email email none rec
  | .toggleEnable o email => ⟨email, hostWrites db email (getClientInboundByEmail o db email), none⟩
  | .setEnable o email enable =>
    if (checkIsEnabledByEmail o db email).toOption = some enable then .idle
    else ⟨email, hostWrites db email (getClientInboundByEmail o db email), none⟩
  | .setTelegram o trafficId _ =>
    match db.traffics.find? (o.rowId ·.email == trafficId) with
    | none => .idle
    | some traffic => ⟨traffic.email, hostWrites db traffic.email (hostOf o db traffic), none⟩
  | .setField o email _ => ⟨email, ((fieldTargets o db email).toOption.map (fieldWrites db email)).getD [], none⟩

structure Plan.Fits (p : Plan) (email : String) (db : DB) : Prop where
  carries : ∀ w ∈ p.writes, Carries email p.name db w
  lone : ∀ flow, p.again = some flow → LoneCopies email flow p.writes

def Suited (db : DB) (e : Event) : Prop := ∀ email, edited db e = some email → (plan db e).Fits email db

def KeepsFlow (env : Env) (db : DB) (e : Event) : Prop :=
  ∀ email, edited db e = some email → FlowKept email db (after env db e)

def Passed (env : Env) (db : DB) : Event → Prop
  | .applyPlan x email product => (call env db (.applyPlan x email product)).2.isOk = true ∧
      ∀ flow, (plan db (.applyPlan x email product)).again = some flow →
        LoneCopies email flow (plan db (.applyPlan x email product)).writes
  | .resetTraffic enable _ email => ∀ rec, db.record email = some rec → rec.enable = false →
      (update env enable db rec.recordId { rec.toClient with enable := true } []).2.isOk = true
  | e => (call env db e).2.isOk = true

structure Covers (email : String) (p : Plan) (db db' : DB) (passed : Prop) : Prop where
  kept : p.Fits email db → FlowKept email db db'
  exact : passed → (FlowKept email db db' ↔ p.Fits email db)
  indexed : Indexed db'

section adding

variable {env : Env} {d : Draws} {o : Attempt} {db db' : DB} {i : Int} {c c' : Client} {cs : List Client} {k : Nat}
  {ids attached : List Int} {email : String} {payload : ClientCreatePayload}

theorem Indexed.addTo (hindexed : Indexed db) (h : Clients.addTo env o db c i = .ok (db', c')) : Indexed db' := by
  simp only [Clients.addTo, addInboundClient, bind_ok, orErr_ok, check_ok] at h
  obtain ⟨_, -, ib, -, mid, ⟨_, -, _, -, _, -, old, -, push, -, _, -, hsync⟩, h⟩ := h
  cases h
  refine Indexed.sync ?_ hsync
  exact ⟨hindexed.emails, hindexed.links⟩

theorem Indexed.addToInbounds (hindexed : Indexed db) : Indexed (addToInbounds env d k db c ids).1 := by
  induction ids generalizing k db c with
  | nil => exact hindexed
  | cons i ids ih =>
    rw [Clients.addToInbounds]
    split
    · exact hindexed
    case h_2 hadd => exact ih (hindexed.addTo hadd)

theorem Indexed.attachToInbounds (hindexed : Indexed db) :
    Indexed (attachToInbounds env d attached c k db ids).1 := by
  induction ids generalizing k db with
  | nil => exact hindexed
  | cons i ids ih =>
    rw [Clients.attachToInbounds]
    split
    · exact ih hindexed
    · split
      · exact hindexed
      case h_2 hadd => exact ih (hindexed.addTo hadd)

theorem Indexed.create (hindexed : Indexed db) : Indexed (create env d db payload).1 := by
  rw [Clients.create]
  split
  · exact hindexed
  case h_2 client _ =>
    have hadded := @Indexed.addToInbounds env d db client 0 payload.inboundIds hindexed
    split
    case h_1 hrun =>
      rw [hrun] at hadded
      exact hadded
    case h_2 hrun =>
      rw [hrun] at hadded
      split
      · exact hadded
      · refine hadded.keep ?_ (List.Sublist.refl _)
        exact emails_stampOwner _ _ _

theorem Indexed.attach (hindexed : Indexed db) : Indexed (attachByEmail env d db email ids).1 := by
  rw [Clients.attachByEmail]
  split
  · exact hindexed
  · exact hindexed.attachToInbounds

end adding

section covering

variable {env : Env} {d enable reset : Draws} {o : Outside} {db db₁ db' : DB} {email name : String} {p : Plan}
  {passed : Prop} {rec : ClientRecord} {ws : List Write} {updated : Client} {res : Except String Unit} {e : Edit}
  {opts : RotateOptions} {x : OrderDraws} {product : Product} {ib : Inbound} {entry : Client}
  {traffic : ClientTraffic} {host : Except String Inbound}

theorem Plan.fits_iff (hagain : p.again = none) : p.Fits email db ↔ ∀ w ∈ p.writes, Carries email p.name db w := by
  refine ⟨fun h => h.carries, fun h => ⟨h, fun flow hflow => ?_⟩⟩
  rw [hagain] at hflow
  cases hflow

theorem Covers.of_done {done rest : List Write} (hplan : p.writes = done ++ rest) (hagain : p.again = none)
    (hkept : FlowKept email db db' ↔ ∀ w ∈ done, Carries email p.name db w) (hindexed : Indexed db')
    (hall : passed → rest = []) : Covers email p db db' passed := by
  refine ⟨fun h => hkept.mpr fun w hw => h.carries w ?_, fun hpassed => ?_, hindexed⟩
  · rw [hplan]
    exact mem_append_left rest hw
  · rw [hkept, Plan.fits_iff hagain, hplan, hall hpassed, append_nil]

theorem Covers.untouched (hindexed : Indexed db) (hagain : p.again = none) (hnot : ¬ passed) :
    Covers email p db db passed :=
  .of_done (nil_append _).symm hagain ⟨fun _ => forall_mem_nil _, fun _ => .of_same rfl rfl⟩ hindexed
    fun h => absurd h hnot

theorem Covers.idle (hindexed : Indexed db') (hinbounds : db'.inbounds = db.inbounds)
    (hlinks : db'.links = db.links) : Covers email .idle db db' passed :=
  @Covers.of_done db db' email .idle passed [] [] rfl rfl
    ⟨fun _ => forall_mem_nil _, fun _ => .of_same hinbounds hlinks⟩ hindexed fun _ => rfl

theorem update_covers (hindexed : Indexed db) (hrec : db.record email = some rec) (hne : email ≠ "")
    (hflow : updated.flow = rec.flow) (h : update env d db rec.recordId updated [] = (db', res)) :
    Covers email (rewritePlan db email updated.email none rec) db db' (res.isOk = true) := by
  obtain ⟨done, rest, hplan, hkept, hindexed', hall⟩ := update_flows hindexed hrec hne h
  rw [hflow] at hplan
  exact .of_done hplan rfl hkept hindexed' hall

theorem rotated_flow (d : Draws) (rec : ClientRecord) (opts : RotateOptions) :
    (rotated d rec opts).flow = rec.flow := by
  simp only [rotated]
  split <;> split <;> rfl

theorem rotate_covers (hindexed : Indexed db) : Covers email (plan db (.rotate d email opts)) db
    (rotate env d db email opts).1 ((rotate env d db email opts).2.isOk = true) := by
  rw [plan, recordPlan, rotate]
  cases hrec : db.record email with
  | none =>
    rw [Option.elim_none, ite_self]
    exact .idle hindexed rfl rfl
  | some rec =>
    simp only [updateByEmail, hrec, Option.elim_some]
    split
    case isTrue => exact .idle hindexed rfl rfl
    case isFalse hne => exact update_covers hindexed hrec hne (rotated_flow d rec opts) Prod.mk.eta.symm

theorem resetInInbounds_same (d : Draws) (email : String) (k : Nat) (db : DB) (ids : List Int) :
    (resetInInbounds d email k db ids).1.inbounds = db.inbounds ∧
      (resetInInbounds d email k db ids).1.links = db.links ∧
      (resetInInbounds d email k db ids).1.records = db.records := by
  induction ids generalizing k db with
  | nil => exact ⟨rfl, rfl, rfl⟩
  | cons i ids ih =>
    rw [Clients.resetInInbounds]
    split
    · exact ⟨rfl, rfl, rfl⟩
    case h_2 db' hreset =>
      simp only [resetClientTraffic, bind_ok, orErr_ok, check_ok] at hreset
      obtain ⟨t, -, _, -, _, -, _, -, h⟩ := hreset
      cases h
      exact ih _ _

theorem resetTraffic_same (hrec : db.record email = some rec) (hne : email ≠ "") :
    (resetTrafficByEmail env enable reset db email).1.inbounds = (enableForReset env enable db rec).inbounds ∧
      (resetTrafficByEmail env enable reset db email).1.links = (enableForReset env enable db rec).links ∧
      (resetTrafficByEmail env enable reset db email).1.records = (enableForReset env enable db rec).records := by
  rw [resetTrafficByEmail, if_neg hne, hrec]
  dsimp only
  split
  · split <;> exact ⟨rfl, rfl, rfl⟩
  · exact resetInInbounds_same ..

theorem Covers.congr (h : Covers email p db db₁ passed) (hinbounds : db'.inbounds = db₁.inbounds)
    (hlinks : db'.links = db₁.links) (hrecords : db'.records = db₁.records) : Covers email p db db' passed := by
  have hsame : FlowKept email db db' ↔ FlowKept email db db₁ := FlowKept.congr hinbounds hlinks
  refine ⟨fun hfits => hsame.mpr (h.kept hfits), fun hpassed => hsame.trans (h.exact hpassed), ?_, ?_⟩
  · rw [hrecords]
    exact h.indexed.emails
  · rw [hlinks]
    exact h.indexed.links

theorem enable_covers (hindexed : Indexed db) (hrec : db.record email = some rec) (hne : email ≠ "") :
    Covers email (if rec.enable then .idle else rewritePlan db email email none rec) db
      (enableForReset env enable db rec) (rec.enable = false →
        (update env enable db rec.recordId { rec.toClient with enable := true } []).2.isOk = true) := by
  rw [enableForReset]
  split
  case isTrue => exact .idle hindexed rfl rfl
  case isFalse hoff =>
    have hcovers := @update_covers env enable db _ email rec { rec.toClient with enable := true } _ hindexed hrec hne
      rfl Prod.mk.eta.symm
    have hname : ({ rec.toClient with enable := true } : Client).email = email := (record_find hrec).2
    rw [hname] at hcovers
    exact ⟨hcovers.kept, fun hpassed => hcovers.exact (hpassed (by simpa using hoff)), hcovers.indexed⟩

theorem reset_covers (hindexed : Indexed db) : Covers email (plan db (.resetTraffic enable reset email)) db
    (resetTrafficByEmail env enable reset db email).1 (Passed env db (.resetTraffic enable reset email)) := by
  rw [plan, recordPlan, Passed]
  by_cases hne : email = ""
  · rw [if_pos hne, resetTrafficByEmail, if_pos hne]
    exact .idle hindexed rfl rfl
  · rw [if_neg hne]
    cases hrec : db.record email with
    | none =>
      rw [Option.elim_none, resetTrafficByEmail, if_neg hne, hrec]
      exact .idle hindexed rfl rfl
    | some rec =>
      obtain ⟨hinbounds, hlinks, hrecords⟩ := @resetTraffic_same env enable reset db email rec hrec hne
      have hcovers := (@enable_covers env enable db email rec hindexed hrec hne).congr hinbounds hlinks hrecords
      refine ⟨hcovers.kept, fun hpassed => hcovers.exact (hpassed rec rfl), hcovers.indexed⟩

theorem FlowKept.then_iff {db₂ : DB} (h : FlowKept email db₁ db₂)
    (hid : ∀ rec, db.record email = some rec → ∃ rec₁, db₁.record email = some rec₁ ∧ rec₁.recordId = rec.recordId)
    (hsome : ∀ i, (db.inbounds.find i).isSome = true → (db₁.inbounds.find i).isSome = true) :
    FlowKept email db db₂ ↔ FlowKept email db db₁ := by
  have hlinks : ∀ rec, db.record email = some rec → ∀ i, (db.inbounds.find i).isSome →
      linkFlow db₂ rec.recordId i = linkFlow db₁ rec.recordId i := by
    intro rec hrec i hi
    obtain ⟨rec₁, hrec₁, hsame⟩ := hid rec hrec
    rw [← hsame]
    exact h.links rec₁ hrec₁ i (hsome i hi)
  constructor
  · intro hkept
    exact ⟨fun i => (h.entries i).symm.trans (hkept.entries i),
      fun rec hrec i hi => (hlinks rec hrec i hi).symm.trans (hkept.links rec hrec i hi)⟩
  · intro hkept
    exact ⟨fun i => (h.entries i).trans (hkept.entries i),
      fun rec hrec i hi => (hlinks rec hrec i hi).trans (hkept.links rec hrec i hi)⟩

theorem reset_after (hindexed : Indexed db) (hrec : db.record email = some rec) (hne : email ≠ "")
    (hname : updated.email = rec.email) (hon : updated.enable = true) (hflow : updated.flow = rec.flow)
    (h : update env d db rec.recordId updated [] = (db₁, .ok ())) :
    Indexed (resetTrafficByEmail env enable reset db₁ email).1 ∧
      (LoneCopies email rec.flow (rewrites db email email rec.flow (db.inboundIdsOf rec.recordId)) →
        (FlowKept email db (resetTrafficByEmail env enable reset db₁ email).1 ↔ FlowKept email db db₁)) := by
  have hindexed₁ := (update_covers hindexed hrec hne hflow h).indexed
  obtain ⟨u, db₀, -, -, hwrote, -, -, reverse, hdb₁⟩ := updated_once hindexed hrec hne hname hflow h
  obtain ⟨hfind, hemail⟩ := record_find hrec
  obtain ⟨r', hr', hemail'⟩ := hwrote.records _ rec hfind
  have hfound : db₁.records.find rec.recordId = some { r' with reverse, updatedAt := d.now } := by
    rw [hdb₁]
    exact Rewriting.find_setReverse hr'
  have hrec₁ : db₁.record email = some { r' with reverse, updatedAt := d.now } :=
    (congrArg db₁.record (hemail'.trans hemail)).symm.trans (hindexed₁.record hfound)
  have hkey : r'.recordId = rec.recordId := (Table.mem_of_find hr').2
  have hsome : ∀ i, (db.inbounds.find i).isSome = true → (db₁.inbounds.find i).isSome = true := by
    intro i hi
    have hsame := congrArg Option.isSome (hwrote.capable i)
    rw [Option.isSome_map, Option.isSome_map] at hsame
    rw [hdb₁]
    exact hsame.trans hi
  obtain ⟨hinbounds, hlinks, hrecords⟩ := @resetTraffic_same env enable reset db₁ email _ hrec₁ hne
  have hcovers := (@enable_covers env enable db₁ email _ hindexed₁ hrec₁ hne).congr hinbounds hlinks hrecords
  refine ⟨hcovers.indexed, fun hlone => ?_⟩
  refine FlowKept.then_iff (hcovers.kept ?_) (fun rec' hrec' => ?_) hsome
  · split
    case isTrue => exact ⟨forall_mem_nil _, fun flow hflow => by cases hflow⟩
    case isFalse hoff =>
      exact (Plan.fits_iff rfl).mpr
        (second_pass hindexed hrec hne hname hon hflow h hlone hrec₁ (by simpa using hoff))
  · obtain rfl := Option.some.inj (hrec.symm.trans hrec')
    exact ⟨_, hrec₁, hkey⟩

theorem planned_keeps (now : Int) (rec : ClientRecord) (product : Product) :
    (planned env now rec product).email = rec.email ∧ (planned env now rec product).enable = true ∧
      (planned env now rec product).flow = rec.flow := by
  simp only [planned, and_self]

theorem apply_covers (hindexed : Indexed db) : Covers email (plan db (.applyPlan x email product)) db
    (applyPlan env x db email product).1 (Passed env db (.applyPlan x email product)) := by
  rw [Passed, call, plan, recordPlan, applyPlan]
  cases hrec : db.record email with
  | none =>
    rw [Option.elim_none, ite_self]
    exact .idle hindexed rfl rfl
  | some rec =>
    rw [Option.elim_some]
    by_cases hne : email = ""
    · simp only [updateByEmail, if_pos hne, andThen]
      exact .idle hindexed rfl rfl
    · obtain ⟨-, hemail⟩ := record_find hrec
      simp only [updateByEmail, if_neg hne, hrec]
      generalize hupdate : update env x.client db rec.recordId (planned env x.client.now rec product) [] = run
      obtain ⟨db₁, res⟩ := run
      obtain ⟨hname, hon, hflow⟩ := @planned_keeps env x.client.now rec product
      have hcovers := update_covers hindexed hrec hne hflow hupdate
      rw [hname, hemail] at hcovers
      have hcarries : (rewritePlan db email email (some rec.flow) rec).Fits email db →
          (rewritePlan db email email none rec).Fits email db :=
        fun hfits => (Plan.fits_iff rfl).mpr hfits.carries
      cases res with
      | error err =>
        exact ⟨fun hfits => hcovers.kept (hcarries hfits), fun hpassed => (by cases hpassed.1), hcovers.indexed⟩
      | ok _ =>
        obtain ⟨hindexed', hagain⟩ := @reset_after env x.client x.enable x.reset db db₁ email rec _ hindexed hrec hne
          hname hon hflow hupdate
        refine ⟨fun hfits => ?_, fun hpassed => ?_, hindexed'⟩
        · exact (hagain (hfits.lone _ rfl)).mpr (hcovers.kept (hcarries hfits))
        · refine (hagain (hpassed.2 _ rfl)).trans ((hcovers.exact rfl).trans ?_)
          exact ⟨fun hfits => ⟨hfits.carries, hpassed.2⟩, hcarries⟩

end covering

section events

variable {env : Env} {o : Outside} {db db₁ db' : DB} {email : String} {passed : Prop} {ib : Inbound}
  {entry : Client} {e : Edit} {ids : List Int} {enable : Bool} {traffic : ClientTraffic} {ev : Event}
  {ws : List Write}

theorem Wrote.kept_own (h : Wrote ws db db') (howned : Owned db ws) :
    FlowKept email db db' ↔ ∀ w ∈ ws, Carries email email db w :=
  h.kept_iff rfl rfl howned fun rec hrec => ⟨rec, record_find hrec⟩

theorem host_covers (hindexed : Indexed db) (hib : db.inbounds.find ib.id = some ib)
    (hentry : entryOf ib email = some entry) (h : patch o 0 db ib e entry email = .ok db') :
    Covers email ⟨email, hostWrites db email (.ok ib), none⟩ db db' passed := by
  obtain ⟨hwrote, hindexed'⟩ := patch_wrote hindexed hib hentry h
  have hplan : fieldWrites db email [ib.id] = [⟨ib, (ib.clients.getD []).findIdx fun c =>
      Text.equalFold c.email email, email, entry.flow⟩] := by
    rw [fieldWrites, filterMap_cons, hib, Option.bind_some, hentry]
    rfl
  rw [← hplan] at hwrote
  exact .of_done (append_nil _).symm rfl (hwrote.kept_own (fieldWrites_owned (nodup_singleton _)))
    hindexed' fun _ => rfl

theorem toggle_covers (hindexed : Indexed db) : Covers email (plan db (.toggleEnable o email)) db
    (commit db (toggleClientEnableByEmail o db email)).1
    ((commit db (toggleClientEnableByEmail o db email)).2.isOk = true) := by
  rw [plan]
  cases htoggle : toggleClientEnableByEmail o db email with
  | error err => exact .untouched hindexed rfl (nomatch ·)
  | ok db' =>
    simp only [toggleClientEnableByEmail, bind_ok, orErr_ok] at htoggle
    obtain ⟨ib, hhost, entry, hentry, hpatch⟩ := htoggle
    rw [hhost]
    simp only [getClientInboundByEmail, bind_ok] at hhost
    obtain ⟨traffic, -, hhost⟩ := hhost
    exact host_covers hindexed (FieldSetters.hostOf_find hhost) hentry hpatch

theorem setEnable_covers (hindexed : Indexed db) : Covers email (plan db (.setEnable o email enable)) db
    (commit db (setClientEnableByEmail o db email enable)).1
    ((commit db (setClientEnableByEmail o db email enable)).2.isOk = true) := by
  rw [plan, setClientEnableByEmail]
  cases hcheck : checkIsEnabledByEmail o db email with
  | error err =>
    rw [if_neg (by rintro ⟨⟩)]
    exact .untouched hindexed rfl (by rintro ⟨⟩)
  | ok current =>
    have hread : (Except.ok current : Except String Bool).toOption = some current := rfl
    rw [hread]
    by_cases hsame : current = enable
    · rw [if_pos (congrArg some hsame)]
      simp only [Except.bind, bind, hsame, if_true]
      exact .idle hindexed rfl rfl
    · rw [if_neg fun heq => hsame (Option.some.inj heq)]
      simp only [Except.bind, bind, hsame, if_false]
      exact toggle_covers hindexed

theorem setTelegram_covers {trafficId tgId : Int} (hindexed : Indexed db)
    (hfound : db.traffics.find? (o.rowId ·.email == trafficId) = some traffic) :
    Covers traffic.email (plan db (.setTelegram o trafficId tgId)) db
      (commit db (setClientTelegramUserID o db trafficId tgId)).1
      ((commit db (setClientTelegramUserID o db trafficId tgId)).2.isOk = true) := by
  rw [plan, hfound]
  cases hset : setClientTelegramUserID o db trafficId tgId with
  | error err => exact .untouched hindexed rfl (nomatch ·)
  | ok db' =>
    simp only [setClientTelegramUserID, bind_ok, orErr_ok] at hset
    obtain ⟨traffic', hfound', ib, hhost, entry, hentry, hpatch⟩ := hset
    obtain rfl := Option.some.inj (hfound.symm.trans hfound')
    dsimp only
    rw [hhost]
    exact host_covers hindexed (FieldSetters.hostOf_find hhost) hentry hpatch

theorem Indexed.linked (hindexed : Indexed db) (email : String) : (linkedIds db email).Nodup := by
  refine List.Nodup.map_on ?_ ((List.Nodup.of_map _ hindexed.links).filter _)
  intro l hl l' hl' hsame
  obtain ⟨hmem, hname⟩ := mem_filter.mp hl
  obtain ⟨hmem', hname'⟩ := mem_filter.mp hl'
  obtain ⟨r, hr, hemail⟩ := (Option.any_eq_true _ _).mp hname
  obtain ⟨r', hr', hemail'⟩ := (Option.any_eq_true _ _).mp hname'
  obtain ⟨hrow, hid⟩ := Table.mem_of_find hr
  obtain ⟨hrow', hid'⟩ := Table.mem_of_find hr'
  have hsameRow : r = r' :=
    eq_of_email hindexed.emails hrow hrow' ((beq_iff_eq.mp hemail).trans (beq_iff_eq.mp hemail').symm)
  refine inj_on_of_nodup_map hindexed.links hmem hmem' (Prod.ext ?_ hsame)
  exact hid.symm.trans ((congrArg _ hsameRow).trans hid')

theorem field_covers (hindexed : Indexed db) : Covers email (plan db (.setField o email e)) db
    (applyClientFieldByEmail o db email e).1 ((applyClientFieldByEmail o db email e).2.isOk = true) := by
  rw [plan, applyClientFieldByEmail]
  cases htargets : fieldTargets o db email with
  | error err => exact .untouched hindexed rfl (by rintro ⟨⟩)
  | ok ids =>
    have hnodup := FieldSetters.fieldTargets_nodup (hindexed.linked email) htargets
    dsimp only
    generalize hrun : applyToInbounds o e email 0 db ids = run
    obtain ⟨db₁, res⟩ := run
    obtain ⟨done, rest, hplan, hwrote, hindexed₁, hall⟩ := applyToInbounds_wrote hnodup hindexed hrun
    have howned : Owned db done := by
      have hwhole := @fieldWrites_owned db email ids hnodup
      rw [hplan] at hwhole
      exact hwhole.left
    cases res with
    | error err => exact .of_done hplan rfl (hwrote.kept_own howned) hindexed₁ (by rintro ⟨⟩)
    | ok found =>
      simp only [andThen]
      split
      · exact .of_done hplan rfl (hwrote.kept_own howned) hindexed₁ fun _ => hall rfl
      · exact .of_done hplan rfl (hwrote.kept_own howned) hindexed₁ fun _ => hall rfl

theorem event_covers (hindexed : Indexed db) (hedited : edited db ev = some email) :
    Covers email (plan db ev) db (after env db ev) (Passed env db ev) := by
  cases ev with
  | create d payload => cases hedited
  | attach d client inboundIds => cases hedited
  | rotate d client opts =>
    obtain rfl := Option.some.inj hedited
    exact rotate_covers hindexed
  | applyPlan x client product =>
    obtain rfl := Option.some.inj hedited
    exact apply_covers hindexed
  | resetTraffic enable reset client =>
    obtain rfl := Option.some.inj hedited
    exact reset_covers hindexed
  | toggleEnable o client =>
    obtain rfl := Option.some.inj hedited
    exact toggle_covers hindexed
  | setEnable o client enable =>
    obtain rfl := Option.some.inj hedited
    exact setEnable_covers hindexed
  | setTelegram o trafficId tgId =>
    obtain ⟨traffic, hfound, rfl⟩ := Option.map_eq_some_iff.mp hedited
    exact setTelegram_covers hindexed hfound
  | setField o client e =>
    obtain rfl := Option.some.inj hedited
    exact field_covers hindexed

theorem event_indexed (hindexed : Indexed db) (ev : Event) : Indexed (after env db ev) := by
  cases hedited : edited db ev with
  | some email => exact (event_covers hindexed hedited).indexed
  | none =>
    cases ev with
    | create d payload =>
      rw [after, call]
      exact hindexed.create
    | attach d client inboundIds =>
      rw [after, call]
      exact hindexed.attach
    | setTelegram o trafficId tgId =>
      have hnone : db.traffics.find? (o.rowId ·.email == trafficId) = none := Option.map_eq_none_iff.mp hedited
      have hsame : after env db (.setTelegram o trafficId tgId) = db := by
        rw [after, call, setClientTelegramUserID, hnone]
        rfl
      rw [hsame]
      exact hindexed
    | rotate | applyPlan | resetTraffic | toggleEnable | setEnable | setField => cases hedited

theorem flow_survives (env : Env) (db : DB) (es : List Event) (hindexed : Indexed db) :
    (Throughout (after env) Suited db es → Throughout (after env) (KeepsFlow env) db es) ∧
      Throughout (after env) (fun db ev => Passed env db ev → (KeepsFlow env db ev ↔ Suited db ev)) db es := by
  constructor
  · intro hsuited
    refine (hsuited.keep hindexed fun db ev hindexed _ => event_indexed hindexed ev).imp ?_
    rintro db ev ⟨hindexed, hsuited⟩ email hedited
    exact (event_covers hindexed hedited).kept (hsuited email hedited)
  · induction es generalizing db with
    | nil => trivial
    | cons ev es ih =>
      refine ⟨fun hpassed => ?_, ih _ (event_indexed hindexed ev)⟩
      exact forall₂_congr fun email hedited => (event_covers hindexed hedited).exact hpassed

end events

section examples

open Rotation (draws subscriber anyKey)

def mixedPanel : DB where
  inbounds :=
    (Table.empty.insert (fun id => ⟨id, .vless, none, "", true, some []⟩) (bare_keyed true)).insert
      (fun id => ⟨id, .vless, none, "", false, some []⟩) (bare_keyed false)
  records := Table.empty
  links := []
  traffics := []

def created (inboundIds : List Int) : Event :=
  .create draws ⟨{ subscriber "u1" with flow := "xtls-rprx-vision" }, inboundIds, 0, 0⟩

def disabled : Event := .rotate draws "alice" ⟨"", some false, false⟩

def held (flow : String) : Client := { subscriber "u1" with flow, updatedAt := 7 }

def heldWrites : List Write :=
  [⟨⟨1, .vless, none, "", true, some [held "xtls-rprx-vision"]⟩, 0, "alice", "xtls-rprx-vision"⟩,
    ⟨⟨2, .vless, none, "", false, some [held ""]⟩, 0, "alice", ""⟩]

theorem mixedPanel_indexed : Indexed mixedPanel := ⟨nodup_nil, nodup_nil⟩

theorem flow_survives_sample :
    Indexed mixedPanel ∧ Throughout (after anyKey) (KeepsFlow anyKey) mixedPanel [created [2, 1], disabled] := by
  refine ⟨mixedPanel_indexed, (flow_survives anyKey mixedPanel _ mixedPanel_indexed).1 ⟨nofun, ?_, trivial⟩⟩
  have hplan : plan (after anyKey mixedPanel (created [2, 1])) disabled = ⟨"alice", heldWrites, none⟩ := rfl
  have hrecord : (after anyKey mixedPanel (created [2, 1])).record "alice" =
      some { held "xtls-rprx-vision" with recordId := 1, ownerId := 0, tenantId := 0 } := rfl
  intro email hedited
  obtain rfl := Option.some.inj hedited
  rw [hplan]
  refine (Plan.fits_iff rfl).mpr fun w hw => ⟨fun c hc => ?_, fun rec hrec => ?_⟩
  · rcases mem_cons.mp hw with rfl | hw
    · cases hc
      rfl
    · obtain rfl := mem_singleton.mp hw
      cases hc
      rfl
  · obtain rfl := Option.some.inj (hrecord.symm.trans hrec)
    rcases mem_cons.mp hw with rfl | hw
    · rfl
    · obtain rfl := mem_singleton.mp hw
      rfl

theorem rotate_strips_flow : ¬ ∀ (env : Env) (db : DB) (es : List Event), db.records.rows = [] → db.links = [] →
    (∀ i, db.settingsClients i = []) → Throughout (after env) (KeepsFlow env) db es := by
  intro hclaim
  have hempty : ∀ i, mixedPanel.settingsClients i = [] := by
    intro i
    rw [DB.settingsClients, DB.clientsOf]
    cases hfind : mixedPanel.inbounds.find i with
    | none => rfl
    | some ib =>
      have hmem := (Table.mem_of_find hfind).1
      rcases mem_cons.mp hmem with rfl | hmem
      · rfl
      · rw [mem_singleton.mp hmem]
        rfl
  have hkept := (hclaim anyKey mixedPanel [created [1, 2], disabled] rfl rfl hempty).2.1 "alice" rfl
  have hentries := hkept.entries 1
  have hbefore : ((after anyKey mixedPanel (created [1, 2])).settingsClients 1).map (·.flow) =
      ["xtls-rprx-vision"] := rfl
  have hafter : ((after anyKey (after anyKey mixedPanel (created [1, 2])) disabled).settingsClients 1).map
      (·.flow) = [""] := rfl
  rw [hafter, hbefore] at hentries
  exact absurd hentries (by decide)

end examples

end Flows

end QuiPanel
