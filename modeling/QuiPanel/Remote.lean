import QuiPanel.Clients
import QuiPanel.Library.Fields
import QuiPanel.Library.Twins

namespace QuiPanel

namespace Remote

open Keyed Outcome Twins List
open Clients (Client)

structure Inbound (B : Type) where
  id : Int
  tag : String
  body : B

structure Store (B : Type) where
  table : Table (Inbound B) Inbound.id
  tags : (table.rows.map (·.tag)).Nodup
  positive : 0 < table.next

inductive Request (B : Type)
  | list
  | add (tag : String) (body : B)
  | del (id : Int)
  | update (id : Int) (tag : String) (body : B)
  | addClient (client : Client) (inboundIds : List Int)
  | detach (email : String) (inboundIds : List Int)
  | updateClient (email : String) (inboundIds : List Int) (client : Client)
  | resetTraffic (id : Int)

structure Server (B : Type) where
  edit : Request B → B → B
  settle : List String → String → B → Option String
  fresh : ∀ tags tag body t, settle tags tag body = some t → t ∉ tags
  keeps : ∀ tags tag body, tag ≠ "" → tag ∉ tags → settle tags tag body = some tag

inductive Obj (B : Type)
  | empty
  | inbounds (list : List (Inbound B))
  | created (ib : Inbound B)

inductive Fate
  | unsent (text : String)
  | lost (text : String) (applied : Bool)
  | rejected (msg : String)
  | served
  deriving DecidableEq

inductive RemoteError
  | request (text : String)
  | missing (tag name : String)
  | resolve (operation tag : String) (e : RemoteError)

structure Node where
  id : Int
  name : String
  apiToken : String
  address : Except String String
  port : Int

variable {B : Type}

def Request.isList : Request B → Bool
  | .list => true
  | _ => false

def Request.inboundIds : Request B → List Int
  | .list | .add _ _ => []
  | .del id | .update id _ _ | .resetTraffic id => [id]
  | .addClient _ ids | .detach _ ids | .updateClient _ ids _ => ids

def Fate.sent : Fate → Bool
  | .unsent _ => false
  | _ => true

def Fate.text : Fate → String
  | .unsent text | .lost text _ => text
  | .rejected msg => "remote: " ++ msg
  | .served => ""

def Obj.list : Obj B → List (Inbound B)
  | .inbounds list => list
  | _ => []

def Node.tagPrefix (n : Node) : String := Ports.nodeTagPrefix (some n.id)

def Node.baseURL (n : Node) : Except String String := do
  let addr ← n.address
  check (0 < n.port ∧ n.port ≤ 65535) ("invalid node port " ++ toString n.port)
  return addr

def Node.refusal (n : Node) : Option String :=
  if n.apiToken = "" then some "node has no API token configured"
  else match n.baseURL with
    | .error e => some e
    | .ok _ => none

section node

namespace Store

variable (st : Store B)

def rows : List (Inbound B) := st.table.rows

def holds (id : Int) : Bool := st.rows.any (·.id == id)

def insert (tag : String) (body : B) (h : tag ∉ st.rows.map (·.tag)) : Store B where
  table := st.table.insert (fun id => ⟨id, tag, body⟩) fun _ => rfl
  tags := by
    rw [Table.rows_insert, map_append, map_singleton, ← concat_eq_append]
    exact List.Nodup.concat h st.tags
  positive := lt_trans st.positive (lt_add_one _)

def delete (id : Int) : Store B where
  table := st.table.delete (·.id == id)
  tags := st.tags.sublist (filter_sublist.map _)
  positive := st.positive

def others (id : Int) : List (Inbound B) := st.rows.filter (·.id ≠ id)

def rewrite (id : Int) (tag : String) (body : B) (ib : Inbound B) : Inbound B :=
  if ib.id = id then ⟨id, tag, body⟩ else ib

theorem rewrite_id {id : Int} {tag : String} {body : B} {ib : Inbound B} :
    (rewrite id tag body ib).id = ib.id := by
  rw [rewrite]
  split
  · exact (‹ib.id = id›).symm
  · rfl

theorem rewrite_tags {rows : List (Inbound B)} {id : Int} {tag : String} {body : B}
    (hids : (rows.map (·.id)).Nodup) (htags : (rows.map (·.tag)).Nodup)
    (h : tag ∉ (rows.filter (·.id ≠ id)).map (·.tag)) :
    ((rows.map (rewrite id tag body)).map (·.tag)).Nodup := by
  rw [map_map]
  refine List.Nodup.map_on ?_ (List.Nodup.of_map _ hids)
  have hother : ∀ ib ∈ rows, ib.id ≠ id → ib.tag ≠ tag := by
    intro ib hib hne htag
    exact h (mem_map.mpr ⟨ib, mem_filter.mpr ⟨hib, by simpa using hne⟩, htag⟩)
  intro a ha b hb hab
  simp only [Function.comp_apply, rewrite] at hab
  by_cases hia : a.id = id
  · by_cases hib : b.id = id
    · exact inj_on_of_nodup_map hids ha hb (hia.trans hib.symm)
    · rw [if_pos hia, if_neg hib] at hab
      exact absurd hab.symm (hother b hb hib)
  · rw [if_neg hia] at hab
    by_cases hib : b.id = id
    · rw [if_pos hib] at hab
      exact absurd hab (hother a ha hia)
    · rw [if_neg hib] at hab
      exact inj_on_of_nodup_map htags ha hb hab

def update (id : Int) (tag : String) (body : B) (h : tag ∉ (st.others id).map (·.tag)) : Store B where
  table := st.table.map (rewrite id tag body) fun _ => rewrite_id
  tags := rewrite_tags st.table.nodup st.tags h
  positive := st.positive

def edit (f : B → B) (ids : List Int) : Store B where
  table := st.table.map (fun ib => if ib.id ∈ ids then { ib with body := f ib.body } else ib) fun ib => by
    split <;> rfl
  tags := by
    have hsame : ∀ ib : Inbound B, (if ib.id ∈ ids then { ib with body := f ib.body } else ib).tag = ib.tag := by
      intro ib
      split <;> rfl
    simp only [Table.map, map_map, Function.comp_def, hsame]
    exact st.tags
  positive := st.positive

end Store

def handle (srv : Server B) (st : Store B) (q : Request B) : Except String (Store B × Obj B) :=
  match q with
  | .list => .ok (st, .inbounds st.rows)
  | .add tag body =>
    match h : srv.settle (st.rows.map (·.tag)) tag body with
    | none => .error "could not pick a unique inbound tag"
    | some t => .ok (st.insert t body (srv.fresh _ _ _ _ h), .created ⟨st.table.next, t, body⟩)
  | .del id => if st.holds id then .ok (st.delete id, .empty) else .error "record not found"
  | .update id tag body =>
    if st.holds id then
      match h : srv.settle ((st.others id).map (·.tag)) tag body with
      | none => .error "could not pick a unique inbound tag"
      | some t => .ok (st.update id t body (srv.fresh _ _ _ _ h), .empty)
    else .error "record not found"
  | q =>
    if q.inboundIds.all st.holds then .ok (st.edit (srv.edit q) q.inboundIds, .empty)
    else .error "record not found"

end node

structure Session (B : Type) where
  store : Store B
  cache : Fields Int
  fates : Nat → Fate
  log : List (Request B × Fate)

section requests

variable (srv : Server B) (n : Node) (s : Session B)

def Session.fate : Fate :=
  match n.refusal with
  | some e => .unsent e
  | none => s.fates s.log.length

def Session.after (q : Request B) (fate : Fate) (store : Store B) : Session B :=
  { s with store, log := s.log ++ [(q, fate)] }

def doRequest (q : Request B) : Session B × Except RemoteError (Obj B) :=
  match s.fate n, handle srv s.store q with
  | .served, .ok (store, obj) => (s.after q .served store, .ok obj)
  | .served, .error msg => (s.after q (.rejected msg) s.store, .error (.request (Fate.rejected msg).text))
  | .lost text true, .ok (store, _) => (s.after q (.lost text true) store, .error (.request text))
  | fate, _ => (s.after q fate s.store, .error (.request fate.text))

def idsByTag (list : List (Inbound B)) : Fields Int :=
  list.foldl (fun c ib => if ib.tag = "" then c else c.put ib.tag ib.id) []

def cacheGetTag (c : Fields Int) (tag : String) : Option Int :=
  match c.get tag with
  | some id => some id
  | none =>
    match cut n.tagPrefix tag with
    | some stripped => c.get stripped
    | none => c.get (n.tagPrefix ++ tag)

def refreshRemoteIDs : Session B × Except RemoteError Unit :=
  andThen (doRequest srv n s .list) fun s obj => ({ s with cache := idsByTag obj.list }, .ok ())

def resolveRemoteID (tag : String) : Session B × Except RemoteError Int :=
  match cacheGetTag n s.cache tag with
  | some id => (s, .ok id)
  | none => andThen (refreshRemoteIDs srv n s) fun s _ =>
      (s, orErr (cacheGetTag n s.cache tag) (.missing tag n.name))

def Session.remember (s : Session B) : Obj B → Session B
  | .created c => if 0 < c.id ∧ c.tag ≠ "" then { s with cache := s.cache.put c.tag c.id } else s
  | _ => s

def addInbound (ib : Inbound B) : Session B × Except RemoteError Unit :=
  andThen (doRequest srv n s (.add ib.tag ib.body)) fun s obj => (s.remember obj, .ok ())

def delInbound (tag : String) : Session B × Except RemoteError Unit :=
  match resolveRemoteID srv n s tag with
  | (s, .error _) => (s, .ok ())
  | (s, .ok id) => andThen (doRequest srv n s (.del id)) fun s _ =>
      ({ s with cache := s.cache.del tag }, .ok ())

def updateInbound (oldIb newIb : Inbound B) : Session B × Except RemoteError Unit :=
  match resolveRemoteID srv n s oldIb.tag with
  | (s, .error _) => addInbound srv n s newIb
  | (s, .ok id) => andThen (doRequest srv n s (.update id newIb.tag newIb.body)) fun s _ =>
      let cache := if oldIb.tag ≠ newIb.tag then s.cache.del oldIb.tag else s.cache
      ({ s with cache := cache.put newIb.tag id }, .ok ())

def resolving {α : Type} (operation tag : String) (r : Session B × Except RemoteError α) :
    Session B × Except RemoteError α :=
  (r.1, r.2.mapError (.resolve operation tag))

def addClient (ib : Inbound B) (client : Client) : Session B × Except RemoteError Unit :=
  andThen (resolving "AddClient" ib.tag (resolveRemoteID srv n s ib.tag)) fun s id =>
    andThen (doRequest srv n s (.addClient client [id])) fun s _ => (s, .ok ())

def notFound (text : String) : Bool := (Text.toLower text).toList.tails.any "not found".toList.isPrefixOf

def deleteUser (ib : Inbound B) (email : String) : Session B × Except RemoteError Unit :=
  if email = "" then (s, .ok ())
  else andThen (resolving "DeleteUser" ib.tag (resolveRemoteID srv n s ib.tag)) fun s id =>
    match doRequest srv n s (.detach email [id]) with
    | (s, .ok _) => (s, .ok ())
    | (s, .error (.request text)) => (s, if notFound text then .ok () else .error (.request text))
    | (s, .error e) => (s, .error e)

def updateUser (ib : Inbound B) (oldEmail : String) (payload : Client) : Session B × Except RemoteError Unit :=
  andThen (resolveRemoteID srv n s ib.tag) fun s id =>
    andThen (doRequest srv n s
      (.updateClient (if oldEmail = "" then payload.email else oldEmail) [id] payload)) fun s _ => (s, .ok ())

def resetInboundTraffic (ib : Inbound B) : Session B × Except RemoteError Unit :=
  andThen (doRequest srv n s (.resetTraffic ib.id)) fun s _ => (s, .ok ())

end requests

section lookups

variable {srv : Server B} {n : Node} {s : Session B} {tag : String} {id : Int} {c : Fields Int}
  {list : List (Inbound B)}

theorem cacheGetTag_eq : cacheGetTag n c tag = (c.get tag).or (c.get (toggle n.tagPrefix tag)) := by
  rw [cacheGetTag]
  cases c.get tag with
  | some id => rfl
  | none =>
    rw [Option.none_or, toggle]
    cases cut n.tagPrefix tag <;> rfl

theorem idsByTag_concat {ib : Inbound B} :
    idsByTag (list ++ [ib]) = if ib.tag = "" then idsByTag list else (idsByTag list).put ib.tag ib.id := by
  rw [idsByTag, foldl_append]
  rfl

theorem idsByTag_sound (h : (idsByTag list).get tag = some id) :
    ∃ ib ∈ list, ib.id = id ∧ ib.tag = tag ∧ tag ≠ "" := by
  induction list using List.reverseRecOn with
  | nil => cases h
  | append_singleton list ib ih =>
    have hearlier (h : (idsByTag list).get tag = some id) :
        ∃ ib' ∈ list ++ [ib], ib'.id = id ∧ ib'.tag = tag ∧ tag ≠ "" := by
      obtain ⟨ib', hib', hrest⟩ := ih h
      exact ⟨ib', mem_append_left _ hib', hrest⟩
    rw [idsByTag_concat] at h
    by_cases htag : ib.tag = ""
    · rw [if_pos htag] at h
      exact hearlier h
    · rw [if_neg htag, Fields.get_put] at h
      by_cases hsame : ib.tag = tag
      · rw [if_pos hsame, Option.some.injEq] at h
        exact ⟨ib, mem_append_right _ mem_cons_self, h, hsame, hsame ▸ htag⟩
      · rw [if_neg hsame] at h
        exact hearlier h

theorem idsByTag_complete {ib : Inbound B} (hmem : ib ∈ list) (htag : ib.tag ≠ "") :
    ∃ id, (idsByTag list).get ib.tag = some id := by
  induction list using List.reverseRecOn with
  | nil => cases hmem
  | append_singleton list ib' ih =>
    rw [idsByTag_concat]
    by_cases hlast : ib'.tag = ""
    · rw [if_pos hlast]
      rcases mem_append.mp hmem with hmem | hmem
      · exact ih hmem
      · rw [mem_singleton.mp hmem] at htag
        exact absurd hlast htag
    · rw [if_neg hlast, Fields.get_put]
      by_cases hsame : ib'.tag = ib.tag
      · exact ⟨ib'.id, if_pos hsame⟩
      · rw [if_neg hsame]
        rcases mem_append.mp hmem with hmem | hmem
        · exact ih hmem
        · exact absurd (congrArg Inbound.tag (mem_singleton.mp hmem)).symm hsame

theorem doRequest_served {q : Request B} {store : Store B} {obj : Obj B} (hfate : s.fate n = .served)
    (h : handle srv s.store q = .ok (store, obj)) :
    doRequest srv n s q = (s.after q .served store, .ok obj) := by
  simp only [doRequest, hfate, h]

theorem doRequest_cases (srv : Server B) (n : Node) (s : Session B) (q : Request B) :
    (∃ store obj, s.fate n = .served ∧ handle srv s.store q = .ok (store, obj) ∧
      doRequest srv n s q = (s.after q .served store, .ok obj)) ∨
    ∃ f store, f ≠ .served ∧ f.sent = (s.fate n).sent ∧
      (s.fate n ≠ .served ∧ f = s.fate n ∨ s.fate n = .served ∧ ∃ msg, handle srv s.store q = .error msg) ∧
      doRequest srv n s q = (s.after q f store, .error (.request f.text)) := by
  cases hfate : s.fate n with
  | served =>
    cases hreply : handle srv s.store q with
    | ok reply => exact .inl ⟨reply.1, reply.2, rfl, rfl, doRequest_served hfate hreply⟩
    | error msg =>
      refine .inr ⟨.rejected msg, s.store, by simp, rfl, .inr ⟨rfl, msg, rfl⟩, ?_⟩
      simp only [doRequest, hfate, hreply]
  | unsent text =>
    refine .inr ⟨.unsent text, s.store, by simp, rfl, .inl ⟨by simp, rfl⟩, ?_⟩
    simp only [doRequest, hfate]
  | rejected msg =>
    refine .inr ⟨.rejected msg, s.store, by simp, rfl, .inl ⟨by simp, rfl⟩, ?_⟩
    simp only [doRequest, hfate]
  | lost text applied =>
    cases applied with
    | false =>
      refine .inr ⟨.lost text false, s.store, by simp, rfl, .inl ⟨by simp, rfl⟩, ?_⟩
      simp only [doRequest, hfate]
    | true =>
      cases hreply : handle srv s.store q with
      | ok reply =>
        refine .inr ⟨.lost text true, reply.1, by simp, rfl, .inl ⟨by simp, rfl⟩, ?_⟩
        simp only [doRequest, hfate, hreply]
        rfl
      | error msg =>
        refine .inr ⟨.lost text true, s.store, by simp, rfl, .inl ⟨by simp, rfl⟩, ?_⟩
        simp only [doRequest, hfate, hreply]

def Session.listed (s : Session B) : Session B :=
  { s.after .list .served s.store with cache := idsByTag s.store.rows }

inductive Lookup (n : Node) (s : Session B) (tag : String) : Session B → Except RemoteError Int → Prop
  | hit (id : Int) (h : cacheGetTag n s.cache tag = some id) : Lookup n s tag s (.ok id)
  | unlisted (hmiss : cacheGetTag n s.cache tag = none) (hfate : s.fate n ≠ .served) :
      Lookup n s tag (s.after .list (s.fate n) s.store) (.error (.request (s.fate n).text))
  | found (id : Int) (hmiss : cacheGetTag n s.cache tag = none) (hfate : s.fate n = .served)
      (h : cacheGetTag n (idsByTag s.store.rows) tag = some id) : Lookup n s tag s.listed (.ok id)
  | absent (hmiss : cacheGetTag n s.cache tag = none) (hfate : s.fate n = .served)
      (h : cacheGetTag n (idsByTag s.store.rows) tag = none) :
      Lookup n s tag s.listed (.error (.missing tag n.name))

theorem refreshRemoteIDs_served (h : s.fate n = .served) : refreshRemoteIDs srv n s = (s.listed, .ok ()) := by
  rw [refreshRemoteIDs, doRequest_served h rfl]
  rfl

theorem refreshRemoteIDs_unserved (h : s.fate n ≠ .served) :
    refreshRemoteIDs srv n s = (s.after .list (s.fate n) s.store, .error (.request (s.fate n).text)) := by
  rw [refreshRemoteIDs, doRequest]
  cases hfate : s.fate n with
  | served => exact absurd hfate h
  | unsent text => rfl
  | rejected msg => rfl
  | lost text applied => cases applied <;> rfl

theorem resolveRemoteID_lookup (srv : Server B) (n : Node) (s : Session B) (tag : String) :
    Lookup n s tag (resolveRemoteID srv n s tag).1 (resolveRemoteID srv n s tag).2 := by
  rw [resolveRemoteID]
  cases hget : cacheGetTag n s.cache tag with
  | some id => exact .hit id hget
  | none =>
    by_cases hfate : s.fate n = .served
    · simp only [refreshRemoteIDs_served hfate, andThen]
      cases hlisted : cacheGetTag n s.listed.cache tag with
      | some id => exact .found id hget hfate hlisted
      | none => exact .absent hget hfate hlisted
    · simp only [refreshRemoteIDs_unserved hfate, andThen]
      exact .unlisted hget hfate

end lookups

inductive Op (B : Type)
  | addClient (ib : Inbound B) (client : Client)
  | updateUser (ib : Inbound B) (oldEmail : String) (payload : Client)
  | deleteUser (ib : Inbound B) (email : String)
  | updateInbound (oldIb newIb : Inbound B)
  | delInbound (ib : Inbound B)
  | resetInboundTraffic (ib : Inbound B)

def Op.tag : Op B → String
  | .addClient ib _ | .updateUser ib _ _ | .deleteUser ib _ | .updateInbound ib _ | .delInbound ib
  | .resetInboundTraffic ib => ib.tag

def perform (srv : Server B) (n : Node) (s : Session B) : Op B → Session B × Except RemoteError Unit
  | .addClient ib client => addClient srv n s ib client
  | .updateUser ib oldEmail payload => updateUser srv n s ib oldEmail payload
  | .deleteUser ib email => deleteUser srv n s ib email
  | .updateInbound oldIb newIb => updateInbound srv n s oldIb newIb
  | .delInbound ib => delInbound srv n s ib.tag
  | .resetInboundTraffic ib => resetInboundTraffic srv n s ib

section honesty

variable (srv : Server B) (n : Node)

def made (s s' : Session B) : List (Request B × Fate) := s'.log.drop s.log.length

def Holds (st : Store B) (tag : String) (id : Int) : Prop :=
  ∃ ib ∈ st.rows, ib.id = id ∧ Same n.tagPrefix tag ib.tag

structure Honest (tag : String) (s : Session B) (r : Session B × Except RemoteError Unit) : Prop where
  aimed : ∀ q f, (q, f) ∈ made s r.1 → f.sent = true → ∀ id ∈ q.inboundIds, Holds n s.store tag id
  truthful : r.2 = .ok () → (∃ q, q.isList = false ∧ (q, .served) ∈ made s r.1) ∨
    ((.list, .served) ∈ made s r.1 ∧ ∀ id, ¬Holds n s.store tag id)
  reported : ∀ f, (.list, f) ∈ made s r.1 → f ≠ .served → r.2 ≠ .ok ()

def Faithful (s : Session B) : Prop :=
  ∀ tag id, s.cache.get tag = some id → ∃ ib ∈ s.store.rows, ib.id = id ∧ ib.tag = tag

def fateAt (s : Session B) (k : Nat) : Fate :=
  match n.refusal with
  | some e => .unsent e
  | none => s.fates (s.log.length + k)

def cached (s : Session B) (tag : String) : Bool := (cacheGetTag n s.cache tag).isSome

def listable (s : Session B) (tag : String) : Bool := (cacheGetTag n (idsByTag s.store.rows) tag).isSome

def acting (s : Session B) (tag : String) : Fate := fateAt n s (if cached n s tag then 0 else 1)

def Located (s : Session B) (tag : String) : Prop :=
  cached n s tag ∨ fateAt n s 0 = .served ∧ listable n s tag

def addable (st : Store B) (ib : Inbound B) : Bool :=
  (srv.settle (st.rows.map (·.tag)) ib.tag ib.body).isSome

def Covered (s : Session B) : Op B → Prop
  | .addClient _ _ | .updateUser _ _ _ => True
  | .deleteUser ib email => email ≠ "" ∧ (Located n s ib.tag → acting n s ib.tag ≠ .served →
      notFound (acting n s ib.tag).text = false)
  | .updateInbound oldIb newIb => cached n s oldIb.tag = false → fateAt n s 0 ≠ .served →
      fateAt n s 1 = .served → addable srv s.store newIb = false
  | .delInbound ib => cached n s ib.tag ∨ fateAt n s 0 = .served ∧
      (listable n s ib.tag ∨ ∀ row ∈ s.store.rows, row.tag = "" → ¬Same n.tagPrefix ib.tag "")
  | .resetInboundTraffic ib => (fateAt n s 0).sent = true → Holds n s.store ib.tag ib.id

variable {srv n} {s : Session B} {tag : String} {id : Int}

theorem holds_of_cacheGetTag {c : Fields Int}
    (hc : ∀ t id, c.get t = some id → ∃ ib ∈ s.store.rows, ib.id = id ∧ ib.tag = t)
    (h : cacheGetTag n c tag = some id) : Holds n s.store tag id := by
  rw [cacheGetTag_eq, Option.or_eq_some_iff] at h
  rcases h with h | ⟨-, h⟩
  · obtain ⟨ib, hib, hid, htag⟩ := hc _ _ h
    exact ⟨ib, hib, hid, .inl htag⟩
  · obtain ⟨ib, hib, hid, htag⟩ := hc _ _ h
    exact ⟨ib, hib, hid, .inr htag⟩

theorem holds_of_listed (h : cacheGetTag n (idsByTag s.store.rows) tag = some id) : Holds n s.store tag id := by
  refine holds_of_cacheGetTag (fun t id hget => ?_) h
  obtain ⟨ib, hib, hid, htag, -⟩ := idsByTag_sound hget
  exact ⟨ib, hib, hid, htag⟩

variable {ib : Inbound B}

theorem untagged_of_unlisted (h : cacheGetTag n (idsByTag s.store.rows) tag = none)
    (hib : ib ∈ s.store.rows) (hsame : Same n.tagPrefix tag ib.tag) : ib.tag = "" := by
  by_contra htag
  obtain ⟨id, hget⟩ := idsByTag_complete hib htag
  rw [cacheGetTag_eq, Option.or_eq_none_iff] at h
  rcases hsame with heq | heq
  · rw [← heq, hget] at h
    exact absurd h.1 (by simp)
  · rw [← heq, hget] at h
    exact absurd h.2 (by simp)

variable {s' : Session B}

theorem made_of_log {es : List (Request B × Fate)} (h : s'.log = s.log ++ es) :
    made s s' = es := by
  rw [made, h, drop_left]

inductive Sought (s : Session B) : Session B → Prop
  | cached : Sought s s
  | listed : Sought s s.listed

theorem Sought.log (h : Sought s s') :
    s'.store = s.store ∧ ∃ es, s'.log = s.log ++ es ∧ ∀ e ∈ es, e = (.list, .served) := by
  cases h with
  | cached => exact ⟨rfl, [], (append_nil _).symm, fun e he => absurd he not_mem_nil⟩
  | listed => exact ⟨rfl, [(.list, .served)], rfl, fun e he => mem_singleton.mp he⟩

section acted

variable {s₁ : Session B} {q : Request B} {f : Fate} {r : Session B × Except RemoteError Unit}

theorem made_acted (h : Sought s s₁) (hlog : r.1.log = s₁.log ++ [(q, f)]) :
    ∃ es, made s r.1 = es ++ [(q, f)] ∧ ∀ e ∈ es, e = (.list, .served) := by
  obtain ⟨-, es, hes, hall⟩ := h.log
  exact ⟨es, made_of_log (by rw [hlog, hes, append_assoc]), hall⟩

theorem honest_acted (h : Sought s s₁) (hlog : r.1.log = s₁.log ++ [(q, f)]) (hq : q.isList = false)
    (haim : f.sent = true → ∀ id ∈ q.inboundIds, Holds n s.store tag id)
    (hok : r.2 = .ok () → f = .served) : Honest n tag s r := by
  obtain ⟨es, hmade, hes⟩ := made_acted h hlog
  have hmem : ∀ q' f', (q', f') ∈ made s r.1 → (q', f') = (.list, .served) ∨ (q', f') = (q, f) := by
    intro q' f' h'
    rw [hmade] at h'
    rcases mem_append.mp h' with h' | h'
    · exact .inl (hes _ h')
    · exact .inr (mem_singleton.mp h')
  refine ⟨fun q' f' h' hsent id hid => ?_, fun hr => .inl ⟨q, hq, ?_⟩, fun f' h' hf' => ?_⟩
  · rcases hmem q' f' h' with heq | heq
    · obtain ⟨rfl, -⟩ := Prod.mk.inj heq
      cases hid
    · obtain ⟨rfl, rfl⟩ := Prod.mk.inj heq
      exact haim hsent id hid
  · rw [hmade, ← hok hr]
    exact mem_append_right _ mem_cons_self
  · rcases hmem _ f' h' with heq | heq
    · exact absurd (Prod.mk.inj heq).2 hf'
    · obtain ⟨rfl, -⟩ := Prod.mk.inj heq
      cases hq

theorem not_honest_acted (h : Sought s s₁) (hlog : r.1.log = s₁.log ++ [(q, f)])
    (hholds : Holds n s.store tag id) (hf : f ≠ .served) (hok : r.2 = .ok ()) : ¬Honest n tag s r := by
  obtain ⟨es, hmade, hes⟩ := made_acted h hlog
  intro hhonest
  rcases hhonest.truthful hok with ⟨q', hq', h'⟩ | ⟨-, hnone⟩
  · rw [hmade] at h'
    rcases mem_append.mp h' with h' | h'
    · obtain ⟨rfl, -⟩ := Prod.mk.inj (hes _ h')
      cases hq'
    · exact hf (Prod.mk.inj (mem_singleton.mp h')).2.symm
  · exact hnone id hholds

end acted

theorem resolve_cases (srv : Server B) (tag : String) (h : Faithful s) :
    (∃ s₁ id, resolveRemoteID srv n s tag = (s₁, .ok id) ∧ Sought s s₁ ∧ Holds n s.store tag id ∧
      Located n s tag ∧ s₁.fate n = acting n s tag) ∨
    (∃ e, resolveRemoteID srv n s tag = (s.after .list (s.fate n) s.store, .error e) ∧
      cached n s tag = false ∧ fateAt n s 0 ≠ .served) ∨
    ∃ e, resolveRemoteID srv n s tag = (s.listed, .error e) ∧ cached n s tag = false ∧
      fateAt n s 0 = .served ∧ cacheGetTag n (idsByTag s.store.rows) tag = none := by
  have hlookup := resolveRemoteID_lookup srv n s tag
  rcases hres : resolveRemoteID srv n s tag with ⟨s₁, x⟩
  rw [hres] at hlookup
  cases hlookup with
  | hit id hget =>
    have hcached : cached n s₁ tag = true := by simp [cached, hget]
    refine .inl ⟨_, id, rfl, .cached, holds_of_cacheGetTag h hget, .inl hcached, ?_⟩
    rw [acting, if_pos hcached]
    rfl
  | unlisted hmiss hfate => exact .inr (.inl ⟨_, rfl, by simp [cached, hmiss], hfate⟩)
  | found id hmiss hfate hget =>
    have hcached : cached n s tag = false := by simp [cached, hmiss]
    refine .inl ⟨_, id, rfl, .listed, holds_of_listed hget, .inr ⟨hfate, by simp [listable, hget]⟩, ?_⟩
    rw [acting, if_neg (by simp [hcached])]
    simp [Session.fate, fateAt, Session.after]
  | absent hmiss hfate hget => exact .inr (.inr ⟨_, rfl, by simp [cached, hmiss], hfate, hget⟩)

theorem act_cases (srv : Server B) (n : Node) (s : Session B) (q : Request B) (g : Session B → Obj B → Session B)
    (hg : ∀ s obj, (g s obj).log = s.log) :
    ∃ f, (andThen (doRequest srv n s q) fun s obj => (g s obj, .ok ())).1.log = s.log ++ [(q, f)] ∧
      f.sent = (s.fate n).sent ∧
      ((andThen (doRequest srv n s q) fun s obj => (g s obj, .ok ())).2 = .ok () → f = .served) := by
  rcases doRequest_cases srv n s q with ⟨store, obj, hfate, -, hdo⟩ | ⟨f, store, -, hsent, -, hdo⟩
  · refine ⟨.served, ?_, by rw [hfate], fun _ => rfl⟩
    rw [hdo]
    exact hg _ _
  · refine ⟨f, by rw [hdo]; rfl, hsent, fun hok => ?_⟩
    rw [hdo] at hok
    cases hok

theorem honest_act {s₁ : Session B} {q : Request B} {g : Session B → Obj B → Session B} (hs : Sought s s₁)
    (hq : q.isList = false) (haim : (s₁.fate n).sent = true → ∀ id ∈ q.inboundIds, Holds n s.store tag id)
    (hg : ∀ s obj, (g s obj).log = s.log) :
    Honest n tag s (andThen (doRequest srv n s₁ q) fun s obj => (g s obj, .ok ())) := by
  obtain ⟨f, hlog, hsent, hok⟩ := act_cases srv n s₁ q g hg
  exact honest_acted hs hlog hq (fun hf => haim (hsent ▸ hf)) hok

theorem honest_refused {f : Fate} {e : RemoteError} (hlog : s'.log = s.log ++ [(.list, f)]) :
    Honest n tag s (s', .error e) := by
  have hmade : made s s' = [(.list, f)] := made_of_log hlog
  refine ⟨fun q f' h _ id hid => ?_, fun h => (nomatch h), fun f' _ _ h => (nomatch h)⟩
  rw [hmade] at h
  obtain ⟨rfl, -⟩ := Prod.mk.inj (mem_singleton.mp h)
  cases hid

theorem honest_addClient {client : Client} (h : Faithful s) :
    Honest n ib.tag s (addClient srv n s ib client) := by
  rw [addClient]
  rcases resolve_cases srv ib.tag h with ⟨s₁, id, hres, hs, hid, -, -⟩ | ⟨e, hres, -⟩ | ⟨e, hres, -⟩
  · rw [hres]
    exact honest_act (g := fun s _ => s) hs rfl (fun _ id' hid' => mem_singleton.mp hid' ▸ hid) fun _ _ => rfl
  · rw [hres]
    exact honest_refused rfl
  · rw [hres]
    exact honest_refused rfl

theorem honest_updateUser {oldEmail : String} {payload : Client} (h : Faithful s) :
    Honest n ib.tag s (updateUser srv n s ib oldEmail payload) := by
  rw [updateUser]
  rcases resolve_cases srv ib.tag h with ⟨s₁, id, hres, hs, hid, -, -⟩ | ⟨e, hres, -⟩ | ⟨e, hres, -⟩
  · rw [hres]
    exact honest_act (g := fun s _ => s) hs rfl (fun _ id' hid' => mem_singleton.mp hid' ▸ hid) fun _ _ => rfl
  · rw [hres]
    exact honest_refused rfl
  · rw [hres]
    exact honest_refused rfl

theorem honest_resetInboundTraffic_iff :
    Honest n ib.tag s (resetInboundTraffic srv n s ib) ↔ Covered srv n s (.resetInboundTraffic ib) := by
  obtain ⟨f, hlog, hsent, -⟩ := act_cases srv n s (.resetTraffic ib.id) (fun s _ => s) fun _ _ => rfl
  constructor
  · intro hhonest hfate
    refine hhonest.aimed (.resetTraffic ib.id) f ?_ (hsent.trans hfate) ib.id mem_cons_self
    rw [resetInboundTraffic, made_of_log hlog]
    exact mem_cons_self
  · intro haim
    rw [resetInboundTraffic]
    exact honest_act (g := fun s _ => s) .cached rfl
      (fun hf id' hid' => mem_singleton.mp hid' ▸ haim hf) fun _ _ => rfl

theorem handle_detach (srv : Server B) {st : Store B} (email : String) (h : Holds n st tag id) :
    ∃ store, handle srv st (.detach email [id]) = .ok (store, .empty) := by
  obtain ⟨ib, hib, hid, -⟩ := h
  refine ⟨_, if_pos ?_⟩
  simp only [Request.inboundIds, all_cons, all_nil, Bool.and_true, Store.holds, any_eq_true]
  exact ⟨ib, hib, by simpa using hid⟩

theorem not_located_iff : ¬Located n s tag ↔
    cached n s tag = false ∧ (fateAt n s 0 = .served → listable n s tag = false) := by
  rw [Located, not_or, not_and, Bool.not_eq_true, Bool.not_eq_true]

theorem honest_deleteUser_iff {email : String} (h : Faithful s) :
    Honest n ib.tag s (deleteUser srv n s ib email) ↔ Covered srv n s (.deleteUser ib email) := by
  rw [deleteUser, Covered]
  by_cases hemail : email = ""
  · rw [if_pos hemail]
    refine iff_of_false (fun hhonest => ?_) fun hc => hc.1 hemail
    have hmade : made s s = [] := made_of_log (append_nil _).symm
    have htrue := hhonest.truthful rfl
    simp [hmade] at htrue
  · rw [if_neg hemail]
    rcases resolve_cases srv ib.tag h with ⟨s₁, id, hres, hs, hid, hlocated, hact⟩ | ⟨e, hres, hmiss, hfate⟩ |
      ⟨e, hres, hmiss, -, hnone⟩
    · have haim : ∀ id' ∈ (Request.detach (B := B) email [id]).inboundIds, Holds n s.store ib.tag id' :=
        fun id' hid' => mem_singleton.mp hid' ▸ hid
      rw [hres]
      simp only [resolving, Except.mapError, andThen]
      rcases doRequest_cases srv n s₁ (.detach email [id]) with ⟨store, obj, hfate, -, hdo⟩ |
        ⟨f, store, hne, -, ⟨hfate, rfl⟩ | ⟨-, msg, hmsg⟩, hdo⟩
      · rw [hdo]
        refine iff_of_true (honest_acted hs rfl rfl (fun _ => haim) fun _ => rfl) ⟨hemail, fun _ hact' => ?_⟩
        exact absurd (hact ▸ hfate) hact'
      · rw [hdo, ← hact]
        simp only
        cases hfound : notFound (s₁.fate n).text with
        | true =>
          refine iff_of_false (not_honest_acted hs rfl hid hne rfl) fun hc => ?_
          exact absurd (hc.2 hlocated hne) (by simp)
        | false =>
          exact iff_of_true (honest_acted hs rfl rfl (fun _ => haim) fun hok => by cases hok)
            ⟨hemail, fun _ _ => rfl⟩
      · obtain ⟨store', hok⟩ := handle_detach srv email hid
        rw [hs.log.1, hok] at hmsg
        cases hmsg
    · rw [hres]
      refine iff_of_true (honest_refused rfl) ⟨hemail, fun hlocated => ?_⟩
      exact absurd hlocated (not_located_iff.mpr ⟨hmiss, fun h0 => absurd h0 hfate⟩)
    · rw [hres]
      refine iff_of_true (honest_refused rfl) ⟨hemail, fun hlocated => ?_⟩
      exact absurd hlocated (not_located_iff.mpr ⟨hmiss, fun _ => by simp [listable, hnone]⟩)

theorem remember_log {s : Session B} {obj : Obj B} : (s.remember obj).log = s.log := by
  cases obj with
  | created c =>
    simp only [Session.remember]
    split <;> rfl
  | _ => rfl

theorem handle_add_error {st : Store B} {msg : String}
    (h : handle srv st (.add ib.tag ib.body) = .error msg) : addable srv st ib = false := by
  rw [handle] at h
  split at h
  · rename_i hnone
    rw [addable, hnone]
    rfl
  · cases h

theorem handle_add_ok {st store : Store B} {obj : Obj B}
    (h : handle srv st (.add ib.tag ib.body) = .ok (store, obj)) : addable srv st ib = true := by
  rw [handle] at h
  split at h
  · cases h
  · rename_i t hsome
    rw [addable, hsome]
    rfl

theorem addInbound_ok_iff :
    (addInbound srv n s ib).2 = .ok () ↔ s.fate n = .served ∧ addable srv s.store ib = true := by
  rw [addInbound]
  rcases doRequest_cases srv n s (.add ib.tag ib.body) with ⟨store, obj, hfate, hok, hdo⟩ |
    ⟨f, store, -, -, ⟨hfate, -⟩ | ⟨-, msg, hmsg⟩, hdo⟩
  · rw [hdo]
    exact iff_of_true rfl ⟨hfate, handle_add_ok hok⟩
  · rw [hdo]
    exact iff_of_false (fun h => (nomatch h)) fun h => hfate h.1
  · rw [hdo]
    exact iff_of_false (fun h => (nomatch h)) fun h => by simp [handle_add_error hmsg] at h

theorem honest_addInbound_iff {f : Fate}
    (hlog : s'.log = s.log ++ [(.list, f)]) (hf : f ≠ .served) :
    Honest n tag s (addInbound srv n s' ib) ↔ ¬(addInbound srv n s' ib).2 = .ok () := by
  obtain ⟨f', hlog', -, -⟩ := act_cases srv n s' (.add ib.tag ib.body) Session.remember fun _ _ => remember_log
  have hmade : made s (addInbound srv n s' ib).1 = [(.list, f), (.add ib.tag ib.body, f')] := by
    refine made_of_log ?_
    rw [addInbound, hlog', hlog, append_assoc]
    rfl
  constructor
  · intro hhonest
    exact hhonest.reported f (by rw [hmade]; exact mem_cons_self) hf
  · intro herr
    refine ⟨fun q f'' h _ id hid => ?_, fun hok => absurd hok herr, fun _ _ _ => herr⟩
    rw [hmade] at h
    rcases mem_cons.mp h with h | h
    · obtain ⟨rfl, -⟩ := Prod.mk.inj h
      cases hid
    · obtain ⟨rfl, -⟩ := Prod.mk.inj (mem_singleton.mp h)
      cases hid

theorem honest_updateInbound_iff {oldIb newIb : Inbound B} (h : Faithful s) :
    Honest n oldIb.tag s (updateInbound srv n s oldIb newIb) ↔ Covered srv n s (.updateInbound oldIb newIb) := by
  rw [updateInbound, Covered]
  rcases resolve_cases srv oldIb.tag h with ⟨s₁, id, hres, hs, hid, hlocated, -⟩ | ⟨e, hres, hmiss, hfate⟩ |
    ⟨e, hres, -, hfate, -⟩
  · rw [hres]
    refine iff_of_true ?_ fun hmiss hunserved => ?_
    · exact honest_act hs rfl (fun _ id' hid' => mem_singleton.mp hid' ▸ hid) fun _ _ => rfl
    · rcases hlocated with hcached | ⟨hserved, -⟩
      · rw [hmiss] at hcached
        cases hcached
      · exact absurd hserved hunserved
  · rw [hres]
    refine (honest_addInbound_iff rfl hfate).trans ?_
    rw [addInbound_ok_iff, not_and, Bool.not_eq_true]
    have hnext : (s.after .list (s.fate n) s.store).fate n = fateAt n s 1 := by
      simp [Session.fate, fateAt, Session.after]
    rw [hnext]
    exact ⟨fun hadd _ _ => hadd, fun hadd => hadd hmiss hfate⟩
  · rw [hres]
    refine iff_of_true ?_ fun _ hunserved => absurd hfate hunserved
    exact honest_act .listed rfl (fun _ id' hid' => absurd hid' not_mem_nil) fun _ _ => remember_log

theorem honest_delInbound_iff (h : Faithful s) :
    Honest n ib.tag s (delInbound srv n s ib.tag) ↔ Covered srv n s (.delInbound ib) := by
  rw [delInbound, Covered]
  rcases resolve_cases srv ib.tag h with ⟨s₁, id, hres, hs, hid, hlocated, -⟩ | ⟨e, hres, hmiss, hfate⟩ |
    ⟨e, hres, hmiss, hfate, hnone⟩
  · rw [hres]
    refine iff_of_true ?_ (hlocated.imp (fun hcached => hcached) fun hlisted => ⟨hlisted.1, .inl hlisted.2⟩)
    exact honest_act hs rfl (fun _ id' hid' => mem_singleton.mp hid' ▸ hid) fun _ _ => rfl
  · rw [hres]
    refine iff_of_false (fun hhonest => ?_) fun hc => ?_
    · refine hhonest.reported (s.fate n) ?_ hfate rfl
      rw [made_of_log rfl]
      exact mem_cons_self
    · rcases hc with hcached | ⟨hserved, -⟩
      · rw [hmiss] at hcached
        cases hcached
      · exact hfate hserved
  · rw [hres]
    have hmade : made s s.listed = [(.list, .served)] := made_of_log rfl
    have hunlisted : listable n s ib.tag = false := by simp [listable, hnone]
    constructor
    · intro hhonest
      refine .inr ⟨hfate, .inr fun row hrow huntagged hsame => ?_⟩
      rcases hhonest.truthful rfl with ⟨q, hq, hmem⟩ | ⟨-, hnone'⟩
      · rw [hmade] at hmem
        obtain ⟨rfl, -⟩ := Prod.mk.inj (mem_singleton.mp hmem)
        cases hq
      · exact hnone' row.id ⟨row, hrow, rfl, huntagged ▸ hsame⟩
    · intro hc
      have huntagged : ∀ row ∈ s.store.rows, row.tag = "" → ¬Same n.tagPrefix ib.tag "" := by
        rcases hc with hcached | ⟨-, hlisted | huntagged⟩
        · rw [hmiss] at hcached
          cases hcached
        · rw [hunlisted] at hlisted
          cases hlisted
        · exact huntagged
      refine ⟨fun q f hmem _ id hid => ?_, fun _ => .inr ⟨?_, ?_⟩, fun f hmem hf => ?_⟩
      · rw [hmade] at hmem
        obtain ⟨rfl, -⟩ := Prod.mk.inj (mem_singleton.mp hmem)
        cases hid
      · rw [hmade]
        exact mem_cons_self
      · rintro id ⟨row, hrow, -, hsame⟩
        have hempty := untagged_of_unlisted hnone hrow hsame
        exact huntagged row hrow hempty (hempty ▸ hsame)
      · rw [hmade] at hmem
        exact absurd (Prod.mk.inj (mem_singleton.mp hmem)).2 hf

theorem listed_faithful (s : Session B) : Faithful s.listed := by
  intro tag id hget
  obtain ⟨ib, hib, hid, htag, -⟩ := idsByTag_sound hget
  exact ⟨ib, hib, hid, htag⟩

theorem perform_honest_iff (srv : Server B) (n : Node) (s : Session B) (op : Op B) (h : Faithful s) :
    Honest n op.tag s (perform srv n s op) ↔ Covered srv n s op := by
  cases op with
  | addClient ib client => exact iff_of_true (honest_addClient h) trivial
  | updateUser ib oldEmail payload => exact iff_of_true (honest_updateUser h) trivial
  | deleteUser ib email => exact honest_deleteUser_iff h
  | updateInbound oldIb newIb => exact honest_updateInbound_iff h
  | delInbound ib => exact honest_delInbound_iff h
  | resetInboundTraffic ib => exact honest_resetInboundTraffic_iff

section sample

def plain : Server Unit where
  edit _ b := b
  settle tags tag _ := if tag ∈ tags then none else some tag
  fresh := by
    intro tags tag _ t h
    split at h
    · cases h
    · rw [← Option.some.inj h]
      assumption
  keeps := fun _ _ _ _ h => if_neg h

def edge : Node := ⟨1, "edge", "token", .ok "10.0.0.2", 2053⟩

def shelf : Store Unit := ⟨⟨[⟨3, "n1-a", ()⟩, ⟨7, "b", ()⟩], 8, by decide, by decide⟩, by decide, by decide⟩

def joined (fates : Nat → Fate) : Session Unit := Session.listed ⟨shelf, [], fates, []⟩

theorem reset_reaches_another : Faithful (joined fun _ => .served) ∧
    ¬Honest edge "a" (joined fun _ => .served)
      (perform plain edge (joined fun _ => .served) (.resetInboundTraffic ⟨7, "a", ()⟩)) := by
  refine ⟨listed_faithful _, fun hhonest => ?_⟩
  have hreset : Honest edge (⟨7, "a", ()⟩ : Inbound Unit).tag (joined fun _ => .served)
      (resetInboundTraffic plain edge (joined fun _ => .served) ⟨7, "a", ()⟩) := hhonest
  have hholds : Holds edge shelf "a" 7 := honest_resetInboundTraffic_iff.mp hreset (by decide)
  revert hholds
  rw [Holds]
  decide

theorem perform_honest_sample : Honest edge "a" (joined fun _ => .rejected "database is locked")
    (perform plain edge (joined fun _ => .rejected "database is locked") (.deleteUser ⟨7, "a", ()⟩ "u@x")) :=
  (perform_honest_iff plain edge (joined fun _ => .rejected "database is locked")
    (.deleteUser ⟨7, "a", ()⟩ "u@x") (listed_faithful _)).mpr ⟨by decide, fun _ _ => by decide⟩

end sample

end honesty

end Remote

end QuiPanel
