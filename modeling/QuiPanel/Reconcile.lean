import QuiPanel.Remote
import QuiPanel.Library.Sweep

namespace QuiPanel

namespace Reconcile

open Keyed Outcome Twins Remote List
open Sweep (Run)

variable {B : Type}

structure Managed extends Node where
  stored : 0 < id
  inboundSyncMode : String
  inboundTags : List String

structure Central (n : Node) (B : Type) where
  inbounds : List (Inbound B)
  distinct : (inbounds.map (·.tag)).Nodup
  tagged : ∀ ib ∈ inbounds, ib.tag ≠ ""
  once : ∀ ib ∈ inbounds, Once n.tagPrefix ib.tag

inductive ReconcileError
  | find (text : String)
  | list (e : RemoteError)
  | inbound (tag : String) (e : RemoteError)
  | delete (tag : String) (e : RemoteError)

abbrev Shuffle : Type := { f : List String → List String // ∀ l, (f l).Perm l }

section code

variable (srv : Server B) (n : Managed)

def listRemoteTags (order : Shuffle) (s : Session B) : Session B × Except RemoteError (List String) :=
  andThen (refreshRemoteIDs srv n.toNode s) fun s _ => (s, .ok (order.val (s.cache.map Prod.fst)))

def desiredTags (inbounds : List (Inbound B)) : List String :=
  inbounds.flatMap fun ib => [ib.tag, toggle n.tagPrefix ib.tag]

def selected : Option (List String) := if n.inboundSyncMode = "selected" then some n.inboundTags else none

def unwanted (inbounds : List (Inbound B)) (tag : String) : Bool :=
  tag ∉ desiredTags n inbounds ∧ ∀ tags, selected n = some tags → tag ∈ tags

def updateAll : List (Inbound B) → Session B → Session B × Except ReconcileError Unit
  | [], s => (s, .ok ())
  | ib :: rest, s =>
    match updateInbound srv n.toNode s ib ib with
    | (s, .error e) => (s, .error (.inbound ib.tag e))
    | (s, .ok ()) => updateAll rest s

def deleteUnwanted (inbounds : List (Inbound B)) : List String → Session B → Session B × Except ReconcileError Unit
  | [], s => (s, .ok ())
  | tag :: rest, s =>
    if unwanted n inbounds tag then
      match delInbound srv n.toNode s tag with
      | (s, .error e) => (s, .error (.delete tag e))
      | (s, .ok ()) => deleteUnwanted inbounds rest s
    else deleteUnwanted inbounds rest s

def reconcileNode (find : Except String (List (Inbound B))) (order : Shuffle) (s : Session B) :
    Session B × Except ReconcileError Unit :=
  if n.id ≤ 0 then (s, .ok ())
  else match find with
    | .error text => (s, .error (.find text))
    | .ok inbounds =>
      match listRemoteTags srv n order s with
      | (s, .error e) => (s, .error (.list e))
      | (s, .ok remoteTags) => andThen (updateAll srv n inbounds s) fun s _ =>
          deleteUnwanted srv n inbounds remoteTags s

end code

section placing

variable {pre : String} {c d : Inbound B} {st st' : Store B} {rows : List (Inbound B)} {x y : Inbound B}
  {cs ds : List (Inbound B)}

structure Target (pre : String) (c : Inbound B) (rows : List (Inbound B)) (r : Inbound B) : Prop where
  tagged : r.tag ≠ ""
  same : r.tag = c.tag ∨ r.tag = toggle pre c.tag ∧ ∀ r' ∈ rows, r'.tag ≠ c.tag

def landed (c : Inbound B) (id : Int) : Inbound B := { c with id }

structure PlacedAt (pre : String) (c : Inbound B) (st st' : Store B) (id : Int) : Prop where
  rows : ∀ x, x ∈ st'.rows ↔ x = landed c id ∨ x ∈ st.rows ∧ x.id ≠ id
  target : (∃ r ∈ st.rows, r.id = id ∧ Target pre c st.rows r) ∨
    ∀ r ∈ st.rows, r.id ≠ id ∧ ¬Target pre c st.rows r

def Placed (pre : String) (st : Store B) (c : Inbound B) (st' : Store B) : Prop := ∃ id, PlacedAt pre c st st' id

theorem eq_of_tag (hx : x ∈ st.rows) (hy : y ∈ st.rows) (h : x.tag = y.tag) : x = y :=
  inj_on_of_nodup_map st.tags hx hy h

theorem eq_of_id (hx : x ∈ st.rows) (hy : y ∈ st.rows) (h : x.id = y.id) : x = y :=
  st.table.eq_of_key hx hy h

theorem target_unique (hx : x ∈ st.rows) (hy : y ∈ st.rows) (hxt : Target pre c st.rows x)
    (hyt : Target pre c st.rows y) : x = y := by
  rcases hxt.same with hxc | ⟨hxc, hnone⟩
  · rcases hyt.same with hyc | ⟨-, hnone⟩
    · exact eq_of_tag hx hy (hxc.trans hyc.symm)
    · exact absurd hxc (hnone x hx)
  · rcases hyt.same with hyc | ⟨hyc, -⟩
    · exact absurd hyc (hnone y hy)
    · exact eq_of_tag hx hy (hxc.trans hyc.symm)

theorem PlacedAt.kept {id : Int} (h : PlacedAt pre c st st' id) (hx : x ∈ st.rows) :
    x ∈ st'.rows ∨ x.id = id ∧ Target pre c st.rows x := by
  by_cases hid : x.id = id
  · rcases h.target with ⟨r, hr, hrid, htarget⟩ | hfresh
    · rw [eq_of_id hx hr (hid.trans hrid.symm)]
      exact .inr ⟨hrid, htarget⟩
    · exact absurd hid (hfresh x hx).1
  · exact .inl ((h.rows x).mpr (.inr ⟨hx, hid⟩))

theorem PlacedAt.spared {id : Int} (h : PlacedAt pre c st st' id) (hx : x ∈ st.rows) (hid : x.id ≠ id) :
    ¬Target pre c st.rows x := by
  intro htarget
  rcases h.target with ⟨r, hr, hrid, hr'⟩ | hfresh
  · exact hid (target_unique hx hr htarget hr' ▸ hrid)
  · exact (hfresh x hx).2 htarget

def Paired (pre : String) (before : Store B) (cs : List (Inbound B)) : Prop :=
  ∀ c ∈ cs, ∀ d ∈ cs, d.tag = toggle pre c.tag → ∃ r ∈ before.rows, r.tag = c.tag

structure Carried (pre : String) (before : Store B) (ds : List (Inbound B)) (st : Store B) : Prop where
  here : ∀ d ∈ ds, ∃ id, landed d id ∈ st.rows
  origin : ∀ x ∈ st.rows, (∃ d ∈ ds, x = landed d x.id) ∨ x ∈ before.rows ∧ ∀ d ∈ ds, ¬Target pre d before.rows x
  fate : ∀ x ∈ before.rows, x ∈ st.rows ∨ ∃ d ∈ ds, Target pre d before.rows x ∧ landed d x.id ∈ st.rows

structure Working (pre : String) (before : Store B) (cs ds : List (Inbound B)) (c : Inbound B) : Prop where
  once : ∀ d ∈ cs, Once pre d.tag
  paired : Paired pre before cs
  done : ∀ d ∈ ds, d ∈ cs ∧ d.tag ≠ c.tag
  current : c ∈ cs
  tagged : c.tag ≠ ""

section working

variable {before : Store B} (hw : Working pre before cs ds c) (hc : Carried pre before ds st)

include hw hc

theorem kept_or_twin (hx : x ∈ before.rows) (hxc : x.tag = c.tag) :
    x ∈ st.rows ∨ ∃ d ∈ ds, d.tag = toggle pre c.tag ∧ ∀ r ∈ before.rows, r.tag ≠ d.tag := by
  rcases hc.fate x hx with hst | ⟨d, hd, htarget, -⟩
  · exact .inl hst
  · rcases htarget.same with hxd | ⟨hxd, hnone⟩
    · exact absurd (hxd.symm.trans hxc) (hw.done d hd).2
    · refine .inr ⟨d, hd, ?_, hnone⟩
      rw [← hxc, hxd, toggle_toggle (hw.once d (hw.done d hd).1)]

theorem landed_not_target (hd : d ∈ ds) (hxd : x.tag = d.tag) : ¬Target pre c st.rows x := by
  intro htarget
  obtain ⟨hdcs, hdc⟩ := hw.done d hd
  rcases htarget.same with hxc | ⟨hxc, hnone⟩
  · exact hdc (hxd.symm.trans hxc)
  · have htwin : d.tag = toggle pre c.tag := hxd.symm.trans hxc
    obtain ⟨r, hr, hrc⟩ := hw.paired c hw.current d hdcs htwin
    rcases kept_or_twin hw hc hr hrc with hst | ⟨d', hd', htwin', hnone'⟩
    · exact hnone r hst hrc
    · have hback : c.tag = toggle pre d.tag := by
        rw [htwin, toggle_toggle (hw.once c hw.current)]
      obtain ⟨r', hr', hrd⟩ := hw.paired d hdcs c hw.current hback
      exact hnone' r' hr' (by rw [hrd, htwin, htwin'])

theorem target_before (hx : x ∈ st.rows) (htarget : Target pre c st.rows x) :
    x ∈ before.rows ∧ (∀ d ∈ ds, ¬Target pre d before.rows x) ∧ Target pre c before.rows x := by
  rcases hc.origin x hx with ⟨d, hd, hxd⟩ | ⟨hbefore, hspared⟩
  · exact absurd htarget (landed_not_target hw hc hd ((congrArg Inbound.tag hxd).trans rfl))
  · refine ⟨hbefore, hspared, htarget.tagged, htarget.same.imp (fun h => h) fun h => ⟨h.1, fun r hr hrc => ?_⟩⟩
    rcases kept_or_twin hw hc hr hrc with hst | ⟨d, -, htwin, hnone⟩
    · exact h.2 r hst hrc
    · exact hnone x hbefore (h.1.trans htwin.symm)

theorem target_of_before (htarget : Target pre c before.rows x) :
    Target pre c st.rows x := by
  refine ⟨htarget.tagged, htarget.same.imp (fun h => h) fun h => ⟨h.1, fun y hy hyc => ?_⟩⟩
  have hown : Target pre c st.rows y := ⟨hyc ▸ hw.tagged, .inl hyc⟩
  exact h.2 y (target_before hw hc hy hown).1 hyc

theorem landed_kept {id id' : Int} (hplaced : PlacedAt pre c st st' id) (hd : d ∈ ds)
    (hx : landed d id' ∈ st.rows) : landed d id' ∈ st'.rows := by
  rcases hplaced.kept hx with h | ⟨-, htarget⟩
  · exact h
  · exact absurd htarget (landed_not_target hw hc hd rfl)

theorem carried_step (hplaced : Placed pre st c st') : Carried pre before (ds ++ [c]) st' := by
  obtain ⟨id, hplaced⟩ := hplaced
  have hnew : landed c id ∈ st'.rows := (hplaced.rows _).mpr (.inl rfl)
  refine ⟨fun d hd => ?_, fun x hx => ?_, fun x hx => ?_⟩
  · rcases mem_append.mp hd with hd | hd
    · obtain ⟨id', hrow⟩ := hc.here d hd
      exact ⟨id', landed_kept hw hc hplaced hd hrow⟩
    · rw [mem_singleton.mp hd]
      exact ⟨id, hnew⟩
  · rcases (hplaced.rows x).mp hx with rfl | ⟨hst, hid⟩
    · exact .inl ⟨c, mem_append_right _ mem_cons_self, rfl⟩
    · rcases hc.origin x hst with ⟨d, hd, hxd⟩ | ⟨hbefore, hspared⟩
      · exact .inl ⟨d, mem_append_left _ hd, hxd⟩
      · refine .inr ⟨hbefore, fun d hd htarget => ?_⟩
        rcases mem_append.mp hd with hd | hd
        · exact hspared d hd htarget
        · rw [mem_singleton.mp hd] at htarget
          exact hplaced.spared hst hid (target_of_before hw hc htarget)
  · rcases hc.fate x hx with hst | ⟨d, hd, htarget, hrow⟩
    · rcases hplaced.kept hst with h | ⟨hid, htarget⟩
      · exact .inl h
      · refine .inr ⟨c, mem_append_right _ mem_cons_self, ?_, hid ▸ hnew⟩
        exact (target_before hw hc hst htarget).2.2
    · exact .inr ⟨d, mem_append_left _ hd, htarget, landed_kept hw hc hplaced hd hrow⟩

end working

theorem carried_nil (st : Store B) : Carried pre st [] st :=
  ⟨fun _ h => absurd h not_mem_nil, fun _ h => .inr ⟨h, fun _ h' => absurd h' not_mem_nil⟩,
    fun _ h => .inl h⟩

theorem carried_run {before : Store B} (hdistinct : ((ds ++ cs).map (·.tag)).Nodup)
    (htagged : ∀ c ∈ cs, c.tag ≠ "") (honce : ∀ c ∈ ds ++ cs, Once pre c.tag)
    (hpaired : Paired pre before (ds ++ cs)) (hrun : Run (Placed pre) st cs st') (hc : Carried pre before ds st) :
    Carried pre before (ds ++ cs) st' := by
  induction hrun generalizing ds with
  | nil => rwa [append_nil]
  | @cons st mid st' c cs hstep _ ih =>
    have hsplit : ds ++ c :: cs = (ds ++ [c]) ++ cs := by simp
    have hw : Working pre before (ds ++ c :: cs) ds c := by
      refine ⟨honce, hpaired, fun d hd => ⟨mem_append_left _ hd, fun heq => ?_⟩, ?_,
        htagged c mem_cons_self⟩
      · rw [map_append, nodup_append] at hdistinct
        exact hdistinct.2.2 _ (mem_map_of_mem hd) _ (mem_map_of_mem mem_cons_self) heq
      · exact mem_append_right _ mem_cons_self
    have hnext := carried_step hw hc hstep
    rw [hsplit] at hdistinct honce hpaired ⊢
    exact ih hdistinct (fun d hd => htagged d (mem_cons_of_mem _ hd)) honce hpaired hnext

def Lone (pre t : String) (st : Store B) : Prop :=
  ∀ x ∈ st.rows, ∀ y ∈ st.rows, x.tag = t → y.tag ≠ toggle pre t

theorem lone_step {t : String} (hpre : pre ≠ "") (ht : Once pre t) (htagged : t ≠ "")
    (htoggled : toggle pre t ≠ "") (hlone : Lone pre t st) (hplaced : Placed pre st c st') : Lone pre t st' := by
  obtain ⟨id, hplaced⟩ := hplaced
  intro x hx y hy hxt hyt
  rcases (hplaced.rows x).mp hx with hxc | ⟨hxst, hxid⟩
  · have hct : c.tag = t := (congrArg Inbound.tag hxc).symm.trans hxt
    rcases (hplaced.rows y).mp hy with rfl | ⟨hyst, hyid⟩
    · exact toggle_ne hpre (hyt.symm.trans hct)
    · refine hplaced.spared hyst hyid ⟨hyt ▸ htoggled, .inr ⟨hct ▸ hyt, fun r hr hrc => ?_⟩⟩
      exact hlone r hr y hyst (hrc.trans hct) hyt
  · rcases (hplaced.rows y).mp hy with rfl | ⟨hyst, -⟩
    · have hct : c.tag = toggle pre t := hyt
      have hback : x.tag = toggle pre c.tag := by rw [hct, toggle_toggle ht, hxt]
      refine hplaced.spared hxst hxid ⟨hxt ▸ htagged, .inr ⟨hback, fun r hr hrc => ?_⟩⟩
      exact hlone x hxst r hr hxt (hrc.trans hct)
    · exact hlone x hxst y hyst hxt hyt

theorem foreign_step (hx : ¬Same pre c.tag x.tag) (hplaced : Placed pre st c st') : x ∈ st'.rows ↔ x ∈ st.rows := by
  obtain ⟨id, hplaced⟩ := hplaced
  constructor
  · intro h
    rcases (hplaced.rows x).mp h with rfl | h
    · exact absurd same_refl hx
    · exact h.1
  · intro h
    rcases hplaced.kept h with h' | ⟨-, htarget⟩
    · exact h'
    · exact absurd (htarget.same.imp (fun h => h) And.left) hx

theorem foreign_run (hx : ∀ c ∈ cs, ¬Same pre c.tag x.tag) (hrun : Run (Placed pre) st cs st') :
    x ∈ st'.rows ↔ x ∈ st.rows := by
  induction hrun with
  | nil => rfl
  | @cons st mid st' c cs hstep _ ih =>
    rw [ih fun d hd => hx d (mem_cons_of_mem _ hd)]
    exact foreign_step (hx c mem_cons_self) hstep

end placing

section syncing

variable {srv : Server B} {n : Node} {s s' : Session B} {c : Inbound B} {id : Int}

structure Synced (n : Node) (s : Session B) : Prop where
  sound : ∀ t id, s.cache.get t = some id →
    ∃ r ∈ s.store.rows, r.id = id ∧ r.tag ≠ "" ∧ Near n.tagPrefix t r.tag
  complete : ∀ r ∈ s.store.rows, r.tag ≠ "" → s.cache.get r.tag = some r.id

theorem listed_synced (s : Session B) : Synced n s.listed := by
  constructor
  · intro t id h
    obtain ⟨r, hr, hid, rfl, htag⟩ := idsByTag_sound h
    exact ⟨r, hr, hid, htag, near_refl⟩
  · intro r hr htag
    obtain ⟨id, h⟩ := idsByTag_complete hr htag
    obtain ⟨r', hr', hid, htag', -⟩ := idsByTag_sound h
    obtain rfl := eq_of_tag hr' hr htag'
    rw [hid]
    exact h

theorem Synced.target (hs : Synced n s) (hpre : n.tagPrefix ≠ "") (honce : Once n.tagPrefix c.tag) (htag : c.tag ≠ "")
    (h : cacheGetTag n s.cache c.tag = some id) :
    ∃ r ∈ s.store.rows, r.id = id ∧ Target n.tagPrefix c s.store.rows r := by
  rw [cacheGetTag_eq, Option.or_eq_some_iff] at h
  have hnear : ∃ r ∈ s.store.rows, r.id = id ∧ r.tag ≠ "" ∧ Near n.tagPrefix c.tag r.tag := by
    rcases h with h | ⟨-, h⟩
    · exact hs.sound _ _ h
    · obtain ⟨r, hr, hid, hrtag, hn⟩ := hs.sound _ _ h
      exact ⟨r, hr, hid, hrtag, Near.trans (.inr ⟨honce, rfl⟩) hn⟩
  obtain ⟨r, hr, hid, hrtag, hn⟩ := hnear
  refine ⟨r, hr, hid, hrtag, ((near_iff_same honce).mp hn).imp (fun h => h) fun htwin =>
    ⟨htwin, fun r' hr' hrc => ?_⟩⟩
  have hget := hs.complete r' hr' (hrc ▸ htag)
  rw [hrc] at hget
  rcases h with h | ⟨h, -⟩
  · have hsame : r' = r := eq_of_id hr' hr (by rw [hid]; exact Option.some.inj (hget.symm.trans h))
    rw [hsame, htwin] at hrc
    exact toggle_ne hpre hrc
  · rw [h] at hget
    cases hget

theorem Synced.no_target (hs : Synced n s) (h : cacheGetTag n s.cache c.tag = none) :
    ∀ r ∈ s.store.rows, ¬Target n.tagPrefix c s.store.rows r := by
  intro r hr htarget
  rw [cacheGetTag_eq, Option.or_eq_none_iff] at h
  have hget := hs.complete r hr htarget.tagged
  rcases htarget.same with heq | ⟨heq, -⟩
  · rw [heq, h.1] at hget
    cases hget
  · rw [heq, h.2] at hget
    cases hget

theorem synced_placed (hs : Synced n s) (honce : Once n.tagPrefix c.tag) (htag : c.tag ≠ "")
    (hplaced : PlacedAt n.tagPrefix c s.store s'.store id) (hcache : s'.cache = s.cache.put c.tag id) :
    Synced n s' := by
  have hnew : landed c id ∈ s'.store.rows := (hplaced.rows _).mpr (.inl rfl)
  constructor
  · intro t id' h
    rw [hcache, Fields.get_put] at h
    by_cases ht : c.tag = t
    · rw [if_pos ht, Option.some.injEq] at h
      exact ⟨landed c id, hnew, h, htag, .inl ht⟩
    · rw [if_neg ht] at h
      obtain ⟨r, hr, hid, hrtag, hnear⟩ := hs.sound t id' h
      rcases hplaced.kept hr with hkept | ⟨hrid, htarget⟩
      · exact ⟨r, hkept, hid, hrtag, hnear⟩
      · have hsame : Same n.tagPrefix c.tag r.tag := htarget.same.imp (fun h => h) And.left
        exact ⟨landed c id, hnew, hrid.symm.trans hid, htag, hnear.trans ((near_iff_same honce).mpr hsame).symm⟩
  · intro r hr hrtag
    rw [hcache]
    rcases (hplaced.rows r).mp hr with rfl | ⟨hst, hrid⟩
    · exact Fields.get_put_self
    · have hne : c.tag ≠ r.tag := fun heq => hplaced.spared hst hrid ⟨hrtag, .inl heq.symm⟩
      rw [Fields.get_put_ne hne]
      exact hs.complete r hst hrtag

theorem handle_update {st store : Store B} {obj : Obj B} (htag : c.tag ≠ "")
    (hfree : ∀ r ∈ st.rows, r.id ≠ id → r.tag ≠ c.tag)
    (h : handle srv st (.update id c.tag c.body) = .ok (store, obj)) :
    ∀ x, x ∈ store.rows ↔ x = landed c id ∨ x ∈ st.rows ∧ x.id ≠ id := by
  have hother : c.tag ∉ (st.others id).map (·.tag) := by
    intro hmem
    obtain ⟨r, hr, hrc⟩ := mem_map.mp hmem
    obtain ⟨hr, hid⟩ := mem_filter.mp hr
    exact hfree r hr (by simpa using hid) hrc
  have hkeep := srv.keeps _ _ c.body htag hother
  simp only [handle] at h
  split at h
  · rename_i hholds
    split at h
    · rename_i hnone
      rw [hkeep] at hnone
      cases hnone
    · rename_i t hsome
      rw [hkeep, Option.some.injEq] at hsome
      subst hsome
      obtain ⟨rfl, -⟩ := Prod.mk.inj (Except.ok.inj h)
      obtain ⟨r, hr, hrid⟩ := any_eq_true.mp hholds
      intro x
      have hmem : x ∈ (st.update id c.tag c.body (srv.fresh _ _ _ _ hkeep)).rows ↔
          ∃ r ∈ st.rows, Store.rewrite id c.tag c.body r = x := mem_map
      rw [hmem]
      constructor
      · rintro ⟨r', hr', rfl⟩
        rw [Store.rewrite]
        split
        · exact .inl rfl
        · exact .inr ⟨hr', ‹_›⟩
      · rintro (rfl | ⟨hx, hid⟩)
        · exact ⟨r, hr, if_pos (by simpa using hrid)⟩
        · exact ⟨x, hx, if_neg hid⟩
  · cases h

theorem handle_add {st store : Store B} {obj : Obj B} (htag : c.tag ≠ "") (hfree : ∀ r ∈ st.rows, r.tag ≠ c.tag)
    (h : handle srv st (.add c.tag c.body) = .ok (store, obj)) :
    obj = .created (landed c st.table.next) ∧ ∀ x, x ∈ store.rows ↔ x ∈ st.rows ∨ x = landed c st.table.next := by
  have hother : c.tag ∉ st.rows.map (·.tag) := by
    intro hmem
    obtain ⟨r, hr, hrc⟩ := mem_map.mp hmem
    exact hfree r hr hrc
  have hkeep := srv.keeps _ _ c.body htag hother
  simp only [handle] at h
  split at h
  · rename_i hnone
    rw [hkeep] at hnone
    cases hnone
  · rename_i t hsome
    rw [hkeep, Option.some.injEq] at hsome
    subst hsome
    obtain ⟨rfl, rfl⟩ := Prod.mk.inj (Except.ok.inj h)
    exact ⟨rfl, fun x => Table.mem_insert⟩

theorem rewriting_placed {o : Obj B} {s₁ : Session B} {q : Request B} (hs : Synced n s) (hpre : n.tagPrefix ≠ "")
    (honce : Once n.tagPrefix c.tag) (htag : c.tag ≠ "") (hget : cacheGetTag n s.cache c.tag = some id)
    (hq : q = .update id c.tag c.body) (hdo : doRequest srv n s q = (s₁, .ok o)) :
    PlacedAt n.tagPrefix c s.store s₁.store id ∧ s₁.cache = s.cache := by
  obtain ⟨r, hr, hrid, htarget⟩ := hs.target hpre honce htag hget
  rcases doRequest_cases srv n s q with ⟨store, obj, -, hok, hdo'⟩ | ⟨f, store, -, -, -, hdo'⟩
  · obtain ⟨rfl, -⟩ := Prod.mk.inj (hdo.symm.trans hdo')
    rw [hq] at hok
    refine ⟨⟨handle_update htag (fun r' hr' hid' hrc => ?_) hok, .inl ⟨r, hr, hrid, htarget⟩⟩, rfl⟩
    have hown : Target n.tagPrefix c s.store.rows r' := ⟨hrc ▸ htag, .inl hrc⟩
    exact hid' (target_unique hr' hr hown htarget ▸ hrid)
  · have := (Prod.mk.inj (hdo.symm.trans hdo')).2
    cases this

theorem adding_placed (hs : Synced n s) (honce : Once n.tagPrefix c.tag) (htag : c.tag ≠ "")
    (hnone : ∀ r ∈ s.store.rows, ¬Target n.tagPrefix c s.store.rows r)
    (h : addInbound srv n s c = (s', .ok ())) : Placed n.tagPrefix s.store c s'.store ∧ Synced n s' := by
  have hfree : ∀ r ∈ s.store.rows, r.tag ≠ c.tag := fun r hr hrc => hnone r hr ⟨hrc ▸ htag, .inl hrc⟩
  rw [addInbound] at h
  rcases doRequest_cases srv n s (.add c.tag c.body) with ⟨store, obj, -, hok, hdo⟩ | ⟨f, store, -, -, -, hdo⟩
  · obtain ⟨rfl, hrows⟩ := handle_add htag hfree hok
    rw [hdo] at h
    have hpos : 0 < s.store.table.next ∧ c.tag ≠ "" := ⟨s.store.positive, htag⟩
    have hs' : s' = { s.after (.add c.tag c.body) .served store with
        cache := s.cache.put c.tag s.store.table.next } := by
      rw [← (Prod.mk.inj h).1]
      exact if_pos hpos
    subst hs'
    have hfresh : ∀ r ∈ s.store.rows, r.id ≠ s.store.table.next := by
      intro r hr
      have := s.store.table.below r hr
      omega
    have hplaced : PlacedAt n.tagPrefix c s.store store s.store.table.next := by
      refine ⟨fun x => (hrows x).trans ⟨fun hx => hx.symm.imp (fun h => h) fun hx => ⟨hx, hfresh x hx⟩, ?_⟩, .inr ?_⟩
      · rintro (hx | ⟨hx, -⟩)
        · exact .inr hx
        · exact .inl hx
      · exact fun r hr => ⟨hfresh r hr, hnone r hr⟩
    exact ⟨⟨_, hplaced⟩, synced_placed hs honce htag hplaced rfl⟩
  · rw [hdo] at h
    cases (Prod.mk.inj h).2

theorem updateInbound_placed (hs : Synced n s) (hpre : n.tagPrefix ≠ "") (honce : Once n.tagPrefix c.tag)
    (htag : c.tag ≠ "") (h : updateInbound srv n s c c = (s', .ok ())) :
    Placed n.tagPrefix s.store c s'.store ∧ Synced n s' := by
  have hrewrite : ∀ s₁ : Session B, ∀ id, Synced n s₁ → cacheGetTag n s₁.cache c.tag = some id →
      (andThen (doRequest srv n s₁ (.update id c.tag c.body)) fun s _ =>
        ({ s with cache := s.cache.put c.tag id }, Except.ok ())) = (s', (.ok () : Except RemoteError Unit)) →
      Placed n.tagPrefix s₁.store c s'.store ∧ Synced n s' := by
    intro s₁ id hs₁ hget hdo
    obtain ⟨s₂, o, hreq, hs'⟩ := andThen_ok.mp hdo
    obtain ⟨rfl, -⟩ := Prod.mk.inj hs'
    obtain ⟨hplaced, hcache⟩ := rewriting_placed hs₁ hpre honce htag hget rfl hreq
    exact ⟨⟨id, hplaced⟩, synced_placed hs₁ honce htag hplaced (congrArg (fun m => m.put c.tag id) hcache)⟩
  have hlookup := resolveRemoteID_lookup srv n s c.tag
  rw [updateInbound] at h
  simp only [ne_eq, not_true_eq_false, if_false] at h
  rcases hres : resolveRemoteID srv n s c.tag with ⟨s₁, x⟩
  rw [hres] at hlookup h
  cases hlookup with
  | hit id hget => exact hrewrite _ id hs hget h
  | unlisted hmiss hfate =>
    exact adding_placed (s := s.after .list (s.fate n) s.store) ⟨hs.sound, hs.complete⟩ honce htag
      (hs.no_target hmiss) h
  | found id hmiss hfate hget => exact hrewrite s.listed id (listed_synced s) hget h
  | absent hmiss hfate hget => exact adding_placed (s := s.listed) (listed_synced s) honce htag (hs.no_target hmiss) h

variable {cs : List (Inbound B)} {m : Managed}

theorem updateAll_run (hs : Synced m.toNode s) (hpre : m.tagPrefix ≠ "")
    (honce : ∀ c ∈ cs, Once m.tagPrefix c.tag) (htag : ∀ c ∈ cs, c.tag ≠ "")
    (h : updateAll srv m cs s = (s', .ok ())) :
    Run (Placed m.tagPrefix) s.store cs s'.store ∧ Synced m.toNode s' := by
  induction cs generalizing s with
  | nil =>
    obtain ⟨rfl, -⟩ := Prod.mk.inj h
    exact ⟨.nil _, hs⟩
  | cons c cs ih =>
    rw [updateAll] at h
    rcases hupdate : updateInbound srv m.toNode s c c with ⟨mid, e | ⟨⟩⟩
    · rw [hupdate] at h
      cases (Prod.mk.inj h).2
    · rw [hupdate] at h
      obtain ⟨hplaced, hmid⟩ := updateInbound_placed hs hpre (honce c mem_cons_self)
        (htag c mem_cons_self) hupdate
      obtain ⟨hrun, hs'⟩ := ih hmid (fun d hd => honce d (mem_cons_of_mem _ hd))
        (fun d hd => htag d (mem_cons_of_mem _ hd)) h
      exact ⟨.cons hplaced hrun, hs'⟩

def Complete (s : Session B) : Prop := ∀ r ∈ s.store.rows, r.tag ≠ "" → s.cache.get r.tag = some r.id

theorem delInbound_listed {r : Inbound B} (hs : Complete s) (hr : r ∈ s.store.rows) (htag : r.tag ≠ "")
    (h : delInbound srv n s r.tag = (s', .ok ())) :
    (∀ x, x ∈ s'.store.rows ↔ x ∈ s.store.rows ∧ x.tag ≠ r.tag) ∧ Complete s' := by
  have hget : cacheGetTag n s.cache r.tag = some r.id := by
    rw [cacheGetTag_eq, hs r hr htag, Option.some_or]
  rw [delInbound, resolveRemoteID, hget] at h
  obtain ⟨s₁, o, hreq, hs'⟩ := andThen_ok.mp h
  obtain ⟨rfl, -⟩ := Prod.mk.inj hs'
  rcases doRequest_cases srv n s (.del r.id) with ⟨store, obj, -, hok, hdo⟩ | ⟨f, store, -, -, -, hdo⟩
  · obtain ⟨rfl, -⟩ := Prod.mk.inj (hreq.symm.trans hdo)
    have hrows : ∀ x, x ∈ store.rows ↔ x ∈ s.store.rows ∧ x.tag ≠ r.tag := by
      intro x
      simp only [handle] at hok
      split at hok
      · obtain ⟨rfl, -⟩ := Prod.mk.inj (Except.ok.inj hok)
        have hmem : x ∈ (s.store.delete r.id).rows ↔ x ∈ s.store.rows ∧ (x.id == r.id) = false := Table.mem_delete
        rw [hmem]
        refine and_congr_right fun hx => ?_
        rw [beq_eq_false_iff_ne]
        exact not_congr ⟨fun hid => congrArg Inbound.tag (eq_of_id hx hr hid),
          fun ht => congrArg Inbound.id (eq_of_tag hx hr ht)⟩
      · cases hok
    refine ⟨hrows, fun x hx hxtag => ?_⟩
    obtain ⟨hx, hne⟩ := (hrows x).mp hx
    exact (Fields.get_del_ne hne.symm).trans (hs x hx hxtag)
  · cases (Prod.mk.inj (hreq.symm.trans hdo)).2

theorem deleteUnwanted_rows {tags : List String} (hs : Complete s)
    (htags : tags.Nodup) (hheld : ∀ t ∈ tags, unwanted m cs t = true → ∃ r ∈ s.store.rows, r.tag = t ∧ t ≠ "")
    (h : deleteUnwanted srv m cs tags s = (s', .ok ())) :
    ∀ x, x ∈ s'.store.rows ↔ x ∈ s.store.rows ∧ ¬(x.tag ∈ tags ∧ unwanted m cs x.tag = true) := by
  induction tags generalizing s with
  | nil =>
    obtain ⟨rfl, -⟩ := Prod.mk.inj h
    intro x
    simp
  | cons t tags ih =>
    obtain ⟨hhead, htail⟩ := nodup_cons.mp htags
    rw [deleteUnwanted] at h
    cases hunwanted : unwanted m cs t with
    | false =>
      rw [if_neg (by simp [hunwanted])] at h
      intro x
      rw [ih hs htail (fun t' ht' => hheld t' (mem_cons_of_mem _ ht')) h, mem_cons]
      refine and_congr_right fun _ => not_congr ⟨fun hx => ⟨.inr hx.1, hx.2⟩, ?_⟩
      rintro ⟨rfl | hx, hx'⟩
      · rw [hunwanted] at hx'
        cases hx'
      · exact ⟨hx, hx'⟩
    | true =>
      rw [if_pos hunwanted] at h
      obtain ⟨r, hr, rfl, htag⟩ := hheld t mem_cons_self hunwanted
      rcases hdel : delInbound srv m.toNode s r.tag with ⟨mid, e | ⟨⟩⟩
      · rw [hdel] at h
        cases (Prod.mk.inj h).2
      · rw [hdel] at h
        obtain ⟨hrows, hmid⟩ := delInbound_listed hs hr htag hdel
        have hrest : ∀ t' ∈ tags, unwanted m cs t' = true → ∃ r' ∈ mid.store.rows, r'.tag = t' ∧ t' ≠ "" := by
          intro t' ht' hun
          obtain ⟨r', hr', hrt, hne⟩ := hheld t' (mem_cons_of_mem _ ht') hun
          refine ⟨r', (hrows r').mpr ⟨hr', fun heq => ?_⟩, hrt, hne⟩
          exact hhead (heq ▸ hrt ▸ ht')
        intro x
        rw [ih hmid htail hrest h, hrows, mem_cons, and_assoc]
        refine and_congr_right fun _ => ?_
        constructor
        · rintro ⟨hne, hx⟩ ⟨heq | hx', hx''⟩
          · exact hne heq
          · exact hx ⟨hx', hx''⟩
        · intro hx
          exact ⟨fun heq => hx ⟨.inl heq, heq ▸ hunwanted⟩, fun hx' => hx ⟨.inr hx'.1, hx'.2⟩⟩

theorem mem_keys {m : Fields Int} {t : String} : t ∈ m.map Prod.fst ↔ ∃ id, m.get t = some id := by
  rw [← Option.ne_none_iff_exists', Fields.get, ne_eq, Option.map_eq_none_iff, KeyedDiff.lookup_none, mem_map]
  simp

theorem idsByTag_keys {rows : List (Inbound B)} {t : String} :
    t ∈ (idsByTag rows).map Prod.fst ↔ ∃ r ∈ rows, r.tag = t ∧ t ≠ "" := by
  rw [mem_keys]
  constructor
  · rintro ⟨id, h⟩
    obtain ⟨r, hr, -, hrt, ht⟩ := idsByTag_sound h
    exact ⟨r, hr, hrt, ht⟩
  · rintro ⟨r, hr, rfl, ht⟩
    exact idsByTag_complete hr ht

theorem idsByTag_nodup (rows : List (Inbound B)) : ((idsByTag rows).map Prod.fst).Nodup := by
  induction rows using List.reverseRecOn with
  | nil => exact nodup_nil
  | append_singleton rows ib ih =>
    rw [idsByTag_concat]
    split
    · exact ih
    · exact KeyedDiff.nodup_replace ih

theorem mem_desiredTags {t : String} :
    t ∈ desiredTags m cs ↔ ∃ c ∈ cs, Same m.tagPrefix c.tag t := by
  rw [desiredTags, mem_flatMap]
  refine exists_congr fun c => and_congr_right fun _ => ?_
  rw [mem_cons, mem_singleton]
  rfl

def swept (m : Managed) (cs : List (Inbound B)) (before : Store B) (t : String) : Prop :=
  (∃ r ∈ before.rows, r.tag = t ∧ t ≠ "") ∧ unwanted m cs t = true

theorem reconcileNode_rows {central : Central m.toNode B} {order : Shuffle} (hpre : m.tagPrefix ≠ "")
    (h : reconcileNode srv m (.ok central.inbounds) order s = (s', .ok ())) :
    ∃ mid, Run (Placed m.tagPrefix) s.store central.inbounds mid ∧
      ∀ x, x ∈ s'.store.rows ↔ x ∈ mid.rows ∧ ¬swept m central.inbounds s.store x.tag := by
  rw [reconcileNode, if_neg (by have := m.stored; omega)] at h
  simp only [listRemoteTags] at h
  by_cases hfate : s.fate m.toNode = .served
  · rw [refreshRemoteIDs_served hfate] at h
    obtain ⟨mid, ⟨⟩, hupdate, hdelete⟩ := andThen_ok.mp h
    have hmemtag : ∀ t, t ∈ order.val (s.listed.cache.map Prod.fst) ↔ ∃ r ∈ s.store.rows, r.tag = t ∧ t ≠ "" :=
      fun t => (order.property _).mem_iff.trans idsByTag_keys
    obtain ⟨hrun, hmid⟩ := updateAll_run (listed_synced s) hpre central.once central.tagged hupdate
    have hforeign : ∀ r : Inbound B, unwanted m central.inbounds r.tag = true →
        (r ∈ mid.store.rows ↔ r ∈ s.store.rows) := by
      intro r hun
      refine foreign_run (fun c hc hsame => ?_) hrun
      rw [unwanted, decide_eq_true_eq] at hun
      exact hun.1 (mem_desiredTags.mpr ⟨c, hc, hsame⟩)
    refine ⟨mid.store, hrun, fun x => ?_⟩
    have hkeys : (order.val (s.listed.cache.map Prod.fst)).Nodup :=
      (order.property _).nodup_iff.mpr (idsByTag_nodup _)
    rw [deleteUnwanted_rows hmid.complete hkeys ?_ hdelete]
    · exact and_congr_right fun _ => not_congr (and_congr_left fun _ => hmemtag x.tag)
    · intro t ht hun
      obtain ⟨r, hr, rfl, htag⟩ := (hmemtag t).mp ht
      exact ⟨r, (hforeign r hun).mpr hr, rfl, htag⟩
  · rw [refreshRemoteIDs_unserved hfate] at h
    cases (Prod.mk.inj h).2

end syncing

section convergence

structure Converged (m : Managed) (central : Central m.toNode B) (before after : Store B) : Prop where
  placed : ∃ place : Inbound B → Inbound B,
    (∀ c ∈ central.inbounds, place c ∈ after.rows ∧ Same m.tagPrefix c.tag (place c).tag ∧
      (place c).body = c.body) ∧
    (∀ c ∈ central.inbounds, ∀ d ∈ central.inbounds, place c = place d → c = d) ∧
    (selected m = none → ∀ x ∈ after.rows, ∃ c ∈ central.inbounds, x = place c)
  untouched : ∀ tags, selected m = some tags → ∀ x ∈ before.rows, x.tag ∉ tags → x ∈ after.rows

structure Settled (m : Managed) (central : Central m.toNode B) (before : Store B) : Prop where
  paired : Paired m.tagPrefix before central.inbounds
  listed : selected m = none → (∀ x ∈ before.rows, x.tag ≠ "") ∧
    ∀ c ∈ central.inbounds, ∀ x ∈ before.rows, ∀ y ∈ before.rows, x.tag = c.tag → y.tag = toggle m.tagPrefix c.tag →
      ∃ d ∈ central.inbounds, d.tag = y.tag
  chosen : ∀ tags, selected m = some tags → ∀ c ∈ central.inbounds, ∀ x ∈ before.rows,
    Target m.tagPrefix c before.rows x → x.tag ∉ tags → x = landed c x.id

section settled

variable {m : Managed} {central : Central m.toNode B} {before mid after : Store B} {c d : Inbound B}

theorem central_eq (hc : c ∈ central.inbounds) (hd : d ∈ central.inbounds) (h : c.tag = d.tag) : c = d :=
  inj_on_of_nodup_map central.distinct hc hd h

theorem central_carried (hpaired : Paired m.tagPrefix before central.inbounds)
    (hrun : Run (Placed m.tagPrefix) before central.inbounds mid) :
    Carried m.tagPrefix before central.inbounds mid := by
  have hnil := nil_append central.inbounds
  have hcarried : Carried m.tagPrefix before ([] ++ central.inbounds) mid :=
    carried_run (hnil.symm ▸ central.distinct) central.tagged (hnil.symm ▸ central.once) (hnil.symm ▸ hpaired)
      hrun (carried_nil before)
  rwa [hnil] at hcarried

theorem wanted_kept {x : Inbound B}
    (hafter : ∀ x, x ∈ after.rows ↔ x ∈ mid.rows ∧ ¬swept m central.inbounds before x.tag)
    (hc : c ∈ central.inbounds) (hx : x ∈ mid.rows) (hsame : Same m.tagPrefix c.tag x.tag) : x ∈ after.rows := by
  refine (hafter x).mpr ⟨hx, fun hswept => ?_⟩
  have hun := hswept.2
  rw [unwanted, decide_eq_true_eq] at hun
  exact hun.1 (mem_desiredTags.mpr ⟨c, hc, hsame⟩)

variable (hpre : m.tagPrefix ≠ "") (hrun : Run (Placed m.tagPrefix) before central.inbounds mid)
  (hafter : ∀ x, x ∈ after.rows ↔ x ∈ mid.rows ∧ ¬swept m central.inbounds before x.tag)

include hpre hrun hafter

theorem paired_of_converged (h : Converged m central before after) : Paired m.tagPrefix before central.inbounds := by
  intro c hc d hd htwin
  by_contra hnone
  obtain ⟨place, hplace, hinj, -⟩ := h.placed
  have honce := central.once c hc
  have hlone : Lone m.tagPrefix c.tag mid := by
    refine hrun.invariant (fun _ _ _ h hstep => lone_step hpre honce (central.tagged c hc) ?_ h hstep) ?_
    · exact htwin ▸ central.tagged d hd
    · exact fun x hx _ _ hxc => absurd ⟨x, hx, hxc⟩ hnone
  obtain ⟨hpc, hcsame, -⟩ := hplace c hc
  obtain ⟨hpd, hdsame, -⟩ := hplace d hd
  have hpc' := ((hafter _).mp hpc).1
  have hpd' := ((hafter _).mp hpd).1
  have hback : toggle m.tagPrefix d.tag = c.tag := by rw [htwin, toggle_toggle honce]
  have hne : (place c).tag ≠ (place d).tag := by
    intro heq
    rw [hinj c hc d hd (eq_of_tag hpc' hpd' heq)] at hback
    exact toggle_ne hpre hback
  rcases hcsame with hc1 | hc2
  · rcases hdsame with hd1 | hd2
    · exact hlone _ hpc' _ hpd' hc1 (hd1.trans htwin)
    · exact hne (hc1.trans (hd2.trans hback).symm)
  · rcases hdsame with hd1 | hd2
    · exact hne (hc2.trans (hd1.trans htwin).symm)
    · exact hlone _ hpd' _ hpc' (hd2.trans hback) hc2

theorem settled_of_converged (h : Converged m central before after) : Settled m central before := by
  have hpaired := paired_of_converged hpre hrun hafter h
  have hcarried := central_carried hpaired hrun
  obtain ⟨place, hplace, -, hall⟩ := h.placed
  have hown : ∀ c ∈ central.inbounds, ∀ x ∈ mid.rows, x.tag = c.tag → selected m = none →
      ∃ e ∈ central.inbounds, x = place e ∧ (e = c ∨ e.tag = toggle m.tagPrefix c.tag) := by
    intro c hc x hx hxc hnone
    have hxafter : x ∈ after.rows := wanted_kept hafter hc hx (.inl hxc)
    obtain ⟨e, he, rfl⟩ := hall hnone x hxafter
    rcases (hplace e he).2.1 with hsame | hsame
    · exact ⟨e, he, rfl, .inl (central_eq he hc (hsame.symm.trans hxc))⟩
    · exact ⟨e, he, rfl, .inr (by rw [← hxc, hsame, toggle_toggle (central.once e he)])⟩
  refine ⟨hpaired, fun hnone => ⟨fun x hx huntagged => ?_, fun c hc x hx y hy hxc hyc => ?_⟩, ?_⟩
  · have hxmid : x ∈ mid.rows := by
      rcases hcarried.fate x hx with hmid | ⟨d, -, htarget, -⟩
      · exact hmid
      · exact absurd huntagged htarget.tagged
    have hxafter : x ∈ after.rows := (hafter x).mpr ⟨hxmid, fun ⟨⟨_, _, _, hne⟩, _⟩ => hne huntagged⟩
    obtain ⟨d, hd, rfl⟩ := hall hnone x hxafter
    have hdtoggle : toggle m.tagPrefix d.tag = "" := by
      rcases (hplace d hd).2.1 with hsame | hsame
      · exact absurd (hsame.symm.trans huntagged) (central.tagged d hd)
      · exact hsame.symm.trans huntagged
    obtain ⟨id, hrow⟩ := hcarried.here d hd
    obtain ⟨e, he, heq, rfl | htwin⟩ := hown d hd _ hrow rfl hnone
    · have : e.tag = "" := (congrArg Inbound.tag heq).trans huntagged
      exact central.tagged e he this
    · exact central.tagged e he (htwin.trans hdtoggle)
  · by_contra habsent
    have hmissing : ∀ d ∈ central.inbounds, d.tag ≠ y.tag := fun d hd heq => habsent ⟨d, hd, heq⟩
    have hback : ∀ d ∈ central.inbounds, y.tag = toggle m.tagPrefix d.tag → d = c := by
      intro d hd hyd
      refine central_eq hd hc ?_
      rw [← toggle_toggle (central.once d hd), ← hyd, hyc, toggle_toggle (central.once c hc)]
    have hymid : y ∈ mid.rows := by
      rcases hcarried.fate y hy with hmid | ⟨d, hd, htarget, -⟩
      · exact hmid
      · rcases htarget.same with hsame | ⟨hsame, hnorow⟩
        · exact absurd hsame.symm (hmissing d hd)
        · exact absurd (hback d hd hsame ▸ hxc) (hnorow x hx)
    obtain ⟨d, hd, hyd⟩ := hall hnone y (wanted_kept hafter hc hymid (.inr hyc))
    have hdc : d = c := by
      rcases (hplace d hd).2.1 with hsame | hsame
      · exact absurd (hyd ▸ hsame).symm (hmissing d hd)
      · exact hback d hd (hyd ▸ hsame)
    obtain ⟨id, hrow⟩ := hcarried.here c hc
    obtain ⟨e, he, heq, rfl | htwin⟩ := hown c hc _ hrow rfl hnone
    · have htags : e.tag = y.tag := by
        rw [hyd, hdc, ← heq]
        rfl
      exact hmissing e he htags
    · exact hmissing e he (htwin.trans hyc.symm)
  · intro tags htags c hc x hx htarget hnot
    have hxmid := ((hafter x).mp (h.untouched tags htags x hx hnot)).1
    rcases hcarried.origin x hxmid with ⟨d, hd, hxd⟩ | ⟨-, hspared⟩
    · have hxdtag : x.tag = d.tag := (congrArg Inbound.tag hxd).trans rfl
      rcases htarget.same with hsame | ⟨hsame, hnorow⟩
      · rw [central_eq hc hd (hsame.symm.trans hxdtag)]
        exact hxd
      · obtain ⟨r, hr, hrc⟩ := hpaired c hc d hd (hxdtag.symm.trans hsame)
        exact absurd hrc (hnorow r hr)
    · exact absurd htarget (hspared c hc)

omit hpre in
theorem converged_of_settled (h : Settled m central before) : Converged m central before after := by
  have hcarried := central_carried h.paired hrun
  have hrow : ∀ c, ∃ r, c ∈ central.inbounds → r ∈ mid.rows ∧ r.tag = c.tag ∧ r.body = c.body := by
    intro c
    by_cases hc : c ∈ central.inbounds
    · obtain ⟨id, hrow⟩ := hcarried.here c hc
      exact ⟨landed c id, fun _ => ⟨hrow, rfl, rfl⟩⟩
    · exact ⟨c, fun h => absurd h hc⟩
  choose place hplace using hrow
  refine ⟨⟨place, fun c hc => ?_, fun c hc d hd heq => ?_, fun hnone x hx => ?_⟩, fun tags htags x hx hnot => ?_⟩
  · obtain ⟨hmid, htag, hbody⟩ := hplace c hc
    exact ⟨wanted_kept hafter hc hmid (.inl htag), .inl htag, hbody⟩
  · refine central_eq hc hd ?_
    rw [← (hplace c hc).2.1, heq, (hplace d hd).2.1]
  · obtain ⟨hxmid, hkept⟩ := (hafter x).mp hx
    rcases hcarried.origin x hxmid with ⟨d, hd, hxd⟩ | ⟨hbefore, hspared⟩
    · have hxdtag : x.tag = d.tag := (congrArg Inbound.tag hxd).trans rfl
      exact ⟨d, hd, eq_of_tag hxmid (hplace d hd).1 (hxdtag.trans (hplace d hd).2.1.symm)⟩
    · obtain ⟨htagged, htwins⟩ := h.listed hnone
      have hwanted : ∃ d ∈ central.inbounds, Same m.tagPrefix d.tag x.tag := by
        by_contra hno
        refine hkept ⟨⟨x, hbefore, rfl, htagged x hbefore⟩, ?_⟩
        rw [unwanted, decide_eq_true_eq, hnone]
        exact ⟨fun hmem => hno (mem_desiredTags.mp hmem), fun _ h => nomatch h⟩
      have hnever : ∀ d ∈ central.inbounds, x.tag ≠ d.tag :=
        fun d hd heq => hspared d hd ⟨htagged x hbefore, .inl heq⟩
      obtain ⟨d, hd, hsame | hsame⟩ := hwanted
      · exact absurd hsame (hnever d hd)
      · exfalso
        refine hspared d hd ⟨htagged x hbefore, .inr ⟨hsame, fun r hr hrd => ?_⟩⟩
        obtain ⟨e, he, hex⟩ := htwins d hd r hr x hbefore hrd hsame
        exact hnever e he hex.symm
  · have hxmid : x ∈ mid.rows := by
      rcases hcarried.fate x hx with hmid | ⟨d, hd, htarget, hlanded⟩
      · exact hmid
      · rw [h.chosen tags htags d hd x hx htarget hnot]
        exact hlanded
    refine (hafter x).mpr ⟨hxmid, fun hswept => ?_⟩
    have hun := hswept.2
    rw [unwanted, decide_eq_true_eq] at hun
    exact hnot (hun.2 tags htags)

end settled

theorem reconcileNode_converged_iff (srv : Server B) (m : Managed) (central : Central m.toNode B) (order : Shuffle)
    (s s' : Session B) (h : reconcileNode srv m (.ok central.inbounds) order s = (s', .ok ())) :
    Converged m central s.store s'.store ↔ Settled m central s.store := by
  have hpre : m.tagPrefix ≠ "" := by
    intro hempty
    have := congrArg String.length hempty
    simp [Node.tagPrefix, Ports.nodeTagPrefix] at this
  obtain ⟨mid, hrun, hafter⟩ := reconcileNode_rows hpre h
  exact ⟨settled_of_converged hpre hrun hafter, converged_of_settled hrun hafter⟩

section sample

def hub : Managed := { edge with stored := by decide, inboundSyncMode := "all", inboundTags := [] }

def twins : Central hub.toNode Unit where
  inbounds := [⟨5, "a", ()⟩, ⟨6, "n1-a", ()⟩]
  distinct := by decide
  tagged := by decide
  once := by
    have htwice : cut hub.tagPrefix "a" = none := by decide
    intro ib hib s hs
    rcases mem_cons.mp hib with rfl | hib
    · rw [htwice] at hs
      cases hs
    · rw [mem_singleton.mp hib] at hs
      have hstrip : cut hub.tagPrefix "n1-a" = some "a" := by decide
      rw [hstrip, Option.some.injEq] at hs
      rw [← hs, htwice]

def bare : Central hub.toNode Unit where
  inbounds := [⟨5, "a", ()⟩]
  distinct := by decide
  tagged := by decide
  once := fun ib hib => twins.once ib (mem_cons.mpr (.inl (mem_singleton.mp hib)))

def inOrder : Shuffle := ⟨fun l => l, fun l => .refl l⟩

def vacant : Session Unit := ⟨⟨Table.empty, nodup_nil, by decide⟩, [], fun _ => .served, []⟩

theorem twin_overwritten : (reconcileNode plain hub (.ok twins.inbounds) inOrder vacant).2 = .ok () ∧
    ¬Converged hub twins vacant.store (reconcileNode plain hub (.ok twins.inbounds) inOrder vacant).1.store := by
  have hok : (reconcileNode plain hub (.ok twins.inbounds) inOrder vacant).2 = .ok () := rfl
  refine ⟨hok, fun hconverged => ?_⟩
  have hrows := @reconcileNode_rows Unit plain vacant _ hub twins inOrder (by decide) (Prod.ext rfl hok)
  obtain ⟨mid, hrun, hafter⟩ := hrows
  obtain ⟨r, hr, -⟩ := paired_of_converged (by decide) hrun hafter hconverged ⟨5, "a", ()⟩ mem_cons_self
    ⟨6, "n1-a", ()⟩ (mem_cons_of_mem _ mem_cons_self) (by decide)
  exact not_mem_nil hr

theorem reconcileNode_converged_bare :
    Converged hub bare vacant.store (reconcileNode plain hub (.ok bare.inbounds) inOrder vacant).1.store := by
  refine (reconcileNode_converged_iff plain hub bare inOrder vacant _ (Prod.ext rfl rfl)).mpr ⟨?_, ?_, ?_⟩
  · intro c hc d hd htwin
    rw [mem_singleton.mp hc, mem_singleton.mp hd] at htwin
    exact absurd htwin (by decide)
  · exact fun _ => ⟨fun x hx => absurd hx not_mem_nil, fun _ _ x hx => absurd hx not_mem_nil⟩
  · exact fun _ _ _ _ x hx => absurd hx not_mem_nil

end sample

end convergence

end Reconcile

end QuiPanel
