import QuiPanel.Accounts
import QuiPanel.Library.Trace

namespace QuiPanel

namespace Workspaces

open Keyed Outcome Accounts Trace List

def reconcileOne (st : DB × Option Accounts.Err) (managerId : Int) : DB × Option Accounts.Err :=
  match ensureWorkspaceForUser st.1 managerId with
  | .ok db => (db, st.2)
  | .error e => (st.1, st.2.or (some e))

def managers (db : DB) : List Int :=
  (db.users.rows.filter fun u => u.role = roleManager).map (·.id)

def reconcileWorkspaces (db : DB) : DB × Option Accounts.Err := (managers db).foldl reconcileOne (db, none)

def suspendWorkspaceForUser (db : DB) (userId : Int) : DB :=
  if userId ≤ 0 then db
  else { db with
    tenants := db.tenants.modify (fun t => t.managerUserId == userId && t.status == .active)
      (fun t => { t with status := .suspended }) fun _ => rfl }

inductive Event
  | call (a : Act)
  | suspendWorkspaceForUser (userId : Int)
  | reconcileWorkspaces

def perform (env : Env) (db : DB) : Event → DB
  | .call a => Accounts.step env db a
  | .suspendWorkspaceForUser userId => Workspaces.suspendWorkspaceForUser db userId
  | .reconcileWorkspaces => (Workspaces.reconcileWorkspaces db).1

structure Live (db : DB) : Prop where
  owns : ∀ u ∈ db.users.rows, u.role = roleManager →
    ∃ t ∈ db.tenants.rows, t.managerUserId = u.id ∧ u.tenantId = t.id ∧
      ∀ t' ∈ db.tenants.rows, t'.managerUserId = u.id → t' = t
  apart : ∀ u ∈ db.users.rows, ∀ u' ∈ db.users.rows, u.role = roleManager → u'.role = roleManager →
    u.tenantId = u'.tenantId → u = u'
  payable : ∀ t ∈ db.tenants.rows, (∃ u ∈ db.users.rows, u.tenantId = t.id) →
    ∃ owner ∈ db.users.rows, owner.id = t.managerUserId
  stable : reconcileWorkspaces db = (db, none)

def Headless (db : DB) : Prop :=
  ∃ t ∈ db.tenants.rows, (∀ u ∈ db.users.rows, u.id ≠ t.managerUserId) ∧
    ∃ u ∈ db.users.rows, u.role ≠ roleManager ∧ u.tenantId = t.id

def KeepsOwner (db : DB) : Event → Prop
  | .call (.deleteUser id) => ∀ t ∈ db.tenants.rows, t.managerUserId ≠ id
  | .call (.tenantUserDelete id _) => ∀ t ∈ db.tenants.rows, t.managerUserId ≠ id
  | _ => True

structure Sound (db : DB) : Prop where
  oneEach : (db.tenants.rows.map (·.managerUserId)).Nodup
  known : ∀ t ∈ db.tenants.rows, t.managerUserId < db.users.next

def Owned (db : DB) : Prop :=
  ∀ t ∈ db.tenants.rows, ∃ u ∈ db.users.rows, u.id = t.managerUserId

section ensuring

variable {db db' : DB} {m k : Int}

def Settled (db : DB) (m : Int) : Prop :=
  0 < m ∧ ∃ t ∈ db.tenants.rows, t.managerUserId = m ∧ ∀ u ∈ db.users.rows, u.id = m → u.tenantId = t.id

structure Ensured (m : Int) (db db' : DB) (t : Workspace) : Prop where
  positive : 0 < m
  here : t ∈ db'.tenants.rows
  owner : t.managerUserId = m
  users : db'.users.rows = db.users.rows.map fun u => if u.id = m then { u with tenantId := t.id } else u
  next : db'.users.next = db.users.next
  tenants : db'.tenants.rows = db.tenants.rows ∨
    (db'.tenants.rows = db.tenants.rows ++ [t] ∧ (∀ t' ∈ db.tenants.rows, t'.managerUserId ≠ m) ∧
      ∃ u ∈ db.users.rows, u.id = m)

theorem relink_rows (users : Table Account Account.id) (m t : Int) :
    (users.modify (fun u => u.id == m && u.tenantId != t) (fun u => { u with tenantId := t })
      fun _ => rfl).rows = users.rows.map fun u => if u.id = m then { u with tenantId := t } else u := by
  rw [Table.rows_modify]
  apply map_congr_left
  intro u _
  by_cases hid : u.id = m
  · by_cases htenant : u.tenantId = t
    · rw [if_pos hid, ← htenant, bne_self_eq_false, Bool.and_false, if_neg Bool.false_ne_true]
    · simp [hid, htenant]
  · simp [hid]

theorem ensured (h : ensureWorkspaceForUser db m = .ok db') : ∃ t, Ensured m db db' t := by
  simp only [ensureWorkspaceForUser, bind_ok, check_ok] at h
  obtain ⟨_, hpos, h⟩ := h
  have hpos : 0 < m := by simpa using hpos
  split at h
  case h_1 t ht =>
    cases h
    have howner : t.managerUserId = m := by simpa using find?_some ht
    exact ⟨t, hpos, mem_of_find?_eq_some ht, howner, relink_rows db.users m t.id, rfl, Or.inl rfl⟩
  case h_2 hnone =>
    simp only [bind_ok, orErr_ok] at h
    obtain ⟨user, huser, slug, -, h⟩ := h
    cases h
    refine ⟨_, hpos, Table.mem_insert.mpr (Or.inr rfl), rfl, ?_, rfl, Or.inr ⟨rfl, ?_, ?_⟩⟩
    · rw [Table.rows_modify]
      apply map_congr_left
      intro u _
      by_cases hid : u.id = m <;> simp [hid]
    · simpa using hnone
    · exact ⟨user, Table.mem_of_find huser⟩

variable {t : Workspace}

theorem Ensured.settled (h : Ensured m db db' t) : Settled db' m := by
  refine ⟨h.positive, t, h.here, h.owner, ?_⟩
  intro u hu hid
  rw [h.users] at hu
  obtain ⟨u₀, -, rfl⟩ := mem_map.mp hu
  by_cases hm : u₀.id = m
  · simp [hm]
  · rw [if_neg hm] at hid
    exact absurd hid hm

theorem Ensured.tenants_subset (h : Ensured m db db' t) :
    db.tenants.rows ⊆ db'.tenants.rows := by
  rcases h.tenants with hsame | ⟨hnew, -⟩
  · rw [hsame]
    exact fun _ ht => ht
  · rw [hnew]
    exact subset_append_left _ _

theorem Ensured.keeps (h : Ensured m db db' t) (hk : Settled db k) : Settled db' k := by
  by_cases hkm : k = m
  · exact hkm ▸ h.settled
  · obtain ⟨hpos, t', ht', howner, husers⟩ := hk
    refine ⟨hpos, t', h.tenants_subset ht', howner, ?_⟩
    intro u hu hid
    rw [h.users] at hu
    obtain ⟨u₀, hu₀, rfl⟩ := mem_map.mp hu
    by_cases hm : u₀.id = m
    · rw [if_pos hm] at hid
      exact absurd (hid.symm.trans hm) hkm
    · rw [if_neg hm] at hid ⊢
      exact husers u₀ hu₀ hid

theorem Ensured.sound (h : Ensured m db db' t) (hdb : Sound db) : Sound db' := by
  rcases h.tenants with hsame | ⟨hnew, hfree, u, hu, hid⟩
  · refine ⟨?_, ?_⟩
    · rw [hsame]
      exact hdb.oneEach
    · rw [hsame, h.next]
      exact hdb.known
  · refine ⟨?_, ?_⟩
    · rw [hnew, map_append, map_singleton, ← concat_eq_append, h.owner]
      refine List.Nodup.concat ?_ hdb.oneEach
      intro hmem
      obtain ⟨t', ht', howner⟩ := mem_map.mp hmem
      exact hfree t' ht' howner
    · intro t' ht'
      rw [hnew] at ht'
      rw [h.next]
      rcases mem_append.mp ht' with ht' | ht'
      · exact hdb.known t' ht'
      · rw [mem_singleton.mp ht', h.owner, ← hid]
        exact db.users.below u hu

theorem ensure_settled (hsound : Sound db) (h : Settled db m) : ensureWorkspaceForUser db m = .ok db := by
  obtain ⟨hpos, t, ht, howner, husers⟩ := h
  have hfind : db.tenants.rows.find? (fun t => t.managerUserId == m) = some t := by
    cases hfind : db.tenants.rows.find? (fun t => t.managerUserId == m) with
    | none => exact absurd howner (by simpa using find?_eq_none.mp hfind t ht)
    | some t' =>
      have howner' : t'.managerUserId = m := by simpa using find?_some hfind
      rw [inj_on_of_nodup_map hsound.oneEach (mem_of_find?_eq_some hfind) ht
        (howner'.trans howner.symm)]
  have hsame : db.users.modify (fun u => u.id == m && u.tenantId != t.id)
      (fun u => { u with tenantId := t.id }) (fun _ => rfl) = db.users := by
    apply Table.modify_eq_self
    intro u hu
    by_cases hid : u.id = m
    · simp [husers u hu hid]
    · simp [hid]
  simp only [ensureWorkspaceForUser, hfind, hsame, check, hpos, decide_true, if_true, bind, Except.bind]
  rfl

end ensuring

section reconciling

variable {db db' : DB} {ms : List Int} {err : Option Accounts.Err}

structure Repaired (ms : List Int) (db db' : DB) : Prop where
  accounts : db'.users.rows.map (fun u => (u.id, u.role)) = db.users.rows.map fun u => (u.id, u.role)
  untouched : ∀ u, u.id ∉ ms → (u ∈ db'.users.rows ↔ u ∈ db.users.rows)
  tenants : db.tenants.rows ⊆ db'.tenants.rows
  created : ∀ t ∈ db'.tenants.rows, t ∈ db.tenants.rows ∨ ∃ u ∈ db.users.rows, u.id = t.managerUserId
  settled : ∀ m ∈ ms, Settled db' m
  keeps : ∀ k, Settled db k → Settled db' k
  sound : Sound db → Sound db'
  next : db'.users.next = db.users.next

theorem Repaired.nil : Repaired [] db db :=
  ⟨rfl, fun _ _ => Iff.rfl, fun _ ht => ht, fun _ ht => Or.inl ht,
    fun _ hm => absurd hm not_mem_nil, fun _ hk => hk, fun hs => hs, rfl⟩

theorem Repaired.ids {k : Int} (h : Repaired ms db db') :
    (∃ u ∈ db'.users.rows, u.id = k) ↔ ∃ u ∈ db.users.rows, u.id = k := by
  have hpair : ∀ users : List Account, (∃ u ∈ users, u.id = k) ↔
      k ∈ (users.map fun u => (u.id, u.role)).map Prod.fst := by
    intro users
    simp
  rw [hpair, hpair, h.accounts]

theorem Repaired.cons {db₁ : DB} {m : Int} {t : Workspace} (hfirst : Ensured m db db₁ t)
    (h : Repaired ms db₁ db') : Repaired (m :: ms) db db' := by
  have haccounts : db₁.users.rows.map (fun u => (u.id, u.role)) =
      db.users.rows.map fun u => (u.id, u.role) := by
    rw [hfirst.users, map_map]
    apply map_congr_left
    intro u _
    simp only [Function.comp_apply]
    split <;> rfl
  refine ⟨h.accounts.trans haccounts, ?_, fun t ht => h.tenants (hfirst.tenants_subset ht), ?_, ?_,
    fun k hk => h.keeps k (hfirst.keeps hk), fun hs => h.sound (hfirst.sound hs),
    h.next.trans hfirst.next⟩
  · intro u hu
    rw [mem_cons, not_or] at hu
    rw [h.untouched u hu.2, hfirst.users, mem_map]
    constructor
    · rintro ⟨u₀, hu₀, rfl⟩
      by_cases hid : u₀.id = m
      · rw [if_pos hid] at hu
        exact absurd hid hu.1
      · rwa [if_neg hid]
    · intro hmem
      exact ⟨u, hmem, if_neg hu.1⟩
  · intro t' ht'
    rcases h.created t' ht' with ht' | ⟨u, hu, hid⟩
    · rcases hfirst.tenants with hsame | ⟨hnew, -, u, hu, hid⟩
      · exact Or.inl (hsame ▸ ht')
      · rw [hnew] at ht'
        rcases mem_append.mp ht' with ht' | ht'
        · exact Or.inl ht'
        · rw [mem_singleton.mp ht', hfirst.owner]
          exact Or.inr ⟨u, hu, hid⟩
    · rw [hfirst.users] at hu
      obtain ⟨u₀, hu₀, rfl⟩ := mem_map.mp hu
      refine Or.inr ⟨u₀, hu₀, ?_⟩
      rw [← hid]
      split <;> rfl
  · intro k hk
    rcases mem_cons.mp hk with rfl | hk
    · exact h.keeps k hfirst.settled
    · exact h.settled k hk

theorem repaired (h : ms.foldl reconcileOne (db, err) = (db', none)) : err = none ∧ Repaired ms db db' := by
  induction ms generalizing db err with
  | nil =>
    cases h
    exact ⟨rfl, Repaired.nil⟩
  | cons m ms ih =>
    rw [foldl_cons, reconcileOne] at h
    cases hensure : ensureWorkspaceForUser db m with
    | error e =>
      rw [hensure] at h
      obtain ⟨herr, -⟩ := ih h
      cases err <;> cases herr
    | ok db₁ =>
      rw [hensure] at h
      obtain ⟨herr, hrest⟩ := ih h
      obtain ⟨t, hfirst⟩ := ensured hensure
      exact ⟨herr, hrest.cons hfirst⟩

theorem managers_eq (db : DB) : managers db =
    ((db.users.rows.map fun u => (u.id, u.role)).filter fun p => p.2 = roleManager).map Prod.fst := by
  rw [managers, filter_map, map_map]
  rfl

theorem reconcile_settled (hsound : Sound db) (h : ∀ m ∈ ms, Settled db m) :
    ms.foldl reconcileOne (db, none) = (db, none) := by
  induction ms with
  | nil => rfl
  | cons m ms ih =>
    rw [foldl_cons, reconcileOne, ensure_settled hsound (h m mem_cons_self)]
    exact ih fun k hk => h k (mem_cons_of_mem _ hk)

theorem live_iff (hsound : Sound db) (h : reconcileWorkspaces db = (db', none)) :
    Live db' ↔ ¬ Headless db := by
  obtain ⟨-, hrepaired⟩ := repaired h
  have hsound' := hrepaired.sound hsound
  have hmanagers : managers db' = managers db := by
    rw [managers_eq, managers_eq, hrepaired.accounts]
  have hmem : ∀ {db : DB} {u : Account}, u ∈ db.users.rows → u.role = roleManager → u.id ∈ managers db := by
    intro db u hu hrole
    exact mem_map.mpr ⟨u, mem_filter.mpr ⟨hu, by simpa using hrole⟩, rfl⟩
  have hother : ∀ {db : DB} {u : Account}, u ∈ db.users.rows → u.role ≠ roleManager →
      u.id ∉ managers db := by
    intro db u hu hrole hmanager
    obtain ⟨v, hv, hid⟩ := mem_map.mp hmanager
    obtain ⟨hv, hmanager⟩ := mem_filter.mp hv
    rw [Table.eq_of_key hv hu hid] at hmanager
    exact hrole (by simpa using hmanager)
  have howns : ∀ u ∈ db'.users.rows, u.role = roleManager →
      ∃ t ∈ db'.tenants.rows, t.managerUserId = u.id ∧ u.tenantId = t.id := by
    intro u hu hrole
    obtain ⟨-, t, ht, howner, husers⟩ := hrepaired.settled u.id (hmanagers ▸ hmem hu hrole)
    exact ⟨t, ht, howner, husers u hu rfl⟩
  constructor
  · rintro hlive ⟨t, ht, hnone, u, hu, hrole, htenant⟩
    have hu' := (hrepaired.untouched u (hother hu hrole)).mpr hu
    obtain ⟨owner, howner, hid⟩ := hrepaired.ids.mp (hlive.payable t (hrepaired.tenants ht) ⟨u, hu', htenant⟩)
    exact hnone owner howner hid
  · intro hheadless
    refine ⟨?_, ?_, ?_, ?_⟩
    · intro u hu hrole
      obtain ⟨t, ht, howner, htenant⟩ := howns u hu hrole
      exact ⟨t, ht, howner, htenant, fun t' ht' howner' =>
        inj_on_of_nodup_map hsound'.oneEach ht' ht (howner'.trans howner.symm)⟩
    · intro u hu u' hu' hrole hrole' hsame
      obtain ⟨t, ht, howner, htenant⟩ := howns u hu hrole
      obtain ⟨t', ht', howner', htenant'⟩ := howns u' hu' hrole'
      obtain rfl := Table.eq_of_key ht ht' (htenant.symm.trans (hsame.trans htenant'))
      exact Table.eq_of_key hu hu' (howner.symm.trans howner')
    · rintro t ht ⟨u, hu, htenant⟩
      rcases hrepaired.created t ht with hold | howner
      · by_cases hrole : u.role = roleManager
        · obtain ⟨t', ht', howner', htenant'⟩ := howns u hu hrole
          obtain rfl := Table.eq_of_key ht ht' (htenant.symm.trans htenant')
          exact ⟨u, hu, howner'.symm⟩
        · have hu₀ := (hrepaired.untouched u (hmanagers ▸ hother hu hrole)).mp hu
          by_contra hno
          refine hheadless ⟨t, hold, ?_, u, hu₀, hrole, htenant⟩
          intro owner howner hid
          exact hno (hrepaired.ids.mpr ⟨owner, howner, hid⟩)
      · exact hrepaired.ids.mpr howner
    · rw [reconcileWorkspaces, hmanagers]
      exact reconcile_settled hsound' hrepaired.settled

end reconciling

section running

variable {env : Env} {db db' : DB}

structure Carries (db db' : DB) : Prop where
  owners : (db'.tenants.rows.map (·.managerUserId)).Sublist (db.tenants.rows.map (·.managerUserId))
  next : db.users.next ≤ db'.users.next

def KeepsAccounts (db db' : DB) : Prop := ∀ u ∈ db.users.rows, ∃ u' ∈ db'.users.rows, u'.id = u.id

theorem Carries.sound (h : Carries db db') (hdb : Sound db) : Sound db' := by
  refine ⟨hdb.oneEach.sublist h.owners, ?_⟩
  intro t ht
  obtain ⟨t', ht', howner⟩ := mem_map.mp (h.owners.subset (mem_map_of_mem ht))
  have hknown := hdb.known t' ht'
  have hnext := h.next
  omega

theorem Carries.owned (h : Carries db db') (hkeeps : KeepsAccounts db db') (hdb : Owned db) : Owned db' := by
  intro t ht
  obtain ⟨t', ht', howner⟩ := mem_map.mp (h.owners.subset (mem_map_of_mem ht))
  obtain ⟨u, hu, hid⟩ := hdb t' ht'
  obtain ⟨u', hu', hid'⟩ := hkeeps u hu
  exact ⟨u', hu', hid'.trans (hid.trans howner)⟩

theorem modify_ids {users : Table Account Account.id} {p : Account → Bool} {f : Account → Account}
    (hf : ∀ u, (f u).id = u.id) {u : Account} (hu : u ∈ users.rows) :
    ∃ u' ∈ (users.modify p f hf).rows, u'.id = u.id := by
  refine ⟨_, Table.mem_modify.mpr ⟨u, hu, rfl⟩, ?_⟩
  split
  · exact hf u
  · rfl

variable {inp : AdminUserInput}

variable {id : Int} {scope : Scope}

theorem adminCreateUserTx_spec
    (h : adminCreateUserTx env db inp = .ok (id, db')) :
    id = db.users.next ∧ Carries db db' ∧ KeepsAccounts db db' ∧ db'.tenants = db.tenants ∧
      db'.users.next = db.users.next + 1 ∧ ∃ u ∈ db'.users.rows, u.id = id := by
  simp only [adminCreateUserTx, bind_ok] at h
  obtain ⟨-, -, -, -, email, -, hashed, -, -, -, h⟩ := h
  cases h
  refine ⟨rfl, ⟨List.Sublist.refl _, ?_⟩, ?_, rfl, rfl, _, Table.mem_insert.mpr (Or.inr rfl), rfl⟩
  · exact (Int.lt_add_one_of_le (le_refl _)).le
  · exact fun u hu => ⟨u, Table.mem_insert.mpr (Or.inl hu), rfl⟩

theorem adminCreateUser_carries (h : adminCreateUser env db inp = .ok db') :
    Carries db db' ∧ KeepsAccounts db db' := by
  simp only [adminCreateUser, Except.map] at h
  split at h
  · cases h
  · cases h
    rename_i r hr
    obtain ⟨-, hcarries, hkeeps, -⟩ := adminCreateUserTx_spec hr
    exact ⟨hcarries, hkeeps⟩

theorem tenantUserCreate_carries
    (h : tenantUserCreate env db inp scope = .ok db') : Carries db db' ∧ KeepsAccounts db db' := by
  simp only [tenantUserCreate, bind_ok] at h
  obtain ⟨-, -, ⟨id, db₁⟩, hcreate, h⟩ := h
  cases h
  obtain ⟨-, hcarries, hkeeps, -⟩ := adminCreateUserTx_spec hcreate
  refine ⟨⟨hcarries.owners, hcarries.next⟩, ?_⟩
  intro u hu
  obtain ⟨u₁, hu₁, hid₁⟩ := hkeeps u hu
  rw [← hid₁]
  exact modify_ids (by exact fun _ => rfl) hu₁

theorem adminUpdateUser_carries
    (h : adminUpdateUser env db id inp = .ok db') : Carries db db' ∧ KeepsAccounts db db' := by
  simp only [adminUpdateUser, bind_ok] at h
  obtain ⟨-, -, email, -, password, -, existing, -, -, -, -, -, h⟩ := h
  cases h
  exact ⟨⟨List.Sublist.refl _, le_refl _⟩, fun _ hu => modify_ids (by exact fun _ => rfl) hu⟩

theorem deleteUser_carries (h : deleteUser db id = .ok db') :
    Carries db db' ∧ db'.tenants = db.tenants ∧ ∀ u ∈ db.users.rows, u.id ≠ id → u ∈ db'.users.rows := by
  simp only [deleteUser, bind_ok] at h
  obtain ⟨existing, -, -, -, h⟩ := h
  cases h
  refine ⟨⟨List.Sublist.refl _, le_refl _⟩, rfl, ?_⟩
  intro u hu hid
  exact Table.mem_delete.mpr ⟨hu, by simpa using hid⟩

theorem deleteUser_owned (h : deleteUser db id = .ok db')
    (hkeeps : ∀ t ∈ db.tenants.rows, t.managerUserId ≠ id) (hdb : Owned db) : Owned db' := by
  obtain ⟨-, htenants, hstay⟩ := deleteUser_carries h
  intro t ht
  rw [htenants] at ht
  obtain ⟨u, hu, hid⟩ := hdb t ht
  exact ⟨u, hstay u hu (hid ▸ hkeeps t ht), hid⟩

theorem tenantUserDelete_deletes (h : tenantUserDelete db id scope = .ok db') :
    deleteUser db id = .ok db' := by
  simp only [tenantUserDelete, bind_ok] at h
  obtain ⟨-, -, h⟩ := h
  exact h

theorem tenantUserUpdate_updates
    (h : tenantUserUpdate env db id inp scope = .ok db') : adminUpdateUser env db id inp = .ok db' := by
  simp only [tenantUserUpdate, bind_ok] at h
  obtain ⟨-, -, -, -, h⟩ := h
  exact h

theorem managerCreate_sound {inp : CreateManagerInput} {apiKeyPlain : String}
    (h : managerCreate env db inp apiKeyPlain = .ok db') (hsound : Sound db) :
    Sound db' ∧ (Owned db → Owned db') := by
  simp only [managerCreate, bind_ok] at h
  obtain ⟨-, -, -, -, ⟨id, db₁⟩, hcreate, h⟩ := h
  cases h
  obtain ⟨rfl, -, hkeeps, htenants, hnext, u, hu, hid⟩ := adminCreateUserTx_spec hcreate
  refine ⟨⟨?_, ?_⟩, ?_⟩
  · rw [Table.rows_insert, map_append, map_singleton, ← concat_eq_append, htenants]
    refine List.Nodup.concat ?_ hsound.oneEach
    intro hmem
    obtain ⟨t, ht, howner⟩ := mem_map.mp hmem
    exact absurd howner (ne_of_lt (hsound.known t ht))
  · intro t ht
    have hgoal : t.managerUserId < db₁.users.next := by
      rcases Table.mem_insert.mp ht with ht | rfl
      · rw [htenants] at ht
        have hknown := hsound.known t ht
        omega
      · rw [hnext]
        exact Int.lt_add_one_of_le (le_refl _)
    exact hgoal
  · intro howned t ht
    rcases Table.mem_insert.mp ht with ht | rfl
    · rw [htenants] at ht
      obtain ⟨v, hv, hvid⟩ := howned t ht
      obtain ⟨v₁, hv₁, hvid₁⟩ := hkeeps v hv
      rw [← hvid, ← hvid₁]
      exact modify_ids (by exact fun _ => rfl) hv₁
    · rw [← hid]
      exact modify_ids (by exact fun _ => rfl) hu

theorem managerDelete_sound {tenantId : Int} (h : managerDelete db tenantId = .ok db')
    (hsound : Sound db) : Sound db' ∧ (Owned db → Owned db') := by
  simp only [managerDelete, bind_ok, orErr_ok] at h
  obtain ⟨t, ht, h⟩ := h
  cases h
  obtain ⟨ht, hid⟩ := Table.mem_of_find ht
  refine ⟨Carries.sound ⟨filter_sublist.map _, le_refl _⟩ hsound, ?_⟩
  intro howned t' ht'
  obtain ⟨ht', hother⟩ := Table.mem_delete.mp ht'
  obtain ⟨u, hu, huid⟩ := howned t' ht'
  refine ⟨u, Table.mem_delete.mpr ⟨hu, ?_⟩, huid⟩
  have hne : u.id ≠ t.managerUserId := by
    intro he
    have hsame := inj_on_of_nodup_map hsound.oneEach ht' ht (huid.symm.trans he)
    rw [hsame, hid] at hother
    exact absurd hother (by simp)
  simpa using hne

theorem suspend_carries {userId : Int} : Carries db (suspendWorkspaceForUser db userId) ∧
    KeepsAccounts db (suspendWorkspaceForUser db userId) := by
  rw [suspendWorkspaceForUser]
  split
  · exact ⟨⟨List.Sublist.refl _, le_refl _⟩, fun u hu => ⟨u, hu, rfl⟩⟩
  · refine ⟨⟨?_, le_refl _⟩, fun u hu => ⟨u, hu, rfl⟩⟩
    rw [Table.rows_modify, map_map]
    have howners : ∀ t ∈ db.tenants.rows, ((·.managerUserId) ∘ fun t : Workspace =>
        if (t.managerUserId == userId && t.status == .active) = true then
          { t with status := .suspended } else t) t = t.managerUserId := by
      intro t _
      simp only [Function.comp_apply]
      split <;> rfl
    rw [map_congr_left howners]

theorem Repaired.owned {ms : List Int} (h : Repaired ms db db') (hdb : Owned db) : Owned db' := by
  intro t ht
  rcases h.created t ht with hold | howner
  · exact h.ids.mpr (hdb t hold)
  · exact h.ids.mpr howner

theorem ensure_repaired {m : Int} (h : ensureWorkspaceForUser db m = .ok db') : Repaired [m] db db' := by
  obtain ⟨t, hensured⟩ := ensured h
  exact Repaired.nil.cons hensured

theorem reconcile_steps (ms : List Int) (err : Option Accounts.Err) (hsound : Sound db) :
    Sound (ms.foldl reconcileOne (db, err)).1 ∧
      (Owned db → Owned (ms.foldl reconcileOne (db, err)).1) := by
  induction ms generalizing db err with
  | nil => exact ⟨hsound, fun h => h⟩
  | cons m ms ih =>
    rw [foldl_cons, reconcileOne]
    cases hensure : ensureWorkspaceForUser db m with
    | error e => exact ih _ hsound
    | ok db₁ =>
      have hone := ensure_repaired hensure
      obtain ⟨hsound', howned'⟩ := ih err (hone.sound hsound)
      exact ⟨hsound', fun howned => howned' (hone.owned howned)⟩

theorem perform_sound (e : Event) (hsound : Sound db) :
    Sound (perform env db e) ∧ (KeepsOwner db e → Owned db → Owned (perform env db e)) := by
  cases e with
  | suspendWorkspaceForUser userId =>
    obtain ⟨hcarries, hkeeps⟩ := @suspend_carries db userId
    exact ⟨hcarries.sound hsound, fun _ => hcarries.owned hkeeps⟩
  | reconcileWorkspaces =>
    obtain ⟨hsound', howned⟩ := reconcile_steps (managers db) none hsound
    exact ⟨hsound', fun _ => howned⟩
  | call a =>
    rw [perform, Accounts.step]
    cases hcall : call env db a with
    | error e => exact ⟨hsound, fun _ h => h⟩
    | ok db' =>
      cases a with
      | adminCreateUser inp =>
        obtain ⟨hcarries, hkeeps⟩ := adminCreateUser_carries hcall
        exact ⟨hcarries.sound hsound, fun _ => hcarries.owned hkeeps⟩
      | adminUpdateUser id inp =>
        obtain ⟨hcarries, hkeeps⟩ := adminUpdateUser_carries hcall
        exact ⟨hcarries.sound hsound, fun _ => hcarries.owned hkeeps⟩
      | deleteUser id => exact ⟨(deleteUser_carries hcall).1.sound hsound, deleteUser_owned hcall⟩
      | tenantUserCreate inp scope =>
        obtain ⟨hcarries, hkeeps⟩ := tenantUserCreate_carries hcall
        exact ⟨hcarries.sound hsound, fun _ => hcarries.owned hkeeps⟩
      | tenantUserUpdate id inp scope =>
        obtain ⟨hcarries, hkeeps⟩ := adminUpdateUser_carries (tenantUserUpdate_updates hcall)
        exact ⟨hcarries.sound hsound, fun _ => hcarries.owned hkeeps⟩
      | tenantUserDelete id scope =>
        have hdelete := tenantUserDelete_deletes hcall
        exact ⟨(deleteUser_carries hdelete).1.sound hsound, deleteUser_owned hdelete⟩
      | managerCreate inp apiKeyPlain =>
        obtain ⟨hsound', howned⟩ := managerCreate_sound hcall hsound
        exact ⟨hsound', fun _ => howned⟩
      | managerDelete tenantId =>
        obtain ⟨hsound', howned⟩ := managerDelete_sound hcall hsound
        exact ⟨hsound', fun _ => howned⟩
      | ensureWorkspaceForUser userId =>
        have hone := ensure_repaired hcall
        exact ⟨hone.sound hsound, fun _ => hone.owned⟩

theorem events_sound (events : List Event) (hsound : Sound db) :
    Sound (events.foldl (perform env) db) ∧
      (Throughout (perform env) KeepsOwner db events → Owned db → Owned (events.foldl (perform env) db)) := by
  induction events generalizing db with
  | nil => exact ⟨hsound, fun _ h => h⟩
  | cons e events ih =>
    obtain ⟨hsound', howned⟩ := @perform_sound env db e hsound
    obtain ⟨hrest, howned'⟩ := ih hsound'
    exact ⟨hrest, fun hkeeps hdb => howned' hkeeps.2 (howned hkeeps.1 hdb)⟩

theorem Owned.not_headless (h : Owned db) : ¬ Headless db := by
  rintro ⟨t, ht, hnone, -⟩
  obtain ⟨u, hu, hid⟩ := h t ht
  exact hnone u hu hid

theorem workspaces_live_iff (env : Env) (db db' : DB) (events : List Event)
    (hfirst : db.tenants.rows = [])
    (h : reconcileWorkspaces (events.foldl (perform env) db) = (db', none)) :
    (Live db' ↔ ¬ Headless (events.foldl (perform env) db)) ∧
      (Throughout (perform env) KeepsOwner db events → Live db') := by
  have hsound : Sound db := ⟨by simp [hfirst], by simp [hfirst]⟩
  have howned : Owned db := by simp [Owned, hfirst]
  obtain ⟨hsound', howned'⟩ := @events_sound env db events hsound
  have hiff := live_iff hsound' h
  exact ⟨hiff, fun hkeeps => hiff.mpr (howned' hkeeps howned).not_headless⟩

def alphaOpened : List Event :=
  [.call (.managerCreate ⟨"boss", "secret", "", "", "", "alpha", "Alpha"⟩ "key"),
    .call (.tenantUserCreate ⟨"customer", "secret", "", "", "", "member", 0, 0, [], 1⟩ ⟨1, false⟩)]

def bossDeleted : List Event := alphaOpened ++ [.call (.deleteUser 2)]

theorem workspaces_live_iff_opened :
    Live (reconcileWorkspaces (alphaOpened.foldl (perform plainEnv) oneAdmin)).1 :=
  (workspaces_live_iff plainEnv oneAdmin _ alphaOpened rfl
    (Prod.ext rfl (by decide +kernel))).2 ⟨trivial, trivial, trivial⟩

theorem owner_deleted :
    (reconcileWorkspaces (bossDeleted.foldl (perform plainEnv) oneAdmin)).2 = none ∧
      ¬ Live (reconcileWorkspaces (bossDeleted.foldl (perform plainEnv) oneAdmin)).1 := by
  refine ⟨by decide +kernel, ?_⟩
  intro h
  have hlost : (reconcileWorkspaces (bossDeleted.foldl (perform plainEnv) oneAdmin)).1.tenants.rows.any
      (fun t =>
        (reconcileWorkspaces (bossDeleted.foldl (perform plainEnv) oneAdmin)).1.users.rows.any
            (fun u => u.tenantId == t.id) &&
          (reconcileWorkspaces (bossDeleted.foldl (perform plainEnv) oneAdmin)).1.users.rows.all
            fun u => u.id != t.managerUserId) = true := by
    decide +kernel
  obtain ⟨t, ht, hlost⟩ := any_eq_true.mp hlost
  rw [Bool.and_eq_true] at hlost
  obtain ⟨u, hu, htenant⟩ := any_eq_true.mp hlost.1
  obtain ⟨owner, howner, hid⟩ := h.payable t ht ⟨u, hu, by simpa using htenant⟩
  exact absurd hid (by simpa using all_eq_true.mp hlost.2 owner howner)

end running

end Workspaces

end QuiPanel
