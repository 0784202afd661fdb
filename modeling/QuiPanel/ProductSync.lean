import QuiPanel.Model
import QuiPanel.Library.Table
import QuiPanel.Library.Trace
import Mathlib.Data.List.Sort
import Mathlib.Data.List.Dedup

namespace QuiPanel

namespace ProductSync

open Keyed Trace List

inductive AddOutcome
  | done
  | failed (applied : Bool)
  deriving DecidableEq

inductive DelOutcome
  | done
  | clientNotInInbound
  | failed (applied : Bool)
  deriving DecidableEq

structure ClientDraws where
  attach : Nat → Nat → AddOutcome
  detach : Nat → Nat → DelOutcome

structure ClientSyncResult where
  email : String
  ok : Bool
  deriving DecidableEq

structure SyncAudit where
  productId : Int
  clientEmail : String
  inboundIds : List Int
  ok : Bool
  deriving DecidableEq

structure DB where
  products : Table Product Product.id
  orders : List (Int × String)
  records : List String
  links : List (String × Int)

def syncRetryAttempts : Nat := 3

def inboundDiff (oldIds newIds : List Int) : List Int × List Int :=
  ((newIds.filter fun id => !oldIds.contains id).dedup.insertionSort (· ≤ ·),
    (oldIds.filter fun id => !newIds.contains id).dedup.insertionSort (· ≤ ·))

namespace DB

variable (db : DB)

def inboundIdsOf (email : String) : List Int := (db.links.filter (·.1 = email)).map Prod.snd

def link (email : String) (ibId : Int) : DB :=
  if (email, ibId) ∈ db.links then db else { db with links := db.links ++ [(email, ibId)] }

def unlink (email : String) (ibId : Int) : DB := { db with links := db.links.filter (· ≠ (email, ibId)) }

def productClientEmails (productId : Int) : List String :=
  ((db.orders.filter fun o => o.1 = productId && o.2 != "").map Prod.snd).dedup

def driftedEmails (productId : Int) (wantIds : List Int) : List String :=
  (db.productClientEmails productId).filter fun email =>
    db.records.contains email && wantIds.any fun want => !(db.inboundIdsOf email).contains want

end DB

def attach (attached : List Int) (email : String) (out : Nat → AddOutcome) : Nat → DB → List Int → DB × Bool
  | _, db, [] => (db, true)
  | k, db, ibId :: ids =>
    if attached.contains ibId then attach attached email out (k + 1) db ids
    else
      match out k with
      | .done => attach attached email out (k + 1) (db.link email ibId) ids
      | .failed applied => (if applied then db.link email ibId else db, false)

def detach (attached : List Int) (email : String) (out : Nat → DelOutcome) : Nat → DB → List Int → DB × Bool
  | _, db, [] => (db, true)
  | k, db, ibId :: ids =>
    if !attached.contains ibId then detach attached email out (k + 1) db ids
    else
      match out k with
      | .done => detach attached email out (k + 1) (db.unlink email ibId) ids
      | .clientNotInInbound => detach attached email out (k + 1) db ids
      | .failed applied => (if applied then db.unlink email ibId else db, false)

def attachByEmail (db : DB) (email : String) (inboundIds : List Int) (out : Nat → AddOutcome) : DB × Bool :=
  if email = "" ∨ email ∉ db.records then (db, false)
  else attach (db.inboundIdsOf email) email out 0 db inboundIds

def detachByEmailMany (db : DB) (email : String) (inboundIds : List Int) (out : Nat → DelOutcome) :
    DB × Bool :=
  if email = "" ∨ email ∉ db.records then (db, false)
  else detach (db.inboundIdsOf email) email out 0 db inboundIds

def retry (op : Nat → DB → DB × Bool) : Nat → Nat → DB → DB × Bool
  | 0, _, db => (db, false)
  | left + 1, attempt, db =>
    let r := op attempt db
    if r.2 then r else retry op left (attempt + 1) r.1

def withRetry (op : Nat → DB → DB × Bool) (db : DB) : DB × Bool := retry op syncRetryAttempts 0 db

def attachStage (db : DB) (email : String) (add : List Int) (d : ClientDraws) : DB × Bool :=
  if add = [] then (db, true)
  else withRetry (fun attempt db => attachByEmail db email add (d.attach attempt)) db

def detachStage (db : DB) (email : String) (remove : List Int) (d : ClientDraws) : DB × Bool :=
  withRetry (fun attempt db => detachByEmailMany db email remove (d.detach attempt)) db

def reconcileClient (email : String) (add remove : List Int) (d : ClientDraws) (db : DB) :
    DB × ClientSyncResult :=
  let attached := attachStage db email add d
  if remove ≠ [] ∧ attached.2 then
    let detached := detachStage attached.1 email remove d
    (detached.1, ⟨email, detached.2⟩)
  else (attached.1, ⟨email, attached.2⟩)

def reconcileClients (add remove : List Int) (draws : String → ClientDraws) :
    DB × List ClientSyncResult → List String → DB × List ClientSyncResult :=
  List.foldl fun st email =>
    let r := reconcileClient email add remove (draws email) st.1
    (r.1, st.2 ++ [r.2])

def reconcileProductClients (db : DB) (productId : Int) (add remove : List Int)
    (draws : String → ClientDraws) : DB × List ClientSyncResult :=
  if add = [] ∧ remove = [] then (db, [])
  else reconcileClients add remove draws (db, []) (db.productClientEmails productId)

def repairClient (p : Product) (draws : String → Nat → Nat → AddOutcome) (st : DB × List SyncAudit)
    (email : String) : DB × List SyncAudit :=
  let r := withRetry (fun attempt db => attachByEmail db email p.inboundIds (draws email attempt)) st.1
  (r.1, st.2 ++ [⟨p.id, email, p.inboundIds, r.2⟩])

def repairProduct (draws : Int → String → Nat → Nat → AddOutcome) (st : DB × List SyncAudit)
    (p : Product) : DB × List SyncAudit :=
  if p.inboundIds = [] then st
  else (st.1.driftedEmails p.id p.inboundIds).foldl (repairClient p (draws p.id)) st

def activeProducts (db : DB) : List Product := db.products.rows.filter (·.status = .active)

def reconcileAllProducts (db : DB) (draws : Int → String → Nat → Nat → AddOutcome) :
    DB × List SyncAudit :=
  (activeProducts db).foldl (repairProduct draws) (db, [])

structure Sys where
  db : DB
  listed : List (Int × Int)

inductive Event
  | updateProduct (id : Int) (inboundIds : List Int) (status : ProductStatus) (draws : String → ClientDraws)
  | reconcileAllProducts (draws : Int → String → Nat → Nat → AddOutcome)
  | attach (email : String) (inboundIds : List Int) (out : Nat → AddOutcome)
  | detach (email : String) (inboundIds : List Int) (out : Nat → DelOutcome)
  | create (email : String) (landed : List Int)
  | order (productId : Int) (email : String)
  | delete (email : String)

def updateProduct (s : Sys) (id : Int) (inboundIds : List Int) (status : ProductStatus)
    (draws : String → ClientDraws) : Sys :=
  match s.db.products.find id with
  | none => s
  | some old =>
    let diff := inboundDiff old.inboundIds inboundIds
    let products := s.db.products.modify (·.id == id) (fun p => { p with inboundIds, status }) fun _ => rfl
    ⟨(reconcileProductClients { s.db with products } id diff.1 diff.2 draws).1,
      s.listed ++ inboundIds.map fun i => (id, i)⟩

def create (db : DB) (email : String) (landed : List Int) : DB :=
  landed.foldl (fun db i => db.link email i)
    { db with records := if email ∈ db.records then db.records else db.records ++ [email] }

def step (s : Sys) : Event → Sys
  | .updateProduct id inboundIds status draws => updateProduct s id inboundIds status draws
  | .reconcileAllProducts draws => { s with db := (reconcileAllProducts s.db draws).1 }
  | .attach email inboundIds out => { s with db := (attachByEmail s.db email inboundIds out).1 }
  | .detach email inboundIds out => { s with db := (detachByEmailMany s.db email inboundIds out).1 }
  | .create email landed => { s with db := create s.db email landed }
  | .order productId email => { s with db := { s.db with orders := s.db.orders ++ [(productId, email)] } }
  | .delete email =>
    { s with db := { s.db with
      records := s.db.records.filter (· ≠ email)
      links := s.db.links.filter (·.1 ≠ email) } }

def start (products : Table Product Product.id) : Sys :=
  ⟨⟨products, [], [], []⟩, products.rows.flatMap fun p => p.inboundIds.map fun i => (p.id, i)⟩

def Sold (db : DB) (productId : Int) (email : String) : Prop :=
  email ∈ db.productClientEmails productId ∧ email ∈ db.records

def Sys.Dropped (s : Sys) (productId i : Int) : Prop :=
  (productId, i) ∈ s.listed ∧ ∀ p ∈ s.db.products.rows, p.id = productId → i ∉ p.inboundIds

def Event.isSync : Event → Bool
  | .updateProduct .. => true
  | .reconcileAllProducts _ => true
  | _ => false

structure Converges (s : Sys) (e : Event) : Prop where
  attached : e.isSync = true → ∀ email, s.db.inboundIdsOf email ≠ [] → (step s e).db.inboundIdsOf email ≠ []
  manual : e.isSync = true → ∀ email, ∀ i ∈ s.db.inboundIdsOf email, i ∉ (step s e).db.inboundIdsOf email →
    ∃ productId, email ∈ s.db.productClientEmails productId ∧ (productId, i) ∈ s.listed
  converged : ∀ draws, e = .reconcileAllProducts draws →
    (∀ row ∈ (reconcileAllProducts s.db draws).2, row.ok = true) →
      ∀ p ∈ activeProducts s.db, ∀ email, Sold s.db p.id email →
        (∀ i ∈ p.inboundIds, i ∈ (step s e).db.inboundIdsOf email) ∧
          ∀ i, s.Dropped p.id i → i ∉ (step s e).db.inboundIdsOf email

def GoesThrough (d : ClientDraws) : Prop :=
  (∃ attempt < syncRetryAttempts, ∀ k, d.attach attempt k = .done) ∧
    (∃ attempt < syncRetryAttempts, ∀ k, d.detach attempt k = .done) ∧
      ∀ attempt k, d.detach attempt k ≠ .clientNotInInbound

def Clean (s : Sys) : Event → Prop
  | .updateProduct id inboundIds _ draws => ∀ old, s.db.products.find id = some old →
      let diff := inboundDiff old.inboundIds inboundIds
      ∀ email, Sold s.db id email →
        (s.db.inboundIdsOf email ≠ [] → diff.1 ≠ [] ∨ ∃ i ∈ s.db.inboundIdsOf email, i ∉ diff.2) ∧
          ((∃ i ∈ s.db.inboundIdsOf email, i ∈ diff.2) → GoesThrough (draws email)) ∧
            ∀ other, other ≠ id → Sold s.db other email → ∀ i ∈ diff.1, ¬ s.Dropped other i
  | .reconcileAllProducts _ => ∀ p ∈ activeProducts s.db, ∀ email, Sold s.db p.id email →
      ∀ other, Sold s.db other email → ∀ i ∈ p.inboundIds, ¬ s.Dropped other i
  | .attach email inboundIds _ => ∀ p, Sold s.db p email → ∀ i ∈ inboundIds, ¬ s.Dropped p i
  | .create email landed => ∀ p, email ∈ s.db.productClientEmails p → ∀ i ∈ landed, ¬ s.Dropped p i
  | .order productId email => ∀ i ∈ s.db.inboundIdsOf email, ¬ s.Dropped productId i
  | _ => True

section primitives

variable {db db' db'' : DB} {email : String} {ids : List Int} {i : Int} {l : String × Int}

attribute [local grind =] attach detach withRetry attachStage detachStage reconcileClient reconcileClients
  reconcileProductClients repairProduct updateProduct Sys.Dropped

@[simp] theorem mem_inboundIdsOf : i ∈ db.inboundIdsOf email ↔ (email, i) ∈ db.links := by
  simp [DB.inboundIdsOf]

theorem inboundIdsOf_ne_nil : db.inboundIdsOf email ≠ [] ↔ ∃ i, (email, i) ∈ db.links := by
  constructor
  · intro h
    obtain ⟨i, hi⟩ := exists_mem_of_ne_nil _ h
    exact ⟨i, mem_inboundIdsOf.mp hi⟩
  · rintro ⟨i, hi⟩
    exact ne_nil_of_mem (mem_inboundIdsOf.mpr hi)

@[simp] theorem mem_link : l ∈ (db.link email i).links ↔ l ∈ db.links ∨ l = (email, i) := by
  rw [DB.link]
  split
  case isTrue h =>
    constructor
    · exact Or.inl
    · rintro (hl | rfl)
      · exact hl
      · exact h
  case isFalse => simp

@[simp] theorem mem_unlink : l ∈ (db.unlink email i).links ↔ l ∈ db.links ∧ l ≠ (email, i) := by
  simp [DB.unlink]

structure Frame (db db' : DB) : Prop where
  products : db'.products = db.products
  orders : db'.orders = db.orders
  records : db'.records = db.records

theorem Frame.refl (db : DB) : Frame db db := ⟨rfl, rfl, rfl⟩

theorem Frame.trans (h : Frame db db') (h' : Frame db' db'') : Frame db db'' :=
  ⟨h'.products.trans h.products, h'.orders.trans h.orders, h'.records.trans h.records⟩

theorem Frame.link : Frame db (db.link email i) := by
  rw [DB.link]
  split
  · exact Frame.refl db
  · exact ⟨rfl, rfl, rfl⟩

theorem Frame.unlink : Frame db (db.unlink email i) := ⟨rfl, rfl, rfl⟩

theorem Frame.emails (h : Frame db db') (productId : Int) :
    db'.productClientEmails productId = db.productClientEmails productId := by
  rw [DB.productClientEmails, DB.productClientEmails, h.orders]

structure Grown (email : String) (ids : List Int) (db db' : DB) : Prop where
  frame : Frame db db'
  kept : ∀ l ∈ db.links, l ∈ db'.links
  added : ∀ l ∈ db'.links, l ∈ db.links ∨ (l.1 = email ∧ l.2 ∈ ids ∧ email ∈ db.records)

structure Shrunk (email : String) (ids : List Int) (db db' : DB) : Prop where
  frame : Frame db db'
  kept : ∀ l ∈ db'.links, l ∈ db.links
  removed : ∀ l ∈ db.links, l ∈ db'.links ∨ (l.1 = email ∧ l.2 ∈ ids)

theorem Grown.refl (db : DB) : Grown email ids db db := ⟨Frame.refl db, fun _ h => h, fun _ h => Or.inl h⟩

theorem Grown.trans (h : Grown email ids db db') (h' : Grown email ids db' db'') : Grown email ids db db'' := by
  refine ⟨h.frame.trans h'.frame, fun l hl => h'.kept l (h.kept l hl), ?_⟩
  intro l hl
  rcases h'.added l hl with hl | ⟨hemail, hid, hrec⟩
  · exact h.added l hl
  · exact Or.inr ⟨hemail, hid, h.frame.records ▸ hrec⟩

theorem Shrunk.refl (db : DB) : Shrunk email ids db db := ⟨Frame.refl db, fun _ h => h, fun _ h => Or.inl h⟩

theorem Shrunk.trans (h : Shrunk email ids db db') (h' : Shrunk email ids db' db'') :
    Shrunk email ids db db'' := by
  refine ⟨h.frame.trans h'.frame, fun l hl => h.kept l (h'.kept l hl), ?_⟩
  intro l hl
  rcases h.removed l hl with hl | hl
  · exact h'.removed l hl
  · exact Or.inr hl

theorem Grown.link (hrec : email ∈ db.records) (hi : i ∈ ids) : Grown email ids db (db.link email i) := by
  refine ⟨Frame.link, fun l hl => mem_link.mpr (Or.inl hl), ?_⟩
  intro l hl
  rcases mem_link.mp hl with hl | rfl
  · exact Or.inl hl
  · exact Or.inr ⟨rfl, hi, hrec⟩

theorem Shrunk.unlink (hi : i ∈ ids) : Shrunk email ids db (db.unlink email i) := by
  refine ⟨Frame.unlink, fun l hl => (mem_unlink.mp hl).1, ?_⟩
  intro l hl
  by_cases hsame : l = (email, i)
  · exact Or.inr ⟨congrArg Prod.fst hsame, by rw [hsame]; exact hi⟩
  · exact Or.inl (mem_unlink.mpr ⟨hl, hsame⟩)

theorem Grown.mono {ids' : List Int} (h : Grown email ids db db') (hsub : ∀ i ∈ ids, i ∈ ids') :
    Grown email ids' db db' := by
  refine ⟨h.frame, h.kept, ?_⟩
  intro l hl
  rcases h.added l hl with hl | ⟨hemail, hid, hrec⟩
  · exact Or.inl hl
  · exact Or.inr ⟨hemail, hsub _ hid, hrec⟩

theorem Shrunk.mono {ids' : List Int} (h : Shrunk email ids db db') (hsub : ∀ i ∈ ids, i ∈ ids') :
    Shrunk email ids' db db' := by
  refine ⟨h.frame, h.kept, ?_⟩
  intro l hl
  rcases h.removed l hl with hl | ⟨hemail, hid⟩
  · exact Or.inl hl
  · exact Or.inr ⟨hemail, hsub _ hid⟩

variable {attached : List Int} {out : Nat → AddOutcome}

variable {k : Nat}

theorem attach_grown (hrec : email ∈ db.records) :
    Grown email ids db (attach attached email out k db ids).1 := by
  induction ids generalizing k db with
  | nil => exact Grown.refl db
  | cons ibId ids ih =>
    have hcons : ∀ i ∈ ids, i ∈ ibId :: ids := fun i hi => mem_cons_of_mem _ hi
    have hlink : Grown email (ibId :: ids) db (db.link email ibId) := Grown.link hrec mem_cons_self
    rw [attach]
    split
    · exact (ih hrec).mono hcons
    · split
      · exact hlink.trans ((ih (hlink.frame.records ▸ hrec)).mono hcons)
      · split
        · exact hlink
        · exact Grown.refl db

theorem attach_linked (hrec : email ∈ db.records)
    (h : (attach attached email out k db ids).2 = true) :
    ∀ i ∈ ids, i ∈ attached ∨ (email, i) ∈ (attach attached email out k db ids).1.links := by
  induction ids generalizing k db with
  | nil => exact fun i hi => absurd hi not_mem_nil
  | cons ibId ids ih =>
    have hrec' : email ∈ (db.link email ibId).records := by
      rw [Frame.link.records]
      exact hrec
    rw [attach] at h ⊢
    intro i hi
    split at h
    case isTrue hhave =>
      rw [if_pos hhave]
      rcases mem_cons.mp hi with rfl | hi
      · exact Or.inl (contains_iff_mem.mp hhave)
      · exact ih hrec h i hi
    case isFalse hhave =>
      rw [if_neg hhave]
      split at h
      case h_1 =>
        rcases mem_cons.mp hi with rfl | hi
        · exact Or.inr ((attach_grown hrec').kept _ (mem_link.mpr (Or.inr rfl)))
        · exact ih hrec' h i hi
      case h_2 => cases h

theorem attach_through
    (h : ∀ k, out k = .done) : (attach attached email out k db ids).2 = true := by
  induction ids generalizing k db with
  | nil => rfl
  | cons ibId ids ih =>
    rw [attach, h k]
    split
    · exact ih
    · exact ih

theorem detach_shrunk {out : Nat → DelOutcome} :
    Shrunk email ids db (detach attached email out k db ids).1 := by
  induction ids generalizing k db with
  | nil => exact Shrunk.refl db
  | cons ibId ids ih =>
    have hcons : ∀ i ∈ ids, i ∈ ibId :: ids := fun i hi => mem_cons_of_mem _ hi
    have hunlink : Shrunk email (ibId :: ids) db (db.unlink email ibId) := Shrunk.unlink mem_cons_self
    rw [detach]
    split
    · exact ih.mono hcons
    · split
      · exact hunlink.trans (ih.mono hcons)
      · exact ih.mono hcons
      · split
        · exact hunlink
        · exact Shrunk.refl db

theorem detach_unlinked {out : Nat → DelOutcome}
    (hfound : ∀ k, out k ≠ .clientNotInInbound) (hattached : ∀ i, (email, i) ∈ db.links → i ∈ attached)
    (h : (detach attached email out k db ids).2 = true) :
    ∀ i ∈ ids, (email, i) ∉ (detach attached email out k db ids).1.links := by
  induction ids generalizing k db with
  | nil => exact fun i hi => absurd hi not_mem_nil
  | cons ibId ids ih =>
    have hattached' : ∀ i, (email, i) ∈ (db.unlink email ibId).links → i ∈ attached := fun i hi =>
      hattached i (mem_unlink.mp hi).1
    rw [detach] at h ⊢
    intro i hi
    split at h
    case isTrue hhave =>
      rw [if_pos hhave]
      rcases mem_cons.mp hi with rfl | hi
      · intro hmem
        have hin := hattached i (detach_shrunk.kept _ hmem)
        simp [hin] at hhave
      · exact ih hattached h i hi
    case isFalse hhave =>
      rw [if_neg hhave]
      split at h
      case h_1 =>
        rcases mem_cons.mp hi with rfl | hi
        · intro hmem
          exact (mem_unlink.mp (detach_shrunk.kept _ hmem)).2 rfl
        · exact ih hattached' h i hi
      case h_2 habsent => exact absurd habsent (hfound k)
      case h_3 => cases h

theorem detach_through {out : Nat → DelOutcome}
    (h : ∀ k, out k = .done) : (detach attached email out k db ids).2 = true := by
  induction ids generalizing k db with
  | nil => rfl
  | cons ibId ids ih =>
    rw [detach, h k]
    split
    · exact ih
    · exact ih

theorem attachByEmail_grown :
    Grown email ids db (attachByEmail db email ids out).1 := by
  rw [attachByEmail]
  split
  case isTrue => exact Grown.refl db
  case isFalse h => exact attach_grown (not_not.mp (not_or.mp h).2)

theorem attachByEmail_linked (h : (attachByEmail db email ids out).2 = true) :
    ∀ i ∈ ids, (email, i) ∈ (attachByEmail db email ids out).1.links := by
  have hgrown := @attachByEmail_grown db email ids out
  rw [attachByEmail] at h hgrown ⊢
  split at h
  case isTrue => cases h
  case isFalse hrec =>
    rw [if_neg hrec] at hgrown ⊢
    intro i hi
    rcases attach_linked (not_not.mp (not_or.mp hrec).2) h i hi with hold | hnew
    · exact hgrown.kept _ (mem_inboundIdsOf.mp hold)
    · exact hnew

theorem detachByEmailMany_shrunk {out : Nat → DelOutcome} :
    Shrunk email ids db (detachByEmailMany db email ids out).1 := by
  rw [detachByEmailMany]
  split
  · exact Shrunk.refl db
  · exact detach_shrunk

theorem detachByEmailMany_unlinked {out : Nat → DelOutcome} (hfound : ∀ k, out k ≠ .clientNotInInbound)
    (h : (detachByEmailMany db email ids out).2 = true) :
    ∀ i ∈ ids, (email, i) ∉ (detachByEmailMany db email ids out).1.links := by
  rw [detachByEmailMany] at h ⊢
  split at h
  case isTrue => cases h
  case isFalse hrec =>
    rw [if_neg hrec]
    exact detach_unlinked hfound (fun i hi => mem_inboundIdsOf.mpr hi) h

end primitives

section retries

variable {op : Nat → DB → DB × Bool} {R : DB → DB → Prop} {P : DB → Prop} {db : DB} {left attempt : Nat}

theorem retry_keeps (hrefl : ∀ db, R db db) (htrans : ∀ {db db' db''}, R db db' → R db' db'' → R db db'')
    (hop : ∀ attempt db, R db (op attempt db).1) : R db (retry op left attempt db).1 := by
  induction left generalizing attempt db with
  | zero => exact hrefl db
  | succ left ih =>
    rw [retry]
    split
    · exact hop attempt db
    · exact htrans (hop attempt db) ih

theorem retry_ok (h : (retry op left attempt db).2 = true) :
    ∃ last db', (op last db').2 = true ∧ (retry op left attempt db).1 = (op last db').1 := by
  induction left generalizing attempt db with
  | zero => cases h
  | succ left ih =>
    simp only [retry] at h ⊢
    split at h
    case isTrue hok =>
      rw [if_pos hok]
      exact ⟨attempt, db, hok, rfl⟩
    case isFalse hfail =>
      rw [if_neg hfail]
      exact ih h

theorem retry_through {good : Nat} (hlow : attempt ≤ good) (hhigh : good < attempt + left)
    (hP : ∀ attempt db, P db → P (op attempt db).1) (hgood : ∀ db, P db → (op good db).2 = true)
    (hdb : P db) : (retry op left attempt db).2 = true := by
  induction left generalizing attempt db with
  | zero => omega
  | succ left ih =>
    rw [retry]
    split
    case isTrue hok => exact hok
    case isFalse hfail =>
      have hne : attempt ≠ good := by
        rintro rfl
        exact hfail (hgood db hdb)
      exact ih (by omega) (by omega) (hP attempt db hdb)

end retries

section client

variable {db db' : DB} {email : String} {add remove : List Int} {d : ClientDraws}

theorem reconcileClient_eq : (reconcileClient email add remove d db).1 =
    if remove ≠ [] ∧ (attachStage db email add d).2 = true then
      (detachStage (attachStage db email add d).1 email remove d).1
    else (attachStage db email add d).1 := by
  rw [reconcileClient]
  split <;> rfl

theorem attachStage_grown : Grown email add db (attachStage db email add d).1 := by
  rw [attachStage]
  split
  · exact Grown.refl db
  · exact retry_keeps Grown.refl Grown.trans fun _ _ => attachByEmail_grown

theorem detachStage_shrunk : Shrunk email remove db (detachStage db email remove d).1 :=
  retry_keeps Shrunk.refl Shrunk.trans fun _ _ => detachByEmailMany_shrunk

theorem attachStage_linked (h : (attachStage db email add d).2 = true) :
    ∀ i ∈ add, (email, i) ∈ (attachStage db email add d).1.links := by
  rw [attachStage] at h ⊢
  split at h
  case isTrue hnil =>
    intro i hi
    rw [hnil] at hi
    exact absurd hi not_mem_nil
  case isFalse hadd =>
    rw [if_neg hadd]
    obtain ⟨attempt, db₁, hok, heq⟩ := retry_ok h
    intro i hi
    rw [withRetry, heq]
    exact attachByEmail_linked hok i hi

def Present (email : String) (db : DB) : Prop := email ≠ "" ∧ email ∈ db.records

theorem attachStage_through (hpresent : Present email db) (h : GoesThrough d) :
    (attachStage db email add d).2 = true := by
  rw [attachStage]
  split
  · rfl
  · obtain ⟨good, hlt, hdone⟩ := h.1
    refine retry_through (P := Present email) (Nat.zero_le good) (by omega) ?_ ?_ hpresent
    · intro attempt db hdb
      have hgrown := @attachByEmail_grown db email add (d.attach attempt)
      exact ⟨hdb.1, hgrown.frame.records ▸ hdb.2⟩
    · intro db hdb
      simp only [attachByEmail, hdb.1, hdb.2, not_true, or_self, if_false]
      exact attach_through hdone

theorem detachStage_unlinked (hpresent : Present email db) (h : GoesThrough d) :
    ∀ i ∈ remove, (email, i) ∉ (detachStage db email remove d).1.links := by
  obtain ⟨good, hlt, hdone⟩ := h.2.1
  have hok : (detachStage db email remove d).2 = true := by
    refine retry_through (P := Present email) (Nat.zero_le good) (by omega) ?_ ?_ hpresent
    · intro attempt db hdb
      have hshrunk := @detachByEmailMany_shrunk db email remove (d.detach attempt)
      exact ⟨hdb.1, hshrunk.frame.records ▸ hdb.2⟩
    · intro db hdb
      simp only [detachByEmailMany, hdb.1, hdb.2, not_true, or_self, if_false]
      exact detach_through hdone
  obtain ⟨attempt, db₁, hok', heq⟩ := retry_ok hok
  intro i hi
  rw [detachStage, withRetry, heq]
  exact detachByEmailMany_unlinked (h.2.2 attempt) hok' i hi

theorem reconcileClient_changes : ∃ mid, Grown email add db mid ∧
    Shrunk email remove mid (reconcileClient email add remove d db).1 := by
  refine ⟨_, attachStage_grown (d := d), ?_⟩
  rw [reconcileClient_eq]
  split
  · exact detachStage_shrunk
  · exact Shrunk.refl _

theorem reconcileClient_detached (hpresent : Present email db) (h : GoesThrough d) :
    ∀ i ∈ remove, (email, i) ∉ (reconcileClient email add remove d db).1.links := by
  intro i hi
  have hne : remove ≠ [] := ne_nil_of_mem hi
  rw [reconcileClient_eq, if_pos ⟨hne, attachStage_through hpresent h⟩]
  refine detachStage_unlinked ⟨hpresent.1, ?_⟩ h i hi
  rw [attachStage_grown.frame.records]
  exact hpresent.2

theorem reconcileClient_attached (hdisjoint : ∀ i ∈ add, i ∉ remove) (hbefore : ∃ i, (email, i) ∈ db.links)
    (hsafe : add ≠ [] ∨ ∃ i, (email, i) ∈ db.links ∧ i ∉ remove) :
    ∃ i, (email, i) ∈ (reconcileClient email add remove d db).1.links := by
  have hgrown := @attachStage_grown db email add d
  rw [reconcileClient_eq]
  split
  case isFalse =>
    obtain ⟨i, hi⟩ := hbefore
    exact ⟨i, hgrown.kept _ hi⟩
  case isTrue hstage =>
    have hstay : ∃ i, (email, i) ∈ (attachStage db email add d).1.links ∧ i ∉ remove := by
      rcases hsafe with hadd | ⟨i, hi, hnot⟩
      · obtain ⟨i, hi⟩ := exists_mem_of_ne_nil _ hadd
        exact ⟨i, attachStage_linked hstage.2 i hi, hdisjoint i hi⟩
      · exact ⟨i, hgrown.kept _ hi, hnot⟩
    obtain ⟨i, hi, hnot⟩ := hstay
    refine ⟨i, ?_⟩
    rcases detachStage_shrunk.removed _ hi with hi | ⟨-, hmem⟩
    · exact hi
    · exact absurd hmem hnot

end client

section product

variable {db db' : DB} {email other : String} {add remove : List Int} {draws : String → ClientDraws}
variable {results : List ClientSyncResult} {emails : List String} {productId : Int}

theorem mem_diff_add {oldIds newIds : List Int} {i : Int} :
    i ∈ (inboundDiff oldIds newIds).1 ↔ i ∈ newIds ∧ i ∉ oldIds := by
  simp [inboundDiff, mem_insertionSort, mem_dedup]

theorem mem_diff_remove {oldIds newIds : List Int} {i : Int} :
    i ∈ (inboundDiff oldIds newIds).2 ↔ i ∈ oldIds ∧ i ∉ newIds := by
  simp [inboundDiff, mem_insertionSort, mem_dedup]

def SameLinks (email : String) (db db' : DB) : Prop := ∀ i, (email, i) ∈ db'.links ↔ (email, i) ∈ db.links

theorem Grown.elsewhere {ids : List Int} (h : Grown email ids db db') (hne : other ≠ email) :
    SameLinks other db db' := by
  intro i
  constructor
  · intro hi
    rcases h.added _ hi with hi | ⟨hemail, -⟩
    · exact hi
    · exact absurd hemail hne
  · exact h.kept _

theorem Shrunk.elsewhere {ids : List Int} (h : Shrunk email ids db db') (hne : other ≠ email) :
    SameLinks other db db' := by
  intro i
  constructor
  · exact h.kept _
  · intro hi
    rcases h.removed _ hi with hi | ⟨hemail, -⟩
    · exact hi
    · exact absurd hemail hne

theorem SameLinks.trans {db'' : DB} (h : SameLinks email db db') (h' : SameLinks email db' db'') :
    SameLinks email db db'' :=
  fun i => (h' i).trans (h i)

theorem reconcileClient_frame {d : ClientDraws} :
    Frame db (reconcileClient email add remove d db).1 ∧
      (other ≠ email → SameLinks other db (reconcileClient email add remove d db).1) := by
  obtain ⟨mid, hgrown, hshrunk⟩ := @reconcileClient_changes db email add remove d
  exact ⟨hgrown.frame.trans hshrunk.frame, fun hne => (hgrown.elsewhere hne).trans (hshrunk.elsewhere hne)⟩

theorem reconcileClients_frame : Frame db (reconcileClients add remove draws (db, results) emails).1 ∧
    (email ∉ emails → SameLinks email db (reconcileClients add remove draws (db, results) emails).1) := by
  induction emails generalizing db results with
  | nil => exact ⟨Frame.refl db, fun _ _ => Iff.rfl⟩
  | cons e emails ih =>
    obtain ⟨hframe, hother⟩ := @reconcileClient_frame db e email add remove (draws e)
    obtain ⟨hframe', hother'⟩ := @ih (reconcileClient e add remove (draws e) db).1
      (results ++ [(reconcileClient e add remove (draws e) db).2])
    refine ⟨hframe.trans hframe', ?_⟩
    intro hnot
    rw [mem_cons, not_or] at hnot
    exact (hother hnot.1).trans (hother' hnot.2)

theorem reconcileClients_client (hnodup : emails.Nodup) (h : email ∈ emails) :
    ∃ db₁, Frame db db₁ ∧ SameLinks email db db₁ ∧
      SameLinks email (reconcileClient email add remove (draws email) db₁).1
        (reconcileClients add remove draws (db, results) emails).1 := by
  obtain ⟨before, after, rfl⟩ := append_of_mem h
  rw [nodup_append, nodup_cons] at hnodup
  have hbefore : email ∉ before := fun hmem => hnodup.2.2 _ hmem _ mem_cons_self rfl
  obtain ⟨hframe, hsame⟩ := @reconcileClients_frame db email add remove draws results before
  refine ⟨_, hframe, hsame hbefore, ?_⟩
  rw [reconcileClients, foldl_append, foldl_cons]
  exact reconcileClients_frame.2 hnodup.2.1.1

structure Synced (add remove : List Int) (draws : String → ClientDraws) (email : String) (db db' : DB) :
    Prop where
  added : ∀ i, (email, i) ∈ db'.links → (email, i) ∈ db.links ∨ (i ∈ add ∧ email ∈ db.records)
  removed : ∀ i, (email, i) ∈ db.links → (email, i) ∈ db'.links ∨ i ∈ remove
  attached : (∀ i ∈ add, i ∉ remove) → (∃ i, (email, i) ∈ db.links) →
    (add ≠ [] ∨ ∃ i, (email, i) ∈ db.links ∧ i ∉ remove) → ∃ i, (email, i) ∈ db'.links
  detached : Present email db → GoesThrough (draws email) → ∀ i ∈ remove, (email, i) ∉ db'.links

theorem reconcileProductClients_frame : Frame db (reconcileProductClients db productId add remove draws).1 ∧
    (email ∉ db.productClientEmails productId →
      SameLinks email db (reconcileProductClients db productId add remove draws).1) := by
  rw [reconcileProductClients]
  split
  · exact ⟨Frame.refl db, fun _ _ => Iff.rfl⟩
  · exact reconcileClients_frame

theorem reconcileProductClients_synced (h : email ∈ db.productClientEmails productId) :
    Synced add remove draws email db (reconcileProductClients db productId add remove draws).1 := by
  rw [reconcileProductClients]
  split
  case isTrue hnone =>
    obtain ⟨rfl, rfl⟩ := hnone
    exact ⟨fun _ hi => Or.inl hi, fun _ hi => Or.inl hi, fun _ hbefore _ => hbefore,
      fun _ _ _ hi => absurd hi not_mem_nil⟩
  case isFalse =>
    obtain ⟨db₁, hframe, hsame, hfinal⟩ := @reconcileClients_client db email add remove draws []
      (db.productClientEmails productId) (nodup_dedup _) h
    obtain ⟨mid, hgrown, hshrunk⟩ := @reconcileClient_changes db₁ email add remove (draws email)
    refine ⟨?_, ?_, ?_, ?_⟩
    · intro i hi
      rcases hgrown.added _ (hshrunk.kept _ ((hfinal i).mp hi)) with hi | ⟨-, hadd, hrec⟩
      · exact Or.inl ((hsame i).mp hi)
      · exact Or.inr ⟨hadd, hframe.records ▸ hrec⟩
    · intro i hi
      rcases hshrunk.removed _ (hgrown.kept _ ((hsame i).mpr hi)) with hi | ⟨-, hremove⟩
      · exact Or.inl ((hfinal i).mpr hi)
      · exact Or.inr hremove
    · rintro hdisjoint ⟨i, hi⟩ hsafe
      have hsafe₁ : add ≠ [] ∨ ∃ i, (email, i) ∈ db₁.links ∧ i ∉ remove :=
        hsafe.imp_right fun ⟨i, hi, hnot⟩ => ⟨i, (hsame i).mpr hi, hnot⟩
      obtain ⟨j, hj⟩ := @reconcileClient_attached db₁ email add remove (draws email) hdisjoint
        ⟨i, (hsame i).mpr hi⟩ hsafe₁
      exact ⟨j, (hfinal j).mpr hj⟩
    · intro hpresent hthrough i hi hmem
      have hpresent₁ : Present email db₁ := ⟨hpresent.1, hframe.records ▸ hpresent.2⟩
      exact reconcileClient_detached hpresent₁ hthrough i hi ((hfinal i).mp hmem)

end product

section repair

variable {db db' db'' : DB} {rows : List SyncAudit} {p : Product} {st : DB × List SyncAudit}

structure Spread (reach : String → Int → Prop) (db db' : DB) : Prop where
  frame : Frame db db'
  kept : ∀ l ∈ db.links, l ∈ db'.links
  added : ∀ l ∈ db'.links, l ∈ db.links ∨ (l.1 ∈ db.records ∧ reach l.1 l.2)

theorem Spread.refl {reach : String → Int → Prop} (db : DB) : Spread reach db db :=
  ⟨Frame.refl db, fun _ h => h, fun _ h => Or.inl h⟩

variable {reach reach' : String → Int → Prop}

theorem Spread.trans (h : Spread reach db db')
    (h' : Spread reach' db' db'') : Spread (fun e i => reach e i ∨ reach' e i) db db'' := by
  refine ⟨h.frame.trans h'.frame, fun l hl => h'.kept l (h.kept l hl), ?_⟩
  intro l hl
  rcases h'.added l hl with hl | ⟨hrec, hreach⟩
  · rcases h.added l hl with hl | ⟨hrec, hreach⟩
    · exact Or.inl hl
    · exact Or.inr ⟨hrec, Or.inl hreach⟩
  · exact Or.inr ⟨h.frame.records ▸ hrec, Or.inr hreach⟩

theorem Spread.mono (h : Spread reach db db')
    (hsub : ∀ e i, reach e i → reach' e i) : Spread reach' db db' := by
  refine ⟨h.frame, h.kept, ?_⟩
  intro l hl
  exact (h.added l hl).imp_right fun ⟨hrec, hreach⟩ => ⟨hrec, hsub _ _ hreach⟩

variable {draws : String → Nat → Nat → AddOutcome}

variable {email : String}

theorem repairClient_spread :
    Spread (fun e i => e = email ∧ i ∈ p.inboundIds) st.1 (repairClient p draws st email).1 := by
  have hgrown : Grown email p.inboundIds st.1 (repairClient p draws st email).1 :=
    retry_keeps Grown.refl Grown.trans fun _ _ => attachByEmail_grown
  refine ⟨hgrown.frame, hgrown.kept, ?_⟩
  intro l hl
  rcases hgrown.added l hl with hl | ⟨rfl, hid, hrec⟩
  · exact Or.inl hl
  · exact Or.inr ⟨hrec, rfl, hid⟩

theorem repairClient_linked
    (h : ∀ row ∈ (repairClient p draws st email).2, row.ok = true) :
    ∀ i ∈ p.inboundIds, (email, i) ∈ (repairClient p draws st email).1.links := by
  have hok := h _ (mem_append.mpr (Or.inr (mem_singleton_self _)))
  obtain ⟨last, db', hlast, heq⟩ := retry_ok hok
  intro i hi
  have hmem := attachByEmail_linked hlast i hi
  rw [← heq] at hmem
  exact hmem

theorem repairClients (emails : List String) :
    Spread (fun e i => e ∈ emails ∧ i ∈ p.inboundIds) st.1 (emails.foldl (repairClient p draws) st).1 ∧
      (∀ row ∈ st.2, row ∈ (emails.foldl (repairClient p draws) st).2) ∧
      ((∀ row ∈ (emails.foldl (repairClient p draws) st).2, row.ok = true) →
        ∀ email ∈ emails, ∀ i ∈ p.inboundIds,
          (email, i) ∈ (emails.foldl (repairClient p draws) st).1.links) := by
  induction emails generalizing st with
  | nil => exact ⟨Spread.refl _, fun _ h => h, fun _ email h => absurd h not_mem_nil⟩
  | cons e emails ih =>
    obtain ⟨hspread, hrows, hlinked⟩ := @ih (repairClient p draws st e)
    have hfirst := @repairClient_spread p st draws e
    refine ⟨(hfirst.trans hspread).mono ?_, ?_, ?_⟩
    · rintro e' i (⟨rfl, hi⟩ | ⟨he', hi⟩)
      · exact ⟨mem_cons_self, hi⟩
      · exact ⟨mem_cons_of_mem _ he', hi⟩
    · exact fun row hrow => hrows row (mem_append.mpr (Or.inl hrow))
    · intro hok email hemail i hi
      rcases mem_cons.mp hemail with rfl | hemail
      · exact hspread.kept _ (repairClient_linked (fun row hrow => hok row (hrows row hrow)) i hi)
      · exact hlinked hok email hemail i hi

theorem mem_driftedEmails {productId : Int} {ids : List Int} :
    email ∈ db.driftedEmails productId ids ↔ Sold db productId email ∧ ∃ i ∈ ids, (email, i) ∉ db.links := by
  simp [DB.driftedEmails, Sold, and_assoc]

variable {draws : Int → String → Nat → Nat → AddOutcome}

theorem repairProduct_spread :
    Spread (fun e i => Sold st.1 p.id e ∧ i ∈ p.inboundIds) st.1 (repairProduct draws st p).1 ∧
      (∀ row ∈ st.2, row ∈ (repairProduct draws st p).2) ∧
      ((∀ row ∈ (repairProduct draws st p).2, row.ok = true) →
        ∀ email, Sold st.1 p.id email → ∀ i ∈ p.inboundIds, (email, i) ∈ (repairProduct draws st p).1.links) := by
  rw [repairProduct]
  split
  case isTrue hnil =>
    refine ⟨Spread.refl _, fun _ h => h, ?_⟩
    intro _ email _ i hi
    rw [hnil] at hi
    exact absurd hi not_mem_nil
  case isFalse =>
    obtain ⟨hspread, hrows, hlinked⟩ := @repairClients p st (draws p.id)
      (st.1.driftedEmails p.id p.inboundIds)
    refine ⟨hspread.mono fun e i h => ⟨(mem_driftedEmails.mp h.1).1, h.2⟩, hrows, ?_⟩
    intro hok email hsold i hi
    by_cases hdrifted : email ∈ st.1.driftedEmails p.id p.inboundIds
    · exact hlinked hok email hdrifted i hi
    · have hmem : (email, i) ∈ st.1.links := by
        by_contra hnot
        exact hdrifted (mem_driftedEmails.mpr ⟨hsold, i, hi, hnot⟩)
      exact hspread.kept _ hmem

theorem Frame.sold (h : Frame db db') {productId : Int} :
    Sold db' productId email ↔ Sold db productId email := by
  rw [Sold, Sold, h.emails, h.records]

theorem repairProducts (products : List Product) :
    Spread (fun e i => ∃ p ∈ products, Sold st.1 p.id e ∧ i ∈ p.inboundIds) st.1
        (products.foldl (repairProduct draws) st).1 ∧
      (∀ row ∈ st.2, row ∈ (products.foldl (repairProduct draws) st).2) ∧
      ((∀ row ∈ (products.foldl (repairProduct draws) st).2, row.ok = true) →
        ∀ p ∈ products, ∀ email, Sold st.1 p.id email → ∀ i ∈ p.inboundIds,
          (email, i) ∈ (products.foldl (repairProduct draws) st).1.links) := by
  induction products generalizing st with
  | nil => exact ⟨Spread.refl _, fun _ h => h, fun _ p h => absurd h not_mem_nil⟩
  | cons q products ih =>
    obtain ⟨hspread, hrows, hlinked⟩ := @ih (repairProduct draws st q)
    obtain ⟨hfirst, hfirstRows, hfirstLinked⟩ := @repairProduct_spread q st draws
    refine ⟨(hfirst.trans hspread).mono ?_, fun row hrow => hrows row (hfirstRows row hrow), ?_⟩
    · rintro e i (⟨hsold, hi⟩ | ⟨p, hp, hsold, hi⟩)
      · exact ⟨q, mem_cons_self, hsold, hi⟩
      · exact ⟨p, mem_cons_of_mem _ hp, hfirst.frame.sold.mp hsold, hi⟩
    · intro hok p hp email hsold i hi
      rcases mem_cons.mp hp with rfl | hp
      · exact hspread.kept _ (hfirstLinked (fun row hrow => hok row (hrows row hrow)) email hsold i hi)
      · exact hlinked hok p hp email (hfirst.frame.sold.mpr hsold) i hi

end repair

section runs

variable {s : Sys} {db : DB} {email : String} {productId : Int}

structure Settled (s : Sys) : Prop where
  current : ∀ p ∈ s.db.products.rows, ∀ i ∈ p.inboundIds, (p.id, i) ∈ s.listed
  clear : ∀ productId email, email ∈ s.db.productClientEmails productId → ∀ i, (email, i) ∈ s.db.links →
    ¬ s.Dropped productId i
  recorded : ∀ email i, (email, i) ∈ s.db.links → email ∈ s.db.records

theorem mem_productClientEmails : email ∈ db.productClientEmails productId ↔
    (productId, email) ∈ db.orders ∧ email ≠ "" := by
  simp [DB.productClientEmails]

theorem Sold.present (h : Sold db productId email) : Present email db :=
  ⟨(mem_productClientEmails.mp h.1).2, h.2⟩

theorem Settled.links (h : Settled s) {db' : DB} (hproducts : db'.products = s.db.products)
    (horders : db'.orders = s.db.orders)
    (hrecorded : ∀ email i, (email, i) ∈ db'.links → email ∈ db'.records)
    (hlinks : ∀ email i, (email, i) ∈ db'.links → (email, i) ∈ s.db.links ∨
      ∀ productId, email ∈ s.db.productClientEmails productId → ¬ s.Dropped productId i) :
    Settled { s with db := db' } := by
  have hdropped : ∀ productId i, Sys.Dropped { s with db := db' } productId i ↔ s.Dropped productId i := by
    intro productId i
    simp only [Sys.Dropped, hproducts]
  refine ⟨?_, ?_, hrecorded⟩
  · rw [hproducts]
    exact h.current
  · intro productId email hsold i hi
    rw [mem_productClientEmails, horders, ← mem_productClientEmails] at hsold
    rw [hdropped]
    rcases hlinks email i hi with hi | hnew
    · exact h.clear productId email hsold i hi
    · exact hnew productId hsold

theorem attach_settled {ids : List Int} {out : Nat → AddOutcome} (h : Settled s)
    (hclean : ∀ p, Sold s.db p email → ∀ i ∈ ids, ¬ s.Dropped p i) :
    Settled { s with db := (attachByEmail s.db email ids out).1 } := by
  have hgrown := @attachByEmail_grown s.db email ids out
  refine h.links hgrown.frame.products hgrown.frame.orders ?_ ?_
  · intro e i hi
    rw [hgrown.frame.records]
    rcases hgrown.added _ hi with hi | ⟨rfl, -, hrec⟩
    · exact h.recorded e i hi
    · exact hrec
  · intro e i hi
    rcases hgrown.added _ hi with hi | ⟨rfl, hid, hrec⟩
    · exact Or.inl hi
    · exact Or.inr fun p hemail => hclean p ⟨hemail, hrec⟩ i hid

theorem detach_settled {ids : List Int} {out : Nat → DelOutcome} (h : Settled s) :
    Settled { s with db := (detachByEmailMany s.db email ids out).1 } := by
  have hshrunk := @detachByEmailMany_shrunk s.db email ids out
  refine h.links hshrunk.frame.products hshrunk.frame.orders ?_ fun e i hi => Or.inl (hshrunk.kept _ hi)
  intro e i hi
  rw [hshrunk.frame.records]
  exact h.recorded e i (hshrunk.kept _ hi)

theorem landed_links (landed : List Int) {l : String × Int} :
    (l ∈ (landed.foldl (fun db i => db.link email i) db).links ↔
        l ∈ db.links ∨ (l.1 = email ∧ l.2 ∈ landed)) ∧
      Frame db (landed.foldl (fun db i => db.link email i) db) := by
  induction landed generalizing db with
  | nil => exact ⟨by simp, Frame.refl db⟩
  | cons i landed ih =>
    obtain ⟨hmem, hframe⟩ := @ih (db.link email i)
    refine ⟨?_, Frame.link.trans hframe⟩
    rw [foldl_cons, hmem, mem_link, mem_cons, or_assoc, Prod.ext_iff, ← and_or_left]

theorem create_settled {landed : List Int} (h : Settled s)
    (hclean : ∀ p, email ∈ s.db.productClientEmails p → ∀ i ∈ landed, ¬ s.Dropped p i) :
    Settled { s with db := create s.db email landed } := by
  have hlinks : ∀ e i, (e, i) ∈ (create s.db email landed).links →
      (e, i) ∈ s.db.links ∨ (e = email ∧ i ∈ landed) := fun e i hi =>
    (@landed_links { s.db with
      records := if email ∈ s.db.records then s.db.records else s.db.records ++ [email] } email landed
      (e, i)).1.mp hi
  have hframe := (@landed_links { s.db with
    records := if email ∈ s.db.records then s.db.records else s.db.records ++ [email] } email landed
    ("", 0)).2
  have hrecords : ∀ e, (e ∈ s.db.records ∨ e = email) → e ∈ (create s.db email landed).records := by
    intro e he
    have heq : (create s.db email landed).records =
        if email ∈ s.db.records then s.db.records else s.db.records ++ [email] := hframe.records
    rw [heq]
    split
    case isTrue hmem =>
      rcases he with he | rfl
      · exact he
      · exact hmem
    case isFalse => simpa using he
  refine h.links hframe.products hframe.orders ?_ ?_
  · intro e i hi
    rcases hlinks e i hi with hi | ⟨rfl, -⟩
    · exact hrecords e (Or.inl (h.recorded e i hi))
    · exact hrecords e (Or.inr rfl)
  · intro e i hi
    rcases hlinks e i hi with hi | ⟨rfl, hid⟩
    · exact Or.inl hi
    · exact Or.inr fun p hemail => hclean p hemail i hid

theorem order_settled (h : Settled s) (hclean : ∀ i ∈ s.db.inboundIdsOf email, ¬ s.Dropped productId i) :
    Settled { s with db := { s.db with orders := s.db.orders ++ [(productId, email)] } } := by
  refine ⟨h.current, ?_, h.recorded⟩
  intro p e hsold i hi
  rw [mem_productClientEmails, mem_append, mem_singleton] at hsold
  rcases hsold with ⟨hold | hnew, hne⟩
  · exact h.clear p e (mem_productClientEmails.mpr ⟨hold, hne⟩) i hi
  · cases hnew
    exact hclean i (mem_inboundIdsOf.mpr hi)

theorem delete_settled (h : Settled s) : Settled (step s (.delete email)) := by
  refine h.links rfl rfl ?_ ?_
  · intro e i hi
    simp only [mem_filter, decide_eq_true_eq] at hi ⊢
    exact ⟨h.recorded e i hi.1, hi.2⟩
  · intro e i hi
    exact Or.inl (mem_of_mem_filter hi)

theorem reconcileAll_settled {draws : Int → String → Nat → Nat → AddOutcome} (h : Settled s)
    (hclean : Clean s (.reconcileAllProducts draws)) :
    Settled (step s (.reconcileAllProducts draws)) ∧ Converges s (.reconcileAllProducts draws) := by
  obtain ⟨hspread, -, hlinked⟩ := @repairProducts (s.db, []) draws (activeProducts s.db)
  have hnew : ∀ e i, (e, i) ∈ (reconcileAllProducts s.db draws).1.links → (e, i) ∈ s.db.links ∨
      ∀ productId, e ∈ s.db.productClientEmails productId → ¬ s.Dropped productId i := by
    intro e i hi
    rcases hspread.added _ hi with hi | ⟨hrec, p, hp, hsold, hid⟩
    · exact Or.inl hi
    · exact Or.inr fun other hother => hclean p hp e hsold other ⟨hother, hrec⟩ i hid
  refine ⟨h.links hspread.frame.products hspread.frame.orders ?_ hnew, ?_, ?_, ?_⟩
  · intro e i hi
    rcases hspread.added _ hi with hold | ⟨hrec, -⟩
    · exact hspread.frame.records ▸ h.recorded e i hold
    · exact hspread.frame.records ▸ hrec
  · intro _ e hbefore
    obtain ⟨i, hi⟩ := inboundIdsOf_ne_nil.mp hbefore
    exact inboundIdsOf_ne_nil.mpr ⟨i, hspread.kept _ hi⟩
  · intro _ e i hi hgone
    exact absurd (mem_inboundIdsOf.mpr (hspread.kept _ (mem_inboundIdsOf.mp hi))) hgone
  · intro draws' he hok p hp e hsold
    cases he
    refine ⟨fun i hi => mem_inboundIdsOf.mpr (hlinked hok p hp e hsold i hi), ?_⟩
    intro i hdropped hmem
    rcases hnew e i (mem_inboundIdsOf.mp hmem) with hold | hclear
    · exact h.clear p.id e hsold.1 i hold hdropped
    · exact hclear p.id hsold.1 hdropped

section update

variable {id : Int} {new : List Int} {status : ProductStatus} {draws : String → ClientDraws} {old : Product}

def updatedProducts (db : DB) (id : Int) (new : List Int) (status : ProductStatus) :
    Table Product Product.id :=
  db.products.modify (·.id == id) (fun p => { p with inboundIds := new, status }) fun _ => rfl

theorem updateProduct_eq (hfind : s.db.products.find id = some old) :
    updateProduct s id new status draws =
      ⟨(reconcileProductClients { s.db with products := updatedProducts s.db id new status } id
          (inboundDiff old.inboundIds new).1 (inboundDiff old.inboundIds new).2 draws).1,
        s.listed ++ new.map fun i => (id, i)⟩ := by
  rw [updateProduct, hfind]
  rfl

theorem mem_updatedProducts {p : Product} : p ∈ (updatedProducts s.db id new status).rows ↔
    ∃ r ∈ s.db.products.rows, (if r.id = id then { r with inboundIds := new, status } else r) = p := by
  simp [updatedProducts]

theorem updated_listed (h : Settled s) {p : Product} (hp : p ∈ (updatedProducts s.db id new status).rows)
    {i : Int} (hi : i ∈ p.inboundIds) : (p.id, i) ∈ s.listed ++ new.map fun i => (id, i) := by
  obtain ⟨r, hr, heq⟩ := mem_updatedProducts.mp hp
  rw [mem_append]
  split at heq
  case isTrue hid =>
    subst heq
    exact Or.inr (mem_map.mpr ⟨i, hi, by rw [← hid]⟩)
  case isFalse =>
    subst heq
    exact Or.inl (h.current r hr i hi)

theorem dropped_updated (hfind : s.db.products.find id = some old) {s' : Sys} {i : Int}
    (hproducts : s'.db.products = updatedProducts s.db id new status)
    (hlisted : s'.listed = s.listed ++ new.map fun i => (id, i)) (h : s'.Dropped productId i) :
    (productId = id → i ∉ new) ∧
      (s.Dropped productId i ∨ (productId = id ∧ i ∈ (inboundDiff old.inboundIds new).2)) := by
  obtain ⟨hmem, hid⟩ := Table.mem_of_find hfind
  obtain ⟨hin, hout⟩ := h
  rw [hproducts] at hout
  rw [hlisted, mem_append] at hin
  have hnew : productId = id → i ∉ new := by
    intro hsame
    have hrow := hout _ (mem_updatedProducts.mpr ⟨old, hmem, rfl⟩)
    rw [if_pos hid] at hrow
    exact hrow (hid.trans hsame.symm)
  have hbefore : (productId, i) ∈ s.listed := by
    rcases hin with hin | hin
    · exact hin
    · obtain ⟨j, hj, heq⟩ := mem_map.mp hin
      cases heq
      exact absurd hj (hnew rfl)
  refine ⟨hnew, ?_⟩
  by_cases hold : productId = id ∧ i ∈ old.inboundIds
  · exact Or.inr ⟨hold.1, mem_diff_remove.mpr ⟨hold.2, hnew hold.1⟩⟩
  · refine Or.inl ⟨hbefore, ?_⟩
    intro r hr hrid hi
    by_cases hsame : r.id = id
    · have heq : r = old := Table.eq_of_key hr hmem (hsame.trans hid.symm)
      exact hold ⟨hrid.symm.trans hsame, heq ▸ hi⟩
    · have hrow := hout r (mem_updatedProducts.mpr ⟨r, hr, if_neg hsame⟩) hrid
      exact hrow hi

theorem updateProduct_links (hfind : s.db.products.find id = some old) :
    Frame { s.db with products := updatedProducts s.db id new status }
        (updateProduct s id new status draws).db ∧
      (email ∉ s.db.productClientEmails id →
        SameLinks email s.db (updateProduct s id new status draws).db) ∧
      (email ∈ s.db.productClientEmails id →
        Synced (inboundDiff old.inboundIds new).1 (inboundDiff old.inboundIds new).2 draws email
          { s.db with products := updatedProducts s.db id new status }
          (updateProduct s id new status draws).db) := by
  rw [updateProduct_eq hfind]
  obtain ⟨hframe, hsame⟩ := @reconcileProductClients_frame
    { s.db with products := updatedProducts s.db id new status } email (inboundDiff old.inboundIds new).1
    (inboundDiff old.inboundIds new).2 draws id
  exact ⟨hframe, hsame, fun hemail => reconcileProductClients_synced hemail⟩

theorem updateProduct_settled (h : Settled s) (hclean : Clean s (.updateProduct id new status draws)) :
    Settled (step s (.updateProduct id new status draws)) := by
  change Settled (updateProduct s id new status draws)
  cases hfind : s.db.products.find id with
  | none =>
    rw [updateProduct, hfind]
    exact h
  | some old =>
    have hframe := (@updateProduct_links s "" id new status draws old hfind).1
    have hlisted : (updateProduct s id new status draws).listed = s.listed ++ new.map fun i => (id, i) := by
      rw [updateProduct_eq hfind]
    have hlink : ∀ e i, (e, i) ∈ (updateProduct s id new status draws).db.links →
        (e, i) ∈ s.db.links ∨ (e ∈ s.db.productClientEmails id ∧
          i ∈ (inboundDiff old.inboundIds new).1 ∧ e ∈ s.db.records) := by
      intro e i hi
      obtain ⟨-, hsame, hsynced⟩ := @updateProduct_links s e id new status draws old hfind
      by_cases hemail : e ∈ s.db.productClientEmails id
      · exact ((hsynced hemail).added i hi).imp_right fun ⟨hadd, hrec⟩ => ⟨hemail, hadd, hrec⟩
      · exact Or.inl ((hsame hemail i).mp hi)
    refine ⟨?_, ?_, ?_⟩
    · intro p hp i hi
      rw [hframe.products] at hp
      rw [hlisted]
      exact updated_listed h hp hi
    · intro productId e hsold i hi hdropped
      obtain ⟨hnew, hbefore⟩ := dropped_updated hfind hframe.products hlisted hdropped
      rw [hframe.emails] at hsold
      rcases hlink e i hi with hold | ⟨hemail, hadd, hrec⟩
      · rcases hbefore with hbefore | ⟨rfl, hremove⟩
        · exact h.clear productId e hsold i hold hbefore
        · have hpresent : Sold s.db productId e := ⟨hsold, h.recorded e i hold⟩
          have hthrough := (hclean old hfind e hpresent).2.1 ⟨i, mem_inboundIdsOf.mpr hold, hremove⟩
          obtain ⟨-, -, hsynced⟩ := @updateProduct_links s e productId new status draws old hfind
          exact (hsynced hsold).detached hpresent.present hthrough i hremove hi
      · by_cases hsame : productId = id
        · exact hnew hsame (mem_diff_add.mp hadd).1
        · have hdropped' : s.Dropped productId i := hbefore.resolve_right fun hid => hsame hid.1
          exact (hclean old hfind e ⟨hemail, hrec⟩).2.2 productId hsame ⟨hsold, hrec⟩ i hadd hdropped'
    · intro e i hi
      rw [hframe.records]
      rcases hlink e i hi with hold | ⟨-, -, hrec⟩
      · exact h.recorded e i hold
      · exact hrec

theorem updateProduct_converges (h : Settled s) (hclean : Clean s (.updateProduct id new status draws)) :
    Converges s (.updateProduct id new status draws) := by
  cases hfind : s.db.products.find id with
  | none =>
    have hstep : step s (.updateProduct id new status draws) = s := by
      change updateProduct s id new status draws = s
      rw [updateProduct, hfind]
    refine ⟨?_, ?_, fun _ he => by cases he⟩
    · intro _ e hbefore
      rw [hstep]
      exact hbefore
    · intro _ e i hi hgone
      rw [hstep] at hgone
      exact absurd hi hgone
  | some old =>
    refine ⟨?_, ?_, fun _ he => by cases he⟩
    · intro _ e hbefore
      obtain ⟨-, hsame, hsynced⟩ := @updateProduct_links s e id new status draws old hfind
      obtain ⟨i, hi⟩ := inboundIdsOf_ne_nil.mp hbefore
      rw [inboundIdsOf_ne_nil]
      by_cases hemail : e ∈ s.db.productClientEmails id
      · have hsafe := (hclean old hfind e ⟨hemail, h.recorded e i hi⟩).1 hbefore
        have hstay : (inboundDiff old.inboundIds new).1 ≠ [] ∨
            ∃ i, (e, i) ∈ s.db.links ∧ i ∉ (inboundDiff old.inboundIds new).2 :=
          hsafe.imp_right fun ⟨i, hi, hnot⟩ => ⟨i, mem_inboundIdsOf.mp hi, hnot⟩
        refine (hsynced hemail).attached ?_ ⟨i, hi⟩ hstay
        intro j hadd hremove
        exact (mem_diff_remove.mp hremove).2 (mem_diff_add.mp hadd).1
      · exact ⟨i, (hsame hemail i).mpr hi⟩
    · intro _ e i hi hgone
      obtain ⟨-, hsame, hsynced⟩ := @updateProduct_links s e id new status draws old hfind
      rw [mem_inboundIdsOf] at hi
      have hgone' : (e, i) ∉ (updateProduct s id new status draws).db.links := fun hmem =>
        hgone (mem_inboundIdsOf.mpr hmem)
      by_cases hemail : e ∈ s.db.productClientEmails id
      · have hremove := ((hsynced hemail).removed i hi).resolve_left hgone'
        obtain ⟨hmem, hid⟩ := Table.mem_of_find hfind
        have hlisted := h.current old hmem i (mem_diff_remove.mp hremove).1
        rw [hid] at hlisted
        exact ⟨id, hemail, hlisted⟩
      · exact absurd ((hsame hemail i).mpr hi) hgone'

end update

theorem start_settled (products : Table Product Product.id) : Settled (start products) := by
  refine ⟨?_, ?_, ?_⟩
  · intro p hp i hi
    exact mem_flatMap.mpr ⟨p, hp, mem_map.mpr ⟨i, hi, rfl⟩⟩
  · intro _ _ _ i hi
    exact absurd hi not_mem_nil
  · intro _ i hi
    exact absurd hi not_mem_nil

theorem Converges.of_other {e : Event} (h : e.isSync = false) : Converges s e := by
  refine ⟨?_, ?_, ?_⟩
  · intro hsync
    rw [h] at hsync
    cases hsync
  · intro hsync
    rw [h] at hsync
    cases hsync
  · rintro draws rfl
    cases h

theorem step_settled {e : Event} (h : Settled s) (hclean : Clean s e) :
    Settled (step s e) ∧ Converges s e := by
  cases e with
  | updateProduct => exact ⟨updateProduct_settled h hclean, updateProduct_converges h hclean⟩
  | reconcileAllProducts => exact reconcileAll_settled h hclean
  | attach => exact ⟨attach_settled h hclean, Converges.of_other rfl⟩
  | detach => exact ⟨detach_settled h, Converges.of_other rfl⟩
  | create => exact ⟨create_settled h hclean, Converges.of_other rfl⟩
  | order => exact ⟨order_settled h hclean, Converges.of_other rfl⟩
  | delete => exact ⟨delete_settled h, Converges.of_other rfl⟩

theorem sold_clients_converge (products : Table Product Product.id) (events : List Event)
    (h : Throughout step Clean (start products) events) :
    Throughout step Converges (start products) events :=
  (h.keep (start_settled products) fun _ _ hs hclean => (step_settled hs hclean).1).imp
    fun _ _ hs => (step_settled hs.1 hs.2).2

end runs

def planned (inboundIds : List Int) : Table Product Product.id :=
  Table.empty.insert (fun id => ⟨id, 0, "plan", 1073741824, 30, 100, .all, inboundIds, .active⟩) fun _ => rfl

def bought (landed : List Int) : List Event := [.create "u1" landed, .order 1 "u1"]

def healthy : ClientDraws := ⟨fun _ _ => .done, fun _ _ => .done⟩

theorem healthy_through : GoesThrough healthy :=
  ⟨⟨0, by decide, fun _ => rfl⟩, ⟨0, by decide, fun _ => rfl⟩, fun _ _ h => by cases h⟩

theorem only_buyer {db : DB} {productId : Int} {email : String} (horders : db.orders = [(1, "u1")])
    (h : Sold db productId email) : productId = 1 ∧ email = "u1" := by
  have hmem := (mem_productClientEmails.mp h.1).1
  rw [horders, mem_singleton] at hmem
  exact Prod.mk.inj hmem

theorem sold_clients_converge_moved :
    Throughout step Converges (start (planned [1, 2]))
      (bought [1, 2] ++ [.updateProduct 1 [2, 3] .active fun _ => healthy,
        .reconcileAllProducts fun _ _ _ _ => .done]) := by
  refine sold_clients_converge _ _ ⟨?_, ?_, ?_, ?_, trivial⟩
  · intro p hsold
    exact absurd hsold not_mem_nil
  · intro i _ hdropped
    have hlisted : i ∈ [(1 : Int), 2] := by
      simpa [start, step, planned, Table.empty, Table.insert] using hdropped.1
    exact hdropped.2 _ mem_cons_self rfl hlisted
  · rintro old hfind diff email hsold
    cases hfind
    obtain ⟨-, rfl⟩ := only_buyer (by decide +kernel) hsold
    refine ⟨fun _ => Or.inl (by decide +kernel), fun _ => healthy_through, ?_⟩
    intro other hother hsold'
    exact absurd (only_buyer (by decide +kernel) hsold').1 hother
  · intro p hp email hsold other hsold' i hi hdropped
    obtain ⟨rfl, -⟩ := only_buyer (by decide +kernel) hsold'
    obtain ⟨hid, -⟩ := only_buyer (by decide +kernel) hsold
    exact hdropped.2 p (mem_of_mem_filter hp) hid hi

def refused : ClientDraws := ⟨fun _ _ => .failed false, fun _ _ => .done⟩

theorem sold_client_stranded : ¬ Throughout step Converges (start (planned [1]))
    (bought [1] ++ [.updateProduct 1 [1, 2] .active fun _ => refused,
      .updateProduct 1 [2] .active fun _ => healthy]) := by
  intro h
  have hattached := h.2.2.2.1.attached rfl "u1" (by decide +kernel)
  revert hattached
  decide +kernel

end ProductSync

end QuiPanel
