import QuiPanel.Clients
import QuiPanel.Library.Merging

namespace QuiPanel

namespace ClientMerge

open Merging Clients List

inductive Value where
  | text (s : String)
  | json (s : Option String)
  | int (n : Int)
  | bool (b : Bool)
  deriving DecidableEq

structure ClientMergeConflict where
  field : String
  old : Value
  new : Value
  kept : Value
  deriving DecidableEq

def redacted : Value := .text "<redacted>"

def keepSecret (field : String) : ClientMergeConflict := ⟨field, redacted, redacted, redacted⟩

section fields

variable {V : Type} [DecidableEq V]

def newestSecret (field : String) (newer : Bool) (old new : String) : List ClientMergeConflict :=
  if old ≠ new ∧ new ≠ "" ∧ (newer = true ∨ old = "") then [keepSecret field] else []

def newestConflict (wrap : V → Value) (unset : V) (field : String) (newer : Bool) (old new : V) :
    List ClientMergeConflict :=
  if old ≠ new ∧ new ≠ unset ∧ (newer = true ∨ old = unset) then [⟨field, wrap old, wrap new, wrap new⟩] else []

def largerLimit (old new : Int) : Int :=
  if old ≠ new then if old = 0 ∨ (new ≠ 0 ∧ new > old) then new else old else old

def largerLimitIP (old new : Int) : Int :=
  if old ≠ new ∧ new ≠ 0 then if old = 0 ∨ new > old then new else old else old

def pickedConflict (field : String) (old new picked : Int) : List ClientMergeConflict :=
  if picked ≠ old then [⟨field, .int old, .int new, .int picked⟩] else []

end fields

def incomingNewer (existing incoming : ClientRecord) : Bool :=
  decide (incoming.updatedAt > existing.updatedAt) ||
    (decide (incoming.updatedAt = existing.updatedAt) && decide (incoming.createdAt > existing.createdAt))

def merged (existing incoming : ClientRecord) : ClientRecord :=
  let newer := incomingNewer existing incoming
  { existing with
    id := keep "" newer existing.id incoming.id
    password := keep "" newer existing.password incoming.password
    auth := keep "" newer existing.auth incoming.auth
    flow := keep "" newer existing.flow incoming.flow
    security := keep "" newer existing.security incoming.security
    subID := keep "" newer existing.subID incoming.subID
    totalGB := largerLimit existing.totalGB incoming.totalGB
    expiryTime := largerLimit existing.expiryTime incoming.expiryTime
    limitIP := largerLimitIP existing.limitIP incoming.limitIP
    tgID := keep 0 newer existing.tgID incoming.tgID
    reset := keep 0 newer existing.reset incoming.reset
    reverse := keep none newer existing.reverse incoming.reverse
    comment := keep "" newer existing.comment incoming.comment
    group := keep "" newer existing.group incoming.group
    enable := existing.enable || incoming.enable
    createdAt :=
      if incoming.createdAt ≠ 0 ∧ (existing.createdAt = 0 ∨ incoming.createdAt < existing.createdAt) then
        incoming.createdAt
      else existing.createdAt
    updatedAt := if incoming.updatedAt > existing.updatedAt then incoming.updatedAt else existing.updatedAt }

def conflicts (existing incoming : ClientRecord) : List ClientMergeConflict :=
  let newer := incomingNewer existing incoming
  (if existing.id ≠ incoming.id ∧ incoming.id ≠ "" then [keepSecret "uuid"] else []) ++
    newestSecret "password" newer existing.password incoming.password ++
    newestSecret "auth" newer existing.auth incoming.auth ++
    newestConflict .text "" "flow" newer existing.flow incoming.flow ++
    newestConflict .text "" "security" newer existing.security incoming.security ++
    newestSecret "subId" newer existing.subID incoming.subID ++
    pickedConflict "totalGB" existing.totalGB incoming.totalGB (largerLimit existing.totalGB incoming.totalGB) ++
    pickedConflict "expiryTime" existing.expiryTime incoming.expiryTime
      (largerLimit existing.expiryTime incoming.expiryTime) ++
    pickedConflict "limitIp" existing.limitIP incoming.limitIP (largerLimitIP existing.limitIP incoming.limitIP) ++
    newestConflict .int 0 "tgId" newer existing.tgID incoming.tgID ++
    newestConflict .int 0 "reset" newer existing.reset incoming.reset ++
    newestConflict .json none "reverse" newer existing.reverse incoming.reverse ++
    newestConflict .text "" "comment" newer existing.comment incoming.comment ++
    newestConflict .text "" "group" newer existing.group incoming.group ++
    (if existing.enable ≠ incoming.enable ∧ incoming.enable = true then
      [⟨"enable", .bool existing.enable, .bool incoming.enable, .bool true⟩] else [])

def mergeClientRecord (existing incoming : ClientRecord) : ClientRecord × List ClientMergeConflict :=
  (merged existing incoming, conflicts existing incoming)

theorem merge_self (r : ClientRecord) : mergeClientRecord r r = (r, []) := by
  simp [mergeClientRecord, merged, conflicts, incomingNewer, keep_self, newestSecret, newestConflict, largerLimit,
    largerLimitIP, pickedConflict]

def textFields : List (Client → String) :=
  [Client.id, Client.password, Client.auth, Client.flow, Client.security, Client.subID, Client.comment, Client.group]

def numberFields : List (Client → Int) := [Client.tgID, Client.reset]

structure Merged (rs : List ClientRecord) (c : Client) : Prop where
  email : ∀ r ∈ rs, r.email = c.email
  total : Best (· > ·) 0 (rs.map fun r => r.totalGB) c.totalGB
  expiry : Best (· > ·) 0 (rs.map fun r => r.expiryTime) c.expiryTime
  limitIP : Best (· > ·) 0 (rs.map fun r => r.limitIP) c.limitIP
  enable : c.enable = rs.any fun r => r.enable
  created : Best (· < ·) 0 (rs.map fun r => r.createdAt) c.createdAt
  updated : (∃ r ∈ rs, r.updatedAt = c.updatedAt) ∧ ∀ r ∈ rs, r.updatedAt ≤ c.updatedAt
  texts : ∀ f ∈ textFields, Latest (fun r => r.updatedAt) (fun r => f r.toClient) "" rs (f c)
  numbers : ∀ f ∈ numberFields, Latest (fun r => r.updatedAt) (fun r => f r.toClient) 0 rs (f c)
  reverse : Latest (fun r => r.updatedAt) (fun r => r.reverse) none rs c.reverse

structure Decided (rs : List ClientRecord) : Prop where
  texts : ∀ f ∈ textFields, Settled (fun r => r.updatedAt) (fun r => f r.toClient) "" rs
  numbers : ∀ f ∈ numberFields, Settled (fun r => r.updatedAt) (fun r => f r.toClient) 0 rs
  reverse : Settled (fun r => r.updatedAt) (fun r => r.reverse) none rs

section merging

variable {a b r : ClientRecord} {rs rs' : List ClientRecord} {c c' : Client}

theorem merged_clock : Clock (fun r : ClientRecord => r.updatedAt) incomingNewer merged where
  later := fun a b h => by simp [incomingNewer, h]
  earlier := fun a b h => by simp [incomingNewer, h.not_gt, h.ne]
  advances := fun a b => by
    change (if b.updatedAt > a.updatedAt then b.updatedAt else a.updatedAt) = max a.updatedAt b.updatedAt
    split
    case isTrue hlt => exact (max_eq_right hlt.le).symm
    case isFalse hle => exact (max_eq_left (not_lt.mp hle)).symm

theorem merged_text {f : Client → String} (hf : f ∈ textFields) :
    Register incomingNewer merged (fun r => f r.toClient) "" := by
  intro a b
  simp only [textFields, mem_cons, not_mem_nil, or_false] at hf
  rcases hf with rfl | rfl | rfl | rfl | rfl | rfl | rfl | rfl <;> rfl

theorem merged_number {f : Client → Int} (hf : f ∈ numberFields) :
    Register incomingNewer merged (fun r => f r.toClient) 0 := by
  intro a b
  simp only [numberFields, mem_cons, not_mem_nil, or_false] at hf
  rcases hf with rfl | rfl <;> rfl

theorem merged_reverse : Register incomingNewer merged (fun r => r.reverse) none := fun _ _ => rfl

theorem largerLimit_pick (old new : Int) : largerLimit old new = pick (· > ·) 0 old new := by
  grind [largerLimit, pick]

theorem largerLimitIP_pick (old new : Int) : largerLimitIP old new = pick (· > ·) 0 old new := by
  grind [largerLimitIP, pick]

theorem best_merged {better : Int → Int → Prop} [IsStrictTotalOrder Int better] [DecidableRel better]
    {f : ClientRecord → Int} (hf : ∀ a b, f (merged a b) = pick better 0 (f a) (f b)) (r : ClientRecord)
    (rs : List ClientRecord) : Best better 0 ((r :: rs).map f) (f (rs.foldl merged r)) := by
  have hfold : f (rs.foldl merged r) = (rs.map f).foldl (pick better 0) (f r) := by
    rw [foldl_map]
    exact (foldl_hom f fun x y => (hf x y).symm).symm
  rw [hfold, map_cons]
  exact best_foldl better 0 (f r) (rs.map f)

theorem enable_foldl (r : ClientRecord) (rs : List ClientRecord) :
    (rs.foldl merged r).enable = (r :: rs).any fun x => x.enable := by
  induction rs generalizing r with
  | nil => simp
  | cons x rs ih =>
    rw [foldl_cons, ih, any_cons, any_cons, any_cons, ← Bool.or_assoc]
    rfl

theorem email_foldl (r : ClientRecord) (rs : List ClientRecord) : (rs.foldl merged r).email = r.email := by
  induction rs generalizing r with
  | nil => rfl
  | cons x rs ih => exact ih (merged r x)

theorem updated_foldl (r : ClientRecord) (rs : List ClientRecord) :
    (∃ x ∈ r :: rs, x.updatedAt = (rs.foldl merged r).updatedAt) ∧
      ∀ x ∈ r :: rs, x.updatedAt ≤ (rs.foldl merged r).updatedAt := by
  induction rs generalizing r with
  | nil => exact ⟨⟨r, mem_cons_self, rfl⟩, forall_mem_singleton.mpr (le_refl _)⟩
  | cons x rs ih =>
    obtain ⟨⟨y, hy, hval⟩, hmax⟩ := ih (merged r x)
    have hstep : (merged r x).updatedAt = max r.updatedAt x.updatedAt := merged_clock.advances r x
    have hfirst := hmax _ mem_cons_self
    rw [hstep] at hfirst
    have hr := (le_max_left _ _).trans hfirst
    have hx := (le_max_right _ _).trans hfirst
    refine ⟨?_, forall_mem_cons.mpr ⟨hr, forall_mem_cons.mpr ⟨hx, ?_⟩⟩⟩
    · rcases mem_cons.mp hy with rfl | hrest
      · rcases max_choice r.updatedAt x.updatedAt with hleft | hright
        · exact ⟨r, mem_cons_self, by rw [← hleft, ← hstep, hval]; rfl⟩
        · exact ⟨x, .tail _ (.head _), by rw [← hright, ← hstep, hval]; rfl⟩
      · exact ⟨y, .tail _ (.tail _ hrest), hval⟩
    · exact fun z hz => hmax z (mem_cons_of_mem _ hz)

theorem Merged.perm (hp : rs'.Perm rs) (h : Merged rs c) : Merged rs' c where
  email := fun r hr => h.email r (hp.subset hr)
  total := h.total.perm (hp.map _)
  expiry := h.expiry.perm (hp.map _)
  limitIP := h.limitIP.perm (hp.map _)
  enable := h.enable.trans (hp.any_eq).symm
  created := h.created.perm (hp.map _)
  updated := by
    obtain ⟨⟨r, hr, hval⟩, hmax⟩ := h.updated
    exact ⟨⟨r, hp.symm.subset hr, hval⟩, fun r hr => hmax r (hp.subset hr)⟩
  texts := fun f hf => (h.texts f hf).perm hp
  numbers := fun f hf => (h.numbers f hf).perm hp
  reverse := h.reverse.perm hp

theorem Merged.unique (hne : rs ≠ []) (hdistinct : (rs.map fun r => r.updatedAt).Nodup) (h : Merged rs c)
    (h' : Merged rs c') : c = c' := by
  have htext := fun f hf => (h.texts f hf).unique hdistinct (h'.texts f hf)
  have hnumber := fun f hf => (h.numbers f hf).unique hdistinct (h'.numbers f hf)
  simp only [textFields, numberFields, forall_mem_cons, not_mem_nil, false_imp_iff, implies_true,
    and_true] at htext hnumber
  obtain ⟨hid, hpassword, hauth, hflow, hsecurity, hsub, hcomment, hgroup⟩ := htext
  obtain ⟨htg, hreset⟩ := hnumber
  have hupdated : c.updatedAt = c'.updatedAt := by
    obtain ⟨⟨r, hr, hval⟩, hmax⟩ := h.updated
    obtain ⟨⟨r', hr', hval'⟩, hmax'⟩ := h'.updated
    exact le_antisymm (hval ▸ hmax' r hr) (hval' ▸ hmax r' hr')
  obtain ⟨r, hr⟩ := exists_mem_of_ne_nil rs hne
  have hemail := (h.email r hr).symm.trans (h'.email r hr)
  have htotal := h.total.unique h'.total
  have hexpiry := h.expiry.unique h'.expiry
  have hlimit := h.limitIP.unique h'.limitIP
  have hcreated := h.created.unique h'.created
  have henable := h.enable.trans h'.enable.symm
  have hreverse := h.reverse.unique hdistinct h'.reverse
  cases c
  cases c'
  simp only at *
  subst hid hpassword hauth hflow hsecurity hsub hcomment hgroup htg hreset hupdated hemail htotal hexpiry hlimit
    hcreated henable hreverse
  rfl

theorem merged_mergeAll (hdistinct : (rs.map fun r => r.updatedAt).Nodup)
    (hemail : ∀ r ∈ rs, ∀ r' ∈ rs, r.email = r'.email) (hd : Decided rs) (hr : mergeAll merged rs = some r) :
    Merged rs r.toClient := by
  cases rs with
  | nil => cases hr
  | cons a rs =>
    have hfold := Option.some.inj hr
    exact
      { email := fun x hx => by
          rw [← hfold, email_foldl]
          exact hemail x hx a mem_cons_self
        total := hfold ▸ best_merged (fun _ _ => largerLimit_pick _ _) a rs
        expiry := hfold ▸ best_merged (fun _ _ => largerLimit_pick _ _) a rs
        limitIP := hfold ▸ best_merged (fun _ _ => largerLimitIP_pick _ _) a rs
        enable := hfold ▸ enable_foldl a rs
        created := hfold ▸ best_merged (fun _ _ => rfl) a rs
        updated := hfold ▸ updated_foldl a rs
        texts := fun f hf => latest_of_settled merged_clock (merged_text hf) hdistinct (hd.texts f hf) hr
        numbers := fun f hf => latest_of_settled merged_clock (merged_number hf) hdistinct (hd.numbers f hf) hr
        reverse := latest_of_settled merged_clock merged_reverse hdistinct hd.reverse hr }

theorem decided_of_merged (hdistinct : (rs.map fun r => r.updatedAt).Nodup)
    (h : ∀ rs', rs'.Perm rs → ∀ r, mergeAll merged rs' = some r → Merged rs r.toClient) : Decided rs where
  texts := fun f hf => settled_of_latest merged_clock (merged_text hf) hdistinct
    fun rs' hp r hr => (h rs' hp r hr).texts f hf
  numbers := fun f hf => settled_of_latest merged_clock (merged_number hf) hdistinct
    fun rs' hp r hr => (h rs' hp r hr).numbers f hf
  reverse := settled_of_latest merged_clock merged_reverse hdistinct fun rs' hp r hr => (h rs' hp r hr).reverse

theorem Decided.perm (hp : rs'.Perm rs) (h : Decided rs) : Decided rs' where
  texts := fun f hf => (h.texts f hf).perm hp
  numbers := fun f hf => (h.numbers f hf).perm hp
  reverse := h.reverse.perm hp

theorem merge_order_free_iff (rs : List ClientRecord) (hne : rs ≠ [])
    (hemail : ∀ r ∈ rs, ∀ r' ∈ rs, r.email = r'.email) (hdistinct : (rs.map fun r => r.updatedAt).Nodup) :
    ((∃ c, Merged rs c ∧ ∀ rs', rs'.Perm rs →
        (mergeAll (fun a b => (mergeClientRecord a b).1) rs').map ClientRecord.toClient = some c) ∧
      ∀ r, mergeClientRecord r r = (r, [])) ↔ Decided rs := by
  constructor
  · rintro ⟨⟨c, hc, hall⟩, _⟩
    refine decided_of_merged hdistinct fun rs' hp r hr => ?_
    have hsame := hall rs' hp
    rw [show mergeAll (fun a b => (mergeClientRecord a b).1) rs' = some r from hr] at hsame
    rw [Option.some.inj hsame]
    exact hc
  · intro hd
    have hmerged : ∀ rs', rs'.Perm rs → ∀ r, mergeAll merged rs' = some r → Merged rs r.toClient := by
      intro rs' hp r hr
      have hdistinct' := (hp.map fun r : ClientRecord => r.updatedAt).nodup_iff.mpr hdistinct
      have hemail' : ∀ r ∈ rs', ∀ r' ∈ rs', r.email = r'.email :=
        fun r hr r' hr' => hemail r (hp.subset hr) r' (hp.subset hr')
      exact (merged_mergeAll hdistinct' hemail' (hd.perm hp) hr).perm hp.symm
    have hsome : ∀ rs', rs'.Perm rs → ∃ r, mergeAll merged rs' = some r := by
      intro rs' hp
      cases rs' with
      | nil => exact absurd (nil_perm.mp hp) hne
      | cons a rs' => exact ⟨_, rfl⟩
    obtain ⟨r, hr⟩ := hsome rs (List.Perm.refl rs)
    have hc := hmerged rs (List.Perm.refl rs) r hr
    refine ⟨⟨r.toClient, hc, fun rs' hp => ?_⟩, merge_self⟩
    obtain ⟨r', hr'⟩ := hsome rs' hp
    have hsame := (hmerged rs' hp r' hr').unique hne hdistinct hc
    change (mergeAll merged rs').map ClientRecord.toClient = some r.toClient
    rw [hr', ← hsame]
    rfl

def sample (updatedAt : Int) (id : String) : ClientRecord where
  id := id
  security := ""
  password := ""
  flow := ""
  reverse := none
  auth := ""
  email := "a@b.c"
  limitIP := 0
  totalGB := 10
  expiryTime := -86400000
  enable := true
  tgID := 0
  subID := "s"
  group := ""
  comment := ""
  reset := 0
  createdAt := 1
  updatedAt := updatedAt
  recordId := 0
  ownerId := 0
  tenantId := 0

theorem merge_order_free_pair : ∃ c, Merged [sample 1 "old", sample 2 "new"] c ∧
    ∀ rs', rs'.Perm [sample 1 "old", sample 2 "new"] →
      (mergeAll (fun a b => (mergeClientRecord a b).1) rs').map ClientRecord.toClient = some c := by
  have hdecided : Decided [sample 1 "old", sample 2 "new"] := ⟨by decide, by decide, by decide⟩
  exact ((merge_order_free_iff [sample 1 "old", sample 2 "new"] (by decide) (by decide) (by decide)).mpr hdecided).1

theorem merge_order_matters : ∃ rs : List ClientRecord, (∀ r ∈ rs, r.updatedAt ≠ 0) ∧
    (rs.map fun r => r.updatedAt).Nodup ∧ (∀ r ∈ rs, ∀ r' ∈ rs, r.email = r'.email) ∧
      ¬ ∃ c, Merged rs c ∧ ∀ rs', rs'.Perm rs →
        (mergeAll (fun a b => (mergeClientRecord a b).1) rs').map ClientRecord.toClient = some c := by
  refine ⟨[sample 1 "old", sample 3 "", sample 2 "new"], by decide, by decide, by decide, ?_⟩
  rintro ⟨c, _, hall⟩
  have hgap := hall [sample 1 "old", sample 3 "", sample 2 "new"] (List.Perm.refl _)
  have hsorted := hall [sample 1 "old", sample 2 "new", sample 3 ""] (List.Perm.cons _ (List.Perm.swap _ _ _))
  have hid := congrArg (Option.map Client.id) (hgap.trans hsorted.symm)
  revert hid
  decide

end merging

end ClientMerge

end QuiPanel
