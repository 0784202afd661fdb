import QuiPanel.Clients

namespace QuiPanel

namespace Clients

open Keyed Outcome List

structure Same (r r' : ClientRecord) : Prop where
  key : r'.recordId = r.recordId
  email : r'.email = r.email
  owner : r'.ownerId = r.ownerId
  tenant : r'.tenantId = r.tenantId

structure SizedBy (c : Client) (r : ClientRecord) : Prop where
  total : r.totalGB = c.totalGB
  expiry : r.expiryTime = c.expiryTime

structure Follows (cs : List Client) (r r' : ClientRecord) : Prop where
  same : Same r r'
  sized : SizedBy r.toClient r' ∨ ∃ c ∈ cs, Text.trimSpace c.email = r.email ∧ SizedBy c r'

structure CreatedFrom (c : Client) (r' : ClientRecord) : Prop where
  email : r'.email = c.email
  owner : r'.ownerId = 0
  tenant : r'.tenantId = 0
  sized : SizedBy c r'

section sync

variable {db db' : DB} {t t' : Records} {cs : List Client} {r r' : ClientRecord} {i : Int}

theorem Same.refl (r : ClientRecord) : Same r r := ⟨rfl, rfl, rfl, rfl⟩

theorem Same.trans {r'' : ClientRecord} (h : Same r r') (h' : Same r' r'') : Same r r'' :=
  ⟨h'.key.trans h.key, h'.email.trans h.email, h'.owner.trans h.owner, h'.tenant.trans h.tenant⟩

theorem Follows.refl (cs : List Client) (r : ClientRecord) : Follows cs r r := ⟨.refl r, .inl ⟨rfl, rfl⟩⟩

theorem Follows.trans {r'' : ClientRecord} (h : Follows cs r r') (h' : Follows cs r' r'') :
    Follows cs r r'' := by
  refine ⟨h.same.trans h'.same, ?_⟩
  rcases h'.sized with hkept | ⟨c, hc, hemail, hsized⟩
  · rcases h.sized with hkept' | ⟨c, hc, hemail, hsized⟩
    · exact .inl ⟨hkept.total.trans hkept'.total, hkept.expiry.trans hkept'.expiry⟩
    · exact .inr ⟨c, hc, hemail, hkept.total.trans hsized.total, hkept.expiry.trans hsized.expiry⟩
  · exact .inr ⟨c, hc, hemail.trans h.same.email, hsized⟩

theorem mergeRecords_follows {all : List Client} (hsub : ∀ c ∈ cs, c ∈ all)
    (hr' : r' ∈ (mergeRecords t cs).rows) : ∃ r ∈ t.rows, Follows all r r' := by
  induction cs generalizing t with
  | nil => exact ⟨r', hr', .refl all r'⟩
  | cons c cs ih =>
    obtain ⟨hc, hcs⟩ := forall_mem_cons.mp hsub
    obtain ⟨mid, hmid, hfollows⟩ := ih hcs hr'
    rw [Table.rows_modify] at hmid
    obtain ⟨r, hr, rfl⟩ := mem_map.mp hmid
    refine ⟨r, hr, Follows.trans ?_ hfollows⟩
    split
    case isTrue hmatch =>
      have hemail : r.email = Text.trimSpace c.email := by simpa using hmatch
      exact ⟨⟨rfl, rfl, rfl, rfl⟩, .inr ⟨c, hc, hemail.symm, rfl, rfl⟩⟩
    case isFalse => exact .refl all r

theorem createRecords_from (h : cs.foldlM createRecord t = .ok t') (hr' : r' ∈ t'.rows) :
    r' ∈ t.rows ∨ ∃ c ∈ cs, CreatedFrom c r' := by
  induction cs generalizing t with
  | nil =>
    cases h
    exact .inl hr'
  | cons c cs ih =>
    rw [foldlM_cons, bind_ok] at h
    obtain ⟨mid, hcreate, hrest⟩ := h
    obtain ⟨-, rfl⟩ := createRecord_ok.mp hcreate
    rcases ih hrest with hmid | ⟨c', hc', hcreated⟩
    · rw [Table.rows_insert] at hmid
      rcases mem_append.mp hmid with hold | hnew
      · exact .inl hold
      · obtain rfl := mem_singleton.mp hnew
        exact .inr ⟨c, mem_cons_self, rfl, rfl, rfl, rfl, rfl⟩
    · exact .inr ⟨c', mem_cons_of_mem _ hc', hcreated⟩

theorem createRecords_nodup (h : cs.foldlM createRecord t = .ok t') (hnodup : (emails t).Nodup) :
    (emails t').Nodup := by
  induction cs generalizing t with
  | nil =>
    cases h
    exact hnodup
  | cons c cs ih =>
    rw [foldlM_cons, bind_ok] at h
    obtain ⟨mid, hcreate, hrest⟩ := h
    obtain ⟨hfresh, rfl⟩ := createRecord_ok.mp hcreate
    apply ih hrest
    rw [emails, Table.rows_insert, map_append, map_singleton, nodup_append]
    refine ⟨hnodup, nodup_singleton _, ?_⟩
    rintro e he _ hc rfl
    rw [mem_singleton.mp hc] at he
    exact hfresh he

theorem mem_toCreate {c : Client} (h : c ∈ toCreate t cs) :
    c ∈ cs ∧ Text.trimSpace c.email ∉ emails t := by
  obtain ⟨hc, hmissing⟩ := mem_filter.mp (firstByEmail_subset h)
  exact ⟨hc, by simpa [emails] using hmissing⟩

theorem syncInbound_rows (h : syncInbound db i cs = .ok db') (hr' : r' ∈ db'.records.rows) :
    (∃ r ∈ db.records.rows, Follows cs r r') ∨
      ∃ c ∈ cs, Text.trimSpace c.email ∉ emails db.records ∧ CreatedFrom c r' := by
  simp only [syncInbound, bind_ok] at h
  obtain ⟨records, hcreate, h⟩ := h
  cases h
  rcases createRecords_from hcreate hr' with hmerged | ⟨c, hc, hcreated⟩
  · exact .inl (mergeRecords_follows (fun c hc => (mem_filter.mp hc).1) hmerged)
  · obtain ⟨hnamed, hmissing⟩ := mem_toCreate hc
    exact .inr ⟨c, (mem_filter.mp hnamed).1, hmissing, hcreated⟩

theorem syncInbound_nodup (h : syncInbound db i cs = .ok db') (hnodup : (emails db.records).Nodup) :
    (emails db'.records).Nodup := by
  simp only [syncInbound, bind_ok] at h
  obtain ⟨records, hcreate, h⟩ := h
  cases h
  apply createRecords_nodup hcreate
  rw [mergeRecords_emails]
  exact hnodup

def Persists (t t' : Records) : Prop :=
  ∀ r ∈ t.rows, ∃ r' ∈ t'.rows, r'.recordId = r.recordId ∧ r'.email = r.email

theorem Persists.refl (t : Records) : Persists t t := fun r hr => ⟨r, hr, rfl, rfl⟩

theorem Persists.trans {t'' : Records} (h : Persists t t') (h' : Persists t' t'') : Persists t t'' := by
  intro r hr
  obtain ⟨r', hr', hkey, hemail⟩ := h r hr
  obtain ⟨r'', hr'', hkey', hemail'⟩ := h' r' hr'
  exact ⟨r'', hr'', hkey'.trans hkey, hemail'.trans hemail⟩

theorem mergeRecords_persists (t : Records) (cs : List Client) : Persists t (mergeRecords t cs) := by
  induction cs generalizing t with
  | nil => exact .refl t
  | cons c cs ih =>
    refine Persists.trans ?_ (ih _)
    intro r hr
    refine ⟨_, Table.mem_modify.mpr ⟨r, hr, rfl⟩, ?_⟩
    split <;> exact ⟨rfl, rfl⟩

theorem createRecords_persists (h : cs.foldlM createRecord t = .ok t') : Persists t t' := by
  induction cs generalizing t with
  | nil =>
    cases h
    exact .refl _
  | cons c cs ih =>
    rw [foldlM_cons, bind_ok] at h
    obtain ⟨mid, hcreate, hrest⟩ := h
    obtain ⟨-, rfl⟩ := createRecord_ok.mp hcreate
    refine Persists.trans ?_ (ih hrest)
    intro r hr
    exact ⟨r, by rw [Table.rows_insert]; exact mem_append_left _ hr, rfl, rfl⟩

theorem syncInbound_persists (h : syncInbound db i cs = .ok db') : Persists db.records db'.records := by
  simp only [syncInbound, bind_ok] at h
  obtain ⟨records, hcreate, h⟩ := h
  cases h
  exact (mergeRecords_persists _ _).trans (createRecords_persists hcreate)

end sync

end Clients

end QuiPanel
