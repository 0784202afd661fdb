import QuiPanel.Attribution
import QuiPanel.Credentials
import QuiPanel.Library.Overwrite

namespace QuiPanel

namespace ListSync

open Keyed Outcome Clients Overwrite List

def orDefault {α : Type} [DecidableEq α] (zero default v : α) : α := if v = zero then default else v

def created (now : Int) (c : Client) : Client :=
  { c with
    enable := orDefault false true c.enable
    createdAt := orDefault 0 now c.createdAt
    updatedAt := orDefault 0 now c.updatedAt }

def createInBatches (now : Int) (records : Clients.Records) (toCreate : List Client) :
    Except String Clients.Records :=
  (toCreate.map (created now)).foldlM createRecord records

def syncInbound (now : Int) (db : DB) (inboundId : Int) (clients : List Client) : Except String DB := do
  let clients := named clients
  let merged := mergeRecords db.records clients
  let records ← createInBatches now merged (toCreate db.records clients)
  return { db with
    records
    links := db.links.filter (·.inboundId != inboundId) ++ linkClients records inboundId clients [] }

def occurrences (clients : List Client) (email : String) : List Client :=
  clients.filter fun c => Text.trimSpace c.email == email

def distinctEmails (clients : List Client) : List String :=
  ((named clients).map fun c => Text.trimSpace c.email).dedup

def given (c : Client) := (c.totalGB, c.expiryTime, c.limitIP, c.enable, c.subID, c.comment, c.reset)

def timeless (r : ClientRecord) : ClientRecord := { r with createdAt := 0, updatedAt := 0 }

structure SameButTimestamps (db db' : DB) : Prop where
  inbounds : db'.inbounds = db.inbounds
  records : db'.records.rows.map timeless = db.records.rows.map timeless
  links : db'.links = db.links
  traffics : db'.traffics = db.traffics

structure Realised (db : DB) (inboundId : Int) (clients : List Client) (db' : DB) : Prop where
  listed : ((Credentials.listForInbound db' inboundId).map (·.email)).Perm (distinctEmails clients)
  flow : ∀ c ∈ Credentials.listForInbound db' inboundId, ∀ first,
    (occurrences clients c.email).head? = some first → c.flow = first.flow
  once : ∀ c ∈ Credentials.listForInbound db' inboundId, ∀ only,
    occurrences clients c.email = [only] → given c = given only
  others : db'.links.filter (·.inboundId != inboundId) = db.links.filter (·.inboundId != inboundId)
  again : ∀ later, ∃ db'', syncInbound later db' inboundId clients = .ok db'' ∧ SameButTimestamps db' db''

def assigned (c : Client) :=
  (c.flow, c.subID, c.limitIP, c.totalGB, c.expiryTime, c.enable, c.tgID, c.comment, c.reset)

def texts : List (Client → String) := [(·.id), (·.password), (·.auth), (·.security), (·.group)]

def nonEmpty (s : String) : Option String := if s = "" then none else some s

structure Settled (occurrences : List Client) (first : Client) : Prop where
  trimmed : Text.trimSpace first.email = first.email
  assigned : ∀ last, occurrences.getLast? = some last → assigned last = assigned { first with enable := true }
  texts : ∀ text ∈ texts, ∀ s, (occurrences.filterMap fun c => nonEmpty (text c)).getLast? = some s →
    s = text first
  reverse : ∀ s, (occurrences.filterMap (·.reverse)).getLast? = some s → some s = first.reverse

def SettledFresh (db : DB) (clients : List Client) : Prop :=
  ∀ email, email ≠ "" → email ∉ emails db.records → ∀ first,
    (occurrences clients email).head? = some first → Settled (occurrences clients email) first

section merging

variable {c : Client} {cs : List Client} {r : ClientRecord} {t : Clients.Records}

def mergeAll (cs : List Client) (r : ClientRecord) : ClientRecord :=
  cs.foldl (fun r c => mergeRecord c r) r

theorem rows_mergeRecords (t : Clients.Records) (cs : List Client) :
    (mergeRecords t cs).rows = t.rows.map fun r => mergeAll (occurrences cs r.email) r := by
  have hkeep : ∀ (r : ClientRecord) (c : Client), (mergeRecord c r).email = r.email := fun _ _ => rfl
  have hrows := rows_foldl_modify (fun r : ClientRecord => r.email) (fun c : Client => Text.trimSpace c.email)
    (fun r c => mergeRecord c r) (fun r c => mergeRecord_recordId c r) hkeep t cs
  simp only [mergeRecords, mergeAll, occurrences]
  exact hrows

theorem mergeAll_recordId : (mergeAll cs r).recordId = r.recordId :=
  foldl_constant (fun r c => mergeRecord c r) ClientRecord.recordId (fun _ _ => rfl) r cs

theorem mergeAll_ownerId : (mergeAll cs r).ownerId = r.ownerId :=
  foldl_constant (fun r c => mergeRecord c r) ClientRecord.ownerId (fun _ _ => rfl) r cs

theorem mergeAll_tenantId : (mergeAll cs r).tenantId = r.tenantId :=
  foldl_constant (fun r c => mergeRecord c r) ClientRecord.tenantId (fun _ _ => rfl) r cs

theorem mergeAll_email : (mergeAll cs r).email = r.email :=
  foldl_constant (fun r c => mergeRecord c r) (fun r : ClientRecord => r.email) (fun _ _ => rfl) r cs

theorem mergeAll_assigned :
    assigned (mergeAll cs r).toClient = overwrite (fun c => some (assigned c)) (assigned r.toClient) cs :=
  foldl_field (fun r c => mergeRecord c r) (fun r : ClientRecord => assigned r.toClient)
    (fun _ _ => rfl) r cs

theorem mergeAll_text {text : Client → String} (htext : text ∈ texts) :
    text (mergeAll cs r).toClient = overwrite (fun c => nonEmpty (text c)) (text r.toClient) cs := by
  refine foldl_field (fun r c => mergeRecord c r) (fun r : ClientRecord => text r.toClient)
    (fun r c => ?_) r cs
  simp only [texts, mem_cons, not_mem_nil, or_false] at htext
  rcases htext with rfl | rfl | rfl | rfl | rfl
  all_goals
    simp only [mergeRecord, nonEmpty, ne_eq, ite_not]
    split <;> rfl

theorem mergeAll_reverse :
    (mergeAll cs r).reverse = overwrite (fun c => c.reverse.map some) r.reverse cs := by
  refine foldl_field (fun r c => mergeRecord c r) (fun r : ClientRecord => r.reverse)
    (fun r c => ?_) r cs
  simp only [mergeRecord]
  cases c.reverse <;> rfl

theorem timeless_eq_iff {r r' : ClientRecord} : timeless r = timeless r' ↔
    (r.recordId = r'.recordId ∧ r.email = r'.email ∧ r.ownerId = r'.ownerId ∧ r.tenantId = r'.tenantId) ∧
      assigned r.toClient = assigned r'.toClient ∧ (∀ text ∈ texts, text r.toClient = text r'.toClient) ∧
        r.reverse = r'.reverse := by
  obtain ⟨⟨_, _, _, _, _, _, _, _, _, _, _, _, _, _, _, _, _, _⟩, _, _, _⟩ := r
  obtain ⟨⟨_, _, _, _, _, _, _, _, _, _, _, _, _, _, _, _, _, _⟩, _, _, _⟩ := r'
  simp only [timeless, assigned, texts, ClientRecord.mk.injEq, Client.mk.injEq, Prod.mk.injEq,
    mem_cons, not_mem_nil, or_false, forall_eq_or_imp, forall_eq]
  tauto

theorem mergeAll_twice : timeless (mergeAll cs (mergeAll cs r)) = timeless (mergeAll cs r) := by
  refine timeless_eq_iff.mpr ⟨⟨mergeAll_recordId, mergeAll_email, mergeAll_ownerId, mergeAll_tenantId⟩,
    ?_, fun text htext => ?_, ?_⟩
  · rw [mergeAll_assigned, mergeAll_assigned, overwrite_twice]
  · rw [mergeAll_text htext, mergeAll_text htext, overwrite_twice]
  · rw [mergeAll_reverse, mergeAll_reverse, overwrite_twice]

theorem mergeAll_fixed_iff : timeless (mergeAll cs r) = timeless r ↔
    (∀ last, cs.getLast? = some last → assigned last = assigned r.toClient) ∧
      (∀ text ∈ texts, ∀ s, (cs.filterMap fun c => nonEmpty (text c)).getLast? = some s →
        s = text r.toClient) ∧
      ∀ s, (cs.filterMap (·.reverse)).getLast? = some s → some s = r.reverse := by
  have hassigned : (cs.filterMap fun c => some (assigned c)).getLast? = cs.getLast?.map assigned := by
    rw [filterMap_eq_map', getLast?_map]
  have hreverse : (cs.filterMap fun c => c.reverse.map some).getLast? =
      (cs.filterMap (·.reverse)).getLast?.map some := by
    rw [← getLast?_map, map_filterMap]
  rw [timeless_eq_iff]
  simp only [mergeAll_recordId, mergeAll_email, mergeAll_ownerId, mergeAll_tenantId, true_and, and_self]
  refine and_congr ?_ (and_congr ?_ ?_)
  · rw [mergeAll_assigned, overwrite_fixed_iff, hassigned]
    simp only [Option.map_eq_some_iff, forall_exists_index, and_imp, forall_apply_eq_imp_iff₂]
  · refine forall₂_congr fun text htext => ?_
    rw [mergeAll_text htext, overwrite_fixed_iff]
  · rw [mergeAll_reverse, overwrite_fixed_iff, hreverse]
    simp only [Option.map_eq_some_iff, forall_exists_index, and_imp, forall_apply_eq_imp_iff₂]

end merging

section creating

variable {now : Int} {c c' : Client} {cs : List Client} {r r' : ClientRecord} {t t' : Clients.Records}

theorem mem_firstByEmail_iff {seen : List String} : c ∈ firstByEmail cs seen ↔
    Text.trimSpace c.email ∉ seen ∧ (occurrences cs (Text.trimSpace c.email)).head? = some c := by
  induction cs generalizing seen with
  | nil => simp [firstByEmail, occurrences]
  | cons c' cs ih =>
    simp only [firstByEmail, occurrences, filter_cons]
    by_cases hsame : Text.trimSpace c'.email = Text.trimSpace c.email
    · simp only [hsame, beq_self_eq_true, if_true, head?_cons, Option.some.injEq]
      by_cases hseen : Text.trimSpace c.email ∈ seen
      · simp [hseen, ih]
      · simp only [contains_iff_mem, hseen, if_false, not_false_eq_true, true_and, mem_cons, ih,
          not_true_eq_false, false_and, or_false]
        exact eq_comm
    · have hne : c ≠ c' := fun he => hsame (he ▸ rfl)
      simp only [beq_eq_false_iff_ne.mpr hsame, Bool.false_eq_true, if_false]
      split
      · exact ih
      · rw [mem_cons, ih]
        simp only [hne, false_or, mem_cons, Ne.symm hsame]
        rfl

theorem mem_toCreate_iff : c ∈ toCreate t cs ↔
    Text.trimSpace c.email ∉ emails t ∧ (occurrences cs (Text.trimSpace c.email)).head? = some c := by
  have hunseen : ∀ e, occurrences (cs.filter fun c => !t.rows.any (·.email == Text.trimSpace c.email)) e =
      if e ∈ emails t then [] else occurrences cs e := by
    intro e
    simp only [occurrences, filter_filter, emails, mem_map]
    split
    case isTrue hrec =>
      obtain ⟨r, hr, rfl⟩ := hrec
      refine filter_eq_nil_iff.mpr fun c _ => ?_
      simp only [Bool.and_eq_true, beq_iff_eq, Bool.not_eq_true', any_eq_false, not_and]
      intro he hnone
      exact hnone r hr he.symm
    case isFalse hrec =>
      refine filter_congr fun c _ => ?_
      by_cases he : Text.trimSpace c.email = e
      · simp only [he, beq_self_eq_true, Bool.true_and, Bool.not_eq_true', any_eq_false, beq_iff_eq]
        exact fun r hr hre => hrec ⟨r, hr, hre⟩
      · simp only [beq_eq_false_iff_ne.mpr he, Bool.false_and]
  rw [toCreate, mem_firstByEmail_iff, hunseen]
  by_cases hrec : Text.trimSpace c.email ∈ emails t <;> simp [hrec]

theorem createInBatches_kept (h : createInBatches now t cs = .ok t') (hr : r ∈ t.rows) : r ∈ t'.rows := by
  rw [createInBatches] at h
  induction cs generalizing t with
  | nil =>
    cases h
    exact hr
  | cons c cs ih =>
    rw [map_cons, foldlM_cons, bind_ok] at h
    obtain ⟨mid, hcreate, hrest⟩ := h
    obtain ⟨-, rfl⟩ := createRecord_ok.mp hcreate
    exact ih hrest (Table.mem_insert.mpr (.inl hr))

theorem createInBatches_new (h : createInBatches now t cs = .ok t') (hr : r ∈ t'.rows) :
    r ∈ t.rows ∨ ∃ c ∈ cs, r.toClient = created now c := by
  rcases Credentials.createRecords_entry h hr with hold | hnew
  · exact .inl hold
  · obtain ⟨c, hc, he⟩ := mem_map.mp hnew
    exact .inr ⟨c, hc, he.symm⟩

theorem createInBatches_emails (h : createInBatches now t cs = .ok t') :
    emails t' = emails t ++ cs.map (·.email) := by
  rw [createRecords_emails h, map_map]
  rfl

end creating

section linking

variable {i : Int} {c : Client} {cs : List Client} {l : ClientInbound} {r : ClientRecord} {t : Clients.Records}

theorem eq_of_email (hunique : (emails t).Nodup) {r r' : ClientRecord} (hr : r ∈ t.rows) (hr' : r' ∈ t.rows)
    (h : r.email = r'.email) : r = r' :=
  inj_on_of_nodup_map hunique hr hr' h

theorem mem_linkClients_iff (hunique : (emails t).Nodup) {linked : List Int} :
    l ∈ linkClients t i cs linked ↔ l.clientId ∉ linked ∧ ∃ r ∈ t.rows, ∃ first,
      (occurrences cs r.email).head? = some first ∧ l = ⟨r.recordId, i, first.flow⟩ := by
  induction cs generalizing linked with
  | nil => simp [linkClients, occurrences]
  | cons c cs ih =>
    have hskip : ∀ r : ClientRecord, r.email ≠ Text.trimSpace c.email →
        occurrences (c :: cs) r.email = occurrences cs r.email :=
      fun r hr => filter_cons_of_neg (by simpa using Ne.symm hr)
    have hhit : ∀ r : ClientRecord, r.email = Text.trimSpace c.email →
        (occurrences (c :: cs) r.email).head? = some c := by
      intro r hr
      rw [occurrences, filter_cons_of_pos (by simpa using hr.symm), head?_cons]
    simp only [linkClients]
    cases hfind : t.rows.find? (·.email = Text.trimSpace c.email) with
    | none =>
      have hnone : ∀ r ∈ t.rows, r.email ≠ Text.trimSpace c.email := by
        simpa using find?_eq_none.mp hfind
      rw [ih]
      refine and_congr_right fun _ => exists_congr fun r => and_congr_right fun hr => ?_
      rw [hskip r (hnone r hr)]
    | some r₀ =>
      have hmem₀ := mem_of_find?_eq_some hfind
      have hemail₀ : r₀.email = Text.trimSpace c.email := by simpa using find?_some hfind
      have hother : ∀ r ∈ t.rows, r.recordId ≠ r₀.recordId → r.email ≠ Text.trimSpace c.email :=
        fun r hr hne he => hne (congrArg _ (eq_of_email hunique hr hmem₀ (he.trans hemail₀.symm)))
      simp only
      split
      case isTrue hin =>
        have hin : r₀.recordId ∈ linked := by simpa using hin
        rw [ih]
        constructor
        · rintro ⟨hout, r, hr, first, hfirst, rfl⟩
          refine ⟨hout, r, hr, first, ?_, rfl⟩
          rw [hskip r (hother r hr fun he => hout (he ▸ hin))]
          exact hfirst
        · rintro ⟨hout, r, hr, first, hfirst, rfl⟩
          refine ⟨hout, r, hr, first, ?_, rfl⟩
          rw [hskip r (hother r hr fun he => hout (he ▸ hin))] at hfirst
          exact hfirst
      case isFalse hout₀ =>
        have hout₀ : r₀.recordId ∉ linked := by simpa using hout₀
        rw [mem_cons, ih]
        constructor
        · rintro (rfl | ⟨hout, r, hr, first, hfirst, rfl⟩)
          · exact ⟨hout₀, r₀, hmem₀, c, hhit r₀ hemail₀, rfl⟩
          · obtain ⟨hne, hout⟩ := not_or.mp fun h => hout (mem_cons.mpr h)
            refine ⟨hout, r, hr, first, ?_, rfl⟩
            rw [hskip r (hother r hr hne)]
            exact hfirst
        · rintro ⟨hout, r, hr, first, hfirst, rfl⟩
          by_cases hsame : r.recordId = r₀.recordId
          · obtain rfl := Table.eq_of_key hr hmem₀ hsame
            rw [hhit r hemail₀] at hfirst
            cases hfirst
            exact .inl rfl
          · rw [hskip r (hother r hr hsame)] at hfirst
            exact .inr ⟨not_mem_cons_of_ne_of_not_mem hsame hout, r, hr, first, hfirst, rfl⟩

theorem linkClients_nodup (hunique : (emails t).Nodup) {linked : List Int} :
    ((linkClients t i cs linked).map (·.clientId)).Nodup := by
  induction cs generalizing linked with
  | nil => exact nodup_nil
  | cons c cs ih =>
    simp only [linkClients]
    split
    · exact ih
    · split
      · exact ih
      · rw [map_cons, nodup_cons]
        refine ⟨fun hin => ?_, ih⟩
        obtain ⟨l, hl, he⟩ := mem_map.mp hin
        exact ((mem_linkClients_iff hunique).mp hl).1 (he ▸ mem_cons_self)

end linking

section listing

variable {db : DB} {i : Int} {c : Client} {r : ClientRecord} {l : ClientInbound}

theorem mem_listForInbound : c ∈ Credentials.listForInbound db i ↔
    ∃ r ∈ db.records.rows, ∃ l ∈ db.links, l.clientId = r.recordId ∧ l.inboundId = i ∧
      c = { r.toClient with flow := l.flowOverride } := by
  simp only [Credentials.listForInbound, mem_flatMap, mem_insertionSort, mem_map,
    mem_filter, decide_eq_true_eq]
  constructor
  · rintro ⟨r, hr, l, ⟨hl, hclient, hinbound⟩, rfl⟩
    exact ⟨r, hr, l, hl, hclient, hinbound, rfl⟩
  · rintro ⟨r, hr, l, hl, hclient, hinbound, rfl⟩
    exact ⟨r, hr, l, ⟨hl, hclient, hinbound⟩, rfl⟩

theorem listForInbound_nodup (hunique : (emails db.records).Nodup)
    (hlinks : ((db.links.filter (·.inboundId == i)).map (·.clientId)).Nodup) :
    ((Credentials.listForInbound db i).map (·.email)).Nodup := by
  have hone : ∀ k, (db.links.filter fun l => l.clientId = k ∧ l.inboundId = i).length ≤ 1 := by
    intro k
    have hcount := nodup_iff_count_le_one.mp hlinks k
    rw [List.count, countP_map, countP_filter, countP_eq_length_filter] at hcount
    refine le_trans (le_of_eq (congrArg List.length (filter_congr fun l _ => ?_))) hcount
    simp [Bool.beq_eq_decide_eq]
  have hsorted : ((db.records.rows.insertionSort fun r r' => r.recordId ≤ r'.recordId).map
      (·.email)).Nodup :=
    ((perm_insertionSort _ db.records.rows).map _).nodup_iff.mpr hunique
  rw [Credentials.listForInbound, map_flatMap]
  refine nodup_flatMap.mpr ⟨fun r _ => ?_, ?_⟩
  · rw [map_map]
    have hlength := hone r.recordId
    generalize db.links.filter (fun l => l.clientId = r.recordId ∧ l.inboundId = i) = own at hlength ⊢
    match own, hlength with
    | [], _ => exact nodup_nil
    | [l], _ => exact nodup_singleton _
  · refine (pairwise_map.mp hsorted).imp fun {r r'} hne => ?_
    simp only [Function.onFun, disjoint_left, mem_map]
    rintro e ⟨c, ⟨l, -, rfl⟩, rfl⟩ ⟨c', ⟨l', -, rfl⟩, he⟩
    exact hne he.symm

end listing

section sync

variable {now later i : Int} {db db' : DB} {clients cs : List Client} {c first : Client} {e : String}
  {r r' : ClientRecord} {t : Clients.Records}

theorem syncInbound_ok : syncInbound now db i clients = .ok db' ↔ ∃ records,
    createInBatches now (mergeRecords db.records (named clients)) (toCreate db.records (named clients)) =
        .ok records ∧
      db' = { db with
        records
        links := db.links.filter (·.inboundId != i) ++ linkClients records i (named clients) [] } := by
  simp only [syncInbound, bind_ok]
  constructor
  · rintro ⟨records, hcreate, h⟩
    cases h
    exact ⟨records, hcreate, rfl⟩
  · rintro ⟨records, hcreate, rfl⟩
    exact ⟨records, hcreate, rfl⟩

theorem occurrences_named (he : e ≠ "") : occurrences (named clients) e = occurrences clients e := by
  rw [occurrences, named, filter_filter]
  refine filter_congr fun c _ => ?_
  by_cases hc : Text.trimSpace c.email = e <;> simp [hc, he]

theorem occurrences_unnamed : occurrences (named clients) "" = [] := by
  refine filter_eq_nil_iff.mpr fun c hc => ?_
  simpa using (mem_filter.mp hc).2

theorem email_of_head (h : (occurrences clients e).head? = some first) :
    first ∈ clients ∧ Text.trimSpace first.email = e := by
  obtain ⟨hmem, hemail⟩ := mem_filter.mp (mem_of_head? h)
  exact ⟨hmem, by simpa using hemail⟩

theorem head_of_mem (hc : c ∈ clients) : ∃ first,
    (occurrences clients (Text.trimSpace c.email)).head? = some first := by
  cases h : (occurrences clients (Text.trimSpace c.email)).head? with
  | some first => exact ⟨first, rfl⟩
  | none =>
    have hin : c ∈ occurrences clients (Text.trimSpace c.email) := mem_filter.mpr ⟨hc, by simp⟩
    rw [head?_eq_none_iff.mp h] at hin
    cases hin

theorem mem_distinctEmails : e ∈ distinctEmails clients ↔
    e ≠ "" ∧ ∃ first, (occurrences clients e).head? = some first := by
  simp only [distinctEmails, mem_dedup, mem_map, named, mem_filter, bne_iff_ne]
  constructor
  · rintro ⟨c, ⟨hc, hne⟩, rfl⟩
    exact ⟨hne, head_of_mem hc⟩
  · rintro ⟨hne, first, hfirst⟩
    obtain ⟨hmem, rfl⟩ := email_of_head hfirst
    exact ⟨first, ⟨hmem, hne⟩, rfl⟩

theorem syncInbound_unique (h : syncInbound now db i clients = .ok db') (hunique : (emails db.records).Nodup) :
    (emails db'.records).Nodup := by
  obtain ⟨records, hcreate, rfl⟩ := syncInbound_ok.mp h
  refine createRecords_nodup hcreate ?_
  rw [mergeRecords_emails]
  exact hunique

theorem linked_iff (h : syncInbound now db i clients = .ok db') (hunique : (emails db.records).Nodup) :
    c ∈ Credentials.listForInbound db' i ↔ ∃ r ∈ db'.records.rows, ∃ first, r.email ≠ "" ∧
      (occurrences clients r.email).head? = some first ∧ c = { r.toClient with flow := first.flow } := by
  have hunique' := syncInbound_unique h hunique
  obtain ⟨records, hcreate, rfl⟩ := syncInbound_ok.mp h
  rw [mem_listForInbound]
  constructor
  · rintro ⟨r, hr, l, hl, hclient, hinbound, rfl⟩
    rcases mem_append.mp hl with hold | hnew
    · exact absurd hinbound (by simpa using (mem_filter.mp hold).2)
    · obtain ⟨-, r', hr', first, hfirst, rfl⟩ := (mem_linkClients_iff hunique').mp hnew
      obtain rfl := Table.eq_of_key hr' hr hclient
      by_cases hne : r'.email = ""
      · rw [hne, occurrences_unnamed] at hfirst
        cases hfirst
      · rw [occurrences_named hne] at hfirst
        exact ⟨r', hr, first, hne, hfirst, rfl⟩
  · rintro ⟨r, hr, first, hne, hfirst, rfl⟩
    rw [← occurrences_named hne] at hfirst
    exact ⟨r, hr, ⟨r.recordId, i, first.flow⟩, mem_append_right _ ((mem_linkClients_iff hunique').mpr
      ⟨not_mem_nil, r, hr, first, hfirst, rfl⟩), rfl, rfl, rfl⟩

theorem listed_iff (h : syncInbound now db i clients = .ok db') (hunique : (emails db.records).Nodup) :
    ((Credentials.listForInbound db' i).map (·.email)).Perm (distinctEmails clients) ↔
      ∀ e ∈ distinctEmails clients, e ∈ emails db'.records := by
  have hmem : ∀ e, e ∈ (Credentials.listForInbound db' i).map (·.email) ↔
      e ∈ emails db'.records ∧ e ∈ distinctEmails clients := by
    intro e
    simp only [mem_map, linked_iff h hunique, emails, mem_distinctEmails]
    constructor
    · rintro ⟨_, ⟨r, hr, first, hne, hfirst, rfl⟩, rfl⟩
      exact ⟨⟨r, hr, rfl⟩, hne, first, hfirst⟩
    · rintro ⟨⟨r, hr, rfl⟩, hne, first, hfirst⟩
      exact ⟨_, ⟨r, hr, first, hne, hfirst, rfl⟩, rfl⟩
  have hunique' := syncInbound_unique h hunique
  obtain ⟨records, hcreate, rfl⟩ := syncInbound_ok.mp h
  have hlinks : (((db.links.filter (·.inboundId != i) ++
      linkClients records i (named clients) []).filter (·.inboundId == i)).map (·.clientId)).Nodup := by
    have hold : (db.links.filter (·.inboundId != i)).filter (·.inboundId == i) = [] := by
      refine filter_eq_nil_iff.mpr fun l hl => ?_
      simpa using (mem_filter.mp hl).2
    rw [filter_append, hold, nil_append]
    exact (linkClients_nodup hunique').sublist (filter_sublist.map _)
  constructor
  · intro hperm e he
    exact ((hmem e).mp (hperm.mem_iff.mpr he)).1
  · intro hall
    refine (perm_ext_iff_of_nodup (listForInbound_nodup hunique' hlinks) (nodup_dedup _)).mpr
      fun e => ?_
    rw [hmem]
    exact ⟨fun he => he.2, fun he => ⟨hall e he, he⟩⟩

theorem trimSpace_twice (s : String) : Text.trimSpace (Text.trimSpace s) = Text.trimSpace s :=
  Text.trimSpace_of_edged (Text.edged_trimSpace s)

theorem syncInbound_emails (h : syncInbound now db i clients = .ok db') :
    emails db'.records = emails db.records ++ (toCreate db.records (named clients)).map (·.email) := by
  obtain ⟨records, hcreate, rfl⟩ := syncInbound_ok.mp h
  rw [createInBatches_emails hcreate, mergeRecords_emails]

theorem mem_toCreate_first : c ∈ toCreate t (named clients) ↔ Text.trimSpace c.email ≠ "" ∧
    Text.trimSpace c.email ∉ emails t ∧
      (occurrences clients (Text.trimSpace c.email)).head? = some c := by
  rw [mem_toCreate_iff]
  by_cases hne : Text.trimSpace c.email = ""
  · simp [hne, occurrences_unnamed]
  · rw [occurrences_named hne]
    simp [hne]

theorem covered_iff (h : syncInbound now db i clients = .ok db') :
    (∀ e ∈ distinctEmails clients, e ∈ emails db'.records) ↔
      ∀ e, e ≠ "" → e ∉ emails db.records → ∀ first, (occurrences clients e).head? = some first →
        Text.trimSpace first.email = first.email := by
  rw [syncInbound_emails h]
  constructor
  · intro hall e hne hfresh first hfirst
    obtain ⟨-, he⟩ := email_of_head hfirst
    rcases mem_append.mp (hall e (mem_distinctEmails.mpr ⟨hne, first, hfirst⟩)) with hold | hnew
    · exact absurd hold hfresh
    · obtain ⟨c, hc, rfl⟩ := mem_map.mp hnew
      obtain ⟨-, -, hfirst'⟩ := mem_toCreate_first.mp hc
      have htrim : Text.trimSpace c.email = c.email := by rw [← he, trimSpace_twice]
      rw [htrim, hfirst] at hfirst'
      cases hfirst'
      exact htrim
  · intro htrim e he
    obtain ⟨hne, first, hfirst⟩ := mem_distinctEmails.mp he
    by_cases hold : e ∈ emails db.records
    · exact mem_append_left _ hold
    · obtain ⟨-, rfl⟩ := email_of_head hfirst
      have hmem := mem_toCreate_first.mpr ⟨hne, hold, hfirst⟩
      exact mem_append_right _
        (mem_map.mpr ⟨first, hmem, (htrim _ hne hold first hfirst).symm⟩)

theorem find_mergeRecords (t : Clients.Records) (cs : List Client) (e : String) :
    (mergeRecords t cs).rows.find? (·.email = e) =
      (t.rows.find? (·.email = e)).map fun r => mergeAll (occurrences cs r.email) r := by
  rw [rows_mergeRecords, find?_map]
  simp only [Function.comp_def, mergeAll_email]

theorem linkClients_mergeRecords (t : Clients.Records) (cs' : List Client) {linked : List Int} :
    linkClients (mergeRecords t cs') i cs linked = linkClients t i cs linked := by
  induction cs generalizing linked with
  | nil => rfl
  | cons c cs ih =>
    simp only [linkClients, find_mergeRecords]
    cases t.rows.find? (·.email = Text.trimSpace c.email) with
    | none => exact ih
    | some r => simp only [Option.map_some, mergeAll_recordId, ih]

theorem syncInbound_covered (hall : ∀ e ∈ distinctEmails clients, e ∈ emails db.records) :
    syncInbound later db i clients = .ok { db with
      records := mergeRecords db.records (named clients)
      links := db.links.filter (·.inboundId != i) ++ linkClients db.records i (named clients) [] } := by
  have hnone : toCreate db.records (named clients) = [] := by
    refine eq_nil_iff_forall_not_mem.mpr fun c hc => ?_
    obtain ⟨hne, hfresh, hfirst⟩ := mem_toCreate_first.mp hc
    exact hfresh (hall _ (mem_distinctEmails.mpr ⟨hne, c, hfirst⟩))
  rw [syncInbound_ok]
  refine ⟨mergeRecords db.records (named clients), ?_, ?_⟩
  · rw [hnone]
    rfl
  · rw [linkClients_mergeRecords]

theorem links_again (h : syncInbound now db i clients = .ok db') :
    db'.links.filter (·.inboundId != i) = db.links.filter (·.inboundId != i) ∧
      db'.links.filter (·.inboundId != i) ++ linkClients db'.records i (named clients) [] = db'.links := by
  obtain ⟨records, hcreate, rfl⟩ := syncInbound_ok.mp h
  have hnew : (linkClients records i (named clients) []).filter (·.inboundId != i) = [] := by
    refine filter_eq_nil_iff.mpr fun l hl => ?_
    simpa using Credentials.linkClients_inbound hl
  have hothers : (db.links.filter (·.inboundId != i) ++
      linkClients records i (named clients) []).filter (·.inboundId != i) =
      db.links.filter (·.inboundId != i) := by
    rw [filter_append, hnew, append_nil, filter_filter]
    simp only [Bool.and_self]
  exact ⟨hothers, by rw [hothers]⟩

theorem again_iff (h : syncInbound now db i clients = .ok db')
    (hall : ∀ e ∈ distinctEmails clients, e ∈ emails db'.records) :
    (∀ later, ∃ db'', syncInbound later db' i clients = .ok db'' ∧ SameButTimestamps db' db'') ↔
      ∀ r ∈ db'.records.rows, timeless (mergeAll (occurrences (named clients) r.email) r) = timeless r := by
  have hrows : (mergeRecords db'.records (named clients)).rows.map timeless =
      db'.records.rows.map fun r => timeless (mergeAll (occurrences (named clients) r.email) r) := by
    rw [rows_mergeRecords, map_map]
    rfl
  constructor
  · intro hagain
    obtain ⟨db'', h', hsame⟩ := hagain 0
    rw [syncInbound_covered hall] at h'
    cases h'
    have hrecords := hsame.records
    rw [hrows] at hrecords
    exact map_inj_left.mp hrecords
  · intro hfixed later
    refine ⟨_, syncInbound_covered hall, rfl, ?_, (links_again h).2, rfl⟩
    rw [hrows]
    exact map_congr_left hfixed

theorem assigned_created : assigned (created now c) = assigned { c with enable := true } := by
  cases hc : c.enable <;> simp [assigned, created, orDefault, hc]

theorem text_created {text : Client → String} (htext : text ∈ texts) : text (created now c) = text c := by
  simp only [texts, mem_cons, not_mem_nil, or_false] at htext
  rcases htext with rfl | rfl | rfl | rfl | rfl
  all_goals rfl

theorem created_fixed_iff (hr : r.toClient = created now first)
    (htrim : Text.trimSpace first.email = first.email) :
    timeless (mergeAll (occurrences clients r.email) r) = timeless r ↔
      Settled (occurrences clients first.email) first := by
  have hemail : r.email = first.email := (congrArg Client.email hr).trans rfl
  have hreverse : (created now first).reverse = first.reverse := rfl
  rw [mergeAll_fixed_iff, hemail, hr, hreverse, assigned_created]
  constructor
  · rintro ⟨hassigned, htexts, hreverse⟩
    exact ⟨htrim, hassigned, fun text htext s hs => (htexts text htext s hs).trans (text_created htext),
      hreverse⟩
  · intro hsettled
    exact ⟨hsettled.assigned,
      fun text htext s hs => (hsettled.texts text htext s hs).trans (text_created htext).symm,
      hsettled.reverse⟩

theorem given_of_assigned {c c' : Client} (h : assigned c = assigned c') : given c = given c' := by
  simp only [assigned, Prod.mk.injEq] at h
  simp only [given, h]

theorem syncInbound_row (h : syncInbound now db i clients = .ok db') (hr : r ∈ db'.records.rows) :
    (∃ r₀ ∈ db.records.rows, r = mergeAll (occurrences (named clients) r₀.email) r₀) ∨
      ∃ first, Text.trimSpace first.email ≠ "" ∧ Text.trimSpace first.email ∉ emails db.records ∧
        (occurrences clients (Text.trimSpace first.email)).head? = some first ∧
          r.toClient = created now first := by
  obtain ⟨records, hcreate, rfl⟩ := syncInbound_ok.mp h
  rcases createInBatches_new hcreate hr with hmerged | ⟨first, hfirst, hr⟩
  · rw [rows_mergeRecords] at hmerged
    obtain ⟨r₀, hr₀, rfl⟩ := mem_map.mp hmerged
    exact .inl ⟨r₀, hr₀, rfl⟩
  · obtain ⟨hne, hfresh, hhead⟩ := mem_toCreate_first.mp hfirst
    exact .inr ⟨first, hne, hfresh, hhead, hr⟩

theorem settled_fixed (h : syncInbound now db i clients = .ok db') (hsettled : SettledFresh db clients)
    (hr : r ∈ db'.records.rows) :
    timeless (mergeAll (occurrences (named clients) r.email) r) = timeless r := by
  rcases syncInbound_row h hr with ⟨r₀, -, rfl⟩ | ⟨first, hne, hfresh, hfirst, hclient⟩
  · rw [mergeAll_email]
    exact mergeAll_twice
  · have hown := hsettled _ hne hfresh first hfirst
    have hemail : r.email = first.email := (congrArg Client.email hclient).trans rfl
    rw [hown.trimmed] at hne hown
    have hname : occurrences (named clients) r.email = occurrences clients r.email :=
      occurrences_named (by rw [hemail]; exact hne)
    rw [hname]
    exact (created_fixed_iff hclient (by rw [← hown.trimmed, trimSpace_twice])).mpr hown

theorem settled_once (h : syncInbound now db i clients = .ok db') (hunique : (emails db.records).Nodup)
    (hsettled : SettledFresh db clients) (hc : c ∈ Credentials.listForInbound db' i) {only : Client}
    (honly : occurrences clients c.email = [only]) : given c = given only := by
  obtain ⟨r, hr, first, hne, -, rfl⟩ := (linked_iff h hunique).mp hc
  rcases syncInbound_row h hr with ⟨r₀, -, rfl⟩ | ⟨first, hne', hfresh, hfirst, hclient⟩
  · rw [mergeAll_email] at hne
    have hown : occurrences (named clients) r₀.email = [only] := by
      rw [occurrences_named hne, ← honly]
      exact congrArg _ mergeAll_email.symm
    rw [hown]
    rfl
  · have hown := hsettled _ hne' hfresh first hfirst
    have hemail : r.email = Text.trimSpace first.email := by
      rw [hown.trimmed]
      exact (congrArg Client.email hclient).trans rfl
    have hlist : occurrences clients (Text.trimSpace first.email) = [only] := by
      rw [← honly]
      exact congrArg _ hemail.symm
    rw [hlist] at hfirst hown
    cases hfirst
    have hgiven : given r.toClient = given only := by
      rw [hclient]
      exact given_of_assigned (assigned_created.trans (hown.assigned only rfl).symm)
    exact hgiven

theorem syncInbound_realised_iff (hunique : (emails db.records).Nodup)
    (h : syncInbound now db i clients = .ok db') :
    Realised db i clients db' ↔ SettledFresh db clients := by
  constructor
  · intro hreal e hne hfresh first hfirst
    have hall := (listed_iff h hunique).mp hreal.listed
    have htrim := (covered_iff h).mp hall e hne hfresh first hfirst
    obtain ⟨-, rfl⟩ := email_of_head hfirst
    rw [htrim] at hne hfresh hfirst ⊢
    obtain ⟨r, hr, he⟩ := mem_map.mp (hall _ (mem_distinctEmails.mpr ⟨hne, first, hfirst⟩))
    have hfixed := (again_iff h hall).mp hreal.again r hr
    rcases syncInbound_row h hr with ⟨r₀, hr₀, rfl⟩ | ⟨first', -, -, hfirst', hclient⟩
    · rw [mergeAll_email] at he
      exact absurd (mem_map.mpr ⟨r₀, hr₀, he⟩) hfresh
    · have hemail : first'.email = first.email := ((congrArg Client.email hclient).trans rfl).symm.trans he
      rw [hemail, htrim, hfirst] at hfirst'
      cases hfirst'
      have hname : occurrences (named clients) r.email = occurrences clients r.email :=
        occurrences_named (by rw [he]; exact hne)
      rw [hname] at hfixed
      exact (created_fixed_iff hclient htrim).mp hfixed
  · intro hsettled
    have hall := (covered_iff h).mpr fun e hne hfresh first hfirst =>
      (hsettled e hne hfresh first hfirst).trimmed
    refine ⟨(listed_iff h hunique).mpr hall, ?_, fun c hc only honly => settled_once h hunique hsettled hc honly,
      (links_again h).1, (again_iff h hall).mpr fun r hr => settled_fixed h hsettled hr⟩
    intro c hc first hfirst
    obtain ⟨r, hr, first', hne, hfirst', rfl⟩ := (linked_iff h hunique).mp hc
    rw [hfirst'] at hfirst
    cases hfirst
    rfl

end sync

section examples

def suspended : Client where
  id := "6f1c"
  security := ""
  password := ""
  flow := ""
  reverse := none
  auth := ""
  email := "alice"
  limitIP := 2
  totalGB := 1000
  expiryTime := 0
  enable := false
  tgID := 0
  subID := "s1"
  group := ""
  comment := ""
  reset := 0
  createdAt := 0
  updatedAt := 0

def emptyDB : DB := ⟨Table.empty, Table.empty, [], []⟩

theorem created_enabled : ¬ ∀ now db inboundId clients db', (emails db.records).Nodup →
    (∀ c ∈ clients, Xray.validateClientEmail c.email = .ok ()) →
    syncInbound now db inboundId clients = .ok db' → Realised db inboundId clients db' := by
  intro hclaim
  have hlist : (syncInbound 5 emptyDB 1 [suspended]).toOption.map (Credentials.listForInbound · 1) =
      some [{ suspended with enable := true, createdAt := 5, updatedAt := 5 }] := by decide +kernel
  cases hsync : syncInbound 5 emptyDB 1 [suspended] with
  | error e =>
    rw [hsync] at hlist
    cases hlist
  | ok db' =>
    rw [hsync] at hlist
    have hvalid : ∀ c ∈ [suspended], Xray.validateClientEmail c.email = .ok () := by decide +kernel
    have hreal := hclaim 5 emptyDB 1 [suspended] db' nodup_nil hvalid hsync
    have hlisted : Credentials.listForInbound db' 1 = [_] := Option.some.inj hlist
    have honce := hreal.once _ (by rw [hlisted]; exact mem_singleton_self _) suspended
      (by decide +kernel)
    exact absurd honce (by decide)

theorem syncInbound_realised_enabled : Realised emptyDB 1 [{ suspended with enable := true }]
      ((syncInbound 5 emptyDB 1 [{ suspended with enable := true }]).toOption.getD emptyDB) ↔
    SettledFresh emptyDB [{ suspended with enable := true }] := by
  have hsync : syncInbound 5 emptyDB 1 [{ suspended with enable := true }] =
      .ok ((syncInbound 5 emptyDB 1 [{ suspended with enable := true }]).toOption.getD emptyDB) := rfl
  exact syncInbound_realised_iff nodup_nil hsync

end examples

end ListSync

end QuiPanel
