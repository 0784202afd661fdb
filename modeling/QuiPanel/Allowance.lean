import QuiPanel.BulkAdjust

namespace QuiPanel

namespace Allowance

open Keyed Outcome Clients ListSync BulkAdjust List

def InInt64 (n : Int) : Prop := -2 ^ 63 ≤ n ∧ n < 2 ^ 63

instance (n : Int) : Decidable (InInt64 n) := inferInstanceAs (Decidable (_ ∧ _))

def allowance (totalGB : Int) : WithTop Int := if totalGB = 0 then ⊤ else totalGB

def NoLonger (expiryTime expiryTime' : Int) : Prop :=
  expiryTime' = 0 ∨ 0 < expiryTime ∧ expiryTime ≤ expiryTime' ∨ expiryTime < 0 ∧ expiryTime' ≤ expiryTime

structure QuotaMonotone (addBytes total total' : Int) : Prop where
  lowered : addBytes < 0 → allowance total' ≤ allowance total
  raised : 0 < addBytes → allowance total ≤ allowance total'
  limited : total ≠ 0 → total' ≠ 0

structure ValidityMonotone (addDays expiry expiry' : Int) : Prop where
  shortened : addDays < 0 → NoLonger expiry' expiry
  extended : 0 < addDays → NoLonger expiry expiry'
  limited : expiry ≠ 0 → expiry' ≠ 0

def Monotone (addDays addBytes : Int) (old new : Int × Int) : Prop :=
  QuotaMonotone addBytes old.1 new.1 ∧ ValidityMonotone addDays old.2 new.2

def QuotaKept (addBytes total : Int) : Prop :=
  addBytes = 0 ∨ total = 0 ∨ 0 < total + addBytes ∧ total + addBytes < 2 ^ 63

def ExpiryKept (addDays expiry : Int) : Prop :=
  0 ≤ addDays * addExpiryMs addDays ∨ expiry = 0 ∨
    0 < expiry ∧ wrap64 (expiry + addExpiryMs addDays) ≤ 0 ∨
      expiry < 0 ∧ 0 ≤ wrap64 (expiry - addExpiryMs addDays)

structure MonotoneFor (addDays addBytes : Int) (old : Int × Int) (db' : DB) (r : ClientRecord) : Prop where
  record : ∀ r', db'.records.find r.recordId = some r' → Monotone addDays addBytes old (limits r'.toClient)
  entries : ∀ i, ∀ c ∈ occurrences (db'.settingsClients i) r.email, Monotone addDays addBytes old (limits c)
  rows : ∀ t ∈ db'.traffics, t.email = r.email → Monotone addDays addBytes old (rowLimits t)

section arithmetic

variable {addDays addBytes total total' expiry n : Int} {r : ClientRecord}

theorem wrap64_eq (hlo : -2 ^ 64 ≤ n) (hhi : n < 2 ^ 64) :
    wrap64 n = if n < -2 ^ 63 then n + 2 ^ 64 else if n < 2 ^ 63 then n else n - 2 ^ 64 := by
  rw [wrap64, Int.bmod_def]
  split_ifs <;> omega

theorem inInt64_wrap64 (n : Int) : InInt64 (wrap64 n) := by
  rw [wrap64, Int.bmod_def, InInt64]
  split_ifs <;> omega

theorem allowance_le_iff : allowance total ≤ allowance total' ↔ total' = 0 ∨ total ≠ 0 ∧ total ≤ total' := by
  rw [allowance, allowance]
  split_ifs with h h' h'
  · simp [h']
  · simp [h, h']
  · simp [h']
  · simp [h, h']

theorem quotaMonotone_iff (ht : InInt64 total) (hb : InInt64 addBytes) :
    QuotaMonotone addBytes total ((chosen (planTotal addBytes total)).getD total) ↔ QuotaKept addBytes total := by
  rw [planTotal, QuotaKept]
  by_cases hzero : addBytes = 0
  · rw [if_pos hzero]
    exact iff_of_true ⟨fun h => absurd hzero h.ne, fun h => absurd hzero h.ne', id⟩ (.inl hzero)
  · rw [if_neg hzero]
    by_cases hunlimited : total = 0
    · rw [if_pos hunlimited]
      exact iff_of_true ⟨fun _ => le_rfl, fun _ => le_rfl, id⟩ (.inr (.inl hunlimited))
    · rw [if_neg hunlimited]
      have hchosen : (chosen (.ok (some (max (wrap64 (total + addBytes)) 0)))).getD total =
          max (wrap64 (total + addBytes)) 0 := rfl
      rw [InInt64] at ht hb
      have hwrap := wrap64_eq (n := total + addBytes) (by omega) (by omega)
      rw [hchosen, hwrap]
      constructor
      · rintro ⟨hlowered, hraised, hlimited⟩
        rw [allowance_le_iff] at hlowered hraised
        have hnonzero := hlimited hunlimited
        split_ifs at * <;> omega
      · intro hkept
        have hrange : 0 < total + addBytes ∧ total + addBytes < 2 ^ 63 := by omega
        rw [if_neg (by omega), if_pos hrange.2, max_eq_left (by omega)]
        refine ⟨fun hneg => ?_, fun hpos => ?_, fun _ => by omega⟩
        · rw [allowance_le_iff]
          omega
        · rw [allowance_le_iff]
          omega

theorem sign_iff {days ms : Int} (hdays : days ≠ 0) :
    0 ≤ days * ms ↔ (days < 0 → ms ≤ 0) ∧ (0 < days → 0 ≤ ms) := by
  rcases hdays.lt_or_gt with hneg | hpos
  · have hiff : 0 ≤ days * ms ↔ ms ≤ 0 := by
      constructor
      · intro h
        by_contra hms
        have := mul_neg_of_neg_of_pos hneg (not_le.mp hms)
        omega
      · exact fun h => mul_nonneg_of_nonpos_of_nonpos hneg.le h
    rw [hiff]
    exact ⟨fun h => ⟨fun _ => h, fun h' => by omega⟩, fun h => h.1 hneg⟩
  · have hiff : 0 ≤ days * ms ↔ 0 ≤ ms := by
      constructor
      · intro h
        by_contra hms
        have := mul_neg_of_pos_of_neg hpos (not_le.mp hms)
        omega
      · exact fun h => mul_nonneg hpos.le h
    rw [hiff]
    exact ⟨fun h => ⟨fun h' => by omega, fun _ => h⟩, fun h => h.2 hpos⟩

theorem validityMonotone_self : ValidityMonotone addDays expiry expiry := by
  refine ⟨fun _ => ?_, fun _ => ?_, id⟩
  all_goals
    rw [NoLonger]
    omega

theorem plannedExpiry_eq : (chosen (planExpiry addDays expiry)).getD expiry =
    if addDays = 0 ∨ expiry = 0 then expiry
    else if 0 < expiry then
      if wrap64 (expiry + addExpiryMs addDays) ≤ 0 then expiry else wrap64 (expiry + addExpiryMs addDays)
    else if 0 ≤ wrap64 (expiry - addExpiryMs addDays) then expiry
    else wrap64 (expiry - addExpiryMs addDays) := by
  rw [planExpiry]
  dsimp only
  split_ifs <;> first | rfl | omega

theorem validity_absolute {ms : Int} (he : InInt64 expiry) (hms : InInt64 ms) (hpos : 0 < expiry) :
    ValidityMonotone addDays expiry (if wrap64 (expiry + ms) ≤ 0 then expiry else wrap64 (expiry + ms)) ↔
      (addDays < 0 → ms ≤ 0) ∧ (0 < addDays → 0 ≤ ms) ∨ wrap64 (expiry + ms) ≤ 0 := by
  rw [InInt64] at he hms
  have hwrap := wrap64_eq (n := expiry + ms) (by omega) (by omega)
  by_cases hrefused : wrap64 (expiry + ms) ≤ 0
  · rw [if_pos hrefused]
    exact iff_of_true validityMonotone_self (.inr hrefused)
  · have hexact : wrap64 (expiry + ms) = expiry + ms := by
      rw [hwrap] at hrefused ⊢
      split_ifs at hrefused ⊢ <;> omega
    rw [if_neg hrefused, or_iff_left hrefused, hexact]
    rw [hexact] at hrefused
    constructor
    · rintro ⟨hshortened, hextended, -⟩
      simp only [NoLonger] at hshortened hextended
      omega
    · intro hsign
      refine ⟨fun hneg => ?_, fun hpos' => ?_, fun _ => by omega⟩
      all_goals
        rw [NoLonger]
        omega

theorem validity_delayed {ms : Int} (he : InInt64 expiry) (hms : InInt64 ms) (hneg : expiry < 0) :
    ValidityMonotone addDays expiry (if 0 ≤ wrap64 (expiry - ms) then expiry else wrap64 (expiry - ms)) ↔
      (addDays < 0 → ms ≤ 0) ∧ (0 < addDays → 0 ≤ ms) ∨ 0 ≤ wrap64 (expiry - ms) := by
  rw [InInt64] at he hms
  have hwrap := wrap64_eq (n := expiry - ms) (by omega) (by omega)
  by_cases hrefused : 0 ≤ wrap64 (expiry - ms)
  · rw [if_pos hrefused]
    exact iff_of_true validityMonotone_self (.inr hrefused)
  · have hexact : wrap64 (expiry - ms) = expiry - ms := by
      rw [hwrap] at hrefused ⊢
      split_ifs at hrefused ⊢ <;> omega
    rw [if_neg hrefused, or_iff_left hrefused, hexact]
    rw [hexact] at hrefused
    constructor
    · rintro ⟨hshortened, hextended, -⟩
      simp only [NoLonger] at hshortened hextended
      omega
    · intro hsign
      refine ⟨fun hneg' => ?_, fun hpos => ?_, fun _ => by omega⟩
      all_goals
        rw [NoLonger]
        omega

theorem validityMonotone_iff (he : InInt64 expiry) :
    ValidityMonotone addDays expiry ((chosen (planExpiry addDays expiry)).getD expiry) ↔
      ExpiryKept addDays expiry := by
  rw [plannedExpiry_eq, ExpiryKept]
  have hms := inInt64_wrap64 (addDays * 24 * 60 * 60 * 1000)
  rw [← addExpiryMs] at hms
  by_cases hdays : addDays = 0
  · rw [if_pos (.inl hdays)]
    exact iff_of_true validityMonotone_self (.inl (by rw [hdays, zero_mul]))
  · rw [sign_iff hdays]
    by_cases hunlimited : expiry = 0
    · rw [if_pos (.inr hunlimited)]
      exact iff_of_true validityMonotone_self (.inr (.inl hunlimited))
    · rw [if_neg (not_or.mpr ⟨hdays, hunlimited⟩)]
      rcases lt_or_gt_of_ne hunlimited with hneg | hpos
      · rw [if_neg (by omega), validity_delayed he hms hneg]
        simp [hunlimited, hneg, hneg.not_gt]
      · rw [if_pos hpos, validity_absolute he hms hpos]
        simp [hunlimited, hpos, hpos.not_gt]

theorem monotone_iff (hb : InInt64 addBytes) (ht : InInt64 r.totalGB) (he : InInt64 r.expiryTime) :
    Monotone addDays addBytes (limits r.toClient) (newLimits addDays addBytes r) ↔
      QuotaKept addBytes r.totalGB ∧ ExpiryKept addDays r.expiryTime :=
  and_congr (quotaMonotone_iff ht hb) (validityMonotone_iff he)

theorem monotone_self (old : Int × Int) : Monotone addDays addBytes old old :=
  ⟨⟨fun _ => le_rfl, fun _ => le_rfl, id⟩, validityMonotone_self⟩

end arithmetic

section runs

variable {f : Faults} {V : Int × Int → Prop} {plan : String → Option Entry} {run : Run} {db db' : DB} {id i : Int}
  {emails ids : List String} {email e : String} {addDays addBytes : Int} {r : ClientRecord} {c : Client}
  {entry : Entry} {v : Int × Int}

structure Within (V : Int × Int → Prop) (db : DB) (id : Int) (email : String) : Prop where
  record : ∃ r, db.records.find id = some r ∧ r.email = email ∧ V (limits r.toClient)
  entries : ∀ i, ∀ c ∈ occurrences (db.settingsClients i) email, V (limits c)
  rows : ∀ t ∈ db.traffics, t.email = email → V (rowLimits t)

def Respects (V : Int × Int → Prop) (f : Faults) (plan : String → Option Entry) (emails : List String)
    (email : String) : Prop :=
  ∀ c, Text.trimSpace c.email = email → V (limits c) → V (limits (adjustEntry f plan emails c))

theorem Within.sync {now : Int} {cs : List Client} (h : Within V db id email)
    (hfind : (db.inbounds.find i).isSome) (hcs : ∀ c ∈ occurrences cs email, V (limits c))
    (hsync : ListSync.syncInbound now (saveClients db i cs) i cs = .ok db') : Within V db' id email := by
  obtain ⟨hsettings, htraffics, hrecords⟩ := sync_saved hfind hsync
  obtain ⟨r, hr, hemail, hV⟩ := h.record
  refine ⟨⟨_, hrecords id r hr, mergeAll_email.trans hemail, ?_⟩, fun j c hc => ?_, htraffics ▸ h.rows⟩
  · rw [mergeAll_limits]
    cases hlast : (occurrences (named cs) r.email).getLast? with
    | none => exact hV
    | some c =>
      obtain ⟨hmem, hname⟩ := mem_filter.mp (mem_of_getLast? hlast)
      refine hcs c (mem_filter.mpr ⟨(mem_filter.mp hmem).1, ?_⟩)
      rw [← hemail]
      exact hname
  · rw [hsettings j] at hc
    split at hc
    · exact hcs c hc
    · exact h.entries j c hc

theorem Within.inbound (h : Within V run.db id email) (hplan : Respects V f plan emails email) :
    Within V (bulkAdjustInboundClients f plan run i emails).db id email := by
  rw [bulkAdjustInboundClients]
  cases hload : getInbound f run.db i with
  | error err => exact h
  | ok ib =>
    have hfind : run.db.inbounds.find i = some ib := by
      simp only [getInbound, bind_ok, orErr_ok] at hload
      obtain ⟨_, -, hfind⟩ := hload
      exact hfind
    have hcs : ∀ c ∈ occurrences ((ib.clients.getD []).map (adjustEntry f plan emails)) email, V (limits c) := by
      intro c hc
      obtain ⟨hmem, hname⟩ := mem_filter.mp hc
      obtain ⟨c₀, hc₀, rfl⟩ := mem_map.mp hmem
      rw [adjustEntry_email] at hname
      refine hplan c₀ (by simpa using hname) (h.entries i c₀ (mem_filter.mpr ⟨?_, hname⟩))
      rw [settingsClients_find hfind]
      exact hc₀
    simp only
    split
    · exact h
    · have hkept : ∀ perr : Option String, ∀ missing found,
          (perr.elim { run with skipped := missing } (Run.failAll { run with skipped := missing } found)).db =
            run.db := by
        intro perr missing found
        cases perr <;> rfl
      split
      case h_1 =>
        refine (congrArg (Within V · id email) ?_).mpr h
        exact hkept _ _ _
      case h_2 db' hsync =>
        rw [hkept] at hsync
        simp only [bind_ok] at hsync
        obtain ⟨_, -, hsync⟩ := hsync
        exact h.sync (by rw [hfind]; rfl) hcs hsync

theorem Within.inbounds {want : Int → List String} (hplan : ∀ i, Respects V f plan (want i) email)
    {ids : List Int} (h : Within V run.db id email) :
    Within V (ids.foldl (fun run i => bulkAdjustInboundClients f plan run i (want i)) run).db id email := by
  induction ids generalizing run with
  | nil => exact h
  | cons i ids ih => exact ih (h.inbound (hplan i))

def applied (entry : Entry) (v : Int × Int) : Int × Int := (entry.newTotal.getD v.1, entry.newExpiry.getD v.2)

theorem adjustTraffics_within {planned : List String}
    (hV : ∀ entry v, planFor addDays addBytes db email = some entry → V v → V (applied entry v))
    (h : ∀ t ∈ run.db.traffics, t.email = email → V (rowLimits t)) :
    ∀ t ∈ adjustTraffics f addDays addBytes db run planned, t.email = email → V (rowLimits t) := by
  rw [adjustTraffics]
  generalize run.db.traffics = traffics at h ⊢
  induction planned generalizing traffics with
  | nil => exact h
  | cons e planned ih =>
    rw [foldl_cons]
    refine ih _ ?_
    cases hplan : planFor addDays addBytes db e with
    | none => exact h
    | some entry =>
      simp only
      split
      · exact h
      · intro t ht hname
        obtain ⟨t₀, ht₀, rfl⟩ := mem_map.mp ht
        split at hname
        case isTrue hown =>
          rw [if_pos hown]
          have hname : t₀.email = email := hname
          exact hV entry _ (by rw [← hname, hown]; exact hplan) (h t₀ ht₀ hname)
        case isFalse hother =>
          rw [if_neg hother]
          exact h t₀ ht₀ hname

def OldOrNew (addDays addBytes : Int) (r : ClientRecord) (v : Int × Int) : Prop :=
  v = limits r.toClient ∨ v = newLimits addDays addBytes r

theorem applied_oldOrNew (hentry : entryFor addDays addBytes r = some entry)
    (h : OldOrNew addDays addBytes r v) : applied entry v = newLimits addDays addBytes r := by
  rw [entryFor] at hentry
  split at hentry
  case isFalse => cases hentry
  case isTrue =>
    cases hentry
    rcases h with rfl | rfl
    · rfl
    · simp only [applied, newLimits]
      cases chosen (planTotal addBytes r.totalGB) <;> cases chosen (planExpiry addDays r.expiryTime) <;> rfl

theorem wanted_respects (hunique : (Clients.emails db.records).Nodup) (hr : r ∈ db.records.rows) (i : Int) :
    Respects (OldOrNew addDays addBytes r) f (planFor addDays addBytes db)
      (wantedOf addDays addBytes db emails i) r.email := by
  intro c hname hV
  by_cases hin : c.email ∈ wantedOf addDays addBytes db emails i
  · have hexact : c.email = r.email := by rw [← hname, trimmed_of_clean (wanted_record hin).1]
    rw [adjustEntry, if_pos (by simpa using hin), hexact, planFor_of_mem hunique hr]
    cases hentry : entryFor addDays addBytes r with
    | none => exact hV
    | some entry => exact .inr (applied_oldOrNew hentry hV)
  · rw [adjustEntry_unwanted hin]
    exact hV

theorem bulkAdjust_within (hunique : (Clients.emails db.records).Nodup) (hr : r ∈ db.records.rows)
    (hagree : Agree db r) :
    Within (OldOrNew addDays addBytes r) (bulkAdjust f db emails addDays addBytes).1 r.recordId r.email := by
  have hstart : Within (OldOrNew addDays addBytes r) db r.recordId r.email :=
    ⟨⟨r, Table.find_of_mem hr, rfl, .inl rfl⟩, fun i c hc => .inl (hagree.entries i c hc),
      fun t ht he => .inl (hagree.rows t ht he)⟩
  rw [bulkAdjust]
  dsimp only
  split_ifs
  · exact hstart
  · exact hstart
  · exact hstart
  · split
    · exact hstart
    · have hrun : Within (OldOrNew addDays addBytes r) (runOf f addDays addBytes db emails).db r.recordId
          r.email :=
        Within.inbounds (fun i => wanted_respects hunique hr i) hstart
      refine ⟨hrun.record, hrun.entries, adjustTraffics_within (fun entry v hplan hV => ?_) hrun.rows⟩
      rw [planFor_of_mem hunique hr] at hplan
      exact .inr (applied_oldOrNew hplan hV)

theorem monotoneFor_of_kept (hunique : (Clients.emails db.records).Nodup) (hr : r ∈ db.records.rows)
    (hagree : Agree db r)
    (h : Monotone addDays addBytes (limits r.toClient) (newLimits addDays addBytes r)) :
    MonotoneFor addDays addBytes (limits r.toClient) (bulkAdjust f db emails addDays addBytes).1 r := by
  have hV : ∀ v, OldOrNew addDays addBytes r v → Monotone addDays addBytes (limits r.toClient) v := by
    rintro v (rfl | rfl)
    · exact monotone_self _
    · exact h
  obtain ⟨⟨r', hfind, -, hlimits⟩, hentries, hrows⟩ :=
    @bulkAdjust_within f db emails addDays addBytes r hunique hr hagree
  refine ⟨fun r₁ hr₁ => ?_, fun i c hc => hV _ (hentries i c hc), fun t ht he => hV _ (hrows t ht he)⟩
  obtain rfl := Option.some.inj (hfind.symm.trans hr₁)
  exact hV _ hlimits

end runs

section attached

variable {addDays addBytes total expiry : Int} {e : String}

variable {plan : String → Option Entry}

theorem failures_inbound {f : Faults} {run : Run} {i : Int} {emails : List String}
    {ib : Inbound} {db' : DB} (hload : getInbound f run.db i = .ok ib) (hlocal : ib.nodeId = none)
    (hwrite : f.write i = none)
    (hsync : ListSync.syncInbound f.now
      (saveClients run.db i ((ib.clients.getD []).map (adjustEntry f plan emails))) i
      ((ib.clients.getD []).map (adjustEntry f plan emails)) = .ok db') :
    (bulkAdjustInboundClients f plan run i emails).failures = run.failures := by
  have hsynced : (do
      check (f.write i).isNone ((f.write i).getD "")
      ListSync.syncInbound f.now
        (saveClients run.db i ((ib.clients.getD []).map (adjustEntry f plan emails))) i
        ((ib.clients.getD []).map (adjustEntry f plan emails))) = .ok db' := by
    rw [hwrite]
    exact hsync
  have hplan : (if ib.nodeId.isSome then f.nodePlan i else none) = none := by rw [hlocal]; rfl
  rw [bulkAdjustInboundClients, hload]
  simp only [hplan, Option.elim_none, hsynced]
  split <;> rfl

theorem adjusted_email {emails : List String} :
    (adjustEntry calm plan emails (holder total expiry)).email = "alice" :=
  adjustEntry_email

theorem sync_alice (c : Client) (hc : c.email = "alice") :
    ∃ db', ListSync.syncInbound 9 (saveClients (attachedOnce total expiry) 1 [c]) 1 [c] = .ok db' := by
  have hcovered : ∀ e ∈ distinctEmails [c], e ∈ Clients.emails (attachedOnce total expiry).records := by
    intro e he
    obtain ⟨-, first, hfirst⟩ := mem_distinctEmails.mp he
    obtain ⟨hmem, rfl⟩ := email_of_head hfirst
    have htrim : Text.trimSpace "alice" = "alice" := by decide
    rw [mem_singleton.mp hmem, hc, htrim]
    exact mem_cons_self
  exact ⟨_, syncInbound_covered hcovered⟩

theorem planned_alice (h : (entryFor addDays addBytes (holderRecord total expiry)).isSome) :
    plannedEmails addDays addBytes (attachedOnce total expiry) ["alice"] = ["alice"] := by
  have hclean : cleanEmails ["alice"] = ["alice"] := by decide
  have hrecord : (attachedOnce total expiry).record "alice" = some (holderRecord total expiry) := rfl
  have hplan : planFor addDays addBytes (attachedOnce total expiry) "alice" =
      entryFor addDays addBytes (holderRecord total expiry) := by
    rw [planFor, hrecord]
    rfl
  rw [plannedEmails, hclean, filter_cons_of_pos (by rw [hplan]; exact h), filter_nil]

theorem calm_failures (plan : String → Option Entry) :
    (adjustInbounds calm plan (attachedOnce total expiry) ["alice"]).failures = [] := by
  obtain ⟨db', hsync⟩ := @sync_alice total expiry
    (adjustEntry calm plan ["alice"] (holder total expiry)) adjusted_email
  have hmapped : mappedInbounds (attachedOnce total expiry) ["alice"] = [1] := rfl
  have hwanted : wanted (attachedOnce total expiry) ["alice"] 1 = ["alice"] := rfl
  have hload : getInbound calm (attachedOnce total expiry) 1 =
      .ok ⟨1, .vless, none, "", true, some [holder total expiry]⟩ := rfl
  have horder : calm.order [1] = [1] := rfl
  rw [adjustInbounds, hmapped, horder, foldl_cons, foldl_nil, hwanted]
  exact failures_inbound hload rfl rfl hsync

theorem calm_faultless (h : (entryFor addDays addBytes (holderRecord total expiry)).isSome) :
    Faultless calm addDays addBytes (attachedOnce total expiry) ["alice"] := by
  refine ⟨?_, fun _ => rfl⟩
  rw [planned_alice h]
  exact calm_failures _

theorem asked_of_entry {r : ClientRecord} (h : (entryFor addDays addBytes r).isSome) :
    ¬(addDays = 0 ∧ addBytes = 0) := by
  rintro ⟨rfl, rfl⟩
  rw [entryFor, planExpiry, planTotal, if_pos rfl, if_pos rfl] at h
  cases h

theorem adjusted_entry (h : (entryFor addDays addBytes (holderRecord total expiry)).isSome) :
    ∃ c ∈ occurrences
      ((bulkAdjust calm (attachedOnce total expiry) ["alice"] addDays addBytes).1.settingsClients 1) "alice",
      limits c = newLimits addDays addBytes (holderRecord total expiry) := by
  have hunique : (Clients.emails (attachedOnce total expiry).records).Nodup := nodup_singleton _
  have hr : holderRecord total expiry ∈ (attachedOnce total expiry).records.rows := mem_singleton_self _
  have hclean : cleanEmails ["alice"] = ["alice"] := by decide
  have htrim : Text.trimSpace "alice" = "alice" := by decide
  have hfaultless := calm_faultless h
  have hfinal : (bulkAdjust calm (attachedOnce total expiry) ["alice"] addDays addBytes).1 =
      finalDB calm addDays addBytes (attachedOnce total expiry) ["alice"] := by
    rw [bulkAdjust, if_neg (cons_ne_nil _ _), if_neg (asked_of_entry h), hclean,
      if_neg (cons_ne_nil _ _)]
    simp only [finalDB, runOf, plannedEmails, hclean]
    rfl
  have hocc : holder total expiry ∈ occurrences ((attachedOnce total expiry).settingsClients 1) "alice" :=
    mem_filter.mpr ⟨mem_singleton_self _, beq_iff_eq.mpr htrim⟩
  have hwanted : (holderRecord total expiry).email ∈
      wantedOf addDays addBytes (attachedOnce total expiry) ["alice"] 1 := by
    refine (mem_wanted hunique hr).mpr ⟨?_, h, mem_singleton_self _⟩
    rw [hclean]
    exact mem_singleton_self _
  refine ⟨adjustEntry calm (planFor addDays addBytes (attachedOnce total expiry))
    (wantedOf addDays addBytes (attachedOnce total expiry) ["alice"] 1) (holder total expiry), ?_, ?_⟩
  · rw [hfinal, occurrences_final hfaultless]
    exact mem_map_of_mem hocc
  · exact (limits_adjustEntry (c := holder total expiry) hunique hr rfl htrim).trans (if_pos ⟨rfl, hwanted⟩)

theorem bulkAdjust_monotone_iff (hb : InInt64 addBytes) (ht : InInt64 total) (he : InInt64 expiry) :
    (∀ f db listed r, (Clients.emails db.records).Nodup → r ∈ db.records.rows →
      limits r.toClient = (total, expiry) → Agree db r →
        MonotoneFor addDays addBytes (total, expiry) (bulkAdjust f db listed addDays addBytes).1 r) ↔
      QuotaKept addBytes total ∧ ExpiryKept addDays expiry := by
  have hiff : Monotone addDays addBytes (total, expiry) (newLimits addDays addBytes (holderRecord total expiry)) ↔
      QuotaKept addBytes total ∧ ExpiryKept addDays expiry :=
    @monotone_iff addDays addBytes (holderRecord total expiry) hb ht he
  constructor
  · intro hall
    refine hiff.mp ?_
    cases hentry : entryFor addDays addBytes (holderRecord total expiry) with
    | none =>
      have hsame : newLimits addDays addBytes (holderRecord total expiry) = (total, expiry) := by
        by_contra hne
        have hsome := entryFor_of_changed (r := holderRecord total expiry) hne
        rw [hentry] at hsome
        cases hsome
      rw [hsame]
      exact monotone_self _
    | some entry =>
      obtain ⟨c, hc, hlimits⟩ := @adjusted_entry addDays addBytes total expiry (by rw [hentry]; rfl)
      have hmono := hall calm (attachedOnce total expiry) ["alice"] (holderRecord total expiry)
        (nodup_singleton _) (mem_singleton_self _) rfl (attachedOnce_agrees total expiry).2
      rw [← hlimits]
      exact hmono.entries 1 c hc
  · intro hkept f db listed r hunique hr hlimits hagree
    rw [← hlimits]
    refine monotoneFor_of_kept hunique hr hagree ?_
    simp only [limits, Prod.mk.injEq] at hlimits
    obtain ⟨rfl, rfl⟩ := hlimits
    exact (monotone_iff hb ht he).mpr hkept

theorem exhausted_quota_unlimited : ¬ ∀ f db listed addDays addBytes r, InInt64 addBytes →
    InInt64 r.totalGB → InInt64 r.expiryTime → (Clients.emails db.records).Nodup →
    r ∈ db.records.rows → Agree db r → MonotoneFor addDays addBytes (limits r.toClient)
      (bulkAdjust f db listed addDays addBytes).1 r := by
  intro hclaim
  have hmono := hclaim calm (attachedOnce 100 0) ["alice"] 0 (-100) (holderRecord 100 0) (by decide +kernel)
    (by decide +kernel) (by decide +kernel) (nodup_singleton _) (mem_singleton_self _)
    (attachedOnce_agrees 100 0).2
  obtain ⟨c, hc, hlimits⟩ := @adjusted_entry 0 (-100) 100 0 (by decide)
  have hunlimited : newLimits 0 (-100) (holderRecord 100 0) = (0, 0) := by decide
  have hlimited := (hmono.entries 1 c hc).1.limited
  rw [hlimits, hunlimited] at hlimited
  exact hlimited (by decide) rfl

theorem bulkAdjust_monotone_month :
    (∀ f db listed r, (Clients.emails db.records).Nodup → r ∈ db.records.rows →
      limits r.toClient = (100, 1000) → Agree db r →
        MonotoneFor 30 50 (100, 1000) (bulkAdjust f db listed 30 50).1 r) ↔
      QuotaKept 50 100 ∧ ExpiryKept 30 1000 :=
  bulkAdjust_monotone_iff (by decide +kernel) (by decide +kernel) (by decide +kernel)

end attached

end Allowance

end QuiPanel
