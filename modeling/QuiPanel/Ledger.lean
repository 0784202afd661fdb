import QuiPanel.Panel

namespace QuiPanel

open ReadCommitted

namespace Ledger

def log (tr : Trace) : List Transaction := tr.flatMap Event.entries

theorem log_append (tr tr' : Trace) : log (tr ++ tr') = log tr ++ log tr' := List.flatMap_append

theorem log_cons (ev : Event panel) (tr : Trace) : log (ev :: tr) = ev.entries ++ log tr :=
  List.flatMap_cons

theorem log_quiet {tr : Trace} (h : Call.Quiet tr) : log tr = [] := by
  refine List.flatMap_eq_nil_iff.mpr ?_
  intro ev he
  cases ev with
  | commit p => exact absurd he (h p)
  | _ => rfl

def entries (id : Int) (log : List Transaction) : List Transaction :=
  log.filter (·.userId == id)

def signed (e : Transaction) : Int :=
  match e.type with
  | .credit => e.amount.toInt
  | .debit => -e.amount.toInt

def moved (e : Transaction) : Int := e.balanceAfter.toInt - e.balanceBefore.toInt

structure Valid (e : Transaction) : Prop where
  amount : e.amount.toInt = |moved e|
  positive : 0 < e.amount.toInt
  credit : e.type = .credit ↔ e.balanceBefore < e.balanceAfter

def Chain : List Transaction → Int64 → Int64 → Prop
  | [], b, c => b = c
  | e :: es, b, c => e.balanceBefore = b ∧ Valid e ∧ Chain es e.balanceAfter c

theorem chain_append {es es' : List Transaction} {a b c : Int64} (h : Chain es a b)
    (h' : Chain es' b c) : Chain (es ++ es') a c := by
  induction es generalizing a with
  | nil =>
    cases h
    exact h'
  | cons e es ih =>
    obtain ⟨hb, hv, hrest⟩ := h
    exact ⟨hb, hv, ih hrest⟩

theorem signed_eq_moved {e : Transaction} (h : Valid e) : signed e = moved e := by
  have ha := h.amount
  have hp := h.positive
  have hlt : e.balanceBefore < e.balanceAfter ↔ 0 < moved e := by
    rw [Int64.lt_iff_toInt_lt]
    unfold moved
    omega
  unfold signed
  cases ht : e.type with
  | credit =>
    have hm := hlt.mp (h.credit.mp ht)
    rw [abs_of_pos hm] at ha
    exact ha
  | debit =>
    have hm : ¬0 < moved e := by
      intro hm
      have := h.credit.mpr (hlt.mpr hm)
      simp [ht] at this
    rw [abs_of_nonpos (by omega)] at ha
    simp only
    omega

variable {es : List Transaction}

theorem chain_sum {b c : Int64} (h : Chain es b c) :
    c.toInt = b.toInt + (es.map signed).sum := by
  induction es generalizing b with
  | nil =>
    cases h
    simp
  | cons e es ih =>
    obtain ⟨rfl, hv, hrest⟩ := h
    have hs := signed_eq_moved hv
    simp only [List.map_cons, List.sum_cons, ih hrest, hs, moved]
    omega

theorem chain_valid {b c : Int64} (h : Chain es b c) :
    ∀ e ∈ es, Valid e := by
  induction es generalizing b with
  | nil => simp
  | cons e es ih =>
    obtain ⟨-, hv, hrest⟩ := h
    intro e' he
    rcases List.mem_cons.mp he with rfl | he
    · exact hv
    · exact ih hrest e' he

theorem chain_links {b c : Int64} (h : Chain es b c) :
    es.IsChain fun e e' => e.balanceAfter = e'.balanceBefore := by
  induction es generalizing b with
  | nil => exact .nil
  | cons e es ih =>
    obtain ⟨-, -, hrest⟩ := h
    cases es with
    | nil => exact .singleton _
    | cons e' es => exact .cons_cons hrest.1.symm (ih hrest)

theorem valid_entry {leg : Leg} {u : User} (hleg : leg.Valid) (hb : 0 ≤ u.balance)
    (hfit : ¬u.balance + leg.delta < 0) : Valid (leg.entry u) := by
  have hexact := balance_exact hb hfit
  have hmoved : moved (leg.entry u) = leg.delta.toInt := by
    simp only [moved, Leg.entry, hexact]
    omega
  have h₀ : (0 : Int64).toInt = 0 := rfl
  have hne : leg.delta.toInt ≠ 0 := fun h => hleg.1 (Int64.toInt_inj.mp h)
  have hbound := u.balance.toInt_lt
  have hb := Int64.le_iff_toInt_le.mp hb
  have hfit : ¬(u.balance + leg.delta).toInt < 0 := fun h => hfit (Int64.lt_iff_toInt_lt.mpr h)
  have hrise : u.balance < u.balance + leg.delta ↔ 0 < leg.delta.toInt := by
    rw [Int64.lt_iff_toInt_lt, hexact]
    omega
  by_cases hneg : leg.delta < 0
  · have hlt := Int64.lt_iff_toInt_lt.mp hneg
    have hamount : (leg.entry u).amount.toInt = -leg.delta.toInt := by
      simp only [Leg.entry, hneg, if_true, Int64.toInt_neg, Int.bmod_def]
      split <;> omega
    refine ⟨?_, by omega, ?_⟩
    · rw [hamount, hmoved, abs_of_neg (by omega)]
    · simp only [Leg.entry, hleg.2, hneg, if_true, hrise, reduceCtorEq, false_iff]
      omega
  · have hge : ¬leg.delta.toInt < 0 := fun h => hneg (Int64.lt_iff_toInt_lt.mpr h)
    have hamount : (leg.entry u).amount.toInt = leg.delta.toInt := by
      simp only [Leg.entry, hneg, if_false]
    refine ⟨?_, by omega, ?_⟩
    · rw [hamount, hmoved, abs_of_pos (by omega)]
    · simp only [Leg.entry, hleg.2, hneg, if_false, hrise, true_iff]
      omega

def Balanced (p : Pending panel) : Prop :=
  ∀ id, match p.held (.user id) with
    | none => entries id p.log = []
    | some (old, new) => ∃ b : User, old = some b ∧ 0 ≤ (new : User).balance ∧
        Chain (entries id p.log) b.balance (new : User).balance

def Consistent (opening : Int → Int64) (s : Store panel) : Prop :=
  ∀ id, match s.row (.user id) with
    | none => entries id s.log = []
    | some u => 0 ≤ (u : User).balance ∧ Chain (entries id s.log) (opening id) (u : User).balance

theorem entries_append (id : Int) (log log' : List Transaction) :
    entries id (log ++ log') = entries id log ++ entries id log' := List.filter_append ..

theorem entries_single (id : Int) (e : Transaction) :
    entries id [e] = if e.userId = id then [e] else [] := by
  by_cases h : e.userId = id <;> simp [entries, h]

theorem posted_balanced {leg : Leg} {p p' : Pending panel} (hv : leg.Valid)
    (hfree : p.held (.user leg.user) = none) (hp : Balanced p) (h : Posted leg p p') :
    Balanced p' := by
  obtain ⟨u, v, hu, hpos, hfit, rfl⟩ := h
  have hvalid : Valid (leg.entry u) := valid_entry hv (hu ▸ hpos) (hu ▸ hfit)
  intro id
  have hlog := hp id
  simp only [Pending.note_log, Pending.put_log, Pending.note_held, entries_append, entries_single]
  by_cases he : id = leg.user
  · subst he
    rw [hfree] at hlog
    rw [Pending.put_held (S := panel), hfree]
    simp only [Option.map_none, Option.getD_none]
    refine ⟨v, rfl, Int64.not_lt.mp hfit, ?_⟩
    simp only [hlog, Leg.entry, if_true, List.nil_append]
    exact ⟨hu, hvalid, by simp [Chain, hu]⟩
  · have hkey : (Key.user id : panel.Key) ≠ Key.user leg.user := by simpa using he
    have hne : (leg.entry u).userId ≠ id := fun h => he h.symm
    rw [Pending.put_held_of_ne (S := panel) p _ _ hkey, if_neg hne, List.append_nil]
    exact hlog

theorem posting_balanced {legs : List Leg} {p p' : Pending panel} (hv : ∀ leg ∈ legs, leg.Valid)
    (hp : Balanced p) (h : Posting legs p p') : Balanced p' := by
  induction h with
  | nil => exact hp
  | cons hfree hposted _ ih =>
    have hhead := hv _ (List.mem_cons_self ..)
    exact ih (fun l hl => hv l (List.mem_cons_of_mem _ hl)) (posted_balanced hhead hfree hp hposted)

theorem balanced_apply {opening : Int → Int64} {p : Pending panel} {s : Store panel}
    (hp : Balanced p) (ha : p.Agrees s) (hs : Consistent opening s) :
    Consistent opening (p.apply s) := by
  intro id
  have hpid := hp id
  have hsid := hs id
  rw [Pending.apply_log, entries_append]
  cases hh : p.held (.user id) with
  | none =>
    rw [hh] at hpid
    rw [Pending.apply_row_of_free hh]
    simpa only [hpid, List.append_nil] using hsid
  | some b =>
    rw [hh] at hpid
    rw [Pending.apply_row_of_held hh]
    obtain ⟨old, hold, hpos, hchain⟩ := hpid
    rw [ha _ _ _ hh, hold] at hsid
    exact ⟨hpos, chain_append hsid.2 hchain⟩

theorem balanced_other {k : Key} {old : Option k.Row} {new : k.Row} (hk : ∀ id, k ≠ .user id) :
    Balanced (.one (S := panel) k old new) := by
  intro id
  rw [Pending.one_held_of_ne (S := panel) _ _ (Ne.symm (hk id))]
  rfl

theorem effect_balanced {R : Rely panel}
    (hR : ∀ id (d : ManualDepositRequest), R (.deposit id) (some d) → 0 < d.amount) {req : Request}
    {p : Pending panel} (h : Effect R req p) : Balanced p := by
  have hempty : Balanced .empty := fun _ => rfl
  cases h with
  | idle => exact hempty
  | wallet hv _ h => exact posting_balanced hv hempty h
  | order | opened | paid | failed | submitted | rejected => exact balanced_other (by simp)
  | approved hread _ _ _ _ _ h =>
    refine posting_balanced ?_ (balanced_other (by simp)) h
    intro leg hl
    obtain rfl := List.mem_singleton.mp hl
    exact Leg.valid_credit (hR _ _ hread)

end Ledger

def Request.atomic : Request → Err → Prop
  | .credit .., _ | .debit .., _ | .setBalance .., _ => True
  | .debitWorkspacePurchase .., _ | .refundWorkspacePurchase .., _ | .approve .., _ => True
  | .adjustBalance .., e => e ≠ .database
  | _, _ => False

namespace Ledger

def Undone (req : Request) (tr : Trace) (r : Except Err Reply) : Prop :=
  ∀ e, r = .error e → req.atomic e → Call.Quiet tr

section undone

variable {R : Rely panel} {α : Type}

def Atomic (x : Service α) (R : Rely panel) : Prop :=
  Call.Outside (S := panel) R (fun _ => True) x fun tr r => ∀ e, r = .error e → Call.Quiet tr

theorem atomic_withRetry {fn : Service α} {P : Call.Ends panel Err α}
    (h : Call.Inside (S := panel) R fn .empty P) : Atomic (WalletService.withRetry fn) R := by
  refine Call.Outside.mono (Call.outside_retry (P := fun _ _ => True) _
    (Call.inside_mono h fun _ _ _ _ _ _ => trivial) (fun _ _ _ => trivial)) ?_
  rintro tr r h e rfl
  exact h

theorem atomic_bind {β : Type} {x : Service β} {f : β → Service α}
    (hx : Call.Outside (S := panel) R (fun _ => True) x fun tr _ => Call.Quiet tr)
    (hf : ∀ b, Atomic (f b) R) : Atomic (x >>= f) R := by
  refine Call.outside_bind hx ?_ (fun tr e h _ _ => h)
  intro tr b hq
  refine Call.Outside.mono (hf b) ?_
  rintro tr' r h e rfl
  exact hq.append (h e rfl)

theorem atomic_throw (e : Err) : Atomic (throw e : Service α) R :=
  Call.outside_throw fun _ _ => Call.quiet_nil

theorem atomic_credit (hR : Funded R) (id : Int) (amount : Int64) (desc : String) (note : TxMeta) :
    Atomic (WalletService.creditWithMeta id amount desc note) R := by
  unfold WalletService.creditWithMeta
  split
  · exact atomic_throw _
  · exact atomic_withRetry (WalletService.inside_one hR ⟨id, amount, .credit, desc, note⟩)

theorem atomic_debit (hR : Funded R) (id : Int) (amount : Int64) (desc : String) (note : TxMeta) :
    Atomic (WalletService.debitWithMeta id amount desc note) R := by
  unfold WalletService.debitWithMeta
  split
  · exact atomic_throw _
  · exact atomic_withRetry (WalletService.inside_one hR ⟨id, -amount, .debit, desc, note⟩)

theorem atomic_setBalance (hR : Funded R) (id : Int) (target : Int64) (desc : String)
    {note : TxMeta} (hs : note.source ≠ .manualDeposit) :
    Atomic (WalletService.setBalanceWithMeta id target desc note) R := by
  unfold WalletService.setBalanceWithMeta
  split
  · exact atomic_throw _
  · exact atomic_withRetry (inside_deltaOf (.approve 0 0 ⟨0, true⟩) hR (target - ·) desc
      (fun _ => note) (fun _ => hs))

theorem looks_atomic {seller : Int} {legs : Int → List Leg} {Q : Int → Pending panel → α → Prop} {tr : Trace}
    {e : Err} (h : WalletService.Looks seller legs Q tr (.error e)) : Call.Quiet tr := by
  obtain ⟨look, m, tr', rfl, hlook, hq, -⟩ := h
  exact hlook.quiet.append hq

theorem atomic_debitWorkspacePurchase (hR : Funded R) (buyer : User) (seller : Int)
    (amount : Int64) (desc : String) (note : TxMeta) :
    Atomic (WalletService.debitWorkspacePurchase buyer seller amount desc note) R := by
  refine Call.Outside.mono (WalletService.outside_debitWorkspacePurchase hR
    fun _ _ _ _ => trivial) ?_
  rintro tr r h e rfl
  split at h
  · exact h.1 ▸ Call.quiet_nil
  · exact looks_atomic h

theorem atomic_refundWorkspacePurchase (hR : Funded R) (buyerId seller : Int)
    (amount : Int64) (desc : String) (note : TxMeta) :
    Atomic (WalletService.refundWorkspacePurchase buyerId seller amount desc note) R := by
  refine Call.Outside.mono (WalletService.outside_refundWorkspacePurchase hR
    fun _ _ _ _ => trivial) ?_
  rintro tr r h e rfl
  split at h
  · exact h.1 ▸ Call.quiet_nil
  · exact looks_atomic h

theorem quiet_get (id : Int) (scope : Scope) :
    Call.Outside (S := panel) R (fun _ => True) (DepositService.get id scope)
      fun tr _ => Call.Quiet tr := by
  refine Call.outside_bind (P := fun tr _ => Call.Quiet tr)
    (Call.outside_read (fun _ _ => Call.quiet_single (by simp)) (Call.quiet_single (by simp))) ?_
    (fun _ _ h => h)
  intro tr v hq
  split
  · exact Call.outside_throw (by simpa using hq)
  · exact Call.outside_pure (by simpa using hq)

theorem atomic_approve (hR : Steady R) (adminId id : Int) (scope : Scope) :
    Atomic (DepositService.approve adminId id scope) R :=
  atomic_bind (quiet_get id scope) fun _ => atomic_withRetry (inside_approveTx hR adminId id scope)

end undone

theorem loadInScope_found (s t : Store panel) (id : Int) (scope : Scope) :
    Call.Outside (S := panel) (Pinned s t) (fun _ => True) (TenantUserService.loadInScope id scope)
      fun tr r => Call.Quiet tr ∧ ∀ u, r = .ok u → (s.row (.user id)).isSome := by
  refine Call.outside_bind (P := fun tr r => Call.Quiet tr ∧ ∀ v : Option User, r = .ok v →
      Pinned s t (.user id) v) (Call.outside_read (fun v hv => ⟨Call.quiet_single (by simp), ?_⟩)
      ⟨Call.quiet_single (by simp), by simp⟩) ?_ (fun tr e h => ⟨h.1, by simp⟩)
  · rintro _ ⟨⟩
    exact hv
  · rintro tr v ⟨hq, hv⟩
    cases v with
    | none => exact Call.outside_throw ⟨by simpa using hq, by simp⟩
    | some u =>
      have hsome : (s.row (.user id)).isSome := (hv _ rfl).1 ▸ rfl
      simp only
      split
      · exact Call.outside_throw ⟨by simpa using hq, by simp⟩
      · split
        · exact Call.outside_throw ⟨by simpa using hq, by simp⟩
        · exact Call.outside_pure ⟨by simpa using hq, fun _ _ => hsome⟩

theorem adjustBalance_undone (s t : Store panel) (id : Int) (op : TenantUserService.BalanceOp)
    (amount : Int64) (desc actor : String) (scope : Scope) :
    Call.Outside (S := panel) (Pinned s t) (fun _ => True)
      (TenantUserService.adjustBalance id op amount desc actor scope)
      fun tr r => ∀ e, r = .error e → e ≠ .database → Call.Quiet tr := by
  refine Call.outside_bind (loadInScope_found s t id scope) ?_ (fun tr e h _ _ _ => h.1)
  rintro tr u ⟨hq, hfound⟩
  have hfound := hfound u rfl
  have hthrow : ∀ e, Call.Outside (S := panel) (Pinned s t) (fun _ => True)
      (throw e : Service Int64) fun tr' r => ∀ e, r = .error e → e ≠ .database →
        Call.Quiet (tr ++ tr') :=
    fun e => Call.outside_throw fun _ _ _ => by simpa using hq
  have hget : ∀ tr' : Trace, Call.Outside (S := panel) (Pinned s t) (fun _ => True)
      (WalletService.getBalance id) fun tr'' r => ∀ e, r = .error e → e ≠ .database →
        Call.Quiet (tr ++ (tr' ++ tr'')) := by
    intro tr'
    refine Call.outside_bind (P := fun _ r => (∀ e, r = .error e → e = .database) ∧
      ∀ v : Option User, r = .ok v → v.isSome) ?_ ?_ ?_
    · refine Call.outside_read (fun v hv => ⟨by simp, ?_⟩) ⟨by simp, by simp⟩
      rintro _ ⟨⟩
      exact hv.1.trans hfound
    · rintro tr'' v ⟨-, hv⟩
      cases v with
      | none => cases hv none rfl
      | some u => exact Call.outside_pure (by simp)
    · rintro tr'' e ⟨he, -⟩ e' ⟨⟩ hne
      exact absurd (he e rfl) hne
  have hbody : ∀ x : Service Unit, Atomic x (Pinned s t) → Call.Outside (S := panel) (Pinned s t)
      (fun _ => True) (do x; WalletService.getBalance id) fun tr' r => ∀ e, r = .error e → e ≠ .database →
        Call.Quiet (tr ++ tr') :=
    fun _ hx => Call.outside_bind hx (fun tr' _ _ => hget tr') fun _ e h _ _ _ => hq.append (h e rfl)
  split
  · exact hthrow _
  · cases op with
    | other op => exact hthrow _
    | _ =>
      refine hbody _ (atomic_withRetry (inside_deltaOf (.approve 0 0 ⟨0, true⟩) (pinned_steady s t).funded
        (TenantUserService.adjustDelta _ amount) _ (fun d => ⟨TenantUserService.adjustSource _ d, "", actor⟩) ?_))
      exact fun d => by dsimp only; exact adjustSource_ne _ d

theorem request_undone (s t : Store panel) (req : Request) :
    Call.Outside (S := panel) (Pinned s t) (fun _ => True) req.run (Undone req) := by
  have hR := pinned_steady s t
  have hmap : ∀ {α : Type} {x : Service α} {req : Request}, Atomic x (Pinned s t) →
      Call.Outside (S := panel) (Pinned s t) (fun _ => True) ((fun _ => Reply.done) <$> x)
        (Undone req) := by
    intro α x req h
    refine Call.outside_map (h.mono ?_)
    rintro tr (e | a) hq e' he -
    · exact hq e rfl
    · cases he
  have hrest : ∀ req : Request, (∀ e, ¬req.atomic e) →
      Call.Outside (S := panel) (Pinned s t) (fun _ => True) req.run (Undone req) := by
    intro req hn
    exact (anything _ hR req).mono fun _ _ _ e _ ha => absurd ha (hn e)
  cases req with
  | credit u a d n => exact hmap (atomic_credit hR.funded _ _ _ _)
  | debit u a d n => exact hmap (atomic_debit hR.funded _ _ _ _)
  | setBalance u t d n => exact hmap (atomic_setBalance hR.funded _ _ _ n.2)
  | debitWorkspacePurchase b s a d n =>
    exact hmap (atomic_debitWorkspacePurchase hR.funded _ _ _ _ _)
  | refundWorkspacePurchase b s a d n =>
    exact hmap (atomic_refundWorkspacePurchase hR.funded _ _ _ _ _)
  | adjustBalance id op a d actor scope =>
    refine Call.outside_map ((adjustBalance_undone s t id op a d actor scope).mono ?_)
    rintro tr (e | b) hq e' he ha
    · cases he
      exact hq e rfl ha
    · cases he
  | approve adminId id scope => exact hmap (atomic_approve hR _ _ _)
  | _ => exact hrest _ fun _ h => h

theorem ledger_integrity {ι : Type} [DecidableEq ι] {s : Store panel} {req : ι → Request}
    {opening : Int → Int64} (hs : Consistent opening s)
    (hdep : ∀ id (d : ManualDepositRequest), s.row (.deposit id) = some d → 0 < d.amount)
    {w : Panel ι} (hr : World.Reachable (Panel.boot s req) w) :
    (∀ id (u : User), w.store.row (.user id) = some u →
      0 ≤ u.balance ∧
      u.balance.toInt = (opening id).toInt + ((entries id w.store.log).map signed).sum ∧
      (entries id w.store.log).IsChain (fun e e' => e.balanceAfter = e'.balanceBefore) ∧
      ∀ e ∈ entries id w.store.log, Valid e) ∧
    ∀ i e, (w.th i).prog = .ret (.error e) → (req i).atomic e →
      (∀ p, (i, .commit p) ∉ w.hist) ∧ w.store = World.replay s (w.hist.filter (·.1 ≠ i)) := by
  have hsane : Sane s := by
    refine ⟨?_, hdep⟩
    intro id u hu
    have h := hs id
    rw [hu] at h
    exact h.1
  have hmeets := pinned_meets hsane hr fun i => request_undone s w.store (req i)
  have hadm := pinned_admitted hsane hr
  refine ⟨?_, ?_⟩
  · have hinv := World.store_invariant (I := Consistent opening) hmeets hs
      (fun i p s' hp hc ha _ => balanced_apply (effect_balanced (fun id d h => (h d rfl).1) hp) ha hc)
      hr hadm
    intro id u hu
    have h := hinv id
    rw [hu] at h
    exact ⟨h.1, chain_sum h.2, chain_links h.2, chain_valid h.2⟩
  · intro i e he ha
    have hsound := World.sound_reachable hmeets hr hadm
    have hq : Call.Quiet (w.events i) := by
      have hpost := hsound.post he e rfl ha
      rwa [hsound.past i] at hpost
    have hnone : ∀ p, (i, .commit p) ∉ w.hist := fun p hp => hq p (World.mem_events.mpr hp)
    exact ⟨hnone, by rw [World.replay_without hnone]; exact World.store_eq_replay hr⟩

def oneAccount : Store panel where
  row k := match k with
    | .user id => if id = 1 then some ⟨1, "buyer", .member, 0, 100, 0⟩ else none
    | .tenant _ | .product _ | .order _ | .payment _ | .deposit _ => none
  log := []

def creditAndDebit : Bool → Request
  | false => .credit 1 50 "bonus" ⟨⟨.adminCredit, "", ""⟩, by decide⟩
  | true => .debit 1 500 "payout" ⟨⟨.adminDebit, "", ""⟩, by decide⟩

theorem oneAccount_consistent : Consistent (fun _ => 100) oneAccount := by
  intro id
  simp only [oneAccount]
  by_cases h : id = 1
  · simp only [h, if_true]
    exact ⟨by decide, rfl⟩
  · simp only [h, if_false]
    rfl

theorem ledger_integrity_credit_and_debit : ∃ w, World.Reachable (Panel.boot oneAccount creditAndDebit) w ∧
    (∃ u : User, w.store.row (.user 1) = some u ∧
      u.balance.toInt = 100 + ((entries 1 w.store.log).map signed).sum) ∧
    w.store = World.replay oneAccount (w.hist.filter (·.1 ≠ true)) := by
  have hrun : ((Panel.boot oneAccount creditAndDebit).exec
      [(false, .go), (true, .go), (false, .go), (true, .go), (false, .go), (true, .go), (false, .go),
        (false, .go)]).map (fun w => ((w.store.row (.user 1)).isSome, (w.th true).prog.outcome)) =
      some (true, some (.error .insufficientBalance)) := by decide +kernel
  obtain ⟨w, hr, he⟩ := World.exec_reaches hrun
  obtain ⟨hsome, hret⟩ := Prod.mk.inj he
  obtain ⟨u, hu⟩ := Option.isSome_iff_exists.mp hsome
  obtain ⟨hrows, herr⟩ := ledger_integrity oneAccount_consistent (by simp [oneAccount]) hr
  exact ⟨w, hr, ⟨u, hu, (hrows 1 u hu).2.1⟩, (herr true _ (Prog.ret_of_outcome hret) trivial).2⟩

end Ledger

end QuiPanel
