import QuiPanel.Ledger

namespace QuiPanel

open ReadCommitted WalletService Ledger List

namespace Sale

def net (id : Int) (tr : Trace) : Int := ((Ledger.entries id (log tr)).map Ledger.moved).sum

theorem net_append (id : Int) (tr tr' : Trace) : net id (tr ++ tr') = net id tr + net id tr' := by
  simp [net, log_append, Ledger.entries_append]

theorem net_silent {id : Int} {tr : Trace} (h : log tr = []) : net id tr = 0 := by
  simp [net, h, Ledger.entries]

def legNet (id : Int) (legs : List Leg) : Int :=
  ((legs.filter (·.user == id)).map (·.delta.toInt)).sum

theorem legNet_nil (id : Int) : legNet id [] = 0 := rfl

theorem legNet_cons (id : Int) (leg : Leg) (legs : List Leg) :
    legNet id (leg :: legs) = (if leg.user = id then leg.delta.toInt else 0) + legNet id legs := by
  by_cases h : leg.user = id <;> simp [legNet, h]

variable {p p' : Pending panel}

theorem posted_log {leg : Leg} (h : Posted leg p p') :
    ∃ u : User, 0 ≤ u.balance ∧ ¬u.balance + leg.delta < 0 ∧ p'.log = p.log ++ [leg.entry u] := by
  obtain ⟨u, v, hu, hpos, hfit, rfl⟩ := h
  exact ⟨u, hu ▸ hpos, hu ▸ hfit, rfl⟩

variable {legs : List Leg}

theorem posting_net (id : Int) (h : Posting legs p p') :
    ((Ledger.entries id p'.log).map Ledger.moved).sum =
      ((Ledger.entries id p.log).map Ledger.moved).sum + legNet id legs := by
  induction h with
  | nil => simp [legNet_nil]
  | @cons leg _ _ _ _ _ hposted _ ih =>
    obtain ⟨u, hpos, hfit, hlog⟩ := posted_log hposted
    have hmoved : Ledger.moved (leg.entry u) = leg.delta.toInt := by
      simp only [Ledger.moved, Leg.entry, balance_exact hpos hfit]
      omega
    have huser : (leg.entry u).userId = leg.user := rfl
    rw [ih, legNet_cons, hlog, Ledger.entries_append, Ledger.entries_single, huser]
    by_cases h : leg.user = id
    · simp [h, hmoved, Int.add_assoc]
    · simp [h]

variable {p : Pending panel}

theorem net_commit (id : Int)
    (h : Posting legs .empty p) : net id [.commit p] = legNet id legs := by
  have hnet := posting_net id h
  simpa [net, log, Event.entries, Ledger.entries] using hnet

section legs

variable {buyer : User} {m m' : Int} {price : Int64} {desc desc' : String} {note note' : TxMeta}

theorem payee_ne (b m : Int) : payee b m ≠ some b := by
  unfold payee
  split
  case isTrue h =>
    intro he
    exact h.2 (Option.some.inj he)
  case isFalse => simp

theorem legNet_sale (id : Int) (h : 0 < price) :
    legNet id (saleLegs buyer m price desc note) =
      (if buyer.id = id then -price.toInt else 0) +
        if payee buyer.id m = some id then price.toInt else 0 := by
  have hneg := neg_exact h
  cases hp : payee buyer.id m with
  | none => simp [saleLegs, hp, legNet_cons, legNet_nil, hneg]
  | some k => simp [saleLegs, hp, legNet_cons, legNet_nil, hneg]

theorem legNet_refund (b id : Int) (h : 0 < price) :
    legNet id (refundLegs b m price desc note) =
      (if b = id then price.toInt else 0) +
        if payee b m = some id then -price.toInt else 0 := by
  have hneg := neg_exact h
  cases hp : payee b m with
  | none => simp [refundLegs, hp, legNet_cons, legNet_nil]
  | some k => simp [refundLegs, hp, legNet_cons, legNet_nil, hneg]

theorem reversed_iff (h : 0 < price) :
    (∀ id, legNet id (saleLegs buyer m price desc note) +
      legNet id (refundLegs buyer.id m' price desc' note') = 0) ↔
      payee buyer.id m = payee buyer.id m' := by
  have hpos := Int64.lt_iff_toInt_lt.mp h
  have h₀ : (0 : Int64).toInt = 0 := rfl
  simp only [legNet_sale _ h, legNet_refund _ _ h]
  constructor
  · intro hz
    cases hm : payee buyer.id m with
    | some k =>
      have hk := hz k
      have hb : buyer.id ≠ k := fun hb => payee_ne buyer.id m (hb ▸ hm)
      by_contra hne
      simp only [hm, hb, if_false, if_true, Ne.symm hne] at hk
      omega
    | none =>
      cases hm' : payee buyer.id m' with
      | none => rfl
      | some k =>
        have hk := hz k
        have hb : buyer.id ≠ k := fun hb => payee_ne buyer.id m' (hb ▸ hm')
        simp only [hm, hm', hb, if_false, if_true, reduceCtorEq] at hk
        omega
  · intro he id
    rw [he]
    split <;> split <;> omega

theorem unreversed (h : 0 < price) : legNet buyer.id (saleLegs buyer m price desc note) ≠ 0 := by
  have hpos := Int64.lt_iff_toInt_lt.mp h
  have h₀ : (0 : Int64).toInt = 0 := rfl
  rw [legNet_sale _ h, if_pos rfl, if_neg (payee_ne _ _)]
  omega

end legs

def reversal (rows : List Transaction) : List Leg :=
  rows.map fun e => ⟨e.userId, e.balanceBefore - e.balanceAfter, e.type, "", ⟨.refund, "", ""⟩⟩

def Reversible (buyerId seller : Int) (tr : Trace) : Prop :=
  match tr.dropWhile fun ev => ev.entries.isEmpty with
  | .commit p :: rest =>
      payee buyerId (resolved seller tr) = payee buyerId (resolved seller rest) ∧
        Covered (reversal p.log) rest
  | _ => True

theorem posting_reversal (h : Posting legs p p') :
    (reversal p'.log).map Leg.effect =
      (reversal p.log).map Leg.effect ++ legs.map fun leg => (leg.user, -leg.delta) := by
  induction h with
  | nil => simp
  | @cons leg _ _ _ _ _ hposted _ ih =>
    obtain ⟨u, -, -, hlog⟩ := posted_log hposted
    have hback : u.balance - (u.balance + leg.delta) = -leg.delta := by grind
    rw [ih, hlog]
    simp [reversal, Leg.effect, Leg.entry, hback]

theorem reversal_refund {buyer : User} {m : Int} {price : Int64} {desc desc' : String}
    {note note' : TxMeta}
    (h : Posting (saleLegs buyer m price desc note) .empty p) :
    (reversal p.log).map Leg.effect =
      (refundLegs buyer.id m price desc' note').map Leg.effect := by
  rw [posting_reversal h]
  cases hp : payee buyer.id m with
  | none => simp [saleLegs, refundLegs, hp, reversal, Leg.effect]
  | some k => simp [saleLegs, refundLegs, hp, reversal, Leg.effect]

structure Charged (buyer : User) (seller : Int) (price : Int64) (m : Int) (tr : Trace)
    (p : Pending panel) : Prop where
  positive : 0 < price
  silent : log tr = []
  found : ∀ rest, resolved seller (tr ++ rest) = m
  posting : ∃ desc note, Posting (saleLegs buyer m price desc note) .empty p

structure Between (tr : Trace) : Prop where
  silent : log tr = []
  idle : Idle tr
  unresolved : ∀ ev ∈ tr, managerOf ev = none

def Refunded (buyerId seller : Int) (price : Int64) (tr : Trace) : Prop :=
  ∃ desc note r, Looks (α := Unit) seller (refundLegs buyerId · price desc note) (fun m p _ =>
    Posting (refundLegs buyerId m price desc note) .empty p) tr r

inductive Failure (buyer : User) (seller : Int) : Trace → Prop
  | uncharged {tr} (h : log tr = []) : Failure buyer seller tr
  | charged {price m pre p mid tr post} (hpre : Charged buyer seller price m pre p)
      (hmid : Between mid) (hr : Refunded buyer.id seller price tr) (hpost : Between post) :
      Failure buyer seller (pre ++ .commit p :: (mid ++ tr ++ post))

theorem silent_entries {tr : Trace} (h : log tr = []) :
    ∀ ev ∈ tr, ev.entries.isEmpty = true := by
  intro ev he
  rw [List.isEmpty_iff]
  exact flatMap_eq_nil_iff.mp h ev he

theorem dropWhile_silent {pre rest : Trace} {ev : Event panel} (h : log pre = [])
    (hev : ev.entries ≠ []) :
    (pre ++ ev :: rest).dropWhile (fun ev => ev.entries.isEmpty) = ev :: rest := by
  rw [dropWhile_append_of_pos (silent_entries h), dropWhile_cons_of_neg (by simpa using hev)]

theorem dropWhile_quiet {tr : Trace} (h : log tr = []) :
    tr.dropWhile (fun ev => ev.entries.isEmpty) = [] := by
  have hdrop : (tr ++ []).dropWhile (fun (ev : Event panel) => ev.entries.isEmpty) = [] :=
    dropWhile_append_of_pos (silent_entries h)
  rwa [append_nil] at hdrop

theorem resolved_between {seller : Int} {mid rest : Trace} (h : Between mid) :
    resolved seller (mid ++ rest) = resolved seller rest := by
  have hnone : mid.findSome? managerOf = none := findSome?_eq_none_iff.mpr h.unresolved
  simp [resolved, findSome?_append, hnone]

theorem posting_ne_nil {leg : Leg}
    (h : Posting (leg :: legs) .empty p) : p.log ≠ [] := by
  intro hnil
  have hlen := congrArg List.length (posting_reversal h)
  simp [reversal, hnil] at hlen

theorem refundLegs_congr {b m m' : Int} {price : Int64} {desc : String} {note : TxMeta}
    (h : payee b m = payee b m') : refundLegs b m price desc note = refundLegs b m' price desc note := by
  simp only [refundLegs, h]

theorem failure_iff {buyer : User} {seller : Int} {tr : Trace} (h : Failure buyer seller tr) :
    (∀ id, net id tr = 0) ↔ Reversible buyer.id seller tr := by
  cases h with
  | uncharged h =>
    simp only [Reversible, dropWhile_quiet h]
    exact ⟨fun _ => trivial, fun _ id => net_silent h⟩
  | @charged price m pre p mid tr post hpre hmid hr hpost =>
    obtain ⟨desc, note, hsale⟩ := hpre.posting
    obtain ⟨desc', note', r, look, m', tr', rfl, hlook, hs⟩ := hr
    have hev : (Event.commit p : Event panel).entries ≠ [] := posting_ne_nil hsale
    have hnet : ∀ id, net id (pre ++ .commit p :: (mid ++ (look ++ tr') ++ post)) =
        legNet id (saleLegs buyer m price desc note) + net id tr' := by
      intro id
      have hcharge := net_commit id hsale
      rw [← singleton_append, net_append, net_append, net_append, net_append, net_append,
        net_silent hpre.silent, net_silent hmid.silent, net_silent hpost.silent,
        net_silent (log_quiet hlook.quiet), hcharge]
      omega
    have hfound : resolved seller (pre ++ .commit p :: (mid ++ (look ++ tr') ++ post)) = m :=
      hpre.found _
    have hfound' : resolved seller (mid ++ (look ++ tr') ++ post) = m' := by
      rw [append_assoc, resolved_between hmid, append_assoc]
      exact hlook.found _
    have hcover : (payee buyer.id m = payee buyer.id m' ∧
        Covered (reversal p.log) (mid ++ (look ++ tr') ++ post)) ↔
        payee buyer.id m = payee buyer.id m' ∧
          Covered (refundLegs buyer.id m' price desc' note') tr' := by
      refine and_congr_right fun hp => ?_
      rw [← refundLegs_congr hp, covered_congr (reversal_refund hsale),
        covered_idle_right hpost.idle, covered_idle_left hmid.idle, covered_idle_left hlook.idle]
    simp only [hnet, Reversible, dropWhile_silent hpre.silent hev, hfound, hfound', hcover]
    cases r with
    | error e =>
      obtain ⟨hq, hc⟩ := hs
      constructor
      · intro hz
        have hb := hz buyer.id
        rw [net_silent (log_quiet hq)] at hb
        have hne : legNet buyer.id (saleLegs buyer m price desc note) ≠ 0 := unreversed hpre.positive
        exact absurd (by omega) hne
      · intro hr
        exact absurd hr.2 hc
    | ok _ =>
      obtain ⟨tr'', p', rfl, hq, hc, hp⟩ := hs
      have hidle : Idle [Event.commit (S := panel) p'] := idle_single rfl rfl fun _ => rfl
      have hback : ∀ id, net id (tr'' ++ [.commit p']) =
          legNet id (refundLegs buyer.id m' price desc' note') := by
        intro id
        rw [net_append, net_silent (log_quiet hq), net_commit id hp, Int.zero_add]
      have hc : Covered (refundLegs buyer.id m' price desc' note') (tr'' ++ [.commit p']) :=
        (covered_idle_right hidle).mpr hc
      simp only [hback, hc, and_true]
      exact reversed_iff hpre.positive

section orders

variable {R : Rely panel} {α β : Type}

def Plain (tr : Trace) : Prop := ∀ ev ∈ tr, ev.entries = [] ∧ managerOf ev = none

theorem plain_nil : Plain [] := by simp [Plain]

theorem plain_single {ev : Event panel} (h : ev.entries = []) (hm : managerOf ev = none) :
    Plain [ev] := by
  intro e he
  obtain rfl := mem_singleton.mp he
  exact ⟨h, hm⟩

theorem Plain.append {tr tr' : Trace} (h : Plain tr) (h' : Plain tr') : Plain (tr ++ tr') := by
  intro ev he
  rcases mem_append.mp he with he | he
  · exact h ev he
  · exact h' ev he

theorem Plain.log {tr : Trace} (h : Plain tr) : log tr = [] :=
  flatMap_eq_nil_iff.mpr fun ev he => (h ev he).1

variable {seller : Int} {charged : Int64 × Int}

theorem Plain.resolved {tr rest : Trace} (h : Plain tr) :
    resolved seller (tr ++ rest) = resolved seller rest := by
  have hnone : tr.findSome? managerOf = none :=
    findSome?_eq_none_iff.mpr fun ev he => (h ev he).2
  simp [WalletService.resolved, findSome?_append, hnone]

abbrev Runs (R : Rely panel) (x : Service α)
    (Q : Trace → Except Err α → Prop) : Prop :=
  Call.Outside (S := panel) R (fun _ => True) x Q

abbrev Plainly (R : Rely panel) (x : Service α) : Prop :=
  Runs R x fun tr _ => Plain tr

theorem plainly_pure (a : α) : Plainly R (pure a : Service α) := Call.outside_pure plain_nil

theorem plainly_throw (e : Err) : Plainly R (throw e : Service α) := Call.outside_throw plain_nil

variable {x : Service β}

theorem plainly_bind {f : β → Service α} (hx : Plainly R x)
    (hf : ∀ b, Plainly R (f b)) : Plainly R (x >>= f) := by
  refine Call.outside_bind hx (fun tr b h => ?_) (fun _ _ h => h)
  exact (hf b).mono fun tr' _ h' => h.append h'

theorem plainly_ask (q : Query) : Plainly R (Service.ask q) :=
  Call.outside_ask fun _ => plain_single rfl rfl

theorem plainly_offered (buyer : User) (productId : Int) (view : Scope) :
    Plainly R (OrderService.offered buyer productId view) := by
  unfold OrderService.offered
  split
  · exact plainly_throw _
  refine plainly_bind (Call.outside_result ?_) fun v => ?_
  · refine plainly_bind (Call.outside_result (Call.outside_read
      (fun _ _ => plain_single rfl rfl) (plain_single rfl rfl))) fun v => ?_
    rcases v with e | _ | p
    · exact plainly_throw _
    · exact plainly_throw _
    · simp only
      split
      · exact plainly_pure _
      · exact plainly_throw _
  rcases v with e | product
  · exact plainly_throw _
  simp only
  split
  · exact plainly_throw _
  split
  · exact plainly_throw _
  refine plainly_bind ?_ fun missing => ?_
  · unfold OrderService.missingInbounds
    split
    · exact plainly_pure _
    · refine plainly_bind (plainly_ask _) fun v => ?_
      rcases v with _ | missing
      · exact plainly_throw _
      · exact plainly_pure _
  · cases missing with
    | nil => exact plainly_pure _
    | cons _ _ => exact plainly_throw _

theorem looked_seller {tr : Trace} {m : Int}
    (h : Looked (if seller > globalTenantId then seller else 0) tr m) : Looked seller tr m := by
  split at h
  case isTrue => exact h
  case isFalse hle =>
    refine ⟨h.quiet, h.idle, fun rest => ?_⟩
    have hfound := h.found rest
    rw [resolved, if_pos (by decide)] at hfound
    rw [resolved, if_pos (Int.not_lt.mp hle), hfound]

def Owes (buyer : User) (seller : Int) (tr : Trace) (charged : Int64 × Int) : Prop :=
  (log tr = [] ∧ charged.1 = 0) ∨
    (charged.2 = (if seller > globalTenantId then seller else 0) ∧
      ∃ m pre p, tr = pre ++ [.commit p] ∧ Charged buyer seller charged.1 m pre p)

theorem runs_charge (hR : Funded R) (buyer : User) (product : Product) (view : Scope)
    (action : String) (source : TxSource) {pre : Trace} (hpre : Plain pre) :
    Runs R (OrderService.charge buyer product view action source) fun tr r => match r with
      | .ok charged => Owes buyer view.tenantId (pre ++ tr) charged
      | .error _ => log (pre ++ tr) = [] := by
  unfold OrderService.charge
  split
  case isFalse => exact Call.outside_pure (.inl ⟨by simpa using hpre.log, rfl⟩)
  case isTrue h =>
    have hpos : ¬product.price ≤ 0 := Int64.not_le.mpr h.1
    refine Call.outside_bind (outside_debitWorkspacePurchase hR fun _ _ _ _ => trivial) ?_ ?_
    · intro tr t hs
      rw [if_neg hpos] at hs
      obtain ⟨look, m, tr', rfl, hlook, tr'', p, rfl, hq, -, rfl, hp⟩ := hs
      refine Call.outside_pure (.inr ⟨rfl, m, pre ++ (look ++ tr''), p, by simp, h.1, ?_, ?_, _, _, hp⟩)
      · simp [log_append, hpre.log, log_quiet hlook.quiet, log_quiet hq]
      · intro rest
        rw [append_assoc, hpre.resolved, append_assoc]
        exact hlook.found _
    · intro tr e hs
      rw [if_neg hpos] at hs
      obtain ⟨look, m, tr', rfl, hlook, hq, -⟩ := hs
      simp [log_append, hpre.log, log_quiet hlook.quiet, log_quiet hq]

theorem runs_refund (hR : Funded R) (buyer : User) {tr : Trace}
    (product : Product) (h : Owes buyer seller tr charged) :
    Runs R (OrderService.refund buyer.id charged.2 charged.1 product) fun tr' r =>
      r = .ok () ∧ if charged.1 = 0 then tr' = []
        else Refunded buyer.id seller charged.1 tr' := by
  unfold OrderService.refund
  rcases h with ⟨-, h₀⟩ | ⟨hseller, m, pre, p, rfl, hc⟩
  · simp only [h₀, if_true]
    exact Call.outside_pure ⟨rfl, rfl⟩
  · have hpos := hc.positive
    have hle : ¬charged.1 ≤ 0 := Int64.not_le.mpr hpos
    have hne : charged.1 ≠ 0 := by
      intro h₀
      rw [h₀] at hpos
      exact absurd hpos (by decide)
    simp only [hle, hne, if_false]
    refine Call.outside_bind (Call.outside_attempt
      (outside_refundWorkspacePurchase hR fun _ _ _ _ => trivial)) ?_ ?_
    · rintro tr r ⟨_, ⟨⟩, hs⟩
      rw [if_neg hle] at hs
      obtain ⟨look, m', tr', rfl, hlook, hs⟩ := hs
      rw [hseller] at hlook
      refine Call.outside_pure ⟨rfl, _, _, r, look, m', tr', by simp, looked_seller hlook, hs⟩
    · rintro tr e ⟨r, hr, -⟩
      cases hr

theorem between_single {ev : Event panel} (h : ev.entries = []) (hm : managerOf ev = none)
    (hf : faulty ev = false) (hl : lost ev = false) (hb : ∀ leg : Leg, leg.blocks ev = false) :
    Between [ev] :=
  ⟨(plain_single h hm).log, idle_single hf hl hb, fun e he => (plain_single h hm e he).2⟩

theorem between_nil : Between [] := ⟨rfl, by simp [Idle], by simp⟩

theorem Between.append {tr tr' : Trace} (h : Between tr) (h' : Between tr') :
    Between (tr ++ tr') := by
  refine ⟨by simp [log_append, h.silent, h'.silent], ?_, ?_⟩
  · intro ev he
    rcases mem_append.mp he with he | he
    · exact h.idle ev he
    · exact h'.idle ev he
  · intro ev he
    rcases mem_append.mp he with he | he
    · exact h.unresolved ev he
    · exact h'.unresolved ev he

theorem runs_create (order : Order) :
    Runs R (Service.create fun n => ⟨.order n, order⟩) fun tr _ => Between tr :=
  Call.outside_create
    (fun _ _ => ⟨trivial, fun _ => between_single rfl rfl rfl rfl fun _ => rfl⟩)
    (between_single rfl rfl rfl rfl fun _ => rfl)

theorem runs_setStatus (hR : Steady R) (id : Int) (status : OrderStatus) (set : Order → Order) :
    Runs R (OrderService.setStatus id status set) fun tr r => r = .ok () ∧ Between tr := by
  refine Call.outside_bind (Call.outside_attempt (Q := fun tr _ => Between tr)
    (Call.outside_update ?_ ?_ ?_)) ?_ ?_
  · exact fun v hv _ => ⟨hR.order _ _ _ hv, trivial, between_single rfl rfl rfl rfl fun _ => rfl⟩
  · exact fun _ _ _ => between_single rfl rfl rfl rfl fun _ => rfl
  · exact between_single rfl rfl rfl rfl fun _ => rfl
  · rintro tr _ ⟨r, ⟨⟩, h⟩
    exact Call.outside_pure ⟨rfl, by simpa using h⟩
  · rintro tr e ⟨r, hr, -⟩
    cases hr

def Completes (R : Rely panel) (x : Service α) : Prop :=
  Runs R x fun _ r => ∃ a, r = .ok a

theorem completes_pure (a : α) : Completes R (pure a : Service α) := Call.outside_pure ⟨a, rfl⟩

theorem completes_bind {f : β → Service α} (hx : Completes R x)
    (hf : ∀ b, Completes R (f b)) : Completes R (x >>= f) := by
  refine Call.outside_bind hx (fun _ b _ => hf b) ?_
  rintro tr e ⟨a, ha⟩
  cases ha

theorem completes_ask (q : Query) : Completes R (Service.ask q) :=
  Call.outside_ask fun a => ⟨a, rfl⟩

theorem completes_result (h : Call.Safe (S := panel) R (fun _ => True) x) :
    Completes R (Call.result x : Service (Except Err β)) :=
  (Call.outside_attempt h).mono fun _ _ ⟨r, hr, _⟩ => ⟨r, hr⟩

theorem completes_setStatus (hR : Steady R) (id : Int) (status : OrderStatus)
    (set : Order → Order) : Completes R (OrderService.setStatus id status set) :=
  (runs_setStatus hR id status set).mono fun _ _ h => ⟨(), h.1⟩

theorem completes_costOfGoods (seller : Int) (trafficLimit : Int64) :
    Completes R (OrderService.chargeManagerCostOfGoods seller trafficLimit) := by
  unfold OrderService.chargeManagerCostOfGoods
  split
  · exact completes_pure _
  · exact completes_ask _

theorem completes_referral (hR : Funded R) (buyer : User) (id : Int) (order : Order) :
    Completes R (OrderService.payReferralCommission buyer id order) := by
  unfold OrderService.payReferralCommission
  split
  · exact completes_pure _
  refine completes_bind (completes_ask _) fun v => ?_
  rcases v with _ | percent
  · exact completes_pure _
  simp only
  split
  · exact completes_pure _
  refine completes_bind (completes_result (Call.safe_read (S := panel) _ _)) fun v => ?_
  rcases v with e | _ | referrer
  · exact completes_pure _
  · exact completes_pure _
  simp only
  split
  · exact completes_pure _
  · refine completes_bind (completes_result ?_) fun _ => completes_pure _
    exact (outside_creditWithMeta hR fun _ _ _ => trivial).safe

def Fails (buyer : User) (seller : Int) (tr : Trace) (r : Except Err α) : Prop :=
  ∀ e, r = .error e → Failure buyer seller tr

theorem Completes.fails {x : Service α} (h : Completes R x) (buyer : User) (seller : Int)
    (tr : Trace) : Runs R x fun tr' r => Fails buyer seller (tr ++ tr') r := by
  refine h.mono ?_
  rintro tr' _ ⟨a, rfl⟩ e he
  cases he

theorem failure_of_owes {buyer : User} {tr mid tr' post : Trace}
    (h : Owes buyer seller tr charged) (hmid : Between mid)
    (hr : if charged.1 = 0 then tr' = [] else Refunded buyer.id seller charged.1 tr')
    (hpost : Between post) : Failure buyer seller (tr ++ (mid ++ tr' ++ post)) := by
  rcases h with ⟨hlog, h₀⟩ | ⟨-, m, pre, p, rfl, hc⟩
  · rw [if_pos h₀] at hr
    subst hr
    exact .uncharged (by simp [log_append, hlog, hmid.silent, hpost.silent])
  · have hne : charged.1 ≠ 0 := by
      intro h₀
      have hpos := hc.positive
      rw [h₀] at hpos
      exact absurd hpos (by decide)
    rw [if_neg hne] at hr
    have hf := Failure.charged hc hmid hr hpost
    simpa using hf

theorem runs_cancel (hR : Steady R) {buyer : User} {tr mid : Trace}
    (product : Product) (id : Int) (h : Owes buyer seller tr charged)
    (hmid : Between mid) :
    Runs R (OrderService.cancel (α := α) buyer charged product id) fun tr' r =>
      Fails buyer seller (tr ++ (mid ++ tr')) r := by
  refine Call.outside_bind (runs_refund hR.funded buyer product h) ?_ ?_
  · rintro tr' _ ⟨-, hr⟩
    refine Call.outside_bind (runs_setStatus hR id _ _) ?_ ?_
    · rintro post _ ⟨-, hpost⟩
      refine Call.outside_throw fun _ _ => ?_
      simpa using failure_of_owes h hmid hr hpost
    · rintro tr'' e ⟨he, -⟩
      cases he
  · rintro tr' e ⟨he, -⟩
    cases he

theorem runs_unopened (hR : Steady R) {buyer : User} {tr mid : Trace}
    (product : Product) (e : Err) (h : Owes buyer seller tr charged)
    (hmid : Between mid) :
    Runs R (do
      OrderService.refund buyer.id charged.2 charged.1 product
      throw e : Service α) fun tr' r => Fails buyer seller (tr ++ (mid ++ tr')) r := by
  refine Call.outside_bind (runs_refund hR.funded buyer product h) ?_ ?_
  · rintro tr' _ ⟨-, hr⟩
    refine Call.outside_throw fun _ _ => ?_
    simpa using failure_of_owes h hmid hr between_nil
  · rintro tr' e ⟨he, -⟩
    cases he

theorem runs_purchase (hR : Steady R) (buyer : User) (productId : Int) (name : String)
    (view : Scope) : Runs R (OrderService.purchase (some buyer) productId name view)
      (Fails buyer view.tenantId) := by
  refine Call.outside_bind (plainly_offered buyer productId view) ?_
    (fun tr e h _ _ => .uncharged h.log)
  intro tr product hplain
  refine Call.outside_bind (runs_charge hR.funded buyer product view _ _ hplain) ?_
    (fun tr' e h _ _ => .uncharged h)
  intro tr' charged howes
  refine Call.outside_bind (Call.outside_attempt (runs_create _)) ?_ ?_
  · rintro mid created ⟨_, ⟨⟩, hmid⟩
    rcases created with e | id
    · simpa [← append_assoc] using runs_unopened hR product e howes hmid
    · refine Call.outside_bind (P := fun mid' r => Between mid' ∧ ∃ a, r = .ok a) ?_ ?_ ?_
      · unfold OrderService.provision
        split
        · exact Call.outside_pure ⟨between_nil, _, rfl⟩
        · exact Call.outside_ask fun _ => ⟨between_single rfl rfl rfl rfl fun _ => rfl, _, rfl⟩
      · rintro mid' provisioned ⟨hmid', -⟩
        rcases provisioned with _ | email
        · simpa [← append_assoc] using runs_cancel hR product id howes (hmid.append hmid')
        · have hdone : Completes R (do
              OrderService.setStatus id .completed fun o => { o with clientEmail := email }
              OrderService.chargeManagerCostOfGoods view.tenantId product.trafficLimit
              OrderService.payReferralCommission buyer id
                (OrderService.newOrder buyer product view "")
              pure { OrderService.newOrder buyer product view "" with
                status := .completed, clientEmail := email }) :=
            completes_bind (completes_setStatus hR _ _ _) fun _ =>
              completes_bind (completes_costOfGoods _ _) fun _ =>
                completes_bind (completes_referral hR.funded _ _ _) fun _ => completes_pure _
          simpa [← append_assoc] using
            hdone.fails buyer view.tenantId (tr ++ (tr' ++ (mid ++ mid')))
      · rintro mid' e ⟨-, a, ha⟩
        cases ha
  · rintro mid e ⟨r, hr, -⟩
    cases hr

theorem runs_renew (hR : Steady R) (buyer : User) (productId : Int) (email : String)
    (view : Scope) : Runs R (OrderService.renew (some buyer) productId email view)
      (Fails buyer view.tenantId) := by
  refine Call.outside_bind (plainly_offered buyer productId view) ?_
    (fun tr e h _ _ => .uncharged h.log)
  intro tr product hplain
  refine Call.outside_bind (plainly_ask _) ?_
    (fun tr' e h _ _ => .uncharged (hplain.append h).log)
  intro tr' owner hask
  have hpre := hplain.append hask
  have hthrow : ∀ e, Runs R (throw e : Service Order) fun tr'' r =>
      Fails buyer view.tenantId (tr ++ (tr' ++ tr'')) r :=
    fun e => Call.outside_throw fun _ _ => .uncharged (by simpa using hpre.log)
  rcases owner with _ | ⟨owner, ownerTenant⟩
  · exact hthrow _
  simp only
  split
  · exact hthrow _
  refine Call.outside_bind (runs_charge hR.funded buyer product view _ _ hpre) ?_ ?_
  · intro tr'' charged howes
    refine Call.outside_bind (Call.outside_attempt (runs_create _)) ?_ ?_
    · rintro mid created ⟨_, ⟨⟩, hmid⟩
      rcases created with e | id
      · simpa [← append_assoc] using runs_unopened hR product e howes hmid
      · refine Call.outside_bind (P := fun mid' r => Between mid' ∧ ∃ a, r = .ok a)
          (Call.outside_ask fun _ => ⟨between_single rfl rfl rfl rfl fun _ => rfl, _, rfl⟩) ?_ ?_
        · rintro mid' applied ⟨hmid', -⟩
          rcases applied with _ | _
          · simpa [← append_assoc] using runs_cancel hR product id howes (hmid.append hmid')
          · have hattach : Completes R (OrderService.attach email product) := by
              unfold OrderService.attach
              split
              · exact completes_pure _
              · exact completes_ask _
            have hdone : Completes R (do
                OrderService.setStatus id .completed fun o => o
                OrderService.chargeManagerCostOfGoods view.tenantId product.trafficLimit
                OrderService.attach email product
                OrderService.payReferralCommission buyer id
                  (OrderService.newOrder buyer product view email)
                pure { OrderService.newOrder buyer product view email with
                  status := .completed }) :=
              completes_bind (completes_setStatus hR _ _ _) fun _ =>
                completes_bind (completes_costOfGoods _ _) fun _ =>
                  completes_bind hattach fun _ =>
                    completes_bind (completes_referral hR.funded _ _ _) fun _ => completes_pure _
            simpa [← append_assoc] using
              hdone.fails buyer view.tenantId (tr ++ (tr' ++ (tr'' ++ (mid ++ mid'))))
        · rintro mid' e ⟨-, a, ha⟩
          cases ha
    · rintro mid e ⟨r, hr, -⟩
      cases hr
  · intro tr'' e h _ _
    exact .uncharged (by simpa using h)

end orders

def Sells (req : Request) (buyer : User) (view : Scope) : Prop :=
  (∃ productId name, req = .purchase (some buyer) productId name view) ∨
    ∃ productId email, req = .renew (some buyer) productId email view

theorem request_fails (s : Store panel) (req : Request) :
    Runs (Solvent s) req.run fun tr r => ∀ buyer view, Sells req buyer view →
      Fails buyer view.tenantId tr r := by
  have hR := solvent_steady s
  have hrest : ∀ req : Request, (∀ buyer view, ¬Sells req buyer view) →
      Runs (Solvent s) req.run fun tr r => ∀ buyer view, Sells req buyer view →
        Fails buyer view.tenantId tr r := by
    intro req hn
    exact (anything _ hR req).mono fun _ _ _ buyer view h => absurd h (hn buyer view)
  cases req with
  | purchase buyer productId name view =>
    rcases buyer with _ | buyer
    · exact hrest _ (by simp [Sells])
    · refine Call.outside_map ((runs_purchase hR buyer productId name view).mono ?_)
      rintro tr (e | a) h b v hs e' he
      · obtain ⟨_, _, ⟨⟩⟩ | ⟨_, _, ⟨⟩⟩ := hs
        exact h e rfl
      · cases he
  | renew buyer productId email view =>
    rcases buyer with _ | buyer
    · exact hrest _ (by simp [Sells])
    · refine Call.outside_map ((runs_renew hR buyer productId email view).mono ?_)
      rintro tr (e | a) h b v hs e' he
      · obtain ⟨_, _, ⟨⟩⟩ | ⟨_, _, ⟨⟩⟩ := hs
        exact h e rfl
      · cases he
  | _ => exact hrest _ (by simp [Sells])

theorem failed_sale_noop_iff {ι : Type} [DecidableEq ι] {s : Store panel} {req : ι → Request}
    (husers : ∀ id (u : User), s.row (.user id) = some u → 0 ≤ u.balance)
    {w : Panel ι} (hr : World.Reachable (Panel.boot s req) w) {i : ι} {buyer : User} {view : Scope}
    (hi : Sells (req i) buyer view) {e : Err} (he : (w.th i).prog = .ret (.error e)) :
    (∀ id, net id (w.events i) = 0) ↔ Reversible buyer.id view.tenantId (w.events i) := by
  have hmeets := terms_meets (solvent_steady s) (solvent_rows husers)
    fun i => request_fails s (req i)
  have hsound := World.sound_reachable hmeets hr (solvent_admitted husers hr)
  have hpost := hsound.post he buyer view hi e rfl
  rw [hsound.past i] at hpost
  exact failure_iff hpost

def storefront : Store panel where
  row k := match k with
    | .user id =>
        if id = 1 then some ⟨1, "buyer", .member, 1, 100, 0⟩
        else if id = 2 then some ⟨2, "manager", .manager, 1, 0, 0⟩
        else none
    | .tenant id => if id = 1 then some ⟨1, "shop", 2, .active, ""⟩ else none
    | .product id => if id = 7 then some ⟨7, 1, "plan", 0, 30, 100, .all, [3], .active⟩ else none
    | .order _ | .payment _ | .deposit _ => none
  log := []

theorem payout_source : (⟨.adminDebit, "", ""⟩ : TxMeta).source ≠ .manualDeposit := by decide

def spending : Bool → Request
  | false => .purchase (some ⟨1, "buyer", .member, 1, 100, 0⟩) 7 "" (.tenantOnly 1)
  | true => .debit 2 100 "payout" ⟨⟨.adminDebit, "", ""⟩, payout_source⟩

def spendingSchedule : List (Bool × Choice panel) :=
  [(false, .go), (false, .answer refusing)] ++ List.replicate 9 (false, .go) ++
    [(false, .fresh 0)] ++ List.replicate 5 (true, .go) ++ [(false, .answer refusing)] ++
    List.replicate 8 (false, .go)

theorem storefront_users (id : Int) (u : User) (h : storefront.row (.user id) = some u) :
    0 ≤ u.balance := by
  simp only [storefront] at h
  split at h
  · obtain rfl := Option.some.inj h
    decide
  · split at h
    · obtain rfl := Option.some.inj h
      decide
    · cases h

theorem spending_run : ∃ w, World.Reachable (Panel.boot storefront spending) w ∧
    (w.th false).prog = .ret (.error .provisioning) ∧ net 1 (w.events false) = -100 := by
  have hrun : ((Panel.boot storefront spending).exec spendingSchedule).map (fun w =>
      ((w.th false).prog.outcome, net 1 (w.events false))) =
      some (some (.error .provisioning), -100) := by decide +kernel
  obtain ⟨w, hr, he⟩ := World.exec_reaches hrun
  obtain ⟨hret, hnet⟩ := Prod.mk.inj he
  exact ⟨w, hr, Prog.ret_of_outcome hret, hnet⟩

theorem failed_sale_not_reversible : ∃ w, World.Reachable (Panel.boot storefront spending) w ∧
    (w.th false).prog = .ret (.error .provisioning) ∧ ¬Reversible 1 1 (w.events false) := by
  obtain ⟨w, hr, hret, hnet⟩ := spending_run
  have hiff := failed_sale_noop_iff storefront_users hr (i := false)
    (.inl ⟨7, "", rfl⟩) hret
  refine ⟨w, hr, hret, fun h => ?_⟩
  have hzero := hiff.mpr h 1
  omega

theorem failed_sale_not_noop : ¬∀ (s : Store panel) (req : Bool → Request) (w : Panel Bool),
    (∀ id (u : User), s.row (.user id) = some u → 0 ≤ u.balance) →
    World.Reachable (Panel.boot s req) w → ∀ i buyer view, Sells (req i) buyer view →
    ∀ e, (w.th i).prog = .ret (.error e) → ∀ id, net id (w.events i) = 0 := by
  intro h
  obtain ⟨w, hr, hret, hnet⟩ := spending_run
  have hzero := h storefront spending w storefront_users hr false _ _ (.inl ⟨7, "", rfl⟩) _ hret 1
  omega

end Sale

end QuiPanel
