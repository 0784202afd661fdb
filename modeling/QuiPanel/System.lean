import QuiPanel.WalletSpec
import QuiPanel.Order
import QuiPanel.Payment
import QuiPanel.Deposit

namespace QuiPanel

open ReadCommitted

def CallerMeta := { note : TxMeta // note.source ≠ .manualDeposit }

inductive Reply
  | done
  | redirect (r : Redirect)
  | http (r : HttpReply)
  deriving DecidableEq

inductive Request
  | credit (userId : Int) (amount : Int64) (desc : String) (note : CallerMeta)
  | debit (userId : Int) (amount : Int64) (desc : String) (note : CallerMeta)
  | setBalance (userId : Int) (target : Int64) (desc : String) (note : CallerMeta)
  | debitWorkspacePurchase (buyer : User) (seller : Int) (amount : Int64) (desc : String)
      (note : CallerMeta)
  | refundWorkspacePurchase (buyerId seller : Int) (amount : Int64) (desc : String)
      (note : CallerMeta)
  | adjustBalance (id : Int) (op : TenantUserService.BalanceOp) (amount : Int64)
      (desc actor : String) (scope : Scope)
  | purchase (buyer : Option User) (productId : Int) (name : String) (view : Scope)
  | renew (buyer : Option User) (productId : Int) (email : String) (view : Scope)
  | zarinpalRequest (user : Option User) (amount : Int64)
  | zarinpalCallback (user : Option Int) (authority status : String)
  | plisioRequest (user : Option User) (amount : Int64)
  | plisioCallback (form : PlisioForm)
  | submit (dir : Tenancy.Directory) (http : Tenancy.Request) (amount : Int64)
      (description receipt : String)
  | approve (adminId id : Int) (scope : Scope)
  | reject (adminId id : Int) (reason : String) (scope : Scope)

namespace Request

def run : Request → Service Reply
  | .credit u a d n => (fun _ => .done) <$> WalletService.creditWithMeta u a d n.1
  | .debit u a d n => (fun _ => .done) <$> WalletService.debitWithMeta u a d n.1
  | .setBalance u t d n => (fun _ => .done) <$> WalletService.setBalanceWithMeta u t d n.1
  | .debitWorkspacePurchase b s a d n =>
      (fun _ => .done) <$> WalletService.debitWorkspacePurchase b s a d n.1
  | .refundWorkspacePurchase b s a d n =>
      (fun _ => .done) <$> WalletService.refundWorkspacePurchase b s a d n.1
  | .adjustBalance id op a d actor scope =>
      (fun _ => .done) <$> TenantUserService.adjustBalance id op a d actor scope
  | .purchase b p name view => (fun _ => .done) <$> OrderService.purchase b p name view
  | .renew b p email view => (fun _ => .done) <$> OrderService.renew b p email view
  | .zarinpalRequest u a => .http <$> PaymentController.zarinpalRequest u a
  | .zarinpalCallback u a s => .redirect <$> PaymentController.zarinpalCallback u a s
  | .plisioRequest u a => .http <$> PaymentController.plisioRequest u a
  | .plisioCallback form => .http <$> PlisioWebhookController.callback form
  | .submit dir http a d r => (fun _ => .done) <$> DepositController.submit dir http a d r
  | .approve adminId id scope => (fun _ => .done) <$> DepositService.approve adminId id scope
  | .reject adminId id reason scope =>
      (fun _ => .done) <$> DepositService.reject adminId id reason scope

def settles : Request → String → Prop
  | .zarinpalCallback _ a _, authority => a = authority
  | .plisioCallback form, authority => form.orderNumber = authority
  | _, _ => False

def submits : Request → ManualDepositRequest → Prop
  | .submit dir http amount _ _, row => ∃ user, http.user = some user ∧ row.userId = user.id ∧
      row.tenantId = (Tenancy.resolveTenant dir http).view ∧ row.amount = amount ∧ 0 < amount ∧
      row.status = .pending
  | _, _ => False

end Request

theorem neg_exact {a : Int64} (h : 0 < a) : (-a).toInt = -a.toInt := by
  have h₁ := a.toInt_lt
  have h₂ := Int64.lt_iff_toInt_lt.mp h
  have h₀ : (0 : Int64).toInt = 0 := rfl
  rw [Int64.toInt_neg, Int.bmod_def]
  split <;> omega

theorem balance_exact {b d : Int64} (hb : 0 ≤ b) (h : ¬b + d < 0) :
    (b + d).toInt = b.toInt + d.toInt := by
  have h₁ := b.toInt_lt
  have h₂ := d.toInt_lt
  have h₃ := d.le_toInt
  have h₄ := Int64.le_iff_toInt_le.mp hb
  have h₅ : ¬(b + d).toInt < 0 := fun hlt => h (Int64.lt_iff_toInt_lt.mpr hlt)
  have h₀ : (0 : Int64).toInt = 0 := rfl
  rw [Int64.toInt_add] at h₅ ⊢
  rw [Int.bmod_def] at h₅ ⊢
  split at h₅ <;> omega

namespace Leg

def Valid (leg : Leg) : Prop :=
  leg.delta ≠ 0 ∧ leg.type = if leg.delta < 0 then .debit else .credit

def approval (adminId id : Int) (dep : ManualDepositRequest) : Leg :=
  ⟨dep.userId, dep.amount, .credit, "Manual deposit #" ++ toString id ++ " approved",
    DepositService.depositMeta id adminId⟩

variable {desc : String} {note : TxMeta}

theorem valid_credit {id : Int} {amount : Int64} (h : 0 < amount) :
    Valid ⟨id, amount, .credit, desc, note⟩ := by
  have hn : ¬amount < 0 := by
    rw [Int64.lt_iff_toInt_lt] at h ⊢
    omega
  refine ⟨?_, by simp [hn]⟩
  rintro rfl
  exact absurd h (by decide)

theorem valid_debit {id : Int} {amount : Int64} (h : 0 < amount) :
    Valid ⟨id, -amount, .debit, desc, note⟩ := by
  have hneg : -amount < 0 := by
    have h₀ : (0 : Int64).toInt = 0 := rfl
    rw [Int64.lt_iff_toInt_lt, neg_exact h]
    have := Int64.lt_iff_toInt_lt.mp h
    omega
  refine ⟨?_, by simp [hneg]⟩
  intro h₀
  simp only at h₀
  rw [h₀] at hneg
  exact absurd hneg (by decide)

theorem valid_signed {id : Int} {delta : Int64} (h : delta ≠ 0) :
    Valid ⟨id, delta, if delta < 0 then .debit else .credit, desc, note⟩ :=
  ⟨h, rfl⟩

end Leg

def Payment.bill (p : Payment) : Int × Int64 × Gateway := (p.userId, p.amount, p.gateway)

def ManualDepositRequest.claim (d : ManualDepositRequest) : Int × Int × Int64 :=
  (d.userId, d.tenantId, d.amount)

structure Steady (R : Rely panel) : Prop where
  funded : Funded R
  order : ∀ id o o', R (.order id) o → R (.order id) o'
  settled : ∀ a (p p' : Payment), R (.payment a) (some p) → p'.bill = p.bill →
    p'.status ≠ .pending → R (.payment a) (some p')
  reviewed : ∀ id (d d' : ManualDepositRequest), R (.deposit id) (some d) → d'.claim = d.claim →
    R (.deposit id) (some d')

inductive Effect (R : Rely panel) : Request → Pending panel → Prop
  | idle {req} : Effect R req .empty
  | wallet {req legs p} (hv : ∀ leg ∈ legs, leg.Valid)
      (hs : ∀ leg ∈ legs, leg.note.source ≠ .manualDeposit) (h : Posting legs .empty p) :
      Effect R req p
  | order {req id old} (new : Order) : Effect R req (.one (S := panel) (.order id) old new)
  | opened {req a} (p : Payment) (hp : p.status = .pending) (hpos : 0 < p.amount)
      (hbonus : p.bonusAmount = 0) : Effect R req (.one (S := panel) (.payment a) none p)
  | paid {req : Request} {a} {old new : Payment} (hreq : req.settles a)
      (hold : old.status = .pending) (hnew : new.status = .paid) (hbill : new.bill = old.bill) :
      Effect R req (.one (S := panel) (.payment a) (some old) new)
  | failed {req a} {old new : Payment} (hold : old.status = .pending) (hnew : new.status = .failed)
      (hbill : new.bill = old.bill) : Effect R req (.one (S := panel) (.payment a) (some old) new)
  | submitted {req : Request} {id} (row : ManualDepositRequest) (hreq : req.submits row) :
      Effect R req (.one (S := panel) (.deposit id) none row)
  | approved {adminId id scope p} {dep old new : ManualDepositRequest}
      (hread : R (.deposit id) (some dep)) (hsees : scope.sees dep.tenantId = true)
      (hold : R (.deposit id) (some old)) (hpend : old.status = .pending)
      (hnew : new.status = .approved) (hclaim : new.claim = old.claim)
      (h : Posting [.approval adminId id dep] (.one (S := panel) (.deposit id) (some old) new) p) :
      Effect R (.approve adminId id scope) p
  | rejected {req : Request} {id} {old new : ManualDepositRequest} (hpend : old.status = .pending)
      (hnew : new.status = .rejected) (hclaim : new.claim = old.claim) :
      Effect R req (.one (S := panel) (.deposit id) (some old) new)

section effects

variable {R : Rely panel} {req : Request}

abbrev Safe (R : Rely panel) (req : Request) {α : Type} (x : Service α) : Prop :=
  Call.Safe (S := panel) R (Effect R req) x

theorem Effect.single {leg : Leg} {p : Pending panel} (hv : leg.Valid)
    (hs : leg.note.source ≠ .manualDeposit) (h : Posting [leg] .empty p) : Effect R req p := by
  have hmem : ∀ l ∈ [leg], l = leg := fun l hl => List.mem_singleton.mp hl
  refine .wallet ?_ ?_ h
  · intro l hl
    rwa [hmem l hl]
  · intro l hl
    rwa [hmem l hl]

theorem safe_user (id : Int) : Safe R req (Service.user id) :=
  Call.safe_read (S := panel) _ _

theorem safe_ask (q : Query) : Safe R req (Service.ask q) :=
  Call.safe_ask (S := panel) q

variable {desc : String} {note : TxMeta}

variable {amount : Int64} {id : Int}

theorem safe_credit (hR : Funded R)
    (hs : note.source ≠ .manualDeposit) :
    Safe R req (WalletService.creditWithMeta id amount desc note) :=
  (WalletService.outside_creditWithMeta hR fun h _ hp => .single (Leg.valid_credit h) hs hp).safe

theorem safe_debit (hR : Funded R)
    (hs : note.source ≠ .manualDeposit) :
    Safe R req (WalletService.debitWithMeta id amount desc note) :=
  (WalletService.outside_debitWithMeta hR fun h _ hp => .single (Leg.valid_debit h) hs hp).safe

theorem safe_charge (hR : Funded R) {buyer : User} {seller : Int}
    (hs : note.source ≠ .manualDeposit) :
    Safe R req (WalletService.debitWorkspacePurchase buyer seller amount desc note) := by
  refine (WalletService.outside_debitWorkspacePurchase hR fun h m p hp => .wallet ?_ ?_ hp).safe
  · intro leg hl
    rcases WalletService.mem_saleLegs hl with rfl | ⟨m, -, rfl⟩
    · exact Leg.valid_debit h
    · exact Leg.valid_credit h
  · intro leg hl
    rcases WalletService.mem_saleLegs hl with rfl | ⟨m, -, rfl⟩
    · exact hs
    · simp

theorem safe_reverse (hR : Funded R) {buyerId seller : Int}
    (hs : note.source ≠ .manualDeposit) :
    Safe R req (WalletService.refundWorkspacePurchase buyerId seller amount desc note) := by
  refine (WalletService.outside_refundWorkspacePurchase hR fun h m p hp => .wallet ?_ ?_ hp).safe
  · intro leg hl
    rcases WalletService.mem_refundLegs hl with rfl | ⟨m, -, rfl⟩
    · exact Leg.valid_credit h
    · exact Leg.valid_debit h
  · intro leg hl
    rcases WalletService.mem_refundLegs hl with rfl | ⟨m, -, rfl⟩
    · exact hs
    · simp

theorem safe_withRetry {α : Type} {fn : Service α} {P : Pending panel → α → Prop}
    (hfn : Call.Inside (S := panel) R fn .empty fun p _ r => ∀ a, r = .ok a → P p a)
    (hP : ∀ p a, P p a → Effect R req p) : Safe R req (WalletService.withRetry fn) :=
  (Call.outside_retry (S := panel) _ hfn hP).safe

theorem inside_signed (req : Request) (hR : Funded R) {delta : Int64}
    (h : delta ≠ 0) (hs : note.source ≠ .manualDeposit) :
    Call.Inside (S := panel) R (WalletService.applyDelta id delta
      (if delta < 0 then .debit else .credit) desc note) .empty
      fun p _ r => ∀ a, r = .ok a → Effect R req p := by
  refine Call.inside_mono (WalletService.inside_one hR ⟨id, delta, _, desc, note⟩) ?_
  rintro p tr r hp a rfl
  exact .single (Leg.valid_signed h) hs hp.1

theorem inside_deltaOf (req : Request) (hR : Funded R) {α : Type} (deltaOf : Int64 → Int64)
    (desc : String) (note : Int64 → TxMeta) {skip : α} {ret : Transaction → α}
    (hs : ∀ d, (note d).source ≠ .manualDeposit) :
    Call.Inside (S := panel) R (do
      match ← Service.user id with
      | none => throw .recordNotFound
      | some u =>
        if deltaOf u.balance = 0 then
          pure skip
        else
          let entry ← WalletService.applyDelta id (deltaOf u.balance)
            (if deltaOf u.balance < 0 then .debit else .credit) desc (note (deltaOf u.balance))
          pure (ret entry)) .empty fun p _ r => ∀ a, r = .ok a → Effect R req p := by
  refine Call.inside_bind (inside_user [] id) ?_ ?_
  · rintro _ tr v ⟨rfl, -, rfl⟩
    cases v with
    | none => exact Call.inside_throw (by simp)
    | some u =>
      by_cases h : deltaOf u.balance = 0
      · simp only [h, if_true]
        exact Call.inside_pure fun _ _ => .idle
      · simp only [h, if_false]
        refine Call.inside_bind (inside_signed req hR h (hs _)) ?_ (by simp)
        intro p tr a hp
        exact Call.inside_pure fun _ _ => hp a rfl
  · simp

theorem safe_setBalance (hR : Funded R) {target : Int64}
    (hs : note.source ≠ .manualDeposit) :
    Safe R req (WalletService.setBalanceWithMeta id target desc note) := by
  unfold WalletService.setBalanceWithMeta
  split
  · exact Call.safe_throw _
  · exact safe_withRetry (inside_deltaOf req hR (target - ·) desc (fun _ => note) (fun _ => hs)) (fun _ _ h => h)

theorem adjustSource_ne (op : TenantUserService.BalanceOp) (delta : Int64) :
    TenantUserService.adjustSource op delta ≠ .manualDeposit := by
  unfold TenantUserService.adjustSource
  split
  · simp
  · split <;> simp

theorem safe_loadInScope (id : Int) (scope : Scope) :
    Safe R req (TenantUserService.loadInScope id scope) := by
  refine Call.safe_bind (safe_user id) fun v => ?_
  cases v with
  | none => exact Call.safe_throw _
  | some u =>
    simp only
    split
    · exact Call.safe_throw _
    · split
      · exact Call.safe_throw _
      · exact Call.safe_pure _

theorem safe_adjustBalance (hR : Funded R) (id : Int) (op : TenantUserService.BalanceOp)
    (amount : Int64) (desc actor : String) (scope : Scope) :
    Safe R req (TenantUserService.adjustBalance id op amount desc actor scope) := by
  refine Call.safe_bind (safe_loadInScope id scope) fun _ => ?_
  have hbody : ∀ op, Safe R req (WalletService.withRetry do
      match ← Service.user id with
      | none => throw .recordNotFound
      | some u =>
        let delta := TenantUserService.adjustDelta op amount u.balance
        if delta = 0 then
          pure ()
        else
          let custType := if delta < 0 then TxType.debit else TxType.credit
          let _ ← WalletService.applyDelta id delta custType
            (if desc = "" then "workspace adjustment" else desc)
            ⟨TenantUserService.adjustSource op delta, "", actor⟩
          pure ()) := fun op =>
    safe_withRetry (inside_deltaOf req hR (TenantUserService.adjustDelta op amount) _
      (fun d => ⟨TenantUserService.adjustSource op d, "", actor⟩) (adjustSource_ne op))
      (fun _ _ h => h)
  have hget : Safe R req (WalletService.getBalance id) := by
    refine Call.safe_bind (safe_user id) fun v => ?_
    cases v with
    | none => exact Call.safe_throw _
    | some u => exact Call.safe_pure _
  split
  · exact Call.safe_throw _
  · cases op with
    | add => exact Call.safe_bind (hbody _) fun _ => hget
    | deduct => exact Call.safe_bind (hbody _) fun _ => hget
    | set => exact Call.safe_bind (hbody _) fun _ => hget
    | other op => exact Call.safe_throw _

section orders

theorem safe_offered (buyer : User) (productId : Int) (view : Scope) :
    Safe R req (OrderService.offered buyer productId view) := by
  unfold OrderService.offered
  split
  · exact Call.safe_throw _
  refine Call.safe_bind (Call.safe_result ?_) fun v => ?_
  · refine Call.safe_bind (Call.safe_result (Call.safe_read (S := panel) _ _)) fun v => ?_
    rcases v with e | _ | p
    · exact Call.safe_throw _
    · exact Call.safe_throw _
    · simp only
      split
      · exact Call.safe_pure _
      · exact Call.safe_throw _
  rcases v with e | product
  · exact Call.safe_throw _
  simp only
  split
  · exact Call.safe_throw _
  split
  · exact Call.safe_throw _
  refine Call.safe_bind ?_ fun missing => ?_
  · unfold OrderService.missingInbounds
    split
    · exact Call.safe_pure _
    · refine Call.safe_bind (safe_ask _) fun v => ?_
      rcases v with _ | missing
      · exact Call.safe_throw _
      · exact Call.safe_pure _
  · cases missing with
    | nil => exact Call.safe_pure _
    | cons _ _ => exact Call.safe_throw _

theorem safe_orderCharge (hR : Funded R) {buyer : User} {product : Product} {view : Scope}
    {action : String} {source : TxSource} (hs : source ≠ .manualDeposit) :
    Safe R req (OrderService.charge buyer product view action source) := by
  unfold OrderService.charge
  split
  · exact Call.safe_bind (safe_charge hR hs) fun _ => Call.safe_pure _
  · exact Call.safe_pure _

theorem safe_refund (hR : Funded R) (userId seller : Int) (amount : Int64) (product : Product) :
    Safe R req (OrderService.refund userId seller amount product) := by
  unfold OrderService.refund
  split
  · exact Call.safe_pure _
  · exact Call.safe_bind (Call.safe_result (safe_reverse hR (by simp))) fun _ => Call.safe_pure _

theorem safe_setStatus (hR : Steady R) (id : Int) (status : OrderStatus) (set : Order → Order) :
    Safe R req (OrderService.setStatus id status set) := by
  refine Call.safe_bind (Call.safe_result (Call.safe_update ?_)) fun _ => Call.safe_pure _
  exact fun v hv _ => ⟨hR.order _ _ _ hv, .order _⟩

theorem safe_createOrder (order : Order) :
    Safe R req (Service.create fun n => ⟨.order n, order⟩) :=
  Call.safe_create fun _ => .order _

theorem safe_costOfGoods (seller : Int) (trafficLimit : Int64) :
    Safe R req (OrderService.chargeManagerCostOfGoods seller trafficLimit) := by
  unfold OrderService.chargeManagerCostOfGoods
  split
  · exact Call.safe_pure _
  · exact safe_ask _

theorem safe_referral (hR : Funded R) (buyer : User) (id : Int) (order : Order) :
    Safe R req (OrderService.payReferralCommission buyer id order) := by
  unfold OrderService.payReferralCommission
  split
  · exact Call.safe_pure _
  refine Call.safe_bind (safe_ask _) fun v => ?_
  rcases v with _ | percent
  · exact Call.safe_pure _
  simp only
  split
  · exact Call.safe_pure _
  refine Call.safe_bind (Call.safe_result (safe_user _)) fun v => ?_
  rcases v with e | _ | referrer
  · exact Call.safe_pure _
  · exact Call.safe_pure _
  simp only
  split
  · exact Call.safe_pure _
  · exact Call.safe_bind (Call.safe_result (safe_credit hR (by simp))) fun _ => Call.safe_pure _

theorem safe_cancel (hR : Steady R) {α : Type} (buyer : User) (charged : Int64 × Int)
    (product : Product) (id : Int) :
    Safe R req (OrderService.cancel (α := α) buyer charged product id) :=
  Call.safe_bind (safe_refund hR.funded _ _ _ _) fun _ =>
    Call.safe_bind (safe_setStatus hR _ _ _) fun _ => Call.safe_throw _

theorem safe_purchase (hR : Steady R) (buyer : Option User) (productId : Int) (name : String)
    (view : Scope) : Safe R req (OrderService.purchase buyer productId name view) := by
  rcases buyer with _ | buyer
  · exact Call.safe_throw _
  refine Call.safe_bind (safe_offered _ _ _) fun product => ?_
  refine Call.safe_bind (safe_orderCharge hR.funded (by simp)) fun charged => ?_
  refine Call.safe_bind (Call.safe_result (safe_createOrder _)) fun created => ?_
  rcases created with e | id
  · exact Call.safe_bind (safe_refund hR.funded _ _ _ _) fun _ => Call.safe_throw _
  refine Call.safe_bind ?_ fun provisioned => ?_
  · unfold OrderService.provision
    split
    · exact Call.safe_pure _
    · exact safe_ask _
  rcases provisioned with _ | email
  · exact safe_cancel hR _ _ _ _
  refine Call.safe_bind (safe_setStatus hR _ _ _) fun _ => ?_
  refine Call.safe_bind (safe_costOfGoods _ _) fun _ => ?_
  exact Call.safe_bind (safe_referral hR.funded _ _ _) fun _ => Call.safe_pure _

theorem safe_renew (hR : Steady R) (buyer : Option User) (productId : Int) (email : String)
    (view : Scope) : Safe R req (OrderService.renew buyer productId email view) := by
  rcases buyer with _ | buyer
  · exact Call.safe_throw _
  refine Call.safe_bind (safe_offered _ _ _) fun product => ?_
  refine Call.safe_bind (safe_ask _) fun owner => ?_
  rcases owner with _ | ⟨owner, ownerTenant⟩
  · exact Call.safe_throw _
  simp only
  split
  · exact Call.safe_throw _
  refine Call.safe_bind (safe_orderCharge hR.funded (by simp)) fun charged => ?_
  refine Call.safe_bind (Call.safe_result (safe_createOrder _)) fun created => ?_
  rcases created with e | id
  · exact Call.safe_bind (safe_refund hR.funded _ _ _ _) fun _ => Call.safe_throw _
  refine Call.safe_bind (safe_ask _) fun applied => ?_
  rcases applied with _ | _
  · exact safe_cancel hR _ _ _ _
  refine Call.safe_bind (safe_setStatus hR _ _ _) fun _ => ?_
  refine Call.safe_bind (safe_costOfGoods _ _) fun _ => ?_
  refine Call.safe_bind ?_ fun _ => ?_
  · unfold OrderService.attach
    split
    · exact Call.safe_pure _
    · exact safe_ask _
  · exact Call.safe_bind (safe_referral hR.funded _ _ _) fun _ => Call.safe_pure _

end orders

section payments

theorem safe_getByAuthority (authority : String) :
    Safe R req (PaymentService.getByAuthority authority) := by
  refine Call.safe_bind (Call.safe_read (S := panel) _ _) fun v => ?_
  rcases v with _ | p
  · exact Call.safe_throw _
  · exact Call.safe_pure _

theorem isPending_iff {p : Payment} : PaymentService.isPending p = true ↔ p.status = .pending := by
  simp [PaymentService.isPending]

theorem safe_createPending (userId tenantId : Int) (gateway : Gateway)
    (authority currency : String) {amount : Int64} (h : 0 < amount) :
    Safe R req
      (PaymentService.createPending userId tenantId gateway authority currency amount) := by
  exact Call.safe_bind (Call.safe_create fun _ => .opened _ rfl h rfl) fun _ => Call.safe_pure _

theorem safe_markFailed (hR : Steady R) (authority : String) :
    Safe R req (PaymentService.markFailed authority) := by
  refine Call.safe_bind (Call.safe_update ?_) fun _ => Call.safe_pure _
  exact fun v hv hg => ⟨hR.settled _ v _ hv rfl (by simp), .failed (isPending_iff.mp hg) rfl rfl⟩

theorem safe_markPaid (hR : Steady R) {authority refId : String} (hreq : req.settles authority) :
    Safe R req (PaymentService.markPaid authority refId) := by
  refine Call.safe_bind (safe_getByAuthority authority) fun p => ?_
  refine Call.safe_bind (Call.safe_update ?_) fun _ => Call.safe_pure _
  exact fun v hv hg =>
    ⟨hR.settled _ v _ hv rfl (by simp), .paid hreq (isPending_iff.mp hg) rfl rfl⟩

theorem withCoin_fields (coin : String) (p : Payment) :
    (PaymentService.withCoin coin p).bill = p.bill ∧
      (PaymentService.withCoin coin p).status = p.status ∧
      (PaymentService.withCoin coin p).bonusAmount = p.bonusAmount := by
  unfold PaymentService.withCoin
  split <;> simp [Payment.bill]

theorem safe_markPaidWithBonus (hR : Steady R) {authority refId coin : String} {bonus : Int64}
    (hreq : req.settles authority) :
    Safe R req (PaymentService.markPaidWithBonus authority refId coin bonus) := by
  refine Call.safe_bind (safe_getByAuthority authority) fun p => ?_
  refine Call.safe_bind (Call.safe_update ?_) fun _ => Call.safe_pure _
  intro v hv hg
  obtain ⟨hbill, hpaid, -⟩ := withCoin_fields coin
    { v with status := .paid, refId := refId, bonusAmount := bonus }
  have hdone : (PaymentService.withCoin coin
      { v with status := .paid, refId := refId, bonusAmount := bonus }).status ≠ .pending := by
    rw [hpaid]
    simp
  exact ⟨hR.settled _ v _ hv hbill hdone, .paid hreq (isPending_iff.mp hg) hpaid hbill⟩

theorem safe_zarinpalRequest (user : Option User) (amount : Int64) :
    Safe R req (PaymentController.zarinpalRequest user amount) := by
  rcases user with _ | user
  · exact Call.safe_pure _
  simp only [PaymentController.zarinpalRequest]
  split
  · exact Call.safe_pure _
  case isFalse h =>
    refine Call.safe_bind (safe_ask _) fun authority => ?_
    rcases authority with _ | authority
    · exact Call.safe_pure _
    refine Call.safe_bind (Call.safe_result
      (safe_createPending _ _ _ _ _ (Int64.not_le.mp h))) fun created => ?_
    rcases created with e | p <;> exact Call.safe_pure _

theorem safe_zarinpalCallback (hR : Steady R) {user : Option Int} {authority status : String}
    (hreq : req.settles authority) :
    Safe R req (PaymentController.zarinpalCallback user authority status) := by
  unfold PaymentController.zarinpalCallback
  split
  · exact Call.safe_pure _
  refine Call.safe_bind (Call.safe_result (safe_getByAuthority authority)) fun payment => ?_
  rcases payment with e | payment
  · exact Call.safe_pure _
  simp only
  split
  · exact Call.safe_pure _
  split
  · exact Call.safe_bind (Call.safe_result (safe_markFailed hR authority)) fun _ => Call.safe_pure _
  split
  · exact Call.safe_pure _
  refine Call.safe_bind (safe_ask _) fun reply => ?_
  split
  · exact Call.safe_bind (Call.safe_result (safe_markFailed hR authority)) fun _ => Call.safe_pure _
  refine Call.safe_bind (Call.safe_result (safe_markPaid hR hreq)) fun marked => ?_
  rcases marked with e | ⟨transitioned, p⟩
  · exact Call.safe_pure _
  simp only
  split
  · exact Call.safe_bind (Call.safe_result (safe_credit hR.funded (by simp))) fun _ =>
      Call.safe_pure _
  · exact Call.safe_pure _

theorem safe_sourceCurrency : Safe R req PaymentController.getPlisioSourceCurrency := by
  refine Call.safe_bind (safe_ask _) fun v => ?_
  rcases v with _ | cur
  · exact Call.safe_pure _
  simp only
  split <;> exact Call.safe_pure _

theorem safe_exchangeRate : Safe R req PaymentController.getCryptoExchangeRate := by
  refine Call.safe_bind (safe_ask _) fun v => ?_
  rcases v with _ | rate
  · exact Call.safe_pure _
  simp only
  split <;> exact Call.safe_pure _

theorem safe_plisioRequest (hR : Steady R) (user : Option User) (amount : Int64) :
    Safe R req (PaymentController.plisioRequest user amount) := by
  rcases user with _ | user
  · exact Call.safe_pure _
  simp only [PaymentController.plisioRequest]
  split
  · exact Call.safe_pure _
  case isFalse h =>
    refine Call.safe_bind safe_sourceCurrency fun _ => ?_
    refine Call.safe_bind safe_exchangeRate fun _ => ?_
    refine Call.safe_bind (safe_ask _) fun authority => ?_
    refine Call.safe_bind (Call.safe_result
      (safe_createPending _ _ _ _ _ (Int64.not_le.mp h))) fun created => ?_
    rcases created with e | p
    · exact Call.safe_pure _
    refine Call.safe_bind (safe_ask _) fun opened => ?_
    cases opened with
    | true => exact Call.safe_pure _
    | false => exact Call.safe_bind (Call.safe_result (safe_markFailed hR _)) fun _ => Call.safe_pure _

theorem safe_computeBonus (userId : Int) (deposit : Int64) :
    Safe R req (PlisioWebhookController.computeBonus userId deposit) := by
  refine Call.safe_bind (safe_ask _) fun enabled => ?_
  cases enabled with
  | false => exact Call.safe_pure _
  | true =>
    refine Call.safe_bind (Call.safe_result (safe_user _)) fun v => ?_
    rcases v with e | _ | user
    · exact Call.safe_pure _
    · exact Call.safe_pure _
    simp only
    split
    · exact Call.safe_pure _
    refine Call.safe_bind (safe_ask _) fun pct => ?_
    split
    · exact Call.safe_pure _
    refine Call.safe_bind (safe_ask _) fun minDep => ?_
    split
    · exact Call.safe_pure _
    refine Call.safe_bind (safe_ask _) fun maxBonus => ?_
    split <;> exact Call.safe_pure _

theorem safe_settle (hR : Funded R) (form : PlisioForm) (bonus pct : Int64) (p : Payment) :
    Safe R req (PlisioWebhookController.settle form bonus pct p) := by
  refine Call.safe_bind (Call.safe_result (safe_credit hR (by simp))) fun _ => ?_
  split
  · exact Call.safe_bind (Call.safe_result (safe_credit hR (by simp))) fun _ => Call.safe_pure _
  · exact Call.safe_pure _

theorem safe_plisioCallback (hR : Steady R) {form : PlisioForm}
    (hreq : req.settles form.orderNumber) :
    Safe R req (PlisioWebhookController.callback form) := by
  refine Call.safe_bind (Call.safe_result (safe_getByAuthority _)) fun payment => ?_
  rcases payment with e | payment
  · exact Call.safe_pure _
  simp only
  split
  · exact Call.safe_pure _
  refine Call.safe_bind (safe_ask _) fun cfg => ?_
  split
  · exact Call.safe_pure _
  refine Call.safe_bind (safe_ask _) fun signed => ?_
  split
  · exact Call.safe_pure _
  split
  · exact Call.safe_pure _
  refine Call.safe_bind safe_sourceCurrency fun cfgCurrency => ?_
  split
  · exact Call.safe_pure _
  refine Call.safe_bind safe_exchangeRate fun rate => ?_
  split
  · exact Call.safe_pure _
  refine Call.safe_bind (safe_computeBonus _ _) fun bonus => ?_
  refine Call.safe_bind (Call.safe_result (safe_markPaidWithBonus hR hreq)) fun marked => ?_
  rcases marked with e | ⟨transitioned, p⟩
  · exact Call.safe_pure _
  simp only
  split
  · exact Call.safe_bind (safe_settle hR.funded _ _ _ _) fun _ => Call.safe_pure _
  · exact Call.safe_pure _

end payments

section deposits

theorem safe_get (id : Int) (scope : Scope) : Safe R req (DepositService.get id scope) := by
  refine Call.safe_bind (Call.safe_read (S := panel) _ _) fun v => ?_
  split
  · exact Call.safe_throw _
  · exact Call.safe_pure _

theorem reviewable_iff {scope : Scope} {d : ManualDepositRequest} :
    DepositService.reviewable scope d = true ↔ scope.sees d.tenantId = true ∧ d.status = .pending := by
  simp [DepositService.reviewable]

theorem safe_submit {dir : Tenancy.Directory} {http : Tenancy.Request} {amount : Int64}
    {description receipt : String} :
    Safe R (.submit dir http amount description receipt)
      (DepositController.submit dir http amount description receipt) := by
  unfold DepositController.submit
  cases hu : http.user with
  | none => exact Call.safe_throw _
  | some user =>
    simp only
    split
    · exact Call.safe_throw _
    case isFalse hpos =>
      unfold DepositService.createRequest
      split
      · exact Call.safe_throw _
      refine Call.safe_bind (Call.safe_create ?_) fun _ => Call.safe_pure _
      intro n
      have hrow : Request.submits (.submit dir http amount description receipt)
          { userId := user.id,
            tenantId := (Tenancy.resolveTenant dir http).viewScope.ownerTenantId,
            amount := amount, description := Text.trimSpace (Text.trimSpace description),
            receiptImage := receipt, status := .pending, rejectionReason := "", approvedBy := 0,
            approvedAt := 0 } :=
        ⟨user, hu, rfl, rfl, rfl, Int64.not_le.mp hpos, rfl⟩
      exact .submitted _ hrow

theorem inSome {scope : Scope} {v : Option ManualDepositRequest} {dep : ManualDepositRequest}
    (h : DepositService.inScope scope v = some dep) :
    v = some dep ∧ scope.sees dep.tenantId = true := by
  cases v with
  | none => cases h
  | some d =>
    simp only [DepositService.inScope, Option.filter_some] at h
    split at h
    case isTrue hs =>
      obtain rfl := Option.some.inj h
      exact ⟨rfl, hs⟩
    case isFalse => cases h

theorem inside_approveTx (hR : Steady R) (adminId id : Int) (scope : Scope) :
    Call.Inside (S := panel) R (DepositService.approveTx adminId id scope) .empty
      fun p _ r => ∀ a, r = .ok a → Effect R (.approve adminId id scope) p := by
  refine Call.inside_bind (Call.inside_read (Q := fun p tr r => p = .empty ∧
    ∀ v, r = .ok v → R (.deposit id) v) (fun v hv => ⟨rfl, by rintro _ ⟨⟩; exact hv⟩)
    ⟨rfl, by simp⟩) ?_ (by simp)
  rintro _ tr v ⟨rfl, hv⟩
  cases hs : DepositService.inScope scope v with
  | none => exact Call.inside_throw (by simp)
  | some dep =>
    obtain ⟨rfl, hsees⟩ := inSome hs
    simp only
    split
    · exact Call.inside_throw (by simp)
    refine Call.inside_bind (Call.inside_ask (Q := fun p tr r => p = .empty) fun _ => rfl) ?_
      (by simp)
    rintro _ tr now rfl
    refine Call.inside_bind (Call.inside_update (Q := fun p tr r => r = .ok true →
      ∃ old new : ManualDepositRequest, R (.deposit id) (some old) ∧ old.status = .pending ∧
        new.status = .approved ∧ new.claim = old.claim ∧
        p = .one (S := panel) (.deposit id) (some old) new) ?_ (by simp) (by simp)) ?_ (by simp)
    · intro old hold hg
      refine ⟨hR.reviewed _ _ _ hold rfl, fun _ => ?_⟩
      exact ⟨old, { old with status := .approved, approvedBy := adminId, approvedAt := now }, hold,
        (reviewable_iff.mp hg).2, rfl, rfl, rfl⟩
    · intro p tr moved h
      cases moved with
      | false => exact Call.inside_throw (by simp)
      | true =>
        obtain ⟨old, new, hold, hpend, hnew, hclaim, rfl⟩ := h rfl
        have hleg : ∀ l ∈ [Leg.approval adminId id dep],
            l.user = (Leg.approval adminId id dep).user → l = Leg.approval adminId id dep := by
          intro l hl _
          exact List.mem_singleton.mp hl
        refine Call.inside_bind (inside_applyDelta hR.funded (List.mem_singleton.mpr rfl) hleg) ?_
          (by simp)
        intro p tr _ hp
        refine Call.inside_pure fun _ _ => ?_
        have hfree := Pending.one_held_of_ne (S := panel) (k := Key.deposit id)
          (j := Key.user dep.userId) (some old) new (by simp)
        exact .approved (hv _ rfl) hsees hold hpend hnew hclaim
          (WalletService.posting_one hfree hp.1)

theorem safe_approve (hR : Steady R) (adminId id : Int) (scope : Scope) :
    Safe R (.approve adminId id scope) (DepositService.approve adminId id scope) :=
  Call.safe_bind (safe_get id scope) fun _ =>
    safe_withRetry (inside_approveTx hR adminId id scope) (fun _ _ h => h)

theorem safe_reject (hR : Steady R) (adminId id : Int) (reason : String) (scope : Scope) :
    Safe R req (DepositService.reject adminId id reason scope) := by
  unfold DepositService.reject
  split
  · exact Call.safe_throw _
  refine Call.safe_bind (safe_get id scope) fun _ => ?_
  refine Call.safe_bind (safe_ask _) fun now => ?_
  refine Call.safe_bind (Call.safe_update ?_) fun moved => ?_
  · exact fun v hv hg => ⟨hR.reviewed _ v _ hv rfl, .rejected (reviewable_iff.mp hg).2 rfl rfl⟩
  · cases moved with
    | false => exact Call.safe_throw _
    | true => exact safe_get id scope

end deposits

theorem request_effects (hR : Steady R) (req : Request) : Safe R req req.run := by
  cases req with
  | credit u a d n => exact Call.safe_map (safe_credit hR.funded n.2)
  | debit u a d n => exact Call.safe_map (safe_debit hR.funded n.2)
  | setBalance u t d n => exact Call.safe_map (safe_setBalance hR.funded n.2)
  | debitWorkspacePurchase b s a d n => exact Call.safe_map (safe_charge hR.funded n.2)
  | refundWorkspacePurchase b s a d n => exact Call.safe_map (safe_reverse hR.funded n.2)
  | adjustBalance id op a d actor scope =>
    exact Call.safe_map (safe_adjustBalance hR.funded id op a d actor scope)
  | purchase b p name view => exact Call.safe_map (safe_purchase hR b p name view)
  | renew b p email view => exact Call.safe_map (safe_renew hR b p email view)
  | zarinpalRequest u a => exact Call.safe_map (safe_zarinpalRequest u a)
  | zarinpalCallback u a s => exact Call.safe_map (safe_zarinpalCallback hR rfl)
  | plisioRequest u a => exact Call.safe_map (safe_plisioRequest hR u a)
  | plisioCallback form => exact Call.safe_map (safe_plisioCallback hR rfl)
  | submit dir http a d r => exact Call.safe_map safe_submit
  | approve adminId id scope => exact Call.safe_map (safe_approve hR adminId id scope)
  | reject adminId id reason scope => exact Call.safe_map (safe_reject hR adminId id reason scope)

end effects

end QuiPanel
