import QuiPanel.Wallet

namespace QuiPanel

open ReadCommitted

namespace ProductService

def get (id : Int) (scope : Scope) : Service Product := do
  match ← Call.result (Service.product id) with
  | .ok (some p) => if scope.sees p.tenantId then pure p else throw .productNotFound
  | _ => throw .productNotFound

end ProductService

namespace OrderService

def productLine (action : String) (product : Product) : String :=
  action ++ ": " ++ product.name ++ " (#" ++ toString product.id ++ ")"

def workspaceCanBuy (buyer : User) (view : Scope) : Bool :=
  if buyer.isAdmin then true
  else if buyer.isManager then
    view.tenantId == buyer.tenantId || view.tenantId == globalTenantId
  else view.tenantId == buyer.tenantId

def missingInbounds (ids : List Int) : Service (List Int) := do
  if ids = [] then
    pure []
  else
    match ← Service.ask (.missingInbounds ids) with
    | none => throw .database
    | some missing => pure missing

def offered (buyer : User) (productId : Int) (view : Scope) : Service Product := do
  if !workspaceCanBuy buyer view then
    throw .foreignWorkspace
  else
    match ← Call.result (ProductService.get productId view) with
    | .error _ => throw .productUnavailable
    | .ok product =>
      if product.status ≠ .active then
        throw .productUnavailable
      else if !buyer.canProductManage && !productAudienceAllows product.audience buyer.role then
        throw .productUnavailable
      else
        match ← missingInbounds product.inboundIds with
        | [] => pure product
        | _ => throw .productMisconfigured

def ownerManager (buyer : User) (view : Scope) : Bool :=
  buyer.isManager && buyer.tenantId == view.tenantId

def charge (buyer : User) (product : Product) (view : Scope) (action : String)
    (source : TxSource) : Service (Int64 × Int) := do
  if product.price > 0 ∧ ownerManager buyer view = false then
    let chargedTenant ← WalletService.debitWorkspacePurchase buyer view.tenantId product.price
      (productLine action product) ⟨source, toString product.id, buyer.username⟩
    pure (product.price, chargedTenant)
  else
    pure (0, 0)

def refund (userId sellerTenantId : Int) (amount : Int64) (product : Product) : Service Unit := do
  if amount ≤ 0 then
    pure ()
  else
    let _ ← Call.result (WalletService.refundWorkspacePurchase userId sellerTenantId amount
      (productLine "refund (order failed)" product) ⟨.refund, toString product.id, ""⟩)
    pure ()

def setStatus (id : Int) (status : OrderStatus) (set : Order → Order) : Service Unit := do
  let _ ← Call.result (Service.update (.order id) (fun _ => true)
    (fun (o : Order) => set { o with status := status }))
  pure ()

def chargeManagerCostOfGoods (sellerTenantId : Int) (trafficLimit : Int64) : Service Unit := do
  if sellerTenantId ≤ globalTenantId then
    pure ()
  else
    Service.costOfGoods sellerTenantId trafficLimit

def payReferralCommission (buyer : User) (id : Int) (order : Order) : Service Unit := do
  if order.amount ≤ 0 ∨ buyer.referredByUserId ≤ 0 then
    pure ()
  else
    match ← Service.ask .referralCommissionPercent with
    | none => pure ()
    | some percent =>
      if percent ≤ 0 then
        pure ()
      else
        match ← Call.result (Service.user buyer.referredByUserId) with
        | .ok (some referrer) =>
          let commission := order.amount * percent / 100
          if referrer.role ≠ .reseller ∨ commission ≤ 0 then
            pure ()
          else
            let _ ← Call.result (WalletService.creditWithMeta referrer.id commission
              ("referral commission " ++ toString percent ++ "% — " ++ buyer.username ++ " order #" ++
                toString id) ⟨.referral, toString id, buyer.username⟩)
            pure ()
        | _ => pure ()

def newOrder (buyer : User) (product : Product) (view : Scope) (clientEmail : String) : Order where
  userId := buyer.id
  tenantId := view.tenantId
  productId := product.id
  productName := product.name
  amount := product.price
  status := .pending
  clientEmail := clientEmail

def cancel {α : Type} (buyer : User) (charged : Int64 × Int) (product : Product) (id : Int) :
    Service α := do
  refund buyer.id charged.2 charged.1 product
  setStatus id .cancelled fun o => o
  throw .provisioning

def provision (buyer : User) (product : Product) (id : Int) (name : String) (view : Scope) :
    Service (Option String) :=
  if product.inboundIds = [] then pure (some "")
  else Service.provision buyer.id product.id id name view.tenantId

def purchase (buyer : Option User) (productId : Int) (name : String) (view : Scope) :
    Service Order := do
  match buyer with
  | none => throw .buyerRequired
  | some buyer =>
    let product ← offered buyer productId view
    let charged ← charge buyer product view "purchase" .purchase
    let order := newOrder buyer product view ""
    match ← Call.result (Service.create fun n => ⟨.order n, order⟩) with
    | .error e =>
      refund buyer.id charged.2 charged.1 product
      throw e
    | .ok id =>
      match ← provision buyer product id name view with
      | none => cancel buyer charged product id
      | some email =>
        setStatus id .completed fun o => { o with clientEmail := email }
        chargeManagerCostOfGoods view.tenantId product.trafficLimit
        payReferralCommission buyer id order
        pure { order with status := .completed, clientEmail := email }

def mayRenew (buyer : User) (owner ownerTenant : Int) : Bool :=
  buyer.isAdmin || (buyer.isManager && ownerTenant == buyer.tenantId) || owner == buyer.id

def attach (email : String) (product : Product) : Service Unit :=
  if product.inboundIds = [] then pure () else Service.attachByEmail email product.inboundIds

def renew (buyer : Option User) (productId : Int) (email : String) (view : Scope) :
    Service Order := do
  match buyer with
  | none => throw .buyerRequired
  | some buyer =>
    let product ← offered buyer productId view
    match ← Service.ask (.clientScopeByEmail email) with
    | none => throw .serviceNotFound
    | some (owner, ownerTenant) =>
      if !mayRenew buyer owner ownerTenant then
        throw .serviceForbidden
      else
        let charged ← charge buyer product view "renew" .renewal
        let order := newOrder buyer product view email
        match ← Call.result (Service.create fun n => ⟨.order n, order⟩) with
        | .error e =>
          refund buyer.id charged.2 charged.1 product
          throw e
        | .ok id =>
          match ← Service.applyPlan email product.id with
          | none => cancel buyer charged product id
          | some _ =>
            setStatus id .completed fun o => o
            chargeManagerCostOfGoods view.tenantId product.trafficLimit
            attach email product
            payReferralCommission buyer id order
            pure { order with status := .completed }

end OrderService

end QuiPanel
