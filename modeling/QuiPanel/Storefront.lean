import QuiPanel.Desk
import QuiPanel.Order

namespace QuiPanel

namespace Clients

open Keyed Outcome
open OrderService (workspaceCanBuy ownerManager mayRenew)

structure Account extends Staff where
  registered : 0 < id

def Account.buyer (a : Account) : Buyer := ⟨a.toUser, a.registered⟩

structure Shop extends Panel where
  products : Int → Option Product

structure OrderDraws where
  missing : Option String
  debit : Option String
  order : Except String Nat
  client : Draws
  enable : Draws
  reset : Draws
  attach : Draws

def errProductUnavailable : String := "product is not available for purchase"

def errProductMisconfigured : String := "product references an inbound that no longer exists"

def errServiceNotFound : String := "service not found"

def errServiceForbidden : String := "you do not own this service"

def errForeignWorkspace : String := "you can only buy on your own workspace"

section order

variable (env : Env) (user : Account) (x : OrderDraws) (s : Shop)

def missingInbounds (ids : List Int) : List Int := ids.filter fun i => (s.db.inbounds.find i).isNone

def offered (productId : Int) (view : Scope) : Except String Product := do
  check (workspaceCanBuy user.toUser view) errForeignWorkspace
  let product ← orErr ((s.products productId).filter fun p => view.sees p.tenantId) errProductUnavailable
  check (product.status == .active) errProductUnavailable
  check (user.canProductManage || productAudienceAllows product.audience user.role) errProductUnavailable
  check (product.inboundIds.isEmpty || x.missing.isNone) (x.missing.getD "")
  check (missingInbounds s product.inboundIds).isEmpty errProductMisconfigured
  return product

def ordered (product : Product) (view : Scope) : Except String Nat := do
  check (!decide (0 < product.price) || ownerManager user.toUser view || x.debit.isNone) (x.debit.getD "")
  x.order

def purchasable (productId : Int) (view : Scope) : Except String (Product × Nat) := do
  let product ← offered user x s productId view
  let orderId ← ordered user x product view
  return (product, orderId)

def purchase (productId : Int) (name : String) (view : Scope) : Shop × Except String Unit :=
  match purchasable user x s productId view with
  | .error e => (s, .error e)
  | .ok (product, orderId) =>
    if product.inboundIds = [] then (s, .ok ())
    else
      let (db, result) := provision env x.client s.db user.buyer product orderId name view.tenantId
      ({ s with db }, result.map fun _ => ())

def renewable (productId : Int) (email : String) (view : Scope) : Except String Product := do
  let product ← offered user x s productId view
  let rec ← orErr (s.db.record email) errServiceNotFound
  check (mayRenew user.toUser rec.ownerId rec.tenantId) errServiceForbidden
  let _ ← ordered user x product view
  return product

def planned (now : Int) (rec : ClientRecord) (product : Product) : Client :=
  { rec.toClient with
    expiryTime :=
      if 0 < product.durationDays then env.addDate (max now rec.expiryTime) product.durationDays else 0
    totalGB := product.trafficLimit.toInt
    enable := true }

def applyPlan (db : DB) (email : String) (product : Product) : DB × Except String Unit :=
  match db.record email with
  | none => (db, .error errServiceNotFound)
  | some rec =>
    andThen (updateByEmail env x.client db email (planned env x.client.now rec product) []) fun db _ =>
      ((resetTrafficByEmail env x.enable x.reset db email).1, .ok ())

def renew (productId : Int) (email : String) (view : Scope) : Shop × Except String Unit :=
  match renewable user x s productId email view with
  | .error e => (s, .error e)
  | .ok product =>
    match applyPlan env x s.db email product with
    | (db, .error e) => ({ s with db }, .error e)
    | (db, .ok _) =>
      if product.inboundIds = [] then ({ s with db }, .ok ())
      else ({ s with db := (attachByEmail env x.attach db email product.inboundIds).1 }, .ok ())

end order

inductive ShopRequest
  | create (payload : ClientCreatePayload)
  | attach (email : String) (inboundIds : List Int)
  | purchase (productId : Int) (name : String) (view : Scope)
  | renew (productId : Int) (email : String) (view : Scope)
  | resetTraffic (email : String)

structure ShopDraw where
  desk : Draw
  order : OrderDraws

def onPanel (s : Shop) (r : Panel × Except String Unit) : Shop × Except String Unit :=
  ({ s with toPanel := r.1 }, r.2)

def serve (env : Env) (user : Account) (x : ShopDraw) (s : Shop) : ShopRequest → Shop × Except String Unit
  | .create payload => onPanel s (createClient env user.toStaff x.desk s.toPanel payload)
  | .attach email inboundIds => onPanel s (attachClient env user.toStaff x.desk s.toPanel email inboundIds)
  | .purchase productId name view => purchase env user x.order s productId name view
  | .renew productId email view => renew env user x.order s productId email view
  | .resetTraffic email => onPanel s (resetClient env user.toStaff x.desk s.toPanel email)

end Clients

end QuiPanel
