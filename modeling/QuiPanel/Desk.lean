import QuiPanel.Lifecycle

namespace QuiPanel

namespace Clients

open Keyed Outcome

structure Staff extends User where
  allowedInbounds : List Int
  costPerGBOverride : Int

structure BandwidthQuota where
  quotaBytes : Int
  usedBytes : Int

structure Charge where
  userId : Int
  cost : Int
  totalBytes : Int

structure Panel where
  db : DB
  workspaceInbounds : Int → List Int
  quotas : Int → Option BandwidthQuota
  clientCost : Int → Role → Int × Int
  resetCost : Int → Role → Int × Int
  charges : List Charge

structure WalletDraws where
  debit : Option String
  refund : Option String

def bytesPerGB : Int := 1073741824

def computeClientCost (base perGB totalBytes : Int) : Int :=
  let cost :=
    if 0 < perGB ∧ 0 < totalBytes then base + (2 * totalBytes * perGB + bytesPerGB) / (2 * bytesPerGB) else base
  if cost < 0 then 0 else cost

def overBandwidthQuota (p : Panel) (tenantId : Int) : Bool :=
  if tenantId ≤ globalTenantId then false
  else (p.quotas tenantId).any fun t => 0 < t.quotaBytes && t.quotaBytes ≤ t.usedBytes

def requireOwnership (user : Staff) (p : Panel) (email : String) : Bool :=
  user.isAdmin || (p.db.record email).any fun rec =>
    if user.isManager then rec.tenantId == user.tenantId else rec.ownerId == user.id

section wallet

variable (user : Staff) (w : WalletDraws) (p : Panel) (cost totalBytes : Int)

def charge : Except String Panel :=
  if cost ≤ 0 then .ok p
  else
    match w.debit with
    | some e => .error e
    | none => .ok { p with charges := p.charges ++ [⟨user.id, cost, totalBytes⟩] }

def refundCharge : Panel :=
  if cost ≤ 0 ∨ w.refund.isSome then p
  else { p with charges := p.charges ++ [⟨user.id, -cost, -totalBytes⟩] }

def prepaid (act : DB → DB × Except String Unit) : Panel × Except String Unit :=
  match charge user w p cost totalBytes with
  | .error e => (p, .error e)
  | .ok p =>
    match act p.db with
    | (db, .error e) => (refundCharge user w { p with db } cost totalBytes, .error e)
    | (db, .ok u) => ({ p with db }, .ok u)

end wallet

def serverOwned (d : Draws) (c : Client) : Client :=
  { c with
    subID := d.subID, password := d.password, auth := d.auth, comment := "", reset := 0, group := ""
    id := d.uuid, reverse := none }

def stored (rec : ClientRecord) (updated : Client) : Client :=
  { updated with
    subID := rec.subID, password := rec.password, auth := rec.auth, comment := rec.comment
    reset := rec.reset, group := rec.group, id := rec.id, reverse := rec.reverse }

def bandwidthExhausted : String := "pages.clients.toasts.bandwidthExhausted"

def forbidden : String := "pages.clients.toasts.forbidden"

def createCost (user : Staff) (p : Panel) (totalBytes : Int) : Int :=
  if user.isAdmin || user.isManager then 0
  else
    let (base, perGB) := p.clientCost user.tenantId user.role
    computeClientCost base (if 0 < user.costPerGBOverride then user.costPerGBOverride else perGB) totalBytes

def resetCostOf (user : Staff) (p : Panel) (quota : Int) : Int :=
  if user.isAdmin || user.isManager then 0
  else
    let (base, perGB) := p.resetCost user.tenantId user.role
    computeClientCost base perGB quota

def createPayload (user : Staff) (d : Draws) (payload : ClientCreatePayload) : ClientCreatePayload :=
  { payload with
    ownerId := user.id
    tenantId := user.tenantId
    client := if user.isAdmin then payload.client else serverOwned d payload.client }

def quotaInForce (db : DB) (email : String) : Int :=
  ((db.traffics.find? (·.email = email)).map (·.total)).getD 0

structure Draw where
  client : Draws
  reset : Draws
  wallet : WalletDraws

inductive Request
  | create (payload : ClientCreatePayload)
  | update (email : String) (updated : Client) (inboundIds : List Int)
  | rotate (email : String) (opts : RotateOptions)
  | attach (email : String) (inboundIds : List Int)
  | resetTraffic (email : String)
  | delete (email : String) (keepTraffic : Bool)

section controller

variable (env : Env) (user : Staff) (x : Draw) (p : Panel)

def onClients (r : DB × Except String Unit) : Panel × Except String Unit := ({ p with db := r.1 }, r.2)

def createClient (payload : ClientCreatePayload) : Panel × Except String Unit :=
  if user.tenantId ≠ globalTenantId ∧ overBandwidthQuota p user.tenantId then (p, .error bandwidthExhausted)
  else
    let payload := createPayload user x.client payload
    prepaid user x.wallet p (createCost user p payload.client.totalGB) payload.client.totalGB
      fun db => create env x.client db payload

def owned (email : String) (act : Panel × Except String Unit) : Panel × Except String Unit :=
  if requireOwnership user p email then act else (p, .error forbidden)

def updateClient (email : String) (updated : Client) (inboundIds : List Int) : Panel × Except String Unit :=
  let updated :=
    if user.isAdmin then updated
    else
      match p.db.record email with
      | some rec => stored rec updated
      | none => updated
  owned user p email (onClients p (updateByEmail env x.client p.db email updated inboundIds))

def rotateClient (email : String) (opts : RotateOptions) : Panel × Except String Unit :=
  owned user p email (onClients p (rotate env x.client p.db email opts))

def attachClient (email : String) (inboundIds : List Int) : Panel × Except String Unit :=
  owned user p email (onClients p (attachByEmail env x.client p.db email inboundIds))

def deleteClient (email : String) (keepTraffic : Bool) : Panel × Except String Unit :=
  owned user p email (onClients p (deleteByEmail x.client p.db email keepTraffic))

def resetClient (email : String) : Panel × Except String Unit :=
  let quota := if user.isAdmin then 0 else quotaInForce p.db email
  owned user p email <|
    prepaid user x.wallet p (resetCostOf user p quota) quota fun db =>
      resetTrafficByEmail env x.client x.reset db email

def handle : Request → Panel × Except String Unit
  | .create payload => createClient env user x p payload
  | .update email updated inboundIds => updateClient env user x p email updated inboundIds
  | .rotate email opts => rotateClient env user x p email opts
  | .attach email inboundIds => attachClient env user x p email inboundIds
  | .resetTraffic email => resetClient env user x p email
  | .delete email keepTraffic => deleteClient user x p email keepTraffic

end controller

section prepaid

variable {user : Staff} {w : WalletDraws} {p p' : Panel} {cost totalBytes : Int}
  {act : DB → DB × Except String Unit}

theorem charge_keeps (h : charge user w p cost totalBytes = .ok p') :
    p'.db = p.db ∧ p'.workspaceInbounds = p.workspaceInbounds := by
  rw [charge] at h
  split at h
  · cases h
    exact ⟨rfl, rfl⟩
  · split at h
    · cases h
    · cases h
      exact ⟨rfl, rfl⟩

theorem refundCharge_keeps : (refundCharge user w p cost totalBytes).db = p.db ∧
    (refundCharge user w p cost totalBytes).workspaceInbounds = p.workspaceInbounds := by
  rw [refundCharge]
  split <;> exact ⟨rfl, rfl⟩

theorem prepaid_keeps : (prepaid user w p cost totalBytes act).1.workspaceInbounds = p.workspaceInbounds ∧
    ((charge user w p cost totalBytes).isOk = false ∧ (prepaid user w p cost totalBytes act).1 = p ∨
      (charge user w p cost totalBytes).isOk = true ∧
        (prepaid user w p cost totalBytes act).1.db = (act p.db).1) := by
  rw [prepaid]
  cases hcharge : charge user w p cost totalBytes with
  | error err => exact ⟨rfl, .inl ⟨rfl, rfl⟩⟩
  | ok p' =>
    obtain ⟨hdb, hworkspace⟩ := charge_keeps hcharge
    dsimp only
    rw [hdb]
    cases hact : act p.db with
    | mk db result =>
      cases result with
      | error err =>
        obtain ⟨hdb', hworkspace'⟩ := @refundCharge_keeps user w { p' with db } cost totalBytes
        exact ⟨hworkspace'.trans hworkspace, .inr ⟨rfl, hdb'⟩⟩
      | ok u => exact ⟨hworkspace, .inr ⟨rfl, rfl⟩⟩

end prepaid

def runRequests (env : Env) (user : Staff) (p : Panel) (acts : List (Request × Draw)) : Panel :=
  acts.foldl (fun p a => (handle env user a.2 p a.1).1) p

structure InboundOption where
  id : Int
  protocol : Ports.Protocol
  nodeId : Option Int
  ssMethod : String
  tlsFlowCapable : Bool
  deriving DecidableEq

def allInboundOptions (p : Panel) : List InboundOption :=
  (p.db.inbounds.rows.insertionSort fun a b => a.id ≤ b.id).map fun ib =>
    ⟨ib.id, ib.protocol, ib.nodeId, ib.method, ib.tlsFlowCapable⟩

def getAllowedInbounds (p : Panel) (tenantId : Int) : List Int :=
  if tenantId ≤ globalTenantId then [] else p.workspaceInbounds tenantId

def intersectInts (a b : List Int) : List Int := a.filter b.contains

def effectiveInbounds (user : Staff) (p : Panel) : List Int :=
  let tenantSet := getAllowedInbounds p user.tenantId
  if user.allowedInbounds ≠ [] then
    if tenantSet ≠ [] then intersectInts user.allowedInbounds tenantSet else user.allowedInbounds
  else tenantSet

def allowedInboundSet (user : Staff) (p : Panel) : Option (List Int) :=
  if effectiveInbounds user p = [] then none else some (effectiveInbounds user p)

def getVisibleInboundOptions (user : Staff) (p : Panel) : List InboundOption :=
  if user.isAdmin then allInboundOptions p
  else
    match allowedInboundSet user p with
    | none => allInboundOptions p
    | some allowed => (allInboundOptions p).filter fun o => allowed.contains o.id

end Clients

end QuiPanel
