import QuiPanel.Wallet
import QuiPanel.Text

namespace QuiPanel

open ReadCommitted

namespace Tenancy

structure Request where
  user : Option User
  tenantHint : Option Int
  workspace : Option String
  host : String

structure Resolved where
  home : Int
  homeGlobal : Bool
  view : Int
  deriving DecidableEq

namespace Resolved

def homeScopeStrict (r : Resolved) : Scope := .tenantOnly r.home

def viewScope (r : Resolved) : Scope := .tenantOnly r.view

end Resolved

structure Directory where
  byId : Int → Option Tenant
  bySlug : String → Option Tenant
  byDomain : String → Option Tenant
  byManagerUserId : Int → Option Tenant

variable (dir : Directory)

def getById (id : Int) : Option Tenant := if id ≤ globalTenantId then none else dir.byId id

def getByManagerUserId (userId : Int) : Option Tenant :=
  if userId ≤ 0 then none else dir.byManagerUserId userId

def getBySlug (slug : String) : Option Tenant :=
  let slug := Text.toLower (Text.trimSpace slug)
  if slug = "" then none else dir.bySlug slug

def getByDomain (domain : String) : Option Tenant :=
  let domain := Text.toLower (Text.trimSpace domain)
  if domain = "" then none else dir.byDomain domain

def hostName (host : String) : String :=
  Text.toLower (Text.trimSpace (String.ofList (host.toList.takeWhile (· ≠ ':'))))

def domainTenant (host : String) : Option Tenant :=
  if hostName host = "" then none
  else (getByDomain dir (hostName host)).filter (·.status == .active)

def impersonationTarget (r : Request) : Option Int := r.tenantHint.filter (globalTenantId < ·)

def resolveHome (r : Request) : Int × Bool :=
  match r.user with
  | none => (globalTenantId, false)
  | some user =>
    if user.isAdmin then
      match impersonationTarget r with
      | none => (globalTenantId, true)
      | some id => if (getById dir id).isSome then (id, false) else (globalTenantId, true)
    else if user.tenantId ≤ globalTenantId ∧ user.role = .manager then
      match getByManagerUserId dir user.id with
      | some t => (t.id, false)
      | none => (noTenantSentinel, false)
    else (user.tenantId, false)

def resolveView (r : Request) (home : Int) : Int :=
  match r.workspace with
  | some slug =>
    if Text.trimSpace slug = "" then globalTenantId
    else
      match getBySlug dir (Text.trimSpace slug) with
      | none => globalTenantId
      | some t => if t.status = .active then t.id else globalTenantId
  | none =>
    match domainTenant dir r.host with
    | some t => t.id
    | none => home

def resolveTenant (r : Request) : Resolved :=
  let (home, homeGlobal) := resolveHome dir r
  ⟨home, homeGlobal, resolveView dir r home⟩

end Tenancy

namespace DepositService

structure DepositInput where
  amount : Int64
  description : String
  receiptImage : String

def createRequest (userId : Int) (input : DepositInput) (scope : Scope) : Service Int := do
  if userId ≤ 0 ∨ input.amount ≤ 0 then
    throw .invalidDeposit
  else
    let req : ManualDepositRequest :=
      { userId := userId, tenantId := scope.ownerTenantId, amount := input.amount,
        description := Text.trimSpace input.description, receiptImage := input.receiptImage,
        status := .pending, rejectionReason := "", approvedBy := 0, approvedAt := 0 }
    let n ← Service.create fun n => ⟨.deposit n, req⟩
    pure n

def inScope (scope : Scope) (d : Option ManualDepositRequest) : Option ManualDepositRequest :=
  d.filter fun d => scope.sees d.tenantId

def get (id : Int) (scope : Scope) : Service ManualDepositRequest := do
  match inScope scope (← Service.deposit id) with
  | none => throw .depositNotFound
  | some d => pure d

def reviewable (scope : Scope) (d : ManualDepositRequest) : Bool :=
  scope.sees d.tenantId && d.status == .pending

def depositMeta (id adminId : Int) : TxMeta := ⟨.manualDeposit, toString id, toString adminId⟩

def approveTx (adminId id : Int) (scope : Scope) : Service ManualDepositRequest := do
  match inScope scope (← Service.deposit id) with
  | none => throw .recordNotFound
  | some dep =>
    if dep.status ≠ .pending then
      throw .depositNotPending
    else
      let now : Int ← Service.ask .now
      let moved ← Service.update (.deposit id) (reviewable scope)
        fun (d : ManualDepositRequest) =>
          { d with status := .approved, approvedBy := adminId, approvedAt := now }
      if moved then
        let _ ← WalletService.applyDelta dep.userId dep.amount .credit
          ("Manual deposit #" ++ toString id ++ " approved") (depositMeta id adminId)
        pure { dep with status := .approved, approvedBy := adminId, approvedAt := now }
      else
        throw .depositNotPending

def approve (adminId id : Int) (scope : Scope) : Service ManualDepositRequest := do
  let _ ← get id scope
  WalletService.withRetry (approveTx adminId id scope)

def reject (adminId id : Int) (reason : String) (scope : Scope) :
    Service ManualDepositRequest := do
  if Text.trimSpace reason = "" then
    throw .invalidDeposit
  else
    let _ ← get id scope
    let now : Int ← Service.ask .now
    let moved ← Service.update (.deposit id) (reviewable scope)
      fun (d : ManualDepositRequest) =>
        { d with status := .rejected, rejectionReason := Text.trimSpace reason,
                 approvedBy := adminId, approvedAt := now }
    if moved then
      get id scope
    else
      throw .depositNotPending

end DepositService

namespace DepositController

def submit (dir : Tenancy.Directory) (http : Tenancy.Request) (amount : Int64)
    (description receipt : String) : Service Int := do
  match http.user with
  | none => throw .unauthorized
  | some user =>
    if amount ≤ 0 then
      throw .invalidDeposit
    else
      DepositService.createRequest user.id ⟨amount, Text.trimSpace description, receipt⟩
        (Tenancy.resolveTenant dir http).viewScope

end DepositController

end QuiPanel
