import QuiPanel.Model

namespace QuiPanel

open ReadCommitted

namespace WalletService

def walletMaxRetries : Nat := 4

def withRetry {α : Type} (fn : Service α) : Service α :=
  Call.retry (S := panel) (· == Err.balanceConflict) (Call.transaction (S := panel) Err.database fn)
    (walletMaxRetries - 1)

def getBalance (userId : Int) : Service Int64 := do
  match ← Service.user userId with
  | none => throw .recordNotFound
  | some u => pure u.balance

def applyDelta (userId : Int) (delta : Int64) (txType : TxType) (desc : String) (note : TxMeta) :
    Service Transaction := do
  match ← Service.user userId with
  | none => throw .recordNotFound
  | some u =>
    let before := u.balance
    let after := before + delta
    if after < 0 then
      throw .insufficientBalance
    else
      let swapped ← Service.update (.user userId) (fun (v : User) => v.balance == before)
        (fun (v : User) => { v with balance := after })
      if swapped then
        let entry : Transaction :=
          { userId := userId, tenantId := u.tenantId,
            amount := if delta < 0 then -delta else delta, type := txType, description := desc,
            balanceBefore := before, balanceAfter := after,
            source := note.source, refId := note.refId, actor := note.actor }
        Service.record entry
        pure entry
      else
        throw .balanceConflict

def managerUserID (tenantId : Int) : Service Int := do
  if tenantId ≤ globalTenantId then
    pure 0
  else
    match ← Call.result (Service.tenant tenantId) with
    | .ok (some t) => pure t.managerUserId
    | _ => pure 0

def sellerManager (sellerTenantId : Int) : Service Int :=
  if sellerTenantId > globalTenantId then managerUserID sellerTenantId else pure 0

def debitWorkspacePurchase (buyer : User) (sellerTenantId : Int) (amount : Int64) (desc : String)
    (note : TxMeta) : Service Int := do
  if amount ≤ 0 then
    throw .invalidAmount
  else
    let creditTenant := if sellerTenantId > globalTenantId then sellerTenantId else 0
    let managerId ← sellerManager sellerTenantId
    withRetry do
      let _ ← applyDelta buyer.id (-amount) .debit desc note
      if managerId ≠ 0 ∧ managerId ≠ buyer.id then
        let _ ← applyDelta managerId amount .credit desc ⟨.sale, note.refId, buyer.username⟩
        pure ()
      else
        pure ()
    pure creditTenant

def refundWorkspacePurchase (buyerId sellerTenantId : Int) (amount : Int64) (desc : String)
    (note : TxMeta) : Service Unit := do
  if amount ≤ 0 then
    pure ()
  else
    let managerId ← sellerManager sellerTenantId
    withRetry do
      let _ ← applyDelta buyerId amount .credit desc note
      if managerId ≠ 0 ∧ managerId ≠ buyerId then
        let _ ← applyDelta managerId (-amount) .debit desc ⟨.refund, note.refId, note.actor⟩
        pure ()
      else
        pure ()

def creditWithMeta (userId : Int) (amount : Int64) (desc : String) (note : TxMeta) :
    Service Transaction := do
  if amount ≤ 0 then
    throw .invalidAmount
  else
    withRetry (applyDelta userId amount .credit desc note)

def debitWithMeta (userId : Int) (amount : Int64) (desc : String) (note : TxMeta) :
    Service Transaction := do
  if amount ≤ 0 then
    throw .invalidAmount
  else
    withRetry (applyDelta userId (-amount) .debit desc note)

def setBalanceWithMeta (userId : Int) (target : Int64) (desc : String) (note : TxMeta) :
    Service (Option Transaction) := do
  if target < 0 then
    throw .invalidAmount
  else
    withRetry do
      match ← Service.user userId with
      | none => throw .recordNotFound
      | some u =>
        let delta := target - u.balance
        if delta = 0 then
          pure none
        else
          let txType := if delta < 0 then TxType.debit else TxType.credit
          let entry ← applyDelta userId delta txType desc note
          pure (some entry)

end WalletService

namespace TenantUserService

inductive BalanceOp
  | add
  | deduct
  | set
  | other (op : String)

def loadInScope (id : Int) (scope : Scope) : Service User := do
  match ← Service.user id with
  | none => throw .tenantUserForbidden
  | some u =>
    if !scope.sees u.tenantId then throw .tenantUserForbidden
    else if !tenantManageableRole u.role then throw .tenantRoleForbidden
    else pure u

def adjustSource (op : BalanceOp) (delta : Int64) : TxSource :=
  match op with
  | .set => .adminSet
  | _ => if delta < 0 then .adminDebit else .adminCredit

def adjustDelta (op : BalanceOp) (amount balance : Int64) : Int64 :=
  match op with
  | .add => amount
  | .deduct => -amount
  | .set => amount - balance
  | .other _ => 0

def adjustBalance (id : Int) (op : BalanceOp) (amount : Int64) (desc actor : String)
    (scope : Scope) : Service Int64 := do
  let _ ← loadInScope id scope
  if amount < 0 then
    throw .invalidAmount
  else
    match op with
    | .other _ => throw .invalidBalanceOp
    | _ =>
      WalletService.withRetry do
        match ← Service.user id with
        | none => throw .recordNotFound
        | some u =>
          let delta := adjustDelta op amount u.balance
          if delta = 0 then
            pure ()
          else
            let custType := if delta < 0 then TxType.debit else TxType.credit
            let _ ← WalletService.applyDelta id delta custType
              (if desc = "" then "workspace adjustment" else desc) ⟨adjustSource op delta, "", actor⟩
            pure ()
      WalletService.getBalance id

end TenantUserService

end QuiPanel
