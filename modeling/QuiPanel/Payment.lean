import QuiPanel.Wallet
import QuiPanel.Text

namespace QuiPanel

open ReadCommitted

namespace PaymentService

def createPending (userId tenantId : Int) (gateway : Gateway) (authority currency : String)
    (amount : Int64) : Service Payment := do
  let p : Payment :=
    { userId := userId, tenantId := tenantId, gateway := gateway, authority := authority,
      amount := amount, currency := currency, bonusAmount := 0, status := .pending, refId := "" }
  let _ ← Service.create fun _ => ⟨.payment authority, p⟩
  pure p

def getByAuthority (authority : String) : Service Payment := do
  match ← Service.payment authority with
  | none => throw .recordNotFound
  | some p => pure p

def isPending (p : Payment) : Bool := p.status == .pending

def markPaid (authority refId : String) : Service (Bool × Payment) := do
  let p ← getByAuthority authority
  let moved ← Service.update (.payment authority) isPending
    fun (v : Payment) => { v with status := .paid, refId := refId }
  pure (moved, { p with status := .paid, refId := refId })

def withCoin (coin : String) (p : Payment) : Payment :=
  if coin = "" then p else { p with currency := coin }

def markPaidWithBonus (authority refId coin : String) (bonus : Int64) :
    Service (Bool × Payment) := do
  let p ← getByAuthority authority
  let moved ← Service.update (.payment authority) isPending fun (v : Payment) =>
    withCoin coin { v with status := .paid, refId := refId, bonusAmount := bonus }
  pure (moved, withCoin coin { p with status := .paid, refId := refId, bonusAmount := bonus })

def markFailed (authority : String) : Service Unit := do
  let _ ← Service.update (.payment authority) isPending
    fun (v : Payment) => { v with status := .failed }
  pure ()

end PaymentService

inductive Redirect
  | failed
  | cancelled
  | ok (refId : String)
  deriving DecidableEq

inductive HttpReply
  | success
  | invalidAmount
  | requestFailed
  | somethingWentWrong
  | notFound
  | unauthorized
  | serverError
  deriving DecidableEq

namespace PaymentController

def verified (r : Option VerifyReply) : Option String :=
  match r with
  | none => none
  | some r => if r.code = 100 ∨ r.code = 101 then some r.refId else none

def zarinpalRequest (user : Option User) (amount : Int64) : Service HttpReply := do
  match user with
  | none => pure .unauthorized
  | some user =>
    if amount ≤ 0 then
      pure .invalidAmount
    else
      match ← Service.ask (.requestPayment user.tenantId amount) with
      | none => pure .requestFailed
      | some authority =>
        match ← Call.result
            (PaymentService.createPending user.id user.tenantId .zarinpal authority "" amount) with
        | .error _ => pure .somethingWentWrong
        | .ok _ => pure .success

def zarinpalCallback (user : Option Int) (authority status : String) : Service Redirect := do
  if authority = "" then
    pure .failed
  else
    match ← Call.result (PaymentService.getByAuthority authority) with
    | .error _ => pure .failed
    | .ok payment =>
      if user ≠ some payment.userId then
        pure .failed
      else if status ≠ "OK" then
        let _ ← Call.result (PaymentService.markFailed authority)
        pure .cancelled
      else if payment.status = .paid then
        pure (.ok payment.refId)
      else
        match verified (← Service.ask (.verifyPayment payment.tenantId payment.amount authority)) with
        | none =>
          let _ ← Call.result (PaymentService.markFailed authority)
          pure .failed
        | some refId =>
          match ← Call.result (PaymentService.markPaid authority refId) with
          | .error _ => pure .failed
          | .ok (transitioned, p) =>
            if transitioned then
              let _ ← Call.result (WalletService.creditWithMeta p.userId p.amount
                ("ZarinPal top-up ref:" ++ refId) ⟨.gateway, refId, ""⟩)
              pure (.ok refId)
            else
              pure (.ok refId)

def getPlisioSourceCurrency : Service String := do
  match ← Service.ask .plisioSourceCurrency with
  | none => pure "USD"
  | some cur =>
    if Text.trimSpace cur = "" then pure "USD" else pure (Text.toUpper (Text.trimSpace cur))

def getCryptoExchangeRate : Service Int := do
  match ← Service.ask .cryptoExchangeRate with
  | none => pure 1
  | some rate => if rate ≤ 0 then pure 1 else pure rate

def halfEven (q : ℚ) : Int :=
  if q - ⌊q⌋ < 1 / 2 then ⌊q⌋
  else if 1 / 2 < q - ⌊q⌋ then ⌊q⌋ + 1
  else if ⌊q⌋ % 2 = 0 then ⌊q⌋ else ⌊q⌋ + 1

def twoDecimals (q : ℚ) : ℚ := halfEven (q * 100) / 100

def fiatAmount (amount : Int64) (rate : Int) : ℚ := amount.toInt / rate

def plisioRequest (user : Option User) (amount : Int64) : Service HttpReply := do
  match user with
  | none => pure .unauthorized
  | some user =>
    if amount ≤ 0 then
      pure .invalidAmount
    else
      let sourceCurrency ← getPlisioSourceCurrency
      let rate ← getCryptoExchangeRate
      let authority : String ← Service.ask .uuid
      match ← Call.result (PaymentService.createPending user.id user.tenantId .plisio authority
          sourceCurrency amount) with
      | .error _ => pure .somethingWentWrong
      | .ok _ =>
        let opened : Bool ← Service.ask (.createInvoice user.tenantId authority sourceCurrency
          (twoDecimals (fiatAmount amount rate)))
        if opened then
          pure .success
        else
          let _ ← Call.result (PaymentService.markFailed authority)
          pure .requestFailed

end PaymentController

namespace PlisioWebhookController

def computeBonus (userId : Int) (deposit : Int64) : Service (Int64 × Int64) := do
  let enabled : Bool ← Service.ask .cryptoBonusEnabled
  if !enabled then
    pure (0, 0)
  else
    match ← Call.result (Service.user userId) with
    | .ok (some user) =>
      if !bonusEligibleRole user.role then
        pure (0, 0)
      else
        let pct : Int64 ← Service.ask .cryptoBonusPercent
        if pct ≤ 0 then
          pure (0, 0)
        else
          let minDep : Int64 ← Service.ask .cryptoBonusMinDeposit
          if minDep > 0 ∧ deposit < minDep then
            pure (0, 0)
          else
            let bonus := deposit * pct / 100
            let maxBonus : Int64 ← Service.ask .cryptoBonusMax
            if maxBonus > 0 ∧ bonus > maxBonus then pure (maxBonus, pct) else pure (bonus, pct)
    | _ => pure (0, 0)

def currencyMismatch (sourceCurrency configured : String) : Bool :=
  sourceCurrency != "" && !Text.equalFold sourceCurrency configured

def underpaid (sourceAmount : SourceAmount) (rate : Int) (amount : Int64) : Bool :=
  match sourceAmount with
  | .value paid => paid * rate < amount.toInt * (99 / 100)
  | _ => false

def settle (form : PlisioForm) (bonus pct : Int64) (p : Payment) : Service Unit := do
  let _ ← Call.result (WalletService.creditWithMeta p.userId p.amount
    ("Plisio crypto deposit (" ++ p.currency ++ ") ref:" ++ form.txnId) ⟨.crypto, form.txnId, ""⟩)
  if bonus > 0 then
    let _ ← Call.result (WalletService.creditWithMeta p.userId bonus
      ("Plisio crypto deposit bonus " ++ toString pct ++ "% ref:" ++ form.txnId)
      ⟨.bonus, form.txnId, ""⟩)
    pure ()
  else
    pure ()

def callback (form : PlisioForm) : Service HttpReply := do
  match ← Call.result (PaymentService.getByAuthority form.orderNumber) with
  | .error _ => pure .success
  | .ok payment =>
    if payment.gateway ≠ .plisio then
      pure .success
    else
      let cfg : PlisioConfig ← Service.ask (.plisioConfig payment.tenantId)
      if !cfg.enabled || Text.trimSpace cfg.secret == "" then
        pure .notFound
      else
        let signed : Bool ← Service.ask (.verifyCallback form cfg.secret)
        if !signed then
          pure .unauthorized
        else if form.status ≠ "completed" then
          pure .success
        else
          let cfgCurrency ← PaymentController.getPlisioSourceCurrency
          if currencyMismatch form.sourceCurrency cfgCurrency then
            pure .success
          else
            let rate ← PaymentController.getCryptoExchangeRate
            if underpaid form.sourceAmount rate payment.amount then
              pure .success
            else
              let (bonus, pct) ← computeBonus payment.userId payment.amount
              match ← Call.result (PaymentService.markPaidWithBonus form.orderNumber form.txnId
                  form.currency bonus) with
              | .error _ => pure .serverError
              | .ok (transitioned, p) =>
                if transitioned then
                  settle form bonus pct p
                  pure .success
                else
                  pure .success

end PlisioWebhookController

end QuiPanel
