import QuiPanel.Library.Call
import Mathlib.Data.Rat.Defs

namespace QuiPanel

inductive Role
  | admin
  | manager
  | moderator
  | reseller
  | member
  deriving DecidableEq, Repr

inductive TxType
  | credit
  | debit
  deriving DecidableEq, Repr

inductive TxSource
  | other
  | manualDeposit
  | gateway
  | crypto
  | purchase
  | sale
  | renewal
  | refund
  | referral
  | bonus
  | adminCredit
  | adminDebit
  | adminSet
  deriving DecidableEq, Repr

structure TxMeta where
  source : TxSource
  refId : String
  actor : String

structure User where
  id : Int
  username : String
  role : Role
  tenantId : Int
  balance : Int64
  referredByUserId : Int

structure Transaction where
  userId : Int
  tenantId : Int
  amount : Int64
  type : TxType
  description : String
  balanceBefore : Int64
  balanceAfter : Int64
  source : TxSource
  refId : String
  actor : String

inductive TenantStatus
  | active
  | suspended
  deriving DecidableEq, Repr

structure Tenant where
  id : Int
  slug : String
  managerUserId : Int
  status : TenantStatus
  domain : String

inductive Audience
  | all
  | reseller
  | member
  deriving DecidableEq, Repr

inductive ProductStatus
  | active
  | inactive
  deriving DecidableEq, Repr

structure Product where
  id : Int
  tenantId : Int
  name : String
  trafficLimit : Int64
  durationDays : Int
  price : Int64
  audience : Audience
  inboundIds : List Int
  status : ProductStatus

inductive OrderStatus
  | pending
  | paid
  | completed
  | cancelled
  deriving DecidableEq, Repr

structure Order where
  userId : Int
  tenantId : Int
  productId : Int
  productName : String
  amount : Int64
  status : OrderStatus
  clientEmail : String

inductive Gateway
  | zarinpal
  | plisio
  deriving DecidableEq, Repr

inductive PaymentStatus
  | pending
  | paid
  | failed
  deriving DecidableEq, Repr

structure Payment where
  userId : Int
  tenantId : Int
  gateway : Gateway
  authority : String
  amount : Int64
  currency : String
  bonusAmount : Int64
  status : PaymentStatus
  refId : String

inductive DepositStatus
  | pending
  | approved
  | rejected
  deriving DecidableEq, Repr

structure ManualDepositRequest where
  userId : Int
  tenantId : Int
  amount : Int64
  description : String
  receiptImage : String
  status : DepositStatus
  rejectionReason : String
  approvedBy : Int
  approvedAt : Int

structure Scope where
  tenantId : Int
  global : Bool

def globalTenantId : Int := 0

def noTenantSentinel : Int := -1

namespace Scope

def tenantOnly (tenantId : Int) : Scope := ⟨tenantId, false⟩

def sees (s : Scope) (tenantId : Int) : Bool := s.global || tenantId == s.tenantId

def ownerTenantId (s : Scope) : Int := if s.global then globalTenantId else s.tenantId

end Scope

namespace User

def isAdmin (u : User) : Bool := u.role == .admin

def isManager (u : User) : Bool := u.role == .manager

def canProductManage (u : User) : Bool := u.isAdmin || u.isManager

end User

def productAudienceAllows : Audience → Role → Bool
  | .all, _ => true
  | .reseller, r => r == .reseller
  | .member, r => r == .member

def tenantManageableRole : Role → Bool
  | .reseller | .member | .moderator => true
  | _ => false

def bonusEligibleRole : Role → Bool
  | .member | .reseller => true
  | _ => false

inductive Err
  | recordNotFound
  | insufficientBalance
  | invalidAmount
  | balanceConflict
  | unauthorized
  | buyerRequired
  | foreignWorkspace
  | productNotFound
  | productUnavailable
  | productMisconfigured
  | serviceNotFound
  | serviceForbidden
  | tenantUserForbidden
  | tenantRoleForbidden
  | invalidBalanceOp
  | invalidDeposit
  | depositNotFound
  | depositNotPending
  | provisioning
  | database
  deriving DecidableEq, Repr

inductive Key
  | user (id : Int)
  | tenant (id : Int)
  | product (id : Int)
  | order (id : Int)
  | payment (authority : String)
  | deposit (id : Int)
  deriving DecidableEq

abbrev Key.Row : Key → Type
  | .user _ => User
  | .tenant _ => Tenant
  | .product _ => Product
  | .order _ => Order
  | .payment _ => Payment
  | .deposit _ => ManualDepositRequest

structure VerifyReply where
  code : Int
  refId : String

structure PlisioConfig where
  enabled : Bool
  secret : String

inductive SourceAmount
  | absent
  | malformed
  | value (q : ℚ)

structure PlisioForm where
  orderNumber : String
  txnId : String
  status : String
  sourceCurrency : String
  sourceAmount : SourceAmount
  currency : String
  verifyHash : String

inductive Query
  | now
  | missingInbounds (ids : List Int)
  | clientScopeByEmail (email : String)
  | provision (buyer : Int) (product : Int) (order : Int) (name : String) (tenant : Int)
  | applyPlan (email : String) (product : Int)
  | costOfGoods (tenant : Int) (trafficLimit : Int64)
  | attachByEmail (email : String) (inboundIds : List Int)
  | referralCommissionPercent
  | requestPayment (tenant : Int) (amount : Int64)
  | verifyPayment (tenant : Int) (amount : Int64) (authority : String)
  | plisioConfig (tenant : Int)
  | uuid
  | createInvoice (tenant : Int) (authority : String) (currency : String) (price : ℚ)
  | verifyCallback (form : PlisioForm) (secret : String)
  | plisioSourceCurrency
  | cryptoExchangeRate
  | cryptoBonusEnabled
  | cryptoBonusPercent
  | cryptoBonusMinDeposit
  | cryptoBonusMax

abbrev Query.Answer : Query → Type
  | .now => Int
  | .missingInbounds _ => Option (List Int)
  | .clientScopeByEmail _ => Option (Int × Int)
  | .provision .. => Option String
  | .applyPlan .. => Option Unit
  | .costOfGoods .. => Unit
  | .attachByEmail .. => Unit
  | .referralCommissionPercent => Option Int64
  | .requestPayment .. => Option String
  | .verifyPayment .. => Option VerifyReply
  | .plisioConfig _ => PlisioConfig
  | .uuid => String
  | .createInvoice .. => Bool
  | .verifyCallback .. => Bool
  | .plisioSourceCurrency => Option String
  | .cryptoExchangeRate => Option Int
  | .cryptoBonusEnabled => Bool
  | .cryptoBonusPercent => Int64
  | .cryptoBonusMinDeposit => Int64
  | .cryptoBonusMax => Int64

open ReadCommitted

abbrev panel : Schema := ⟨Key, Key.Row, Transaction, Query, Query.Answer⟩

instance : DecidableEq panel.Key := inferInstanceAs (DecidableEq Key)

abbrev Service (α : Type) := Call panel Err α

namespace Service

def read (k : Key) : Service (Option k.Row) := Call.readRow (S := panel) Err.database k

def update (k : Key) (guard : k.Row → Bool) (set : k.Row → k.Row) : Service Bool :=
  Call.updateRow (S := panel) Err.database k guard set

def create (make : Nat → (k : Key) × k.Row) : Service Nat :=
  Call.createRow (S := panel) Err.database make

def record (e : Transaction) : Service Unit := Call.insertEntry (S := panel) Err.database e

def ask (q : Query) : Service q.Answer := Call.ask (S := panel) q

def user (id : Int) : Service (Option User) := read (.user id)

def tenant (id : Int) : Service (Option Tenant) := read (.tenant id)

def product (id : Int) : Service (Option Product) := read (.product id)

def payment (authority : String) : Service (Option Payment) := read (.payment authority)

def deposit (id : Int) : Service (Option ManualDepositRequest) := read (.deposit id)

def costOfGoods (tenant : Int) (trafficLimit : Int64) : Service Unit :=
  ask (.costOfGoods tenant trafficLimit)

def attachByEmail (email : String) (inboundIds : List Int) : Service Unit :=
  ask (.attachByEmail email inboundIds)

def applyPlan (email : String) (product : Int) : Service (Option Unit) :=
  ask (.applyPlan email product)

def provision (buyer product order : Int) (name : String) (tenant : Int) :
    Service (Option String) :=
  ask (.provision buyer product order name tenant)

end Service

end QuiPanel
