import QuiPanel.Library.Chained
import QuiPanel.Library.Sums

namespace QuiPanel

namespace Finance

open Chained

section rows

structure ManualDeposit where
  userId : Int
  tenantId : Int
  amount : Int
  status : String
  approvedAt : Int
  createdAt : Int

structure Payment where
  userId : Int
  tenantId : Int
  gateway : String
  amount : Int
  bonusAmount : Int
  status : String
  createdAt : Int

structure Transaction where
  userId : Int
  tenantId : Int
  amount : Int
  type : String
  source : String
  createdAt : Int

structure Order where
  userId : Int
  tenantId : Int
  productId : Int
  amount : Int
  status : String
  createdAt : Int

structure User where
  id : Int
  tenantId : Int
  balance : Int
  createdAt : Int

structure Client where
  tenantId : Int
  createdAt : Int

structure Product where
  id : Int
  tenantId : Int

structure Db where
  manualDeposits : List ManualDeposit
  payments : List Payment
  transactions : List Transaction
  orders : List Order
  users : List User
  clients : List Client
  products : List Product

end rows

section tables

inductive Source
  | manualDeposits | payments | transactions | orders | users | clients | products
deriving DecidableEq

inductive Column
  | id | userId | tenantId | amount | bonusAmount | balance | status | type | source | gateway
  | approvedAt | createdAt | productId | trackingNumber
deriving DecidableEq

def ManualDeposit.cell (d : ManualDeposit) : Row Column
  | .userId => .int d.userId
  | .tenantId => .int d.tenantId
  | .amount => .int d.amount
  | .status => .text d.status
  | .approvedAt => .int d.approvedAt
  | .createdAt => .int d.createdAt
  | _ => .text ""

def Payment.cell (p : Payment) : Row Column
  | .userId => .int p.userId
  | .tenantId => .int p.tenantId
  | .gateway => .text p.gateway
  | .amount => .int p.amount
  | .bonusAmount => .int p.bonusAmount
  | .status => .text p.status
  | .createdAt => .int p.createdAt
  | _ => .text ""

def Transaction.cell (t : Transaction) : Row Column
  | .userId => .int t.userId
  | .tenantId => .int t.tenantId
  | .amount => .int t.amount
  | .type => .text t.type
  | .source => .text t.source
  | .createdAt => .int t.createdAt
  | _ => .text ""

def Order.cell (o : Order) : Row Column
  | .userId => .int o.userId
  | .tenantId => .int o.tenantId
  | .productId => .int o.productId
  | .amount => .int o.amount
  | .status => .text o.status
  | .createdAt => .int o.createdAt
  | _ => .text ""

def User.cell (u : User) : Row Column
  | .id => .int u.id
  | .tenantId => .int u.tenantId
  | .balance => .int u.balance
  | .createdAt => .int u.createdAt
  | _ => .text ""

def Client.cell (c : Client) : Row Column
  | .tenantId => .int c.tenantId
  | .createdAt => .int c.createdAt
  | _ => .text ""

def Product.cell (p : Product) : Row Column
  | .id => .int p.id
  | .tenantId => .int p.tenantId
  | _ => .text ""

def tables (db : Db) : Source → Table Column
  | .manualDeposits => ⟨[.id, .userId, .tenantId, .amount, .status, .approvedAt, .createdAt],
      db.manualDeposits.map ManualDeposit.cell⟩
  | .payments => ⟨[.id, .userId, .tenantId, .gateway, .amount, .bonusAmount, .status, .createdAt],
      db.payments.map Payment.cell⟩
  | .transactions => ⟨[.id, .userId, .tenantId, .amount, .type, .source, .createdAt],
      db.transactions.map Transaction.cell⟩
  | .orders => ⟨[.id, .userId, .tenantId, .productId, .amount, .status, .createdAt],
      db.orders.map Order.cell⟩
  | .users => ⟨[.id, .tenantId, .balance, .createdAt], db.users.map User.cell⟩
  | .clients => ⟨[.id, .tenantId, .createdAt], db.clients.map Client.cell⟩
  | .products => ⟨[.id, .tenantId], db.products.map Product.cell⟩

end tables

section service

structure Scope where
  tenantID : Int
  global : Bool

def globalTenantId : Int := 0

def globalScope : Scope := ⟨globalTenantId, true⟩

def tenantOnly (tenantID : Int) : Scope := ⟨tenantID, false⟩

def tenantScope (scope : Scope) : List (Condition Column) :=
  if scope.global then [] else [.eq .tenantId (.int scope.tenantID)]

def onHandle {α : Type} (scope : Scope) (chain : Chain Source Column α) : α :=
  (chain (opened (tenantScope scope))).1

structure Clock where
  today : Int
  week : Int
  month : Int
  year : Int
  now : Int

def is (col : Column) (s : String) : Condition Column := .eq col (.text s)

def confirmedDepositVolume (db : Db) (since : Int) (scope : Scope) : Int :=
  onHandle scope do
    query .manualDeposits [is .status "approved"]
    query .payments [is .status "paid"]
    if since > 0 then
      wheres [.ge .approvedAt since]
      wheres [.ge .createdAt since]
    let manual ← sum (tables db) .amount
    let gateway ← sum (tables db) .amount
    pure (manual + gateway)

def depositByUser (db : Db) (scope : Scope) : List Int :=
  onHandle scope do
    query .manualDeposits [is .status "approved"]
    groupBy .userId
    let manual ← perGroup (tables db) .userId
    query .payments [is .status "paid"]
    groupBy .userId
    let gateway ← perGroup (tables db) .userId
    pure (manual ++ gateway).dedup

def orderCountByUser (db : Db) (scope : Scope) : List Int :=
  onHandle scope do
    query .orders [is .status "completed"]
    groupBy .userId
    let rows ← perGroup (tables db) .userId
    pure rows.dedup

structure FinanceDashboard where
  totalRevenue : Int
  todayRevenue : Int
  weekRevenue : Int
  monthRevenue : Int
  yearRevenue : Int
  grossRevenue : Int
  netRevenue : Int
  lifetimeRevenue : Int
  totalDeposits : Int
  totalWithdrawals : Int
  totalWalletBalance : Int
  pendingDeposits : Int
  approvedDeposits : Int
  rejectedDeposits : Int
  totalBonuses : Int
  totalReferralCommissions : Int
  totalRefunds : Int
  totalProductSales : Int
  productSalesCount : Int
  totalUsers : Int
  payingUsers : Int
  activeUsers : Int
  arpu : Int
  aov : Int
  totalSpend : Int
  totalClients : Int
  newClientsMonth : Int
  totalDepositCount : Int
deriving DecidableEq

def FinanceDashboard.clampCounts (d : FinanceDashboard) : FinanceDashboard :=
  { d with
    pendingDeposits := max 0 d.pendingDeposits
    approvedDeposits := max 0 d.approvedDeposits
    rejectedDeposits := max 0 d.rejectedDeposits
    totalDepositCount := max 0 d.totalDepositCount
    productSalesCount := max 0 d.productSalesCount
    totalUsers := max 0 d.totalUsers
    totalClients := max 0 d.totalClients
    newClientsMonth := max 0 d.newClientsMonth }

def dashboard (db : Db) (clock : Clock) (scope : Scope) : FinanceDashboard :=
  let grossRevenue := confirmedDepositVolume db 0 scope
  let deposits := depositByUser db scope
  let buyers := orderCountByUser db scope
  let payingUsers : Int := deposits.length
  onHandle scope do
    let totalRefunds ← sumOf (tables db) .transactions [is .source "refund"] .amount
    let totalWithdrawals ← sumOf (tables db) .transactions [is .source "admin_debit"] .amount
    let totalWalletBalance ← sumOf (tables db) .users [] .balance
    let totalBonuses ← sumOf (tables db) .payments [is .status "paid"] .bonusAmount
    let totalReferralCommissions ←
      sumOf (tables db) .transactions [is .source "referral_commission"] .amount
    let pendingManual ← countOf (tables db) .manualDeposits [is .status "pending"]
    let pendingGateway ← countOf (tables db) .payments [is .status "pending"]
    let approvedManual ← countOf (tables db) .manualDeposits [is .status "approved"]
    let approvedGateway ← countOf (tables db) .payments [is .status "paid"]
    let rejectedManual ← countOf (tables db) .manualDeposits [is .status "rejected"]
    let rejectedGateway ← countOf (tables db) .payments [is .status "failed"]
    let totalProductSales ← sumOf (tables db) .orders [is .status "completed"] .amount
    let productSalesCount ← countOf (tables db) .orders [is .status "completed"]
    let totalUsers ← countOf (tables db) .users []
    let totalSpend ← sumOf (tables db) .transactions [is .type "debit"] .amount
    let totalClients ← countOf (tables db) .clients []
    let newClientsMonth ← countOf (tables db) .clients [.ge .createdAt clock.month]
    let pendingDeposits := pendingManual + pendingGateway
    let approvedDeposits := approvedManual + approvedGateway
    let rejectedDeposits := rejectedManual + rejectedGateway
    pure <| FinanceDashboard.clampCounts
      { totalRevenue := grossRevenue
        todayRevenue := confirmedDepositVolume db clock.today scope
        weekRevenue := confirmedDepositVolume db clock.week scope
        monthRevenue := confirmedDepositVolume db clock.month scope
        yearRevenue := confirmedDepositVolume db clock.year scope
        grossRevenue := grossRevenue
        netRevenue := if grossRevenue - totalRefunds < 0 then 0 else grossRevenue - totalRefunds
        lifetimeRevenue := grossRevenue
        totalDeposits := grossRevenue
        totalWithdrawals := totalWithdrawals
        totalWalletBalance := totalWalletBalance
        pendingDeposits := pendingDeposits
        approvedDeposits := approvedDeposits
        rejectedDeposits := rejectedDeposits
        totalBonuses := totalBonuses
        totalReferralCommissions := totalReferralCommissions
        totalRefunds := totalRefunds
        totalProductSales := totalProductSales
        productSalesCount := productSalesCount
        totalUsers := totalUsers
        payingUsers := payingUsers
        activeUsers := (deposits ++ buyers).dedup.length
        arpu := if payingUsers > 0 then grossRevenue.tdiv payingUsers else 0
        aov := if productSalesCount > 0 then totalProductSales.tdiv productSalesCount else 0
        totalSpend := totalSpend
        totalClients := totalClients
        newClientsMonth := newClientsMonth
        totalDepositCount := pendingDeposits + approvedDeposits + rejectedDeposits }

structure FinanceMethodStat where
  method : String
  count : Int
  volume : Int
  bonus : Int
  pending : Int
  rejected : Int
deriving DecidableEq

def gatewayStat (db : Db) (gw : String) : Chain Source Column FinanceMethodStat := do
  let base (status : String) : List (Condition Column) := [is .gateway gw, is .status status]
  let count ← countOf (tables db) .payments (base "paid")
  let volume ← sumOf (tables db) .payments (base "paid") .amount
  let bonus ← sumOf (tables db) .payments (base "paid") .bonusAmount
  let pending ← countOf (tables db) .payments (base "pending")
  let rejected ← countOf (tables db) .payments (base "failed")
  pure ⟨gw, count, volume, bonus, pending, rejected⟩

def paymentBreakdown (db : Db) (scope : Scope) : List FinanceMethodStat :=
  onHandle scope do
    let count ← countOf (tables db) .manualDeposits [is .status "approved"]
    let volume ← sumOf (tables db) .manualDeposits [is .status "approved"] .amount
    let pending ← countOf (tables db) .manualDeposits [is .status "pending"]
    let rejected ← countOf (tables db) .manualDeposits [is .status "rejected"]
    let zarinpal ← gatewayStat db "zarinpal"
    let plisio ← gatewayStat db "plisio"
    pure [⟨"manual", count, volume, 0, pending, rejected⟩, zarinpal, plisio]

structure FinanceCashflow where
  since : Int
  until_ : Int
  income : Int
  productSales : Int
  bonuses : Int
  refunds : Int
  net : Int
  deposits : Int
  orders : Int
deriving DecidableEq

def between (col : Column) (s : String) (at_ : Column) (since until_ : Int) : List (Condition Column) :=
  [is col s, .ge at_ since, .le at_ until_]

def cashflow (db : Db) (clock : Clock) (since upTo : Int) (scope : Scope) : FinanceCashflow :=
  let upTo := if upTo ≤ 0 then clock.now else upTo
  let approved := between .status "approved" .approvedAt since upTo
  let paid := between .status "paid" .createdAt since upTo
  onHandle scope do
    query .manualDeposits approved
    query .payments paid
    let manualIncome ← sum (tables db) .amount
    let gatewayIncome ← sum (tables db) .amount
    let manualDeposits ← countOf (tables db) .manualDeposits approved
    let gatewayDeposits ← countOf (tables db) .payments paid
    let bonuses ← sumOf (tables db) .payments paid .bonusAmount
    let refunds ← sumOf (tables db) .transactions (between .source "refund" .createdAt since upTo) .amount
    let productSales ← sumOf (tables db) .orders (between .status "completed" .createdAt since upTo) .amount
    let orders ← countOf (tables db) .orders (between .status "completed" .createdAt since upTo)
    let income := manualIncome + gatewayIncome
    pure
      { since := since
        until_ := upTo
        income := income
        productSales := productSales
        bonuses := bonuses
        refunds := refunds
        net := if income - refunds < 0 then 0 else income - refunds
        deposits := manualDeposits + gatewayDeposits
        orders := orders }

structure FinanceConsistency where
  sumUserBalances : Int
  ledgerNet : Int
  difference : Int
  balanced : Bool
  absDifference : Int
  negativeBalances : Int
  duplicateTracking : Int
  orphanedOrders : Int
deriving DecidableEq

def consistencyTolerance : Int := 5

def productIds (db : Db) (scope : Scope) : List Value :=
  ((opened (tenantScope scope) |>.queried .products []).matching (tables db)).map fun row => row .id

def consistencyCheck (db : Db) (scope : Scope) : FinanceConsistency :=
  onHandle scope do
    let sumUserBalances ← sumOf (tables db) .users [] .balance
    let credits ← sumOf (tables db) .transactions [is .type "credit"] .amount
    let debits ← sumOf (tables db) .transactions [is .type "debit"] .amount
    let negativeBalances ← countOf (tables db) .users [.lt .balance 0]
    let duplicateTracking ← repeatedOf (tables db) .manualDeposits [.ne .trackingNumber (.text "")]
      .trackingNumber
    let orphanedOrders ← countOf (tables db) .orders [.notIn .productId (productIds db scope)]
    let ledgerNet := credits - debits
    let difference := sumUserBalances - ledgerNet
    let diff := if difference < 0 then -difference else difference
    pure
      { sumUserBalances := sumUserBalances
        ledgerNet := ledgerNet
        difference := difference
        balanced := diff ≤ consistencyTolerance
        absDifference := diff
        negativeBalances := negativeBalances
        duplicateTracking := duplicateTracking
        orphanedOrders := orphanedOrders }

end service

section figures

def inScope (scope : Scope) (tenantId : Int) : Bool := scope.global || tenantId == scope.tenantID

variable {α : Type}

def figure (rows : List α) (tenant : α → Int) (p : α → Bool) (f : α → Int) (scope : Scope) : Int :=
  ((rows.filter fun r => p r && inScope scope (tenant r)).map f).sum

def number (rows : List α) (tenant : α → Int) (p : α → Bool) (scope : Scope) : Int :=
  (rows.filter fun r => p r && inScope scope (tenant r)).length

variable (db : Db)

def manualVolume (p : ManualDeposit → Bool) : Scope → Int :=
  figure db.manualDeposits ManualDeposit.tenantId p ManualDeposit.amount

def manualCount (p : ManualDeposit → Bool) : Scope → Int :=
  number db.manualDeposits ManualDeposit.tenantId p

def paymentVolume (p : Payment → Bool) (f : Payment → Int) : Scope → Int :=
  figure db.payments Payment.tenantId p f

def paymentCount (p : Payment → Bool) : Scope → Int := number db.payments Payment.tenantId p

def ledgerVolume (p : Transaction → Bool) : Scope → Int :=
  figure db.transactions Transaction.tenantId p Transaction.amount

def orderVolume (p : Order → Bool) : Scope → Int := figure db.orders Order.tenantId p Order.amount

def orderCount (p : Order → Bool) : Scope → Int := number db.orders Order.tenantId p

def balances : Scope → Int := figure db.users User.tenantId (fun _ => true) User.balance

def userCount (p : User → Bool) : Scope → Int := number db.users User.tenantId p

def clientCount (p : Client → Bool) : Scope → Int := number db.clients Client.tenantId p

def approvedSince (since : Int) (d : ManualDeposit) : Bool :=
  d.status = "approved" && (since ≤ 0 || since ≤ d.approvedAt)

def paidSince (since : Int) (p : Payment) : Bool :=
  p.status = "paid" && (since ≤ 0 || since ≤ p.createdAt)

def depositVolume (since : Int) (scope : Scope) : Int :=
  manualVolume db (approvedSince since) scope + paymentVolume db (paidSince since) Payment.amount scope

def depositors (scope : Scope) : List Int :=
  ((db.manualDeposits.filter fun d => d.status = "approved" && inScope scope d.tenantId).map
      ManualDeposit.userId ++
    (db.payments.filter fun p => p.status = "paid" && inScope scope p.tenantId).map Payment.userId).dedup

def buyers (scope : Scope) : List Int :=
  ((db.orders.filter fun o => o.status = "completed" && inScope scope o.tenantId).map Order.userId).dedup

def depositCount (manual gateway : String) (scope : Scope) : Int :=
  manualCount db (fun d => d.status = manual) scope + paymentCount db (fun p => p.status = gateway) scope

def dashboardFigures (clock : Clock) (scope : Scope) : FinanceDashboard :=
  let gross := depositVolume db 0 scope
  let refunds := ledgerVolume db (fun t => t.source = "refund") scope
  let sales := orderVolume db (fun o => o.status = "completed") scope
  let salesCount := orderCount db (fun o => o.status = "completed") scope
  let paying : Int := (depositors db scope).length
  { totalRevenue := gross
    todayRevenue := depositVolume db clock.today scope
    weekRevenue := depositVolume db clock.week scope
    monthRevenue := depositVolume db clock.month scope
    yearRevenue := depositVolume db clock.year scope
    grossRevenue := gross
    netRevenue := max 0 (gross - refunds)
    lifetimeRevenue := gross
    totalDeposits := gross
    totalWithdrawals := ledgerVolume db (fun t => t.source = "admin_debit") scope
    totalWalletBalance := balances db scope
    pendingDeposits := depositCount db "pending" "pending" scope
    approvedDeposits := depositCount db "approved" "paid" scope
    rejectedDeposits := depositCount db "rejected" "failed" scope
    totalBonuses := paymentVolume db (fun p => p.status = "paid") Payment.bonusAmount scope
    totalReferralCommissions := ledgerVolume db (fun t => t.source = "referral_commission") scope
    totalRefunds := refunds
    totalProductSales := sales
    productSalesCount := salesCount
    totalUsers := userCount db (fun _ => true) scope
    payingUsers := paying
    activeUsers := (depositors db scope ++ buyers db scope).dedup.length
    arpu := if paying > 0 then gross.tdiv paying else 0
    aov := if salesCount > 0 then sales.tdiv salesCount else 0
    totalSpend := ledgerVolume db (fun t => t.type = "debit") scope
    totalClients := clientCount db (fun _ => true) scope
    newClientsMonth := clientCount db (fun c => clock.month ≤ c.createdAt) scope
    totalDepositCount := depositCount db "pending" "pending" scope +
      depositCount db "approved" "paid" scope + depositCount db "rejected" "failed" scope }

def gatewayFigures (gw : String) (scope : Scope) : FinanceMethodStat where
  method := gw
  count := paymentCount db (fun p => p.gateway = gw && p.status = "paid") scope
  volume := paymentVolume db (fun p => p.gateway = gw && p.status = "paid") Payment.amount scope
  bonus := paymentVolume db (fun p => p.gateway = gw && p.status = "paid") Payment.bonusAmount scope
  pending := paymentCount db (fun p => p.gateway = gw && p.status = "pending") scope
  rejected := paymentCount db (fun p => p.gateway = gw && p.status = "failed") scope

def manualFigures (scope : Scope) : FinanceMethodStat where
  method := "manual"
  count := manualCount db (fun d => d.status = "approved") scope
  volume := manualVolume db (fun d => d.status = "approved") scope
  bonus := 0
  pending := manualCount db (fun d => d.status = "pending") scope
  rejected := manualCount db (fun d => d.status = "rejected") scope

def breakdownFigures (scope : Scope) : List FinanceMethodStat :=
  [manualFigures db scope, gatewayFigures db "zarinpal" scope, gatewayFigures db "plisio" scope]

def within (since upTo at_ : Int) : Bool := since ≤ at_ && at_ ≤ upTo

def cashflowFigures (clock : Clock) (since upTo : Int) (scope : Scope) : FinanceCashflow :=
  let upTo := if upTo ≤ 0 then clock.now else upTo
  let approved (d : ManualDeposit) : Bool := d.status = "approved" && within since upTo d.approvedAt
  let paid (p : Payment) : Bool := p.status = "paid" && within since upTo p.createdAt
  let completed (o : Order) : Bool := o.status = "completed" && within since upTo o.createdAt
  let income := manualVolume db approved scope + paymentVolume db paid Payment.amount scope
  let refunds := ledgerVolume db (fun t => t.source = "refund" && within since upTo t.createdAt) scope
  { since := since
    until_ := upTo
    income := income
    productSales := orderVolume db completed scope
    bonuses := paymentVolume db paid Payment.bonusAmount scope
    refunds := refunds
    net := max 0 (income - refunds)
    deposits := manualCount db approved scope + paymentCount db paid scope
    orders := orderCount db completed scope }

def stocked (scope : Scope) : List Int :=
  (db.products.filter fun p => inScope scope p.tenantId).map Product.id

def ledgerNet (scope : Scope) : Int :=
  ledgerVolume db (fun t => t.type = "credit") scope - ledgerVolume db (fun t => t.type = "debit") scope

def consistencyFigures (scope : Scope) : FinanceConsistency :=
  let difference := balances db scope - ledgerNet db scope
  { sumUserBalances := balances db scope
    ledgerNet := ledgerNet db scope
    difference := difference
    balanced := |difference| ≤ consistencyTolerance
    absDifference := |difference|
    negativeBalances := userCount db (fun u => u.balance < 0) scope
    duplicateTracking := 0
    orphanedOrders := orderCount db (fun o => o.productId ∉ stocked db scope) scope }

end figures

section evaluation

variable {db : Db} {clock : Clock} {scope : Scope}

abbrev start (scope : Scope) : Statement Source Column := opened (tenantScope scope)

theorem tenantScope_holds (scope : Scope) {row : Row Column} {tenantId : Int}
    (h : row .tenantId = .int tenantId) :
    (tenantScope scope).all (Condition.holds row) = inScope scope tenantId := by
  obtain ⟨id, global⟩ := scope
  cases global with
  | true => rfl
  | false => simp [tenantScope, inScope, Condition.holds, h, beq_eq_decide]

variable {s : Statement Source Column}

theorem confirmed_conflict (happroved : is .status "approved" ∈ s.conditions)
    (hpaid : is .status "paid" ∈ s.conditions) : s.matching (tables db) = [] :=
  matching_conflict happroved hpaid (by decide)

theorem confirmedDepositVolume_eq (since : Int) : confirmedDepositVolume db since scope = 0 := by
  have hzero : ∀ s : Statement Source Column, s.groups = [] → is .status "approved" ∈ s.conditions →
      is .status "paid" ∈ s.conditions →
      (sum (tables db) .amount s).1 + (sum (tables db) .amount (sum (tables db) .amount s).2).1 = 0 := by
    intro s hgroups happroved hpaid
    rw [sum_empty hgroups (confirmed_conflict happroved hpaid), zero_add]
    apply sum_empty (sum_groups.trans hgroups)
    apply confirmed_conflict
    · rwa [sum_conditions]
    · rwa [sum_conditions]
  simp only [confirmedDepositVolume, onHandle, run_bind, query_run]
  split
  · simp only [run_bind]
    apply hzero _ rfl
    · exact List.mem_cons_self
    · exact List.mem_cons_of_mem _ List.mem_cons_self
  · apply hzero _ rfl
    · exact List.mem_cons_self
    · exact List.mem_cons_of_mem _ List.mem_cons_self

theorem refunds_run :
    sumOf (tables db) .transactions [is .source "refund"] .amount (start scope) =
      (ledgerVolume db (fun t => t.source = "refund") scope,
        ((start scope).queried .transactions [is .source "refund"]).parsed) := by
  rw [sumOf_readable ?_ rfl]
  · congr 1
    apply total_matching rfl rfl
    · intro t
      show (is .source "refund" :: tenantScope scope).all _ = _
      rw [List.all_cons, tenantScope_holds scope rfl]
      simp [is, Condition.holds, Transaction.cell]
    · exact fun _ => rfl
  · obtain ⟨id, global⟩ := scope
    cases global <;> rfl

theorem withdrawals_run
    (h : s = ((start scope).queried .transactions [is .source "refund"]).parsed) :
    sumOf (tables db) .transactions [is .source "admin_debit"] .amount s =
      (0, (s.queried .transactions [is .source "admin_debit"]).parsed) := by
  subst h
  apply sumOf_conflict .source (.text "refund") (.text "admin_debit")
  · obtain ⟨id, global⟩ := scope
    cases global <;> rfl
  · rfl
  · exact List.mem_cons_self
  · exact List.mem_append_left _ (List.mem_append_right _ List.mem_cons_self)
  · decide

theorem walletBalance_run (hsource : s.table = some .transactions) :
    sumOf (tables db) .users [] .balance s = (0, (s.queried .users []).broken) := by
  apply sumOf_unreadable
  apply unreadable_missing (t := .transactions) .balance
  · rw [Statement.source, Statement.queried, hsource]
    rfl
  · exact List.mem_cons_self
  · exact (nomatch · )

def emptyDashboard (db : Db) (scope : Scope) : FinanceDashboard where
  totalRevenue := 0
  todayRevenue := 0
  weekRevenue := 0
  monthRevenue := 0
  yearRevenue := 0
  grossRevenue := 0
  netRevenue := max 0 (0 - ledgerVolume db (fun t => t.source = "refund") scope)
  lifetimeRevenue := 0
  totalDeposits := 0
  totalWithdrawals := 0
  totalWalletBalance := 0
  pendingDeposits := 0
  approvedDeposits := 0
  rejectedDeposits := 0
  totalBonuses := 0
  totalReferralCommissions := 0
  totalRefunds := ledgerVolume db (fun t => t.source = "refund") scope
  totalProductSales := 0
  productSalesCount := 0
  totalUsers := 0
  payingUsers := (depositByUser db scope).length
  activeUsers := (depositByUser db scope ++ orderCountByUser db scope).dedup.length
  arpu := 0
  aov := 0
  totalSpend := 0
  totalClients := 0
  newClientsMonth := 0
  totalDepositCount := 0

theorem clamp_eq (n : Int) : (if n < 0 then 0 else n) = max 0 n := by
  split
  · omega
  · omega

theorem dashboard_eq : dashboard db clock scope = emptyDashboard db scope := by
  simp only [dashboard, onHandle, run_bind, run_pure, refunds_run, withdrawals_run rfl,
    confirmedDepositVolume_eq]
  rw [walletBalance_run rfl]
  simp only [sumOf_dead, countOf_dead, broken_dead, clamp_eq, Int.zero_tdiv, ite_self, add_zero]
  rfl

theorem approvedCount_run :
    countOf (tables db) .manualDeposits [is .status "approved"] (start scope) =
      (manualCount db (fun d => d.status = "approved") scope,
        ((start scope).queried .manualDeposits [is .status "approved"]).parsed) := by
  rw [countOf_readable ?_ rfl]
  · congr 1
    rw [manualCount, number, length_matching (t := .manualDeposits) rfl rfl]
    intro d
    show (is .status "approved" :: tenantScope scope).all _ = _
    rw [List.all_cons, tenantScope_holds scope rfl]
    simp [is, Condition.holds, ManualDeposit.cell]
  · obtain ⟨id, global⟩ := scope
    cases global <;> rfl

theorem approvedVolume_run
    (h : s = ((start scope).queried .manualDeposits [is .status "approved"]).parsed) :
    sumOf (tables db) .manualDeposits [is .status "approved"] .amount s =
      (manualVolume db (fun d => d.status = "approved") scope,
        (s.queried .manualDeposits [is .status "approved"]).parsed) := by
  subst h
  rw [sumOf_readable ?_ rfl]
  · congr 1
    apply total_matching rfl rfl
    · intro d
      show (((is .status "approved" :: tenantScope scope) ++ [is .status "approved"]) ++ []).all _ = _
      rw [List.append_nil, List.all_append, List.all_cons, tenantScope_holds scope rfl]
      simp only [is, Condition.holds, ManualDeposit.cell, Value.text.injEq, List.all_cons, List.all_nil,
        Bool.and_true]
      cases decide (d.status = "approved") <;> cases inScope scope d.tenantId <;> rfl
    · exact fun _ => rfl
  · obtain ⟨id, global⟩ := scope
    cases global <;> rfl

theorem approved_conflict {status : String}
    (hreadable : (s.queried .manualDeposits [is .status status]).readable (tables db) [] = true)
    (hgroups : s.groups = []) (happroved : is .status "approved" ∈ s.filters) (hne : "approved" ≠ status) :
    countOf (tables db) .manualDeposits [is .status status] s =
      (0, (s.queried .manualDeposits [is .status status]).parsed) := by
  apply countOf_conflict .status (.text "approved") (.text status) hreadable hgroups
  · exact List.mem_append_left _ (List.mem_append_left _ happroved)
  · exact List.mem_append_left _ (List.mem_append_right _ List.mem_cons_self)
  · exact fun h => hne (Value.text.inj h)

theorem gateway_run {fs : List (Condition Column)} {gw : String}
    (hsource : s.table = some .manualDeposits) :
    countOf (tables db) .payments (is .gateway gw :: fs) s =
      (0, (s.queried .payments (is .gateway gw :: fs)).broken) := by
  apply countOf_unreadable
  apply unreadable_missing (t := .manualDeposits) .gateway
  · rw [Statement.source, Statement.queried, hsource]
    rfl
  · simp [Statement.conditions, Statement.queried, is, Condition.column]
  · exact (nomatch · )

def deadStat (gw : String) : FinanceMethodStat := ⟨gw, 0, 0, 0, 0, 0⟩

theorem gatewayStat_dead (h : s.Dead) (gw : String) :
    (gatewayStat db gw s).1 = deadStat gw ∧ (gatewayStat db gw s).2.Dead := by
  simp only [gatewayStat, run_bind, run_pure, sumOf_dead, countOf_dead, broken_dead, h]
  exact ⟨rfl, trivial⟩

theorem gatewayStat_first (h : s.table = some .manualDeposits) (gw : String) :
    (gatewayStat db gw s).1 = deadStat gw ∧ (gatewayStat db gw s).2.Dead := by
  simp only [gatewayStat, run_bind, run_pure, gateway_run h, sumOf_dead, countOf_dead, broken_dead]
  exact ⟨rfl, trivial⟩

theorem paymentBreakdown_eq : paymentBreakdown db scope =
    [⟨"manual", manualCount db (fun d => d.status = "approved") scope,
      manualVolume db (fun d => d.status = "approved") scope, 0, 0, 0⟩,
      deadStat "zarinpal", deadStat "plisio"] := by
  simp only [paymentBreakdown, onHandle, run_bind, run_pure, approvedCount_run, approvedVolume_run rfl]
  have hpending : "approved" ≠ "pending" := by decide
  have hrejected : "approved" ≠ "rejected" := by decide
  rw [approved_conflict ?_ rfl ?_ hpending, approved_conflict ?_ rfl ?_ hrejected]
  · generalize hs : (Statement.queried _ Source.manualDeposits [is .status "rejected"]).parsed = s
    have htable : s.table = some .manualDeposits := by
      rw [← hs]
      rfl
    obtain ⟨hzarinpal, hdead⟩ := @gatewayStat_first db s htable "zarinpal"
    rw [hzarinpal, (gatewayStat_dead hdead "plisio").1]
  · obtain ⟨id, global⟩ := scope
    cases global <;> rfl
  · exact List.mem_cons_self
  · obtain ⟨id, global⟩ := scope
    cases global <;> rfl
  · exact List.mem_cons_self

theorem cashflow_eq (since upTo : Int) : cashflow db clock since upTo scope =
    ⟨since, if upTo ≤ 0 then clock.now else upTo, 0, 0, 0, 0, 0, 0, 0⟩ := by
  simp only [cashflow, onHandle, run_bind, run_pure, query_run]
  rw [sum_unreadable]
  · simp only [sum_dead, sumOf_dead, countOf_dead, broken_dead]
    rfl
  · apply unreadable_missing (t := .payments) .approvedAt
    · rfl
    · simp [Statement.conditions, Statement.queried, between, Condition.column]
    · exact (nomatch · )

def balancesRun (scope : Scope) : Statement Source Column := ((start scope).queried .users []).parsed

theorem balances_run :
    sumOf (tables db) .users [] .balance (start scope) = (balances db scope, balancesRun scope) := by
  rw [sumOf_readable ?_ rfl]
  · congr 1
    apply total_matching rfl rfl
    · intro u
      exact tenantScope_holds scope rfl
    · exact fun _ => rfl
  · obtain ⟨id, global⟩ := scope
    cases global <;> rfl

theorem credits_run : sumOf (tables db) .transactions [is .type "credit"] .amount (balancesRun scope) =
    (0, ((balancesRun scope).queried .transactions [is .type "credit"]).broken) := by
  apply sumOf_unreadable
  apply unreadable_missing (t := .users) .amount
  · rfl
  · exact List.mem_cons_self
  · exact (nomatch · )

theorem abs_eq (n : Int) : (if n < 0 then -n else n) = |n| := by
  split
  · exact (abs_of_neg ‹_›).symm
  · exact (abs_of_nonneg (by omega)).symm

theorem consistencyCheck_eq : consistencyCheck db scope =
    { sumUserBalances := balances db scope
      ledgerNet := 0
      difference := balances db scope
      balanced := |balances db scope| ≤ consistencyTolerance
      absDifference := |balances db scope|
      negativeBalances := 0
      duplicateTracking := 0
      orphanedOrders := 0 } := by
  simp only [consistencyCheck, onHandle, run_bind, run_pure, balances_run, credits_run]
  simp only [sumOf_dead, countOf_dead, broken_dead, repeatedOf_dead, sub_zero, abs_eq]

theorem depositByUser_none (h : ∀ d ∈ db.manualDeposits, inScope scope d.tenantId = true → d.status ≠ "approved") :
    depositByUser db scope = [] := by
  simp only [depositByUser, onHandle, run_bind, run_pure, query_run]
  rw [perGroup_empty, perGroup_empty]
  · rfl
  · obtain ⟨id, global⟩ := scope
    cases global <;> rfl
  · exact nofun
  · apply confirmed_conflict
    · exact List.mem_cons_self
    · exact List.mem_append_left _ (List.mem_append_right _ List.mem_cons_self)
  · obtain ⟨id, global⟩ := scope
    cases global <;> rfl
  · exact nofun
  · apply matching_none (t := .manualDeposits) rfl rfl
    intro d hd
    show (is .status "approved" :: tenantScope scope).all _ = _
    rw [List.all_cons, tenantScope_holds scope rfl]
    cases hscope : inScope scope d.tenantId with
    | false => rw [Bool.and_false]
    | true => simp [is, Condition.holds, ManualDeposit.cell, h d hd hscope]

theorem orderCountByUser_none (h : ∀ o ∈ db.orders, inScope scope o.tenantId = true → o.status ≠ "completed") :
    orderCountByUser db scope = [] := by
  simp only [orderCountByUser, onHandle, run_bind, run_pure, query_run]
  rw [perGroup_empty]
  · rfl
  · obtain ⟨id, global⟩ := scope
    cases global <;> rfl
  · exact nofun
  · apply matching_none (t := .orders) rfl rfl
    intro o ho
    show (is .status "completed" :: tenantScope scope).all _ = _
    rw [List.all_cons, tenantScope_holds scope rfl]
    cases hscope : inScope scope o.tenantId with
    | false => rw [Bool.and_false]
    | true => simp [is, Condition.holds, Order.cell, h o ho hscope]

end evaluation

section iffs

variable {α : Type} {rows : List α} {tenant : α → Int} {p : α → Bool} {f : α → Int} {scope : Scope}

theorem number_nonneg : 0 ≤ number rows tenant p scope := Int.natCast_nonneg _

theorem number_eq_zero :
    number rows tenant p scope = 0 ↔ ∀ r ∈ rows, inScope scope (tenant r) = true → p r = false := by
  rw [number, Int.natCast_eq_zero, List.length_eq_zero_iff, List.filter_eq_nil_iff]
  apply forall₂_congr
  intro r _
  cases p r <;> cases inScope scope (tenant r) <;> simp

theorem figure_none (h : ∀ r ∈ rows, inScope scope (tenant r) = true → p r = false) :
    figure rows tenant p f scope = 0 := by
  have hnil : (rows.filter fun r => p r && inScope scope (tenant r)) = [] := by
    rw [List.filter_eq_nil_iff]
    intro r hr
    have hp := h r hr
    cases hscope : inScope scope (tenant r) with
    | false => simp
    | true => simp [hp hscope]
  rw [figure, hnil]
  rfl

variable {db : Db} {clock : Clock} {since upTo : Int} {manual gateway : String}

structure Quiet (db : Db) (scope : Scope) (since upTo : Int) : Prop where
  users : ∀ u ∈ db.users, inScope scope u.tenantId = false
  clients : ∀ c ∈ db.clients, inScope scope c.tenantId = false
  deposits : ∀ d ∈ db.manualDeposits, inScope scope d.tenantId = true →
    d.status ≠ "pending" ∧ d.status ≠ "approved" ∧ d.status ≠ "rejected"
  payments : ∀ p ∈ db.payments, inScope scope p.tenantId = true →
    p.status ≠ "pending" ∧ p.status ≠ "paid" ∧ p.status ≠ "failed"
  orders : ∀ o ∈ db.orders, inScope scope o.tenantId = true →
    o.status ≠ "completed" ∧ o.productId ∈ stocked db scope
  withdrawals : ledgerVolume db (fun t => t.source = "admin_debit") scope = 0
  commissions : ledgerVolume db (fun t => t.source = "referral_commission") scope = 0
  credits : ledgerVolume db (fun t => t.type = "credit") scope = 0
  debits : ledgerVolume db (fun t => t.type = "debit") scope = 0
  refunds : ledgerVolume db (fun t => t.source = "refund" && within since upTo t.createdAt) scope = 0

structure Faithful (db : Db) (clock : Clock) (since upTo : Int) (scope : Scope) : Prop where
  dashboard : dashboard db clock scope = dashboardFigures db clock scope
  breakdown : paymentBreakdown db scope = breakdownFigures db scope
  cashflow : cashflow db clock since upTo scope = cashflowFigures db clock since upTo scope
  consistency : consistencyCheck db scope = consistencyFigures db scope

theorem manualCount_eq_zero (db : Db) (p : ManualDeposit → Bool) (scope : Scope) : manualCount db p scope = 0 ↔
    ∀ d ∈ db.manualDeposits, inScope scope d.tenantId = true → p d = false :=
  number_eq_zero

theorem paymentCount_eq_zero (db : Db) (p : Payment → Bool) (scope : Scope) : paymentCount db p scope = 0 ↔
    ∀ q ∈ db.payments, inScope scope q.tenantId = true → p q = false :=
  number_eq_zero

theorem depositCount_eq_zero : depositCount db manual gateway scope = 0 ↔
    (∀ d ∈ db.manualDeposits, inScope scope d.tenantId = true → d.status ≠ manual) ∧
      ∀ p ∈ db.payments, inScope scope p.tenantId = true → p.status ≠ gateway := by
  have hmanual := manualCount_eq_zero db (fun d => decide (d.status = manual)) scope
  have hgateway := paymentCount_eq_zero db (fun p => decide (p.status = gateway)) scope
  simp only [decide_eq_false_iff_not] at hmanual hgateway
  rw [← hmanual, ← hgateway]
  have hm : 0 ≤ manualCount db (fun d => d.status = manual) scope := number_nonneg
  have hg : 0 ≤ paymentCount db (fun p => p.status = gateway) scope := number_nonneg
  show manualCount db _ scope + paymentCount db _ scope = 0 ↔
    manualCount db _ scope = 0 ∧ paymentCount db _ scope = 0
  omega

theorem Faithful.quiet (h : Faithful db clock since upTo scope) :
    Quiet db scope since (if upTo ≤ 0 then clock.now else upTo) := by
  have hdash := dashboard_eq.symm.trans h.dashboard
  have hcash := (cashflow_eq since upTo).symm.trans h.cashflow
  have hcons := consistencyCheck_eq.symm.trans h.consistency
  obtain ⟨hpendingM, hpendingP⟩ := depositCount_eq_zero.mp
    (congrArg FinanceDashboard.pendingDeposits hdash).symm
  obtain ⟨happrovedM, happrovedP⟩ := depositCount_eq_zero.mp
    (congrArg FinanceDashboard.approvedDeposits hdash).symm
  obtain ⟨hrejectedM, hrejectedP⟩ := depositCount_eq_zero.mp
    (congrArg FinanceDashboard.rejectedDeposits hdash).symm
  have husers := number_eq_zero.mp (congrArg FinanceDashboard.totalUsers hdash).symm
  have hclients := number_eq_zero.mp (congrArg FinanceDashboard.totalClients hdash).symm
  have hsales := number_eq_zero.mp (congrArg FinanceDashboard.productSalesCount hdash).symm
  have horphans := number_eq_zero.mp (congrArg FinanceConsistency.orphanedOrders hcons).symm
  have hdebits : ledgerVolume db (fun t => t.type = "debit") scope = 0 :=
    (congrArg FinanceDashboard.totalSpend hdash).symm
  have hledger : ledgerNet db scope = 0 := (congrArg FinanceConsistency.ledgerNet hcons).symm
  rw [ledgerNet, hdebits, sub_zero] at hledger
  constructor
  · intro u hu
    cases hscope : inScope scope u.tenantId with
    | false => rfl
    | true => exact nomatch husers u hu hscope
  · intro c hc
    cases hscope : inScope scope c.tenantId with
    | false => rfl
    | true => exact nomatch hclients c hc hscope
  · exact fun d hd hscope => ⟨hpendingM d hd hscope, happrovedM d hd hscope, hrejectedM d hd hscope⟩
  · exact fun p hp hscope => ⟨hpendingP p hp hscope, happrovedP p hp hscope, hrejectedP p hp hscope⟩
  · intro o ho hscope
    exact ⟨of_decide_eq_false (hsales o ho hscope),
      Decidable.not_not.mp (of_decide_eq_false (horphans o ho hscope))⟩
  · exact (congrArg FinanceDashboard.totalWithdrawals hdash).symm
  · exact (congrArg FinanceDashboard.totalReferralCommissions hdash).symm
  · exact hledger
  · exact hdebits
  · exact (congrArg FinanceCashflow.refunds hcash).symm

section quiet

variable {pd : ManualDeposit → Bool} {pp : Payment → Bool} {po : Order → Bool} {amount : Payment → Int}

theorem status_eq {s t : String} {q : Bool} (h : (decide (s = t) && q) = true) : s = t :=
  of_decide_eq_true (Bool.and_eq_true_iff.mp h).1

theorem filter_scope_nil (h : ∀ r ∈ rows, inScope scope (tenant r) = true → p r = false) :
    (rows.filter fun r => p r && inScope scope (tenant r)) = [] :=
  List.length_eq_zero_iff.mp (Int.natCast_eq_zero.mp (number_eq_zero.mpr h))

variable (h : Quiet db scope since upTo)

include h

theorem Quiet.no_deposit (pd : ManualDeposit → Bool)
    (hp : ∀ d, pd d = true → d.status = "pending" ∨ d.status = "approved" ∨ d.status = "rejected") :
    ∀ d ∈ db.manualDeposits, inScope scope d.tenantId = true → pd d = false := by
  intro d hd hscope
  obtain ⟨hpending, happroved, hrejected⟩ := h.deposits d hd hscope
  cases hpd : pd d with
  | false => rfl
  | true =>
    rcases hp d hpd with hs | hs | hs
    · exact absurd hs hpending
    · exact absurd hs happroved
    · exact absurd hs hrejected

theorem Quiet.no_payment (pp : Payment → Bool)
    (hp : ∀ p, pp p = true → p.status = "pending" ∨ p.status = "paid" ∨ p.status = "failed") :
    ∀ p ∈ db.payments, inScope scope p.tenantId = true → pp p = false := by
  intro p hpay hscope
  obtain ⟨hpending, hpaid, hfailed⟩ := h.payments p hpay hscope
  cases hpp : pp p with
  | false => rfl
  | true =>
    rcases hp p hpp with hs | hs | hs
    · exact absurd hs hpending
    · exact absurd hs hpaid
    · exact absurd hs hfailed

theorem Quiet.no_sale (po : Order → Bool)
    (hp : ∀ o, po o = true → o.status = "completed") :
    ∀ o ∈ db.orders, inScope scope o.tenantId = true → po o = false := by
  intro o ho hscope
  cases hpo : po o with
  | false => rfl
  | true => exact absurd (hp o hpo) (h.orders o ho hscope).1

theorem Quiet.manualVolume_eq (hp : ∀ d, pd d = true → d.status = "approved") :
    manualVolume db pd scope = 0 :=
  figure_none (h.no_deposit _ fun d hd => .inr (.inl (hp d hd)))

theorem Quiet.paymentVolume_eq (hp : ∀ p, pp p = true → p.status = "paid") :
    paymentVolume db pp amount scope = 0 :=
  figure_none (h.no_payment _ fun p hpaid => .inr (.inl (hp p hpaid)))

theorem Quiet.manualCount_eq
    (hp : ∀ d, pd d = true → d.status = "pending" ∨ d.status = "approved" ∨ d.status = "rejected") :
    manualCount db pd scope = 0 :=
  number_eq_zero.mpr (h.no_deposit _ hp)

theorem Quiet.paymentCount_eq
    (hp : ∀ p, pp p = true → p.status = "pending" ∨ p.status = "paid" ∨ p.status = "failed") :
    paymentCount db pp scope = 0 :=
  number_eq_zero.mpr (h.no_payment _ hp)

theorem Quiet.orderVolume_eq (hp : ∀ o, po o = true → o.status = "completed") :
    orderVolume db po scope = 0 :=
  figure_none (h.no_sale _ hp)

theorem Quiet.orderCount_eq (hp : ∀ o, po o = true → o.status = "completed") :
    orderCount db po scope = 0 :=
  number_eq_zero.mpr (h.no_sale _ hp)

theorem Quiet.userCount_eq (p : User → Bool) : userCount db p scope = 0 :=
  number_eq_zero.mpr fun u hu hscope => absurd hscope (by simp [h.users u hu])

theorem Quiet.clientCount_eq (p : Client → Bool) :
    clientCount db p scope = 0 :=
  number_eq_zero.mpr fun c hc hscope => absurd hscope (by simp [h.clients c hc])

theorem Quiet.balances_eq : balances db scope = 0 :=
  figure_none fun u hu hscope => absurd hscope (by simp [h.users u hu])

theorem Quiet.depositVolume_eq (from_ : Int) :
    depositVolume db from_ scope = 0 := by
  have hmanual : manualVolume db (approvedSince from_) scope = 0 := h.manualVolume_eq fun d => status_eq
  have hpaid : paymentVolume db (paidSince from_) Payment.amount scope = 0 := h.paymentVolume_eq fun p => status_eq
  rw [depositVolume, hmanual, hpaid]
  rfl

theorem Quiet.depositors_eq : depositors db scope = [] := by
  have hmanual := filter_scope_nil (h.no_deposit (fun d => d.status = "approved")
    fun d hd => .inr (.inl (of_decide_eq_true hd)))
  have hpaid := filter_scope_nil (h.no_payment (fun p => p.status = "paid")
    fun p hp => .inr (.inl (of_decide_eq_true hp)))
  rw [depositors, hmanual, hpaid]
  rfl

theorem Quiet.buyers_eq : buyers db scope = [] := by
  have hsales := filter_scope_nil (h.no_sale (fun o => o.status = "completed")
    fun o => of_decide_eq_true)
  rw [buyers, hsales]
  rfl

theorem Quiet.dashboard :
    dashboard db clock scope = dashboardFigures db clock scope := by
  have hbyUser : depositByUser db scope = [] :=
    depositByUser_none fun d hd hscope => (h.deposits d hd hscope).2.1
  have hbyOrder : orderCountByUser db scope = [] :=
    orderCountByUser_none fun o ho hscope => (h.orders o ho hscope).1
  have hpending : depositCount db "pending" "pending" scope = 0 := depositCount_eq_zero.mpr
    ⟨fun d hd hscope => (h.deposits d hd hscope).1, fun p hp hscope => (h.payments p hp hscope).1⟩
  have happroved : depositCount db "approved" "paid" scope = 0 := depositCount_eq_zero.mpr
    ⟨fun d hd hscope => (h.deposits d hd hscope).2.1, fun p hp hscope => (h.payments p hp hscope).2.1⟩
  have hrejected : depositCount db "rejected" "failed" scope = 0 := depositCount_eq_zero.mpr
    ⟨fun d hd hscope => (h.deposits d hd hscope).2.2, fun p hp hscope => (h.payments p hp hscope).2.2⟩
  have hbonus : paymentVolume db (fun p => p.status = "paid") Payment.bonusAmount scope = 0 :=
    h.paymentVolume_eq fun p => of_decide_eq_true
  have hsales : orderVolume db (fun o => o.status = "completed") scope = 0 :=
    h.orderVolume_eq fun o => of_decide_eq_true
  have hsalesCount : orderCount db (fun o => o.status = "completed") scope = 0 :=
    h.orderCount_eq fun o => of_decide_eq_true
  rw [dashboard_eq]
  simp only [emptyDashboard, dashboardFigures, h.depositVolume_eq, hbyUser, hbyOrder, hpending, happroved,
    hrejected, hbonus, hsales, hsalesCount, h.withdrawals, h.commissions, h.debits, h.balances_eq,
    h.userCount_eq, h.clientCount_eq, h.depositors_eq, h.buyers_eq]
  rfl

theorem Quiet.method (gw : String) :
    gatewayFigures db gw scope = deadStat gw := by
  have hstatus : ∀ {s : String} {p : Payment}, (decide (p.gateway = gw) && decide (p.status = s)) = true →
      p.status = s := fun hp => of_decide_eq_true (Bool.and_eq_true_iff.mp hp).2
  have hcount : paymentCount db (fun p => p.gateway = gw && p.status = "paid") scope = 0 :=
    h.paymentCount_eq fun p hp => .inr (.inl (hstatus hp))
  have hvolume : ∀ amount, paymentVolume db (fun p => p.gateway = gw && p.status = "paid") amount scope = 0 :=
    fun amount => h.paymentVolume_eq fun p hp => hstatus hp
  have hpending : paymentCount db (fun p => p.gateway = gw && p.status = "pending") scope = 0 :=
    h.paymentCount_eq fun p hp => .inl (hstatus hp)
  have hrejected : paymentCount db (fun p => p.gateway = gw && p.status = "failed") scope = 0 :=
    h.paymentCount_eq fun p hp => .inr (.inr (hstatus hp))
  rw [gatewayFigures, hcount, hvolume, hvolume, hpending, hrejected]
  rfl

theorem Quiet.breakdown :
    paymentBreakdown db scope = breakdownFigures db scope := by
  have hpending : manualCount db (fun d => d.status = "pending") scope = 0 :=
    h.manualCount_eq fun d hd => .inl (of_decide_eq_true hd)
  have hrejected : manualCount db (fun d => d.status = "rejected") scope = 0 :=
    h.manualCount_eq fun d hd => .inr (.inr (of_decide_eq_true hd))
  rw [paymentBreakdown_eq, breakdownFigures, manualFigures, hpending, hrejected, h.method, h.method]

omit h

theorem Quiet.cashflow (h : Quiet db scope since (if upTo ≤ 0 then clock.now else upTo)) :
    cashflow db clock since upTo scope = cashflowFigures db clock since upTo scope := by
  generalize hto : (if upTo ≤ 0 then clock.now else upTo) = to_ at h
  have hmanual : manualVolume db (fun d => d.status = "approved" && within since to_ d.approvedAt) scope = 0 :=
    h.manualVolume_eq fun d => status_eq
  have hpaid : ∀ amount, paymentVolume db (fun p => p.status = "paid" && within since to_ p.createdAt)
      amount scope = 0 := fun amount => h.paymentVolume_eq fun p => status_eq
  have hsales : orderVolume db (fun o => o.status = "completed" && within since to_ o.createdAt) scope = 0 :=
    h.orderVolume_eq fun o => status_eq
  have hmanualCount : manualCount db (fun d => d.status = "approved" && within since to_ d.approvedAt) scope = 0 :=
    h.manualCount_eq fun d hd => .inr (.inl (status_eq hd))
  have hpaidCount : paymentCount db (fun p => p.status = "paid" && within since to_ p.createdAt) scope = 0 :=
    h.paymentCount_eq fun p hp => .inr (.inl (status_eq hp))
  have horders : orderCount db (fun o => o.status = "completed" && within since to_ o.createdAt) scope = 0 :=
    h.orderCount_eq fun o => status_eq
  rw [cashflow_eq, cashflowFigures]
  simp only [hto, hmanual, hpaid, hsales, hmanualCount, hpaidCount, horders, h.refunds]
  rfl

theorem Quiet.consistency (h : Quiet db scope since upTo) :
    consistencyCheck db scope = consistencyFigures db scope := by
  have horphans : orderCount db (fun o => o.productId ∉ stocked db scope) scope = 0 :=
    number_eq_zero.mpr fun o ho hscope => by simp [(h.orders o ho hscope).2]
  rw [consistencyCheck_eq, consistencyFigures]
  simp only [ledgerNet, h.credits, h.debits, h.balances_eq, h.userCount_eq, horphans]
  rfl

theorem faithful_iff : Faithful db clock since upTo scope ↔
    Quiet db scope since (if upTo ≤ 0 then clock.now else upTo) :=
  ⟨Faithful.quiet, fun h => ⟨h.dashboard, h.breakdown, h.cashflow, h.consistency⟩⟩

end quiet

end iffs

section tenants

variable {db : Db} {clock : Clock} {since upTo : Int} {g g' : Scope → Int} {ts : List Int}

structure Covers (db : Db) (ts : List Int) : Prop where
  nodup : ts.Nodup
  manualDeposits : ∀ d ∈ db.manualDeposits, d.tenantId ∈ ts
  payments : ∀ p ∈ db.payments, p.tenantId ∈ ts
  transactions : ∀ t ∈ db.transactions, t.tenantId ∈ ts
  orders : ∀ o ∈ db.orders, o.tenantId ∈ ts
  users : ∀ u ∈ db.users, u.tenantId ∈ ts
  clients : ∀ c ∈ db.clients, c.tenantId ∈ ts

def Additive (db : Db) (g : Scope → Int) : Prop :=
  ∀ ts, Covers db ts → (ts.map fun t => g (tenantOnly t)).sum = g globalScope

theorem additive_figure {α : Type} {rows : List α} {tenant : α → Int} (p : α → Bool) (f : α → Int)
    (hcover : ∀ ts, Covers db ts → ∀ r ∈ rows, tenant r ∈ ts) : Additive db (figure rows tenant p f) := by
  intro ts hts
  have hpart := Sums.sum_partition (p := p) (f := f) hts.nodup (hcover ts hts)
  have hglobal : (rows.filter fun r => p r && inScope globalScope (tenant r)) = rows.filter p :=
    List.filter_congr fun r _ => Bool.and_true (p r)
  rw [figure, hglobal, ← hpart]
  rfl

theorem additive_number {α : Type} {rows : List α} {tenant : α → Int} (p : α → Bool)
    (hcover : ∀ ts, Covers db ts → ∀ r ∈ rows, tenant r ∈ ts) : Additive db (number rows tenant p) := by
  have hcount : number rows tenant p = figure rows tenant p fun _ => 1 := by
    funext scope
    rw [number, figure, List.map_const', List.sum_replicate, nsmul_one]
  rw [hcount]
  exact additive_figure p _ hcover

theorem Additive.add (h : Additive db g) (h' : Additive db g') : Additive db fun scope => g scope + g' scope := by
  intro ts hts
  rw [Sums.sum_add, h ts hts, h' ts hts]

theorem Additive.sub (h : Additive db g) (h' : Additive db g') : Additive db fun scope => g scope - g' scope := by
  intro ts hts
  have hadd := @Sums.sum_add _ (fun t => g (tenantOnly t) - g' (tenantOnly t)) (fun t => g' (tenantOnly t)) ts
  simp only [sub_add_cancel] at hadd
  show _ = g globalScope - g' globalScope
  rw [← h ts hts, ← h' ts hts, hadd, add_sub_cancel_right]

theorem additive_zero : Additive db fun _ => 0 := fun _ _ => Sums.sum_zero fun _ _ => rfl

variable (db)

theorem additive_manualVolume (p : ManualDeposit → Bool) : Additive db (manualVolume db p) :=
  additive_figure p _ fun _ hts => hts.manualDeposits

theorem additive_manualCount (p : ManualDeposit → Bool) : Additive db (manualCount db p) :=
  additive_number p fun _ hts => hts.manualDeposits

theorem additive_paymentVolume (p : Payment → Bool) (f : Payment → Int) : Additive db (paymentVolume db p f) :=
  additive_figure p f fun _ hts => hts.payments

theorem additive_paymentCount (p : Payment → Bool) : Additive db (paymentCount db p) :=
  additive_number p fun _ hts => hts.payments

theorem additive_ledgerVolume (p : Transaction → Bool) : Additive db (ledgerVolume db p) :=
  additive_figure p _ fun _ hts => hts.transactions

theorem additive_orderVolume (p : Order → Bool) : Additive db (orderVolume db p) :=
  additive_figure p _ fun _ hts => hts.orders

theorem additive_orderCount (p : Order → Bool) : Additive db (orderCount db p) :=
  additive_number p fun _ hts => hts.orders

theorem additive_balances : Additive db (balances db) :=
  additive_figure _ _ fun _ hts => hts.users

theorem additive_userCount (p : User → Bool) : Additive db (userCount db p) :=
  additive_number p fun _ hts => hts.users

theorem additive_clientCount (p : Client → Bool) : Additive db (clientCount db p) :=
  additive_number p fun _ hts => hts.clients

theorem additive_depositVolume (since : Int) : Additive db (depositVolume db since) :=
  (additive_manualVolume db _).add (additive_paymentVolume db _ _)

theorem additive_depositCount (manual gateway : String) : Additive db (depositCount db manual gateway) :=
  (additive_manualCount db _).add (additive_paymentCount db _)

theorem additive_ledgerNet : Additive db (ledgerNet db) :=
  (additive_ledgerVolume db _).sub (additive_ledgerVolume db _)

variable {db}

def dashboardAdditive : List (FinanceDashboard → Int) :=
  [FinanceDashboard.totalRevenue, FinanceDashboard.todayRevenue, FinanceDashboard.weekRevenue,
    FinanceDashboard.monthRevenue, FinanceDashboard.yearRevenue, FinanceDashboard.grossRevenue,
    FinanceDashboard.lifetimeRevenue, FinanceDashboard.totalDeposits, FinanceDashboard.totalWithdrawals,
    FinanceDashboard.totalWalletBalance, FinanceDashboard.pendingDeposits, FinanceDashboard.approvedDeposits,
    FinanceDashboard.rejectedDeposits, FinanceDashboard.totalBonuses,
    FinanceDashboard.totalReferralCommissions, FinanceDashboard.totalRefunds,
    FinanceDashboard.totalProductSales, FinanceDashboard.productSalesCount, FinanceDashboard.totalUsers,
    FinanceDashboard.totalSpend, FinanceDashboard.totalClients, FinanceDashboard.newClientsMonth,
    FinanceDashboard.totalDepositCount]

def methodAdditive : List (FinanceMethodStat → Int) :=
  [FinanceMethodStat.count, FinanceMethodStat.volume, FinanceMethodStat.bonus, FinanceMethodStat.pending,
    FinanceMethodStat.rejected]

def cashflowAdditive : List (FinanceCashflow → Int) :=
  [FinanceCashflow.income, FinanceCashflow.productSales, FinanceCashflow.bonuses, FinanceCashflow.refunds,
    FinanceCashflow.deposits, FinanceCashflow.orders]

def consistencyAdditive : List (FinanceConsistency → Int) :=
  [FinanceConsistency.sumUserBalances, FinanceConsistency.ledgerNet, FinanceConsistency.difference,
    FinanceConsistency.negativeBalances]

def methodAt (i : Nat) (stats : List FinanceMethodStat) (f : FinanceMethodStat → Int) : Int :=
  (stats[i]?.map f).getD 0

structure FiguresRight (db : Db) (clock : Clock) (since upTo : Int) : Prop where
  faithful : ∀ scope, Faithful db clock since upTo scope
  gross : ∀ scope, (dashboard db clock scope).grossRevenue =
    manualVolume db (fun d => d.status = "approved") scope +
      paymentVolume db (fun p => p.status = "paid") Payment.amount scope
  dashboards : ∀ f ∈ dashboardAdditive, Additive db fun scope => f (dashboard db clock scope)
  methods : ∀ i, ∀ f ∈ methodAdditive, Additive db fun scope => methodAt i (paymentBreakdown db scope) f
  cashflows : ∀ f ∈ cashflowAdditive, Additive db fun scope => f (cashflow db clock since upTo scope)
  consistencies : ∀ f ∈ consistencyAdditive, Additive db fun scope => f (consistencyCheck db scope)

theorem dashboardFigures_additive :
    ∀ f ∈ dashboardAdditive, Additive db fun scope => f (dashboardFigures db clock scope) := by
  simp only [dashboardAdditive, List.forall_mem_cons]
  refine ⟨additive_depositVolume db _, additive_depositVolume db _, additive_depositVolume db _,
    additive_depositVolume db _, additive_depositVolume db _, additive_depositVolume db _,
    additive_depositVolume db _, additive_depositVolume db _, additive_ledgerVolume db _,
    additive_balances db, additive_depositCount db _ _, additive_depositCount db _ _,
    additive_depositCount db _ _, additive_paymentVolume db _ _, additive_ledgerVolume db _,
    additive_ledgerVolume db _, additive_orderVolume db _, additive_orderCount db _,
    additive_userCount db _, additive_ledgerVolume db _, additive_clientCount db _,
    additive_clientCount db _, ?_, nofun⟩
  exact ((additive_depositCount db _ _).add (additive_depositCount db _ _)).add (additive_depositCount db _ _)

theorem gatewayFigures_additive (gw : String) :
    ∀ f ∈ methodAdditive, Additive db fun scope => f (gatewayFigures db gw scope) := by
  simp only [methodAdditive, List.forall_mem_cons]
  exact ⟨additive_paymentCount db _, additive_paymentVolume db _ _, additive_paymentVolume db _ _,
    additive_paymentCount db _, additive_paymentCount db _, nofun⟩

theorem manualFigures_additive :
    ∀ f ∈ methodAdditive, Additive db fun scope => f (manualFigures db scope) := by
  simp only [methodAdditive, List.forall_mem_cons]
  exact ⟨additive_manualCount db _, additive_manualVolume db _, additive_zero, additive_manualCount db _,
    additive_manualCount db _, nofun⟩

theorem breakdownFigures_additive (i : Nat) :
    ∀ f ∈ methodAdditive, Additive db fun scope => methodAt i (breakdownFigures db scope) f := by
  intro f hf
  match i with
  | 0 => exact manualFigures_additive f hf
  | 1 => exact gatewayFigures_additive "zarinpal" f hf
  | 2 => exact gatewayFigures_additive "plisio" f hf
  | _ + 3 => exact additive_zero

theorem cashflowFigures_additive :
    ∀ f ∈ cashflowAdditive, Additive db fun scope => f (cashflowFigures db clock since upTo scope) := by
  simp only [cashflowAdditive, List.forall_mem_cons]
  refine ⟨?_, additive_orderVolume db _, additive_paymentVolume db _ _, additive_ledgerVolume db _, ?_,
    additive_orderCount db _, nofun⟩
  · exact (additive_manualVolume db _).add (additive_paymentVolume db _ _)
  · exact (additive_manualCount db _).add (additive_paymentCount db _)

theorem consistencyFigures_additive :
    ∀ f ∈ consistencyAdditive, Additive db fun scope => f (consistencyFigures db scope) := by
  simp only [consistencyAdditive, List.forall_mem_cons]
  exact ⟨additive_balances db, additive_ledgerNet db, (additive_balances db).sub (additive_ledgerNet db),
    additive_userCount db _, nofun⟩

theorem approvedSince_always : approvedSince 0 = fun d => decide (d.status = "approved") := by
  funext d
  simp [approvedSince]

theorem paidSince_always : paidSince 0 = fun p => decide (p.status = "paid") := by
  funext p
  simp [paidSince]

theorem figures_right_iff (db : Db) (clock : Clock) (since upTo : Int) :
    FiguresRight db clock since upTo ↔
      ∀ scope, Quiet db scope since (if upTo ≤ 0 then clock.now else upTo) := by
  constructor
  · exact fun h scope => (h.faithful scope).quiet
  · intro h
    have hfaithful : ∀ scope, Faithful db clock since upTo scope := fun scope => faithful_iff.mpr (h scope)
    refine ⟨hfaithful, ?_, ?_, ?_, ?_, ?_⟩
    · intro scope
      rw [(hfaithful scope).dashboard, ← approvedSince_always, ← paidSince_always]
      rfl
    · simp only [(hfaithful _).dashboard]
      exact dashboardFigures_additive
    · simp only [(hfaithful _).breakdown]
      exact breakdownFigures_additive
    · simp only [(hfaithful _).cashflow]
      exact cashflowFigures_additive
    · simp only [(hfaithful _).consistency]
      exact consistencyFigures_additive

end tenants

section counterexample

def clockAt (now : Int) : Clock := ⟨now, now, now, now, now⟩

def oneDeposit : Db :=
  { manualDeposits := [⟨1, 0, 100, "approved", 5, 5⟩]
    payments := []
    transactions := []
    orders := []
    users := [⟨1, 0, 100, 1⟩]
    clients := []
    products := [] }

theorem deposit_not_in_revenue :
    (dashboard oneDeposit (clockAt 9) globalScope).grossRevenue = 0 ∧
      (dashboard oneDeposit (clockAt 9) globalScope).totalUsers = 0 ∧
      (dashboardFigures oneDeposit (clockAt 9) globalScope).grossRevenue = 100 ∧
      (dashboardFigures oneDeposit (clockAt 9) globalScope).totalUsers = 1 ∧
      ¬ FiguresRight oneDeposit (clockAt 9) 0 9 := by
  refine ⟨by decide +kernel, by decide +kernel, by decide +kernel, by decide +kernel, ?_⟩
  intro h
  have hgross := congrArg FinanceDashboard.grossRevenue (h.faithful globalScope).dashboard
  exact absurd hgross (by decide +kernel)

end counterexample

end Finance

end QuiPanel
