import QuiPanel.Model
import QuiPanel.Library.Refusals
import QuiPanel.Library.Trace
import Mathlib

namespace QuiPanel

namespace Treasury

open Outcome Trace List

structure WorkspaceWallet where
  tenantId : Int
  balance : Int64

structure TreasuryMeta where
  source : String
  refId : String
  actor : String

structure WorkspaceTransaction where
  tenantId : Int
  amount : Int64
  type : TxType
  description : String
  balanceBefore : Int64
  balanceAfter : Int64
  source : String
  refId : String
  actor : String
  counterpartyUserId : Int

structure DB where
  wallets : List WorkspaceWallet
  transactions : List WorkspaceTransaction

inductive Err
  | notTenantScoped
  | invalidAmount
  | insufficientTreasury
  | balanceConflict
  | database (text : String)
  deriving DecidableEq

structure Attempt where
  read : Option String
  create : Option String
  reread : Option String
  update : Option String
  overtaken : Bool
  record : Option String
  commit : Option String

def fails (fault : Option String) : Except Err Unit :=
  match fault with
  | none => .ok ()
  | some text => .error (.database text)

def walletMaxRetries : Nat := 4

def DB.wallet (db : DB) (tenantId : Int) : Option WorkspaceWallet :=
  db.wallets.find? (·.tenantId = tenantId)

def getTreasuryBalance (db : DB) (tenantId : Int) : Int64 := ((db.wallet tenantId).map (·.balance)).getD 0

section service

variable (a : Attempt) (db : DB) (tenantId : Int)

def ensureWallet (read : Option String) : Except Err (DB × WorkspaceWallet) := do
  fails read
  match db.wallet tenantId with
  | some w => return (db, w)
  | none =>
    fails a.create
    let w : WorkspaceWallet := ⟨tenantId, 0⟩
    return ({ db with wallets := db.wallets ++ [w] }, w)

def setBalance (before after : Int64) : DB :=
  { db with
    wallets := db.wallets.map fun w =>
      if w.tenantId = tenantId ∧ w.balance = before then { w with balance := after } else w }

def applyTreasuryDelta (read : Option String) (delta : Int64) (txType : TxType) (desc : String)
    (info : TreasuryMeta) (counterpartyUserId : Int) (allowNegative : Bool) : Except Err DB := do
  let (db, w) ← ensureWallet a db tenantId read
  let before := w.balance
  let after := before + delta
  check (!(decide (after < 0) && !allowNegative)) .insufficientTreasury
  fails a.update
  check (!a.overtaken) .balanceConflict
  let db := setBalance db tenantId before after
  let amount := if delta < 0 then -delta else delta
  fails a.record
  return { db with
    transactions := db.transactions ++
      [⟨tenantId, amount, txType, desc, before, after, info.source, info.refId, info.actor,
        counterpartyUserId⟩] }

def transaction (fn : DB → Except Err DB) : DB × Except Err Unit :=
  match fn db with
  | .error e => (db, .error e)
  | .ok db' =>
    match a.commit with
    | some text => (db, .error (.database text))
    | none => (db', .ok ())

def retrying (fn : Attempt → DB → Except Err DB) : List Attempt → DB × Except Err Unit
  | [] => (db, .error .balanceConflict)
  | a :: attempts =>
    match transaction a db (fn a) with
    | (_, .error .balanceConflict) => retrying fn attempts
    | r => r

def withRetry (attempts : Nat → Attempt) (fn : Attempt → DB → Except Err DB) : DB × Except Err Unit :=
  retrying db fn ((List.range walletMaxRetries).map attempts)

end service

structure Order where
  tenantId : Int
  amount : Int64
  desc : String
  info : TreasuryMeta

def guarded (db : DB) (valid : Bool) (o : Order) (act : DB × Except Err Unit) : DB × Except Err Unit :=
  if o.tenantId ≤ globalTenantId then (db, .error .notTenantScoped)
  else if !valid then (db, .error .invalidAmount)
  else act

section operations

variable (attempts : Nat → Attempt) (db : DB) (o : Order)

def creditTreasury : DB × Except Err Unit :=
  guarded db (0 < o.amount) o <| withRetry db attempts fun a db =>
    applyTreasuryDelta a db o.tenantId a.read o.amount .credit o.desc o.info 0 false

def debitTreasury : DB × Except Err Unit :=
  guarded db (0 < o.amount) o <| withRetry db attempts fun a db =>
    applyTreasuryDelta a db o.tenantId a.read (-o.amount) .debit o.desc o.info 0 false

def debitCostOfGoods : DB × Except Err Unit :=
  guarded db (0 < o.amount) o <| withRetry db attempts fun a db =>
    applyTreasuryDelta a db o.tenantId a.read (-o.amount) .debit o.desc o.info 0 true

def setTreasury : DB × Except Err Unit :=
  guarded db (0 ≤ o.amount) o <| withRetry db attempts fun a db => do
    let (db, w) ← ensureWallet a db o.tenantId a.read
    let delta := o.amount - w.balance
    if delta = 0 then return db
    else
      let txType := if delta < 0 then TxType.debit else TxType.credit
      applyTreasuryDelta a db o.tenantId a.reread delta txType o.desc o.info 0 false

end operations

inductive Operation
  | creditTreasury
  | debitTreasury
  | debitCostOfGoods
  | setTreasury
  deriving DecidableEq

structure Event where
  operation : Operation
  order : Order
  attempts : Nat → Attempt

def Event.run (e : Event) (db : DB) : DB × Except Err Unit :=
  match e.operation with
  | .creditTreasury => Treasury.creditTreasury e.attempts db e.order
  | .debitTreasury => Treasury.debitTreasury e.attempts db e.order
  | .debitCostOfGoods => Treasury.debitCostOfGoods e.attempts db e.order
  | .setTreasury => Treasury.setTreasury e.attempts db e.order

def step (db : DB) (e : Event) : DB := (e.run db).1

def empty : DB := ⟨[], []⟩

def signed (t : WorkspaceTransaction) : Int64 :=
  match t.type with
  | .credit => t.amount
  | .debit => -t.amount

def ledgerOf (db : DB) (tenantId : Int) : List WorkspaceTransaction :=
  db.transactions.filter (·.tenantId = tenantId)

def ledgerSum (db : DB) (tenantId : Int) : Int64 :=
  (ledgerOf db tenantId).foldl (fun balance t => balance + signed t) 0

def exactSum (db : DB) (tenantId : Int) : Int :=
  (ledgerOf db tenantId).foldl (fun balance t => balance + (signed t).toInt) 0

def Booked (db : DB) : Prop := ∀ tenantId, getTreasuryBalance db tenantId = ledgerSum db tenantId

def BookedExactly (db : DB) : Prop :=
  ∀ tenantId, (getTreasuryBalance db tenantId).toInt = exactSum db tenantId

section writes

variable {a : Attempt} {db db' : DB} {tenantId t : Int} {read : Option String} {delta : Int64}
  {txType : TxType} {desc : String} {info : TreasuryMeta} {counterparty : Int} {allowNegative : Bool}

structure Kept (db db' : DB) : Prop where
  balances : ∀ t, getTreasuryBalance db' t = getTreasuryBalance db t
  ledger : db'.transactions = db.transactions

structure Moved (tenantId : Int) (delta : Int64) (row : WorkspaceTransaction) (db db' : DB) : Prop where
  balances : ∀ t, getTreasuryBalance db' t =
    if t = tenantId then getTreasuryBalance db t + delta else getTreasuryBalance db t
  ledger : db'.transactions = db.transactions ++ [row]
  tenant : row.tenantId = tenantId
  before : row.balanceBefore = getTreasuryBalance db tenantId
  after : row.balanceAfter = getTreasuryBalance db tenantId + delta

def entry (db : DB) (tenantId : Int) (delta : Int64) (txType : TxType) (desc : String) (info : TreasuryMeta)
    (counterparty : Int) : WorkspaceTransaction :=
  ⟨tenantId, if delta < 0 then -delta else delta, txType, desc, getTreasuryBalance db tenantId,
    getTreasuryBalance db tenantId + delta, info.source, info.refId, info.actor, counterparty⟩

theorem Kept.refl (db : DB) : Kept db db := ⟨fun _ => rfl, rfl⟩

theorem fails_ok {fault : Option String} {u : Unit} : fails fault = .ok u ↔ fault = none := by
  cases fault <;> simp [fails]

theorem ensureWallet_ok {w : WorkspaceWallet} (h : ensureWallet a db tenantId read = .ok (db', w)) :
    Kept db db' ∧ db'.wallet tenantId = some w ∧ w.balance = getTreasuryBalance db tenantId := by
  simp only [ensureWallet, bind_ok] at h
  obtain ⟨_, -, h⟩ := h
  cases hw : db.wallet tenantId with
  | some w' =>
    rw [hw] at h
    cases h
    exact ⟨.refl db, hw, by simp [getTreasuryBalance, hw]⟩
  | none =>
    rw [hw] at h
    simp only [bind_ok] at h
    obtain ⟨_, -, h⟩ := h
    cases h
    refine ⟨⟨?_, rfl⟩, ?_, by simp [getTreasuryBalance, hw]⟩
    · intro t
      simp only [getTreasuryBalance, DB.wallet, find?_append]
      rcases eq_or_ne tenantId t with rfl | hne
      · rw [DB.wallet] at hw
        simp [hw]
      · simp [hne]
    · rw [DB.wallet] at hw
      simp [DB.wallet, find?_append, hw]

theorem setBalance_balance {w : WorkspaceWallet} (hw : db.wallet tenantId = some w) (after : Int64) (t : Int) :
    getTreasuryBalance (setBalance db tenantId w.balance after) t =
      if t = tenantId then after else getTreasuryBalance db t := by
  have htenant : ∀ v : WorkspaceWallet, (if v.tenantId = tenantId ∧ v.balance = w.balance then
      { v with balance := after } else v).tenantId = v.tenantId := by
    intro v
    split <;> rfl
  have hfind : (setBalance db tenantId w.balance after).wallet t =
      (db.wallet t).map fun v => if v.tenantId = tenantId ∧ v.balance = w.balance then
        { v with balance := after } else v := by
    simp only [DB.wallet, setBalance, find?_map]
    congr 2
    funext v
    simp [htenant v]
  rw [getTreasuryBalance, hfind]
  split
  case isTrue he =>
    rw [he, hw, Option.map_some]
    have hkey : w.tenantId = tenantId := by simpa using find?_some hw
    simp [hkey]
  case isFalse hne =>
    rw [getTreasuryBalance]
    cases hv : db.wallet t with
    | none => rfl
    | some v =>
      have hkey : v.tenantId = t := by simpa using find?_some hv
      have hother : ¬ (v.tenantId = tenantId ∧ v.balance = w.balance) := fun h => hne (hkey.symm.trans h.1)
      rw [Option.map_some, if_neg hother]

theorem applyTreasuryDelta_ok
    (h : applyTreasuryDelta a db tenantId read delta txType desc info counterparty allowNegative = .ok db') :
    Moved tenantId delta (entry db tenantId delta txType desc info counterparty) db db' ∧
      (allowNegative = false → 0 ≤ getTreasuryBalance db tenantId + delta) := by
  simp only [applyTreasuryDelta, bind_ok, check_ok] at h
  obtain ⟨⟨mid, w⟩, hensure, _, hsign, _, -, _, -, _, -, h⟩ := h
  obtain ⟨hkept, hw, hbefore⟩ := ensureWallet_ok hensure
  cases h
  refine ⟨⟨?_, ?_, rfl, rfl, rfl⟩, ?_⟩
  · intro t
    have hset := setBalance_balance hw (w.balance + delta) t
    rw [getTreasuryBalance, DB.wallet] at hset ⊢
    rw [hset, hkept.balances, hbefore]
    split
    case isTrue he => rw [he]
    case isFalse => rfl
  · simp only [setBalance, hkept.ledger, entry, hbefore]
  · intro hallow
    rw [hallow] at hsign
    rw [← hbefore]
    simpa using hsign

def Opens (a : Attempt) (db : DB) (tenantId : Int) (read : Option String) : Prop :=
  read = none ∧ (db.wallet tenantId = none → a.create = none)

theorem fails_refusal {fault : Option String} {e : Err} (h : fails fault = .error e) :
    ∃ text, e = .database text := by
  cases fault with
  | none => cases h
  | some text =>
    cases h
    exact ⟨text, rfl⟩

theorem ensureWallet_error {e : Err} (h : ensureWallet a db tenantId read = .error e) :
    (∃ text, e = .database text) ∧ ¬ Opens a db tenantId read := by
  simp only [ensureWallet, bind_error, fails_ok] at h
  rcases h with hread | ⟨_, hread, h⟩
  · refine ⟨fails_refusal hread, ?_⟩
    rintro ⟨rfl, -⟩
    cases hread
  · cases hw : db.wallet tenantId with
    | some w =>
      rw [hw] at h
      cases h
    | none =>
      rw [hw] at h
      simp only [bind_error] at h
      rcases h with hcreate | ⟨_, -, h⟩
      · refine ⟨fails_refusal hcreate, ?_⟩
        rintro ⟨-, hopen⟩
        rw [hopen hw] at hcreate
        cases hcreate
      · cases h

theorem ensureWallet_opens (h : Opens a db tenantId read) : ∃ r, ensureWallet a db tenantId read = .ok r := by
  rcases ok_or_error (ensureWallet a db tenantId read) with hok | ⟨e, herror⟩
  · exact hok
  · exact absurd h (ensureWallet_error herror).2

theorem ensureWallet_iff : (∃ r, ensureWallet a db tenantId read = .ok r) ↔ Opens a db tenantId read := by
  constructor
  · rintro ⟨r, hr⟩
    simp only [ensureWallet, bind_ok, fails_ok] at hr
    obtain ⟨_, hread, h⟩ := hr
    refine ⟨hread, ?_⟩
    intro hnone
    rw [hnone] at h
    simp only [bind_ok, fails_ok] at h
    obtain ⟨_, hcreate, -⟩ := h
    exact hcreate
  · exact ensureWallet_opens

theorem insufficient_iff :
    applyTreasuryDelta a db tenantId read delta txType desc info counterparty allowNegative =
        .error .insufficientTreasury ↔
      Opens a db tenantId read ∧ allowNegative = false ∧ getTreasuryBalance db tenantId + delta < 0 := by
  simp only [applyTreasuryDelta, bind_error, check_error]
  constructor
  · rintro (hensure | ⟨⟨mid, w⟩, hensure, hrest⟩)
    · obtain ⟨⟨text, ht⟩, -⟩ := ensureWallet_error hensure
      cases ht
    · have hopens := ensureWallet_iff.mp ⟨_, hensure⟩
      obtain ⟨-, -, hbefore⟩ := ensureWallet_ok hensure
      rcases hrest with ⟨hsign, -⟩ | ⟨_, -, hupdate | ⟨_, -, ⟨-, hconflict⟩ | ⟨_, -, hrecord | ⟨_, -, hdone⟩⟩⟩⟩
      · rw [hbefore] at hsign
        exact ⟨hopens, by simpa [and_comm] using hsign⟩
      · obtain ⟨text, ht⟩ := fails_refusal hupdate
        cases ht
      · cases hconflict
      · obtain ⟨text, ht⟩ := fails_refusal hrecord
        cases ht
      · cases hdone
  · rintro ⟨hopens, hallow, hsign⟩
    obtain ⟨⟨mid, w⟩, hensure⟩ := ensureWallet_opens hopens
    obtain ⟨-, -, hbefore⟩ := ensureWallet_ok hensure
    exact .inr ⟨(mid, w), hensure, .inl ⟨by simp [hallow, hbefore, hsign], trivial⟩⟩

end writes

section retries

variable {db : DB} {fn : Attempt → DB → Except Err DB} {attempts : List Attempt}

variable {f : DB → Except Err DB} {a : Attempt}

theorem transaction_ok (h : (transaction a db f).2 = .ok ()) :
    f db = .ok (transaction a db f).1 := by
  rw [transaction] at h ⊢
  split at h
  · cases h
  · split at h
    · cases h
    case h_2 db' hf _ _ => simp [hf]

theorem transaction_kept {e : Err}
    (h : (transaction a db f).2 = .error e) : (transaction a db f).1 = db := by
  rw [transaction] at h ⊢
  split at h
  · rfl
  · split at h
    · rfl
    · cases h

theorem retrying_cases : (∃ a ∈ attempts, fn a db = .ok (retrying db fn attempts).1 ∧
      (retrying db fn attempts).2 = .ok ()) ∨
    (retrying db fn attempts).1 = db ∧ ∃ e, (retrying db fn attempts).2 = .error e := by
  induction attempts with
  | nil => exact .inr ⟨rfl, _, rfl⟩
  | cons a attempts ih =>
    rw [retrying]
    split
    · rcases ih with ⟨a', ha', hok⟩ | hkept
      · exact .inl ⟨a', mem_cons_of_mem _ ha', hok⟩
      · exact .inr hkept
    · rcases ok_or_error (transaction a db (fn a)).2 with ⟨_, hok⟩ | ⟨e, herror⟩
      · exact .inl ⟨a, mem_cons_self, transaction_ok hok, hok⟩
      · exact .inr ⟨transaction_kept herror, e, herror⟩

theorem transaction_refused :
    (transaction a db f).2 = .error .insufficientTreasury ↔ f db = .error .insufficientTreasury := by
  rw [transaction]
  split
  case h_1 e hf => simp [hf]
  case h_2 db' hf =>
    split <;> simp [hf]

theorem transaction_conflict {db' : DB}
    (h : transaction a db f = (db', .error .balanceConflict)) : f db = .error .balanceConflict := by
  rw [transaction] at h
  split at h
  case h_1 hf =>
    cases h
    exact hf
  · split at h <;> cases h

theorem retrying_refused (h : (retrying db fn attempts).2 = .error .insufficientTreasury) :
    ∃ a ∈ attempts, fn a db = .error .insufficientTreasury := by
  induction attempts with
  | nil => cases h
  | cons a attempts ih =>
    rw [retrying] at h
    split at h
    · obtain ⟨a', ha', hrefused⟩ := ih h
      exact ⟨a', mem_cons_of_mem _ ha', hrefused⟩
    · exact ⟨a, mem_cons_self, transaction_refused.mp h⟩

theorem retrying_first
    (h : (retrying db fn (a :: attempts)).2 = .error .insufficientTreasury) :
    fn a db = .error .insufficientTreasury ∨ fn a db = .error .balanceConflict := by
  rw [retrying] at h
  split at h
  case h_1 hconflict => exact .inr (transaction_conflict hconflict)
  · exact .inl (transaction_refused.mp h)

theorem withRetry_first {e : Err} {plan : Nat → Attempt} (h : fn (plan 0) db = .error e)
    (hne : e ≠ .balanceConflict) : withRetry db plan fn = (db, .error e) := by
  have hfirst : transaction (plan 0) db (fn (plan 0)) = (db, .error e) := by
    rw [transaction]
    split
    case h_1 hf =>
      rw [h] at hf
      cases hf
      rfl
    case h_2 hf =>
      rw [h] at hf
      cases hf
  simp only [withRetry, walletMaxRetries, range_succ_eq_map, map_cons, retrying, hfirst]
  cases e with
  | balanceConflict => exact absurd rfl hne
  | _ => rfl

theorem withRetry_lands {db' : DB} {plan : Nat → Attempt} (h : fn (plan 0) db = .ok db')
    (hcommit : (plan 0).commit = none) : withRetry db plan fn = (db', .ok ()) := by
  have hfirst : transaction (plan 0) db (fn (plan 0)) = (db', .ok ()) := by
    simp [transaction, h, hcommit]
  simp only [withRetry, walletMaxRetries, range_succ_eq_map, map_cons, retrying, hfirst]

end retries

def Event.delta (db : DB) (e : Event) : Int64 :=
  match e.operation with
  | .creditTreasury => e.order.amount
  | .debitTreasury => -e.order.amount
  | .debitCostOfGoods => -e.order.amount
  | .setTreasury => e.order.amount - getTreasuryBalance db e.order.tenantId

def Event.exactDelta (db : DB) (e : Event) : Int :=
  match e.operation with
  | .creditTreasury => e.order.amount.toInt
  | .debitTreasury => -e.order.amount.toInt
  | .debitCostOfGoods => -e.order.amount.toInt
  | .setTreasury => e.order.amount.toInt - (getTreasuryBalance db e.order.tenantId).toInt

def InRange (n : Int) : Prop := -2 ^ 63 ≤ n ∧ n < 2 ^ 63

def Fits (db : DB) (e : Event) : Prop :=
  InRange (e.exactDelta db) ∧ InRange ((getTreasuryBalance db e.order.tenantId).toInt + e.exactDelta db)

section steps

variable {db db' : DB} {e : Event} {a : Attempt}

theorem neg_of_pos {n : Int64} (h : 0 < n) : -n < 0 := by
  have hmax := n.toInt_lt
  rw [Int64.lt_iff_toInt_lt] at h ⊢
  rw [Int64.toInt_zero] at h ⊢
  rw [Int64.toInt_neg, Int.bmod_eq_of_le (by omega) (by omega)]
  omega

variable {act : DB × Except Err Unit} {txType : TxType}

variable {delta : Int64} {allowNegative : Bool} {valid : Bool} {info : TreasuryMeta} {desc : String}

theorem signed_entry {tenantId : Int}
    {counterparty : Int} (h : txType = if delta < 0 then .debit else .credit) :
    signed (entry db tenantId delta txType desc info counterparty) = delta := by
  by_cases hdelta : delta < 0
  · rw [if_pos hdelta] at h
    rw [h, signed, entry]
    simp [hdelta]
  · rw [if_neg hdelta] at h
    rw [h, signed, entry]
    simp [hdelta]

theorem guarded_cases {o : Order} :
    ((guarded db valid o act).1 = db ∧ ((guarded db valid o act).2 = .error .notTenantScoped ∨
        (guarded db valid o act).2 = .error .invalidAmount)) ∨
      globalTenantId < o.tenantId ∧ valid = true ∧ guarded db valid o act = act := by
  rw [guarded]
  split
  · exact .inl ⟨rfl, .inl rfl⟩
  case isFalse htenant =>
    cases valid with
    | false => exact .inl ⟨rfl, .inr rfl⟩
    | true => exact .inr ⟨by omega, rfl, rfl⟩

structure Written (db : DB) (e : Event) (db' : DB) (row : WorkspaceTransaction) : Prop where
  moved : Moved e.order.tenantId (e.delta db) row db db'
  signed : Treasury.signed row = e.delta db
  type : row.type = if e.delta db < 0 then .debit else .credit
  afloat : e.operation ≠ .debitCostOfGoods → 0 ≤ getTreasuryBalance db e.order.tenantId + e.delta db

theorem written_of_delta {read : Option String} {mid : DB}
    (hkept : Kept db mid) (htype : txType = if e.delta db < 0 then .debit else .credit)
    (hallow : allowNegative = decide (e.operation = .debitCostOfGoods))
    (h : applyTreasuryDelta a mid e.order.tenantId read (e.delta db) txType e.order.desc e.order.info 0
      allowNegative = .ok db') : ∃ row, Written db e db' row := by
  obtain ⟨hmoved, hsign⟩ := applyTreasuryDelta_ok h
  refine ⟨_, ⟨?_, hmoved.ledger.trans (by rw [hkept.ledger]), hmoved.tenant, ?_, ?_⟩, signed_entry htype, htype, ?_⟩
  · intro t
    rw [hmoved.balances, hkept.balances]
  · rw [hmoved.before, hkept.balances]
  · rw [hmoved.after, hkept.balances]
  · intro hne
    rw [hallow, decide_eq_false hne, hkept.balances] at hsign
    exact hsign rfl

def Settles (db : DB) (e : Event) (r : DB × Except Err Unit) : Prop :=
  (r.1 = db ∧ ∃ err, r.2 = .error err) ∨
    r.2 = .ok () ∧ (Kept db r.1 ∨ ∃ row, Written db e r.1 row)

theorem settles_guarded (h : valid = true → Settles db e act) :
    Settles db e (guarded db valid e.order act) := by
  rcases guarded_cases with ⟨hdb, herror | herror⟩ | ⟨-, hvalid, hact⟩
  · exact .inl ⟨hdb, _, herror⟩
  · exact .inl ⟨hdb, _, herror⟩
  · rw [hact]
    exact h hvalid

theorem settles_retry {fn : Attempt → DB → Except Err DB}
    (h : ∀ a db', fn a db = .ok db' → Kept db db' ∨ ∃ row, Written db e db' row) :
    Settles db e (withRetry db e.attempts fn) := by
  rcases retrying_cases with ⟨a, -, hok, hdone⟩ | hkept
  · exact .inr ⟨hdone, h a _ hok⟩
  · exact .inl hkept

theorem settles_leg (hdelta : e.delta db = delta)
    (htype : 0 < e.order.amount → txType = if delta < 0 then .debit else .credit)
    (hallow : allowNegative = decide (e.operation = .debitCostOfGoods)) :
    Settles db e (guarded db (0 < e.order.amount) e.order <| withRetry db e.attempts fun a db =>
      applyTreasuryDelta a db e.order.tenantId a.read delta txType e.order.desc e.order.info 0
        allowNegative) := by
  subst hdelta
  apply settles_guarded
  intro hvalid
  apply settles_retry
  intro a db' hok
  exact .inr (written_of_delta (Kept.refl db) (htype (of_decide_eq_true hvalid)) hallow hok)

theorem settles_set (hop : e.operation = .setTreasury) : Settles db e (setTreasury e.attempts db e.order) := by
  apply settles_guarded
  intro _
  apply settles_retry
  intro a db' hok
  rw [bind_ok] at hok
  obtain ⟨⟨mid, w⟩, hensure, hok⟩ := hok
  obtain ⟨hkept, -, hbefore⟩ := ensureWallet_ok hensure
  have hdelta : e.delta db = e.order.amount - w.balance := by rw [Event.delta, hop, hbefore]
  dsimp only at hok
  split at hok
  · cases hok
    exact .inl hkept
  · rw [← hdelta] at hok
    exact .inr (written_of_delta hkept rfl (by simp [hop]) hok)

theorem run_settles (e : Event) (db : DB) : Settles db e (e.run db) := by
  rw [Event.run]
  cases hop : e.operation with
  | creditTreasury =>
    apply settles_leg (by rw [Event.delta, hop])
    · intro hpos
      rw [if_neg (Int64.not_lt.mpr (Int64.le_of_lt hpos))]
    · simp [hop]
  | debitTreasury =>
    apply settles_leg (by rw [Event.delta, hop])
    · intro hpos
      rw [if_pos (neg_of_pos hpos)]
    · simp [hop]
  | debitCostOfGoods =>
    apply settles_leg (by rw [Event.delta, hop])
    · intro hpos
      rw [if_pos (neg_of_pos hpos)]
    · simp [hop]
  | setTreasury => exact settles_set hop

theorem settled_step (e : Event) (db : DB) :
    Kept db (step db e) ∨ ∃ row, Written db e (step db e) row := by
  rcases run_settles e db with ⟨hdb, -⟩ | ⟨-, hwritten⟩
  · rw [step, hdb]
    exact .inl (.refl db)
  · exact hwritten

theorem ledgerOf_append {row : WorkspaceTransaction} (h : db'.transactions = db.transactions ++ [row]) (t : Int) :
    ledgerOf db' t = ledgerOf db t ++ if row.tenantId = t then [row] else [] := by
  rw [ledgerOf, h, filter_append, ledgerOf]
  by_cases ht : row.tenantId = t <;> simp [ht]

theorem booked_step (h : Booked db) (e : Event) : Booked (step db e) := by
  intro t
  rcases settled_step e db with hkept | ⟨row, hwritten⟩
  · rw [hkept.balances, h t, ledgerSum, ledgerSum, ledgerOf, ledgerOf, hkept.ledger]
  · rw [hwritten.moved.balances, ledgerSum, ledgerOf_append hwritten.moved.ledger, hwritten.moved.tenant,
      foldl_append, ← ledgerSum, ← h t]
    by_cases ht : t = e.order.tenantId
    · simp [ht, hwritten.signed]
    · rw [if_neg ht, if_neg (Ne.symm ht)]
      rfl

theorem booked_run (h : Booked db) (events : List Event) : Booked (events.foldl step db) := by
  induction events generalizing db with
  | nil => exact h
  | cons e events ih => exact ih (booked_step h e)

theorem toInt_delta (hfits : Fits db e) : (e.delta db).toInt = e.exactDelta db := by
  obtain ⟨⟨hlow, hhigh⟩, -⟩ := hfits
  simp only [Event.delta, Event.exactDelta] at hlow hhigh ⊢
  cases hop : e.operation with
  | creditTreasury => rfl
  | debitTreasury =>
    simp only [hop] at hlow hhigh
    rw [Int64.toInt_neg, Int.bmod_eq_of_le (by omega) (by omega)]
  | debitCostOfGoods =>
    simp only [hop] at hlow hhigh
    rw [Int64.toInt_neg, Int.bmod_eq_of_le (by omega) (by omega)]
  | setTreasury =>
    simp only [hop] at hlow hhigh
    rw [Int64.toInt_sub, Int.bmod_eq_of_le (by omega) (by omega)]

theorem toInt_raised (hfits : Fits db e) :
    (getTreasuryBalance db e.order.tenantId + e.delta db).toInt =
      (getTreasuryBalance db e.order.tenantId).toInt + e.exactDelta db := by
  have hdelta := toInt_delta hfits
  obtain ⟨-, hlow, hhigh⟩ := hfits
  rw [Int64.toInt_add, hdelta, Int.bmod_eq_of_le (by omega) (by omega)]

theorem exact_step (h : BookedExactly db) (hfits : Fits db e) : BookedExactly (step db e) := by
  intro t
  rcases settled_step e db with hkept | ⟨row, hwritten⟩
  · rw [hkept.balances, h t, exactSum, exactSum, ledgerOf, ledgerOf, hkept.ledger]
  · rw [hwritten.moved.balances, exactSum, ledgerOf_append hwritten.moved.ledger, hwritten.moved.tenant,
      foldl_append, ← exactSum, ← h t]
    by_cases ht : t = e.order.tenantId
    · rw [ht, if_pos rfl, if_pos rfl, toInt_raised hfits, foldl_cons, foldl_nil, hwritten.signed,
        toInt_delta hfits]
    · rw [if_neg ht, if_neg (Ne.symm ht)]
      rfl

structure Calm (a : Attempt) : Prop where
  read : a.read = none
  create : a.create = none
  update : a.update = none
  overtaken : a.overtaken = false
  record : a.record = none
  commit : a.commit = none

structure Credited (db : DB) (e : Event) : Prop where
  succeeds : (e.run db).2 = .ok ()
  raised : (getTreasuryBalance (step db e) e.order.tenantId).toInt =
    (getTreasuryBalance db e.order.tenantId).toInt + e.order.amount.toInt
  chained : ∃ row, Moved e.order.tenantId e.order.amount row db (step db e) ∧ row.type = .credit ∧
    row.amount = e.order.amount

structure Lawful (db : DB) (e : Event) : Prop where
  credited : e.operation = .creditTreasury → globalTenantId < e.order.tenantId → 0 < e.order.amount →
    (getTreasuryBalance db e.order.tenantId).toInt + e.order.amount.toInt < 2 ^ 63 → Calm (e.attempts 0) →
    Credited db e
  refused : (e.run db).2 = .error .insufficientTreasury → e.operation = .debitTreasury
  sunk : ∀ t, getTreasuryBalance (step db e) t < getTreasuryBalance db t →
    getTreasuryBalance (step db e) t < 0 → e.operation = .debitCostOfGoods

def Lands (db : DB) (e : Event) : Prop :=
  e.operation = .creditTreasury → globalTenantId < e.order.tenantId → 0 < e.order.amount →
    Opens (e.attempts 0) db e.order.tenantId (e.attempts 0).read →
      0 ≤ getTreasuryBalance db e.order.tenantId + e.order.amount

theorem run_guarded {o : Order} (htenant : globalTenantId < o.tenantId)
    (hvalid : valid = true) : guarded db valid o act = act := by
  rw [guarded, if_neg (by omega), hvalid]
  rfl

theorem credit_run (hop : e.operation = .creditTreasury) (htenant : globalTenantId < e.order.tenantId)
    (hpos : 0 < e.order.amount) : e.run db = withRetry db e.attempts fun a db =>
      applyTreasuryDelta a db e.order.tenantId a.read e.order.amount .credit e.order.desc e.order.info 0 false := by
  simp only [Event.run, hop, creditTreasury]
  exact run_guarded htenant (decide_eq_true hpos)

theorem Calm.opens (h : Calm a) (db : DB) (t : Int) : Opens a db t a.read := ⟨h.read, fun _ => h.create⟩

theorem calm_delta {tenantId : Int}
    {counterparty : Int} (h : Calm a) (hsign : 0 ≤ getTreasuryBalance db tenantId + delta) :
    ∃ db', applyTreasuryDelta a db tenantId a.read delta txType desc info counterparty false = .ok db' := by
  obtain ⟨⟨mid, w⟩, hensure⟩ := ensureWallet_opens (h.opens db tenantId)
  obtain ⟨-, -, hbefore⟩ := ensureWallet_ok hensure
  simp only [applyTreasuryDelta, bind_ok, check_ok]
  refine ⟨_, _, hensure, (), ?_, (), fails_ok.mpr h.update, (), ?_, (), fails_ok.mpr h.record, rfl⟩
  · simpa [hbefore] using hsign
  · simp [h.overtaken]

theorem credited_of_lands (hlands : Lands db e) (hop : e.operation = .creditTreasury)
    (htenant : globalTenantId < e.order.tenantId) (hpos : 0 < e.order.amount)
    (hroom : (getTreasuryBalance db e.order.tenantId).toInt + e.order.amount.toInt < 2 ^ 63)
    (hcalm : Calm (e.attempts 0)) : Credited db e := by
  have hsign := hlands hop htenant hpos (hcalm.opens db _)
  have hdone : ∃ db', applyTreasuryDelta (e.attempts 0) db e.order.tenantId (e.attempts 0).read e.order.amount
      .credit e.order.desc e.order.info 0 false = .ok db' := calm_delta hcalm hsign
  obtain ⟨db', hok⟩ := hdone
  have hrun : e.run db = (db', .ok ()) := by
    rw [credit_run hop htenant hpos]
    exact withRetry_lands hok hcalm.commit
  have hstep : step db e = db' := by rw [step, hrun]
  have hdelta : e.delta db = e.order.amount := by rw [Event.delta, hop]
  have hexact : e.exactDelta db = e.order.amount.toInt := by rw [Event.exactDelta, hop]
  obtain ⟨hmoved, -⟩ := applyTreasuryDelta_ok hok
  have hfits : Fits db e := by
    have hlow := (getTreasuryBalance db e.order.tenantId).le_toInt
    have hlow' := e.order.amount.le_toInt
    have hhigh' := e.order.amount.toInt_lt
    rw [Int64.lt_iff_toInt_lt, Int64.toInt_zero] at hpos
    rw [Fits, hexact]
    exact ⟨⟨by omega, by omega⟩, by omega, hroom⟩
  refine ⟨by rw [hrun], ?_, _, by rw [hstep]; exact hmoved, rfl, ?_⟩
  · have hraised := toInt_raised hfits
    rw [hdelta, hexact] at hraised
    rw [hstep, hmoved.balances, if_pos rfl, hraised]
  · exact if_neg (Int64.not_lt.mpr (Int64.le_of_lt hpos))

theorem guarded_refused {o : Order}
    (h : (guarded db valid o act).2 = .error .insufficientTreasury) :
    globalTenantId < o.tenantId ∧ valid = true ∧ act.2 = .error .insufficientTreasury := by
  rcases guarded_cases with ⟨-, herror | herror⟩ | ⟨htenant, hvalid, hact⟩
  · rw [herror] at h
    cases h
  · rw [herror] at h
    cases h
  · rw [hact] at h
    exact ⟨htenant, hvalid, h⟩

theorem conflict_opens {read : Option String} {tenantId counterparty : Int}
    (h : applyTreasuryDelta a db tenantId read delta txType desc info counterparty allowNegative =
      .error .balanceConflict) : Opens a db tenantId read := by
  simp only [applyTreasuryDelta, bind_error] at h
  rcases h with hensure | ⟨r, hensure, -⟩
  · obtain ⟨⟨text, ht⟩, -⟩ := ensureWallet_error hensure
    cases ht
  · exact ensureWallet_iff.mp ⟨r, hensure⟩

theorem refused_credit (hop : e.operation = .creditTreasury)
    (h : (e.run db).2 = .error .insufficientTreasury) : ¬ Lands db e := by
  intro hlands
  simp only [Event.run, hop, creditTreasury] at h
  obtain ⟨htenant, hvalid, hretry⟩ := guarded_refused h
  have hpos := of_decide_eq_true hvalid
  have hopens : Opens (e.attempts 0) db e.order.tenantId (e.attempts 0).read := by
    rcases retrying_first hretry with hrefused | hconflict
    · exact (insufficient_iff.mp hrefused).1
    · exact conflict_opens hconflict
  obtain ⟨a, -, hrefused⟩ := retrying_refused hretry
  obtain ⟨-, -, hneg⟩ := insufficient_iff.mp hrefused
  exact absurd hneg (Int64.not_lt.mpr (hlands hop htenant hpos hopens))

theorem refused_set (hop : e.operation = .setTreasury) : (e.run db).2 ≠ .error .insufficientTreasury := by
  intro h
  simp only [Event.run, hop, setTreasury] at h
  obtain ⟨-, hvalid, hretry⟩ := guarded_refused h
  obtain ⟨a, -, hrefused⟩ := retrying_refused hretry
  rw [bind_error] at hrefused
  rcases hrefused with hensure | ⟨⟨mid, w⟩, hensure, hrefused⟩
  · obtain ⟨⟨text, ht⟩, -⟩ := ensureWallet_error hensure
    cases ht
  · obtain ⟨hkept, -, hbefore⟩ := ensureWallet_ok hensure
    dsimp only at hrefused
    split at hrefused
    · cases hrefused
    · obtain ⟨-, -, hneg⟩ := insufficient_iff.mp hrefused
      rw [hkept.balances, ← hbefore, Int64.add_comm, Int64.sub_add_cancel] at hneg
      exact absurd hneg (Int64.not_lt.mpr (of_decide_eq_true hvalid))

theorem refused_goods (hop : e.operation = .debitCostOfGoods) :
    (e.run db).2 ≠ .error .insufficientTreasury := by
  intro h
  simp only [Event.run, hop, debitCostOfGoods] at h
  obtain ⟨-, -, hretry⟩ := guarded_refused h
  obtain ⟨a, -, hrefused⟩ := retrying_refused hretry
  obtain ⟨-, hallow, -⟩ := insufficient_iff.mp hrefused
  cases hallow

theorem sunk_below (t : Int) (hlow : getTreasuryBalance (step db e) t < getTreasuryBalance db t)
    (hneg : getTreasuryBalance (step db e) t < 0) : e.operation = .debitCostOfGoods := by
  by_contra hop
  rcases settled_step e db with hkept | ⟨row, hwritten⟩
  · rw [hkept.balances] at hlow
    exact Int64.lt_irrefl hlow
  · rw [hwritten.moved.balances] at hlow hneg
    split at hlow
    case isTrue ht =>
      rw [if_pos ht, ht] at hneg
      exact absurd hneg (Int64.not_lt.mpr (hwritten.afloat hop))
    case isFalse => exact Int64.lt_irrefl hlow

theorem lawful_iff : Lawful db e ↔ Lands db e := by
  constructor
  · intro hlawful hop htenant hpos hopens
    by_contra hneg
    have hrefused : applyTreasuryDelta (e.attempts 0) db e.order.tenantId (e.attempts 0).read e.order.amount
        .credit e.order.desc e.order.info 0 false = .error .insufficientTreasury :=
      insufficient_iff.mpr ⟨hopens, rfl, Int64.not_le.mp hneg⟩
    have hrun : (e.run db).2 = .error .insufficientTreasury := by
      rw [credit_run hop htenant hpos, withRetry_first hrefused (by decide)]
    have hdebit := hlawful.refused hrun
    rw [hop] at hdebit
    cases hdebit
  · intro hlands
    refine ⟨credited_of_lands hlands, ?_, sunk_below⟩
    intro hrefused
    cases hop : e.operation with
    | creditTreasury => exact absurd hlands (refused_credit hop hrefused)
    | debitTreasury => rfl
    | debitCostOfGoods => exact absurd hrefused (refused_goods hop)
    | setTreasury => exact absurd hrefused (refused_set hop)

end steps

theorem booked_empty : Booked empty := fun _ => rfl

theorem exact_empty : BookedExactly empty := fun _ => rfl

theorem treasury_sound_iff (events : List Event) :
    (∀ n, Booked ((events.take n).foldl step empty)) ∧
      (Throughout step Fits empty events → ∀ n, BookedExactly ((events.take n).foldl step empty)) ∧
      (Throughout step Lawful empty events ↔ Throughout step Lands empty events) := by
  refine ⟨?_, ?_, ?_⟩
  · intro n
    exact booked_run booked_empty _
  · intro hfits n
    exact (hfits.take n).foldl exact_empty fun db e hexact hfit => exact_step hexact hfit
  · exact Throughout.iff_of_keep booked_empty (fun db e hbooked => booked_step hbooked e)
      fun db e _ => lawful_iff

def calm : Attempt := ⟨none, none, none, none, false, none, none⟩

def soldAtLoss : List Event :=
  [⟨.debitCostOfGoods, ⟨1, 10, "sale", ⟨"cogs", "", ""⟩⟩, fun _ => calm⟩]

def topUp : Event := ⟨.creditTreasury, ⟨1, 5, "top-up", ⟨"topup", "", ""⟩⟩, fun _ => calm⟩

theorem top_up_bounced :
    getTreasuryBalance (soldAtLoss.foldl step empty) 1 = -10 ∧
      (topUp.run (soldAtLoss.foldl step empty)).2 = .error .insufficientTreasury ∧
      ¬ Throughout step Lawful empty (soldAtLoss ++ [topUp]) := by
  refine ⟨by decide, by decide, ?_⟩
  intro h
  have hrefused : (topUp.run (soldAtLoss.foldl step empty)).2 = .error .insufficientTreasury := by decide
  have hdebit := h.last.refused hrefused
  cases hdebit

end Treasury

end QuiPanel
