import QuiPanel.Capture

namespace QuiPanel

open ReadCommitted Ledger Settlement Gateway Capture

namespace Invoice

def due (amount : Int64) : ℚ := amount.toInt * (99 / 100)

def Quotes (tr : Trace) (cur : String) (rate : Int) : Prop :=
  ∃ rest, tr.filterMap setting =
    .config true :: .signed true :: .currency cur :: .rate rate :: rest

section prices

open PaymentController PlisioWebhookController

variable {amount : Int64} {rate rate' : Int}

theorem underpaid_iff {q : ℚ} : underpaid (.value q) rate amount = false ↔ due amount ≤ q * rate := by
  simp [underpaid, due]

theorem rateOf_pos (raw : Option Int) : 0 < rateOf raw := by
  cases raw with
  | none => decide
  | some rate =>
    simp only [rateOf]
    split <;> omega

theorem due_pos (h : 0 < amount) : 0 < due amount := by
  have hpos : (0 : Int) < amount.toInt := Int64.lt_iff_toInt_lt.mp h
  have hcast : (0 : ℚ) < amount.toInt := by exact_mod_cast hpos
  exact mul_pos hcast (by norm_num)

theorem fair_iff (h : 0 < amount) (hr : 0 < rate) :
    (∀ q, underpaid (.value q) rate amount = false → due amount ≤ q * rate') ↔ rate ≤ rate' := by
  have hdue := due_pos h
  have hrate : (0 : ℚ) < rate := by exact_mod_cast hr
  constructor
  · intro hall
    have hedge : due amount / rate * rate = due amount := div_mul_cancel₀ _ hrate.ne'
    have hq := hall (due amount / rate) (underpaid_iff.mpr hedge.ge)
    have hle : (rate : ℚ) ≤ rate' := by
      rw [div_mul_eq_mul_div, le_div_iff₀ hrate] at hq
      exact le_of_mul_le_mul_left hq hdue
    exact_mod_cast hle
  · intro hle q hq
    have hpaid := underpaid_iff.mp hq
    have hqpos : 0 < q := by
      by_contra hneg
      have hnonpos : q * rate ≤ 0 := mul_nonpos_of_nonpos_of_nonneg (not_lt.mp hneg) hrate.le
      linarith
    have hcast : (rate : ℚ) ≤ rate' := by exact_mod_cast hle
    exact hpaid.trans (mul_le_mul_of_nonneg_left hcast hqpos.le)

end prices

variable {tr : Trace}

theorem accepted_iff {form : PlisioForm} {amount : Int64} :
    accepted form amount tr = true ↔ form.status = "completed" ∧ ∃ cur rate, Quotes tr cur rate ∧
      PlisioWebhookController.currencyMismatch form.sourceCurrency cur = false ∧
      PlisioWebhookController.underpaid form.sourceAmount rate amount = false := by
  unfold accepted Quotes
  split
  case h_1 cur rate rest hset =>
    simp only [hset, Bool.and_eq_true, beq_iff_eq, Bool.not_eq_true', and_assoc]
    constructor
    · rintro ⟨hstatus, h⟩
      exact ⟨hstatus, cur, rate, ⟨rest, rfl⟩, h⟩
    · rintro ⟨hstatus, cur', rate', ⟨rest', hsame⟩, h⟩
      simp only [List.cons.injEq, Setting.currency.injEq, Setting.rate.injEq, true_and] at hsame
      obtain ⟨rfl, rfl, -⟩ := hsame
      exact ⟨hstatus, h⟩
  case h_2 hno =>
    constructor
    · intro h
      cases h
    · rintro ⟨-, cur, rate, ⟨rest, hset⟩, -⟩
      exact absurd hset (hno _ _ _)

theorem quotes_unique {cur cur' : String} {rate rate' : Int} (h : Quotes tr cur rate)
    (h' : Quotes tr cur' rate') : cur = cur' ∧ rate = rate' := by
  obtain ⟨rest, hset⟩ := h
  obtain ⟨rest', hset'⟩ := h'
  rw [hset] at hset'
  simp only [List.cons.injEq, Setting.currency.injEq, Setting.rate.injEq, true_and] at hset'
  exact ⟨hset'.1, hset'.2.1⟩

theorem quotes_pos {cur : String} {rate : Int} (h : Quotes tr cur rate) : 0 < rate := by
  obtain ⟨rest, hset⟩ := h
  have hmem : Setting.rate rate ∈ tr.filterMap setting := by simp [hset]
  obtain ⟨ev, -, hev⟩ := List.mem_filterMap.mp hmem
  unfold setting at hev
  split at hev <;> cases hev
  exact rateOf_pos _

def issue (user : User) (amount : Int64) (a : String) (raw : Option String) (rawRate : Option Int)
    (row : Payment) : Trace :=
  [.ask .plisioSourceCurrency raw, .ask .cryptoExchangeRate rawRate, .ask .uuid a,
    .commit (.one (S := panel) (.payment a) none row),
    .ask (.createInvoice user.tenantId a (currencyOf raw)
      (PaymentController.twoDecimals (PaymentController.fiatAmount amount (rateOf rawRate)))) true]

def Issues : Request → Trace → Except Err Reply → Prop
  | .plisioRequest (some user) amount, tr, r => r = .ok (.http .success) →
      ∃ raw rawRate a row, tr = issue user amount a raw rawRate row ∧ 0 < amount ∧
        row.bill = (user.id, amount, .plisio)
  | _, _, _ => True

section specs

variable {s t : Store panel}

def Creates (a : String) (bill : Int × Int64 × QuiPanel.Gateway) (tr : Trace) : Prop :=
  ∃ row : Payment, tr = [.commit (.one (S := panel) (.payment a) none row)] ∧ row.bill = bill

theorem createPending_creates (userId tenantId : Int) (gateway : QuiPanel.Gateway)
    (a currency : String) (amount : Int64) :
    Ends s t (PaymentService.createPending userId tenantId gateway a currency amount) fun tr r =>
      ∀ p, r = .ok p → Creates a (userId, amount, gateway) tr := by
  refine Call.outside_bind (P := fun tr r => ∀ n, r = .ok n → Creates a (userId, amount, gateway) tr)
    (Call.outside_create ?_ (by simp)) ?_ (by simp)
  · exact fun _ _ => ⟨trivial, fun _ _ _ => ⟨_, rfl, rfl⟩⟩
  · intro tr n h
    exact Call.outside_pure fun _ _ => by simpa using h n rfl

theorem plisioRequest_issues (user : User) (amount : Int64) :
    Ends s t (PaymentController.plisioRequest (some user) amount) fun tr r => r = .ok .success →
      ∃ raw rawRate a row, tr = issue user amount a raw rawRate row ∧ 0 < amount ∧
        row.bill = (user.id, amount, .plisio) := by
  unfold PaymentController.plisioRequest
  simp only
  split
  · exact Call.outside_pure (by simp)
  case isFalse hpos =>
  refine Call.outside_bind asks_sourceCurrency ?_ (by simp)
  rintro _ cur ⟨raw, rfl, ⟨⟩⟩
  refine Call.outside_bind asks_exchangeRate ?_ (by simp)
  rintro _ rate ⟨rawRate, rfl, ⟨⟩⟩
  refine Call.outside_bind (asks .uuid) ?_ (by simp)
  rintro _ a ⟨_, rfl, ⟨⟩⟩
  refine Call.outside_bind (Call.outside_attempt (createPending_creates user.id user.tenantId .plisio
    a (currencyOf raw) amount)) ?_ (by simp)
  rintro tr created ⟨_, ⟨⟩, hcreated⟩
  cases created with
  | error e => exact Call.outside_pure (by simp)
  | ok p =>
    obtain ⟨row, rfl, hbill⟩ := hcreated p rfl
    refine Call.outside_bind (asks _) ?_ (by simp)
    rintro _ opened ⟨_, rfl, ⟨⟩⟩
    cases opened with
    | true =>
      refine Call.outside_pure fun _ => ?_
      exact ⟨raw, rawRate, a, row, by simp [issue], Int64.not_le.mp hpos, hbill⟩
    | false =>
      exact Call.outside_bind calm_markFailed (fun _ _ _ => Call.outside_pure (by simp)) (by simp)

theorem request_issues (req : Request) : Ends s t req.run (Issues req) := by
  cases req with
  | plisioRequest user amount =>
    cases user with
    | none => exact (anything _ (billed_steady s t) _).mono fun _ _ _ => trivial
    | some user =>
      refine Call.outside_map ((plisioRequest_issues user amount).mono ?_)
      intro tr r h hr
      cases r with
      | error e => cases hr
      | ok reply =>
        obtain rfl := Reply.http.inj (Except.ok.inj hr)
        exact h rfl
  | _ => exact (anything _ (billed_steady s t) _).mono fun _ _ _ => trivial

end specs

section runs

variable {ι : Type} [DecidableEq ι] {s : Store panel} {req : ι → Request} {w : Panel ι} {o : ι}
variable {user : User} {amount : Int64} {a : String}

theorem issued (hs : Sane s) (hpriced : ∀ k, Priced k (s.row k))
    (hr : World.Reachable (Panel.boot s req) w) (ho : req o = .plisioRequest (some user) amount)
    (hopened : (w.th o).prog = .ret (.ok (.http .success))) :
    ∃ raw rawRate a row, w.events o = issue user amount a raw rawRate row ∧ 0 < amount ∧
      row.bill = (user.id, amount, .plisio) := by
  have hmeets := terms_meets (billed_steady s w.store) (billed_rows hs hpriced hr)
    fun i => request_issues (req i)
  have hsound := World.sound_reachable hmeets hr (billed_admitted hs hr)
  have hpost : Issues (req o) (w.th o).frame.past (.ok (.http .success)) := hsound.post hopened
  rw [hsound.past o, ho] at hpost
  exact hpost rfl

theorem created_fresh (hr : World.Reachable (Panel.boot s req) w) {row : Payment}
    (hp : (o, .commit (.one (S := panel) (.payment a) none row)) ∈ w.hist) :
    s.row (.payment a) = none := by
  obtain ⟨pre, rest, hw⟩ := List.append_of_mem hp
  have hnone := World.commit_agrees hr hw (.payment a) none row (Pending.one_held (S := panel) ..)
  cases hrow : s.row (.payment a) with
  | none => rfl
  | some v =>
    have hall : w.hist = [] ++ pre ++ (o, .commit (.one (S := panel) (.payment a) none row)) :: rest := hw
    obtain ⟨u, hu, -⟩ := World.row_keeps (P := fun _ : Payment => True)
      (fun _ _ _ _ _ _ _ => trivial) hr hall hrow trivial
    rw [List.nil_append, hnone] at hu
    cases hu

theorem invoice_row (hs : Sane s) (hpriced : ∀ k, Priced k (s.row k))
    (hr : World.Reachable (Panel.boot s req) w) (ho : req o = .plisioRequest (some user) amount)
    (hopened : (w.th o).prog = .ret (.ok (.http .success))) {tenant : Int} {cur : String} {price : ℚ}
    (hinvoice : .ask (.createInvoice tenant a cur price) true ∈ w.events o) {raw : Option Int}
    (hrate : .ask .cryptoExchangeRate raw ∈ w.events o) :
    price = PaymentController.twoDecimals (PaymentController.fiatAmount amount (rateOf raw)) ∧
      0 < amount ∧ s.row (.payment a) = none ∧
      ∃ q : Payment, w.store.row (.payment a) = some q ∧ q.amount = amount := by
  obtain ⟨rawCur, rawRate, b, row, htr, hpos, hbill⟩ := issued hs hpriced hr ho hopened
  rw [htr] at hinvoice hrate
  obtain ⟨-, rfl, -, rfl⟩ : tenant = user.tenantId ∧ a = b ∧ cur = currencyOf rawCur ∧ price =
      PaymentController.twoDecimals (PaymentController.fiatAmount amount (rateOf rawRate)) := by
    simpa [issue] using hinvoice
  obtain rfl : raw = rawRate := by simpa [issue] using hrate
  have hcommit : (o, .commit (.one (S := panel) (.payment a) none row)) ∈ w.hist :=
    World.mem_events.mp (by simp [htr, issue])
  obtain ⟨q, hq, hqb⟩ := (bill_stable hs.users hr a).2 o _ none row hcommit
    (Pending.one_held (S := panel) ..)
  have hamount : q.amount = amount := congrArg (·.2.1) (hqb.trans hbill)
  exact ⟨rfl, hpos, created_fresh hr hcommit, q, hq, hamount⟩

theorem flips_idle (hs : Sane s) (hpriced : ∀ k, Priced k (s.row k))
    (hr : World.Reachable (Panel.boot s req) w) {i : ι} {form : PlisioForm}
    (hi : req i = .plisioCallback form) (hret : (w.th i).prog.outcome.isSome)
    (hflips : ∃ ev ∈ w.events i, flips form.orderNumber ev = true) :
    Attempt form.orderNumber (w.events i) ∧ ∀ q ∈ w.store.row (.payment form.orderNumber),
      accepted form (q : Payment).amount (w.events i) = true := by
  obtain ⟨r, hret⟩ := Option.isSome_iff_exists.mp hret
  have hend := concluded hs hpriced hr (Prog.ret_of_outcome hret)
  rw [hi] at hend
  rcases hend with h | ⟨hcalm, -⟩
  · exact h
  · obtain ⟨ev, hev, hf⟩ := hflips
    rw [hcalm.unflipped ev hev] at hf
    cases hf

theorem accepted_attempts (hs : Sane s) (hpriced : ∀ k, Priced k (s.row k))
    (hr : World.Reachable (Panel.boot s req) w) {i : ι} {form : PlisioForm}
    (hi : req i = .plisioCallback form) (hret : (w.th i).prog.outcome.isSome) {q : Payment}
    (hq : w.store.row (.payment form.orderNumber) = some q)
    (hacc : accepted form q.amount (w.events i) = true)
    (hclear : ∀ ev ∈ opening (w.events i), broken ev = false) :
    Attempt form.orderNumber (w.events i) := by
  obtain ⟨r, hret⟩ := Option.isSome_iff_exists.mp hret
  have hend := concluded hs hpriced hr (Prog.ret_of_outcome hret)
  rw [hi] at hend
  rcases hend with ⟨h, -⟩ | ⟨-, hno⟩
  · exact h
  · obtain ⟨ev, hev, hb⟩ := hno q hq hacc
    rw [hclear ev hev] at hb
    cases hb

theorem paid_flips (hs : Sane s) (hr : World.Reachable (Panel.boot s req) w)
    (hopen : ∀ p : Payment, s.row (.payment a) = some p → p.status ≠ .paid) {q : Payment}
    (hq : w.store.row (.payment a) = some q) :
    q.status = .paid ↔ ∃ j, ∃ ev ∈ w.events j, flips a ev = true := by
  have htracked : Tracked req a w := tracked_reachable hs.users hopen hr
  rcases htracked with ⟨j, p, hp, hby⟩ | ⟨hunpaid, hfree⟩
  · obtain rfl := Option.mem_unique hp hq
    obtain ⟨pre, old, rest, htr, -⟩ := flipped_events hby
    exact iff_of_true hby.paid ⟨j, paying a old p, by simp [htr], flips_paying hby.paid⟩
  · refine iff_of_false (hunpaid q hq) ?_
    rintro ⟨j, ev, hev, hf⟩
    rw [hfree (j, ev) (World.mem_events.mp hev)] at hf
    cases hf

end runs

theorem invoice_paid_iff {ι : Type} [DecidableEq ι] {s : Store panel} {req : ι → Request}
    (hs : Sane s) (hpriced : ∀ k, Priced k (s.row k)) {w : Panel ι}
    (hr : World.Reachable (Panel.boot s req) w) {a : String} (hrest : Resting req a w) {o : ι}
    {user : User} {amount : Int64} (ho : req o = .plisioRequest (some user) amount)
    (hopened : (w.th o).prog = .ret (.ok (.http .success))) {tenant : Int} {cur : String} {price : ℚ}
    (hinvoice : .ask (.createInvoice tenant a cur price) true ∈ w.events o) {raw : Option Int}
    (hrate : .ask .cryptoExchangeRate raw ∈ w.events o) :
    price = PaymentController.twoDecimals (PaymentController.fiatAmount amount (rateOf raw)) ∧
    (∀ i form, req i = .plisioCallback form → (w.th i).prog.outcome.isSome → form.orderNumber = a →
      form.status = "completed" → form.sourceCurrency = cur → form.sourceAmount = .value price →
      ((∃ p : Payment, w.store.row (.payment a) = some p ∧ p.status = .paid ∧
          Credited p (callbackLog req a w)) ↔
        ((∃ j, j ≠ i ∧ ∃ ev ∈ w.events j, flips a ev = true) ∨
          (Unfailed s w.hist a ∧ (∀ ev ∈ opening (w.events i), broken ev = false) ∧
            ∃ cur' rate', Quotes (w.events i) cur' rate' ∧
              PlisioWebhookController.currencyMismatch cur cur' = false ∧ due amount ≤ price * rate')) ∧
        ∀ j pre old (p : Payment) rest, w.events j = pre ++ paying a old p :: rest →
          p.status = .paid → Payable p rest)) ∧
    (∀ j form q cur' rate', req j = .plisioCallback form → form.orderNumber = a →
      form.sourceAmount = .value q → (∃ ev ∈ w.events j, flips a ev = true) →
      Quotes (w.events j) cur' rate' → rate' ≤ rateOf raw → due amount ≤ q * rateOf raw) ∧
    ∀ rate', 0 < rate' → ((∀ q, PlisioWebhookController.underpaid (.value q) rate' amount = false →
      due amount ≤ q * rateOf raw) ↔ rate' ≤ rateOf raw) := by
  obtain ⟨hprice, hpos, hnone, q, hq, hamount⟩ := invoice_row hs hpriced hr ho hopened hinvoice hrate
  have hopen : ∀ p : Payment, s.row (.payment a) = some p → p.status ≠ .paid := by simp [hnone]
  have hflipped := paid_flips hs hr hopen hq
  refine ⟨hprice, ?_, ?_, fun rate' hpos' => fair_iff hpos hpos'⟩
  · rintro i form hi hret rfl hstatus hcur hpaid
    have haccepted : accepted form amount (w.events i) = true ↔ _ := accepted_iff
    simp only [hstatus, hcur, hpaid, underpaid_iff, true_and] at haccepted
    rw [← settled_iff hs hpriced hopen hr hrest]
    constructor
    · rintro ⟨p, hp, hst, hcredited⟩
      obtain rfl := Option.mem_unique hq hp
      refine ⟨?_, ?_⟩
      · obtain ⟨j, hj⟩ := hflipped.mp hst
        by_cases hji : j = i
        · subst hji
          obtain ⟨hattempt, hacc⟩ := flips_idle hs hpriced hr hi hret hj
          refine .inr ⟨?_, attempt_unbroken hattempt, haccepted.mp (hamount ▸ hacc q hq)⟩
          rw [unfailed_iff hs.users hr]
          intro p hp
          obtain rfl := Option.mem_unique hq hp
          simp [hst]
        · exact .inl ⟨j, hji, hj⟩
      · intro p hp
        obtain rfl := Option.mem_unique hq hp
        exact iff_of_true hst hcredited
    · rintro ⟨hcause, hsettled⟩
      have hst : q.status = .paid := by
        rcases hcause with ⟨j, -, hj⟩ | ⟨hunfailed, hclear, hquoted⟩
        · exact hflipped.mpr ⟨j, hj⟩
        · have hacc := haccepted.mpr hquoted
          rw [← hamount] at hacc
          have hattempt := accepted_attempts hs hpriced hr hi hret hq hacc hclear
          obtain ⟨p, hp, hpend⟩ := attempt_decides hs.users hr hattempt
          obtain rfl := Option.mem_unique hq hp
          have hf := (unfailed_iff hs.users hr).mp hunfailed q hq
          cases hst : q.status with
          | pending => exact absurd hst hpend
          | paid => rfl
          | failed => exact absurd hst hf
      exact ⟨q, hq, hst, (hsettled q hq).mp hst⟩
  · rintro j form paid cur' rate' hj rfl hpaid hflips hquotes hle
    have hret : (w.th j).prog.outcome.isSome := by
      have hset : (req j).settles form.orderNumber := by
        rw [hj]
        rfl
      rcases hrest j hset with hnil | h
      · simp [hnil] at hflips
      · exact h
    obtain ⟨-, hacc⟩ := flips_idle hs hpriced hr hj hret hflips
    obtain ⟨-, cur, rate, hread, -, hfull⟩ := accepted_iff.mp (hacc q hq)
    obtain ⟨-, rfl⟩ := quotes_unique hquotes hread
    rw [hpaid, hamount] at hfull
    exact (fair_iff hpos (quotes_pos hquotes)).mpr hle paid hfull

def signs : Event panel → Bool
  | .ask (.verifyCallback _ _) valid => valid
  | _ => false

def invoices : Event panel → Option (Int × String × String × ℚ)
  | .ask (.createInvoice tenant a cur price) true => some (tenant, a, cur, price)
  | _ => none

def priced : Event panel → Option (Option Int)
  | .ask .cryptoExchangeRate raw => some raw
  | _ => none

theorem invoices_mem {b : Int × String × String × ℚ} (h : tr.filterMap invoices = [b]) :
    .ask (.createInvoice b.1 b.2.1 b.2.2.1 b.2.2.2) true ∈ tr := by
  have hmem : b ∈ tr.filterMap invoices := by simp [h]
  obtain ⟨ev, hev, hb⟩ := List.mem_filterMap.mp hmem
  unfold invoices at hb
  split at hb
  · obtain rfl := Option.some.inj hb
    exact hev
  · cases hb

theorem priced_mem {raw : Option Int} (h : tr.filterMap priced = [raw]) :
    .ask .cryptoExchangeRate raw ∈ tr := by
  have hmem : raw ∈ tr.filterMap priced := by simp [h]
  obtain ⟨ev, hev, hb⟩ := List.mem_filterMap.mp hmem
  unfold priced at hb
  split at hb
  · obtain rfl := Option.some.inj hb
    exact hev
  · cases hb

def shop : Store panel where
  row k := match k with
    | .user id => if id = 1 then some ⟨1, "buyer", .member, 0, 0, 0⟩ else none
    | .tenant _ | .product _ | .order _ | .payment _ | .deposit _ => none
  log := []

theorem shop_sane : Sane shop where
  users id u h := by
    simp only [shop] at h
    split at h
    · obtain rfl := Option.some.inj h
      decide
    · cases h
  deposits id d h := by simp [shop] at h

theorem shop_priced (k : Key) : Priced k (shop.row k) := by
  cases k with
  | payment a =>
    rintro p ⟨⟩
  | _ => trivial

def atRate (rate : Int) : (q : Query) → q.Answer
  | .cryptoExchangeRate => some rate
  | .uuid => "P1"
  | .createInvoice .. => true
  | .plisioConfig _ => ⟨true, "key"⟩
  | .verifyCallback .. => true
  | q => refusing q

def payInFull (amount : Int64) (price : ℚ) : Bool → Request
  | false => .plisioRequest (some ⟨1, "buyer", .member, 0, 0, 0⟩) amount
  | true => .plisioCallback ⟨"P1", "T1", "completed", "USD", .value price, "BTC", "sig"⟩

def openInvoice (rate : Int) : List (Bool × Choice panel) :=
  List.replicate 3 (false, .answer (atRate rate)) ++ [(false, .fresh 0), (false, .answer (atRate rate))]

def confirmInvoice (rate : Int) : List (Bool × Choice panel) :=
  (true, .go) :: List.replicate 4 (true, .answer (atRate rate))

theorem invoice_paid_iff_covered : ∃ w,
    World.Reachable (Panel.boot shop (payInFull 120000 2)) w ∧
    2 = PaymentController.twoDecimals (PaymentController.fiatAmount 120000 60000) ∧
    ((∃ j, j ≠ true ∧ ∃ ev ∈ w.events j, flips "P1" ev = true) ∨
      (Unfailed shop w.hist "P1" ∧ (∀ ev ∈ opening (w.events true), broken ev = false) ∧
        ∃ cur' rate', Quotes (w.events true) cur' rate' ∧
          PlisioWebhookController.currencyMismatch "USD" cur' = false ∧ due 120000 ≤ 2 * rate')) ∧
    ∀ j pre old (p : Payment) rest, w.events j = pre ++ paying "P1" old p :: rest →
      p.status = .paid → Payable p rest := by
  have hrun : ((Panel.boot shop (payInFull 120000 2)).exec (openInvoice 60000 ++
      confirmInvoice 60000 ++ [(true, .answer (atRate 60000))] ++ List.replicate 7 (true, .go))).map
      (fun w => ((w.store.row (.payment "P1")).map fun p : Payment =>
          p.status == .paid && p.userId == 1 && p.amount == 120000 && p.bonusAmount == 0,
        (w.th false).prog.outcome, (w.th true).prog.outcome.isSome,
        (callbackLog (payInFull 120000 2) "P1" w).map (fun e =>
          e.userId == 1 && e.amount == 120000 && e.type == .credit) == [true],
        (w.events false).filterMap invoices == [(0, "P1", "USD", 2)] &&
          (w.events false).filterMap priced == [some 60000])) =
      some (some true, some (.ok (.http .success)), true, true, true) := by
    decide +kernel
  obtain ⟨w, hr, he⟩ := World.exec_reaches hrun
  obtain ⟨⟨p, hp, ⟨⟨hpaid, huser⟩, hamount⟩, hbonus⟩, hopened, hret, ⟨e, hone, ⟨hu, ha⟩, ht⟩,
    hinvoice, hrate⟩ : (∃ _, _) ∧ _ ∧ _ ∧ (∃ _, _) ∧ _ ∧ _ := by simpa using he
  have hrest : Resting (payInFull 120000 2) "P1" w := by
    rintro (_ | _) hset
    · exact hset.elim
    · exact .inr hret
  have hcredited : Credited p (callbackLog (payInFull 120000 2) "P1" w) := by
    have hplain : ¬0 < p.bonusAmount := by
      rw [hbonus]
      decide
    simp only [Credited, hplain, if_false]
    exact ⟨e, hone, hu.trans huser.symm, ha.trans hamount.symm, ht⟩
  obtain ⟨hprice, hfull, -⟩ := invoice_paid_iff shop_sane shop_priced hr hrest rfl
    (Prog.ret_of_outcome hopened) (invoices_mem hinvoice) (priced_mem hrate)
  exact ⟨w, hr, hprice, (hfull true _ rfl hret rfl rfl rfl rfl).mp ⟨p, hp, hpaid, hcredited⟩⟩

theorem rounded_invoice_refused : ¬∀ (s : Store panel) (req : Bool → Request) (w : Panel Bool)
    (a : String), Sane s → (∀ k, Priced k (s.row k)) → World.Reachable (Panel.boot s req) w →
    Resting req a w → ∀ o user amount, req o = .plisioRequest (some user) amount →
    (w.th o).prog = .ret (.ok (.http .success)) → ∀ tenant cur price,
    .ask (.createInvoice tenant a cur price) true ∈ w.events o → ∀ i form,
    req i = .plisioCallback form → (w.th i).prog.outcome.isSome → form.orderNumber = a →
    form.status = "completed" → form.sourceCurrency = cur → form.sourceAmount = .value price →
    (∃ ev ∈ w.events i, signs ev = true) →
    ∃ p : Payment, w.store.row (.payment a) = some p ∧ p.status = .paid ∧
      Credited p (callbackLog req a w) := by
  intro h
  have hrun : ((Panel.boot shop (payInFull 800 (1 / 100))).exec
      (openInvoice 60000 ++ confirmInvoice 60000)).map (fun w =>
        ((w.store.row (.payment "P1")).map fun p : Payment => p.status,
          (w.th false).prog.outcome, (w.th true).prog.outcome.isSome, (w.events true).any signs,
          (w.events false).filterMap invoices == [(0, "P1", "USD", 1 / 100)])) =
      some (some .pending, some (.ok (.http .success)), true, true, true) := by
    decide +kernel
  obtain ⟨w, hr, he⟩ := World.exec_reaches hrun
  obtain ⟨⟨p, hp, hpend⟩, hopened, hret, hsigned, hinvoice⟩ : (∃ _, _) ∧ _ ∧ _ ∧ _ ∧ _ := by
    simpa using he
  have hrest : Resting (payInFull 800 (1 / 100)) "P1" w := by
    rintro (_ | _) hset
    · exact hset.elim
    · exact .inr hret
  have hsigned : ∃ ev ∈ w.events true, signs ev = true := by simpa using hsigned
  have hinvoice : (w.events false).filterMap invoices = [(0, "P1", "USD", 1 / 100)] := by
    simpa using hinvoice
  obtain ⟨q, hq, hpaid, -⟩ := h shop _ w "P1" shop_sane shop_priced hr hrest false _ 800 rfl
    (Prog.ret_of_outcome hopened) 0 "USD" (1 / 100) (invoices_mem hinvoice) true _ rfl hret rfl rfl rfl
    rfl hsigned
  obtain rfl := Option.mem_unique hp hq
  rw [hpend] at hpaid
  cases hpaid

end Invoice

end QuiPanel
