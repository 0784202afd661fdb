import QuiPanel.Ledger

namespace QuiPanel

open ReadCommitted Ledger List

namespace Settlement

def Priced : (k : Key) → Option k.Row → Prop
  | .payment _, v => ∀ p ∈ v, 0 < (p : Payment).amount ∧
      ((p : Payment).status = .pending → (p : Payment).bonusAmount = 0)
  | _, _ => True

def Billed (s t : Store panel) (k : Key) (v : Option k.Row) : Prop := Pinned s t k v ∧ Priced k v

def topUp (user : Int) (amount : Int64) : Leg := ⟨user, amount, .credit, "", ⟨.gateway, "", ""⟩⟩

structure Credit (user : Int) (amount : Int64) (e : Transaction) : Prop where
  user : e.userId = user
  amount : e.amount = amount
  credit : e.type = .credit

inductive Pays (user : Int) (amount : Int64) : Trace → Prop
  | credited {tr p e} (hq : Call.Quiet tr) (hc : Covered [topUp user amount] tr)
      (hlog : p.log = [e]) (he : Credit user amount e) (hfree : ∀ a, p.held (.payment a) = none) :
      Pays user amount (tr ++ [.commit p])
  | refused {tr} (hq : Call.Quiet tr) (hc : ¬Covered [topUp user amount] tr) : Pays user amount tr

inductive Credits (p : Payment) : Trace → Prop
  | plain {tr} (h : Pays p.userId p.amount tr) (hb : ¬0 < p.bonusAmount) : Credits p tr
  | bonus {tr tr'} (h : Pays p.userId p.amount tr) (hb : 0 < p.bonusAmount)
      (h' : Pays p.userId p.bonusAmount tr') : Credits p (tr ++ tr')

def touches (a : String) : Event panel → Bool
  | .commit p => (p.held (.payment a)).isSome
  | _ => false

def flips (a : String) : Event panel → Bool
  | .commit p => (p.held (.payment a)).any fun b => (b.2 : Payment).status == .paid
  | _ => false

structure Calm (a : String) (tr : Trace) : Prop where
  silent : log tr = []
  unflipped : ∀ ev ∈ tr, flips a ev = false

def broken : Event panel → Bool
  | .fault (.read (.payment _)) | .fault (.update (.payment _)) => true
  | .read (.payment _) none => true
  | _ => false

def reads : Event panel → Bool
  | .read k v => !broken (.read k v)
  | .fault (.read k) => !broken (.fault (.read k))
  | .ask _ _ => true
  | _ => false

def commits : Event panel → Bool
  | .commit _ => true
  | _ => false

def opening (tr : Trace) : Trace := tr.takeWhile fun ev => !commits ev

def Still (tr : Trace) : Prop := ∀ ev ∈ tr, reads ev = true

def paying (a : String) (old new : Payment) : Event panel :=
  .commit (.one (S := panel) (.payment a) (some old) new)

inductive Attempt (a : String) : Trace → Prop
  | missed {pre v} {p : Payment} (hpre : Still pre) (hread : .read (.payment a) (some p) ∈ pre)
      (hv : ∀ u, v = some u → (u : Payment).status ≠ .pending) :
      Attempt a (pre ++ [.miss (.payment a) v])
  | flipped {pre rest} {old new : Payment} (hpre : Still pre) (hnew : new.status = .paid)
      (hgate : 0 < new.bonusAmount → new.gateway = .plisio) (hrest : Credits new rest) :
      Attempt a (pre ++ paying a old new :: rest)

section traces

variable {a : String} {tr tr' : Trace} {ev : Event panel}

theorem still_nil : Still [] := by
  simp [Still]

theorem still_single (h : reads ev = true) : Still [ev] := by
  intro e he
  rw [mem_singleton.mp he]
  exact h

theorem Still.append (h : Still tr) (h' : Still tr') : Still (tr ++ tr') := by
  intro ev he
  rcases mem_append.mp he with he | he
  · exact h ev he
  · exact h' ev he

theorem Still.quiet (h : Still tr) : Call.Quiet tr := by
  intro p hp
  cases h _ hp

theorem Still.begin (h : Still tr) : .begin ∉ tr := by
  intro hb
  cases h _ hb

theorem Still.untouched (h : Still tr) : ∀ ev ∈ tr, touches a ev = false := by
  intro ev he
  cases ev with
  | commit p => exact absurd he (h.quiet p)
  | _ => rfl

theorem Still.unbroken (h : Still tr) : ∀ ev ∈ tr, broken ev = false := by
  intro ev he
  have hev := h ev he
  cases ev with
  | read k v => simpa [reads] using hev
  | ask q answer => rfl
  | fault st =>
    cases st with
    | read k => simpa [reads] using hev
    | _ => cases hev
  | _ => cases hev

theorem opening_append (h : Call.Quiet tr) : opening (tr ++ tr') = tr ++ opening tr' := by
  apply takeWhile_append_of_pos
  intro ev he
  cases ev with
  | commit p => exact absurd he (h p)
  | _ => rfl

theorem opening_quiet (h : Call.Quiet tr) : opening tr = tr := by
  have hnil : opening (tr ++ []) = tr ++ opening [] := opening_append h
  simpa [opening] using hnil

theorem opening_commit {p : Pending panel} (h : Call.Quiet tr) :
    opening (tr ++ .commit p :: tr') = tr := by
  have hrest : opening (.commit p :: tr') = [] := rfl
  rw [opening_append h, hrest, append_nil]

theorem flips_touches (h : flips a ev = true) : touches a ev = true := by
  cases ev with
  | commit p =>
    simp only [flips, touches] at h ⊢
    cases hh : p.held (.payment a) with
    | none => simp [hh] at h
    | some b => rfl
  | _ => cases h

theorem calm_of_untouched (hl : log tr = []) (h : ∀ ev ∈ tr, touches a ev = false) : Calm a tr := by
  refine ⟨hl, ?_⟩
  intro ev he
  by_contra hf
  have htouch := flips_touches (Bool.eq_true_of_not_eq_false hf)
  rw [h ev he] at htouch
  cases htouch

theorem Still.calm (h : Still tr) : Calm a tr := calm_of_untouched (log_quiet h.quiet) h.untouched

theorem Calm.append (h : Calm a tr) (h' : Calm a tr') : Calm a (tr ++ tr') := by
  refine ⟨by rw [log_append, h.silent, h'.silent]; rfl, ?_⟩
  intro ev he
  rcases mem_append.mp he with he | he
  · exact h.unflipped ev he
  · exact h'.unflipped ev he

theorem calm_single (hl : ev.entries = []) (h : flips a ev = false) : Calm a [ev] := by
  refine ⟨by simp [log, hl], ?_⟩
  intro e he
  rw [mem_singleton.mp he]
  exact h

end traces

section rows

variable {ι : Type} [DecidableEq ι] {s t : Store panel} {req : ι → Request} {w : Panel ι}

theorem billed_steady (s t : Store panel) : Steady (Billed s t) where
  funded := solvent_funded fun _ _ => and_iff_left trivial
  order id o o' h := ⟨(pinned_steady s t).order id o o' h.1, trivial⟩
  settled a p p' h hb hp := by
    refine ⟨(pinned_steady s t).settled a p p' h.1 hb hp, ?_⟩
    rintro _ ⟨⟩
    have hamount : p'.amount = p.amount := congrArg (·.2.1) hb
    exact ⟨hamount ▸ (h.2 p rfl).1, fun hpend => absurd hpend hp⟩
  reviewed id d d' h hc := ⟨(pinned_steady s t).reviewed id d d' h.1 hc, trivial⟩

theorem billed_bill {a : String} {p p' : Payment} (h : Billed s t (.payment a) (some p))
    (h' : Billed s t (.payment a) (some p')) : p.bill = p'.bill := by
  obtain ⟨q, hq, hb⟩ := h.1 p rfl
  obtain ⟨q', hq', hb'⟩ := h'.1 p' rfl
  rw [Option.mem_unique hq hq'] at hb
  exact hb.symm.trans hb'

theorem billed_admitted (hs : Sane s) (hr : World.Reachable (Panel.boot s req) w) :
    World.Admitted (Billed s w.store) w.hist := by
  rintro ⟨i, ev⟩ he
  have hpinned := pinned_admitted hs hr (i, ev) he
  cases ev with
  | commit p =>
    intro k new hh
    refine ⟨hpinned k new hh, ?_⟩
    cases k with
    | payment a =>
      obtain ⟨hmove, -⟩ := effect_payment (solvent_commits hs.users hr he) hh
      obtain ⟨-, hpos, hbonus⟩ := hmove
      rintro _ ⟨⟩
      exact ⟨hpos, fun _ => hbonus⟩
    | _ => trivial
  | _ => trivial

end rows

section specs

variable {s t : Store panel} {a : String}

abbrev Ends {α : Type} (s t : Store panel) (x : Service α) (Q : Trace → Except Err α → Prop) : Prop :=
  Call.Outside (S := panel) (Billed s t) (fun _ => True) x Q

theorem pays_credit {id : Int} {amount : Int64} {desc : String} {note : TxMeta} (h : 0 < amount) :
    Ends s t (Call.result (S := panel) (WalletService.creditWithMeta id amount desc note))
      fun tr r => (∃ r', r = .ok r') ∧ Pays id amount tr := by
  refine Call.Outside.mono (Call.outside_attempt (WalletService.outside_creditWithMeta
    (billed_steady s t).funded fun _ _ _ => trivial)) ?_
  rintro tr r ⟨r', rfl, hr⟩
  refine ⟨⟨r', rfl⟩, ?_⟩
  have hcover : ∀ tr : Trace, Covered [⟨id, amount, .credit, desc, note⟩] tr ↔
      Covered [topUp id amount] tr := by
    have hsame : [(⟨id, amount, .credit, desc, note⟩ : Leg)].map Leg.effect =
        [topUp id amount].map Leg.effect := rfl
    exact covered_congr hsame
  rw [if_neg (Int64.not_le.mpr h)] at hr
  cases r' with
  | error e => exact .refused hr.1 fun hc => hr.2 ((hcover tr).mpr hc)
  | ok _ =>
    obtain ⟨tr', p, rfl, hq, hc, hp⟩ := hr
    obtain ⟨u, hlog⟩ := posting_single hp
    have hnn : ¬amount < 0 := by
      rw [Int64.lt_iff_toInt_lt] at h ⊢
      omega
    refine .credited hq ((hcover tr').mp hc) hlog ⟨rfl, by simp [Leg.entry, hnn], rfl⟩ ?_
    intro a
    rw [posting_held hp (by simp)]
    rfl

def Reads (s t : Store panel) (a : String) (tr : Trace) : Except Err Payment → Prop
  | .ok p => tr = [.read (.payment a) (some p)] ∧ Billed s t (.payment a) (some p)
  | .error _ => ∃ ev, tr = [ev] ∧ broken ev = true

theorem reads_getByAuthority : Ends s t (PaymentService.getByAuthority a) (Reads s t a) := by
  refine Call.outside_bind (P := fun tr r => match r with
    | .ok v => tr = [.read (.payment a) v] ∧ Billed s t (.payment a) v
    | .error _ => tr = [.fault (.read (.payment a))])
    (Call.outside_read (fun v hv => ⟨rfl, hv⟩) rfl) ?_ (fun tr e h => ⟨_, h, rfl⟩)
  rintro tr v ⟨rfl, hv⟩
  cases v with
  | none => exact Call.outside_throw ⟨_, rfl, rfl⟩
  | some p => exact Call.outside_pure ⟨rfl, hv⟩

variable {p : Payment} {form : PlisioForm} {ev : Event panel}

theorem broken_quiet (h : broken ev = true) : Call.Quiet [ev] := by
  refine Call.quiet_single ?_
  rintro p rfl
  cases h

theorem broken_opening {pre : Trace} (hpre : Still pre) (h : broken ev = true) :
    ev ∈ opening (pre ++ [ev]) := by
  rw [opening_quiet (hpre.quiet.append (broken_quiet h))]
  exact mem_append_right _ (mem_singleton.mpr rfl)

theorem broken_calm (h : broken ev = true) : Calm a [ev] := by
  cases ev with
  | read k v => exact calm_single rfl rfl
  | fault s => exact calm_single rfl rfl
  | _ => cases h

def Marked (s t : Store panel) (a : String) (bonus : Int64) (tr : Trace) :
    Except Err (Bool × Payment) → Prop
  | .ok (true, p) => ∃ pre old new, tr = pre ++ [paying a old new] ∧ Still pre ∧ new.status = .paid ∧
      new.bonusAmount = bonus ∧ new.bill = p.bill ∧ Billed s t (.payment a) (some new)
  | .ok (false, _) => ∃ pre v p, tr = pre ++ [.miss (.payment a) v] ∧ Still pre ∧
      .read (.payment a) (some p) ∈ pre ∧ ∀ u, v = some u → (u : Payment).status ≠ .pending
  | .error _ => ∃ pre ev, tr = pre ++ [ev] ∧ Still pre ∧ broken ev = true

variable {bonus : Int64} {tr : Trace}

theorem marked_of {set f : Payment → Payment}
    (hset : ∀ v, Billed s t (.payment a) (some v) → v.status = .pending →
      (set v).bill = v.bill ∧ (set v).status = .paid ∧ (set v).bonusAmount = bonus)
    (hf : ∀ p, (f p).bill = p.bill) :
    Ends s t (do
      let p ← PaymentService.getByAuthority a
      let moved ← Service.update (.payment a) PaymentService.isPending set
      pure (moved, f p)) (Marked s t a bonus) := by
  refine Call.outside_bind reads_getByAuthority ?_ ?_
  · rintro _ p ⟨rfl, hp⟩
    have hstill : Still [.read (.payment a) (some p)] := still_single rfl
    refine Call.outside_bind (P := fun tr r => Marked s t a bonus ([.read (.payment a) (some p)] ++ tr)
      (r.map fun b => (b, f p))) (Call.outside_update ?_ ?_ ?_) ?_ ?_
    · intro v hv hg
      obtain ⟨hbill, hpaid, hbonus⟩ := hset v hv (isPending_iff.mp hg)
      have hnew := (billed_steady s t).settled a v _ hv hbill (by simp [hpaid])
      refine ⟨hnew, trivial, _, v, set v, rfl, hstill, hpaid, hbonus, ?_, hnew⟩
      exact hbill.trans ((billed_bill hv hp).trans (hf p).symm)
    · intro v _ hg
      refine ⟨_, v, p, rfl, hstill, mem_singleton.mpr rfl, ?_⟩
      intro u hu hpend
      have hno := hg u hu
      rw [isPending_iff.mpr hpend] at hno
      cases hno
    · exact ⟨_, _, rfl, hstill, rfl⟩
    · intro tr moved h
      exact Call.outside_pure (by rw [append_nil]; exact h)
    · intro tr e h
      exact h
  · intro tr e h
    obtain ⟨ev, rfl, hb⟩ := h
    exact ⟨[], ev, rfl, still_nil, hb⟩

theorem marked_markPaid (refId : String) :
    Ends s t (PaymentService.markPaid a refId) (Marked s t a 0) := by
  have hset : ∀ v, Billed s t (.payment a) (some v) → v.status = .pending →
      ({ v with status := .paid, refId := refId } : Payment).bill = v.bill ∧
        ({ v with status := .paid, refId := refId } : Payment).status = .paid ∧
        ({ v with status := .paid, refId := refId } : Payment).bonusAmount = 0 :=
    fun v hv hpend => ⟨rfl, rfl, (hv.2 v rfl).2 hpend⟩
  exact marked_of hset fun _ => rfl

theorem marked_markPaidWithBonus (refId coin : String) (bonus : Int64) :
    Ends s t (PaymentService.markPaidWithBonus a refId coin bonus) (Marked s t a bonus) := by
  refine marked_of ?_ fun p => (withCoin_fields coin _).1
  intro v _ _
  obtain ⟨hbill, hpaid, hbonus⟩ := withCoin_fields coin
    { v with status := .paid, refId := refId, bonusAmount := bonus }
  exact ⟨hbill, hpaid, hbonus⟩

theorem calm_markFailed :
    Ends s t (Call.result (S := panel) (PaymentService.markFailed a)) fun tr _ => Calm a tr := by
  refine Call.outside_result ?_
  refine Call.outside_bind (P := fun tr _ => Calm a tr) (Call.outside_update ?_ ?_ ?_) ?_
    (fun _ _ h => h)
  · intro v hv hg
    refine ⟨(billed_steady s t).settled a v _ hv rfl (by simp), trivial, ?_⟩
    exact calm_single rfl (by simp [flips])
  · exact fun _ _ _ => calm_single rfl rfl
  · exact calm_single rfl rfl
  · intro tr _ h
    exact Call.outside_pure (by simpa using h)

def confirms : Event panel → Bool
  | .ask (.verifyPayment _ _ _) reply => (PaymentController.verified reply).isSome
  | _ => false

def Confirmed (tr : Trace) : Prop := ∃ ev ∈ tr, confirms ev = true

theorem attempt_unbroken (h : Attempt a tr) : ∀ ev ∈ opening tr, broken ev = false := by
  cases h with
  | @missed pre v p hpre _ _ =>
    have hmiss : Call.Quiet (pre ++ [.miss (S := panel) (.payment a) v]) :=
      hpre.quiet.append (Call.quiet_single (by simp))
    rw [opening_quiet hmiss]
    intro ev he
    rcases mem_append.mp he with he | he
    · exact hpre.unbroken ev he
    · rw [mem_singleton.mp he]
      rfl
  | flipped hpre _ _ _ =>
    unfold paying
    rw [opening_commit hpre.quiet]
    exact hpre.unbroken

theorem attempt_marked {pre tr : Trace} (hpre : Still pre)
    (h : Marked s t a bonus tr (.ok (false, p))) : Attempt a (pre ++ tr) := by
  obtain ⟨mid, v, q, rfl, hmid, hread, hv⟩ := h
  rw [← append_assoc]
  exact .missed (hpre.append hmid) (mem_append_right _ hread) hv

theorem attempt_flipped {pre tr rest : Trace} (hpre : Still pre)
    (h : Marked s t a bonus tr (.ok (true, p))) (hgate : 0 < bonus → p.gateway = .plisio)
    (hrest : ∀ new : Payment, new.userId = p.userId → new.amount = p.amount →
      new.bonusAmount = bonus → Credits new rest) : Attempt a (pre ++ (tr ++ rest)) := by
  obtain ⟨mid, old, new, rfl, hmid, hpaid, hbonus, hbill, -⟩ := h
  have huser : new.userId = p.userId := congrArg (·.1) hbill
  have hamount : new.amount = p.amount := congrArg (·.2.1) hbill
  have hgateway : new.gateway = p.gateway := congrArg (·.2.2) hbill
  have hshape : pre ++ (mid ++ [paying a old new] ++ rest) = (pre ++ mid) ++ paying a old new :: rest := by
    simp
  rw [hshape]
  refine .flipped (hpre.append hmid) hpaid ?_ (hrest new huser hamount hbonus)
  intro hb
  rw [hgateway]
  exact hgate (hbonus ▸ hb)

theorem marked_amount
    (h : Marked s t a bonus tr (.ok (true, p))) : 0 < p.amount := by
  obtain ⟨-, -, new, -, -, -, -, hbill, hnew⟩ := h
  have hamount : new.amount = p.amount := congrArg (·.2.1) hbill
  exact hamount ▸ (hnew.2 new rfl).1

theorem marked_gateway {p q : Payment}
    (h : Marked s t a bonus tr (.ok (true, p))) (hq : Billed s t (.payment a) (some q)) :
    p.gateway = q.gateway := by
  obtain ⟨-, -, new, -, -, -, -, hbill, hnew⟩ := h
  exact congrArg (·.2.2) (hbill.symm.trans (billed_bill hnew hq))

theorem marked_calm {pre tr : Trace} {e : Err} (hpre : Still pre)
    (h : Marked s t a bonus tr (.error e)) : Calm a (pre ++ tr) := by
  obtain ⟨mid, ev, rfl, hmid, hb⟩ := h
  exact hpre.calm.append (hmid.calm.append (broken_calm hb))

theorem zarinpal_settles (user : Option Int) (a status : String) :
    Ends s t (PaymentController.zarinpalCallback user a status) fun tr r =>
      (Calm a tr ∧ ∀ ref, r = .ok (.ok ref) → ¬Confirmed tr) ∨ Attempt a tr := by
  unfold PaymentController.zarinpalCallback
  split
  · exact Call.outside_pure (.inl ⟨still_nil.calm, by simp⟩)
  refine Call.outside_bind (Call.outside_attempt reads_getByAuthority) ?_ ?_
  · rintro tr payment ⟨_, ⟨⟩, hread⟩
    cases payment with
    | error e =>
      obtain ⟨ev, rfl, hb⟩ := hread
      exact Call.outside_pure (.inl ⟨broken_calm hb, by simp⟩)
    | ok payment =>
      obtain ⟨rfl, hp⟩ := hread
      have hstill : Still [.read (.payment a) (some payment)] := still_single rfl
      simp only
      split
      · exact Call.outside_pure (.inl ⟨hstill.calm, by simp⟩)
      split
      · refine Call.outside_bind calm_markFailed ?_ (fun tr e h => .inl ⟨hstill.calm.append h, by simp⟩)
        intro tr _ h
        exact Call.outside_pure (.inl ⟨hstill.calm.append (by simpa using h), by simp⟩)
      split
      · refine Call.outside_pure (.inl ⟨hstill.calm, ?_⟩)
        simp [Confirmed, confirms]
      refine Call.outside_bind (P := fun tr r => ∃ reply, tr = [.ask (.verifyPayment payment.tenantId
          payment.amount a) reply] ∧ r = .ok reply) (Call.outside_ask fun reply => ⟨reply, rfl, rfl⟩)
        ?_ (by simp)
      rintro _ reply ⟨_, rfl, ⟨⟩⟩
      have hask : Still [.ask (.verifyPayment payment.tenantId payment.amount a) reply] :=
        still_single rfl
      have hpre := hstill.append hask
      split
      · refine Call.outside_bind calm_markFailed ?_
          (fun tr e h => .inl ⟨by simpa using hpre.calm.append h, by simp⟩)
        intro tr _ h
        exact Call.outside_pure (.inl ⟨by simpa using hpre.calm.append h, by simp⟩)
      case h_2 refId hv =>
        refine Call.outside_bind (Call.outside_attempt (marked_markPaid refId)) ?_ ?_
        · rintro tr marked ⟨_, ⟨⟩, hm⟩
          rcases marked with e | ⟨_ | _, p⟩
          · exact Call.outside_pure (.inl ⟨by simpa using marked_calm hpre hm, by simp⟩)
          · exact Call.outside_pure (.inr (by simpa using attempt_marked hpre hm))
          · refine Call.outside_bind (pays_credit (marked_amount hm)) ?_ (fun tr' e h => by obtain ⟨⟨_, ⟨⟩⟩, -⟩ := h)
            rintro tr' _ ⟨-, hpays⟩
            have hcredits : ∀ new : Payment, new.userId = p.userId → new.amount = p.amount →
                new.bonusAmount = 0 → Credits new tr' := by
              intro new huser hamount hb
              exact .plain (by rw [huser, hamount]; exact hpays) (by simp [hb])
            exact Call.outside_pure (.inr (by simpa using attempt_flipped hpre hm (by simp) hcredits))
        · rintro tr e ⟨r, hr, -⟩
          cases hr
  · rintro tr e ⟨r, hr, -⟩
    cases hr

def currencyOf : Option String → String
  | none => "USD"
  | some cur => if Text.trimSpace cur = "" then "USD" else Text.toUpper (Text.trimSpace cur)

def rateOf : Option Int → Int
  | none => 1
  | some rate => if rate ≤ 0 then 1 else rate

inductive Setting
  | config (on : Bool)
  | signed (valid : Bool)
  | currency (cur : String)
  | rate (rate : Int)

def setting : Event panel → Option Setting
  | .ask (.plisioConfig _) cfg => some (.config ((cfg : PlisioConfig).enabled &&
      !(Text.trimSpace (cfg : PlisioConfig).secret == "")))
  | .ask (.verifyCallback _ _) valid => some (.signed valid)
  | .ask .plisioSourceCurrency raw => some (.currency (currencyOf raw))
  | .ask .cryptoExchangeRate raw => some (.rate (rateOf raw))
  | _ => none

def accepted (form : PlisioForm) (amount : Int64) (tr : Trace) : Bool :=
  match tr.filterMap setting with
  | .config true :: .signed true :: .currency cur :: .rate rate :: _ =>
      form.status == "completed" &&
        !PlisioWebhookController.currencyMismatch form.sourceCurrency cur &&
        !PlisioWebhookController.underpaid form.sourceAmount rate amount
  | _ => false

@[simp] theorem setting_read (k : Key) (v : Option k.Row) :
    setting (.read (S := panel) k v) = none := rfl

@[simp] theorem setting_config (tenant : Int) (cfg : PlisioConfig) :
    setting (.ask (.plisioConfig tenant) cfg) =
      some (.config (cfg.enabled && !(Text.trimSpace cfg.secret == ""))) := rfl

@[simp] theorem setting_signed (form : PlisioForm) (secret : String) (valid : Bool) :
    setting (.ask (.verifyCallback form secret) valid) = some (.signed valid) := rfl

@[simp] theorem setting_currency (raw : Option String) :
    setting (.ask .plisioSourceCurrency raw) = some (.currency (currencyOf raw)) := rfl

@[simp] theorem setting_rate (raw : Option Int) :
    setting (.ask .cryptoExchangeRate raw) = some (.rate (rateOf raw)) := rfl

theorem accepted_append {amount : Int64}
    (h : accepted form amount tr = true) (rest : Trace) :
    accepted form amount (tr ++ rest) = true := by
  simp only [accepted, filterMap_append] at h ⊢
  split at h
  case h_1 hset => simpa [hset] using h
  case h_2 => cases h

theorem asks_sourceCurrency : Ends s t PaymentController.getPlisioSourceCurrency fun tr r =>
    ∃ raw, tr = [.ask .plisioSourceCurrency raw] ∧ r = .ok (currencyOf raw) := by
  refine Call.outside_bind (P := fun tr r => ∃ raw, tr = [.ask .plisioSourceCurrency raw] ∧ r = .ok raw)
    (Call.outside_ask fun raw => ⟨raw, rfl, rfl⟩) ?_ (by simp)
  rintro _ raw ⟨_, rfl, ⟨⟩⟩
  cases raw with
  | none => exact Call.outside_pure ⟨none, rfl, rfl⟩
  | some cur =>
    simp only
    split
    case isTrue h => exact Call.outside_pure ⟨some cur, rfl, by simp [currencyOf, h]⟩
    case isFalse h => exact Call.outside_pure ⟨some cur, rfl, by simp [currencyOf, h]⟩

theorem asks_exchangeRate : Ends s t PaymentController.getCryptoExchangeRate fun tr r =>
    ∃ raw, tr = [.ask .cryptoExchangeRate raw] ∧ r = .ok (rateOf raw) := by
  refine Call.outside_bind (P := fun tr r => ∃ raw, tr = [.ask .cryptoExchangeRate raw] ∧ r = .ok raw)
    (Call.outside_ask fun raw => ⟨raw, rfl, rfl⟩) ?_ (by simp)
  rintro _ raw ⟨_, rfl, ⟨⟩⟩
  cases raw with
  | none => exact Call.outside_pure ⟨none, rfl, rfl⟩
  | some rate =>
    simp only
    split
    case isTrue h => exact Call.outside_pure ⟨some rate, rfl, by simp [rateOf, h]⟩
    case isFalse h => exact Call.outside_pure ⟨some rate, rfl, by simp [rateOf, h]⟩

abbrev Quietly {α : Type} (s t : Store panel) (x : Service α) : Prop :=
  Ends s t x fun tr r => Still tr ∧ ∃ a, r = .ok a

theorem quietly_pure {α : Type} (a : α) : Quietly s t (pure a) :=
  Call.outside_pure ⟨still_nil, a, rfl⟩

theorem quietly_bind {α β : Type} {x : Service α} {f : α → Service β} (hx : Quietly s t x)
    (hf : ∀ a, Quietly s t (f a)) : Quietly s t (x >>= f) := by
  refine Call.outside_bind hx ?_ (by simp)
  rintro tr a ⟨hs, -⟩
  refine (hf a).mono ?_
  rintro tr' r ⟨hs', hr⟩
  exact ⟨hs.append hs', hr⟩

theorem quietly_ask (q : Query) : Quietly s t (Service.ask q) :=
  Call.outside_ask fun a => ⟨still_single rfl, a, rfl⟩

theorem quietly_user (id : Int) : Quietly s t (Call.result (S := panel) (Service.user id)) :=
  Call.outside_result (Call.outside_read (fun _ _ => ⟨still_single rfl, _, rfl⟩)
    ⟨still_single rfl, _, rfl⟩)

theorem quietly_computeBonus (userId : Int) (deposit : Int64) :
    Quietly s t (PlisioWebhookController.computeBonus userId deposit) := by
  refine quietly_bind (quietly_ask _) fun enabled => ?_
  cases enabled with
  | false => exact quietly_pure _
  | true =>
    refine quietly_bind (quietly_user _) fun v => ?_
    rcases v with e | _ | user
    · exact quietly_pure _
    · exact quietly_pure _
    simp only
    split
    · exact quietly_pure _
    refine quietly_bind (quietly_ask _) fun pct => ?_
    split
    · exact quietly_pure _
    refine quietly_bind (quietly_ask _) fun minDep => ?_
    split
    · exact quietly_pure _
    refine quietly_bind (quietly_ask _) fun maxBonus => ?_
    split <;> exact quietly_pure _

theorem settle_credits {bonus pct : Int64} (h : 0 < p.amount) :
    Ends s t (PlisioWebhookController.settle form bonus pct p) fun tr r => r = .ok () ∧
      ∀ new : Payment, new.userId = p.userId → new.amount = p.amount → new.bonusAmount = bonus →
        Credits new tr := by
  refine Call.outside_bind (pays_credit h) ?_ (by simp)
  rintro tr _ ⟨-, hpays⟩
  split
  case isTrue hb =>
    refine Call.outside_bind (pays_credit hb) ?_ (by simp)
    rintro tr' _ ⟨-, hpays'⟩
    refine Call.outside_pure ⟨rfl, ?_⟩
    intro new huser hamount hbonus
    rw [append_nil]
    exact .bonus (by rw [huser, hamount]; exact hpays) (by rw [hbonus]; exact hb)
      (by rw [huser, hbonus]; exact hpays')
  case isFalse hb =>
    refine Call.outside_pure ⟨rfl, ?_⟩
    intro new huser hamount hbonus
    rw [append_nil]
    exact .plain (by rw [huser, hamount]; exact hpays) (by rw [hbonus]; exact hb)

theorem still_ask (q : Query) (answer : q.Answer) : Still [.ask q answer] := still_single rfl

theorem asks (q : Query) : Ends s t (Service.ask q) fun tr r =>
    ∃ answer, tr = [.ask q answer] ∧ r = .ok answer :=
  Call.outside_ask fun answer => ⟨answer, rfl, rfl⟩

def Decided (t : Store panel) (form : PlisioForm) (tr : Trace) : Prop :=
  (Attempt form.orderNumber tr ∧
    ∀ q ∈ t.row (.payment form.orderNumber), accepted form (q : Payment).amount tr = true) ∨
  (Calm form.orderNumber tr ∧
    ∀ q ∈ t.row (.payment form.orderNumber), accepted form (q : Payment).amount tr = true →
      ∃ ev ∈ opening tr, broken ev = true)

theorem decided_refused (h : Still tr)
    (hno : ∀ q ∈ t.row (.payment form.orderNumber), accepted form (q : Payment).amount tr = false) :
    Decided t form tr := by
  refine .inr ⟨h.calm, ?_⟩
  intro q hq ha
  rw [hno q hq] at ha
  cases ha

theorem plisio_settles (form : PlisioForm) :
    Ends s t (PlisioWebhookController.callback form) fun tr _ => Decided t form tr := by
  refine Call.outside_bind (Call.outside_attempt reads_getByAuthority) ?_ ?_
  · rintro tr payment ⟨_, ⟨⟩, hread⟩
    cases payment with
    | error e =>
      obtain ⟨ev, rfl, hb⟩ := hread
      refine Call.outside_pure (.inr ⟨broken_calm hb, ?_⟩)
      exact fun _ _ _ => ⟨ev, broken_opening still_nil hb, hb⟩
    | ok payment =>
      obtain ⟨rfl, hp⟩ := hread
      have hfinal : ∀ q ∈ t.row (.payment form.orderNumber), (q : Payment).amount = payment.amount := by
        intro q hq
        obtain ⟨q', hq', hbill⟩ := hp.1 payment rfl
        rw [Option.mem_unique hq hq']
        exact congrArg (·.2.1) hbill
      have hstill : Still [.read (.payment form.orderNumber) (some payment)] := still_single rfl
      simp only
      split
      · refine Call.outside_pure (decided_refused (by simpa using hstill) ?_)
        simp [accepted, filterMap_cons]
      case isFalse hgate =>
      have hgateway : payment.gateway = .plisio := by simpa using hgate
      refine Call.outside_bind (asks (.plisioConfig payment.tenantId)) ?_ (by simp)
      rintro _ cfg ⟨_, rfl, ⟨⟩⟩
      have hconfig := hstill.append (still_ask (.plisioConfig payment.tenantId) cfg)
      split
      case isTrue hoff =>
        refine Call.outside_pure (decided_refused (by simpa using hconfig) ?_)
        have hans : (cfg.enabled && !(Text.trimSpace cfg.secret == "")) = false := by
          simpa [imp_iff_not_or] using hoff
        simp [accepted, filterMap_cons, hans]
      case isFalse hon =>
      have hans : (cfg.enabled && !(Text.trimSpace cfg.secret == "")) = true := by
        simpa using hon
      refine Call.outside_bind (asks (.verifyCallback form cfg.secret)) ?_ (by simp)
      rintro _ signed ⟨_, rfl, ⟨⟩⟩
      have hsigned := hconfig.append (still_ask (.verifyCallback form cfg.secret) signed)
      cases signed with
      | false =>
        refine Call.outside_pure (decided_refused (by simpa using hsigned) ?_)
        simp [accepted, filterMap_cons]
      | true =>
      simp only [Bool.not_true, Bool.false_eq_true, if_false]
      split
      case isTrue hstatus =>
        refine Call.outside_pure (decided_refused (by simpa using hsigned) ?_)
        simp [accepted, filterMap_cons]
      case isFalse hstatus =>
      refine Call.outside_bind asks_sourceCurrency ?_ (by simp)
      rintro _ cur ⟨raw, rfl, ⟨⟩⟩
      have hcur := hsigned.append (still_ask .plisioSourceCurrency raw)
      split
      case isTrue hmis =>
        refine Call.outside_pure (decided_refused (by simpa using hcur) ?_)
        simp [accepted, filterMap_cons]
      case isFalse hmatch =>
      refine Call.outside_bind asks_exchangeRate ?_ (by simp)
      rintro _ rate ⟨rawRate, rfl, ⟨⟩⟩
      have hpre := hcur.append (still_ask .cryptoExchangeRate rawRate)
      split
      case isTrue hunder =>
        refine Call.outside_pure (decided_refused (by simpa using hpre) ?_)
        intro q hq
        rw [← hfinal q hq] at hunder
        simp [accepted, filterMap_cons, hans, hunder]
      case isFalse hfull =>
      have hacc : ∀ rest, ∀ q ∈ t.row (.payment form.orderNumber), accepted form (q : Payment).amount
          ([.read (.payment form.orderNumber) (some payment)] ++
            [.ask (.plisioConfig payment.tenantId) cfg] ++
            [.ask (.verifyCallback form cfg.secret) true] ++ [.ask .plisioSourceCurrency raw] ++
            [.ask .cryptoExchangeRate rawRate] ++ rest) = true := by
        intro rest q hq
        refine accepted_append ?_ rest
        rw [← hfinal q hq] at hfull
        simpa [accepted, filterMap_cons, hans, hmatch, hfull] using hstatus
      refine Call.outside_bind (quietly_computeBonus _ _) ?_ (by simp)
      rintro quiet ⟨bonus, pct⟩ ⟨hquiet, -⟩
      have hall := hpre.append hquiet
      refine Call.outside_bind (Call.outside_attempt
        (marked_markPaidWithBonus form.txnId form.currency bonus)) ?_ ?_
      · rintro tr marked ⟨_, ⟨⟩, hm⟩
        rcases marked with e | ⟨_ | _, p⟩
        · refine Call.outside_pure (.inr ⟨by simpa using marked_calm hall hm, ?_⟩)
          obtain ⟨mid, ev, rfl, hmid, hb⟩ := hm
          exact fun _ _ _ => ⟨ev, by simpa using broken_opening (hall.append hmid) hb, hb⟩
        · refine Call.outside_pure (.inl ⟨by simpa using attempt_marked hall hm, ?_⟩)
          intro q hq
          simpa using hacc (quiet ++ tr) q hq
        · refine Call.outside_bind (settle_credits (marked_amount hm)) ?_ (by simp)
          rintro rest _ ⟨-, hcredits⟩
          have hgate : 0 < bonus → p.gateway = .plisio := fun _ =>
            (marked_gateway hm hp).trans hgateway
          refine Call.outside_pure (.inl ⟨?_, ?_⟩)
          · simpa using attempt_flipped hall hm hgate hcredits
          · intro q hq
            simpa using hacc (quiet ++ (tr ++ rest)) q hq
      · rintro tr e ⟨r, hr, -⟩
        cases hr
  · rintro tr e ⟨r, hr, -⟩
    cases hr

def Concludes (t : Store panel) : Request → Trace → Except Err Reply → Prop
  | .zarinpalCallback _ a _, tr, r =>
      (Calm a tr ∧ ∀ ref, r = .ok (.redirect (.ok ref)) → ¬Confirmed tr) ∨ Attempt a tr
  | .plisioCallback form, tr, _ => Decided t form tr
  | _, _, _ => True

theorem concludes_settles {req : Request} {r : Except Err Reply}
    (hreq : req.settles a) (h : Concludes t req tr r) : Calm a tr ∨ Attempt a tr := by
  cases req with
  | zarinpalCallback user b status =>
    obtain rfl : b = a := hreq
    rcases h with h | h
    · exact .inl h.1
    · exact .inr h
  | plisioCallback form =>
    obtain rfl : form.orderNumber = a := hreq
    rcases h with h | h
    · exact .inr h.1
    · exact .inl h.1
  | _ => exact hreq.elim

theorem request_concludes (s t : Store panel) (req : Request) :
    Ends s t req.run (Concludes t req) := by
  cases req with
  | zarinpalCallback user a status =>
    refine Call.outside_map ((zarinpal_settles user a status).mono ?_)
    rintro tr r (⟨hcalm, hno⟩ | h)
    · refine .inl ⟨hcalm, ?_⟩
      intro ref hr
      cases r with
      | error e => cases hr
      | ok red =>
        obtain rfl := Reply.redirect.inj (Except.ok.inj hr)
        exact hno ref rfl
    · exact .inr h
  | plisioCallback form =>
    exact Call.outside_map ((plisio_settles form).mono fun _ _ h => h)
  | _ => exact (anything _ (billed_steady s t) _).mono fun _ _ _ => trivial

end specs

end Settlement

end QuiPanel
