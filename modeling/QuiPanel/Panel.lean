import QuiPanel.System

namespace QuiPanel

open ReadCommitted

def User.profile (u : User) : User := { u with balance := 0 }

section inversion

variable {R : Rely panel} {req : Request} {legs : List Leg}
variable {p p' : Pending panel}

theorem posted_held {leg : Leg} {k : Key} (h : Posted leg p p') (hk : k ≠ .user leg.user) :
    p'.held k = p.held k := by
  obtain ⟨u, v, -, -, -, rfl⟩ := h
  exact Pending.put_held_of_ne (S := panel) p _ _ hk

theorem posting_held {k : Key} (h : Posting legs p p') (hk : ∀ id, k ≠ .user id) :
    p'.held k = p.held k := by
  induction h with
  | nil => rfl
  | cons _ hposted _ ih => exact ih.trans (posted_held hposted (hk _))

theorem posting_users (h : Posting legs p p')
    (hp : ∀ id (v : User), p.held (.user id) ≠ some (none, v)) (id : Int) (v : User) :
    p'.held (.user id) ≠ some (none, v) := by
  induction h with
  | nil => exact hp id v
  | @cons leg legs p p' p'' hfree hposted _ ih =>
    apply ih
    intro j v hj
    by_cases hk : j = leg.user
    · subst hk
      obtain ⟨u, b, -, -, -, rfl⟩ := hposted
      rw [Pending.note_held, Pending.put_held (S := panel), hfree] at hj
      simp at hj
    · rw [posted_held hposted (by simpa using hk)] at hj
      exact hp j v hj

theorem one_cases {k j : panel.Key} {old : Option (panel.Row k)} {new : panel.Row k}
    {o : Option (panel.Row j)} {n : panel.Row j}
    (h : (Pending.one k old new).held j = some (o, n)) :
    ∃ hk : k = j, hk ▸ old = o ∧ hk ▸ new = n := by
  by_cases hj : j = k
  · subst hj
    rw [Pending.one_held (S := panel)] at h
    obtain ⟨rfl, rfl⟩ := Prod.mk.inj (Option.some.inj h)
    exact ⟨rfl, rfl, rfl⟩
  · rw [Pending.one_held_of_ne (S := panel) _ _ hj] at h
    cases h

theorem effect_user (h : Effect R req p) (id : Int) (v : User) :
    p.held (.user id) ≠ some (none, v) := by
  have hempty : ∀ id (v : User), (Pending.empty (S := panel)).held (.user id) ≠ some (none, v) := by
    simp
  have hone : ∀ {k : Key} {old : Option k.Row} {new : k.Row}, (∀ id, k ≠ .user id) →
      ∀ id (v : User), (Pending.one (S := panel) k old new).held (.user id) ≠ some (none, v) := by
    intro k old new hk id v hh
    obtain ⟨hj, -⟩ := one_cases hh
    exact hk id hj
  cases h with
  | idle => exact hempty id v
  | wallet _ _ h => exact posting_users h hempty id v
  | order | opened | paid | failed | submitted | rejected => exact hone (by simp) id v
  | approved _ _ _ _ _ _ h => exact posting_users h (hone (by simp)) id v

end inversion

inductive Payment.Move (req : Request) (a : String) (new : Payment) : Option Payment → Prop
  | opened (hp : new.status = .pending) (hpos : 0 < new.amount) (hbonus : new.bonusAmount = 0) :
      Move req a new none
  | paid {old : Payment} (hreq : req.settles a) (hold : old.status = .pending)
      (hnew : new.status = .paid) (hbill : new.bill = old.bill) : Move req a new (some old)
  | failed {old : Payment} (hold : old.status = .pending) (hnew : new.status = .failed)
      (hbill : new.bill = old.bill) : Move req a new (some old)

inductive ManualDepositRequest.Move (R : Rely panel) (req : Request)
    (id : Int) (new : ManualDepositRequest) (log : List Transaction) :
    Option ManualDepositRequest → Prop
  | submitted (hreq : req.submits new) (hlog : log = []) : Move R req id new log none
  | rejected {old : ManualDepositRequest} (hold : old.status = .pending)
      (hnew : new.status = .rejected) (hclaim : new.claim = old.claim) (hlog : log = []) :
      Move R req id new log (some old)
  | approved {adminId : Int} {scope : Scope} {dep old : ManualDepositRequest} (u : User)
      (hreq : req = .approve adminId id scope) (hread : R (.deposit id) (some dep))
      (hsees : scope.sees dep.tenantId = true) (hrow : R (.deposit id) (some old))
      (hold : old.status = .pending) (hnew : new.status = .approved)
      (hclaim : new.claim = old.claim) (hlog : log = [(Leg.approval adminId id dep).entry u]) :
      Move R req id new log (some old)

section moves

variable {R : Rely panel} {req : Request} {p p' : Pending panel}

theorem submits_positive {row : ManualDepositRequest} (h : req.submits row) : 0 < row.amount := by
  cases req with
  | submit =>
    obtain ⟨user, -, -, -, ha, hpos, -⟩ := h
    rw [ha]
    exact hpos
  | _ => exact h.elim

theorem submits_pending {row : ManualDepositRequest} (h : req.submits row) : row.status = .pending := by
  cases req with
  | submit =>
    obtain ⟨user, -, -, -, -, -, hpend⟩ := h
    exact hpend
  | _ => exact h.elim

theorem effect_payment {a : String} {old : Option Payment} {new : Payment} (h : Effect R req p)
    (hh : p.held (.payment a) = some (old, new)) :
    Payment.Move req a new old ∧ p = .one (S := panel) (.payment a) old new := by
  cases h with
  | idle => cases hh
  | wallet _ _ h =>
    rw [posting_held h (by simp)] at hh
    cases hh
  | approved _ _ _ _ _ _ h =>
    rw [posting_held h (by simp)] at hh
    obtain ⟨hk, -⟩ := one_cases hh
    cases hk
  | opened _ hp hpos hbonus =>
    obtain ⟨hk, rfl, rfl⟩ := one_cases hh
    cases hk
    exact ⟨.opened hp hpos hbonus, rfl⟩
  | paid hreq hold hnew hbill =>
    obtain ⟨hk, rfl, rfl⟩ := one_cases hh
    cases hk
    exact ⟨.paid hreq hold hnew hbill, rfl⟩
  | failed hold hnew hbill =>
    obtain ⟨hk, rfl, rfl⟩ := one_cases hh
    cases hk
    exact ⟨.failed hold hnew hbill, rfl⟩
  | order | submitted | rejected =>
    obtain ⟨hk, -⟩ := one_cases hh
    cases hk

theorem posting_single {leg : Leg} (h : Posting [leg] p p') :
    ∃ u, p'.log = p.log ++ [leg.entry u] := by
  obtain _ | ⟨-, ⟨u, v, -, -, -, rfl⟩, ⟨⟩⟩ := h
  exact ⟨u, rfl⟩

theorem effect_deposit {id : Int} {old : Option ManualDepositRequest} {new : ManualDepositRequest}
    (h : Effect R req p) (hh : p.held (.deposit id) = some (old, new)) :
    ManualDepositRequest.Move R req id new p.log old := by
  cases h with
  | idle => cases hh
  | wallet _ _ h =>
    rw [posting_held h (by simp)] at hh
    cases hh
  | submitted _ hreq =>
    obtain ⟨hk, rfl, rfl⟩ := one_cases hh
    cases hk
    exact .submitted hreq rfl
  | rejected hold hnew hclaim =>
    obtain ⟨hk, rfl, rfl⟩ := one_cases hh
    cases hk
    exact .rejected hold hnew hclaim rfl
  | approved hread hsees hrow hold hnew hclaim h =>
    rw [posting_held h (by simp)] at hh
    obtain ⟨hk, rfl, rfl⟩ := one_cases hh
    cases hk
    obtain ⟨u, hlog⟩ := posting_single h
    exact .approved u rfl hread hsees hrow hold hnew hclaim hlog
  | order | opened | paid | failed =>
    obtain ⟨hk, -⟩ := one_cases hh
    cases hk

end moves

abbrev Panel (ι : Type) := World panel ι (Except Err Reply)

section boot

variable {ι : Type}

def refusing : (q : Query) → q.Answer
  | .now => (0 : Int)
  | .missingInbounds _ => some []
  | .clientScopeByEmail _ => none
  | .provision .. => none
  | .applyPlan .. => none
  | .costOfGoods .. => ()
  | .attachByEmail .. => ()
  | .referralCommissionPercent => none
  | .requestPayment .. => none
  | .verifyPayment .. => none
  | .plisioConfig _ => ⟨false, ""⟩
  | .uuid => ""
  | .createInvoice .. => false
  | .verifyCallback .. => false
  | .plisioSourceCurrency => none
  | .cryptoExchangeRate => none
  | .cryptoBonusEnabled => false
  | .cryptoBonusPercent => (0 : Int64)
  | .cryptoBonusMinDeposit => (0 : Int64)
  | .cryptoBonusMax => (0 : Int64)

def Panel.boot (s : Store panel) (req : ι → Request) : Panel ι :=
  World.start s fun i => (req i).run

structure Sane (s : Store panel) : Prop where
  users : ∀ id (u : User), s.row (.user id) = some u → 0 ≤ u.balance
  deposits : ∀ id (d : ManualDepositRequest), s.row (.deposit id) = some d → 0 < d.amount

def Solvent (s : Store panel) : (k : Key) → Option k.Row → Prop
  | .user id, v => v.isSome = (s.row (.user id)).isSome ∧ ∀ u ∈ v, 0 ≤ (u : User).balance ∧
      ∀ u₀ ∈ s.row (.user id), (u : User).profile = User.profile u₀
  | _, _ => True

def Pinned (s t : Store panel) : (k : Key) → Option k.Row → Prop
  | .user id, v => Solvent s (.user id) v
  | .payment a, v => ∀ p ∈ v, ∃ q ∈ t.row (.payment a), Payment.bill q = (p : Payment).bill
  | .deposit id, v => ∀ d ∈ v, 0 < (d : ManualDepositRequest).amount ∧
      ∃ q ∈ t.row (.deposit id), ManualDepositRequest.claim q = (d : ManualDepositRequest).claim
  | _, _ => True

variable {s : Store panel} {req : ι → Request}

theorem solvent_funded {R : Rely panel}
    (hR : ∀ id v, R (.user id) v ↔ Solvent s (.user id) v) : Funded R where
  nonneg id v h := (((hR id _).mp h).2 v rfl).1
  set id v b h hb := by
    obtain ⟨hsome, hv⟩ := (hR id _).mp h
    refine (hR id _).mpr ⟨hsome, ?_⟩
    rintro _ ⟨⟩
    exact ⟨hb, (hv v rfl).2⟩

theorem solvent_steady (s : Store panel) : Steady (Solvent s) where
  funded := solvent_funded fun _ _ => Iff.rfl
  order _ _ _ _ := trivial
  settled _ _ _ _ _ _ := trivial
  reviewed _ _ _ _ _ := trivial

theorem pinned_steady (s t : Store panel) : Steady (Pinned s t) where
  funded := solvent_funded fun _ _ => Iff.rfl
  order _ _ _ _ := trivial
  settled a p p' h hb _ := by
    rintro _ ⟨⟩
    obtain ⟨q, hq, hqb⟩ := h p rfl
    exact ⟨q, hq, hqb.trans hb.symm⟩
  reviewed id d d' h hc := by
    rintro _ ⟨⟩
    have hamount : d'.amount = d.amount := congrArg (·.2.2) hc
    obtain ⟨hpos, q, hq, hqc⟩ := h d rfl
    exact ⟨hamount ▸ hpos, q, hq, hqc.trans hc.symm⟩

theorem solvent_rows (husers : ∀ id (u : User), s.row (.user id) = some u → 0 ≤ u.balance) (k : Key) :
    Solvent s k (s.row k) := by
  cases k with
  | user id =>
    refine ⟨rfl, ?_⟩
    intro u hu
    refine ⟨husers id u hu, ?_⟩
    intro u₀ hu₀
    rw [Option.mem_unique hu hu₀]
  | _ => trivial

def terms (R : Rely panel) (req : ι → Request)
    (Q : ι → Trace → Except Err Reply → Prop) : Terms panel ι (Except Err Reply) :=
  ⟨R, fun i => Effect R (req i), fun i l r => Q i l.past r⟩

variable {Q : ι → Trace → Except Err Reply → Prop}

theorem terms_meets {R : Rely panel}
    (hR : Steady R) (hs : ∀ k, R k (s.row k))
    (hQ : ∀ i, Call.Outside (S := panel) R (fun _ => True) (req i).run (Q i)) :
    (terms R req Q).Meets s fun i => (req i).run := by
  refine ⟨hs, fun i => ?_⟩
  have h := ((request_effects hR (req i)).and (hQ i)).init
  exact Prog.wp_mono _ (fun _ hp => hp.1) (fun _ _ hq => hq.2) _ h

theorem anything (R : Rely panel) (hR : Steady R) (req : Request) :
    Call.Outside (S := panel) R (fun _ => True) req.run fun _ _ => True :=
  (request_effects hR req).relax fun _ _ => trivial

theorem solvent_meets (husers : ∀ id (u : User), s.row (.user id) = some u → 0 ≤ u.balance)
    (req : ι → Request) :
    (terms (Solvent s) req fun _ _ _ => True).Meets s fun i => (req i).run :=
  terms_meets (solvent_steady s) (solvent_rows husers) fun i => anything _ (solvent_steady s) (req i)

variable [DecidableEq ι] {w : Panel ι}

variable (husers : ∀ id (u : User), s.row (.user id) = some u → 0 ≤ u.balance)

include husers

theorem solvent_admitted
    (hr : World.Reachable (Panel.boot s req) w) : World.Admitted (Solvent s) w.hist := by
  refine World.admitted_of_closed (solvent_meets husers req) ?_ hr
  intro i k v h
  cases k with
  | user id => exact absurd (Pending.one_held (S := panel) ..) (effect_user h id v)
  | _ => trivial

theorem solvent_commits
    (hr : World.Reachable (Panel.boot s req) w) {i : ι} {p : Pending panel}
    (hp : (i, .commit p) ∈ w.hist) : Effect (Solvent s) (req i) p := by
  exact (World.sound_reachable (solvent_meets husers req) hr (solvent_admitted husers hr)).commits i p hp

theorem bill_stable
    (hr : World.Reachable (Panel.boot s req) w) (a : String) :
    (∀ p : Payment, s.row (.payment a) = some p →
      ∃ q : Payment, w.store.row (.payment a) = some q ∧ q.bill = p.bill) ∧
    ∀ i p old (new : Payment), (i, .commit p) ∈ w.hist → p.held (.payment a) = some (old, new) →
      ∃ q : Payment, w.store.row (.payment a) = some q ∧ q.bill = new.bill := by
  refine World.row_stable (S := panel) (k := Key.payment a) (f := Payment.bill) ?_ hr
  intro i p old new hp hh
  obtain ⟨hmove, -⟩ := effect_payment (solvent_commits husers hr hp) hh
  cases hmove with
  | paid _ _ _ hbill => exact hbill
  | failed _ _ hbill => exact hbill

theorem claim_stable
    (hr : World.Reachable (Panel.boot s req) w) (id : Int) :
    (∀ d : ManualDepositRequest, s.row (.deposit id) = some d →
      ∃ q : ManualDepositRequest, w.store.row (.deposit id) = some q ∧ q.claim = d.claim) ∧
    ∀ i p old (new : ManualDepositRequest), (i, .commit p) ∈ w.hist →
      p.held (.deposit id) = some (old, new) →
      ∃ q : ManualDepositRequest, w.store.row (.deposit id) = some q ∧ q.claim = new.claim := by
  refine World.row_stable (S := panel) (k := Key.deposit id) (f := ManualDepositRequest.claim) ?_ hr
  intro i p old new hp hh
  cases effect_deposit (solvent_commits husers hr hp) hh with
  | rejected _ _ hclaim _ => exact hclaim
  | approved _ _ _ _ _ _ _ hclaim _ => exact hclaim

omit husers

theorem pinned_rows (hs : Sane s) (hr : World.Reachable (Panel.boot s req) w) (k : Key) :
    Pinned s w.store k (s.row k) := by
  cases k with
  | user id => exact solvent_rows hs.users (.user id)
  | payment a =>
    exact fun p hp => (bill_stable hs.users hr a).1 p hp
  | deposit id =>
    exact fun d hd => ⟨hs.deposits id d hd, (claim_stable hs.users hr id).1 d hd⟩
  | _ => trivial

theorem pinned_admitted (hs : Sane s) (hr : World.Reachable (Panel.boot s req) w) :
    World.Admitted (Pinned s w.store) w.hist := by
  rintro ⟨i, ev⟩ he
  cases ev with
  | commit p =>
    have heffect := solvent_commits hs.users hr he
    intro k new hh
    cases k with
    | user id => exact absurd hh (effect_user heffect id new)
    | payment a =>
      rintro _ ⟨⟩
      exact (bill_stable hs.users hr a).2 i p none new he hh
    | deposit id =>
      rintro _ ⟨⟩
      obtain ⟨hreq, -⟩ := effect_deposit heffect hh
      exact ⟨submits_positive hreq, (claim_stable hs.users hr id).2 i p none new he hh⟩
    | _ => trivial
  | _ => trivial

theorem pinned_meets (hs : Sane s)
    (hr : World.Reachable (Panel.boot s req) w)
    (hQ : ∀ i, Call.Outside (S := panel) (Pinned s w.store) (fun _ => True) (req i).run (Q i)) :
    (terms (Pinned s w.store) req Q).Meets s fun i => (req i).run :=
  terms_meets (pinned_steady s w.store) (pinned_rows hs hr) hQ

end boot

end QuiPanel
