import QuiPanel.Ledger

namespace QuiPanel

open ReadCommitted

namespace Review

def approvals (id : Int) (log : List Transaction) : List Transaction :=
  log.filter fun e => e.source == .manualDeposit && e.refId == toString id

structure Granted (d : ManualDepositRequest) (e : Transaction) : Prop where
  user : e.userId = d.userId
  amount : e.amount = d.amount
  credit : e.type = .credit

inductive Accounted (d : ManualDepositRequest) : List Transaction → Prop
  | approved {e : Transaction} (h : d.status = .approved) (he : Granted d e) : Accounted d [e]
  | ungranted (h : d.status ≠ .approved) : Accounted d []

def Settled (s : Store panel) : Prop :=
  ∀ id, match s.row (.deposit id) with
    | none => approvals id s.log = []
    | some d => Accounted d (approvals id s.log)

theorem accounted_iff {d : ManualDepositRequest} {log : List Transaction} (h : Accounted d log) :
    (d.status = .approved ↔ ∃ e, log = [e] ∧ Granted d e) ∧ (d.status ≠ .approved → log = []) := by
  cases h with
  | approved h he => exact ⟨⟨fun _ => ⟨_, rfl, he⟩, fun _ => h⟩, fun hn => absurd h hn⟩
  | ungranted h => exact ⟨⟨fun ha => absurd ha h, by simp⟩, fun _ => rfl⟩

def decided : Option ManualDepositRequest → Nat
  | some d => if d.status = .pending then 0 else 1
  | none => 0

def leaves (id : Int) : Event panel → Bool
  | .commit p => (p.held (.deposit id)).any fun b =>
      decided (b.1 : Option ManualDepositRequest) == 0 && decided (some b.2) == 1
  | _ => false

section entries

variable {R : Rely panel} {req : Request} {p p' : Pending panel}

theorem approvals_append (id : Int) (log log' : List Transaction) :
    approvals id (log ++ log') = approvals id log ++ approvals id log' := List.filter_append ..

theorem posting_entries {legs : List Leg} (h : Posting legs p p') :
    ∃ es, p'.log = p.log ++ es ∧ ∀ e ∈ es, ∃ leg ∈ legs, ∃ u, e = leg.entry u := by
  induction h with
  | nil => exact ⟨[], by simp, by simp⟩
  | @cons leg legs p p' p'' _ hposted _ ih =>
    obtain ⟨u, v, -, -, -, rfl⟩ := hposted
    obtain ⟨es, hlog, hes⟩ := ih
    refine ⟨leg.entry u :: es, by simp [hlog], ?_⟩
    intro e he
    rcases List.mem_cons.mp he with rfl | he
    · exact ⟨leg, List.mem_cons_self .., u, rfl⟩
    · obtain ⟨leg', hl, u', rfl⟩ := hes e he
      exact ⟨leg', List.mem_cons_of_mem _ hl, u', rfl⟩

theorem approval_other {adminId id id' : Int} {dep : ManualDepositRequest} (u : User) (h : id' ≠ id) :
    approvals id [(Leg.approval adminId id' dep).entry u] = [] := by
  simp [approvals, Leg.approval, Leg.entry, DepositService.depositMeta, h]

theorem approval_own {adminId id : Int} {dep : ManualDepositRequest} (u : User) :
    approvals id [(Leg.approval adminId id dep).entry u] =
      [(Leg.approval adminId id dep).entry u] := by
  simp [approvals, Leg.approval, Leg.entry, DepositService.depositMeta]

theorem approval_granted {adminId id : Int} {dep d : ManualDepositRequest} (u : User)
    (hpos : 0 < dep.amount) (hc : dep.claim = d.claim) :
    Granted d ((Leg.approval adminId id dep).entry u) := by
  have hamount : dep.amount = d.amount := congrArg (·.2.2) hc
  have hnn : ¬d.amount < 0 := by
    rw [hamount] at hpos
    rw [Int64.lt_iff_toInt_lt] at hpos ⊢
    omega
  refine ⟨congrArg (·.1) hc, ?_, rfl⟩
  simp [Leg.entry, Leg.approval, hnn, hamount]

theorem effect_silent (h : Effect R req p) {id : Int} (hfree : p.held (.deposit id) = none) :
    approvals id p.log = [] := by
  cases h with
  | wallet _ hs h =>
    obtain ⟨es, hlog, hes⟩ := posting_entries h
    rw [hlog]
    refine List.filter_eq_nil_iff.mpr ?_
    intro e he
    obtain ⟨leg, hl, u, rfl⟩ := hes e (by simpa using he)
    simp [Leg.entry, hs leg hl]
  | @approved adminId id' scope _ dep old new _ _ _ _ _ _ h =>
    obtain ⟨u, hlog⟩ := posting_single h
    have hne : id' ≠ id := by
      rintro rfl
      rw [posting_held h (by simp), Pending.one_held] at hfree
      cases hfree
    rw [hlog]
    exact approval_other u hne
  | _ => rfl

end entries

section lifecycle

variable {s t : Store panel} {req : Request} {p : Pending panel}

theorem pinned_claim {id : Int} {d d' : ManualDepositRequest}
    (h : Pinned s t (.deposit id) (some d)) (h' : Pinned s t (.deposit id) (some d')) :
    d.claim = d'.claim := by
  obtain ⟨-, q, hq, hc⟩ := h d rfl
  obtain ⟨-, q', hq', hc'⟩ := h' d' rfl
  rw [Option.mem_unique hq hq'] at hc
  exact hc.symm.trans hc'

theorem settled_apply {s' : Store panel} (h : Effect (Pinned s t) req p) (hs : Settled s')
    (ha : p.Agrees s') : Settled (p.apply s') := by
  intro id
  have hid := hs id
  rw [Pending.apply_log, approvals_append]
  cases hh : p.held (.deposit id) with
  | none =>
    rw [Pending.apply_row_of_free hh, effect_silent h hh, List.append_nil]
    exact hid
  | some b =>
    obtain ⟨old, new⟩ := b
    rw [Pending.apply_row_of_held hh]
    rw [ha _ _ _ hh] at hid
    cases effect_deposit h hh with
    | submitted hreq hlog =>
      have hnew : (new : ManualDepositRequest).status ≠ .approved := by
        rw [submits_pending hreq]
        simp
      simp only at hid ⊢
      rw [hid, hlog]
      exact .ungranted hnew
    | rejected hold hnew _ hlog =>
      obtain ⟨-, hnone⟩ := accounted_iff hid
      rw [hnone (by simp [hold]), hlog]
      exact .ungranted (by simp [hnew])
    | approved u _ hread _ hrow hold hnew hclaim hlog =>
      obtain ⟨-, hnone⟩ := accounted_iff hid
      rw [hnone (by simp [hold]), hlog, approval_own]
      have hc := (pinned_claim hread hrow).trans hclaim.symm
      exact .approved hnew (approval_granted u (hread _ rfl).1 hc)

end lifecycle

section decisions

variable {ι : Type} [DecidableEq ι] {s : Store panel} {req : ι → Request} {w : Panel ι}

theorem leaves_commit {p : Pending panel} {id : Int} {old : Option ManualDepositRequest}
    {new : ManualDepositRequest} (hh : p.held (.deposit id) = some (old, new)) :
    leaves id (.commit p) = (decided old == 0 && decided (some new) == 1) := by
  simp [leaves, hh]

theorem decided_commit {R : Rely panel} {req : Request} {p : Pending panel}
    {s : Store panel} (id : Int) (h : Effect R req p) (ha : p.Agrees s) :
    decided (s.row (.deposit id)) + (if leaves id (.commit p) then 1 else 0) ≤
      decided ((p.apply s).row (.deposit id)) := by
  cases hh : p.held (.deposit id) with
  | none =>
    rw [Pending.apply_row_of_free hh]
    simp [leaves, hh]
  | some b =>
    obtain ⟨old, new⟩ := b
    rw [Pending.apply_row_of_held hh, ha _ _ _ hh, leaves_commit hh]
    cases effect_deposit h hh with
    | submitted hreq _ => simp [decided, submits_pending hreq]
    | rejected hold hnew _ _ => simp [decided, hold, hnew]
    | approved _ _ _ _ _ hold hnew _ _ => simp [decided, hold, hnew]

theorem decided_count (husers : ∀ id (u : User), s.row (.user id) = some u → 0 ≤ u.balance)
    (hr : World.Reachable (Panel.boot s req) w) (id : Int) :
    w.hist.countP (fun e => leaves id e.2) ≤ decided (w.store.row (.deposit id)) := by
  refine (World.run_induction (C := fun w : Panel ι => w.hist.countP (fun e => leaves id e.2) ≤
    decided (w.store.row (.deposit id))) (solvent_meets husers req) (by simp [World.start]) ?_ hr
    (solvent_admitted husers hr)).2
  intro w i ev t w' _ hw' hC hm
  rw [hm.hist, List.countP_append, List.countP_singleton]
  by_cases he : ∃ p, ev = .commit p
  · obtain ⟨p, rfl⟩ := he
    obtain ⟨ha, hst⟩ := hm.commit p rfl
    have hstep := decided_commit id (hw'.commits i p (by simp [hm.hist])) ha
    rw [hst]
    dsimp only
    omega
  · have hquiet : leaves id ev = false := by
      cases ev with
      | commit p => exact absurd ⟨p, rfl⟩ he
      | _ => rfl
    rw [hm.quiet fun p hp => he ⟨p, hp⟩]
    simpa [hquiet] using hC

end decisions

def Reviews (req : Request) (id : Int) : Prop :=
  (∃ adminId scope, req = .approve adminId id scope) ∨
    ∃ adminId reason scope, req = .reject adminId id reason scope

def Decides (id : Int) (tr : Trace) : Prop := ∃ ev ∈ tr, leaves id ev = true

section reviews

variable {R : Rely panel} {α : Type}

abbrev Undecided (id : Int) (x : Service α) (R : Rely panel) : Prop :=
  Call.Outside (S := panel) R (fun _ => True) x
    fun tr r => ∀ e, r = .error e → Call.Quiet tr ∨ Decides id tr

theorem undecided_approve (hR : Steady R) (adminId id : Int) (scope : Scope) :
    Undecided id (DepositService.approve adminId id scope) R := by
  refine (Ledger.atomic_approve hR adminId id scope).mono ?_
  exact fun tr r h e he => .inl (h e he)

theorem undecided_reject (hR : Steady R) (adminId id : Int) (reason : String) (scope : Scope) :
    Undecided id (DepositService.reject adminId id reason scope) R := by
  unfold DepositService.reject
  split
  · exact Call.outside_throw fun _ _ => .inl Call.quiet_nil
  refine Call.outside_bind (Ledger.quiet_get id scope) ?_ (fun tr e h _ _ => .inl h)
  intro tr _ hq
  refine Call.outside_bind (P := fun tr _ => Call.Quiet tr)
    (Call.outside_ask fun _ => Call.quiet_single (by simp)) ?_ (fun tr' e h _ _ => .inl (hq.append h))
  intro tr' now hq'
  refine Call.outside_bind (P := fun tr r => (r = .ok true ∧ Decides id tr) ∨
    (r ≠ .ok true ∧ Call.Quiet tr)) (Call.outside_update ?_
      (fun _ _ _ => .inr ⟨by simp, Call.quiet_single (by simp)⟩)
      (.inr ⟨by simp, Call.quiet_single (by simp)⟩)) ?_ ?_
  · intro v hv hg
    refine ⟨hR.reviewed _ v _ hv rfl, trivial, .inl ⟨rfl, _, List.mem_singleton.mpr rfl, ?_⟩⟩
    rw [leaves_commit (Pending.one_held (S := panel) ..)]
    simp [decided, (reviewable_iff.mp hg).2]
  · intro last moved h
    cases moved with
    | false =>
      obtain ⟨hf, -⟩ | ⟨-, hlast⟩ := h
      · cases hf
      · exact Call.outside_throw fun _ _ => .inl (by simpa using hq.append (hq'.append hlast))
    | true =>
      obtain ⟨-, ev, hev, hl⟩ | ⟨hne, -⟩ := h
      · refine (Ledger.quiet_get id scope).mono ?_
        intro rest r _ e _
        exact .inr ⟨ev, by simp [hev], hl⟩
      · exact absurd rfl hne
  · rintro last e (⟨hf, -⟩ | ⟨-, hlast⟩) _ _
    · cases hf
    · exact .inl (hq.append (hq'.append hlast))

theorem request_undecided (hR : Steady R) (req : Request) :
    Call.Outside (S := panel) R (fun _ => True) req.run fun tr r => ∀ id, Reviews req id →
      ∀ e, r = .error e → Call.Quiet tr ∨ Decides id tr := by
  have hrest : ∀ req : Request, (∀ id, ¬Reviews req id) →
      Call.Outside (S := panel) R (fun _ => True) req.run fun tr r => ∀ id, Reviews req id →
        ∀ e, r = .error e → Call.Quiet tr ∨ Decides id tr :=
    fun req hn => (anything R hR req).mono fun _ _ _ id h => absurd h (hn id)
  have hmap : ∀ {x : Service ManualDepositRequest} {req : Request} {id : Int},
      (∀ id', Reviews req id' → id' = id) → Undecided id x R →
      Call.Outside (S := panel) R (fun _ => True) ((fun _ => Reply.done) <$> x) fun tr r =>
        ∀ id, Reviews req id → ∀ e, r = .error e → Call.Quiet tr ∨ Decides id tr := by
    intro x req id hid h
    refine Call.outside_map (h.mono ?_)
    rintro tr (e | d) hq id' hreq e' he
    · obtain rfl := hid id' hreq
      exact hq e rfl
    · cases he
  cases req with
  | approve adminId id scope =>
    exact hmap (by simp [Reviews, eq_comm]) (undecided_approve hR adminId id scope)
  | reject adminId id reason scope =>
    exact hmap (by simp [Reviews, eq_comm]) (undecided_reject hR adminId id reason scope)
  | _ => exact hrest _ (by simp [Reviews])

end reviews

theorem deposit_lifecycle {ι : Type} [DecidableEq ι] {s : Store panel} {req : ι → Request}
    (hs : Sane s) (hsettled : Settled s) {w : Panel ι}
    (hr : World.Reachable (Panel.boot s req) w) :
    (∀ id (d : ManualDepositRequest), w.store.row (.deposit id) = some d →
      (d.status = .approved ↔ ∃ e, approvals id w.store.log = [e] ∧ Granted d e) ∧
      (d.status ≠ .approved → approvals id w.store.log = [])) ∧
    (∀ id, w.hist.countP (fun e => leaves id e.2) ≤ 1) ∧
    ∀ i id e, Reviews (req i) id → (w.th i).prog = .ret (.error e) →
      (∀ p, (i, .commit p) ∈ w.hist → leaves id (.commit p) = false) →
      (∀ p, (i, .commit p) ∉ w.hist) ∧ w.store = World.replay s (w.hist.filter (·.1 ≠ i)) := by
  have hmeets := pinned_meets hs hr fun i => request_undecided (pinned_steady s w.store) (req i)
  have hadm := pinned_admitted hs hr
  refine ⟨?_, ?_, ?_⟩
  · have hinv := World.store_invariant (I := Settled) hmeets hsettled
      (fun i p s' hp hset ha _ => settled_apply hp hset ha) hr hadm
    intro id d hd
    have h := hinv id
    rw [hd] at h
    exact accounted_iff h
  · intro id
    have hcount := decided_count hs.users hr id
    have hbound : ∀ v, decided v ≤ 1 := by
      intro v
      cases v with
      | none => simp [decided]
      | some d =>
        simp only [decided]
        split <;> omega
    exact hcount.trans (hbound _)
  · intro i id e hreq he hnone
    have hsound := World.sound_reachable hmeets hr hadm
    have hpost := hsound.post he id hreq e rfl
    rw [hsound.past i] at hpost
    have hquiet : Call.Quiet (w.events i) := by
      rcases hpost with hq | ⟨ev, hev, hl⟩
      · exact hq
      · cases ev with
        | commit p => simp [hnone p (World.mem_events.mp hev)] at hl
        | _ => cases hl
    have hfree : ∀ p, (i, .commit p) ∉ w.hist := fun p hp => hquiet p (World.mem_events.mpr hp)
    exact ⟨hfree, by rw [World.replay_without hfree]; exact World.store_eq_replay hr⟩

def oneRequest : Store panel where
  row k := match k with
    | .user id => if id = 1 then some ⟨1, "buyer", .member, 1, 100, 0⟩ else none
    | .deposit id => if id = 5 then some ⟨1, 1, 50, "card", "", .pending, "", 0, 0⟩ else none
    | .tenant _ | .product _ | .order _ | .payment _ => none
  log := []

def rivals : Bool → Request
  | false => .approve 9 5 ⟨1, false⟩
  | true => .reject 8 5 "duplicate" ⟨0, true⟩

theorem oneRequest_sane : Sane oneRequest where
  users id u h := by
    simp only [oneRequest] at h
    split at h
    · obtain rfl := Option.some.inj h
      decide
    · cases h
  deposits id d h := by
    simp only [oneRequest] at h
    split at h
    · obtain rfl := Option.some.inj h
      decide
    · cases h

theorem oneRequest_settled : Settled oneRequest := by
  intro id
  simp only [oneRequest]
  by_cases h : id = 5
  · simp only [h, if_true]
    exact .ungranted (by simp)
  · simp only [h, if_false]
    rfl

theorem deposit_lifecycle_rivals : ∃ w, World.Reachable (Panel.boot oneRequest rivals) w ∧
    (∃ d : ManualDepositRequest, w.store.row (.deposit 5) = some d ∧ d.status = .approved ∧
      ∃ e, approvals 5 w.store.log = [e] ∧ Granted d e) ∧
    w.hist.countP (fun e => leaves 5 e.2) ≤ 1 ∧
    w.store = World.replay oneRequest (w.hist.filter (·.1 ≠ true)) := by
  have hrun : ((Panel.boot oneRequest rivals).exec
      ([(true, .go), (true, .answer refusing)] ++ List.replicate 3 (false, .go) ++
        [(false, .answer refusing)] ++ List.replicate 5 (false, .go) ++ [(true, .go)])).map
      (fun w => ((w.store.row (.deposit 5)).map fun (d : ManualDepositRequest) => d.status,
        (w.th true).prog.outcome, (w.events true).any (leaves 5))) =
      some (some .approved, some (.error .depositNotPending), false) := by decide +kernel
  obtain ⟨w, hr, he⟩ := World.exec_reaches hrun
  obtain ⟨⟨d, hd, hst⟩, hret, hnone⟩ : (∃ _, _) ∧ _ ∧ _ := by simpa using he
  obtain ⟨hrows, hcount, herr⟩ := deposit_lifecycle oneRequest_sane oneRequest_settled hr
  refine ⟨w, hr, ⟨d, hd, hst, (hrows 5 d hd).1.mp hst⟩, hcount 5, ?_⟩
  exact (herr true 5 _ (.inr ⟨_, _, _, rfl⟩) (Prog.ret_of_outcome hret)
    fun p hp => hnone _ (World.mem_events.mpr hp)).2

end Review

end QuiPanel
