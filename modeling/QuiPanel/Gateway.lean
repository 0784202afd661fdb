import QuiPanel.Settlement

namespace QuiPanel

open ReadCommitted Ledger Settlement List

instance Request.settlesDecidable (req : Request) (a : String) : Decidable (req.settles a) := by
  cases req with
  | zarinpalCallback _ b _ => exact inferInstanceAs (Decidable (b = a))
  | plisioCallback form => exact inferInstanceAs (Decidable (form.orderNumber = a))
  | _ => exact isFalse id

namespace Gateway

def phase (tr : Trace) : Trace := tr.takeWhile fun ev => ev.entries.isEmpty

def later (tr : Trace) : Trace := (tr.dropWhile fun ev => ev.entries.isEmpty).tail

def Payable (p : Payment) (rest : Trace) : Prop :=
  Covered [topUp p.userId p.amount] (phase rest) ∧
    (0 < p.bonusAmount → Covered [topUp p.userId p.bonusAmount] (phase (later rest)))

def Credited (p : Payment) (es : List Transaction) : Prop :=
  if 0 < p.bonusAmount then
    ∃ d b, es = [d, b] ∧ Credit p.userId p.amount d ∧ Credit p.userId p.bonusAmount b
  else ∃ d, es = [d] ∧ Credit p.userId p.amount d

structure AtMostOnce (p : Payment) (es : List Transaction) : Prop where
  split : ∃ ds bs, es = ds ++ bs ∧ ds.length ≤ 1 ∧ bs.length ≤ (if 0 < p.bonusAmount then 1 else 0) ∧
    (∀ e ∈ ds, Credit p.userId p.amount e) ∧ ∀ e ∈ bs, Credit p.userId p.bonusAmount e

section phases

variable {tr tr' rest : Trace} {p : Payment}

theorem quiet_entries (h : Call.Quiet tr) : ∀ ev ∈ tr, ev.entries.isEmpty = true := by
  intro ev he
  cases ev with
  | commit p => exact absurd he (h p)
  | _ => rfl

theorem phase_quiet (h : Call.Quiet tr) : phase (tr ++ tr') = tr ++ phase tr' :=
  takeWhile_append_of_pos (quiet_entries h)

theorem later_quiet (h : Call.Quiet tr) : later (tr ++ tr') = later tr' := by
  have hdrop : (tr ++ tr').dropWhile (fun (ev : Event panel) => ev.entries.isEmpty) =
      tr'.dropWhile fun ev => ev.entries.isEmpty := dropWhile_append_of_pos (quiet_entries h)
  simp only [later, hdrop]

theorem phase_commit {p : Pending panel} {e : Transaction} (h : p.log = [e]) :
    phase (.commit p :: tr) = [] := by
  simp [phase, Event.entries, h]

theorem later_commit {p : Pending panel} {e : Transaction} (h : p.log = [e]) :
    later (.commit p :: tr) = tr := by
  simp [later, Event.entries, h]

theorem covered_left {legs : List Leg} (h : Covered legs (tr ++ tr')) : Covered legs tr := by
  obtain ⟨hs, hl⟩ := h
  rw [countP_append] at hl
  exact ⟨(smooth_append.mp hs).1, by omega⟩

theorem pays_iff {user : Int} {amount : Int64} (h : Pays user amount tr) (tr' : Trace) :
    (Covered [topUp user amount] (phase (tr ++ tr')) ↔ ∃ e, log tr = [e] ∧ Credit user amount e) ∧
      (log tr = [] ∨ ∃ e, log tr = [e] ∧ Credit user amount e ∧ later (tr ++ tr') = tr') := by
  cases h with
  | @credited mid p e hq hc hlog he _ =>
    have hone : log (mid ++ [.commit p]) = [e] := by
      rw [log_append, log_quiet hq]
      simp [log, Event.entries, hlog]
    have hphase : phase (mid ++ [.commit p] ++ tr') = mid := by
      rw [append_assoc, phase_quiet hq, singleton_append, phase_commit hlog, append_nil]
    have hlater : later (mid ++ [.commit p] ++ tr') = tr' := by
      rw [append_assoc, later_quiet hq, singleton_append, later_commit hlog]
    rw [hphase]
    exact ⟨⟨fun _ => ⟨e, hone, he⟩, fun _ => hc⟩, .inr ⟨e, hone, he, hlater⟩⟩
  | refused hq hc =>
    have hnone := log_quiet hq
    refine ⟨⟨fun hcov => absurd ?_ hc, by simp [hnone]⟩, .inl hnone⟩
    rw [phase_quiet hq] at hcov
    exact covered_left hcov

theorem credits_iff (h : Credits p rest) : Credited p (log rest) ↔ Payable p rest := by
  cases h with
  | plain h hb =>
    obtain ⟨hcov, -⟩ := pays_iff h []
    rw [append_nil] at hcov
    simp only [Credited, Payable, hb, if_false, false_imp_iff, and_true]
    exact hcov.symm
  | @bonus tr tr' h hb h' =>
    obtain ⟨hcov, hlog⟩ := pays_iff h tr'
    obtain ⟨hcov', hlog'⟩ := pays_iff h' []
    rw [append_nil] at hcov'
    simp only [Credited, Payable, hb, if_true, true_imp_iff, log_append]
    rcases hlog with hnone | ⟨e, hone, he, hlater⟩
    · have hrefused : ¬Covered [topUp p.userId p.amount] (phase (tr ++ tr')) := by
        simp [hcov, hnone]
      refine ⟨?_, fun hpay => absurd hpay.1 hrefused⟩
      rintro ⟨d, b, hes, -⟩
      rcases hlog' with hnone' | ⟨e', hone', -⟩
      · simp [hnone, hnone'] at hes
      · simp [hnone, hone'] at hes
    · rw [hlater, hcov', hcov]
      constructor
      · rintro ⟨d, b, hes, hd, hb'⟩
        rw [hone, singleton_append, List.cons.injEq] at hes
        obtain ⟨rfl, hes⟩ := hes
        exact ⟨⟨e, hone, hd⟩, b, hes, hb'⟩
      · rintro ⟨-, e', hone', he'⟩
        exact ⟨e, e', by rw [hone, hone', singleton_append], he, he'⟩

theorem credits_once (h : Credits p rest) : AtMostOnce p (log rest) := by
  have hsome : ∀ {user amount} {tr : Trace}, Pays user amount tr →
      (log tr).length ≤ 1 ∧ ∀ e ∈ log tr, Credit user amount e := by
    intro user amount tr h
    rcases (pays_iff h []).2 with hnone | ⟨e, hone, he, -⟩
    · simp [hnone]
    · simpa [hone] using he
  cases h with
  | plain h hb =>
    obtain ⟨hlen, hmem⟩ := hsome h
    exact ⟨_, [], by simp, hlen, by simp, hmem, by simp⟩
  | bonus h hb h' =>
    obtain ⟨hlen, hmem⟩ := hsome h
    obtain ⟨hlen', hmem'⟩ := hsome h'
    exact ⟨_, _, log_append _ _, hlen, by rw [if_pos hb]; exact hlen', hmem, hmem'⟩

end phases

variable {ι : Type}

def Idle [DecidableEq ι] (w : Panel ι) (i : ι) : Prop := w.events i = [] ∨ (w.th i).prog.outcome.isSome

def Resting [DecidableEq ι] (req : ι → Request) (a : String) (w : Panel ι) : Prop :=
  ∀ i, (req i).settles a → Idle w i

def callbackLog (req : ι → Request) (a : String) (w : Panel ι) : List Transaction :=
  (w.hist.filter fun e => (req e.1).settles a).flatMap fun e => e.2.entries

structure FlippedBy (req : ι → Request) (a : String) (w : Panel ι) (i : ι) (p : Payment) : Prop where
  paid : p.status = .paid
  settles : (req i).settles a
  once : ∃ pre old rest, w.hist = pre ++ (i, paying a old p) :: rest ∧
    ∀ e ∈ pre ++ rest, flips a e.2 = false

def Tracked (req : ι → Request) (a : String) (w : Panel ι) : Prop :=
  (∃ i p, w.store.row (.payment a) = some p ∧ FlippedBy req a w i p) ∨
    ((∀ p, w.store.row (.payment a) = some p → (p : Payment).status ≠ .paid) ∧
      ∀ e ∈ w.hist, flips a e.2 = false)

section flipping

variable {s : Store panel} {req : ι → Request} {a : String} {w w' : Panel ι}

theorem flips_paying {old new : Payment} (h : new.status = .paid) : flips a (paying a old new) = true := by
  simp [flips, paying, h]

variable {p : Pending panel}

theorem flips_held {old : Option Payment} {new : Payment}
    (h : p.held (.payment a) = some (old, new)) :
    flips a (.commit p) = true ↔ new.status = .paid := by
  simp [flips, h]

theorem flips_free (h : p.held (.payment a) = none) :
    flips a (.commit p) = false := by
  simp [flips, h]

theorem tracked_quiet {i : ι} {ev : Event panel} (hrow : w'.store.row (.payment a) = w.store.row (.payment a))
    (hhist : w'.hist = w.hist ++ [(i, ev)]) (hev : flips a ev = false) (h : Tracked req a w) :
    Tracked req a w' := by
  have hmem : ∀ e ∈ w'.hist, e ∈ w.hist ∨ e = (i, ev) := by simp [hhist]
  rcases h with ⟨j, p, hp, hpaid, hset, pre, old, rest, hw, hfree⟩ | ⟨hp, hfree⟩
  · refine .inl ⟨j, p, hrow ▸ hp, hpaid, hset, pre, old, rest ++ [(i, ev)], by simp [hhist, hw], ?_⟩
    intro e he
    rw [← append_assoc] at he
    rcases mem_append.mp he with he | he
    · exact hfree e he
    · rw [mem_singleton.mp he]
      exact hev
  · refine .inr ⟨hrow ▸ hp, ?_⟩
    intro e he
    rcases hmem e he with he | rfl
    · exact hfree e he
    · exact hev

theorem tracked_row {p : Payment} (h : Tracked req a w) (hp : w.store.row (.payment a) = some p)
    (hne : p.status ≠ .paid) : ∀ e ∈ w.hist, flips a e.2 = false := by
  rcases h with ⟨j, q, hq, hby⟩ | ⟨-, hfree⟩
  · obtain rfl := Option.mem_unique hp hq
    exact absurd hby.paid hne
  · exact hfree

theorem tracked_none (h : Tracked req a w) (hp : w.store.row (.payment a) = none) :
    ∀ e ∈ w.hist, flips a e.2 = false := by
  rcases h with ⟨j, q, hq, -⟩ | ⟨-, hfree⟩
  · simp [hp] at hq
  · exact hfree

theorem tracked_commit {R : Rely panel} {i : ι}
    (he : Effect R (req i) p) (ha : p.Agrees w.store) (hst : w'.store = p.apply w.store)
    (hhist : w'.hist = w.hist ++ [(i, .commit p)]) (h : Tracked req a w) : Tracked req a w' := by
  cases hh : p.held (.payment a) with
  | none =>
    have hrow : w'.store.row (.payment a) = w.store.row (.payment a) := by
      rw [hst, Pending.apply_row_of_free hh]
    exact tracked_quiet hrow hhist (flips_free hh) h
  | some b =>
    obtain ⟨old, new⟩ := b
    have hrow : w'.store.row (.payment a) = some new := by
      rw [hst, Pending.apply_row_of_held hh]
    have hold := ha _ _ _ hh
    obtain ⟨hmove, hone⟩ := effect_payment he hh
    have hkept : (new : Payment).status ≠ .paid → (∀ e ∈ w.hist, flips a e.2 = false) →
        Tracked req a w' := by
      intro hne hfree
      refine .inr ⟨?_, ?_⟩
      · intro q hq
        obtain rfl := Option.mem_unique hrow hq
        exact hne
      · intro e hm
        rw [hhist, mem_append, mem_singleton] at hm
        rcases hm with hm | rfl
        · exact hfree e hm
        · exact Bool.eq_false_iff.mpr fun hf => hne ((flips_held hh).mp hf)
    cases hmove with
    | opened hp _ _ => exact hkept (by simp [hp]) (tracked_none h hold)
    | failed hpend hnew _ => exact hkept (by simp [hnew]) (tracked_row h hold (by simp [hpend]))
    | @paid old hreq hpend hnew _ =>
      have hfree := tracked_row h hold (by simp [hpend])
      refine .inl ⟨i, new, hrow, hnew, hreq, w.hist, old, [], ?_, by simpa using hfree⟩
      rw [hhist, hone]
      rfl

theorem tracked_reachable [DecidableEq ι]
    (husers : ∀ id (u : User), s.row (.user id) = some u → 0 ≤ u.balance)
    (hopen : ∀ p : Payment, s.row (.payment a) = some p → p.status ≠ .paid)
    (hr : World.Reachable (Panel.boot s req) w) : Tracked req a w := by
  refine (World.run_induction (C := Tracked req a) (solvent_meets husers req)
    (.inr ⟨hopen, by simp [World.start]⟩) ?_ hr
    (solvent_admitted husers hr)).2
  intro w i ev t w' _ hw' hC hm
  by_cases he : ∃ p, ev = .commit p
  · obtain ⟨p, rfl⟩ := he
    obtain ⟨ha, hst⟩ := hm.commit p rfl
    exact tracked_commit (hw'.commits i p (by simp [hm.hist])) ha hst hm.hist hC
  · have hev : flips a ev = false := by
      cases ev with
      | commit p => exact absurd ⟨p, rfl⟩ he
      | _ => rfl
    exact tracked_quiet (by rw [hm.quiet fun p hp => he ⟨p, hp⟩]) hm.hist hev hC

end flipping

theorem split_unique {α : Type} {f : α → Bool} {x x' : α} {pre pre' rest rest' : List α}
    (h : pre ++ x :: rest = pre' ++ x' :: rest') (hx' : f x' = true)
    (hfree : ∀ y ∈ pre ++ rest, f y = false) : pre = pre' ∧ x = x' ∧ rest = rest' := by
  induction pre generalizing pre' with
  | nil =>
    cases pre' with
    | nil => exact ⟨rfl, List.cons.inj h⟩
    | cons y ys =>
      have hmem : x' ∈ rest := by simp [(List.cons.inj h).2]
      simp [hfree x' hmem] at hx'
  | cons y ys ih =>
    cases pre' with
    | nil =>
      obtain rfl := (List.cons.inj h).1
      simp [hfree y (by simp)] at hx'
    | cons z zs =>
      obtain ⟨rfl, htail⟩ := List.cons.inj h
      obtain ⟨rfl, hrest⟩ := ih htail fun e he => hfree e (mem_cons_of_mem _ he)
      exact ⟨rfl, hrest⟩

variable {a : String}

theorem paying_inj {old old' new new' : Payment}
    (h : paying a old new = paying a old' new') : new = new' := by
  have hheld := congrArg (fun p : Pending panel => p.held (.payment a)) (Event.commit.inj h)
  simp only [Pending.one_held (S := panel)] at hheld
  exact (Prod.mk.inj (Option.some.inj hheld)).2

theorem settles_cases {tr : Trace} (h : Calm a tr ∨ Attempt a tr) :
    Calm a tr ∨ ∃ pre old new rest, tr = pre ++ paying a old new :: rest ∧ Still pre ∧
      new.status = .paid ∧ (0 < new.bonusAmount → new.gateway = .plisio) ∧ Credits new rest := by
  rcases h with h | h
  · exact .inl h
  · cases h with
    | missed hpre _ _ =>
      exact .inl (hpre.calm.append (calm_single rfl rfl))
    | flipped hpre hnew hgate hrest => exact .inr ⟨_, _, _, _, rfl, hpre, hnew, hgate, hrest⟩

section resting

variable [DecidableEq ι] {s : Store panel} {req : ι → Request} {a : String} {w : Panel ι} {i : ι}
variable {p : Payment}

theorem billed_rows (hs : Sane s) (hpriced : ∀ k, Priced k (s.row k))
    (hr : World.Reachable (Panel.boot s req) w) (k : Key) : Billed s w.store k (s.row k) :=
  ⟨pinned_rows hs hr k, hpriced k⟩

theorem concluded (hs : Sane s) (hpriced : ∀ k, Priced k (s.row k))
    (hr : World.Reachable (Panel.boot s req) w) {r : Except Err Reply}
    (hret : (w.th i).prog = .ret r) : Concludes w.store (req i) (w.events i) r := by
  have hmeets := terms_meets (billed_steady s w.store) (billed_rows hs hpriced hr)
    fun i => request_concludes s w.store (req i)
  have hsound := World.sound_reachable hmeets hr (billed_admitted hs hr)
  have hpost : Concludes w.store (req i) (w.th i).frame.past r := hsound.post hret
  rwa [hsound.past i] at hpost

theorem idle_cases (hs : Sane s) (hpriced : ∀ k, Priced k (s.row k))
    (hr : World.Reachable (Panel.boot s req) w) (hset : (req i).settles a) (hidle : Idle w i) :
    Calm a (w.events i) ∨ ∃ pre old new rest, w.events i = pre ++ paying a old new :: rest ∧
      Still pre ∧ new.status = .paid ∧ (0 < new.bonusAmount → new.gateway = .plisio) ∧
      Credits new rest := by
  rcases hidle with hnil | hret
  · rw [hnil]
    exact .inl still_nil.calm
  · obtain ⟨r, hret⟩ := Option.isSome_iff_exists.mp hret
    have hend := concluded hs hpriced hr (Prog.ret_of_outcome hret)
    exact settles_cases (concludes_settles hset hend)

theorem idle_silent (hs : Sane s) (hpriced : ∀ k, Priced k (s.row k))
    (hr : World.Reachable (Panel.boot s req) w) (hset : (req i).settles a) (hidle : Idle w i)
    (hfree : ∀ ev ∈ w.events i, flips a ev = false) : log (w.events i) = [] := by
  rcases idle_cases hs hpriced hr hset hidle with hcalm | ⟨pre, old, new, rest, htr, -, hnew, -⟩
  · exact hcalm.silent
  · have hf := hfree (paying a old new) (by simp [htr])
    rw [flips_paying hnew] at hf
    cases hf

theorem flipped_events (hby : FlippedBy req a w i p) :
    ∃ pre old rest, w.events i = pre ++ paying a old p :: rest ∧
      (∀ ev ∈ pre ++ rest, flips a ev = false) ∧
      ∀ j, j ≠ i → ∀ ev ∈ w.events j, flips a ev = false := by
  obtain ⟨pre, old, rest, hw, hfree⟩ := hby.once
  refine ⟨(pre.filter (·.1 = i)).map (·.2), old, (rest.filter (·.1 = i)).map (·.2),
    by simp [World.events, hw], ?_, ?_⟩
  · intro ev he
    simp only [← map_append, ← filter_append, mem_map, mem_filter] at he
    obtain ⟨e, ⟨he, -⟩, rfl⟩ := he
    exact hfree e he
  · intro j hj ev he
    have hmem := World.mem_events.mp he
    rw [hw, mem_append, mem_cons] at hmem
    apply hfree (j, ev)
    rcases hmem with h | h | h
    · exact mem_append_left _ h
    · exact absurd (Prod.mk.inj h).1 hj
    · exact mem_append_right _ h

theorem flatMap_single {hist : List (ι × Event panel)} (hset : (req i).settles a)
    (h : ∀ e ∈ hist, (req e.1).settles a → e.1 ≠ i → e.2.entries = []) :
    (hist.filter fun e => (req e.1).settles a).flatMap (fun e => e.2.entries) =
      log ((hist.filter (·.1 = i)).map (·.2)) := by
  induction hist with
  | nil => rfl
  | cons e hist ih =>
    have ih := ih fun e' he => h e' (mem_cons_of_mem _ he)
    have he := h e (mem_cons_self ..)
    by_cases hi : e.1 = i
    · simp [hi, hset, ih, log_cons]
    · by_cases hj : (req e.1).settles a
      · simp [hi, hj, he hj hi, ih]
      · simp [hi, hj, ih]

theorem callbackLog_single (hset : (req i).settles a)
    (h : ∀ j, (req j).settles a → j ≠ i → log (w.events j) = []) :
    callbackLog req a w = log (w.events i) := by
  refine flatMap_single hset ?_
  rintro ⟨j, ev⟩ he hj hne
  exact flatMap_eq_nil_iff.mp (h j hj hne) ev (World.mem_events.mpr he)

theorem callbackLog_quiet (h : ∀ j, (req j).settles a → log (w.events j) = []) :
    callbackLog req a w = [] := by
  refine flatMap_eq_nil_iff.mpr ?_
  rintro ⟨j, ev⟩ he
  obtain ⟨he, hj⟩ := mem_filter.mp he
  exact flatMap_eq_nil_iff.mp (h j (of_decide_eq_true hj)) ev (World.mem_events.mpr he)

theorem flipped_credits (hs : Sane s) (hpriced : ∀ k, Priced k (s.row k))
    (hr : World.Reachable (Panel.boot s req) w) (hrest : Resting req a w)
    (hby : FlippedBy req a w i p) : ∃ pre old rest, w.events i = pre ++ paying a old p :: rest ∧
      (∀ ev ∈ pre ++ rest, flips a ev = false) ∧ (0 < p.bonusAmount → p.gateway = .plisio) ∧
      Credits p rest ∧ callbackLog req a w = log rest := by
  obtain ⟨pre, old, rest, htr, hfree, hothers⟩ := flipped_events hby
  have hlog : callbackLog req a w = log (w.events i) := callbackLog_single hby.settles
    fun j hj hne => idle_silent hs hpriced hr hj (hrest j hj) (hothers j hne)
  rcases idle_cases hs hpriced hr hby.settles (hrest i hby.settles) with
    hcalm | ⟨pre', old', new, rest', htr', hstill, hnew, hgate, hcredits⟩
  · have hno := hcalm.unflipped (paying a old p) (by simp [htr])
    rw [flips_paying hby.paid] at hno
    cases hno
  · obtain ⟨rfl, hev, rfl⟩ := split_unique (htr.symm.trans htr') (flips_paying hnew) hfree
    obtain rfl := paying_inj hev
    refine ⟨pre, old, rest, htr, hfree, hgate, hcredits, ?_⟩
    rw [hlog, htr, log_append, log_quiet hstill.quiet, log_cons]
    rfl

end resting

theorem callbackLog_sublist [DecidableEq ι] {s : Store panel} {req : ι → Request}
    {w : Panel ι} (hr : World.Reachable (Panel.boot s req) w) :
    (callbackLog req a w).Sublist w.store.log := by
  rw [World.store_eq_replay hr, World.replay_log]
  have hall := (filter_sublist (p := fun e => decide ((req e.1).settles a)) (l := w.hist)).flatMap
    fun e => e.2.entries
  exact hall.trans (sublist_append_right ..)

section settled

variable [DecidableEq ι] {s : Store panel} {req : ι → Request} {a : String} {w : Panel ι}

theorem silent_log (hs : Sane s) (hpriced : ∀ k, Priced k (s.row k))
    (hr : World.Reachable (Panel.boot s req) w) (hrest : Resting req a w)
    (hfree : ∀ e ∈ w.hist, flips a e.2 = false) : callbackLog req a w = [] := by
  apply callbackLog_quiet
  intro j hj
  exact idle_silent hs hpriced hr hj (hrest j hj) fun ev he => hfree (j, ev) (World.mem_events.mp he)

theorem settled_iff (hs : Sane s) (hpriced : ∀ k, Priced k (s.row k))
    (hopen : ∀ p : Payment, s.row (.payment a) = some p → p.status ≠ .paid)
    (hr : World.Reachable (Panel.boot s req) w) (hrest : Resting req a w) :
    (∀ p : Payment, w.store.row (.payment a) = some p →
      (p.status = .paid ↔ Credited p (callbackLog req a w))) ↔
    ∀ i pre old (p : Payment) rest, w.events i = pre ++ paying a old p :: rest →
      p.status = .paid → Payable p rest := by
  rcases tracked_reachable hs.users hopen hr with ⟨i, p, hp, hby⟩ | ⟨hunpaid, hfree⟩
  · obtain ⟨pre, old, rest, htr, honly, -, hcredits, hlog⟩ := flipped_credits hs hpriced hr hrest hby
    obtain ⟨_, _, _, -, -, hothers⟩ := flipped_events hby
    constructor
    · intro h j pre' old' q rest' htr' hq
      obtain rfl : j = i := by
        by_contra hne
        have hno := hothers j hne (paying a old' q) (by simp [htr'])
        rw [flips_paying hq] at hno
        cases hno
      obtain ⟨-, hev, rfl⟩ := split_unique (htr.symm.trans htr') (flips_paying hq) honly
      obtain rfl := paying_inj hev
      exact (credits_iff hcredits).mp (hlog ▸ (h p hp).mp hby.paid)
    · intro h q hq
      obtain rfl := Option.mem_unique hp hq
      rw [hlog]
      exact iff_of_true hby.paid ((credits_iff hcredits).mpr (h i pre old p rest htr hby.paid))
  · constructor
    · intro _ j pre old q rest htr hq
      have hno := hfree (j, paying a old q) (World.mem_events.mp (by simp [htr]))
      rw [flips_paying hq] at hno
      cases hno
    · intro _ p hp
      rw [silent_log hs hpriced hr hrest hfree]
      exact iff_of_false (hunpaid p hp) (by unfold Credited; split <;> simp)

theorem settled_once (hs : Sane s) (hpriced : ∀ k, Priced k (s.row k))
    (hopen : ∀ p : Payment, s.row (.payment a) = some p → p.status ≠ .paid)
    (hr : World.Reachable (Panel.boot s req) w) (hrest : Resting req a w) {p : Payment}
    (hp : w.store.row (.payment a) = some p) : AtMostOnce p (callbackLog req a w) := by
  rcases tracked_reachable hs.users hopen hr with ⟨i, q, hq, hby⟩ | ⟨-, hfree⟩
  · obtain rfl := Option.mem_unique hp hq
    obtain ⟨_, _, _, -, -, -, hcredits, hlog⟩ := flipped_credits hs hpriced hr hrest hby
    rw [hlog]
    exact credits_once hcredits
  · rw [silent_log hs hpriced hr hrest hfree]
    exact ⟨[], [], rfl, by simp, by simp, by simp, by simp⟩

theorem paid_bonus (hs : Sane s) (hpriced : ∀ k, Priced k (s.row k))
    (hopen : ∀ p : Payment, s.row (.payment a) = some p → p.status ≠ .paid)
    (hr : World.Reachable (Panel.boot s req) w) (hrest : Resting req a w) {p : Payment}
    (hp : w.store.row (.payment a) = some p) (hpaid : p.status = .paid)
    (hb : 0 < p.bonusAmount) : p.gateway = .plisio := by
  rcases tracked_reachable hs.users hopen hr with ⟨i, q, hq, hby⟩ | ⟨hunpaid, -⟩
  · obtain rfl := Option.mem_unique hp hq
    obtain ⟨_, _, _, -, -, hgate, -, -⟩ := flipped_credits hs hpriced hr hrest hby
    exact hgate hb
  · exact absurd hpaid (hunpaid p hp)

end settled

theorem topup_credited_iff [DecidableEq ι] {s : Store panel} {req : ι → Request} {a : String}
    (hs : Sane s) (hpriced : ∀ k, Priced k (s.row k))
    (hopen : ∀ p : Payment, s.row (.payment a) = some p → p.status ≠ .paid) {w : Panel ι}
    (hr : World.Reachable (Panel.boot s req) w) (hrest : Resting req a w) :
    ((∀ p : Payment, w.store.row (.payment a) = some p →
        (p.status = .paid ↔ Credited p (callbackLog req a w))) ↔
      ∀ i pre old (p : Payment) rest, w.events i = pre ++ paying a old p :: rest →
        p.status = .paid → Payable p rest) ∧
    (∀ p : Payment, w.store.row (.payment a) = some p → AtMostOnce p (callbackLog req a w)) ∧
    (callbackLog req a w).Sublist w.store.log :=
  ⟨settled_iff hs hpriced hopen hr hrest, fun _ hp => settled_once hs hpriced hopen hr hrest hp,
    callbackLog_sublist hr⟩

def onePayment (gateway : QuiPanel.Gateway) (status : PaymentStatus) : Store panel where
  row k := match k with
    | .user id => if id = 1 then some ⟨1, "buyer", .member, 0, 0, 0⟩ else none
    | .payment a => if a = "A1" then some ⟨1, 0, gateway, "A1", 500, "", 0, status, ""⟩ else none
    | .tenant _ | .product _ | .order _ | .deposit _ => none
  log := []

theorem onePayment_sane (gateway : QuiPanel.Gateway) (status : PaymentStatus) :
    Sane (onePayment gateway status) where
  users id u h := by
    simp only [onePayment] at h
    split at h
    · obtain rfl := Option.some.inj h
      decide
    · cases h
  deposits id d h := by simp [onePayment] at h

theorem onePayment_priced (gateway : QuiPanel.Gateway) (status : PaymentStatus) (k : Key) :
    Priced k ((onePayment gateway status).row k) := by
  cases k with
  | payment a =>
    intro p h
    simp only [onePayment] at h
    split at h
    · obtain rfl := Option.some.inj h
      have hpos : (0 : Int64) < 500 := by decide
      exact ⟨hpos, fun _ => rfl⟩
    · cases h
  | _ => trivial

theorem onePayment_open {gateway : QuiPanel.Gateway} {status : PaymentStatus}
    (hs : status ≠ .paid) : ∀ p : Payment, (onePayment gateway status).row (.payment a) = some p →
      p.status ≠ .paid := by
  intro p h
  simp only [onePayment] at h
  split at h
  · obtain rfl := Option.some.inj h
    exact hs
  · cases h

def duplicated (_ : Bool) : Request := .zarinpalCallback (some 1) "A1" "OK"

def captured : (q : Query) → q.Answer
  | .verifyPayment .. => some ⟨100, "R7"⟩
  | q => refusing q

def verifyTwice : List (Bool × Choice panel) :=
  [(false, .go), (true, .go), (false, .answer captured), (true, .answer captured), (true, .go),
    (false, .go), (true, .go), (false, .go)]

theorem topup_credited_iff_duplicated : ∃ w,
    World.Reachable (Panel.boot (onePayment .zarinpal .pending) duplicated) w ∧
    Resting duplicated "A1" w ∧
    (∃ p : Payment, w.store.row (.payment "A1") = some p ∧ p.status = .paid ∧
      AtMostOnce p (callbackLog duplicated "A1" w)) ∧
    ((∀ p : Payment, w.store.row (.payment "A1") = some p →
        (p.status = .paid ↔ Credited p (callbackLog duplicated "A1" w))) ↔
      ∀ i pre old (p : Payment) rest, w.events i = pre ++ paying "A1" old p :: rest →
        p.status = .paid → Payable p rest) := by
  have hrun : ((Panel.boot (onePayment .zarinpal .pending) duplicated).exec
      (verifyTwice ++ List.replicate 5 (true, .go))).map (fun w =>
        ((w.store.row (.payment "A1")).map fun p : Payment => p.status,
          (w.th false).prog.outcome.isSome, (w.th true).prog.outcome.isSome)) =
      some (some .paid, true, true) := by decide +kernel
  obtain ⟨w, hr, he⟩ := World.exec_reaches hrun
  obtain ⟨⟨p, hp, hpaid⟩, hfirst, hsecond⟩ : (∃ _, _) ∧ _ ∧ _ := by simpa using he
  have hrest : Resting duplicated "A1" w := by
    rintro (_ | _) -
    · exact .inr hfirst
    · exact .inr hsecond
  obtain ⟨hiff, honce, -⟩ := topup_credited_iff (onePayment_sane .zarinpal .pending)
    (onePayment_priced .zarinpal .pending) (onePayment_open (by decide)) hr hrest
  exact ⟨w, hr, hrest, ⟨p, hp, hpaid, honce p hp⟩, hiff⟩

theorem paid_without_credit : ¬∀ (s : Store panel) (req : Bool → Request) (w : Panel Bool)
    (a : String), Sane s → (∀ k, Priced k (s.row k)) →
    (∀ p : Payment, s.row (.payment a) = some p → p.status ≠ .paid) →
    World.Reachable (Panel.boot s req) w → Resting req a w →
    ∀ p : Payment, w.store.row (.payment a) = some p →
      (p.status = .paid ↔ Credited p (callbackLog req a w)) := by
  intro h
  have hrun : ((Panel.boot (onePayment .zarinpal .pending) duplicated).exec
      (verifyTwice ++ [(true, .go), (true, .fault), (true, .go)])).map (fun w =>
        ((w.store.row (.payment "A1")).map fun p : Payment => (p.status, p.bonusAmount),
          (w.th false).prog.outcome.isSome, (w.th true).prog.outcome.isSome,
          (callbackLog duplicated "A1" w).isEmpty)) =
      some (some (.paid, 0), true, true, true) := by decide +kernel
  obtain ⟨w, hr, he⟩ := World.exec_reaches hrun
  obtain ⟨⟨p, hp, hpaid, hbonus⟩, hfirst, hsecond, hempty⟩ : (∃ _, _) ∧ _ ∧ _ ∧ _ := by
    simpa using he
  have hrest : Resting duplicated "A1" w := by
    rintro (_ | _) -
    · exact .inr hfirst
    · exact .inr hsecond
  have hcredited := (h _ _ w "A1" (onePayment_sane .zarinpal .pending)
    (onePayment_priced .zarinpal .pending) (onePayment_open (by decide)) hr hrest p hp).mp hpaid
  simp [Credited, hbonus, hempty] at hcredited

end Gateway

end QuiPanel
