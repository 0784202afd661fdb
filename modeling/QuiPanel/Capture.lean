import QuiPanel.Gateway

namespace QuiPanel

open ReadCommitted Ledger Settlement Gateway

namespace Capture

def fails (a : String) : Event panel → Bool
  | .commit p => (p.held (.payment a)).any fun b => (b.2 : Payment).status == .failed
  | _ => false

variable {ι : Type}

structure Unfailed (s : Store panel) (hist : List (ι × Event panel)) (a : String) : Prop where
  opening : ∀ p : Payment, s.row (.payment a) = some p → p.status ≠ .failed
  run : ∀ e ∈ hist, fails a e.2 = false

theorem fails_held {a : String} {p : Pending panel} {old : Option Payment} {new : Payment}
    (h : p.held (.payment a) = some (old, new)) :
    fails a (.commit p) = true ↔ new.status = .failed := by
  simp [fails, h]

theorem unfailed_replay {s : Store panel} {hist : List (ι × Event panel)} {a : String}
    (h : Unfailed s hist a) {p : Payment} (hp : (World.replay s hist).row (.payment a) = some p) :
    p.status ≠ .failed := by
  induction hist using List.reverseRecOn generalizing p with
  | nil => exact h.opening p hp
  | append_singleton hist e ih =>
    obtain ⟨j, ev⟩ := e
    have hfirst : Unfailed s hist a := ⟨h.opening, fun e he => h.run e (List.mem_append_left _ he)⟩
    have hlast := h.run (j, ev) (List.mem_append_right _ (List.mem_singleton.mpr rfl))
    rw [World.replay_snoc] at hp
    cases ev with
    | commit q =>
      cases hh : q.held (.payment a) with
      | none =>
        simp only [Pending.apply_row_of_free hh] at hp
        exact ih hfirst hp
      | some b =>
        obtain ⟨old, new⟩ := b
        simp only [Pending.apply_row_of_held hh, Option.some.injEq] at hp
        subst hp
        intro hf
        rw [(fails_held hh).mpr hf] at hlast
        cases hlast
    | _ => exact ih hfirst hp

section runs

variable [DecidableEq ι] {s : Store panel} {req : ι → Request} {a : String} {w : Panel ι}
variable {st : PaymentStatus}

variable (husers : ∀ id (u : User), s.row (.user id) = some u → 0 ≤ u.balance)

include husers

theorem status_keeps
    (hr : World.Reachable (Panel.boot s req) w) (hst : st ≠ .pending) {i : ι} {p : Pending panel}
    {old new : Payment} (hp : (i, .commit p) ∈ w.hist)
    (hh : p.held (.payment a) = some (some old, new)) (hold : old.status = st) :
    new.status = st := by
  obtain ⟨hmove, -⟩ := effect_payment (solvent_commits husers hr hp) hh
  cases hmove with
  | paid _ hpend _ _ => exact absurd (hold.symm.trans hpend) hst
  | failed hpend _ _ => exact absurd (hold.symm.trans hpend) hst

theorem status_lasts
    (hr : World.Reachable (Panel.boot s req) w) (hst : st ≠ .pending)
    {pre rest : List (ι × Event panel)} (hw : w.hist = pre ++ rest) {p : Payment}
    (hp : (World.replay s pre).row (.payment a) = some p) (hps : p.status = st) :
    ∃ q : Payment, w.store.row (.payment a) = some q ∧ q.status = st := by
  have hc : ∀ i p (old new : Payment), (i, .commit p) ∈ w.hist →
      p.held (.payment a) = some (some old, new) → old.status = st → new.status = st :=
    fun i p old new hp hh hold => status_keeps husers hr hst hp hh hold
  exact World.row_lasts (P := fun q : Payment => q.status = st) hc hr hw hp hps

theorem commit_lasts
    (hr : World.Reachable (Panel.boot s req) w) (hst : st ≠ .pending) {i : ι} {p : Pending panel}
    {old : Option Payment} {new : Payment} (hp : (i, .commit p) ∈ w.hist)
    (hh : p.held (.payment a) = some (old, new)) (hnew : new.status = st) :
    ∃ q : Payment, w.store.row (.payment a) = some q ∧ q.status = st := by
  obtain ⟨pre, rest, hw⟩ := List.append_of_mem hp
  have hrow : (World.replay s (pre ++ [(i, .commit p)])).row (.payment a) = some new := by
    rw [World.replay_snoc]
    exact Pending.apply_row_of_held hh
  have hsplit : w.hist = (pre ++ [(i, .commit p)]) ++ rest := by simpa using hw
  exact status_lasts husers hr hst hsplit hrow hnew

theorem unfailed_iff
    (hr : World.Reachable (Panel.boot s req) w) :
    Unfailed s w.hist a ↔ ∀ p : Payment, w.store.row (.payment a) = some p → p.status ≠ .failed := by
  constructor
  · intro h p hp
    rw [World.store_eq_replay hr] at hp
    exact unfailed_replay h hp
  · intro h
    have hfinal : ¬∃ q : Payment, w.store.row (.payment a) = some q ∧ q.status = .failed := by
      rintro ⟨q, hq, hf⟩
      exact h q hq hf
    constructor
    · intro p hp hf
      have hall : w.hist = [] ++ w.hist := rfl
      exact hfinal (status_lasts husers hr (by decide) hall hp hf)
    · rintro ⟨j, ev⟩ he
      cases ev with
      | commit p =>
        cases hh : p.held (.payment a) with
        | none => simp [fails, hh]
        | some b =>
          obtain ⟨old, new⟩ := b
          refine Bool.eq_false_iff.mpr fun hf => ?_
          exact hfinal (commit_lasts husers hr (by decide) he hh ((fails_held hh).mp hf))
      | _ => rfl

omit husers

theorem missed_row (hr : World.Reachable (Panel.boot s req) w) {i : ι} {pre : Trace} {v : Option Payment}
    {p : Payment} (hstill : Still pre) (hread : .read (.payment a) (some p) ∈ pre)
    (hw : w.events i = pre ++ [.miss (.payment a) v]) :
    ∃ u before rest, v = some u ∧ w.hist = before ++ rest ∧
      (World.replay s before).row (.payment a) = some u := by
  obtain ⟨before, rest, hhist, hpre⟩ := World.hist_split hw
  have hmem : ∀ ev, (i, ev) ∈ before → ev ∈ pre := by
    intro ev he
    rw [← hpre]
    exact List.mem_map.mpr ⟨(i, ev), List.mem_filter.mpr ⟨he, by simp⟩, rfl⟩
  have hbegin : (i, .begin) ∉ before := fun hb => hstill.begin (hmem _ hb)
  have hseen : v = (World.replay s before).row (.payment a) :=
    World.seen hr (.inr rfl) hhist hbegin
  rw [← hpre] at hread
  obtain ⟨⟨j, ev⟩, he, hev⟩ := List.mem_map.mp hread
  obtain ⟨hbefore, hj⟩ := List.mem_filter.mp he
  obtain rfl : j = i := by simpa using hj
  obtain rfl : ev = .read (.payment a) (some p) := hev
  obtain ⟨first, mid, rfl⟩ := List.append_of_mem hbefore
  have hearly : (j, .begin) ∉ first := fun hb => hbegin (List.mem_append_left _ hb)
  have hread : some p = (World.replay s first).row (.payment a) :=
    World.seen hr (.inl rfl) (by simpa using hhist) hearly
  obtain ⟨u, hu, -⟩ := World.row_keeps (P := fun _ : Payment => True) (fun _ _ _ _ _ _ _ => trivial)
    hr hhist hread.symm trivial
  exact ⟨u, _, _, hseen.trans hu, hhist, hu⟩

theorem attempt_decides (husers : ∀ id (u : User), s.row (.user id) = some u → 0 ≤ u.balance)
    (hr : World.Reachable (Panel.boot s req) w) {i : ι} (h : Attempt a (w.events i)) :
    ∃ p : Payment, w.store.row (.payment a) = some p ∧ p.status ≠ .pending := by
  generalize htr : w.events i = tr at h
  cases h with
  | @missed pre v p hpre hread hv =>
    obtain ⟨u, before, rest, rfl, hhist, hu⟩ := missed_row hr hpre hread htr
    obtain ⟨q, hq, hst⟩ := status_lasts husers hr (hv u rfl) hhist hu rfl
    exact ⟨q, hq, hst ▸ hv u rfl⟩
  | @flipped pre rest old new _ hnew _ _ =>
    have hmem : (i, paying a old new) ∈ w.hist := World.mem_events.mp (by simp [htr])
    obtain ⟨q, hq, hst⟩ := commit_lasts husers hr (by decide) hmem (Pending.one_held (S := panel) ..) hnew
    exact ⟨q, hq, by simp [hst]⟩

end runs

theorem captured_credited_iff [DecidableEq ι] {s : Store panel} {req : ι → Request} {a : String}
    (hs : Sane s) (hpriced : ∀ k, Priced k (s.row k))
    (hopen : ∀ p : Payment, s.row (.payment a) = some p → p.status ≠ .paid) {w : Panel ι}
    (hr : World.Reachable (Panel.boot s req) w) (hrest : Resting req a w)
    (hgateway : ∀ p : Payment, w.store.row (.payment a) = some p → p.gateway = .zarinpal)
    {i : ι} {user : Option Int} {status ref : String} (hi : req i = .zarinpalCallback user a status)
    (hret : (w.th i).prog = .ret (.ok (.redirect (.ok ref)))) (hconf : Confirmed (w.events i)) :
    (∃ p : Payment, w.store.row (.payment a) = some p ∧ p.status = .paid ∧
      ∃ e, callbackLog req a w = [e] ∧ Credit p.userId p.amount e) ↔
    Unfailed s w.hist a ∧ ∀ j pre old (p : Payment) rest,
      w.events j = pre ++ paying a old p :: rest → p.status = .paid → Payable p rest := by
  have hend := concluded hs hpriced hr hret
  rw [hi] at hend
  have hattempt : Attempt a (w.events i) := by
    rcases hend with ⟨-, hno⟩ | h
    · exact absurd hconf (hno ref rfl)
    · exact h
  obtain ⟨q, hq, hpend⟩ := attempt_decides hs.users hr hattempt
  have hplain : q.status = .paid → (Credited q (callbackLog req a w) ↔
      ∃ e, callbackLog req a w = [e] ∧ Credit q.userId q.amount e) := by
    intro hpaid
    have hb : ¬0 < q.bonusAmount := by
      intro hb
      have hplisio := paid_bonus hs hpriced hopen hr hrest hq hpaid hb
      rw [hgateway q hq] at hplisio
      cases hplisio
    simp only [Credited, hb, if_false]
  rw [unfailed_iff hs.users hr, ← settled_iff hs hpriced hopen hr hrest]
  constructor
  · rintro ⟨p, hp, hpaid, hcredit⟩
    obtain rfl := Option.mem_unique hq hp
    refine ⟨?_, ?_⟩
    · intro p hp
      obtain rfl := Option.mem_unique hq hp
      simp [hpaid]
    · intro p hp
      obtain rfl := Option.mem_unique hq hp
      exact iff_of_true hpaid ((hplain hpaid).mpr hcredit)
  · rintro ⟨hunfailed, hsettled⟩
    have hpaid : q.status = .paid := by
      have hf := hunfailed q hq
      cases hst : q.status with
      | pending => exact absurd hst hpend
      | paid => rfl
      | failed => exact absurd hst hf
    exact ⟨q, hq, hpaid, (hplain hpaid).mp ((hsettled q hq).mp hpaid)⟩

theorem captured_credited_iff_verified : ∃ w,
    World.Reachable (Panel.boot (onePayment .zarinpal .pending) duplicated) w ∧
    Confirmed (w.events false) ∧
    (∃ p : Payment, w.store.row (.payment "A1") = some p ∧ p.status = .paid ∧
      ∃ e, callbackLog duplicated "A1" w = [e] ∧ Credit p.userId p.amount e) ∧
    Unfailed (onePayment .zarinpal .pending) w.hist "A1" ∧
      ∀ j pre old (p : Payment) rest, w.events j = pre ++ paying "A1" old p :: rest →
        p.status = .paid → Payable p rest := by
  have hrun : ((Panel.boot (onePayment .zarinpal .pending) duplicated).exec
      (verifyTwice ++ List.replicate 5 (true, .go))).map (fun w =>
        ((w.store.row (.payment "A1")).map fun p : Payment =>
            p.status == .paid && p.gateway == .zarinpal && p.userId == 1 && p.amount == 500,
          (w.th false).prog.outcome, (w.th true).prog.outcome.isSome, (w.events false).any confirms,
          ((callbackLog duplicated "A1" w).map fun e =>
            e.userId == 1 && e.amount == 500 && e.type == .credit) == [true])) =
      some (some true, some (.ok (.redirect (.ok "R7"))), true, true, true) := by
    decide +kernel
  obtain ⟨w, hr, he⟩ := World.exec_reaches hrun
  obtain ⟨⟨p, hp, ⟨⟨hpaid, hgateway⟩, huser⟩, hamount⟩, hfirst, hsecond, hconf, hlog⟩ :
      (∃ _, _) ∧ _ ∧ _ ∧ _ ∧ _ := by simpa using he
  have hrest : Resting duplicated "A1" w := by
    rintro (_ | _) -
    · exact .inr (Option.isSome_iff_exists.mpr ⟨_, hfirst⟩)
    · exact .inr hsecond
  have hzarinpal : ∀ q : Payment, w.store.row (.payment "A1") = some q → q.gateway = .zarinpal := by
    intro q hq
    obtain rfl := Option.mem_unique hp hq
    exact hgateway
  have hcredited : ∃ p : Payment, w.store.row (.payment "A1") = some p ∧ p.status = .paid ∧
      ∃ e, callbackLog duplicated "A1" w = [e] ∧ Credit p.userId p.amount e := by
    obtain ⟨e, hone, ⟨hu, ha⟩, ht⟩ := hlog
    exact ⟨p, hp, hpaid, e, hone, hu.trans huser.symm, ha.trans hamount.symm, ht⟩
  have hret : (w.th false).prog = .ret (.ok (.redirect (.ok "R7"))) := Prog.ret_of_outcome hfirst
  have hconf : Confirmed (w.events false) := by simpa [Confirmed] using hconf
  exact ⟨w, hr, hconf, hcredited, (captured_credited_iff (onePayment_sane .zarinpal .pending)
    (onePayment_priced .zarinpal .pending) (onePayment_open (by decide)) hr hrest hzarinpal rfl hret
    hconf).mp hcredited⟩

def cancelledThenPaid : Bool → Request
  | false => .zarinpalCallback (some 1) "A1" "NOK"
  | true => .zarinpalCallback (some 1) "A1" "OK"

def cancelThenVerify : List (Bool × Choice panel) :=
  [(false, .go), (false, .go), (true, .go), (true, .answer captured), (true, .go), (true, .go)]

theorem captured_dropped : ¬∀ (s : Store panel) (req : Bool → Request) (w : Panel Bool) (a : String),
    Sane s → (∀ k, Priced k (s.row k)) →
    (∀ p : Payment, s.row (.payment a) = some p → p.status ≠ .paid) →
    World.Reachable (Panel.boot s req) w → Resting req a w →
    (∀ p : Payment, w.store.row (.payment a) = some p → p.gateway = .zarinpal) →
    ∀ i user status ref, req i = .zarinpalCallback user a status →
    (w.th i).prog = .ret (.ok (.redirect (.ok ref))) → Confirmed (w.events i) →
    ∃ p : Payment, w.store.row (.payment a) = some p ∧ p.status = .paid ∧
      ∃ e ∈ callbackLog req a w, Credit p.userId p.amount e := by
  intro h
  have hrun : ((Panel.boot (onePayment .zarinpal .pending) cancelledThenPaid).exec
      cancelThenVerify).map (fun w =>
        ((w.store.row (.payment "A1")).map fun p : Payment => (p.status, p.gateway),
          (w.th false).prog.outcome.isSome, (w.th true).prog.outcome,
          (w.events true).any confirms)) =
      some (some (.failed, .zarinpal), true, some (.ok (.redirect (.ok "R7"))), true) := by
    decide +kernel
  obtain ⟨w, hr, he⟩ := World.exec_reaches hrun
  obtain ⟨⟨p, hp, hfailed, hgateway⟩, hfirst, hsecond, hconf⟩ : (∃ _, _) ∧ _ ∧ _ ∧ _ := by
    simpa using he
  have hrest : Resting cancelledThenPaid "A1" w := by
    rintro (_ | _) -
    · exact .inr hfirst
    · exact .inr (Option.isSome_iff_exists.mpr ⟨_, hsecond⟩)
  have hzarinpal : ∀ q : Payment, w.store.row (.payment "A1") = some q → q.gateway = .zarinpal := by
    intro q hq
    obtain rfl := Option.mem_unique hp hq
    exact hgateway
  obtain ⟨q, hq, hpaid, -⟩ := h _ _ w "A1" (onePayment_sane .zarinpal .pending)
    (onePayment_priced .zarinpal .pending) (onePayment_open (by decide)) hr hrest hzarinpal true
    (some 1) "OK" "R7" rfl (Prog.ret_of_outcome hsecond) hconf
  obtain rfl := Option.mem_unique hp hq
  rw [hfailed] at hpaid
  cases hpaid

end Capture

end QuiPanel
