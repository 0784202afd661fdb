import QuiPanel.Wallet
import QuiPanel.Library.Runs

namespace QuiPanel

open ReadCommitted

structure Leg where
  user : Int
  delta : Int64
  type : TxType
  desc : String
  note : TxMeta

abbrev Trace := List (Event panel)

namespace Leg

def entry (leg : Leg) (u : User) : Transaction where
  userId := leg.user
  tenantId := u.tenantId
  amount := if leg.delta < 0 then -leg.delta else leg.delta
  type := leg.type
  description := leg.desc
  balanceBefore := u.balance
  balanceAfter := u.balance + leg.delta
  source := leg.note.source
  refId := leg.note.refId
  actor := leg.note.actor

def refuses (leg : Leg) : Option User → Bool
  | none => true
  | some u => u.balance + leg.delta < 0

def blocks (leg : Leg) : Event panel → Bool
  | .read (.user u) v => u == leg.user && leg.refuses v
  | _ => false

end Leg

def faulty : Event panel → Bool
  | .fault (.read (.user _)) => true
  | .fault (.update (.user _)) => true
  | .fault .insert => true
  | .fault .commit => true
  | _ => false

def lost : Event panel → Bool
  | .miss (.user _) _ => true
  | _ => false

def Smooth (legs : List Leg) (tr : Trace) : Prop :=
  ∀ ev ∈ tr, faulty ev = false ∧ ∀ leg ∈ legs, leg.blocks ev = false

def Covered (legs : List Leg) (tr : Trace) : Prop :=
  Smooth legs tr ∧ tr.countP lost < WalletService.walletMaxRetries

instance (legs : List Leg) (tr : Trace) : Decidable (Covered legs tr) :=
  inferInstanceAs (Decidable ((∀ ev ∈ tr, faulty ev = false ∧ ∀ leg ∈ legs, leg.blocks ev = false) ∧
    tr.countP lost < WalletService.walletMaxRetries))

def Leg.effect (leg : Leg) : Int × Int64 := (leg.user, leg.delta)

theorem covered_congr {legs legs' : List Leg} (h : legs.map Leg.effect = legs'.map Leg.effect)
    (tr : Trace) : Covered legs tr ↔ Covered legs' tr := by
  have hblocks : ∀ ev : Event panel, (∀ leg ∈ legs, leg.blocks ev = false) ↔
      ∀ leg ∈ legs', leg.blocks ev = false := by
    intro ev
    have hmap : ∀ ls : List Leg, (∀ leg ∈ ls, leg.blocks ev = false) ↔
        ∀ x ∈ ls.map Leg.effect, Leg.blocks ⟨x.1, x.2, .credit, "", ⟨.other, "", ""⟩⟩ ev = false := by
      intro ls
      rw [List.forall_mem_map]
      rfl
    rw [hmap, hmap, h]
  simp only [Covered, Smooth, hblocks]

section traces

variable {legs : List Leg} {tr tr' : Trace} {ev : Event panel}

@[simp] theorem smooth_nil : Smooth legs [] := by
  simp [Smooth]

theorem smooth_append : Smooth legs (tr ++ tr') ↔ Smooth legs tr ∧ Smooth legs tr' := by
  simp only [Smooth, List.mem_append]
  constructor
  · intro h
    exact ⟨fun ev he => h ev (.inl he), fun ev he => h ev (.inr he)⟩
  · rintro ⟨h, h'⟩ ev (he | he)
    · exact h ev he
    · exact h' ev he

theorem smooth_single :
    Smooth legs [ev] ↔ faulty ev = false ∧ ∀ leg ∈ legs, leg.blocks ev = false := by
  simp [Smooth]

theorem smooth_cons : Smooth legs (ev :: tr) ↔
    (faulty ev = false ∧ ∀ leg ∈ legs, leg.blocks ev = false) ∧ Smooth legs tr := by
  rw [← List.singleton_append, smooth_append, smooth_single]

def Idle (tr : Trace) : Prop :=
  ∀ ev ∈ tr, faulty ev = false ∧ lost ev = false ∧ ∀ leg : Leg, leg.blocks ev = false

theorem Idle.smooth (h : Idle tr) : Smooth legs tr :=
  fun ev he => ⟨(h ev he).1, fun leg _ => (h ev he).2.2 leg⟩

theorem Idle.lost (h : Idle tr) : tr.countP lost = 0 := by
  rw [List.countP_eq_zero]
  intro ev he
  simp [(h ev he).2.1]

theorem covered_idle_left (h : Idle tr) : Covered legs (tr ++ tr') ↔ Covered legs tr' := by
  simp only [Covered, smooth_append, List.countP_append, h.lost, Nat.zero_add, h.smooth, true_and]

theorem covered_idle_right (h : Idle tr') : Covered legs (tr ++ tr') ↔ Covered legs tr := by
  simp only [Covered, smooth_append, List.countP_append, h.lost, Nat.add_zero, h.smooth, and_true]

end traces

structure Funded (R : Rely panel) : Prop where
  nonneg : ∀ u (v : User), R (.user u) (some v) → 0 ≤ v.balance
  set : ∀ u (v : User) (b : Int64), R (.user u) (some v) → 0 ≤ b →
    R (.user u) (some { v with balance := b })

def Posted (leg : Leg) (p p' : Pending panel) : Prop :=
  ∃ u v : User, u.balance = v.balance ∧ 0 ≤ v.balance ∧ ¬v.balance + leg.delta < 0 ∧
    p' = (p.put (.user leg.user) (some v) ({ v with balance := v.balance + leg.delta } : User)).note
      (leg.entry u)

inductive Posting : List Leg → Pending panel → Pending panel → Prop
  | nil {p} : Posting [] p p
  | cons {leg legs p p' p''} (hfree : p.held (.user leg.user) = none) (h : Posted leg p p')
      (hrest : Posting legs p' p'') : Posting (leg :: legs) p p''

def Posts {α : Type} (legs : List Leg) (Q : Pending panel → α → Prop) : Call.Ends panel Err α :=
  fun p tr r => match r with
    | .ok a => Q p a ∧ Smooth legs tr ∧ tr.countP lost = 0
    | .error e => if e = .balanceConflict then Smooth legs tr ∧ tr.countP lost = 1
      else ¬Smooth legs tr

section inside

variable {R : Rely panel} {legs : List Leg} {p : Pending panel} {α β : Type}

variable {Q : Pending panel → α → Prop}

theorem posts_prefix {x : Service α} {tr : Trace}
    (hs : Smooth legs tr) (hl : tr.countP lost = 0)
    (hx : Call.Inside (S := panel) R x p (Posts legs Q)) :
    Call.Inside (S := panel) R x p fun p' tr' r => Posts legs Q p' (tr ++ tr') r := by
  refine Call.inside_mono hx ?_
  rintro p' tr' (e | a) h
  · simp only [Posts] at h ⊢
    split at h
    · simp [*, smooth_append, List.countP_append]
    · simp [*, smooth_append]
  · obtain ⟨ha, hs', hl'⟩ := h
    exact ⟨ha, smooth_append.mpr ⟨hs, hs'⟩, by simp [List.countP_append, hl, hl']⟩

theorem posts_bind {x : Service β} {f : β → Service α} {Q : Pending panel → β → Prop}
    {Q' : Pending panel → α → Prop} (hx : Call.Inside (S := panel) R x p (Posts legs Q))
    (hf : ∀ p' b, Q p' b → Call.Inside (S := panel) R (f b) p' (Posts legs Q')) :
    Call.Inside (S := panel) R (x >>= f) p (Posts legs Q') :=
  Call.inside_bind hx (fun p' _ b h => posts_prefix h.2.1 h.2.2 (hf p' b h.1)) (fun _ _ _ h => h)

theorem posts_pure {a : α} (h : Q p a) :
    Call.Inside (S := panel) R (pure a : Service α) p (Posts legs Q) :=
  Call.inside_pure ⟨h, by simp [Smooth], rfl⟩

theorem not_smooth_read {leg : Leg} (hleg : leg ∈ legs) {v : Option User}
    (hv : leg.refuses v = true) : ¬Smooth legs [.read (.user leg.user) v] := by
  intro h
  have hb := (smooth_single.mp h).2 leg hleg
  simp [Leg.blocks, hv] at hb

theorem smooth_read {leg : Leg} (hsame : ∀ l ∈ legs, l.user = leg.user → l = leg) {v : Option User}
    (hv : leg.refuses v = false) : Smooth legs [.read (.user leg.user) v] := by
  refine smooth_single.mpr ⟨rfl, ?_⟩
  intro l hl
  cases hu : leg.user == l.user with
  | false => simp [Leg.blocks, hu]
  | true =>
    obtain rfl := hsame l hl (beq_iff_eq.mp hu).symm
    simp [Leg.blocks, hv]

theorem smooth_row {ev : Event panel} (hf : faulty ev = false)
    (hb : ∀ leg : Leg, leg.blocks ev = false) : Smooth legs [ev] :=
  smooth_single.mpr ⟨hf, fun leg _ => hb leg⟩

def Reads (R : Rely panel) (legs : List Leg) (id : Int) (p : Pending panel) :
    Call.Ends panel Err (Option User) :=
  fun p' tr r => p' = p ∧ match r with
    | .ok v => R (.user id) v ∧ tr = [.read (.user id) v]
    | .error e => e = .database ∧ ¬Smooth legs tr

theorem inside_user (legs : List Leg) (id : Int) :
    Call.Inside (S := panel) R (Service.user id) p (Reads R legs id p) :=
  Call.inside_read (fun _ hv => ⟨rfl, hv, rfl⟩) ⟨rfl, rfl, by simp [smooth_single, faulty]⟩

def Swaps (legs : List Leg) (id : Int) (before after : Int64) (p : Pending panel) :
    Call.Ends panel Err Bool :=
  fun p' tr r => match r with
    | .ok true => Smooth legs tr ∧ tr.countP lost = 0 ∧ ∃ v : User, v.balance = before ∧
        0 ≤ v.balance ∧ p' = p.put (.user id) (some v) ({ v with balance := after } : User)
    | .ok false => Smooth legs tr ∧ tr.countP lost = 1
    | .error e => e = .database ∧ ¬Smooth legs tr

theorem inside_swap (hR : Funded R) (legs : List Leg) {id : Int} {before after : Int64} (h : 0 ≤ after) :
    Call.Inside (S := panel) R (Service.update (.user id) (fun (v : User) => v.balance == before)
      (fun (v : User) => { v with balance := after })) p (Swaps legs id before after p) := by
  refine Call.inside_update ?_ ?_ ?_
  · intro v hv hg
    have hs : Smooth legs [.hit (.user id) v ({ (v : User) with balance := after } : User)] :=
      smooth_row rfl (fun _ => rfl)
    exact ⟨hR.set id v after hv h, hs, by simp [lost], v, by simpa using hg, hR.nonneg id v hv, rfl⟩
  · exact fun _ _ _ => ⟨smooth_row rfl (fun _ => rfl), by simp [lost]⟩
  · exact ⟨rfl, by simp [smooth_single, faulty]⟩

def Records (legs : List Leg) (e : Transaction) (p : Pending panel) : Call.Ends panel Err Unit :=
  fun p' tr r => match r with
    | .ok _ => p' = p.note e ∧ Smooth legs tr ∧ tr.countP lost = 0
    | .error e => e = .database ∧ ¬Smooth legs tr

theorem inside_record (legs : List Leg) {e : Transaction} :
    Call.Inside (S := panel) R (Service.record e) p (Records legs e p) :=
  Call.inside_insert ⟨rfl, smooth_row rfl (fun _ => rfl), by simp [lost]⟩
    ⟨rfl, by simp [smooth_single, faulty]⟩

theorem inside_applyDelta (hR : Funded R) {leg : Leg} (hleg : leg ∈ legs)
    (hsame : ∀ l ∈ legs, l.user = leg.user → l = leg) :
    Call.Inside (S := panel) R (WalletService.applyDelta leg.user leg.delta leg.type leg.desc leg.note)
      p (Posts legs fun p' _ => Posted leg p p') := by
  unfold WalletService.applyDelta
  refine Call.inside_bind (inside_user legs leg.user) ?_ ?_
  · rintro _ _ v ⟨rfl, hv, rfl⟩
    cases v with
    | none => exact Call.inside_throw (not_smooth_read hleg rfl)
    | some u =>
      by_cases hneg : u.balance + leg.delta < 0
      · simp only [hneg, if_true]
        exact Call.inside_throw (not_smooth_read hleg (by simpa [Leg.refuses] using hneg))
      · have hread := smooth_read hsame (v := some u) (by simpa [Leg.refuses] using hneg)
        simp only [hneg, if_false]
        refine posts_prefix hread (by simp [lost]) ?_
        refine Call.inside_bind (inside_swap hR legs (Int64.not_lt.mp hneg)) ?_ ?_
        · rintro p' tr (_ | _) h
          · obtain ⟨hs, hl⟩ := h
            refine Call.inside_throw ?_
            simpa [Posts] using And.intro hs hl
          · obtain ⟨hs, hl, v, hv, hpos, rfl⟩ := h
            refine posts_prefix hs hl ?_
            refine Call.inside_bind (inside_record legs) ?_ ?_
            · rintro _ _ _ ⟨rfl, hs', hl'⟩
              refine posts_prefix hs' hl' (posts_pure ?_)
              exact ⟨u, v, hv.symm, hpos, by rwa [hv], by rw [hv]; rfl⟩
            · rintro _ _ _ ⟨rfl, h⟩
              simpa [Posts] using h
        · rintro p' tr e ⟨rfl, h⟩
          simpa [Posts] using h
  · rintro _ tr e ⟨rfl, rfl, h⟩
    simpa [Posts] using h

theorem posts_failed {tr : Trace} {e : Err}
    (h : Call.Failed .database (Posts legs Q) tr e) :
    if e = .balanceConflict then Smooth legs tr ∧ tr.countP lost = 1 else ¬Smooth legs tr := by
  cases h with
  | commit _ _ => simp [smooth_cons, smooth_append, faulty]
  | body h _ =>
    simp only [Posts] at h
    split at h
    · simp [*, smooth_cons, smooth_append, faulty, lost, Leg.blocks]
    · simp [*, smooth_cons, smooth_append, faulty, Leg.blocks]

theorem posts_retried {n : Nat} {tr : Trace}
    (h : Call.Retried .database (· == Err.balanceConflict) (Posts legs Q) n tr) :
    Smooth legs tr ∧ tr.countP lost = n := by
  induction h with
  | zero => simp
  | succ _ hf ha ih =>
    have hf := posts_failed hf
    rw [if_pos (beq_iff_eq.mp ha)] at hf
    exact ⟨smooth_append.mpr ⟨ih.1, hf.1⟩, by simp [List.countP_append, ih.2, hf.2]⟩

def Settles (legs : List Leg) (Q : Pending panel → α → Prop) (tr : Trace) : Except Err α → Prop
  | .ok a => ∃ tr' p, tr = tr' ++ [.commit p] ∧ Call.Quiet tr' ∧ Covered legs tr' ∧ Q p a
  | .error _ => Call.Quiet tr ∧ ¬Covered legs tr

theorem outside_withRetry (legs : List Leg) {G : Pending panel → Prop}
    {fn : Service α} (hfn : Call.Inside (S := panel) R fn .empty (Posts legs Q))
    (hG : ∀ p a, Q p a → G p) :
    Call.Outside (S := panel) R G (WalletService.withRetry fn) (Settles legs Q) := by
  intro past
  refine Call.wp_retry _ hfn (fun p _ a h => hG p a h.1) ?_ ?_
  · rintro k tr p tr' a hk hr ⟨ha, hs, hl⟩ hq
    obtain ⟨hs', hl'⟩ := posts_retried hr
    have hquiet : Call.Quiet (tr ++ .begin :: tr') :=
      hr.quiet.append ((Call.quiet_single (by simp)).append hq)
    have hcov : Covered legs (tr ++ .begin :: tr') := by
      constructor
      · simp [smooth_append, smooth_cons, hs, hs', faulty, Leg.blocks]
      · simp [List.countP_append, hl, hl', lost, WalletService.walletMaxRetries] at hk ⊢
        omega
    exact ⟨_, rfl, tr ++ .begin :: tr', p, by simp, hquiet, hcov, ha⟩
  · intro k tr tr' e hk hr hf hlast
    obtain ⟨hs', hl'⟩ := posts_retried hr
    refine ⟨_, rfl, hr.quiet.append hf.quiet, ?_⟩
    rintro ⟨hs, hl⟩
    have hf := posts_failed hf
    split at hf
    case isTrue he =>
      have hk := hlast (by simp [he])
      simp only [List.countP_append, hl', hf.2, hk, WalletService.walletMaxRetries] at hl
      omega
    case isFalse => exact hf (smooth_append.mp hs).2

end inside

end QuiPanel
