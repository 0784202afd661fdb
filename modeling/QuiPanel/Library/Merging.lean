import Mathlib.Order.Lattice
import Mathlib.Data.List.Nodup

namespace Merging

open List

variable {R T V : Type} [LinearOrder T]

structure Clock (time : R → T) (newer : R → R → Bool) (step : R → R → R) : Prop where
  later : ∀ a b, time a < time b → newer a b = true
  earlier : ∀ a b, time b < time a → newer a b = false
  advances : ∀ a b, time (step a b) = max (time a) (time b)

def Latest (time : R → T) (val : R → V) (unset : V) (rs : List R) (v : V) : Prop :=
  (v = unset ∧ ∀ r ∈ rs, val r = unset) ∨
    ∃ r ∈ rs, val r ≠ unset ∧ val r = v ∧ ∀ r' ∈ rs, val r' ≠ unset → time r' ≤ time r

def Settled (time : R → T) (val : R → V) (unset : V) (rs : List R) : Prop :=
  (∃ n ∈ rs, val n ≠ unset ∧ ∀ r ∈ rs, time r ≤ time n) ∨
    ∀ r ∈ rs, ∀ r' ∈ rs, val r ≠ unset → val r' ≠ unset → val r = val r'

instance [DecidableEq V] (time : R → T) (val : R → V) (unset : V) (rs : List R) :
    Decidable (Settled time val unset rs) :=
  inferInstanceAs (Decidable (_ ∨ _))

def mergeAll (step : R → R → R) : List R → Option R
  | [] => none
  | r :: rs => some (rs.foldl step r)

variable {time : R → T} {newer : R → R → Bool} {step : R → R → R} {val : R → V} {unset v w : V}
  {rs rs' : List R} {r n x : R}

section latest

theorem Latest.perm (hp : rs'.Perm rs) (h : Latest time val unset rs v) : Latest time val unset rs' v := by
  rcases h with ⟨hv, hall⟩ | ⟨r, hr, hset, hv, hlast⟩
  · exact .inl ⟨hv, fun r hr => hall r (hp.subset hr)⟩
  · exact .inr ⟨r, hp.symm.subset hr, hset, hv, fun r' hr' => hlast r' (hp.subset hr')⟩

theorem Latest.unique (hdistinct : (rs.map time).Nodup) (h : Latest time val unset rs v)
    (h' : Latest time val unset rs w) : v = w := by
  rcases h with ⟨rfl, hall⟩ | ⟨r, hr, hset, rfl, hlast⟩
  · rcases h' with ⟨rfl, _⟩ | ⟨r', hr', hset', _⟩
    · rfl
    · exact absurd (hall r' hr') hset'
  · rcases h' with ⟨_, hall'⟩ | ⟨r', hr', hset', rfl, hlast'⟩
    · exact absurd (hall' r hr) hset
    · rw [inj_on_of_nodup_map hdistinct hr hr' (le_antisymm (hlast' r hr hset) (hlast r' hr' hset'))]

theorem Settled.perm (hp : rs'.Perm rs) (h : Settled time val unset rs) : Settled time val unset rs' := by
  rcases h with ⟨n, hn, hset, hlast⟩ | hcommon
  · exact .inl ⟨n, hp.symm.subset hn, hset, fun r hr => hlast r (hp.subset hr)⟩
  · exact .inr fun r hr r' hr' => hcommon r (hp.subset hr) r' (hp.subset hr')

theorem latest_of_newest (hn : n ∈ rs) (hset : val n ≠ unset) (hlast : ∀ r ∈ rs, time r ≤ time n) :
    Latest time val unset rs (val n) :=
  .inr ⟨n, hn, hset, rfl, fun r hr _ => hlast r hr⟩

theorem exists_latest (time : R → T) (val : R → V) (unset : V) (rs : List R) :
    ∃ v, Latest time val unset rs v := by
  induction rs with
  | nil => exact ⟨unset, .inl ⟨rfl, fun _ hr => absurd hr not_mem_nil⟩⟩
  | cons x rs ih =>
    obtain ⟨v, ⟨hv, hall⟩ | ⟨r, hr, hset, hv, hlast⟩⟩ := ih
    · by_cases hx : val x = unset
      · exact ⟨v, .inl ⟨hv, forall_mem_cons.mpr ⟨hx, hall⟩⟩⟩
      · refine ⟨val x, .inr ⟨x, mem_cons_self, hx, rfl, forall_mem_cons.mpr ⟨fun _ => le_refl _, ?_⟩⟩⟩
        exact fun r hr hset => absurd (hall r hr) hset
    · by_cases hx : val x ≠ unset ∧ time r < time x
      · refine ⟨val x, .inr ⟨x, mem_cons_self, hx.1, rfl, forall_mem_cons.mpr ⟨fun _ => le_refl _, ?_⟩⟩⟩
        exact fun r' hr' hset' => (hlast r' hr' hset').trans hx.2.le
      · refine ⟨v, .inr ⟨r, mem_cons_of_mem x hr, hset, hv, forall_mem_cons.mpr ⟨fun hset' => ?_, hlast⟩⟩⟩
        exact not_lt.mp fun hlt => hx ⟨hset', hlt⟩

theorem before_newest (hdistinct : (rs.map time).Nodup) (hlast : ∀ x ∈ rs, time x ≤ time n)
    {p q : List R} (hrs : rs = p ++ n :: q) : (∀ x ∈ p, time x < time n) ∧ ∀ x ∈ q, time x < time n := by
  have hsplit : (p.map time ++ time n :: q.map time).Nodup := by
    rw [hrs, map_append, map_cons] at hdistinct
    exact hdistinct
  have hfresh := nodup_middle.mp hsplit
  rw [nodup_cons, mem_append, not_or] at hfresh
  refine ⟨fun x hx => ?_, fun x hx => ?_⟩
  · have hle := hlast x (hrs ▸ mem_append_left _ hx)
    exact lt_of_le_of_ne hle fun heq => hfresh.1.1 (heq ▸ mem_map_of_mem hx)
  · have hle := hlast x (hrs ▸ mem_append_right _ (mem_cons_of_mem n hx))
    exact lt_of_le_of_ne hle fun heq => hfresh.1.2 (heq ▸ mem_map_of_mem hx)

end latest

section folding

variable [DecidableEq V]

def keep (unset : V) (newer : Bool) (old new : V) : V :=
  if old ≠ new ∧ new ≠ unset ∧ (newer = true ∨ old = unset) then new else old

def Register (newer : R → R → Bool) (step : R → R → R) (val : R → V) (unset : V) : Prop :=
  ∀ a b, val (step a b) = keep unset (newer a b) (val a) (val b)

theorem keep_unset (newer : Bool) (old : V) : keep unset newer old unset = old :=
  if_neg fun h => h.2.1 rfl

theorem keep_newer {old new : V} (h : new ≠ unset) : keep unset true old new = new := by
  rw [keep]
  split
  case isTrue => rfl
  case isFalse hsame => exact not_not.mp fun hne => hsame ⟨hne, h, .inl rfl⟩

theorem keep_older {old : V} (h : old ≠ unset) (new : V) : keep unset false old new = old :=
  if_neg fun hsome => hsome.2.2.elim Bool.false_ne_true h

theorem keep_empty (newer : Bool) (new : V) : keep unset newer unset new = new := by
  rw [keep]
  split
  case isTrue => rfl
  case isFalse hsame => exact not_not.mp fun hne => hsame ⟨hne, hne ∘ Eq.symm, .inr rfl⟩

theorem keep_self (newer : Bool) (old : V) : keep unset newer old old = old := if_neg fun h => h.1 rfl

variable (hclock : Clock time newer step) (hreg : Register newer step val unset)

include hclock hreg

theorem absorb (hset : val r ≠ unset) (hold : ∀ x ∈ rs, time x < time r) : val (rs.foldl step r) = val r := by
  induction rs generalizing r with
  | nil => rfl
  | cons x rs ih =>
    have hx := hold x mem_cons_self
    have hval : val (step r x) = val r := by rw [hreg, hclock.earlier r x hx, keep_older hset]
    have htime : time (step r x) = time r := by rw [hclock.advances, max_eq_left hx.le]
    rw [foldl_cons, ih (hval ▸ hset) fun y hy => htime ▸ hold y (mem_cons_of_mem x hy), hval]

theorem overtake (hset : val n ≠ unset) (hnew : time r < time n) (hold : ∀ x ∈ rs, time x < time n) :
    val (rs.foldl step (step r n)) = val n := by
  have hval : val (step r n) = val n := by rw [hreg, hclock.later r n hnew, keep_newer hset]
  have htime : time (step r n) = time n := by rw [hclock.advances, max_eq_right hnew.le]
  rw [absorb hclock hreg (hval ▸ hset) fun x hx => htime ▸ hold x hx, hval]

omit hreg in
theorem foldl_before (hr : time r < time n) (h : ∀ x ∈ rs, time x < time n) : time (rs.foldl step r) < time n := by
  induction rs generalizing r with
  | nil => exact hr
  | cons x rs ih =>
    refine ih ?_ fun y hy => h y (mem_cons_of_mem x hy)
    rw [hclock.advances]
    exact max_lt hr (h x mem_cons_self)

omit hclock in
theorem foldl_common (hv : ∀ x ∈ r :: rs, val x = unset ∨ val x = v) (hsome : ∃ x ∈ r :: rs, val x = v) :
    val (rs.foldl step r) = v := by
  induction rs generalizing r with
  | nil =>
    obtain ⟨x, hx, hval⟩ := hsome
    rw [mem_singleton.mp hx] at hval
    exact hval
  | cons x rs ih =>
    have hr := hv r mem_cons_self
    have hx := hv x (mem_cons_of_mem r mem_cons_self)
    have hstep : val (step r x) = unset ∨ val (step r x) = v := by
      rw [hreg, keep]
      split
      · exact hx
      · exact hr
    have hkept : val r = v ∨ val x = v → val (step r x) = v := by
      rw [hreg]
      rintro (hrv | hxv)
      · rcases hx with hnone | hxv
        · rw [hnone, keep_unset, hrv]
        · rw [hrv, hxv, keep_self]
      · rcases hr with hnone | hrv
        · rw [hnone, keep_empty, hxv]
        · rw [hrv, hxv, keep_self]
    refine ih ?_ ?_
    · intro y hy
      rcases mem_cons.mp hy with rfl | hrest
      · exact hstep
      · exact hv y (mem_cons_of_mem r (mem_cons_of_mem x hrest))
    · obtain ⟨y, hy, hval⟩ := hsome
      rcases mem_cons.mp hy with rfl | htail
      · exact ⟨_, mem_cons_self, hkept (.inl hval)⟩
      · rcases mem_cons.mp htail with rfl | hrest
        · exact ⟨_, mem_cons_self, hkept (.inr hval)⟩
        · exact ⟨y, mem_cons_of_mem _ hrest, hval⟩

theorem latest_of_settled (hdistinct : (rs.map time).Nodup) (hs : Settled time val unset rs)
    (hr : mergeAll step rs = some r) : Latest time val unset rs (val r) := by
  rcases hs with ⟨n, hn, hset, hlast⟩ | hcommon
  · obtain ⟨p, q, hrs⟩ := append_of_mem hn
    obtain ⟨hp, hq⟩ := before_newest hdistinct hlast hrs
    have hval : val r = val n := by
      subst hrs
      cases p with
      | nil =>
        rw [← Option.some.inj hr]
        exact absorb hclock hreg hset hq
      | cons a p =>
        have hfold : r = q.foldl step (step (p.foldl step a) n) := by
          rw [← Option.some.inj hr]
          exact foldl_append
        rw [hfold]
        have hbefore := foldl_before hclock (hp a mem_cons_self) fun x hx => hp x (mem_cons_of_mem a hx)
        exact overtake hclock hreg hset hbefore hq
    exact hval ▸ latest_of_newest hn hset hlast
  · cases rs with
    | nil => cases hr
    | cons a rs =>
      obtain ⟨v, hv⟩ := exists_latest time val unset (a :: rs)
      have hsame : val r = v := by
        rw [← Option.some.inj hr]
        rcases hv with ⟨rfl, hall⟩ | ⟨m, hm, hset, rfl, _⟩
        · exact foldl_common hreg (fun x hx => .inl (hall x hx)) ⟨a, mem_cons_self, hall a mem_cons_self⟩
        · refine foldl_common hreg (fun x hx => ?_) ⟨m, hm, rfl⟩
          by_cases hx' : val x = unset
          · exact .inl hx'
          · exact .inr (hcommon x hx m hm hx' hset)
      exact hsame ▸ hv

theorem settled_of_latest (hdistinct : (rs.map time).Nodup)
    (h : ∀ rs', rs'.Perm rs → ∀ r, mergeAll step rs' = some r → Latest time val unset rs (val r)) :
    Settled time val unset rs := by
  by_contra hopen
  rw [Settled, not_or] at hopen
  obtain ⟨hnewest, hcommon⟩ := hopen
  push Not at hcommon
  obtain ⟨a, ha, b, hb, hseta, hsetb, hdiffer⟩ := hcommon
  obtain ⟨_, ⟨_, hnone⟩ | ⟨n, hn, _, _, hlast⟩⟩ := exists_latest time (fun _ => true) false rs
  · cases hnone a ha
  · have hunset : val n = unset := not_not.mp fun hset => hnewest ⟨n, hn, hset, fun r hr => hlast r hr nofun⟩
    obtain ⟨v, hv⟩ := exists_latest time val unset rs
    -- a value that is not the latest, put right before the newest record, is never replaced again
    obtain ⟨x, hx, hset, hstale⟩ : ∃ x ∈ rs, val x ≠ unset ∧ val x ≠ v := by
      by_cases hav : val a = v
      · exact ⟨b, hb, hsetb, fun hbv => hdiffer (hav.trans hbv.symm)⟩
      · exact ⟨a, ha, hseta, hav⟩
    obtain ⟨p, q, hrs⟩ := append_of_mem hx
    have hxn : x ≠ n := fun heq => hset (heq ▸ hunset)
    have hrest : n ∈ p ++ q := by
      rw [hrs, mem_append, mem_cons] at hn
      rcases hn with hp | heq | hq
      · exact mem_append_left q hp
      · exact absurd heq.symm hxn
      · exact mem_append_right p hq
    obtain ⟨p', q', hpq⟩ := append_of_mem hrest
    have hperm : (x :: n :: (p' ++ q')).Perm rs := by
      rw [hrs]
      refine List.Perm.trans (List.Perm.cons x ?_) perm_middle.symm
      rw [hpq]
      exact perm_middle.symm
    have hdistinct' := (hperm.map time).nodup_iff.mpr hdistinct
    have hafter : ∀ y ∈ x :: (p' ++ q'), time y < time n := by
      intro y hy
      have hbefore := before_newest (p := [x]) (q := p' ++ q') hdistinct'
        (fun y hy => hlast y (hperm.subset hy) nofun) rfl
      rcases mem_cons.mp hy with rfl | hy
      · exact hbefore.1 y mem_cons_self
      · exact hbefore.2 y hy
    have hfirst : val (step x n) = val x := by rw [hreg, hunset, keep_unset]
    have htime : time (step x n) = time n := by
      rw [hclock.advances, max_eq_right (hafter x mem_cons_self).le]
    have hkept : val ((p' ++ q').foldl step (step x n)) = val x := by
      rw [absorb hclock hreg (hfirst ▸ hset) fun y hy => htime ▸ hafter y (mem_cons_of_mem x hy), hfirst]
    have hlatest := h _ hperm _ rfl
    rw [foldl_cons, hkept] at hlatest
    exact hstale (hlatest.unique hdistinct hv)

end folding

section best

variable {A : Type} {better : A → A → Prop} {unset m m' a b c : A} {as as' : List A}

def Best (better : A → A → Prop) (unset : A) (as : List A) (m : A) : Prop :=
  (m = unset ∧ ∀ a ∈ as, a = unset) ∨ (m ≠ unset ∧ m ∈ as ∧ ∀ a ∈ as, a ≠ unset → ¬ better a m)

theorem Best.perm (hp : as'.Perm as) (h : Best better unset as m) : Best better unset as' m := by
  rcases h with ⟨hm, hall⟩ | ⟨hm, hin, hbest⟩
  · exact .inl ⟨hm, fun a ha => hall a (hp.subset ha)⟩
  · exact .inr ⟨hm, hp.symm.subset hin, fun a ha => hbest a (hp.subset ha)⟩

variable [IsStrictTotalOrder A better]

theorem Best.unique (h : Best better unset as m) (h' : Best better unset as m') : m = m' := by
  rcases h with ⟨rfl, hall⟩ | ⟨hm, hin, hbest⟩
  · rcases h' with ⟨rfl, _⟩ | ⟨hm', hin', _⟩
    · rfl
    · exact absurd (hall m' hin') hm'
  · rcases h' with ⟨rfl, hall'⟩ | ⟨hm', hin', hbest'⟩
    · exact absurd (hall' m hin) hm
    · rcases trichotomous_of better m m' with hlt | heq | hgt
      · exact absurd hlt (hbest' m hin hm)
      · exact heq
      · exact absurd hgt (hbest m' hin' hm')

theorem not_better_trans (hab : ¬ better a b) (hbc : ¬ better b c) : ¬ better a c := by
  intro hac
  rcases trichotomous_of better a b with hlt | rfl | hgt
  · exact hab hlt
  · exact hbc hac
  · exact hbc (trans_of better hgt hac)

variable [DecidableEq A] [DecidableRel better]

def pick (better : A → A → Prop) [DecidableRel better] (unset old new : A) : A :=
  if new ≠ unset ∧ (old = unset ∨ better new old) then new else old

omit [IsStrictTotalOrder A better] in
theorem pick_spec (better : A → A → Prop) [IsStrictTotalOrder A better] [DecidableRel better] (unset a b : A) :
    (pick better unset a b = unset → a = unset ∧ b = unset) ∧ pick better unset a b ∈ [a, b] ∧
      ∀ c ∈ [a, b], c ≠ unset → ¬ better c (pick better unset a b) := by
  rw [pick]
  split
  case isTrue hnew =>
    refine ⟨fun hb => absurd hb hnew.1, .tail _ (.head _), fun c hc hset => ?_⟩
    rcases mem_cons.mp hc with rfl | hc
    · exact asymm_of better (hnew.2.resolve_left hset)
    · rw [mem_singleton.mp hc]
      exact irrefl_of better b
  case isFalse hold =>
    refine ⟨fun ha => ⟨ha, not_not.mp fun hb => hold ⟨hb, .inl ha⟩⟩, .head _, fun c hc hset => ?_⟩
    rcases mem_cons.mp hc with rfl | hc
    · exact irrefl_of better c
    · rw [mem_singleton.mp hc] at hset ⊢
      exact fun hlt => hold ⟨hset, .inr hlt⟩

theorem best_of_pick (h : Best better unset (pick better unset a b :: as) m) : Best better unset (a :: b :: as) m := by
  obtain ⟨hnone, hin, hbest⟩ := pick_spec better unset a b
  rcases h with ⟨hm, hall⟩ | ⟨hm, hmem, hbeat⟩
  · obtain ⟨ha, hb⟩ := hnone (hall _ mem_cons_self)
    exact .inl ⟨hm, forall_mem_cons.mpr ⟨ha, forall_mem_cons.mpr ⟨hb, (forall_mem_cons.mp hall).2⟩⟩⟩
  · have hfirst : ∀ c ∈ [a, b], c ≠ unset → ¬ better c m := by
      intro c hc hset
      have hset' : pick better unset a b ≠ unset := by
        intro heq
        obtain ⟨rfl, rfl⟩ := hnone heq
        simp only [mem_cons, not_mem_nil, or_false, or_self] at hc
        exact hset hc
      exact not_better_trans (hbest c hc hset) (hbeat _ mem_cons_self hset')
    refine .inr ⟨hm, ?_, fun c hc => ?_⟩
    · rcases mem_cons.mp hmem with rfl | hrest
      · exact mem_append_left as hin
      · exact mem_append_right [a, b] hrest
    · rcases mem_append.mp (show c ∈ [a, b] ++ as from hc) with hc | hc
      · exact hfirst c hc
      · exact hbeat c (mem_cons_of_mem _ hc)

theorem best_foldl (better : A → A → Prop) [IsStrictTotalOrder A better] [DecidableRel better] (unset a : A)
    (as : List A) : Best better unset (a :: as) (as.foldl (pick better unset) a) := by
  induction as generalizing a with
  | nil =>
    by_cases ha : a = unset
    · exact .inl ⟨ha, forall_mem_singleton.mpr ha⟩
    · refine .inr ⟨ha, mem_cons_self, forall_mem_singleton.mpr fun _ => irrefl_of better a⟩
  | cons b as ih => exact best_of_pick (ih (pick better unset a b))

end best

end Merging
