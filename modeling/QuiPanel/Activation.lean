import Mathlib.Algebra.Order.Ring.Int
import QuiPanel.Library.Latch

namespace QuiPanel

namespace Activation

open Latch List

def mergeActivationExpiry (existing node : Int) : Int := if 0 < existing ∧ node ≤ 0 then existing else node

structure Report (N : Type) where
  node : N
  expiry : Int
  dirty : Bool

section polling

variable {N : Type}

def setRemoteTraffic (stored : Option Int) (r : Report N) : Option Int :=
  match stored with
  | none => if r.dirty then none else some r.expiry
  | some existing => some (if 0 < existing ∧ r.expiry ≤ 0 then existing else r.expiry)

def poll (stored : Option Int) (reports : List (Report N)) : Option Int := reports.foldl setRemoteTraffic stored

structure Fleet (N : Type) where
  duration : Int
  negative : duration < 0
  deadline : N → Option Int
  positive : ∀ n e, deadline n = some e → 0 < e

def Fleet.final (fleet : Fleet N) (n : N) : Int := (fleet.deadline n).getD fleet.duration

structure Complete (fleet : Fleet N) (members : List N) (reports : List (Report N)) : Prop where
  known : ∀ r ∈ reports, r.node ∈ members
  started : ∀ r ∈ reports, r.expiry ≤ 0 ∨ fleet.deadline r.node = some r.expiry
  fixed : ∀ pre r post, reports = pre ++ r :: post → 0 < r.expiry →
    ∀ r' ∈ post, r'.node = r.node → r'.expiry = r.expiry
  settled : ∀ n ∈ members, ∃ pre r post, reports = pre ++ r :: post ∧ r.node = n ∧
    r.expiry = fleet.final n ∧
    ∀ r' ∈ post, r'.node = n → r'.expiry = fleet.final n

def Agreed (fleet : Fleet N) (members : List N) : Prop :=
  ∀ n ∈ members, ∀ m ∈ members, ∀ e e', fleet.deadline n = some e → fleet.deadline m = some e' → e = e'

end polling

section merging

variable {N : Type} {fleet : Fleet N} {members : List N} {reports reports' : List (Report N)} {stored : Option Int}
  {existing e : Int} {r : Report N}

theorem expiry_case (existing node : Int) :
    (if 0 < existing ∧ node ≤ 0 then existing else node) = mergeActivationExpiry existing node := rfl

theorem merge_latch : mergeActivationExpiry = latch (0 < ·) := by
  funext existing node
  rw [mergeActivationExpiry, latch]
  simp only [not_lt]

theorem poll_some (existing : Int) (reports : List (Report N)) :
    poll (some existing) reports = some (run (0 < ·) existing (reports.map (·.expiry))) := by
  induction reports generalizing existing with
  | nil => rfl
  | cons r reports ih =>
    rw [poll, foldl_cons, ← poll, setRemoteTraffic, expiry_case, merge_latch, ih]
    rfl

theorem poll_append (stored : Option Int) (reports later : List (Report N)) :
    poll stored (reports ++ later) = poll (poll stored reports) later := foldl_append

theorem poll_stays (h : poll stored reports = some e) (he : 0 < e) (later : List (Report N)) :
    ∃ e', poll stored (reports ++ later) = some e' ∧ 0 < e' := by
  rw [poll_append, h, poll_some]
  exact ⟨_, rfl, run_holds he⟩

variable {n : N}

theorem final_of_deadline (h : fleet.deadline n = some e) : fleet.final n = e := by
  rw [Fleet.final, h]
  rfl

theorem final_of_idle (h : fleet.deadline n = none) : fleet.final n = fleet.duration := by
  rw [Fleet.final, h]
  rfl

theorem final_reported (h : Complete fleet members reports) (hn : n ∈ members) :
    fleet.final n ∈ reports.map (·.expiry) := by
  obtain ⟨pre, r, post, rfl, -, hfinal, -⟩ := h.settled n hn
  exact hfinal ▸ mem_map_of_mem (mem_append_right pre mem_cons_self)

theorem poll_activated (h : Complete fleet members reports) (hn : n ∈ members)
    (hdeadline : fleet.deadline n = some e) :
    ∃ m ∈ members, poll (some fleet.duration) reports = some (fleet.final m) ∧ fleet.deadline m ≠ none := by
  have hpositive : 0 < run (0 < ·) fleet.duration (reports.map (·.expiry)) := by
    refine run_holds_of_mem (final_reported h hn) ?_
    rw [final_of_deadline hdeadline]
    exact fleet.positive n e hdeadline
  rcases run_mem_of_holds hpositive with hstart | hin
  · have := fleet.negative
    omega
  · obtain ⟨r, hr, hexpiry⟩ := mem_map.mp hin
    rw [poll_some, ← hexpiry]
    rw [← hexpiry] at hpositive
    have hreached : fleet.deadline r.node = some r.expiry := (h.started r hr).resolve_left (not_le.mpr hpositive)
    refine ⟨r.node, h.known r hr, ?_, ?_⟩
    · rw [final_of_deadline hreached]
    · rw [hreached]
      exact Option.some_ne_none _

theorem poll_idle (h : Complete fleet members reports) (hidle : ∀ n ∈ members, fleet.deadline n = none) :
    poll (some fleet.duration) reports = some fleet.duration := by
  rw [poll_some]
  have hnegative : ¬0 < fleet.duration := not_lt.mpr fleet.negative.le
  have hunset : ∀ r ∈ reports, ¬0 < r.expiry := by
    intro r hr
    refine not_lt.mpr ((h.started r hr).resolve_right ?_)
    rw [hidle r.node (h.known r hr)]
    exact fun he => nomatch he
  rcases eq_nil_or_concat' reports with rfl | ⟨init, last, rfl⟩
  · rfl
  · have hlast : last.expiry = fleet.duration := by
      have hmember := h.known last (mem_append_right init mem_cons_self)
      obtain ⟨pre, r, post, hsplit, hnode, hfinal, hkept⟩ := h.settled last.node hmember
      rw [final_of_idle (hidle _ hmember)] at hfinal hkept
      rcases eq_nil_or_concat' post with rfl | ⟨post', last', rfl⟩
      · have heq := (append_inj' hsplit rfl).2
        rw [(List.cons.inj heq).1]
        exact hfinal
      · have hend : init ++ [last] = (pre ++ r :: post') ++ [last'] := by
          rw [hsplit, append_assoc, cons_append]
        have heq := (append_inj' hend rfl).2
        have hsame : last' = last := (List.cons.inj heq).1.symm
        exact hsame ▸ hkept last' (mem_append_right post' mem_cons_self) (hsame ▸ rfl)
    rw [map_append, map_singleton, run_unset ?_ hnegative, hlast]
    intro y hy
    obtain ⟨r, hr, rfl⟩ := mem_map.mp hy
    exact hunset r (mem_append_left _ hr)

theorem poll_settles (h : Complete fleet members reports) :
    (∃ n ∈ members, ∃ e, fleet.deadline n = some e ∧ poll (some fleet.duration) reports = some e) ∨
      (∀ n ∈ members, fleet.deadline n = none) ∧ poll (some fleet.duration) reports = some fleet.duration := by
  by_cases hidle : ∀ n ∈ members, fleet.deadline n = none
  · exact .inr ⟨hidle, poll_idle h hidle⟩
  · push Not at hidle
    obtain ⟨n, hn, hactive⟩ := hidle
    obtain ⟨e, he⟩ := Option.ne_none_iff_exists'.mp hactive
    obtain ⟨m, hm, hpoll, hreached⟩ := poll_activated h hn he
    obtain ⟨e', he'⟩ := Option.ne_none_iff_exists'.mp hreached
    exact .inl ⟨m, hm, e', he', hpoll.trans (congrArg some (final_of_deadline he'))⟩

def sweep (fleet : Fleet N) (members : List N) (n : N) : List (Report N) :=
  (members ++ [n]).map fun m => ⟨m, fleet.final m, false⟩

theorem sweep_complete (hn : n ∈ members) : Complete fleet members (sweep fleet members n) := by
  have hfinal : ∀ r ∈ sweep fleet members n, r.node ∈ members ∧ r.expiry = fleet.final r.node := by
    intro r hr
    obtain ⟨m, hm, rfl⟩ := mem_map.mp hr
    rcases mem_append.mp hm with hm | hm
    · exact ⟨hm, rfl⟩
    · rw [mem_singleton.mp hm]
      exact ⟨hn, rfl⟩
  refine ⟨fun r hr => (hfinal r hr).1, fun r hr => ?_, ?_, ?_⟩
  · rw [(hfinal r hr).2]
    cases hdeadline : fleet.deadline r.node with
    | none =>
      rw [final_of_idle hdeadline]
      exact .inl fleet.negative.le
    | some e =>
      rw [final_of_deadline hdeadline]
      exact .inr rfl
  · intro pre r post hsplit _ r' hr' hnode
    have hin : r ∈ sweep fleet members n := hsplit ▸ mem_append_right pre mem_cons_self
    have hin' : r' ∈ sweep fleet members n := hsplit ▸ mem_append_right pre (mem_cons_of_mem r hr')
    rw [(hfinal r hin).2, (hfinal r' hin').2, hnode]
  · intro m hm
    have hin : (⟨m, fleet.final m, false⟩ : Report N) ∈ sweep fleet members n :=
      mem_map_of_mem (mem_append_left _ hm)
    obtain ⟨pre, post, hsplit⟩ := append_of_mem hin
    refine ⟨pre, _, post, hsplit, rfl, rfl, fun r' hr' hnode => ?_⟩
    have hin' : r' ∈ sweep fleet members n := hsplit ▸ mem_append_right pre (mem_cons_of_mem _ hr')
    rw [(hfinal r' hin').2, hnode]

theorem sweep_poll (hdeadline : fleet.deadline n = some e) :
    poll (some fleet.duration) (sweep fleet members n) = some e := by
  have hpositive := fleet.positive n e hdeadline
  rw [poll_some, sweep, map_map, map_append, map_singleton, Function.comp_apply,
    final_of_deadline hdeadline, run_last hpositive]

theorem order_independent_iff : (∀ reports reports', Complete fleet members reports →
    Complete fleet members reports' → poll (some fleet.duration) reports = poll (some fleet.duration) reports') ↔
    Agreed fleet members := by
  constructor
  · intro hsame n hn m hm e e' he he'
    have hpoll := hsame _ _ (sweep_complete hn) (sweep_complete hm)
    rw [sweep_poll he, sweep_poll he'] at hpoll
    exact Option.some.inj hpoll
  · intro hagreed reports reports' h h'
    rcases poll_settles h with ⟨n, hn, e, he, hpoll⟩ | ⟨hidle, hpoll⟩
    · rcases poll_settles h' with ⟨m, hm, e', he', hpoll'⟩ | ⟨hidle', -⟩
      · rw [hpoll, hpoll', hagreed n hn m hm e e' he he']
      · rw [hidle' n hn] at he
        cases he
    · rw [hpoll, poll_idle h' hidle]

theorem activation_latched (fleet : Fleet N) (members : List N) :
    (∀ stored (reports later : List (Report N)) e, poll stored reports = some e → 0 < e →
      ∃ e', poll stored (reports ++ later) = some e' ∧ 0 < e') ∧
    (∀ reports, Complete fleet members reports →
      (∃ n ∈ members, ∃ e, fleet.deadline n = some e ∧ poll (some fleet.duration) reports = some e) ∨
        (∀ n ∈ members, fleet.deadline n = none) ∧ poll (some fleet.duration) reports = some fleet.duration) ∧
    ((∀ reports reports', Complete fleet members reports → Complete fleet members reports' →
      poll (some fleet.duration) reports = poll (some fleet.duration) reports') ↔ Agreed fleet members) :=
  ⟨fun _ _ later _ h he => poll_stays h he later, fun _ h => poll_settles h, order_independent_iff⟩

end merging

section examples

def twoNodes : Fleet Bool where
  duration := -50
  negative := by decide
  deadline n := some (if n then 200 else 100)
  positive n e h := by
    cases n <;> cases h <;> decide

theorem last_poll_decides : ¬ ∀ (fleet : Fleet Bool) (members : List Bool) (reports reports' : List (Report Bool)),
    Complete fleet members reports → Complete fleet members reports' →
      poll (some fleet.duration) reports = poll (some fleet.duration) reports' := by
  intro hclaim
  have hsame := hclaim twoNodes [true, false] _ _ (sweep_complete (n := true) (by decide))
    (sweep_complete (n := false) (by decide))
  have hpolls : poll (some (-50)) (sweep twoNodes [true, false] true) = some 200 ∧
      poll (some (-50)) (sweep twoNodes [true, false] false) = some 100 := by decide
  rw [show twoNodes.duration = -50 from rfl, hpolls.1, hpolls.2] at hsame
  cases hsame

end examples

end Activation

end QuiPanel
