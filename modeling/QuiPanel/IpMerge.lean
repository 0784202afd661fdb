import QuiPanel.IpLimit

namespace QuiPanel

namespace IpMerge

open KeyedDiff Latest IpLimit

section model

structure Iteration where
  order : List IPWithTimestamp → List IPWithTimestamp
  perm : ∀ l, (order l).Perm l

def newestFirst (l : List IPWithTimestamp) : List IPWithTimestamp :=
  l.mergeSort fun a b => b.timestamp ≤ a.timestamp

def mergeFresh (i : Iteration) (fresh : IPWithTimestamp → Bool) (old incoming : List IPWithTimestamp) :
    List IPWithTimestamp :=
  newestFirst (i.order ((incoming.filter fresh).foldl (offer (·.ip) (·.timestamp))
    (replaceAll (·.ip) [] (old.filter fresh))))

def mergeClientIpEntries (i : Iteration) (old incoming : List IPWithTimestamp) (cutoff : Int) :
    List IPWithTimestamp :=
  mergeFresh i (fun e => !decide (e.timestamp < cutoff)) old incoming

def mergeModelClientIpEntries (i : Iteration) (old incoming : List IPWithTimestamp) (cutoff : Int) :
    List IPWithTimestamp :=
  mergeFresh i (fun e => !(e.ip == "" || decide (e.timestamp < cutoff))) old incoming

end model

section fold

inductive Fold
  | report (entries : List IPWithTimestamp)
  | merge (i : Iteration) (old incoming : Fold)

namespace Fold

def eval (cutoff : Int) : Fold → List IPWithTimestamp
  | report entries => entries
  | merge i old incoming => mergeClientIpEntries i (old.eval cutoff) (incoming.eval cutoff) cutoff

def Distinct : Fold → Prop
  | report entries => (entries.map (·.ip)).Nodup
  | merge _ _ _ => True

def Sound : Fold → Prop
  | report _ => True
  | merge _ old incoming => old.Distinct ∧ old.Sound ∧ incoming.Sound

def Merged : Fold → Prop
  | report _ => False
  | merge _ _ _ => True

def reports : Fold → List IPWithTimestamp
  | report entries => entries
  | merge _ old incoming => old.reports ++ incoming.reports

def raise (cutoff : Int) : Fold → Fold
  | report entries => report (entries.filter fun e => cutoff ≤ e.timestamp)
  | merge i old incoming => merge i (old.raise cutoff) (incoming.raise cutoff)

def Reported (cutoff : Int) (t : Fold) (e : IPWithTimestamp) : Prop := cutoff ≤ e.timestamp ∧ e ∈ t.reports

end Fold

end fold

section join

variable {i : Iteration} {old incoming : List IPWithTimestamp} {cutoff cutoff' : Int} {t t' a b : Fold}
  {e : IPWithTimestamp}

theorem mergeFresh_covers {fresh : IPWithTimestamp → Bool} (hold : (old.map (·.ip)).Nodup) :
    Covers (·.ip) (·.timestamp) (fun e => fresh e = true ∧ (e ∈ old ∨ e ∈ incoming))
      (mergeFresh i fresh old incoming) := by
  have hstored : Covers (·.ip) (·.timestamp) _ (replaceAll (·.ip) [] (old.filter fresh)) :=
    covers_replaceAll Covers.nil (hold.sublist (List.filter_sublist.map _)) fun _ _ _ h => h.elim
  have hoffered := @covers_offers _ _ _ _ _ _ _ _ _ (incoming.filter fresh) hstored
  have hperm : (mergeFresh i fresh old incoming).Perm ((incoming.filter fresh).foldl (offer (·.ip) (·.timestamp))
      (replaceAll (·.ip) [] (old.filter fresh))) := (List.mergeSort_perm _ _).trans (i.perm _)
  refine ⟨(hperm.map _).nodup_iff.mpr hoffered.nodup, fun e he => ?_, fun e he => ?_⟩
  · have hsound := hoffered.sound e (hperm.mem_iff.mp he)
    simp only [List.mem_filter, false_or] at hsound
    rcases hsound with ⟨hmem, hfresh⟩ | ⟨hmem, hfresh⟩
    · exact ⟨hfresh, .inl hmem⟩
    · exact ⟨hfresh, .inr hmem⟩
  · obtain ⟨e', he', hkey, hle⟩ := hoffered.complete e (by
      simp only [List.mem_filter, false_or]
      exact he.2.imp (⟨·, he.1⟩) (⟨·, he.1⟩))
    exact ⟨e', hperm.mem_iff.mpr he', hkey, hle⟩

theorem mergeModelClientIpEntries_eq (i : Iteration) (old incoming : List IPWithTimestamp) (cutoff : Int) :
    mergeModelClientIpEntries i old incoming cutoff =
      mergeClientIpEntries i (old.filter (·.ip ≠ "")) (incoming.filter (·.ip ≠ "")) cutoff := by
  have hfilter : ∀ l : List IPWithTimestamp, (l.filter fun e => !(e.ip == "" || decide (e.timestamp < cutoff))) =
      (l.filter (·.ip ≠ "")).filter fun e => !decide (e.timestamp < cutoff) := by
    intro l
    rw [List.filter_filter]
    refine List.filter_congr fun e _ => ?_
    by_cases hip : e.ip = ""
    · simp [hip]
    · simp [hip]
  rw [mergeModelClientIpEntries, mergeClientIpEntries, mergeFresh, mergeFresh, hfilter, hfilter]

theorem mergeClientIpEntries_covers (hold : (old.map (·.ip)).Nodup) :
    Covers (·.ip) (·.timestamp) (fun e => cutoff ≤ e.timestamp ∧ (e ∈ old ∨ e ∈ incoming))
      (mergeClientIpEntries i old incoming cutoff) :=
  (mergeFresh_covers hold).congr fun e => by simp

theorem entry_ext (e e' : IPWithTimestamp) (hip : e.ip = e'.ip) (htime : e.timestamp = e'.timestamp) : e = e' := by
  cases e
  cases e'
  cases hip
  cases htime
  rfl

-- what a subtree holds answers for everything reported under it
structure Answers (cutoff : Int) (t : Fold) : Prop where
  sound : ∀ e ∈ t.eval cutoff, cutoff ≤ e.timestamp → e ∈ t.reports
  complete : ∀ e ∈ t.reports, cutoff ≤ e.timestamp →
    ∃ e' ∈ t.eval cutoff, e'.ip = e.ip ∧ e.timestamp ≤ e'.timestamp
  distinct : t.Distinct → ((t.eval cutoff).map (·.ip)).Nodup

theorem Answers.merge (hdistinct : a.Distinct) (ha : Answers cutoff a) (hb : Answers cutoff b) :
    Covers (·.ip) (·.timestamp) ((Fold.merge i a b).Reported cutoff) ((Fold.merge i a b).eval cutoff) := by
  have hcovers := @mergeClientIpEntries_covers i (a.eval cutoff) (b.eval cutoff) cutoff (ha.distinct hdistinct)
  refine ⟨hcovers.nodup, fun e he => ?_, fun e he => ?_⟩
  · obtain ⟨hfresh, hmem⟩ := hcovers.sound e he
    exact ⟨hfresh, List.mem_append.mpr (hmem.imp (ha.sound e · hfresh) (hb.sound e · hfresh))⟩
  · obtain ⟨hfresh, hmem⟩ := he
    have hheld : ∃ e', (e' ∈ a.eval cutoff ∨ e' ∈ b.eval cutoff) ∧ e'.ip = e.ip ∧ e.timestamp ≤ e'.timestamp := by
      rcases List.mem_append.mp hmem with hmem | hmem
      · obtain ⟨e', he', hkey, hle⟩ := ha.complete e hmem hfresh
        exact ⟨e', .inl he', hkey, hle⟩
      · obtain ⟨e', he', hkey, hle⟩ := hb.complete e hmem hfresh
        exact ⟨e', .inr he', hkey, hle⟩
    obtain ⟨e', he', hkey, hle⟩ := hheld
    obtain ⟨e'', he'', hkey', hle'⟩ := hcovers.complete e' ⟨hfresh.trans hle, he'⟩
    exact ⟨e'', he'', hkey'.trans hkey, hle.trans hle'⟩

theorem answers (h : t.Sound) : Answers cutoff t := by
  induction t with
  | report entries => exact ⟨fun e he _ => he, fun e he _ => ⟨e, he, rfl, le_rfl⟩, fun hdistinct => hdistinct⟩
  | merge i a b iha ihb =>
    obtain ⟨hdistinct, ha, hb⟩ := h
    have hcovers := @Answers.merge i cutoff a b hdistinct (iha ha) (ihb hb)
    exact ⟨fun e he _ => (hcovers.sound e he).2, fun e he hfresh => hcovers.complete e ⟨hfresh, he⟩,
      fun _ => hcovers.nodup⟩

theorem eval_covers (h : t.Sound) (hmerged : t.Merged) :
    Covers (·.ip) (·.timestamp) (t.Reported cutoff) (t.eval cutoff) := by
  cases t with
  | report entries => exact hmerged.elim
  | merge i a b => exact Answers.merge h.1 (answers h.2.1) (answers h.2.2)

theorem mem_reports_raise : e ∈ (t.raise cutoff).reports ↔ cutoff ≤ e.timestamp ∧ e ∈ t.reports := by
  induction t with
  | report entries => simp [Fold.raise, Fold.reports, and_comm]
  | merge i a b iha ihb =>
    rw [Fold.raise, Fold.reports, Fold.reports, List.mem_append, List.mem_append, iha, ihb, and_or_left]

theorem sound_raise (h : t.Sound) : (t.raise cutoff).Sound := by
  induction t with
  | report entries => trivial
  | merge i a b iha ihb =>
    obtain ⟨hdistinct, ha, hb⟩ := h
    refine ⟨?_, iha ha, ihb hb⟩
    cases a with
    | report entries => exact hdistinct.sublist (List.filter_sublist.map _)
    | merge i a b => trivial

theorem merged_raise (h : t.Merged) : (t.raise cutoff).Merged := by
  cases t with
  | report entries => exact h
  | merge i a b => trivial

theorem latest_congr {S S' : IPWithTimestamp → Prop} (h : ∀ e, S e ↔ S' e) :
    IsLatest (·.ip) (·.timestamp) S e ↔ IsLatest (·.ip) (·.timestamp) S' e := by
  simp only [IsLatest, h]

theorem mem_eval (h : t.Sound) (hmerged : t.Merged) :
    e ∈ t.eval cutoff ↔ IsLatest (·.ip) (·.timestamp) (t.Reported cutoff) e :=
  (eval_covers h hmerged).mem_iff entry_ext

theorem mem_eval_congr (h : t.Sound) (hmerged : t.Merged) (h' : t'.Sound) (hmerged' : t'.Merged)
    (hsame : ∀ e, t.Reported cutoff e ↔ t'.Reported cutoff' e) : e ∈ t.eval cutoff ↔ e ∈ t'.eval cutoff' := by
  rw [mem_eval h hmerged, mem_eval h' hmerged', latest_congr hsame]

theorem mem_evicted (h : t.Sound) (hmerged : t.Merged) (hraised : cutoff ≤ cutoff') (j : Iteration) :
    e ∈ mergeClientIpEntries j (t.eval cutoff) [] cutoff' ↔ e ∈ t.eval cutoff' := by
  have hcovers := @eval_covers cutoff t h hmerged
  have hevicted := @mergeClientIpEntries_covers j (t.eval cutoff) [] cutoff' hcovers.nodup
  rw [hevicted.mem_iff entry_ext, mem_eval h hmerged]
  constructor
  · rintro ⟨⟨hfresh, hmem⟩, hlate⟩
    have hmem := hmem.resolve_right List.not_mem_nil
    refine ⟨⟨hfresh, (hcovers.sound e hmem).2⟩, fun e' he' hkey => ?_⟩
    obtain ⟨e'', he'', hkey', hle⟩ := hcovers.complete e' ⟨hraised.trans he'.1, he'.2⟩
    exact hle.trans (hlate e'' ⟨he'.1.trans hle, .inl he''⟩ (hkey'.trans hkey))
  · rintro ⟨⟨hfresh, hmem⟩, hlate⟩
    have hheld : e ∈ t.eval cutoff := by
      rw [mem_eval h hmerged]
      refine ⟨⟨hraised.trans hfresh, hmem⟩, fun e' he' hkey => ?_⟩
      rcases le_or_gt cutoff' e'.timestamp with hle | hlt
      · exact hlate e' ⟨hle, he'.2⟩ hkey
      · exact hlt.le.trans hfresh
    refine ⟨⟨hfresh, .inl hheld⟩, fun e' he' hkey => ?_⟩
    have hmem' := he'.2.resolve_right List.not_mem_nil
    exact hlate e' ⟨he'.1, (hcovers.sound e' hmem').2⟩ hkey

theorem ip_merge_is_join (h : t.Sound) (hmerged : t.Merged) (h' : t'.Sound) (hmerged' : t'.Merged)
    (hsame : ∀ e, e ∈ t.reports ↔ e ∈ t'.reports) (hraised : cutoff ≤ cutoff') (j : Iteration) :
    ((t.eval cutoff).map (·.ip)).Nodup ∧
      (∀ e, e ∈ t.eval cutoff ↔ IsLatest (·.ip) (·.timestamp) (t.Reported cutoff) e) ∧
      (∀ e, e ∈ t.eval cutoff ↔ e ∈ t'.eval cutoff) ∧
      (∀ e, e ∈ mergeClientIpEntries j (t.eval cutoff) [] cutoff' ↔ e ∈ t.eval cutoff') ∧
      ∀ e, e ∈ (t.raise cutoff').eval cutoff ↔ e ∈ t.eval cutoff' := by
  refine ⟨(eval_covers h hmerged).nodup, fun e => mem_eval h hmerged, fun e => ?_,
    fun e => mem_evicted h hmerged hraised j, fun e => ?_⟩
  · exact mem_eval_congr h hmerged h' hmerged' fun e => and_congr_right fun _ => hsame e
  · refine mem_eval_congr (sound_raise h) (merged_raise hmerged) h hmerged fun e => ?_
    rw [Fold.Reported, Fold.Reported, mem_reports_raise]
    constructor
    · exact fun he => he.2
    · exact fun he => ⟨hraised.trans he.1, he⟩

def asIs : Iteration := ⟨fun l => l, fun l => List.Perm.refl l⟩

def stored : List IPWithTimestamp := [⟨"10.0.0.1", 10⟩, ⟨"10.0.0.2", 3⟩]

def remote : List IPWithTimestamp := [⟨"10.0.0.1", 12⟩, ⟨"10.0.0.3", 7⟩]

def pulled : Fold := .merge asIs (.report stored) (.report remote)

def pushedTwice : Fold :=
  .merge asIs (.merge asIs (.report []) (.report remote)) (.merge asIs (.report stored) pulled)

theorem ip_merge_is_join_pulled :
    ((pulled.eval 5).map (·.ip)).Nodup ∧
      (∀ e, e ∈ pulled.eval 5 ↔ IsLatest (·.ip) (·.timestamp) (pulled.Reported 5) e) ∧
      (∀ e, e ∈ pulled.eval 5 ↔ e ∈ pushedTwice.eval 5) ∧
      (∀ e, e ∈ mergeClientIpEntries asIs (pulled.eval 5) [] 9 ↔ e ∈ pulled.eval 9) ∧
      ∀ e, e ∈ (pulled.raise 9).eval 5 ↔ e ∈ pulled.eval 9 := by
  have hstored : (stored.map (·.ip)).Nodup := by decide
  have hpulled : pulled.Sound := ⟨hstored, trivial, trivial⟩
  have hpushed : pushedTwice.Sound := ⟨trivial, ⟨List.nodup_nil, trivial, trivial⟩, hstored, trivial, hpulled⟩
  refine @ip_merge_is_join 5 9 pulled pushedTwice hpulled trivial hpushed trivial (fun e => ?_) (by decide) asIs
  simp only [pulled, pushedTwice, Fold.reports, List.mem_append, List.not_mem_nil, false_or]
  grind

end join

end IpMerge

end QuiPanel
