import Mathlib.Logic.Function.Basic
import Mathlib.Data.List.Basic

namespace Sweep

variable {K A S R : Type} [DecidableEq K]

def visit (g : K → A → A) (c : K → A) (k : K) : K → A := Function.update c k (g k (c k))

def after (g : K → A → A) (c : K → A) (ks : List K) : K → A := ks.foldl (visit g) c

def Throughout (g : K → A → A) (P : (K → A) → K → Prop) (c : K → A) (ks : List K) : Prop :=
  ∀ pre k post, ks = pre ++ k :: post → P (after g c pre) k

inductive Run (step : S → K → S → Prop) : S → List K → S → Prop
  | nil (s : S) : Run step s [] s
  | cons {s mid s' : S} {k : K} {ks : List K} (hstep : step s k mid) (hrest : Run step mid ks s') :
      Run step s (k :: ks) s'

structure Visited (g : K → A → A) (P : (K → A) → K → Prop) (view : S → K → A) (rows : S → R)
    (purge : R → R) (s : S) (k : K) (s' : S) : Prop where
  content : view s' = visit g (view s) k
  kept : P (view s) k → rows s' = rows s
  purged : ¬P (view s) k → rows s' = purge (rows s)

variable {g : K → A → A} {P : (K → A) → K → Prop} {c : K → A} {k : K} {ks : List K}
  {step : S → K → S → Prop} {view : S → K → A} {rows : S → R} {purge : R → R} {I : S → Prop} {s s' : S}

theorem throughout_nil : Throughout g P c [] := by
  intro pre k post h
  exact absurd h.symm (List.append_ne_nil_of_right_ne_nil pre (List.cons_ne_nil k post))

theorem throughout_cons : Throughout g P c (k :: ks) ↔ P c k ∧ Throughout g P (visit g c k) ks := by
  constructor
  · intro h
    refine ⟨h [] k ks rfl, fun pre j post hks => ?_⟩
    exact h (k :: pre) j post (congrArg (k :: ·) hks)
  · rintro ⟨hk, hks⟩ pre j post h
    cases pre with
    | nil =>
      obtain ⟨rfl, -⟩ := List.cons.inj h
      exact hk
    | cons k' pre =>
      obtain ⟨rfl, hrest⟩ := List.cons.inj h
      exact hks pre j post hrest

omit [DecidableEq K] in
theorem Run.invariant (hinv : ∀ s k s', I s → step s k s' → I s') (hrun : Run step s ks s')
    (hs : I s) : I s' := by
  induction hrun with
  | nil => exact hs
  | cons h _ ih => exact ih (hinv _ _ _ hs h)

theorem Run.visited (hinv : ∀ s k s', I s → step s k s' → I s')
    (hvisit : ∀ s k s', I s → step s k s' → Visited g P view rows purge s k s')
    (htwice : ∀ r, purge (purge r) = purge r) (hrun : Run step s ks s') (hs : I s) :
    (Throughout g P (view s) ks → rows s' = rows s) ∧
      (¬Throughout g P (view s) ks → rows s' = purge (rows s)) := by
  induction hrun with
  | nil => exact ⟨fun _ => rfl, fun h => absurd throughout_nil h⟩
  | @cons s mid s' k ks h _ ih =>
    have hv := hvisit _ _ _ hs h
    obtain ⟨hkept, hpurged⟩ := ih (hinv _ _ _ hs h)
    rw [hv.content] at hkept hpurged
    rw [throughout_cons]
    constructor
    · rintro ⟨hk, hks⟩
      exact (hkept hks).trans (hv.kept hk)
    · intro hlost
      by_cases hk : P (view s) k
      · exact (hpurged fun hks => hlost ⟨hk, hks⟩).trans (congrArg purge (hv.kept hk))
      · have hfirst := hv.purged hk
        by_cases hks : Throughout g P (visit g (view s) k) ks
        · exact (hkept hks).trans hfirst
        · rw [hpurged hks, hfirst, htwice]

end Sweep
