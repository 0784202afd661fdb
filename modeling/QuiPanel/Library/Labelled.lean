import Mathlib.Logic.Basic

namespace Labelled

variable {σ α : Type}

inductive Run (step : σ → α → σ → Prop) : σ → List α → σ → Prop
  | nil (s : σ) : Run step s [] s
  | cons {s t u : σ} {a : α} {as : List α} (h : step s a t) (hrest : Run step t as u) :
      Run step s (a :: as) u

variable {step : σ → α → σ → Prop} {s t u : σ} {as bs : List α}

theorem Run.single {a : α} (h : step s a t) : Run step s [a] t := .cons h (.nil t)

variable {I : σ → Prop}

theorem Run.invariant (hstep : ∀ s a t, I s → step s a t → I t)
    (h : Run step s as t) (hs : I s) : I t := by
  induction h with
  | nil => exact hs
  | cons hst _ ih => exact ih (hstep _ _ _ hs hst)

theorem Run.guarded {G : σ → α → Prop}
    (hstep : ∀ s a t, I s → G s a → step s a t → I t)
    (h : Run (fun s a t => G s a ∧ step s a t) s as t) (hs : I s) : I t :=
  h.invariant (fun s a t hI hst => hstep s a t hI hst.1 hst.2) hs

theorem Run.mono {step' : σ → α → σ → Prop} (hstep : ∀ s a t, step s a t → step' s a t)
    (h : Run step s as t) : Run step' s as t := by
  induction h with
  | nil => exact .nil _
  | cons hst _ ih => exact .cons (hstep _ _ _ hst) ih

theorem Run.bounded (rank : σ → Nat)
    (hstep : ∀ s a t, I s → step s a t → I t ∧ rank t < rank s) (h : Run step s as t) (hs : I s) :
    as.length + rank t ≤ rank s ∧ I t := by
  induction h with
  | nil => exact ⟨by simp, hs⟩
  | cons hst _ ih =>
    obtain ⟨hI, hlt⟩ := hstep _ _ _ hs hst
    obtain ⟨hle, hlast⟩ := ih hI
    refine ⟨?_, hlast⟩
    rw [List.length_cons]
    omega

end Labelled
