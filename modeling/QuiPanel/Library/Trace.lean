import Mathlib.Algebra.Order.Monoid.Unbundled.Basic

namespace Trace

variable {σ α M : Type} {step : σ → α → σ} {P Q : σ → α → Prop} {I : σ → Prop} {s : σ} {as : List α}

def Throughout (step : σ → α → σ) (P : σ → α → Prop) : σ → List α → Prop
  | _, [] => True
  | s, a :: as => P s a ∧ Throughout step P (step s a) as

theorem Throughout.imp (h : Throughout step P s as) (hPQ : ∀ s a, P s a → Q s a) :
    Throughout step Q s as := by
  induction as generalizing s with
  | nil => trivial
  | cons a as ih => exact ⟨hPQ s a h.1, ih h.2⟩

theorem Throughout.keep (h : Throughout step P s as) (hs : I s)
    (hstep : ∀ s a, I s → P s a → I (step s a)) : Throughout step (fun s a => I s ∧ P s a) s as := by
  induction as generalizing s with
  | nil => trivial
  | cons a as ih => exact ⟨⟨hs, h.1⟩, ih h.2 (hstep s a hs h.1)⟩

theorem Throughout.foldl (h : Throughout step P s as) (hs : I s)
    (hstep : ∀ s a, I s → P s a → I (step s a)) : I (as.foldl step s) := by
  induction as generalizing s with
  | nil => exact hs
  | cons a as ih => exact ih h.2 (hstep s a hs h.1)

theorem Throughout.iff_of_keep (hs : I s) (hstep : ∀ s a, I s → I (step s a))
    (hPQ : ∀ s a, I s → (P s a ↔ Q s a)) : Throughout step P s as ↔ Throughout step Q s as := by
  induction as generalizing s with
  | nil => exact Iff.rfl
  | cons a as ih => exact and_congr (hPQ s a hs) (ih (hstep s a hs))

theorem Throughout.last {a : α} (h : Throughout step P s (as ++ [a])) : P (as.foldl step s) a := by
  induction as generalizing s with
  | nil => exact h.1
  | cons a' as ih => exact ih h.2

theorem Throughout.take (h : Throughout step P s as) (n : Nat) : Throughout step P s (as.take n) := by
  induction as generalizing s n with
  | nil =>
    rw [List.take_nil]
    trivial
  | cons a as ih =>
    cases n with
    | zero => trivial
    | succ n => exact ⟨h.1, ih h.2 n⟩

section total

variable [AddMonoid M] {f g : σ → α → M}

def total (step : σ → α → σ) (f : σ → α → M) : σ → List α → M
  | _, [] => 0
  | s, a :: as => f s a + total step f (step s a) as

theorem total_le [Preorder M] [AddLeftMono M] [AddRightMono M]
    (h : Throughout step (fun s a => f s a ≤ g s a) s as) : total step f s as ≤ total step g s as := by
  induction as generalizing s with
  | nil => exact le_refl _
  | cons a as ih => exact add_le_add h.1 (ih h.2)

end total

end Trace
