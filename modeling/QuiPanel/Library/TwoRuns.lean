import QuiPanel.Library.Trace

namespace TwoRuns

open Trace

variable {σ α ω : Type} {step : σ → α → σ} {view : σ → ω} {low : ω → α → ω} {hidden : α → Bool}
  {good : σ → α → Prop} {s t : σ} {as bs : List α}

structure Unseen (step : σ → α → σ) (view : σ → ω) (low : ω → α → ω) (hidden : α → Bool)
    (good : σ → α → Prop) : Prop where
  silent : ∀ s a, hidden a = true → view (step s a) = view s
  visible : ∀ s a, hidden a = false → good s a → view (step s a) = low (view s) a

def shown (hidden : α → Bool) (as : List α) : List α := as.filter fun a => !hidden a

theorem view_run (h : Unseen step view low hidden good) (has : Throughout step good s as) :
    view (as.foldl step s) = (shown hidden as).foldl low (view s) := by
  induction as generalizing s with
  | nil => rfl
  | cons a as ih =>
    rw [List.foldl_cons, ih has.2]
    cases ha : hidden a with
    | true =>
      have hskip : shown hidden (a :: as) = shown hidden as := by simp [shown, ha]
      rw [hskip, h.silent s a ha]
    | false =>
      have hkeep : shown hidden (a :: as) = a :: shown hidden as := by simp [shown, ha]
      rw [hkeep, List.foldl_cons, h.visible s a ha has.1]

theorem view_agree (h : Unseen step view low hidden good) (hst : view s = view t)
    (has : Throughout step good s as) (hbs : Throughout step good t bs)
    (hsame : shown hidden as = shown hidden bs) : view (as.foldl step s) = view (bs.foldl step t) := by
  rw [view_run h has, view_run h hbs, hsame, hst]

end TwoRuns
