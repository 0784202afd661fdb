import Mathlib.Data.List.Forall2
import Mathlib.Data.Option.Basic

namespace Normal

variable {τ α δ : Type}

structure Codec (τ α : Type) where
  decode : τ → Option α
  encode : α → Option τ

structure Lawful (c : Codec τ α) (good : α → Prop) : Prop where
  decoded : ∀ t a, c.decode t = some a → good a
  encoded : ∀ a, good a → ∃ t, c.encode a = some t ∧ c.decode t = some a

structure Settles (step : δ → α → Option α) (good : α → Prop) : Prop where
  good : ∀ d a a', step d a = some a' → good a → good a'
  settled : ∀ d d' a a', step d a = some a' → step d' a' = none
  steady : ∀ d d' a, step d a = none → step d' a = none

def rewrite (c : Codec τ α) (step : α → Option α) (t : τ) : τ × Bool :=
  match c.decode t with
  | none => (t, false)
  | some a =>
    match step a with
    | none => (t, false)
    | some a' =>
      match c.encode a' with
      | none => (t, false)
      | some t' => (t', true)

variable {c : Codec τ α} {good : α → Prop} {step : δ → α → Option α} {d d' : δ} {t : τ} {a a' : α}

theorem rewrite_foreign {step : α → Option α} (h : c.decode t = none) : rewrite c step t = (t, false) := by
  rw [rewrite, h]

theorem rewrite_normal {step : α → Option α} (h : c.decode t = some a) (hstep : step a = none) :
    rewrite c step t = (t, false) := by
  simp only [rewrite, h, hstep]

theorem rewrite_encoded {step : α → Option α} {t' : τ} (h : c.decode t = some a) (hstep : step a = some a')
    (hencode : c.encode a' = some t') : rewrite c step t = (t', true) := by
  simp only [rewrite, h, hstep, hencode]

theorem rewrite_changed (hc : Lawful c good) (hs : Settles step good) (h : c.decode t = some a)
    (hstep : step d a = some a') : ∃ t', rewrite c (step d) t = (t', true) ∧ c.decode t' = some a' := by
  obtain ⟨t', hencode, hback⟩ := hc.encoded a' (hs.good d a a' hstep (hc.decoded t a h))
  exact ⟨t', rewrite_encoded h hstep hencode, hback⟩

theorem rewrite_decode (hc : Lawful c good) (hs : Settles step good) (h : c.decode t = some a) :
    c.decode (rewrite c (step d) t).1 = some ((step d a).getD a) := by
  cases hstep : step d a with
  | none => rwa [rewrite_normal h hstep]
  | some a' =>
    obtain ⟨t', hrewrite, hback⟩ := rewrite_changed hc hs h hstep
    rw [hrewrite]
    exact hback

theorem settled_getD (hs : Settles step good) (d d' : δ) (a : α) : step d' ((step d a).getD a) = none := by
  cases hstep : step d a with
  | none => exact hs.steady d d' a hstep
  | some a' => exact hs.settled d d' a a' hstep

theorem rewrite_idem (hc : Lawful c good) (hs : Settles step good) (d d' : δ) (t : τ) :
    rewrite c (step d') (rewrite c (step d) t).1 = ((rewrite c (step d) t).1, false) := by
  cases h : c.decode t with
  | none =>
    rw [rewrite_foreign h]
    exact rewrite_foreign h
  | some a => exact rewrite_normal (rewrite_decode hc hs h) (settled_getD hs d d' a)

theorem rewrite_unchanged {step : α → Option α} (h : (rewrite c step t).2 = false) : (rewrite c step t).1 = t := by
  rw [rewrite] at h ⊢
  split
  · rfl
  · split
    · rfl
    · split <;> simp_all

end Normal
