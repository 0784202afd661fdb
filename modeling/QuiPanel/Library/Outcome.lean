import Mathlib.Logic.Basic

namespace Outcome

variable {ε α β : Type}

def check (c : Bool) (e : ε) : Except ε Unit := if c then .ok () else .error e

def orErr (x : Option α) (e : ε) : Except ε α := x.elim (.error e) .ok

def andThen {σ : Type} (r : σ × Except ε α) (f : σ → α → σ × Except ε β) : σ × Except ε β :=
  match r with
  | (s, .error e) => (s, .error e)
  | (s, .ok a) => f s a

def commit {σ : Type} (s : σ) (r : Except ε σ) : σ × Except ε Unit :=
  match r with
  | .error e => (s, .error e)
  | .ok s' => (s', .ok ())

def exec {σ : Type} (fault : Option ε) (s s' : σ) : σ × Except ε Unit :=
  match fault with
  | some e => (s, .error e)
  | none => (s', .ok ())

theorem andThen_ok {σ : Type} {r : σ × Except ε α} {f : σ → α → σ × Except ε β} {s' : σ} {b : β} :
    andThen r f = (s', .ok b) ↔ ∃ s a, r = (s, .ok a) ∧ f s a = (s', .ok b) := by
  obtain ⟨s, x⟩ := r
  cases x with
  | error e => simp [andThen]
  | ok a => simp [andThen, and_assoc]

theorem andThen_assoc {σ γ : Type} {r : σ × Except ε α} {f : σ → α → σ × Except ε β}
    {g : σ → β → σ × Except ε γ} : andThen (andThen r f) g = andThen r fun s a => andThen (f s a) g := by
  obtain ⟨s, x⟩ := r
  cases x <;> rfl

theorem exec_ok {σ : Type} {fault : Option ε} {s s' t : σ} {u : Unit} :
    exec fault s s' = (t, .ok u) ↔ fault = none ∧ t = s' := by
  cases fault with
  | none => simp [exec, eq_comm]
  | some e => simp [exec]

theorem bind_ok {x : Except ε α} {f : α → Except ε β} {b : β} :
    (x >>= f) = .ok b ↔ ∃ a, x = .ok a ∧ f a = .ok b := by
  cases x with
  | error e => simp [bind, Except.bind]
  | ok a => simp [bind, Except.bind]

theorem check_ok {c : Bool} {e : ε} {u : Unit} : check c e = .ok u ↔ c = true := by
  cases c <;> simp [check]

theorem orErr_ok {x : Option α} {e : ε} {a : α} : orErr x e = .ok a ↔ x = some a := by
  cases x <;> simp [orErr]

theorem foldlM_agrees {f g : β → α → Except ε β} (hagree : ∀ b a b', f b a = .ok b' → g b a = .ok b')
    {as : List α} {b b' : β} (h : as.foldlM f b = .ok b') : as.foldlM g b = .ok b' := by
  induction as generalizing b with
  | nil => exact h
  | cons a as ih =>
    rw [List.foldlM_cons, bind_ok] at h
    obtain ⟨mid, hf, hrest⟩ := h
    rw [List.foldlM_cons, bind_ok]
    exact ⟨mid, hagree b a mid hf, ih hrest⟩

end Outcome
