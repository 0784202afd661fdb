import QuiPanel.Library.Outcome

namespace OpenTx

open Outcome

variable {σ α β : Type}

inductive Failure
  | error
  | panic

structure Tx (σ : Type) where
  state : σ
  wrote : Bool

def begun (s : σ) : Tx σ := ⟨s, false⟩

def Tx.wrap (t : Tx σ) (s : σ) (wrote : Bool) : Tx σ := ⟨s, t.wrote || wrote⟩

def read (fails : Bool) (t : Tx σ) : Tx σ × Except Failure Unit := exec (if fails then some .error else none) t t

def write (fails : Bool) (t : Tx σ) (s : σ) : Tx σ × Except Failure Unit :=
  exec (if fails then some .error else none) t ⟨s, true⟩

def close (commitFails : Bool) (before : σ) (r : Tx σ × Except Failure α) : σ × Bool :=
  match r.2 with
  | .error .error => (before, false)
  | _ => if commitFails then (before, false) else (r.1.state, true)

def Fails (r : Tx σ × Except Failure α) : Prop := ∃ e, r.2 = .error e

def Clean (r : Tx σ × Except Failure α) : Prop := Fails r → r.1.wrote = false

section clean

variable {t : Tx σ} {s : σ} {fails : Bool} {f : Tx σ → Unit → Tx σ × Except Failure α} {a : α} {e : Failure}

theorem fails_ok : ¬Fails (t, (.ok a : Except Failure α)) := fun ⟨_, h⟩ => nomatch h

theorem fails_error : Fails (t, (.error e : Except Failure α)) := ⟨e, rfl⟩

theorem clean_ok : Clean (t, (.ok a : Except Failure α)) := fun h => absurd h fails_ok

theorem clean_error : Clean (t, (.error e : Except Failure α)) ↔ t.wrote = false :=
  ⟨fun h => h fails_error, fun h _ => h⟩

variable {r : Tx σ × Except Failure α}

theorem clean_of_unwritten (h : r.1.wrote = false) : Clean r := fun _ => h

theorem clean_iff_succeeds (h : r.1.wrote = true) : Clean r ↔ ¬Fails r :=
  ⟨fun hclean hfails => Bool.false_ne_true ((hclean hfails).symm.trans h), fun hok hfails => absurd hfails hok⟩

theorem read_then : andThen (read fails t) f = if fails then (t, .error .error) else f t () := by
  cases fails <;> rfl

theorem write_then : andThen (write fails t s) f = if fails then (t, .error .error) else f ⟨s, true⟩ () := by
  cases fails <;> rfl

theorem write_state : (write fails t s).1 = if fails then t else ⟨s, true⟩ := by
  cases fails <;> rfl

theorem fails_andThen {r : Tx σ × Except Failure β} {g : Tx σ → β → Tx σ × Except Failure α} :
    Fails (andThen r g) ↔ Fails r ∨ ∃ b, r.2 = .ok b ∧ Fails (g r.1 b) := by
  obtain ⟨t, x⟩ := r
  cases x with
  | error e => exact iff_of_true fails_error (.inl fails_error)
  | ok b =>
    constructor
    · intro h
      exact .inr ⟨b, rfl, h⟩
    · rintro (h | ⟨b', hb, h⟩)
      · exact absurd h fails_ok
      · cases hb
        exact h

theorem close_ok (h : ¬Fails r) :
    close fails s r = if fails then (s, false) else (r.1.state, true) := by
  obtain ⟨t, x⟩ := r
  cases x with
  | error e => exact absurd fails_error h
  | ok a => rfl

end clean

end OpenTx
