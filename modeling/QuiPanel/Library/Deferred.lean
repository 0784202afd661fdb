import QuiPanel.Library.Outcome

namespace Deferred

open Outcome

variable {σ α : Type}

inductive Escape
  | assigned (e : String)
  | shadowed (e : String)
  | panic (e : String)

inductive Answer
  | ok
  | error (e : String)
  | panic (e : String)

inductive Ending
  | none
  | rolledBack
  | committed
  | lost

structure Closed (σ : Type) where
  state : σ
  ending : Ending
  answer : Answer

def statement (fault : Option String) (s s' : σ) : σ × Except Escape Unit := exec (fault.map .assigned) s s'

def commit (fault : Option String) (before s : σ) (answer : Answer) : Closed σ :=
  match fault with
  | some _ => ⟨before, .lost, answer⟩
  | none => ⟨s, .committed, answer⟩

def finish (fault : Option String) (before : σ) : σ × Except Escape Unit → Closed σ
  | (_, .error (.assigned e)) => ⟨before, .rolledBack, .error e⟩
  | (s, .error (.shadowed e)) => commit fault before s (.error e)
  | (s, .error (.panic e)) => commit fault before s (.panic e)
  | (s, .ok ()) => commit fault before s .ok

def refused (before : σ) (e : String) : Closed σ := ⟨before, .none, .error e⟩

structure Atomic (before : σ) (full : σ → Prop) (c : Closed σ) : Prop where
  rejected : ∀ e, c.answer = .error e → (c.ending = .none ∨ c.ending = .rolledBack) ∧ c.state = before
  accepted : c.answer = .ok → c.ending = .committed ∧ full c.state

def Sound (fault : Option String) (full : σ → Prop) : σ × Except Escape Unit → Prop
  | (_, .error (.shadowed _)) => False
  | (s, .ok ()) => fault = none ∧ full s
  | _ => True

variable {fault : Option String} {before s s' : σ} {full : σ → Prop} {r : σ × Except Escape Unit} {e : String}
  {f : σ → Unit → σ × Except Escape Unit}

theorem refused_atomic : Atomic before full (refused before e) :=
  ⟨fun _ _ => ⟨.inl rfl, rfl⟩, fun h => nomatch h⟩

theorem commit_error : ¬Atomic before full (commit fault before s (.error e)) := by
  intro h
  cases fault with
  | none => exact (h.rejected e rfl).1.elim (fun h => nomatch h) fun h => nomatch h
  | some _ => exact (h.rejected e rfl).1.elim (fun h => nomatch h) fun h => nomatch h

theorem commit_panic : Atomic before full (commit fault before s (.panic e)) := by
  cases fault with
  | none => exact ⟨fun _ h => (nomatch h), fun h => nomatch h⟩
  | some _ => exact ⟨fun _ h => (nomatch h), fun h => nomatch h⟩

theorem commit_ok : Atomic before full (commit fault before s .ok) ↔ fault = none ∧ full s := by
  cases fault with
  | none => exact ⟨fun h => ⟨rfl, (h.accepted rfl).2⟩, fun h => ⟨fun _ h' => (nomatch h'), fun _ => ⟨rfl, h.2⟩⟩⟩
  | some _ => exact iff_of_false (fun h => nomatch (h.accepted rfl).1) fun h => nomatch h.1

theorem finish_atomic_iff : Atomic before full (finish fault before r) ↔ Sound fault full r := by
  rcases r with ⟨s, (e | e | e) | ⟨⟩⟩
  · exact iff_of_true ⟨fun _ _ => ⟨.inr rfl, rfl⟩, fun h => nomatch h⟩ trivial
  · exact iff_of_false commit_error fun h => h
  · exact iff_of_true commit_panic trivial
  · exact commit_ok

theorem statement_then (fail : Option String) :
    Sound fault full (andThen (statement fail s s') f) ↔ fail = none → Sound fault full (f s' ()) := by
  cases fail with
  | none => exact ⟨fun h _ => h, fun h => h rfl⟩
  | some e => exact iff_of_true trivial fun h => nomatch h

end Deferred
