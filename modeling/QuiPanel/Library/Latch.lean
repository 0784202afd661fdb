import Mathlib.Data.List.Basic

namespace Latch

variable {α : Type} {p : α → Prop} [DecidablePred p] {s x : α} {xs : List α}

def latch (p : α → Prop) [DecidablePred p] (s x : α) : α := if p s ∧ ¬p x then s else x

def run (p : α → Prop) [DecidablePred p] (s : α) (xs : List α) : α := xs.foldl (latch p) s

theorem latch_holds (h : p s) : p (latch p s x) := by
  rw [latch]
  split
  case isTrue => exact h
  case isFalse hnew => exact not_not.mp fun hx => hnew ⟨h, hx⟩

theorem latch_of_holds (h : p x) : latch p s x = x := if_neg fun hnew => hnew.2 h

theorem latch_of_unset (h : ¬p s) : latch p s x = x := if_neg fun hold => h hold.1

theorem run_append (xs ys : List α) : run p s (xs ++ ys) = run p (run p s xs) ys := List.foldl_append

theorem run_holds (h : p s) : p (run p s xs) := by
  induction xs generalizing s with
  | nil => exact h
  | cons x xs ih => exact ih (latch_holds h)

theorem run_mem_of_holds (h : p (run p s xs)) : run p s xs = s ∨ run p s xs ∈ xs := by
  induction xs generalizing s with
  | nil => exact .inl rfl
  | cons x xs ih =>
    rcases ih h with hs | hin
    · have hsplit : latch p s x = s ∨ latch p s x = x := by
        rw [latch]
        split
        · exact .inl rfl
        · exact .inr rfl
      have hrun : run p s (x :: xs) = latch p s x := hs
      rcases hsplit with hkept | hnew
      · exact .inl (hrun.trans hkept)
      · rw [hrun, hnew]
        exact .inr List.mem_cons_self
    · exact .inr (List.mem_cons_of_mem x hin)

theorem run_holds_of_mem (hx : x ∈ xs) (h : p x) : p (run p s xs) := by
  obtain ⟨pre, post, rfl⟩ := List.append_of_mem hx
  have hlatched : p (latch p (run p s pre) x) := by
    rw [latch_of_holds h]
    exact h
  have hstep : run p (run p s pre) (x :: post) = run p (latch p (run p s pre) x) post := rfl
  rw [run_append, hstep]
  exact run_holds hlatched

theorem run_last (h : p x) : run p s (xs ++ [x]) = x := by
  rw [run_append]
  exact latch_of_holds h

theorem run_unset (h : ∀ y ∈ xs, ¬p y) (hs : ¬p s) : run p s (xs ++ [x]) = x := by
  have hrun : ¬p (run p s xs) := by
    intro hholds
    rcases run_mem_of_holds hholds with heq | hin
    · exact hs (heq ▸ hholds)
    · exact h _ hin hholds
  rw [run_append]
  exact latch_of_unset hrun

end Latch
