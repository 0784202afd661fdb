import Mathlib.Order.Lattice
import Mathlib.Order.MinMax

namespace Peaks

variable {R T : Type} [LinearOrder T] {f : R → T} {a : T} {l l' : List R}

def peak (f : R → T) (a : T) (l : List R) : T := l.foldl (fun m r => max m (f r)) a

theorem peak_le_iff {b : T} : peak f a l ≤ b ↔ a ≤ b ∧ ∀ r ∈ l, f r ≤ b := by
  induction l generalizing a with
  | nil => simp [peak]
  | cons r l ih =>
    have hstep : peak f a (r :: l) = peak f (max a (f r)) l := rfl
    rw [hstep, ih, max_le_iff, List.forall_mem_cons, and_assoc]

theorem le_peak : a ≤ peak f a l := (peak_le_iff.mp le_rfl).1

theorem le_peak_of_mem {r : R} (h : r ∈ l) : f r ≤ peak f a l := (peak_le_iff.mp le_rfl).2 r h

theorem peak_attained : peak f a l = a ∨ ∃ r ∈ l, peak f a l = f r := by
  induction l generalizing a with
  | nil => exact .inl rfl
  | cons r l ih =>
    have hstep : peak f a (r :: l) = peak f (max a (f r)) l := rfl
    rw [hstep]
    rcases @ih (max a (f r)) with h | ⟨r', hr', h⟩
    · rcases max_choice a (f r) with hmax | hmax
      · exact .inl (h.trans hmax)
      · exact .inr ⟨r, List.mem_cons_self, h.trans hmax⟩
    · exact .inr ⟨r', List.mem_cons_of_mem _ hr', h⟩

theorem le_peak_iff {b : T} : b ≤ peak f a l ↔ b ≤ a ∨ ∃ r ∈ l, b ≤ f r := by
  constructor
  · intro h
    rcases @peak_attained _ _ _ f a l with heq | ⟨r, hr, heq⟩
    · exact .inl (heq ▸ h)
    · exact .inr ⟨r, hr, heq ▸ h⟩
  · rintro (h | ⟨r, hr, h⟩)
    · exact h.trans le_peak
    · exact h.trans (le_peak_of_mem hr)

def Peaked (f : R → T) (a : T) (l l' : List R) : Prop := ∀ r ∈ l, f r ≤ a ∨ ∃ r' ∈ l', f r ≤ f r'

theorem peak_le_peak_iff : peak f a l ≤ peak f a l' ↔ Peaked f a l l' := by
  rw [peak_le_iff]
  constructor
  · exact fun h r hr => le_peak_iff.mp (h.2 r hr)
  · exact fun h => ⟨le_peak, fun r hr => le_peak_iff.mpr (h r hr)⟩

theorem peak_eq_iff : peak f a l = peak f a l' ↔ Peaked f a l l' ∧ Peaked f a l' l := by
  rw [le_antisymm_iff, peak_le_peak_iff, peak_le_peak_iff]

end Peaks
