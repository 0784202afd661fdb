import Mathlib.Algebra.Order.BigOperators.Group.List
import Mathlib.Algebra.Order.Group.Int
import Mathlib.Data.List.Perm.Subperm
import Mathlib.Tactic.Linarith

namespace Sums

open List

variable {α : Type} {f g : α → Int} {as bs : List α}

theorem sum_nonneg (h : ∀ a ∈ as, 0 ≤ f a) : 0 ≤ (as.map f).sum := by
  induction as with
  | nil => exact le_refl 0
  | cons a as ih =>
    obtain ⟨ha, has⟩ := forall_mem_cons.mp h
    rw [map_cons, sum_cons]
    exact add_nonneg ha (ih has)

theorem sum_mono (h : ∀ a ∈ as, f a ≤ g a) : (as.map f).sum ≤ (as.map g).sum := by
  induction as with
  | nil => exact le_refl 0
  | cons a as ih =>
    obtain ⟨ha, has⟩ := forall_mem_cons.mp h
    rw [map_cons, map_cons, sum_cons, sum_cons]
    exact add_le_add ha (ih has)

theorem sum_add : (as.map fun a => f a + g a).sum = (as.map f).sum + (as.map g).sum := by
  induction as with
  | nil => rfl
  | cons a as ih =>
    simp only [map_cons, sum_cons, ih]
    omega

theorem sum_filter {p : α → Bool} (h : ∀ a ∈ as, p a = false → f a ≤ 0) :
    (as.map f).sum ≤ ((as.filter p).map f).sum := by
  induction as with
  | nil => exact le_refl 0
  | cons a as ih =>
    obtain ⟨ha, has⟩ := forall_mem_cons.mp h
    have hrest := ih has
    cases hp : p a with
    | true =>
      rw [filter_cons_of_pos hp, map_cons, map_cons, sum_cons, sum_cons]
      omega
    | false =>
      have hle := ha hp
      rw [filter_cons_of_neg (by simp [hp]), map_cons, sum_cons]
      omega

theorem sum_subset (hnodup : as.Nodup) (hsub : as ⊆ bs) (hf : ∀ b ∈ bs, 0 ≤ f b) :
    (as.map f).sum ≤ (bs.map f).sum := by
  obtain ⟨cs, hperm, hsublist⟩ := subperm_of_subset hnodup hsub
  rw [← (hperm.map f).sum_eq]
  apply (hsublist.map f).sum_le_sum
  intro x hx
  obtain ⟨b, hb, rfl⟩ := mem_map.mp hx
  exact hf b hb

section partition

variable {K : Type} [DecidableEq K] {key : α → K} {p : α → Bool} {ks : List K}

theorem sum_zero (h : ∀ a ∈ as, f a = 0) : (as.map f).sum = 0 := by
  induction as with
  | nil => rfl
  | cons a as ih =>
    obtain ⟨ha, has⟩ := forall_mem_cons.mp h
    rw [map_cons, sum_cons, ha, ih has, add_zero]

theorem sum_only {k : K} {n : Int} (hnodup : ks.Nodup) (hk : k ∈ ks) :
    (ks.map fun k' => if k = k' then n else 0).sum = n := by
  induction ks with
  | nil => exact absurd hk not_mem_nil
  | cons k' ks ih =>
    obtain ⟨hnot, hnodup⟩ := nodup_cons.mp hnodup
    rw [map_cons, sum_cons]
    rcases mem_cons.mp hk with rfl | hk
    · rw [if_pos rfl, sum_zero, add_zero]
      intro k' hk'
      have hne : k ≠ k' := fun he => hnot (he ▸ hk')
      exact if_neg hne
    · have hne : k ≠ k' := fun he => hnot (he ▸ hk)
      rw [if_neg hne, ih hnodup hk, zero_add]

theorem sum_partition (hnodup : ks.Nodup) (hcover : ∀ a ∈ as, key a ∈ ks) :
    (ks.map fun k => ((as.filter fun a => p a && key a == k).map f).sum).sum =
      ((as.filter p).map f).sum := by
  induction as with
  | nil => exact sum_zero fun _ _ => rfl
  | cons a as ih =>
    obtain ⟨ha, has⟩ := forall_mem_cons.mp hcover
    cases hp : p a with
    | false =>
      have hskip : ∀ k, ((a :: as).filter fun a => p a && key a == k) = as.filter fun a => p a && key a == k := by
        intro k
        rw [filter_cons_of_neg]
        simp [hp]
      simp only [hskip, ih has]
      rw [filter_cons_of_neg (by simp [hp])]
    | true =>
      have hsplit : ∀ k, (((a :: as).filter fun a => p a && key a == k).map f).sum =
          (if key a = k then f a else 0) + ((as.filter fun a => p a && key a == k).map f).sum := by
        intro k
        by_cases hk : key a = k
        · rw [filter_cons_of_pos (by simp [hp, hk]), if_pos hk, map_cons, sum_cons]
        · rw [filter_cons_of_neg (by simp [hk]), if_neg hk, zero_add]
      simp only [hsplit]
      rw [sum_add, sum_only hnodup ha, ih has, filter_cons_of_pos hp, map_cons, sum_cons]

end partition

end Sums
