import Mathlib.Data.List.Basic

namespace Twins

variable {pre s t u : String}

def cut (pre t : String) : Option String :=
  if pre.toList.isPrefixOf t.toList then some (String.ofList (t.toList.drop pre.toList.length)) else none

def toggle (pre t : String) : String := (cut pre t).getD (pre ++ t)

def Same (pre t u : String) : Prop := u = t ∨ u = toggle pre t

def Once (pre t : String) : Prop := ∀ s, cut pre t = some s → cut pre s = none

instance : Decidable (Same pre t u) := inferInstanceAs (Decidable (u = t ∨ u = toggle pre t))

theorem cut_eq_some : cut pre t = some s ↔ t = pre ++ s := by
  rw [cut]
  constructor
  · intro h
    split at h
    · rename_i hpre
      obtain ⟨rest, hrest⟩ := List.isPrefixOf_iff_prefix.mp hpre
      rw [← hrest, List.drop_left, Option.some.injEq] at h
      rw [← h, String.ext_iff, ← hrest]
      simp
    · cases h
  · rintro rfl
    rw [String.toList_append, if_pos (List.isPrefixOf_iff_prefix.mpr (List.prefix_append _ _)),
      List.drop_left, String.ofList_toList]

theorem cut_append : cut pre (pre ++ s) = some s := cut_eq_some.mpr rfl

theorem toggle_append : toggle pre (pre ++ s) = s := by
  rw [toggle, cut_append]
  rfl

theorem toggle_of_none (h : cut pre t = none) : toggle pre t = pre ++ t := by
  rw [toggle, h]
  rfl

theorem toggle_toggle (h : Once pre t) : toggle pre (toggle pre t) = t := by
  cases ht : cut pre t with
  | none => rw [toggle_of_none ht, toggle_append]
  | some s =>
    rw [cut_eq_some.mp ht, toggle_append, toggle_of_none (h s ht)]

theorem once_toggle (h : Once pre t) : Once pre (toggle pre t) := by
  cases ht : cut pre t with
  | none =>
    rw [toggle_of_none ht]
    intro s hs
    rw [cut_append, Option.some.injEq] at hs
    rw [← hs]
    exact ht
  | some s =>
    rw [cut_eq_some.mp ht, toggle_append]
    intro s' hs'
    rw [h s ht] at hs'
    cases hs'

theorem toggle_ne (h : pre ≠ "") : toggle pre t ≠ t := by
  have hlen : pre.toList.length ≠ 0 := fun h0 =>
    h (String.ext_iff.mpr (List.length_eq_zero_iff.mp h0))
  intro heq
  have hsame := congrArg (fun x => x.toList.length) heq
  cases ht : cut pre t with
  | none =>
    rw [toggle_of_none ht] at hsame
    simp only [String.toList_append, List.length_append] at hsame
    omega
  | some s =>
    rw [cut_eq_some.mp ht, toggle_append] at hsame
    simp only [String.toList_append, List.length_append] at hsame
    omega

def Near (pre t u : String) : Prop := u = t ∨ Once pre t ∧ u = toggle pre t

theorem near_refl : Near pre t t := .inl rfl

theorem Near.symm (h : Near pre t u) : Near pre u t := by
  rcases h with rfl | ⟨ht, rfl⟩
  · exact near_refl
  · exact .inr ⟨once_toggle ht, (toggle_toggle ht).symm⟩

theorem Near.trans {v : String} (h : Near pre t u) (h' : Near pre u v) : Near pre t v := by
  rcases h with rfl | ⟨ht, rfl⟩
  · exact h'
  · rcases h' with rfl | ⟨-, rfl⟩
    · exact .inr ⟨ht, rfl⟩
    · exact .inl (toggle_toggle ht)

theorem near_iff_same (ht : Once pre t) : Near pre t u ↔ Same pre t u :=
  or_congr Iff.rfl (and_iff_right ht)

theorem same_refl : Same pre t t := .inl rfl

end Twins
