import Mathlib.Algebra.Order.BigOperators.Group.List
import Mathlib.Algebra.BigOperators.Group.List.Basic
import Mathlib.Algebra.Order.Group.Defs

namespace Tally

open List

section absorbing

variable {M : Type} [AddCommGroup M] [LinearOrder M]

def add (a x : M) : M := if a = 0 ∨ x = 0 then 0 else a + x

def total : List M → M
  | [] => 0
  | x :: xs => xs.foldl add x

def allowance (quotas : List M) : M := if ∃ q ∈ quotas, q ≤ 0 then 0 else quotas.sum

variable {a : M} {xs ys : List M}

theorem foldl_zero (xs : List M) : xs.foldl add 0 = 0 := by
  induction xs with
  | nil => rfl
  | cons x xs ih =>
    rw [foldl_cons, add, if_pos (.inl rfl)]
    exact ih

theorem foldl_of_mem (h : 0 ∈ xs) (a : M) : xs.foldl add a = 0 := by
  induction xs generalizing a with
  | nil => cases h
  | cons x xs ih =>
    rw [foldl_cons]
    rcases mem_cons.mp h with rfl | h
    · rw [add, if_pos (.inr rfl)]
      exact foldl_zero xs
    · exact ih h _

theorem total_of_mem (h : 0 ∈ xs) : total xs = 0 := by
  cases xs with
  | nil => rfl
  | cons x xs =>
    rcases mem_cons.mp h with rfl | h
    · exact foldl_zero xs
    · exact foldl_of_mem h x

theorem foldl_cases (a : M) (xs : List M) : xs.foldl add a = a + xs.sum ∨ xs.foldl add a = 0 := by
  induction xs generalizing a with
  | nil => exact .inl (add_zero a).symm
  | cons x xs ih =>
    rw [foldl_cons, sum_cons, ← add_assoc]
    rw [add]
    split
    · exact .inr (foldl_zero xs)
    · exact ih (a + x)

theorem total_cases (xs : List M) : total xs = xs.sum ∨ total xs = 0 := by
  cases xs with
  | nil => exact .inr rfl
  | cons x xs =>
    rw [sum_cons]
    exact foldl_cases x xs

theorem foldl_add_neg (a : M) (xs : List M) : (xs.map (-·)).foldl add (-a) = -xs.foldl add a := by
  induction xs generalizing a with
  | nil => rfl
  | cons x xs ih =>
    have hstep : add (-a) (-x) = -add a x := by
      rw [add, add]
      by_cases h : a = 0 ∨ x = 0
      · rw [if_pos h, if_pos (h.imp neg_eq_zero.mpr neg_eq_zero.mpr), neg_zero]
      · rw [if_neg h, if_neg fun h' => h (h'.imp neg_eq_zero.mp neg_eq_zero.mp), neg_add]
    rw [map_cons, foldl_cons, foldl_cons, hstep]
    exact ih _

theorem total_map_neg (xs : List M) : total (xs.map (-·)) = -total xs := by
  cases xs with
  | nil => exact neg_zero.symm
  | cons x xs => exact foldl_add_neg x xs

theorem allowance_of_unlimited {q : M} (hq : q ∈ xs) (hle : q ≤ 0) : allowance xs = 0 := if_pos ⟨q, hq, hle⟩

theorem allowance_of_pos (h : ∀ x ∈ xs, 0 < x) : allowance xs = xs.sum :=
  if_neg fun ⟨x, hx, hle⟩ => (h x hx).not_ge hle

theorem allowance_perm (h : xs.Perm ys) : allowance xs = allowance ys := by
  rw [allowance, allowance, h.sum_eq]
  simp only [h.mem_iff]

variable [IsOrderedAddMonoid M]

theorem foldl_pos (ha : 0 < a) (h : ∀ x ∈ xs, 0 < x) : xs.foldl add a = a + xs.sum := by
  induction xs generalizing a with
  | nil => exact (add_zero a).symm
  | cons x xs ih =>
    have hx := h x mem_cons_self
    rw [foldl_cons, sum_cons, ← add_assoc, add, if_neg (not_or.mpr ⟨ha.ne', hx.ne'⟩)]
    exact ih (add_pos ha hx) fun y hy => h y (mem_cons_of_mem x hy)

theorem sum_nonpos_of_forall (h : ∀ x ∈ xs, x < 0) : xs.sum ≤ 0 := by
  induction xs with
  | nil => exact le_rfl
  | cons x xs ih =>
    rw [sum_cons]
    exact add_nonpos (h x mem_cons_self).le (ih fun y hy => h y (mem_cons_of_mem x hy))

theorem foldl_neg (h : ∀ x ∈ xs, x < 0) (ha : 0 < a + xs.sum) : xs.foldl add a = a + xs.sum := by
  induction xs generalizing a with
  | nil => exact (add_zero a).symm
  | cons x xs ih =>
    have hrest := fun y hy => h y (mem_cons_of_mem x hy)
    have hx := h x mem_cons_self
    have hsum := sum_nonpos_of_forall hrest
    rw [sum_cons, ← add_assoc] at ha
    have hax : 0 < a + x := lt_of_lt_of_le ha (add_le_of_nonpos_right hsum)
    have ha' : 0 < a := lt_trans hax (add_lt_of_neg_right a hx)
    rw [foldl_cons, sum_cons, ← add_assoc, add, if_neg (not_or.mpr ⟨ha'.ne', hx.ne⟩)]
    exact ih hrest ha

theorem total_pos (h : ∀ x ∈ xs, 0 < x) : total xs = xs.sum := by
  cases xs with
  | nil => rfl
  | cons x xs => exact foldl_pos (h x mem_cons_self) fun y hy => h y (mem_cons_of_mem x hy)

theorem sum_pos_of_forall (hne : xs ≠ []) (h : ∀ x ∈ xs, 0 < x) : 0 < xs.sum := sum_pos xs h hne

-- an order that takes the positive values first never passes through zero
theorem exists_perm_of_pos (h0 : 0 ∉ xs) (hsum : 0 < xs.sum) : ∃ zs, zs.Perm xs ∧ total zs ≠ 0 := by
  have hperm := filter_append_perm (fun x => decide (0 < x)) xs
  have hpos : ∀ x ∈ xs.filter fun x => decide (0 < x), 0 < x := fun x hx => by simpa using (mem_filter.mp hx).2
  have hneg : ∀ x ∈ xs.filter fun x => !decide (0 < x), x < 0 := by
    intro x hx
    obtain ⟨hx, hle⟩ := mem_filter.mp hx
    exact lt_of_le_of_ne (by simpa using hle) fun he => h0 (he ▸ hx)
  have hparts := hperm.sum_eq
  refine ⟨_, hperm, ?_⟩
  generalize xs.filter (fun x => decide (0 < x)) = ps at hpos hparts ⊢
  generalize xs.filter (fun x => !decide (0 < x)) = ns at hneg hparts ⊢
  rw [← hparts, sum_append] at hsum
  cases ps with
  | nil =>
    rw [sum_nil, zero_add] at hsum
    exact absurd hsum (sum_nonpos_of_forall hneg).not_gt
  | cons p ps =>
    have hfold : ps.foldl add p = (p :: ps).sum := total_pos hpos
    rw [cons_append, total, foldl_append, hfold, foldl_neg hneg hsum]
    exact hsum.ne'

theorem exists_perm_ne_zero (h0 : 0 ∉ xs) (hsum : xs.sum ≠ 0) : ∃ zs, zs.Perm xs ∧ total zs ≠ 0 := by
  rcases lt_or_gt_of_ne hsum with hlt | hgt
  · have h0' : 0 ∉ xs.map (-·) := by simpa using h0
    have hsum' : 0 < (xs.map (-·)).sum := by
      rw [← sum_neg]
      exact neg_pos.mpr hlt
    obtain ⟨zs, hperm, htotal⟩ := exists_perm_of_pos h0' hsum'
    refine ⟨zs.map (-·), ?_, ?_⟩
    · have hback := hperm.map (-·)
      rwa [map_map, show ((-·) ∘ (-·) : M → M) = id from funext neg_neg, map_id] at hback
    · rw [total_map_neg]
      exact neg_ne_zero.mpr htotal
  · exact exists_perm_of_pos h0 hgt

theorem total_zero_iff : (∀ zs, zs.Perm xs → total zs = 0) ↔ 0 ∈ xs ∨ xs.sum = 0 := by
  constructor
  · intro h
    by_contra hnot
    rw [not_or] at hnot
    obtain ⟨zs, hperm, hne⟩ := exists_perm_ne_zero hnot.1 hnot.2
    exact hne (h zs hperm)
  · rintro (h0 | hsum) zs hperm
    · exact total_of_mem (hperm.mem_iff.mpr h0)
    · rcases total_cases zs with h | h
      · rw [h, hperm.sum_eq, hsum]
      · exact h

def Exhausts (xs ys : List M) : Prop :=
  0 ∈ xs ∨ ((∃ x ∈ xs, x < 0) ∧ xs.sum = 0) ∨ (xs = [] ∧ (ys = [] ∨ ∃ y ∈ ys, y ≤ 0)) ∨
    ((∀ x ∈ xs, 0 < x) ∧ ys = [])

theorem total_eq_allowance_iff : (∀ zs, zs.Perm xs → total zs = allowance (xs ++ ys)) ↔ Exhausts xs ys := by
  by_cases h0 : 0 ∈ xs
  · refine iff_of_true (fun zs hperm => ?_) (.inl h0)
    rw [total_of_mem (hperm.mem_iff.mpr h0), allowance_of_unlimited (mem_append_left ys h0) le_rfl]
  · by_cases hneg : ∃ x ∈ xs, x < 0
    · obtain ⟨x, hx, hlt⟩ := hneg
      rw [allowance_of_unlimited (mem_append_left ys hx) hlt.le, total_zero_iff, Exhausts]
      constructor
      · intro h
        exact .inr (.inl ⟨⟨x, hx, hlt⟩, h.resolve_left h0⟩)
      · rintro (h | ⟨-, hsum⟩ | ⟨rfl, -⟩ | ⟨hpos, -⟩)
        · exact .inl h
        · exact .inr hsum
        · cases hx
        · exact absurd (hpos x hx) hlt.not_gt
    · have hpos : ∀ x ∈ xs, 0 < x := by
        intro x hx
        rcases lt_trichotomy x 0 with hlt | rfl | hgt
        · exact absurd ⟨x, hx, hlt⟩ hneg
        · exact absurd hx h0
        · exact hgt
      have hconst : (∀ zs, zs.Perm xs → total zs = allowance (xs ++ ys)) ↔ xs.sum = allowance (xs ++ ys) := by
        refine ⟨fun h => (total_pos hpos).symm.trans (h xs (List.Perm.refl xs)), fun h zs hperm => ?_⟩
        rw [total_pos fun x hx => hpos x (hperm.mem_iff.mp hx), hperm.sum_eq, h]
      rw [hconst, Exhausts]
      constructor
      · intro h
        by_cases hy : ∃ y ∈ ys, y ≤ 0
        · obtain ⟨y, hy, hle⟩ := hy
          rw [allowance_of_unlimited (mem_append_right xs hy) hle] at h
          by_cases hne : xs = []
          · exact .inr (.inr (.inl ⟨hne, .inr ⟨y, hy, hle⟩⟩))
          · exact absurd h (sum_pos_of_forall hne hpos).ne'
        · have hall : ∀ y ∈ ys, 0 < y := fun y hy' => lt_of_not_ge fun hle => hy ⟨y, hy', hle⟩
          have happend : ∀ x ∈ xs ++ ys, 0 < x := fun x hx => (mem_append.mp hx).elim (hpos x) (hall x)
          rw [allowance_of_pos happend, sum_append, left_eq_add] at h
          by_cases hne : ys = []
          · exact .inr (.inr (.inr ⟨hpos, hne⟩))
          · exact absurd h (sum_pos_of_forall hne hall).ne'
      · rintro (h | ⟨⟨x, hx, hlt⟩, -⟩ | ⟨rfl, rfl | ⟨y, hy, hle⟩⟩ | ⟨-, rfl⟩)
        · exact absurd h h0
        · exact absurd (hpos x hx) hlt.not_gt
        · rw [append_nil, allowance_of_pos hpos]
        · rw [nil_append, allowance_of_unlimited hy hle, sum_nil]
        · rw [append_nil, allowance_of_pos hpos]

end absorbing

section agreeing

variable {α : Type} [Zero α] [DecidableEq α]

def agree (a x : α) : α := if x = a then a else 0

def common : List α → α
  | [] => 0
  | x :: xs => xs.foldl agree x

def shared : List α → α
  | [] => 0
  | x :: xs => if ∀ y ∈ xs, y = x then x else 0

variable {xs ys : List α}

theorem foldl_agree_zero (xs : List α) : xs.foldl agree 0 = 0 := by
  induction xs with
  | nil => rfl
  | cons x xs ih =>
    rw [foldl_cons, agree, ite_self]
    exact ih

theorem common_eq_shared (xs : List α) : common xs = shared xs := by
  cases xs with
  | nil => rfl
  | cons x xs =>
    rw [common, shared]
    induction xs with
    | nil => simp
    | cons y xs ih =>
      rw [foldl_cons, agree]
      by_cases hy : y = x
      · rw [if_pos hy, ih]
        simp [hy]
      · rw [if_neg hy, foldl_agree_zero, if_neg fun h => hy (h y mem_cons_self)]

theorem shared_of_forall {e : α} (hne : xs ≠ []) (h : ∀ x ∈ xs, x = e) : shared xs = e := by
  cases xs with
  | nil => exact absurd rfl hne
  | cons x xs =>
    have hx := h x mem_cons_self
    rw [shared, if_pos fun y hy => (h y (mem_cons_of_mem x hy)).trans hx.symm, hx]

theorem shared_of_differ {x y : α} (hx : x ∈ xs) (hy : y ∈ xs) (hne : x ≠ y) : shared xs = 0 := by
  cases xs with
  | nil => rfl
  | cons z xs =>
    rw [shared, if_neg]
    intro h
    have hz : ∀ w ∈ z :: xs, w = z := fun w hw => (mem_cons.mp hw).elim id (h w)
    exact hne ((hz x hx).trans (hz y hy).symm)

theorem shared_cases (xs : List α) : (∃ e, ∀ x ∈ xs, x = e) ∨ ∃ x ∈ xs, ∃ y ∈ xs, x ≠ y := by
  cases xs with
  | nil => exact .inl ⟨0, fun x hx => nomatch hx⟩
  | cons z xs =>
    by_cases h : ∀ y ∈ z :: xs, y = z
    · exact .inl ⟨z, h⟩
    · obtain ⟨y, hy⟩ := not_forall.mp h
      obtain ⟨hy, hne⟩ := Classical.not_imp.mp hy
      exact .inr ⟨y, hy, z, mem_cons_self, hne⟩

theorem shared_perm (h : xs.Perm ys) : shared xs = shared ys := by
  rcases shared_cases xs with ⟨e, he⟩ | ⟨x, hx, y, hy, hne⟩
  · by_cases hnil : xs = []
    · subst hnil
      rw [nil_perm.mp h]
    · rw [shared_of_forall hnil he, shared_of_forall (fun hys => hnil (perm_nil.mp (hys ▸ h)))
        fun x hx => he x (h.mem_iff.mpr hx)]
  · rw [shared_of_differ hx hy hne, shared_of_differ (h.mem_iff.mp hx) (h.mem_iff.mp hy) hne]

def Joins (xs ys : List α) : Prop :=
  if xs = [] then shared ys = 0 else shared xs = 0 ∨ ∀ y ∈ ys, y = shared xs

theorem shared_append_iff : shared xs = shared (xs ++ ys) ↔ Joins xs ys := by
  rw [Joins]
  split
  case isTrue hnil =>
    rw [hnil, nil_append]
    exact eq_comm
  case isFalse hne =>
    rcases shared_cases xs with ⟨e, he⟩ | ⟨x, hx, y, hy, hxy⟩
    · have hshared := shared_of_forall hne he
      rw [hshared]
      by_cases hall : ∀ y ∈ ys, y = e
      · rw [shared_of_forall (append_ne_nil_of_left_ne_nil hne ys)
          fun x hx => (mem_append.mp hx).elim (he x) (hall x)]
        exact iff_of_true rfl (.inr hall)
      · obtain ⟨x, hx⟩ := exists_mem_of_ne_nil xs hne
        obtain ⟨y, hy⟩ := not_forall.mp hall
        obtain ⟨hy, hye⟩ := Classical.not_imp.mp hy
        rw [shared_of_differ (mem_append_left ys hx) (mem_append_right xs hy)
          fun h => hye (h.symm.trans (he x hx))]
        exact ⟨.inl, fun h => h.resolve_right hall⟩
    · rw [shared_of_differ hx hy hxy, shared_of_differ (mem_append_left ys hx) (mem_append_left ys hy) hxy]
      exact iff_of_true rfl (.inl rfl)

end agreeing

end Tally
