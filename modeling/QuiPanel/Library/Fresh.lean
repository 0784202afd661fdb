import Mathlib

namespace Fresh

open List

variable {K : Type} [DecidableEq K]

structure Suffix (K : Type) where
  at_ : K → Nat → K
  zero : ∀ c, at_ c 0 = c
  injective : ∀ c, Function.Injective (at_ c)

variable (suf : Suffix K)

def search (used : List K) (c : K) : Nat → Nat → K
  | 0, n => suf.at_ c n
  | fuel + 1, n => if suf.at_ c n ∈ used then search used c fuel (n + 1) else suf.at_ c n

def pick (used : List K) (c : K) : K := search suf used c used.length 0

def assign (used : List K) : List K → List K
  | [] => []
  | c :: cs => pick suf used c :: assign (pick suf used c :: used) cs

variable {suf} {used : List K} {c : K} {cs : List K}

attribute [local grind =] search pick assign

theorem search_spec {fuel n : Nat} (h : search suf used c fuel n ∈ used) :
    ∀ i ≤ fuel, suf.at_ c (n + i) ∈ used := by
  induction fuel generalizing n with
  | zero =>
    intro i hi
    obtain rfl := Nat.le_zero.mp hi
    exact h
  | succ fuel ih =>
    rw [search] at h
    by_cases hused : suf.at_ c n ∈ used
    · rw [if_pos hused] at h
      intro i hi
      cases i with
      | zero => exact hused
      | succ i =>
        have hrest := ih h i (Nat.le_of_succ_le_succ hi)
        rwa [Nat.add_assoc, Nat.add_comm 1 i] at hrest
    · rw [if_neg hused] at h
      exact absurd h hused

theorem pick_not_mem : pick suf used c ∉ used := by
  intro h
  have hall := search_spec h
  have hsub : (List.range (used.length + 1)).map (suf.at_ c) ⊆ used := by
    intro x hx
    obtain ⟨i, hi, rfl⟩ := mem_map.mp hx
    have hmem := hall i (Nat.le_of_lt_succ (mem_range.mp hi))
    rwa [Nat.zero_add] at hmem
  have hnodup := List.Nodup.map (suf.injective c) (nodup_range (n := used.length + 1))
  have hlen := (subperm_of_subset hnodup hsub).length_le
  rw [length_map, length_range] at hlen
  omega

theorem pick_of_not_mem (h : c ∉ used) : pick suf used c = c := by
  cases used with
  | nil => exact suf.zero c
  | cons u us =>
    rw [pick, length_cons, search, suf.zero, if_neg h]

theorem search_least {fuel n : Nat} : ∃ m, search suf used c fuel n = suf.at_ c m ∧
    ∀ i, n ≤ i → i < m → suf.at_ c i ∈ used := by
  induction fuel generalizing n with
  | zero => exact ⟨n, rfl, fun i hni hin => by omega⟩
  | succ fuel ih =>
    rw [search]
    split
    case isTrue hused =>
      obtain ⟨m, hm, hskipped⟩ := @ih (n + 1)
      refine ⟨m, hm, fun i hni him => ?_⟩
      rcases Nat.eq_or_lt_of_le hni with rfl | hlt
      · exact hused
      · exact hskipped i hlt him
    case isFalse => exact ⟨n, rfl, fun i hni hin => by omega⟩

theorem pick_least (suf : Suffix K) (used : List K) (c : K) : ∃ m, pick suf used c = suf.at_ c m ∧
    ∀ i < m, suf.at_ c i ∈ used := by
  obtain ⟨m, hm, hskipped⟩ := @search_least _ _ suf used c used.length 0
  exact ⟨m, hm, fun i => hskipped i (Nat.zero_le i)⟩

theorem pick_congr {used' : List K} (h : ∀ k, k ∈ used ↔ k ∈ used') : pick suf used c = pick suf used' c := by
  obtain ⟨m, hm, hskipped⟩ := pick_least suf used c
  obtain ⟨m', hm', hskipped'⟩ := pick_least suf used' c
  have hfree : suf.at_ c m ∉ used := hm ▸ pick_not_mem
  have hfree' : suf.at_ c m' ∉ used' := hm' ▸ pick_not_mem
  have hmm : m = m' := by
    rcases Nat.lt_trichotomy m m' with hlt | heq | hgt
    · exact absurd ((h _).mpr (hskipped' m hlt)) hfree
    · exact heq
    · exact absurd ((h _).mp (hskipped m' hgt)) hfree'
  rw [hm, hm', hmm]

theorem assign_congr {used' : List K} (h : ∀ k, k ∈ used ↔ k ∈ used') :
    assign suf used cs = assign suf used' cs := by
  induction cs generalizing used used' with
  | nil => rfl
  | cons c cs ih =>
    have hmore : ∀ k, k ∈ pick suf used' c :: used ↔ k ∈ pick suf used' c :: used' := fun k => by
      rw [mem_cons, mem_cons, h]
    rw [assign, assign, pick_congr h, ih hmore]

theorem pick_eq_self : pick suf used c = c ↔ c ∉ used :=
  ⟨fun h => h ▸ pick_not_mem, pick_of_not_mem⟩

@[simp] theorem length_assign : (assign suf used cs).length = cs.length := by
  induction cs generalizing used with
  | nil => rfl
  | cons c cs ih => rw [assign, length_cons, length_cons, ih]

theorem assign_fresh : (assign suf used cs).Nodup ∧ ∀ t ∈ assign suf used cs, t ∉ used := by
  induction cs generalizing used with
  | nil => exact ⟨nodup_nil, fun _ h => absurd h not_mem_nil⟩
  | cons c cs ih =>
    obtain ⟨hnodup, hfresh⟩ := @ih (pick suf used c :: used)
    rw [assign]
    refine ⟨nodup_cons.mpr ⟨fun hmem => hfresh _ hmem mem_cons_self, hnodup⟩, ?_⟩
    intro t ht
    rcases mem_cons.mp ht with rfl | ht
    · exact pick_not_mem
    · exact fun hused => hfresh t ht (mem_cons_of_mem _ hused)

theorem mem_assign {t : K} (h : t ∈ assign suf used cs) : ∃ c ∈ cs, ∃ i, t = suf.at_ c i := by
  induction cs generalizing used with
  | nil => exact absurd h not_mem_nil
  | cons c cs ih =>
    rcases mem_cons.mp h with rfl | h
    · obtain ⟨i, hi, -⟩ := pick_least suf used c
      exact ⟨c, mem_cons_self, i, hi⟩
    · obtain ⟨c', hc', hi⟩ := ih h
      exact ⟨c', mem_cons_of_mem _ hc', hi⟩

theorem mem_assign_iff {t : K} (hplain : ∀ c n, suf.at_ c (n + 1) ≠ t) :
    (t ∈ assign suf used cs ∨ t ∈ used) ↔ (t ∈ cs ∨ t ∈ used) := by
  induction cs generalizing used with
  | nil => exact Iff.rfl
  | cons c cs ih =>
    have hpick : t = pick suf used c ∨ t ∈ used ↔ t = c ∨ t ∈ used := by
      constructor
      · rintro (rfl | hused)
        · obtain ⟨m, hm, -⟩ := pick_least suf used c
          cases m with
          | zero => exact .inl (hm.trans (suf.zero c))
          | succ m => exact absurd hm.symm (hplain c m)
        · exact .inr hused
      · rintro (rfl | hused)
        · by_cases hused : t ∈ used
          · exact .inr hused
          · exact .inl (pick_of_not_mem hused).symm
        · exact .inr hused
    have hrest := @ih (pick suf used c :: used)
    rw [mem_cons] at hrest
    rw [assign, mem_cons, mem_cons]
    tauto

theorem assign_nodup : (assign suf used cs).Nodup := assign_fresh.1

theorem assign_self (hnodup : cs.Nodup) (hfresh : ∀ c ∈ cs, c ∉ used) : assign suf used cs = cs := by
  induction cs generalizing used with
  | nil => rfl
  | cons c cs ih =>
    rw [nodup_cons] at hnodup
    rw [assign, pick_of_not_mem (hfresh c mem_cons_self)]
    congr 1
    apply ih hnodup.2
    intro c' hc' hmem
    rcases mem_cons.mp hmem with rfl | hmem
    · exact hnodup.1 hc'
    · exact hfresh c' (mem_cons_of_mem _ hc') hmem

theorem assign_append {ds : List K} : assign suf used (cs ++ ds) =
    assign suf used cs ++ assign suf ((assign suf used cs).reverse ++ used) ds := by
  induction cs generalizing used with
  | nil => rfl
  | cons c cs ih =>
    rw [cons_append, assign, ih, assign, cons_append, reverse_cons, append_assoc,
      singleton_append]

section reserve

structure Request (K : Type) where
  reserved : Option K
  fallback : K

def Request.candidate (r : Request K) : K := r.reserved.getD r.fallback

variable (suf)

def settle (used : List K) : List (Request K) → List K
  | [] => used
  | r :: rs => settle (r.reserved.getD (pick suf used r.fallback) :: used) rs

def Usurped (used : List K) (rs : List (Request K)) : Prop :=
  ∃ before r after, rs = before ++ r :: after ∧ r.reserved = none ∧
    pick suf (settle suf used before) r.fallback ∈ after.filterMap (·.reserved)

def Honoured (rs : List (Request K)) (ts : List K) : Prop :=
  List.Forall₂ (fun r t => ∀ k, r.reserved = some k → t = k) rs ts

variable {suf} {rs : List (Request K)} {r : Request K}

theorem usurped_cons : Usurped suf used (r :: rs) ↔
    (r.reserved = none ∧ pick suf used r.fallback ∈ rs.filterMap (·.reserved)) ∨
      Usurped suf (r.reserved.getD (pick suf used r.fallback) :: used) rs := by
  constructor
  · rintro ⟨before, r', after, hsplit, hnone, hmem⟩
    cases before with
    | nil =>
      obtain ⟨rfl, rfl⟩ := List.cons.inj hsplit
      exact Or.inl ⟨hnone, hmem⟩
    | cons b before =>
      obtain ⟨rfl, rfl⟩ := List.cons.inj hsplit
      exact Or.inr ⟨before, r', after, rfl, hnone, hmem⟩
  · rintro (⟨hnone, hmem⟩ | ⟨before, r', after, rfl, hnone, hmem⟩)
    · exact ⟨[], r, rs, rfl, hnone, hmem⟩
    · exact ⟨r :: before, r', after, rfl, hnone, hmem⟩

theorem honoured_iff : Honoured rs (assign suf used (rs.map Request.candidate)) ↔
    (rs.filterMap (·.reserved)).Nodup ∧ (∀ k ∈ rs.filterMap (·.reserved), k ∉ used) ∧
      ¬ Usurped suf used rs := by
  induction rs generalizing used with
  | nil =>
    refine ⟨fun _ => ⟨nodup_nil, fun _ h => absurd h not_mem_nil, ?_⟩,
      fun _ => List.Forall₂.nil⟩
    rintro ⟨before, r, after, hsplit, _⟩
    exact absurd hsplit (by simp)
  | cons r rs ih =>
    rw [Honoured, map_cons, assign, List.forall₂_cons, ← Honoured, ih, usurped_cons]
    cases hr : r.reserved with
    | none =>
      simp only [Request.candidate, hr, Option.getD_none, filterMap_cons, mem_cons, not_or,
        true_and, reduceCtorEq, false_implies, implies_true]
      constructor
      · rintro ⟨hnodup, hfresh, husurped⟩
        exact ⟨hnodup, fun k hk => (hfresh k hk).2, fun hmem => (hfresh _ hmem).1 rfl, husurped⟩
      · rintro ⟨hnodup, hfresh, hpick, husurped⟩
        exact ⟨hnodup, fun k hk => ⟨fun he => hpick (he ▸ hk), hfresh k hk⟩, husurped⟩
    | some t =>
      simp only [Request.candidate, hr, Option.getD_some, filterMap_cons, mem_cons, not_or,
        reduceCtorEq, false_and, false_or, Option.some.injEq, forall_eq', nodup_cons,
        pick_eq_self]
      constructor
      · rintro ⟨ht, hnodup, hfresh, husurped⟩
        rw [pick_of_not_mem ht] at hfresh husurped
        refine ⟨⟨fun hmem => (hfresh t hmem).1 rfl, hnodup⟩, ?_, husurped⟩
        rintro k (rfl | hk)
        · exact ht
        · exact (hfresh k hk).2
      · rintro ⟨⟨hnot, hnodup⟩, hfresh, husurped⟩
        have ht := hfresh t (Or.inl rfl)
        rw [pick_of_not_mem ht]
        exact ⟨ht, hnodup, fun k hk => ⟨fun he => hnot (he ▸ hk), hfresh k (Or.inr hk)⟩, husurped⟩

end reserve

section numbered

def numberedBy (sep base : String) : Nat → String
  | 0 => base
  | n + 1 => base ++ sep ++ Nat.repr (n + 1)

theorem numberedBy_injective {sep : String} (hsep : 0 < sep.length) (base : String) :
    Function.Injective (numberedBy sep base) := by
  have hlonger : ∀ n, base ≠ base ++ sep ++ Nat.repr (n + 1) := by
    intro n h
    have hlen := congrArg String.length h
    rw [String.length_append, String.length_append] at hlen
    omega
  intro n n' h
  cases n with
  | zero =>
    cases n' with
    | zero => rfl
    | succ n' => exact absurd h (hlonger n')
  | succ n =>
    cases n' with
    | zero => exact absurd h.symm (hlonger n)
    | succ n' => exact Nat.repr_inj.mp ((String.append_right_inj _).mp h)

end numbered

end Fresh
