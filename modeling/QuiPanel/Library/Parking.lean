import QuiPanel.Library.Fresh

namespace Parking

open Fresh

variable {suf : Suffix ℤ} {M a p s : ℤ} {used prefs : List ℤ}

noncomputable def filled (M : ℤ) (used : List ℤ) (s : ℤ) : ℕ := ((Finset.Icc s M).filter (· ∈ used)).card

def Fits (M : ℤ) (used prefs : List ℤ) : Prop :=
  ∀ s, prefs.countP (s ≤ ·) + filled M used s ≤ (M + 1 - s).toNat

def Consecutive (suf : Suffix ℤ) : Prop := ∀ c k, suf.at_ c k = c + k

structure FirstFree (used : List ℤ) (a p : ℤ) : Prop where
  after : a ≤ p
  free : p ∉ used
  skipped : ∀ q, a ≤ q → q < p → q ∈ used

theorem pick_firstFree (h : Consecutive suf) : FirstFree used a (pick suf used a) := by
  obtain ⟨n, hn, hskipped⟩ := pick_least suf used a
  rw [h] at hn
  refine ⟨by omega, pick_not_mem, fun q haq hqp => ?_⟩
  have hq := hskipped (q - a).toNat (by omega)
  rw [h] at hq
  rwa [show a + ((q - a).toNat : ℤ) = q by omega] at hq

theorem filled_cons_of_mem (hfree : p ∉ used) (hs : s ≤ p) (hM : p ≤ M) :
    filled M (p :: used) s = filled M used s + 1 := by
  have hinsert : (Finset.Icc s M).filter (· ∈ p :: used) =
      insert p ((Finset.Icc s M).filter (· ∈ used)) := by
    ext x
    simp only [Finset.mem_filter, Finset.mem_insert, Finset.mem_Icc, List.mem_cons]
    constructor
    · rintro ⟨hx, rfl | hused⟩
      · exact .inl rfl
      · exact .inr ⟨hx, hused⟩
    · rintro (rfl | ⟨hx, hused⟩)
      · exact ⟨⟨hs, hM⟩, .inl rfl⟩
      · exact ⟨hx, .inr hused⟩
  rw [filled, hinsert, Finset.card_insert_of_notMem (by simp [hfree]), filled]

theorem filled_cons_of_lt (h : p < s) : filled M (p :: used) s = filled M used s := by
  refine congrArg Finset.card (Finset.filter_congr fun x hx => ?_)
  have hne : x ≠ p := by
    have := (Finset.mem_Icc.mp hx).1
    omega
  rw [List.mem_cons, or_iff_right hne]

theorem filled_block (has : a ≤ s) (hsM : s ≤ M + 1) (hblock : ∀ q, a ≤ q → q < s → q ∈ used) :
    filled M used a = (s - a).toNat + filled M used s := by
  have hsplit : Finset.Icc a M = Finset.Ico a s ∪ Finset.Icc s M := by
    ext x
    simp only [Finset.mem_Icc, Finset.mem_union, Finset.mem_Ico]
    omega
  have hdisjoint : Disjoint (Finset.Ico a s) ((Finset.Icc s M).filter (· ∈ used)) := by
    rw [Finset.disjoint_left]
    intro x hx hx'
    have := (Finset.mem_Ico.mp hx).2
    have := (Finset.mem_Icc.mp (Finset.mem_filter.mp hx').1).1
    omega
  have hall : (Finset.Ico a s).filter (· ∈ used) = Finset.Ico a s := by
    refine Finset.filter_true_of_mem fun x hx => ?_
    exact hblock x (Finset.mem_Ico.mp hx).1 (Finset.mem_Ico.mp hx).2
  rw [filled, hsplit, Finset.filter_union, hall, Finset.card_union_of_disjoint hdisjoint, Int.card_Ico,
    filled]

theorem fits_bound (h : Fits M used (a :: prefs)) (hp : FirstFree used a p) : p ≤ M := by
  by_contra hlt
  have hcount := h a
  rw [List.countP_cons_of_pos (by simp)] at hcount
  by_cases haM : a ≤ M + 1
  · rw [filled_block haM le_rfl fun q haq hqM => hp.skipped q haq (by omega)] at hcount
    omega
  · omega

theorem fits_cons (hp : FirstFree used a p) :
    Fits M used (a :: prefs) ↔ p ≤ M ∧ Fits M (p :: used) prefs := by
  constructor
  · intro h
    have hM := fits_bound h hp
    refine ⟨hM, fun s => ?_⟩
    have hs := h s
    have ha := h a
    rw [List.countP_cons] at hs ha
    simp only [le_refl, decide_true, if_true] at ha
    have := hp.after
    by_cases hsa : s ≤ a
    · rw [if_pos (by simpa using hsa)] at hs
      rw [filled_cons_of_mem hp.free (hsa.trans hp.after) hM]
      omega
    · by_cases hsp : s ≤ p
      · -- the block from the wish to `s` is full, so the bound at `a` leaves one place after `s`
        have hblock : ∀ q, a ≤ q → q < s → q ∈ used := fun q haq hqs => hp.skipped q haq (by omega)
        rw [filled_block (by omega) (by omega) hblock] at ha
        have hmono : prefs.countP (s ≤ ·) ≤ prefs.countP (a ≤ ·) := by
          refine List.countP_mono_left fun x _ hx => ?_
          simp only [decide_eq_true_eq] at hx ⊢
          omega
        rw [filled_cons_of_mem hp.free hsp hM]
        omega
      · rw [filled_cons_of_lt (by omega)]
        omega
  · rintro ⟨hM, h⟩ s
    have hs := h s
    have := hp.after
    rw [List.countP_cons]
    by_cases hsp : s ≤ p
    · rw [filled_cons_of_mem hp.free hsp hM] at hs
      split <;> omega
    · rw [filled_cons_of_lt (by omega)] at hs
      rw [if_neg (by simp only [decide_eq_true_eq]; omega)]
      exact hs

theorem assign_le_iff (h : Consecutive suf) :
    (∀ p ∈ assign suf used prefs, p ≤ M) ↔ Fits M used prefs := by
  induction prefs generalizing used with
  | nil =>
    refine ⟨fun _ s => ?_, fun _ p hp => absurd hp List.not_mem_nil⟩
    have hcard := Finset.card_filter_le (Finset.Icc s M) (· ∈ used)
    rw [Int.card_Icc] at hcard
    rw [List.countP_nil, Nat.zero_add]
    exact hcard
  | cons a prefs ih =>
    rw [assign, List.forall_mem_cons, ih, fits_cons (pick_firstFree h)]

theorem le_of_assign (h : Consecutive suf) {m : ℤ} (hprefs : ∀ a ∈ prefs, m ≤ a) :
    ∀ p ∈ assign suf used prefs, m ≤ p := by
  intro p hp
  obtain ⟨a, ha, k, rfl⟩ := mem_assign hp
  have := hprefs a ha
  rw [h]
  omega

end Parking
