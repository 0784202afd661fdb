import Mathlib.Data.List.Basic

namespace Framing

open List

variable {α γ β : Type} {enc : α → List β} {enc' : γ → List β} {a b : α} {x y : List β}

def SelfDelimiting (enc : α → List β) : Prop := ∀ a b x y, enc a ++ x = enc b ++ y → a = b ∧ x = y

theorem SelfDelimiting.injective (h : SelfDelimiting enc) (hab : enc a = enc b) : a = b :=
  (h a b [] [] (congrArg (· ++ []) hab)).1

theorem SelfDelimiting.after (h : SelfDelimiting enc) (pre : List β) : SelfDelimiting fun a => pre ++ enc a := by
  intro a b x y hab
  rw [append_assoc, append_assoc] at hab
  exact h a b x y (append_cancel_left hab)

theorem SelfDelimiting.before (h : SelfDelimiting enc) (post : List β) : SelfDelimiting fun a => enc a ++ post := by
  intro a b x y hab
  rw [append_assoc, append_assoc] at hab
  obtain ⟨heq, hrest⟩ := h a b _ _ hab
  exact ⟨heq, append_cancel_left hrest⟩

theorem SelfDelimiting.pair (h : SelfDelimiting enc) (h' : SelfDelimiting enc') :
    SelfDelimiting fun p : α × γ => enc p.1 ++ enc' p.2 := by
  rintro ⟨a, c⟩ ⟨b, d⟩ x y hab
  dsimp only at hab
  rw [append_assoc, append_assoc] at hab
  obtain ⟨hfirst, hrest⟩ := h a b _ _ hab
  obtain ⟨hsecond, hend⟩ := h' c d x y hrest
  exact ⟨Prod.ext hfirst hsecond, hend⟩

theorem split_counted [DecidableEq β] {sep : β} {u v : List β} (hcount : u.count sep = v.count sep)
    (h : u ++ sep :: x = v ++ sep :: y) : u = v ∧ x = y := by
  induction u generalizing v with
  | nil =>
    cases v with
    | nil => exact ⟨rfl, (List.cons.inj h).2⟩
    | cons c v =>
      obtain rfl : sep = c := (List.cons.inj h).1
      rw [count_nil, count_cons_self] at hcount
      cases hcount
  | cons c u ih =>
    cases v with
    | nil =>
      obtain rfl : c = sep := (List.cons.inj h).1
      rw [count_nil, count_cons_self] at hcount
      cases hcount
    | cons d v =>
      obtain ⟨rfl, hrest⟩ := List.cons.inj h
      rw [count_cons, count_cons, Nat.add_right_cancel_iff] at hcount
      obtain ⟨huv, hxy⟩ := ih hcount hrest
      exact ⟨congrArg (c :: ·) huv, hxy⟩

theorem split_unique {sep : β} {u v : List β} (hu : sep ∉ u) (hv : sep ∉ v)
    (h : u ++ sep :: x = v ++ sep :: y) : u = v ∧ x = y := by
  classical
  exact split_counted ((count_eq_zero_of_not_mem hu).trans (count_eq_zero_of_not_mem hv).symm) h

theorem terminated {sep : β} (hinj : ∀ a b, enc a = enc b → a = b) (hsep : ∀ a, sep ∉ enc a) :
    SelfDelimiting fun a => enc a ++ [sep] := by
  intro a b x y hab
  rw [append_assoc, append_assoc, singleton_append, singleton_append] at hab
  obtain ⟨henc, hxy⟩ := split_unique (hsep a) (hsep b) hab
  exact ⟨hinj a b henc, hxy⟩

theorem lengthPrefixed {count : Nat → List β} (h : SelfDelimiting count) :
    SelfDelimiting fun s : List β => count s.length ++ s := by
  intro s t x y hst
  dsimp only at hst
  rw [append_assoc, append_assoc] at hst
  obtain ⟨hlength, hrest⟩ := h _ _ _ _ hst
  exact append_inj hrest hlength

theorem SelfDelimiting.all (h : SelfDelimiting enc) {as bs : List α} (hlength : as.length = bs.length)
    (heq : as.flatMap enc ++ x = bs.flatMap enc ++ y) : as = bs ∧ x = y := by
  induction as generalizing bs with
  | nil =>
    rw [eq_nil_of_length_eq_zero hlength.symm] at heq ⊢
    exact ⟨rfl, heq⟩
  | cons a as ih =>
    cases bs with
    | nil => exact absurd hlength (Nat.succ_ne_zero _)
    | cons b bs =>
      rw [flatMap_cons, flatMap_cons, append_assoc, append_assoc] at heq
      obtain ⟨hab, hrest⟩ := h a b _ _ heq
      obtain ⟨htail, hxy⟩ := ih (Nat.succ.inj hlength) hrest
      exact ⟨congrArg₂ List.cons hab htail, hxy⟩

theorem counted {count : Nat → List β} (hcount : SelfDelimiting count) (h : SelfDelimiting enc) :
    SelfDelimiting fun as : List α => count as.length ++ as.flatMap enc := by
  intro as bs x y heq
  dsimp only at heq
  rw [append_assoc, append_assoc] at heq
  obtain ⟨hlength, hrest⟩ := hcount _ _ _ _ heq
  exact h.all hlength hrest

end Framing
