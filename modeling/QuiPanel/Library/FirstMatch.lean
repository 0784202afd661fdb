import Mathlib.Data.List.Basic

namespace FirstMatch

variable {R C : Type} (meets : R → C → Bool) (good : R → Bool) {r : R} {pre rules : List R} {c : C}

def select (rules : List R) (c : C) : Option R := rules.find? (meets · c)

def Sends (rules : List R) (c : C) : Prop := ∃ r, select meets rules c = some r ∧ good r = true

variable {meets good}

theorem select_skip (h : ∀ r ∈ pre, meets r c = false) :
    select meets (pre ++ rules) c = select meets rules c := by
  have hnone : pre.find? (meets · c) = none := List.find?_eq_none.mpr fun r hr => by simp [h r hr]
  rw [select, List.find?_append, hnone, Option.none_or, select]

theorem sends_skip (h : ∀ r ∈ pre, meets r c = false) :
    Sends meets good (pre ++ rules) c ↔ Sends meets good rules c := by
  rw [Sends, select_skip h, Sends]

theorem sends_cons_good (hgood : good r = true) :
    Sends meets good (r :: rules) c ↔ meets r c = true ∨ Sends meets good rules c := by
  cases hmeets : meets r c with
  | true =>
    have hfirst : select meets (r :: rules) c = some r := by simp [select, hmeets]
    exact ⟨fun _ => .inl rfl, fun _ => ⟨r, hfirst, hgood⟩⟩
  | false =>
    have hskip : select meets (r :: rules) c = select meets rules c := by simp [select, hmeets]
    rw [Sends, hskip]
    exact ⟨.inr, fun h => h.resolve_left nofun⟩

instance : Decidable (Sends meets good rules c) :=
  decidable_of_iff ((select meets rules c).any good = true) (Option.any_eq_true ..)

end FirstMatch
