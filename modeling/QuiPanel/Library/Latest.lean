import QuiPanel.Library.Diff
import Mathlib.Data.List.Sort
import Mathlib.Order.Defs.LinearOrder

namespace Latest

open KeyedDiff

variable {R K T : Type} [LinearOrder T] {key : R → K} {time : R → T}
variable {S S' : R → Prop} {rs : List R} {r : R}

structure Covers (key : R → K) (time : R → T) (S : R → Prop) (rs : List R) : Prop where
  nodup : (rs.map key).Nodup
  sound : ∀ r ∈ rs, S r
  complete : ∀ r, S r → ∃ r' ∈ rs, key r' = key r ∧ time r ≤ time r'

def IsLatest (key : R → K) (time : R → T) (S : R → Prop) (r : R) : Prop :=
  S r ∧ ∀ r', S r' → key r' = key r → time r' ≤ time r

theorem Covers.nil : Covers key time (fun _ => False) [] :=
  ⟨List.nodup_nil, fun _ h => absurd h List.not_mem_nil, fun _ h => h.elim⟩

theorem Covers.congr (h : Covers key time S rs) (hS : ∀ r, S r ↔ S' r) : Covers key time S' rs :=
  ⟨h.nodup, fun r hr => (hS r).mp (h.sound r hr), fun r hr => h.complete r ((hS r).mpr hr)⟩

theorem Covers.mem_iff (h : Covers key time S rs) (hext : ∀ r r', key r = key r' → time r = time r' → r = r') :
    r ∈ rs ↔ IsLatest key time S r := by
  constructor
  · intro hr
    refine ⟨h.sound r hr, ?_⟩
    intro r' hr' hkey
    obtain ⟨r'', hmem, hsame, hle⟩ := h.complete r' hr'
    obtain rfl := List.inj_on_of_nodup_map h.nodup hmem hr (hsame.trans hkey)
    exact hle
  · rintro ⟨hr, hlate⟩
    obtain ⟨r', hmem, hkey, hle⟩ := h.complete r hr
    have hge := hlate r' (h.sound r' hmem) hkey
    rw [← hext r' r hkey (le_antisymm hge hle)]
    exact hmem

section merge

variable [DecidableEq K]

def offer (key : R → K) (time : R → T) (rs : List R) (r : R) : List R :=
  match lookup key rs (key r) with
  | none => replace key rs r
  | some r' => if time r' < time r then replace key rs r else rs

theorem Covers.replace (h : Covers key time S rs) (hlate : ∀ r', S r' → key r' = key r → time r' ≤ time r) :
    Covers key time (fun r' => S r' ∨ r' = r) (KeyedDiff.replace key rs r) := by
  refine ⟨nodup_replace h.nodup, ?_, ?_⟩
  · intro r' hr'
    rcases mem_replace.mp hr' with rfl | hr'
    · exact Or.inr rfl
    · exact Or.inl (h.sound r' hr'.1)
  · rintro r' (hr' | rfl)
    · by_cases hkey : key r' = key r
      · exact ⟨r, mem_replace.mpr (Or.inl rfl), hkey.symm, hlate r' hr' hkey⟩
      · obtain ⟨r'', hmem, hsame, hle⟩ := h.complete r' hr'
        exact ⟨r'', mem_replace.mpr (Or.inr ⟨hmem, hsame ▸ hkey⟩), hsame, hle⟩
    · exact ⟨r', mem_replace.mpr (Or.inl rfl), rfl, le_refl _⟩

theorem Covers.offer (h : Covers key time S rs) :
    Covers key time (fun r' => S r' ∨ r' = r) (Latest.offer key time rs r) := by
  rw [Latest.offer]
  cases hlook : lookup key rs (key r) with
  | none =>
    refine h.replace ?_
    intro r' hr' hkey
    obtain ⟨r'', hmem, hsame, _⟩ := h.complete r' hr'
    exact absurd (hsame.trans hkey) (lookup_none.mp hlook r'' hmem)
  | some r₀ =>
    obtain ⟨hmem₀, hkey₀⟩ := lookup_mem hlook
    have hnewest : ∀ r', S r' → key r' = key r → time r' ≤ time r₀ := by
      intro r' hr' hkey
      obtain ⟨r'', hmem, hsame, hle⟩ := h.complete r' hr'
      obtain rfl := List.inj_on_of_nodup_map h.nodup hmem hmem₀ (hsame.trans (hkey.trans hkey₀.symm))
      exact hle
    by_cases hlt : time r₀ < time r
    · simp only [hlt, if_true]
      exact h.replace fun r' hr' hkey => (hnewest r' hr' hkey).trans (le_of_lt hlt)
    · simp only [hlt, if_false]
      refine ⟨h.nodup, fun r' hr' => Or.inl (h.sound r' hr'), ?_⟩
      rintro r' (hr' | rfl)
      · exact h.complete r' hr'
      · exact ⟨r₀, hmem₀, hkey₀, not_lt.mp hlt⟩

theorem covers_replaceAll {l : List R} (h : Covers key time S rs) (hnodup : (l.map key).Nodup)
    (hfresh : ∀ r ∈ l, ∀ r', S r' → key r' ≠ key r) :
    Covers key time (fun r => S r ∨ r ∈ l) (replaceAll key rs l) := by
  induction l generalizing S rs with
  | nil => exact h.congr fun r => by simp
  | cons a l ih =>
    rw [List.map_cons, List.nodup_cons] at hnodup
    have hstep := h.replace (r := a) fun r' hr' hkey =>
      absurd hkey (hfresh a List.mem_cons_self r' hr')
    refine (ih hstep hnodup.2 ?_).congr fun r => by simp only [List.mem_cons, or_assoc]
    rintro r hr r' (hr' | rfl) hkey
    · exact hfresh r (List.mem_cons_of_mem _ hr) r' hr' hkey
    · exact hnodup.1 (List.mem_map.mpr ⟨r, hr, hkey.symm⟩)

theorem covers_offers {l : List R} (h : Covers key time S rs) :
    Covers key time (fun r => S r ∨ r ∈ l) (l.foldl (Latest.offer key time) rs) := by
  induction l generalizing S rs with
  | nil => exact h.congr fun r => by simp
  | cons a l ih =>
    exact (ih h.offer).congr fun r => by simp only [List.mem_cons, or_assoc]

end merge

def oldestFirst (time : R → T) (rs : List R) : List R :=
  rs.insertionSort fun r r' => time r ≤ time r'

theorem perm_oldestFirst : (oldestFirst time rs).Perm rs := List.perm_insertionSort _ rs

theorem take_le_drop (n : Nat) {r' : R} (hr : r ∈ (oldestFirst time rs).take n)
    (hr' : r' ∈ (oldestFirst time rs).drop n) : time r ≤ time r' := by
  have htotal : Std.Total fun r r' : R => time r ≤ time r' := ⟨fun r r' => le_total (time r) (time r')⟩
  have htrans : IsTrans R fun r r' => time r ≤ time r' := ⟨fun _ _ _ => le_trans⟩
  have hsorted := List.pairwise_insertionSort (fun r r' : R => time r ≤ time r') rs
  rw [← List.take_append_drop n (rs.insertionSort _), List.pairwise_append] at hsorted
  exact hsorted.2.2 r hr r' hr'

end Latest
