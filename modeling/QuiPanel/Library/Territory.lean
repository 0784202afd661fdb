import Mathlib.Data.List.Flatten
import Mathlib.Data.List.Nodup
import Mathlib.Data.List.Infix

namespace Territory

variable {α K : Type}

def Diverge (a b : List α) : Prop := ¬ a <+: b ∧ ¬ b <+: a

def Within (root : List α) (names : List (List α)) : Prop := ∀ n ∈ names, root <+: n

theorem Diverge.symm {a b : List α} (h : Diverge a b) : Diverge b a := ⟨h.2, h.1⟩

theorem Diverge.disjoint {a b : List α} {names names' : List (List α)} (h : Diverge a b)
    (ha : Within a names) (hb : Within b names') : names.Disjoint names' := by
  intro n hn hn'
  rcases List.prefix_or_prefix_of_prefix (ha n hn) (hb n hn') with hab | hba
  · exact h.1 hab
  · exact h.2 hba

theorem terminated_prefix {l m rest : List α} {c : α} (hl : c ∉ l) (h : m ++ [c] <+: l ++ c :: rest) :
    m = l ∨ c ∈ m := by
  induction m generalizing l with
  | nil =>
    cases l with
    | nil => exact .inl rfl
    | cons x l =>
      obtain ⟨rfl, -⟩ := List.cons_prefix_cons.mp h
      exact absurd List.mem_cons_self hl
  | cons x m ih =>
    cases l with
    | nil =>
      obtain ⟨rfl, -⟩ := List.cons_prefix_cons.mp h
      exact .inr List.mem_cons_self
    | cons y l =>
      obtain ⟨rfl, hrest⟩ := List.cons_prefix_cons.mp h
      rcases ih (fun hc => hl (List.mem_cons_of_mem _ hc)) hrest with rfl | hc
      · exact .inl rfl
      · exact .inr (List.mem_cons_of_mem _ hc)

theorem diverge_terminated {base l m : List α} {c : α} (hl : c ∉ l) (hm : c ∉ m) (hne : l ≠ m) :
    Diverge (base ++ l ++ [c]) (base ++ m ++ [c]) := by
  simp only [Diverge, List.append_assoc, List.prefix_append_right_inj]
  constructor
  · intro h
    rcases terminated_prefix hm h with rfl | hc
    · exact hne rfl
    · exact hl hc
  · intro h
    rcases terminated_prefix hl h with rfl | hc
    · exact hne rfl
    · exact hm hc

theorem nodup_merged {pre base post : List K} {sources : List (List K)}
    (hperm : (pre ++ post).Perm sources.flatten) (hbase : base.Nodup) (hsources : ∀ s ∈ sources, s.Nodup) :
    (pre ++ base ++ post).Nodup ↔
      sources.Pairwise List.Disjoint ∧ ∀ s ∈ sources, base.Disjoint s := by
  have hmove : (pre ++ base ++ post).Perm (base ++ sources.flatten) := by
    refine (List.perm_append_comm.append_right post).trans ?_
    rw [List.append_assoc]
    exact hperm.append_left base
  have hflat : base.Disjoint sources.flatten ↔ ∀ s ∈ sources, base.Disjoint s := by
    constructor
    · intro h s hs k hk hks
      exact h hk (List.mem_flatten_of_mem hs hks)
    · intro h k hk hflat
      obtain ⟨s, hs, hks⟩ := List.mem_flatten.mp hflat
      exact h s hs hk hks
  rw [hmove.nodup_iff, List.nodup_append', List.nodup_flatten, hflat]
  constructor
  · rintro ⟨-, ⟨-, hpairs⟩, hdisjoint⟩
    exact ⟨hpairs, hdisjoint⟩
  · rintro ⟨hpairs, hdisjoint⟩
    exact ⟨hbase, ⟨hsources, hpairs⟩, hdisjoint⟩

end Territory
