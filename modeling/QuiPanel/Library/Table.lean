import Mathlib.Data.List.Nodup
import Mathlib.Data.List.Count

namespace Keyed

open List

structure Table (R : Type) (key : R → Int) where
  rows : List R
  next : Int
  nodup : (rows.map key).Nodup
  below : ∀ r ∈ rows, key r < next

namespace Table

variable {R : Type} {key : R → Int}

def empty : Table R key := ⟨[], 1, nodup_nil, fun _ h => absurd h not_mem_nil⟩

def find (t : Table R key) (k : Int) : Option R := t.rows.find? (key · = k)

def insert (t : Table R key) (mk : Int → R) (hmk : ∀ k, key (mk k) = k) : Table R key where
  rows := t.rows ++ [mk t.next]
  next := t.next + 1
  nodup := by
    have hfresh : t.next ∉ t.rows.map key := by
      intro h
      obtain ⟨r, hr, hkey⟩ := mem_map.mp h
      have := t.below r hr
      omega
    rw [map_append, map_singleton, hmk, ← concat_eq_append]
    exact List.Nodup.concat hfresh t.nodup
  below := by
    intro r hr
    rcases mem_append.mp hr with hr | hr
    · have := t.below r hr
      omega
    · rw [mem_singleton.mp hr, hmk]
      omega

def put (t : Table R key) (r : R) : Table R key where
  rows := t.rows.filter (fun r' => key r' ≠ key r) ++ [r]
  next := max t.next (key r + 1)
  nodup := by
    have hfresh : key r ∉ (t.rows.filter fun r' => key r' ≠ key r).map key := by
      intro h
      obtain ⟨r', hr', hkey⟩ := mem_map.mp h
      exact absurd hkey (by simpa using (mem_filter.mp hr').2)
    rw [map_append, map_singleton, ← concat_eq_append]
    exact List.Nodup.concat hfresh (t.nodup.sublist (filter_sublist.map key))
  below := by
    intro r' hr'
    rcases mem_append.mp hr' with hr' | hr'
    · have := t.below r' (mem_of_mem_filter hr')
      omega
    · rw [mem_singleton.mp hr']
      omega

def modify (t : Table R key) (p : R → Bool) (f : R → R) (hf : ∀ r, key (f r) = key r) :
    Table R key where
  rows := t.rows.map fun r => if p r then f r else r
  next := t.next
  nodup := by
    have hkeys : (t.rows.map fun r => if p r then f r else r).map key = t.rows.map key := by
      rw [map_map]
      apply map_congr_left
      intro r _
      simp only [Function.comp_apply]
      split
      · exact hf r
      · rfl
    rw [hkeys]
    exact t.nodup
  below := by
    intro r hr
    obtain ⟨r', hr', rfl⟩ := mem_map.mp hr
    have := t.below r' hr'
    split
    · rw [hf]
      exact this
    · exact this

def delete (t : Table R key) (p : R → Bool) : Table R key where
  rows := t.rows.filter fun r => !p r
  next := t.next
  nodup := (t.nodup.sublist (filter_sublist.map key))
  below := fun r hr => t.below r (mem_of_mem_filter hr)

def map {S : Type} {keyS : S → Int} (t : Table R key) (f : R → S) (hf : ∀ r, keyS (f r) = key r) :
    Table S keyS where
  rows := t.rows.map f
  next := t.next
  nodup := by
    have hkeys : (t.rows.map f).map keyS = t.rows.map key := by
      rw [map_map]
      exact map_congr_left fun r _ => hf r
    rw [hkeys]
    exact t.nodup
  below := by
    intro r hr
    obtain ⟨r', hr', rfl⟩ := mem_map.mp hr
    rw [hf]
    exact t.below r' hr'

variable {t : Table R key} {k : Int} {r : R} {p q : R → Bool} {f : R → R} {hf : ∀ r, key (f r) = key r}

variable {mk : Int → R}

theorem rows_insert {hmk : ∀ k, key (mk k) = k} :
    (t.insert mk hmk).rows = t.rows ++ [mk t.next] :=
  rfl

theorem rows_modify : (t.modify p f hf).rows = t.rows.map fun r => if p r then f r else r := rfl

@[simp] theorem mem_insert {hmk : ∀ k, key (mk k) = k} :
    r ∈ (t.insert mk hmk).rows ↔ r ∈ t.rows ∨ r = mk t.next := by
  simp [insert]

@[simp] theorem mem_put {r' : R} : r' ∈ (t.put r).rows ↔ (r' ∈ t.rows ∧ key r' ≠ key r) ∨ r' = r := by
  simp [put]

@[simp] theorem mem_modify : r ∈ (t.modify p f hf).rows ↔
    ∃ r' ∈ t.rows, (if p r' then f r' else r') = r := by
  simp [modify]

@[simp] theorem mem_delete : r ∈ (t.delete p).rows ↔ r ∈ t.rows ∧ p r = false := by
  simp [delete]

theorem mem_of_find (h : t.find k = some r) : r ∈ t.rows ∧ key r = k :=
  ⟨mem_of_find?_eq_some h, by simpa using find?_some h⟩

theorem eq_of_key {r' : R} (hr : r ∈ t.rows) (hr' : r' ∈ t.rows) (h : key r = key r') : r = r' :=
  inj_on_of_nodup_map t.nodup hr hr' h

theorem find_modify : (t.modify p f hf).find k = (t.find k).map fun r => if p r then f r else r := by
  have hkey : ∀ r, key (if p r then f r else r) = key r := by
    intro r
    split
    · exact hf r
    · rfl
  simp only [find, rows_modify, find?_map, Function.comp_def, hkey]

theorem ext_rows {t' : Table R key} (hrows : t.rows = t'.rows) (hnext : t.next = t'.next) : t = t' := by
  cases t
  cases t'
  cases hrows
  cases hnext
  rfl

theorem modify_eq_self (h : ∀ r ∈ t.rows, p r = false) : t.modify p f hf = t := by
  refine ext_rows ?_ rfl
  rw [rows_modify]
  refine (map_congr_left fun r hr => ?_).trans (map_id t.rows)
  rw [h r hr]
  rfl

theorem find_of_mem (hr : r ∈ t.rows) : t.find (key r) = some r := by
  cases h : t.find (key r) with
  | none => exact absurd (find?_eq_none.mp h r hr) (by simp)
  | some r' =>
    obtain ⟨hr', hkey⟩ := mem_of_find h
    rw [eq_of_key hr' hr hkey]

theorem find_insert {hmk : ∀ k, key (mk k) = k} :
    (t.insert mk hmk).find k = if k = t.next then some (mk t.next) else t.find k := by
  rw [find, rows_insert, find?_append, ← find]
  split
  case isTrue hk =>
    have hnone : t.find k = none := by
      refine find?_eq_none.mpr fun r hr => ?_
      have := t.below r hr
      simp only [decide_eq_true_eq]
      omega
    rw [hnone, Option.none_or, find?_cons_of_pos (by simp [hmk, hk])]
  case isFalse hk =>
    have hnew : key (mk t.next) ≠ k := fun he => hk (he.symm.trans (hmk t.next))
    rw [find?_cons_of_neg (by simpa using hnew), find?_nil, Option.or_none]

theorem countP_key_le (k : Int) : t.rows.countP (fun r => key r = k) ≤ 1 := by
  have hcount := nodup_iff_count_le_one.mp t.nodup k
  rwa [List.count, countP_map] at hcount

theorem exists_other (h : 1 < t.rows.countP p) (k : Int) : ∃ r ∈ t.rows, p r = true ∧ key r ≠ k := by
  by_contra hall
  have hkey : ∀ r ∈ t.rows, p r = true → decide (key r = k) = true := by
    intro r hr hp
    by_contra hne
    exact hall ⟨r, hr, hp, by simpa using hne⟩
  have hle := countP_mono_left hkey
  have hone := countP_key_le (t := t) k
  omega

theorem only_one (hr : r ∈ t.rows) (hp : p r = true) (h : t.rows.countP p ≤ 1) :
    ∀ r' ∈ t.rows, p r' = true → key r' = key r := by
  intro r' hr' hp'
  by_contra hne
  have hpair : [r, r'].Nodup := by
    simp only [nodup_cons, mem_singleton, not_mem_nil, not_false_eq_true,
      nodup_nil, and_true]
    exact fun he => hne (he ▸ rfl)
  have hsub : [r, r'] ⊆ t.rows.filter p := by
    intro x hx
    rcases mem_cons.mp hx with rfl | hx
    · exact mem_filter.mpr ⟨hr, hp⟩
    · rw [mem_singleton.mp hx]
      exact mem_filter.mpr ⟨hr', hp'⟩
  have hlen := (subperm_of_subset hpair hsub).length_le
  rw [countP_eq_length_filter] at h
  simp only [length_cons, length_nil] at hlen
  omega

end Table

end Keyed
