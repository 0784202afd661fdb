import QuiPanel.Library.Table
import Mathlib.Data.List.GetD

namespace Overwrite

variable {C V S : Type} {g : C → Option V} {v : V} {cs : List C}

def overwrite (g : C → Option V) (v : V) (cs : List C) : V := cs.foldl (fun v c => (g c).getD v) v

theorem overwrite_eq : overwrite g v cs = (cs.filterMap g).getLast?.getD v := by
  induction cs generalizing v with
  | nil => rfl
  | cons c cs ih =>
    rw [overwrite, List.foldl_cons, ← overwrite, ih]
    cases hc : g c with
    | none => rw [List.filterMap_cons_none hc, Option.getD_none]
    | some w =>
      rw [List.filterMap_cons_some hc, List.getLast?_cons, Option.getD_some, Option.getD_some]

theorem overwrite_twice : overwrite g (overwrite g v cs) cs = overwrite g v cs := by
  rw [overwrite_eq, overwrite_eq]
  cases (cs.filterMap g).getLast? <;> rfl

theorem overwrite_fixed_iff : overwrite g v cs = v ↔ ∀ w, (cs.filterMap g).getLast? = some w → w = v := by
  rw [overwrite_eq]
  cases (cs.filterMap g).getLast? with
  | none => simp
  | some w => simp

theorem foldl_field (merge : S → C → S) (field : S → V)
    (h : ∀ s c, field (merge s c) = (g c).getD (field s)) (s : S) (cs : List C) :
    field (cs.foldl merge s) = overwrite g (field s) cs := by
  induction cs generalizing s with
  | nil => rfl
  | cons c cs ih =>
    rw [List.foldl_cons, ih, h]
    rfl

theorem foldl_constant (merge : S → C → S) (field : S → V)
    (h : ∀ s c, field (merge s c) = field s) (s : S) (cs : List C) :
    field (cs.foldl merge s) = field s := by
  induction cs generalizing s with
  | nil => rfl
  | cons c cs ih => rw [List.foldl_cons, ih, h]

section rows

open Keyed

variable {R : Type} {key : R → Int} (address : R → String) (name : C → String) (merge : R → C → R)

theorem foldl_own (hkeep : ∀ r c, address (merge r c) = address r) (r : R) (cs : List C) :
    cs.foldl (fun r c => if address r == name c then merge r c else r) r =
      (cs.filter fun c => name c == address r).foldl merge r := by
  induction cs generalizing r with
  | nil => rfl
  | cons c cs ih =>
    rw [List.foldl_cons, ih]
    by_cases hc : name c = address r
    · have hown : (name c == address r) = true := by simpa using hc
      rw [if_pos (by simpa using hc.symm), hkeep, List.filter_cons_of_pos (by simpa using hc),
        List.foldl_cons]
    · rw [if_neg (by simpa using fun he => hc he.symm), List.filter_cons_of_neg (by simpa using hc)]

theorem rows_foldl_modify (hkey : ∀ r c, key (merge r c) = key r)
    (hkeep : ∀ r c, address (merge r c) = address r) (t : Table R key) (cs : List C) :
    (cs.foldl (fun t c => t.modify (fun r => address r == name c) (fun r => merge r c)
        (fun r => hkey r c)) t).rows =
      t.rows.map fun r => (cs.filter fun c => name c == address r).foldl merge r := by
  have hstep : (cs.foldl (fun t c => t.modify (fun r => address r == name c) (fun r => merge r c)
        (fun r => hkey r c)) t).rows =
      t.rows.map fun r => cs.foldl (fun r c => if address r == name c then merge r c else r) r := by
    induction cs generalizing t with
    | nil => exact (List.map_id t.rows).symm
    | cons c cs ih =>
      rw [List.foldl_cons, ih, Table.rows_modify, List.map_map]
      rfl
  rw [hstep]
  exact List.map_congr_left fun r _ => foldl_own address name merge hkeep r cs

end rows

end Overwrite
