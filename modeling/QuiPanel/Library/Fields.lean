import QuiPanel.Library.Diff

abbrev Fields (α : Type) : Type := List (String × α)

namespace Fields

open KeyedDiff

variable {α : Type} {m : Fields α} {k k' : String} {v : α}

def get (m : Fields α) (k : String) : Option α := (lookup Prod.fst m k).map Prod.snd

def put (m : Fields α) (k : String) (v : α) : Fields α := replace Prod.fst m (k, v)

def del (m : Fields α) (k : String) : Fields α := delete Prod.fst m k

def delAll (m : Fields α) (ks : List String) : Fields α := ks.foldl del m

def copy (m new : Fields α) : Fields α := new.foldl (fun m f => m.put f.1 f.2) m

def putIf (m : Fields α) (c : Bool) (k : String) (v : α) : Fields α := if c then m.put k v else m

@[simp] theorem get_nil : get ([] : Fields α) k = none := rfl

theorem get_put : (m.put k v).get k' = if k = k' then some v else m.get k' := by
  rw [get, put, lookup_replace]
  split <;> rfl

@[simp] theorem get_put_self : (m.put k v).get k = some v := by
  rw [get_put, if_pos rfl]

@[simp] theorem get_put_ne (h : k ≠ k') : (m.put k v).get k' = m.get k' := by
  rw [get_put, if_neg h]

theorem put_put {v' : α} : (m.put k v).put k v' = m.put k v' := by
  simp [put, replace, delete, List.filter_append, List.filter_filter]

theorem get_del : (m.del k).get k' = if k' = k then none else m.get k' := by
  rw [get, del, lookup_delete]
  split <;> rfl

@[simp] theorem get_del_self : (m.del k).get k = none := by
  rw [get_del, if_pos rfl]

@[simp] theorem get_del_ne (h : k ≠ k') : (m.del k).get k' = m.get k' := by
  rw [get_del, if_neg h.symm]

theorem get_delAll {ks : List String} :
    (m.delAll ks).get k = if k ∈ ks then none else m.get k := by
  induction ks generalizing m with
  | nil => simp [delAll]
  | cons k' ks ih =>
    have hstep : m.delAll (k' :: ks) = (m.del k').delAll ks := rfl
    rw [hstep, ih, get_del]
    by_cases hk : k = k'
    · simp [hk]
    · simp [hk]

theorem get_putIf_ne {c : Bool} (h : k ≠ k') : (m.putIf c k v).get k' = m.get k' := by
  cases c with
  | false => rfl
  | true => exact get_put_ne h

end Fields
