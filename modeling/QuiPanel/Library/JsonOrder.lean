import QuiPanel.Library.Json

namespace Json

theorem sizeOf_elem {v : Json} {elems : List Json} (h : v ∈ elems) : sizeOf v < sizeOf (Json.arr elems) := by
  have hmem := List.sizeOf_lt_of_mem h
  simp only [arr.sizeOf_spec]
  omega

theorem sizeOf_field {f : String × Json} {fields : List (String × Json)} (h : f ∈ fields) :
    sizeOf f.2 < sizeOf (Json.obj fields) := by
  have hmem := List.sizeOf_lt_of_mem h
  obtain ⟨k, v⟩ := f
  simp only [Prod.mk.sizeOf_spec] at hmem
  simp only [obj.sizeOf_spec]
  omega

theorem induct {P : Json → Prop} (leaf : ∀ v, (∀ elems, v ≠ .arr elems) → (∀ fields, v ≠ .obj fields) → P v)
    (arr : ∀ elems, (∀ v ∈ elems, P v) → P (.arr elems))
    (obj : ∀ fields, (∀ f ∈ fields, P f.2) → P (.obj fields)) : ∀ v, P v
  | .arr elems => arr elems fun v _ => induct leaf arr obj v
  | .obj fields => obj fields fun f _ => induct leaf arr obj f.2
  | .null => leaf _ nofun nofun
  | .bool _ => leaf _ nofun nofun
  | .num _ => leaf _ nofun nofun
  | .str _ => leaf _ nofun nofun
termination_by v => sizeOf v
decreasing_by
  · exact sizeOf_elem ‹_›
  · exact sizeOf_field ‹_›

inductive Same : Json → Json → Prop
  | refl (v : Json) : Same v v
  | symm {v w : Json} : Same v w → Same w v
  | trans {u v w : Json} : Same u v → Same v w → Same u w
  | order {fields fields' : List (String × Json)} : fields.Perm fields' → Same (.obj fields) (.obj fields')
  | field {v w : Json} (pre : List (String × Json)) (k : String) (post : List (String × Json)) : Same v w →
      Same (.obj (pre ++ (k, v) :: post)) (.obj (pre ++ (k, w) :: post))
  | elem {v w : Json} (pre post : List Json) : Same v w →
      Same (.arr (pre ++ v :: post)) (.arr (pre ++ w :: post))

def text : Json → Option String
  | .str s => some s
  | _ => none

def items : Json → List Json
  | .arr elems => elems
  | _ => []

theorem Same.text_eq {v w : Json} (h : Same v w) : v.text = w.text := by
  induction h with
  | refl => rfl
  | symm _ ih => exact ih.symm
  | trans _ _ ih ih' => exact ih.trans ih'
  | order _ => rfl
  | field => rfl
  | elem => rfl

theorem Same.items_text {v w : Json} (h : Same v w) : v.items.map text = w.items.map text := by
  induction h with
  | refl => rfl
  | symm _ ih => exact ih.symm
  | trans _ _ ih ih' => exact ih.trans ih'
  | order _ => rfl
  | field => rfl
  | elem pre post hvw => simp only [items, List.map_append, List.map_cons, hvw.text_eq]

end Json
