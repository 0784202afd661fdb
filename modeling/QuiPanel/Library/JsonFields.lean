import QuiPanel.Library.Json

namespace Json

variable {j k : String} {v w : Json} {fields : List (String × Json)}

theorem find_insertField_self (k : String) (v : Json) (fields : List (String × Json)) :
    (insertField k v fields).find? (fun f => f.1 = k) = some (k, v) := by
  induction fields with
  | nil => simp [insertField]
  | cons f fields ih =>
    obtain ⟨l, w⟩ := f
    simp only [insertField]
    split
    · simp
    · split
      · simp
      case isFalse hne _ =>
        rw [List.find?_cons_of_neg (by simpa using fun h => hne h.symm)]
        exact ih

theorem field_set_self (fields : List (String × Json)) (k : String) (v : Json) :
    (set k (.obj fields) v).field k = some v := by
  rw [set, field, find_insertField_self]
  rfl

theorem field_without_self (k : String) (v : Json) : (v.without [k]).field k = none := by
  cases v with
  | obj fields =>
    have hnone : (fields.filter fun f => !([k] : List String).contains f.1).find? (fun f => f.1 = k) = none := by
      rw [List.find?_eq_none]
      intro f hf
      simpa using (List.mem_filter.mp hf).2
    rw [without, field, hnone]
    rfl
  | _ => rfl

theorem field_without (hne : j ≠ k) : (v.without [k]).field j = v.field j := by
  cases v with
  | obj fields =>
    rw [without, field, field, List.find?_filter]
    congr 2
    funext f
    by_cases hf : f.1 = j
    · simp [hf, hne]
    · simp [hf]
  | _ => rfl

end Json
