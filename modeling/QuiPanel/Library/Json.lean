import Mathlib.Logic.Basic

inductive Json
  | null
  | bool (b : Bool)
  | num (digits : String)
  | str (s : String)
  | arr (elems : List Json)
  | obj (fields : List (String × Json))

namespace Json

mutual

def decEq : (a b : Json) → Decidable (a = b)
  | .null, .null => isTrue rfl
  | .bool a, .bool b => decidable_of_iff (a = b) (by simp)
  | .num a, .num b => decidable_of_iff (a = b) (by simp)
  | .str a, .str b => decidable_of_iff (a = b) (by simp)
  | .arr a, .arr b => @decidable_of_iff _ (a = b) (by simp) (decEqs a b)
  | .obj a, .obj b => @decidable_of_iff _ (a = b) (by simp) (decEqFields a b)
  | .null, .bool _ | .null, .num _ | .null, .str _ | .null, .arr _ | .null, .obj _
  | .bool _, .null | .bool _, .num _ | .bool _, .str _ | .bool _, .arr _ | .bool _, .obj _
  | .num _, .null | .num _, .bool _ | .num _, .str _ | .num _, .arr _ | .num _, .obj _
  | .str _, .null | .str _, .bool _ | .str _, .num _ | .str _, .arr _ | .str _, .obj _
  | .arr _, .null | .arr _, .bool _ | .arr _, .num _ | .arr _, .str _ | .arr _, .obj _
  | .obj _, .null | .obj _, .bool _ | .obj _, .num _ | .obj _, .str _ | .obj _, .arr _ =>
      isFalse (by simp)

def decEqs : (a b : List Json) → Decidable (a = b)
  | [], [] => isTrue rfl
  | x :: xs, y :: ys => @decidable_of_iff _ (x = y ∧ xs = ys) (by simp)
      (@instDecidableAnd _ _ (decEq x y) (decEqs xs ys))
  | [], _ :: _ | _ :: _, [] => isFalse (by simp)

def decEqFields : (a b : List (String × Json)) → Decidable (a = b)
  | [], [] => isTrue rfl
  | (k, x) :: xs, (l, y) :: ys => @decidable_of_iff _ (k = l ∧ x = y ∧ xs = ys) (by simp [and_assoc])
      (@instDecidableAnd _ _ inferInstance (@instDecidableAnd _ _ (decEq x y) (decEqFields xs ys)))
  | [], _ :: _ | _ :: _, [] => isFalse (by simp)

end

instance : DecidableEq Json := decEq

def insertField (k : String) (v : Json) : List (String × Json) → List (String × Json)
  | [] => [(k, v)]
  | (l, w) :: fs =>
    if k = l then (k, v) :: fs
    else if k < l then (k, v) :: (l, w) :: fs
    else (l, w) :: insertField k v fs

mutual

def sorted : Json → Json
  | .arr elems => .arr (sortedElems elems)
  | .obj fields => .obj (sortedFields fields [])
  | .null => .null
  | .bool b => .bool b
  | .num digits => .num digits
  | .str s => .str s

def sortedElems : List Json → List Json
  | [] => []
  | v :: vs => sorted v :: sortedElems vs

def sortedFields : List (String × Json) → List (String × Json) → List (String × Json)
  | [], acc => acc
  | (k, v) :: fs, acc => sortedFields fs (insertField k (sorted v) acc)

end

def field (key : String) : Json → Option Json
  | .obj fields => (fields.find? fun f => f.1 = key).map (·.2)
  | _ => none

def without (keys : List String) : Json → Json
  | .obj fields => .obj (fields.filter fun f => !keys.contains f.1)
  | v => v

def set (key : String) : Json → Json → Json
  | .obj fields, v => .obj (insertField key v fields)
  | w, _ => w

theorem find_insertField {k j : String} {v : Json} (hne : j ≠ k) (fields : List (String × Json)) :
    (insertField k v fields).find? (fun f => f.1 = j) = fields.find? fun f => f.1 = j := by
  induction fields with
  | nil => simp [insertField, hne.symm]
  | cons f fields ih =>
    obtain ⟨l, w⟩ := f
    simp only [insertField]
    split
    case isTrue hkl =>
      have hl : l ≠ j := fun he => hne (he.symm.trans hkl.symm)
      simp [hne.symm, hl]
    case isFalse =>
      split
      · simp [hne.symm]
      · simp only [List.find?_cons, ih]

theorem field_set {k j : String} {v w : Json} (hne : j ≠ k) : (w.set k v).field j = w.field j := by
  cases w with
  | obj fields => simp only [set, field, find_insertField hne]
  | _ => rfl

end Json
