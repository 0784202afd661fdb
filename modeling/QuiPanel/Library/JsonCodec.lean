import QuiPanel.Library.JsonText
import QuiPanel.Library.Fields

namespace Fields

variable {α : Type} {m : Fields α} {k : String} {v : α}

def Sorted (m : Fields α) : Prop := (m.map Prod.fst).Pairwise (· < ·)

def insert : Fields α → String → α → Fields α
  | [], k, v => [(k, v)]
  | f :: m, k, v =>
    if k = f.1 then (k, v) :: m
    else if k < f.1 then (k, v) :: f :: m
    else f :: insert m k v

theorem mem_insert {f : String × α} (h : f ∈ m.insert k v) : f = (k, v) ∨ f ∈ m := by
  induction m with
  | nil => exact .inl (List.mem_singleton.mp h)
  | cons g m ih =>
    rw [insert] at h
    split at h
    case isTrue =>
      rcases List.mem_cons.mp h with hf | hf
      · exact .inl hf
      · exact .inr (List.mem_cons_of_mem g hf)
    case isFalse =>
      split at h
      case isTrue =>
        rcases List.mem_cons.mp h with hf | hf
        · exact .inl hf
        · exact .inr hf
      case isFalse =>
        rcases List.mem_cons.mp h with hf | hf
        · exact .inr (hf ▸ List.mem_cons_self)
        · exact (ih hf).imp_right (List.mem_cons_of_mem g)

theorem sorted_insert (h : m.Sorted) : (m.insert k v).Sorted := by
  induction m with
  | nil => exact List.pairwise_singleton _ _
  | cons f m ih =>
    obtain ⟨hhead, htail⟩ := List.pairwise_cons.mp h
    rw [insert]
    split
    case isTrue hk =>
      subst hk
      exact h
    case isFalse hne =>
      split
      case isTrue hlt =>
        refine List.pairwise_cons.mpr ⟨?_, h⟩
        rw [List.map_cons, List.forall_mem_cons]
        exact ⟨hlt, fun l hl => lt_trans hlt (hhead l hl)⟩
      case isFalse hle =>
        refine List.pairwise_cons.mpr ⟨fun l hl => ?_, ih htail⟩
        obtain ⟨g, hg, rfl⟩ := List.mem_map.mp hl
        rcases mem_insert hg with rfl | hg
        · exact lt_of_le_of_ne (not_lt.mp hle) (Ne.symm hne)
        · exact hhead _ (List.mem_map_of_mem hg)

theorem get_insert_self (m : Fields α) (k : String) (v : α) : (m.insert k v).get k = some v := by
  have hhead : ∀ m : Fields α, get ((k, v) :: m) k = some v := fun m => by simp [get, KeyedDiff.lookup]
  induction m with
  | nil => exact hhead []
  | cons f m ih =>
    rw [insert]
    split
    case isTrue => exact hhead m
    case isFalse hne =>
      split
      case isTrue => exact hhead (f :: m)
      case isFalse =>
        rw [get, KeyedDiff.lookup, List.find?_cons_of_neg (by simpa using Ne.symm hne)]
        exact ih

theorem del_insert (m : Fields α) (k : String) (v : α) : (m.insert k v).del k = m.del k := by
  have hhead : ∀ m : Fields α, del ((k, v) :: m) k = m.del k := fun m => by simp [del, KeyedDiff.delete]
  induction m with
  | nil => exact hhead []
  | cons f m ih =>
    rw [insert]
    split
    case isTrue hk =>
      obtain ⟨l, w⟩ := f
      subst hk
      exact (hhead m).trans (by simp [del, KeyedDiff.delete])
    case isFalse hne =>
      split
      case isTrue => exact hhead (f :: m)
      case isFalse =>
        have hkeep : ∀ m : Fields α, del (f :: m) k = f :: m.del k := fun m => by
          rw [del, KeyedDiff.delete, List.filter_cons_of_pos (by simpa using Ne.symm hne)]
          rfl
        rw [hkeep, hkeep, ih]

theorem get_insert_ne {l : String} (hne : l ≠ k) (m : Fields α) (v : α) : (m.insert k v).get l = m.get l := by
  have hsplit : ∀ m m' : Fields α, m.del k = m'.del k → m.get l = m'.get l := fun m m' heq => by
    have hkeep : ∀ m : Fields α, m.get l = (m.del k).get l := fun m => (get_del_ne hne.symm).symm
    rw [hkeep m, heq, ← hkeep m']
  exact hsplit _ _ (del_insert m k v)

theorem mem_del {f : String × α} (h : f ∈ m.del k) : f ∈ m := List.mem_of_mem_filter h

theorem sorted_del (h : m.Sorted) : (m.del k).Sorted := h.sublist (List.filter_sublist.map Prod.fst)

theorem mem_of_get (h : m.get k = some v) : (k, v) ∈ m := by
  obtain ⟨⟨l, w⟩, hlookup, hw⟩ := Option.map_eq_some_iff.mp h
  obtain ⟨hmem, hl⟩ := KeyedDiff.lookup_mem hlookup
  obtain rfl : l = k := hl
  obtain rfl : w = v := hw
  exact hmem

end Fields

namespace JsonText

mutual

def Canonical (float : Number → Prop) : Tree → Nat → Prop
  | .null, _ => True
  | .bool _, _ => True
  | .num x, _ => float x
  | .str _, _ => True
  | .arr _, 0 => False
  | .arr elems, n + 1 => CanonicalElems float elems n
  | .obj _, 0 => False
  | .obj fields, n + 1 => Fields.Sorted fields ∧ CanonicalFields float fields n

def CanonicalElems (float : Number → Prop) : List Tree → Nat → Prop
  | [], _ => True
  | v :: vs, n => Canonical float v n ∧ CanonicalElems float vs n

def CanonicalFields (float : Number → Prop) : List (String × Tree) → Nat → Prop
  | [], _ => True
  | (_, v) :: fs, n => Canonical float v n ∧ CanonicalFields float fs n

end

variable {float : Number → Prop} {n : Nat} {j : Fields Tree} {k s : String}

theorem canonicalFields_iff : CanonicalFields float j n ↔ ∀ f ∈ j, Canonical float f.2 n := by
  induction j with
  | nil => exact ⟨fun _ f hf => absurd hf List.not_mem_nil, fun _ => trivial⟩
  | cons f j ih =>
    obtain ⟨k, v⟩ := f
    rw [CanonicalFields, ih, List.forall_mem_cons]

theorem canonicalElems_iff {vs : List Tree} : CanonicalElems float vs n ↔ ∀ v ∈ vs, Canonical float v n := by
  induction vs with
  | nil => exact ⟨fun _ v hv => absurd hv List.not_mem_nil, fun _ => trivial⟩
  | cons v vs ih => rw [CanonicalElems, ih, List.forall_mem_cons]

theorem canonical_put {v w : Tree} (h : Canonical float (.obj j) n) (hk : j.get k = some v)
    (hv : ∀ d, Canonical float v d → Canonical float w d) : Canonical float (.obj (j.insert k w)) n := by
  cases n with
  | zero => cases h
  | succ n =>
    obtain ⟨hsorted, hfields⟩ := h
    have hall := canonicalFields_iff.mp hfields
    refine ⟨Fields.sorted_insert hsorted, canonicalFields_iff.mpr fun f hf => ?_⟩
    rcases Fields.mem_insert hf with rfl | hf
    · exact hv n (hall _ (Fields.mem_of_get hk))
    · exact hall f hf

theorem canonical_del (h : Canonical float (.obj j) n) : Canonical float (.obj (j.del k)) n := by
  cases n with
  | zero => cases h
  | succ n =>
    obtain ⟨hsorted, hfields⟩ := h
    exact ⟨Fields.sorted_del hsorted,
      canonicalFields_iff.mpr fun f hf => canonicalFields_iff.mp hfields f (Fields.mem_del hf)⟩

theorem canonical_map {vs : List Tree} {heal : Tree → Tree}
    (hheal : ∀ v d, Canonical float v d → Canonical float (heal v) d) (h : Canonical float (.arr vs) n) :
    Canonical float (.arr (vs.map heal)) n := by
  cases n with
  | zero => cases h
  | succ n =>
    refine canonicalElems_iff.mpr (List.forall_mem_map.mpr fun v hv => hheal v n ?_)
    exact canonicalElems_iff.mp h v hv

theorem canonical_insert (h : Canonical float (.obj j) n) : Canonical float (.obj (j.insert k (.str s))) n := by
  cases n with
  | zero => cases h
  | succ n =>
    obtain ⟨hsorted, hfields⟩ := h
    refine ⟨Fields.sorted_insert hsorted, canonicalFields_iff.mpr fun f hf => ?_⟩
    rcases Fields.mem_insert hf with rfl | hf
    · exact trivial
    · exact canonicalFields_iff.mp hfields f hf

end JsonText
