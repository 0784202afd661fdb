import Mathlib

namespace QuiPanel.Text

def isSpace (c : Char) : Bool :=
  c.toNat ∈ [0x09, 0x0a, 0x0b, 0x0c, 0x0d, 0x20, 0x85, 0xa0, 0x1680, 0x2028, 0x2029, 0x202f, 0x205f,
    0x3000] || (0x2000 ≤ c.toNat && c.toNat ≤ 0x200a)

def trimSpace (s : String) : String :=
  String.ofList ((s.toList.dropWhile isSpace).reverse.dropWhile isSpace).reverse

def toUpper (s : String) : String := String.ofList (s.toList.map Char.toUpper)

def toLower (s : String) : String := String.ofList (s.toList.map Char.toLower)

def equalFold (s t : String) : Bool := s.toList.map Char.toLower == t.toList.map Char.toLower

structure Edged (l : List Char) : Prop where
  head : ∀ c, l.head? = some c → isSpace c = false
  last : ∀ c, l.getLast? = some c → isSpace c = false

variable {l : List Char}

theorem dropWhile_of_head (h : ∀ c, l.head? = some c → isSpace c = false) :
    l.dropWhile isSpace = l := by
  cases l with
  | nil => rfl
  | cons c cs =>
    have hc := h c rfl
    simp [hc]

theorem trimSpace_of_edged {s : String} (h : Edged s.toList) : trimSpace s = s := by
  have hlast : ∀ c, s.toList.reverse.head? = some c → isSpace c = false := by
    intro c hc
    rw [List.head?_reverse] at hc
    exact h.last c hc
  rw [trimSpace, dropWhile_of_head h.head, dropWhile_of_head hlast, List.reverse_reverse,
    String.ofList_toList]

theorem head_dropWhile (l : List Char) :
    ∀ c, (l.dropWhile isSpace).head? = some c → isSpace c = false := by
  intro c hc
  have := List.head?_dropWhile_not isSpace l
  rw [hc] at this
  exact this

theorem edged_trimSpace (s : String) : Edged (trimSpace s).toList := by
  have hlist : (trimSpace s).toList = (s.toList.dropWhile isSpace).rdropWhile isSpace := by
    simp [trimSpace, List.rdropWhile]
  rw [hlist]
  constructor
  · intro c hc
    obtain ⟨rest, hrest⟩ := List.rdropWhile_prefix isSpace (l := s.toList.dropWhile isSpace)
    apply head_dropWhile s.toList c
    rw [← hrest, List.head?_append, hc]
    rfl
  · intro c hc
    rw [List.rdropWhile, List.getLast?_reverse] at hc
    exact head_dropWhile _ c hc

theorem Edged.map {f : Char → Char} (h : Edged l)
    (hf : ∀ c, isSpace c = false → isSpace (f c) = false) : Edged (l.map f) := by
  constructor
  · intro c hc
    rw [List.head?_map, Option.map_eq_some_iff] at hc
    obtain ⟨c', hc', rfl⟩ := hc
    exact hf c' (h.head c' hc')
  · intro c hc
    rw [List.getLast?_map, Option.map_eq_some_iff] at hc
    obtain ⟨c', hc', rfl⟩ := hc
    exact hf c' (h.last c' hc')

theorem Edged.append {l m r : List Char} (h : Edged l) (h' : Edged r) (hl : l ≠ []) (hr : r ≠ []) :
    Edged (l ++ m ++ r) := by
  constructor
  · intro c hc
    apply h.head c
    rw [← hc, List.append_assoc, List.head?_append_of_ne_nil _ hl]
  · intro c hc
    apply h'.last c
    rw [← hc, List.getLast?_append_of_ne_nil _ hr]

theorem isSpace_plain {c : Char} (h : (c.isAlphanum || c == '-') = true) : isSpace c = false := by
  have hrange : c.toNat = 45 ∨ (48 ≤ c.toNat ∧ c.toNat ≤ 122) := by
    rw [Bool.or_eq_true, beq_iff_eq] at h
    rcases h with h | rfl
    · right
      simp only [Char.isAlphanum, Char.isAlpha, Char.isUpper, Char.isLower, Char.isDigit,
        Bool.or_eq_true, Bool.and_eq_true, decide_eq_true_eq, ge_iff_le, UInt32.le_iff_toNat_le,
        ↓Char.isValue, Char.reduceVal, UInt32.reduceToNat, Char.toNat_val] at h
      omega
    · exact .inl rfl
  rw [isSpace, Bool.or_eq_false_iff]
  constructor
  · simp only [List.mem_cons, List.not_mem_nil, or_false, decide_eq_false_iff_not]
    omega
  · simp only [Bool.and_eq_false_iff, decide_eq_false_iff_not]
    omega

theorem edged_plain (h : l.all fun c => c.isAlphanum || c == '-') : Edged l := by
  rw [List.all_eq_true] at h
  constructor
  · intro c hc
    exact isSpace_plain (h c (List.mem_of_head? hc))
  · intro c hc
    exact isSpace_plain (h c (List.mem_of_getLast? hc))

theorem toLower_eq_empty {s : String} (h : toLower s = "") : s = "" := by
  have hlist : s.toList.map Char.toLower = [] := by
    rw [toLower] at h
    simpa using congrArg String.toList h
  simpa using hlist

theorem repr_isDigit {n : Nat} : ∀ c ∈ (Nat.repr n).toList, c.isDigit = true := by
  intro c hc
  rw [Nat.toList_repr] at hc
  exact Nat.isDigit_of_mem_toDigits (by decide) (by decide) hc

end QuiPanel.Text
