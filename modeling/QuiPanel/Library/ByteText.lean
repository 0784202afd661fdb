import Mathlib

namespace ByteText

open List

abbrev Bytes := List UInt8

def lit (s : String) : Bytes := s.toList.map fun c => c.toNat.toUInt8

def cut (sep : UInt8) : Bytes → Bytes × Option Bytes
  | [] => ([], none)
  | c :: s => if c = sep then ([], some s) else (c :: (cut sep s).1, (cut sep s).2)

def cutLast (sep : UInt8) (s : Bytes) : Option (Bytes × Bytes) :=
  (cut sep s.reverse).2.map fun before => (before.reverse, (cut sep s.reverse).1.reverse)

def trimPrefix (pre s : Bytes) : Bytes := if pre.isPrefixOf s then s.drop pre.length else s

def lowerLetter (c : UInt8) : Bool := 97 ≤ c && c ≤ 122

def upperLetter (c : UInt8) : Bool := 65 ≤ c && c ≤ 90

def decimal (c : UInt8) : Bool := 48 ≤ c && c ≤ 57

def hexDigit (c : UInt8) : Option Nat :=
  if decimal c then some (c.toNat - 48)
  else if 97 ≤ c ∧ c ≤ 102 then some (c.toNat - 87)
  else if 65 ≤ c ∧ c ≤ 70 then some (c.toNat - 55)
  else none

def digit (d : Nat) : UInt8 := if d < 10 then (48 + d).toUInt8 else (87 + d).toUInt8

def spaces : List Bytes :=
  [[0x09], [0x0a], [0x0b], [0x0c], [0x0d], [0x20], [0xc2, 0x85], [0xc2, 0xa0], [0xe1, 0x9a, 0x80],
    [0xe2, 0x80, 0x80], [0xe2, 0x80, 0x81], [0xe2, 0x80, 0x82], [0xe2, 0x80, 0x83], [0xe2, 0x80, 0x84],
    [0xe2, 0x80, 0x85], [0xe2, 0x80, 0x86], [0xe2, 0x80, 0x87], [0xe2, 0x80, 0x88], [0xe2, 0x80, 0x89],
    [0xe2, 0x80, 0x8a], [0xe2, 0x80, 0xa8], [0xe2, 0x80, 0xa9], [0xe2, 0x80, 0xaf], [0xe2, 0x81, 0x9f],
    [0xe3, 0x80, 0x80]]

def strip (codes : List Bytes) : Nat → Bytes → Bytes
  | 0, s => s
  | fuel + 1, s =>
    match codes.find? (·.isPrefixOf s) with
    | none => s
    | some code => strip codes fuel (s.drop code.length)

def trimLeft (s : Bytes) : Bytes := strip spaces s.length s

def trimRight (s : Bytes) : Bytes := (strip (spaces.map List.reverse) s.length s.reverse).reverse

def trimSpace (s : Bytes) : Bytes := trimRight (trimLeft s)

def digitsValue (ds : Bytes) : Nat := ds.foldl (fun n c => 10 * n + (c.toNat - 48)) 0

structure Conversion where
  value : Int
  failed : Bool

def atoi (s : Bytes) : Conversion :=
  let negative := s.head? = some 45
  let digits := if negative ∨ s.head? = some 43 then s.tail else s
  if digits = [] ∨ digits.all decimal = false then ⟨0, true⟩
  else
    let n : Int := digitsValue digits
    if negative then if n ≤ 2 ^ 63 then ⟨-n, false⟩ else ⟨-2 ^ 63, true⟩
    else if n < 2 ^ 63 then ⟨n, false⟩ else ⟨2 ^ 63 - 1, true⟩

def unsigned (s : Bytes) : Bytes := if s.head? = some 43 then s.tail else s

def numeral (s : Bytes) : Option Nat :=
  if unsigned s = [] ∨ (unsigned s).all decimal = false then none else some (digitsValue (unsigned s))

def itoa (n : Int) : Bytes := lit (toString n)

section cutting

attribute [local grind =] cut cutLast

variable {sep : UInt8} {s pre post : Bytes}

theorem cut_spec (sep : UInt8) (s : Bytes) : sep ∉ (cut sep s).1 ∧
    s = (cut sep s).1 ++ ((cut sep s).2.map (sep :: ·)).getD [] := by
  induction s with
  | nil => exact ⟨not_mem_nil, rfl⟩
  | cons c s ih =>
    rw [cut]
    split
    case isTrue hc =>
      subst hc
      exact ⟨not_mem_nil, rfl⟩
    case isFalse hc =>
      refine ⟨fun hmem => ?_, by rw [cons_append, ← ih.2]⟩
      rcases mem_cons.mp hmem with heq | hmem
      · exact hc heq.symm
      · exact ih.1 hmem

theorem cut_append (h : sep ∉ pre) (s : Bytes) : cut sep (pre ++ s) = (pre ++ (cut sep s).1, (cut sep s).2) := by
  induction pre with
  | nil => rfl
  | cons c pre ih =>
    rw [mem_cons, not_or] at h
    rw [cons_append, cut, if_neg (Ne.symm h.1), ih h.2]
    rfl

theorem cut_at (h : sep ∉ pre) : cut sep (pre ++ sep :: post) = (pre, some post) := by
  rw [cut_append h, cut, if_pos rfl, append_nil]

theorem cutLast_spec {before after : Bytes} (h : cutLast sep s = some (before, after)) :
    s = before ++ sep :: after ∧ sep ∉ after := by
  obtain ⟨tail, htail, heq⟩ := Option.map_eq_some_iff.mp h
  obtain ⟨hfree, hsplit⟩ := cut_spec sep s.reverse
  cases heq
  refine ⟨?_, fun hmem => hfree (mem_reverse.mp hmem)⟩
  rw [htail, Option.map_some, Option.getD_some] at hsplit
  have hback := congrArg List.reverse hsplit
  rw [reverse_reverse, reverse_append, reverse_cons, append_assoc,
    singleton_append] at hback
  exact hback

theorem cutLast_at (h : sep ∉ post) : cutLast sep (pre ++ sep :: post) = some (pre, post) := by
  have hreverse : (pre ++ sep :: post).reverse = post.reverse ++ sep :: pre.reverse := by simp
  rw [cutLast, hreverse, cut_at (fun hmem => h (mem_reverse.mp hmem))]
  simp

theorem trimPrefix_append (pre s : Bytes) : trimPrefix pre (pre ++ s) = s := by
  rw [trimPrefix, if_pos (List.isPrefixOf_iff_prefix.mpr (prefix_append _ _)), drop_left]

theorem cut_trimPrefix (hsep : sep ∉ pre) (h : pre.isPrefixOf s = true) :
    cut sep (trimPrefix pre s) = (trimPrefix pre (cut sep s).1, (cut sep s).2) := by
  obtain ⟨rest, rfl⟩ := List.isPrefixOf_iff_prefix.mp h
  rw [trimPrefix_append, cut_append hsep, trimPrefix_append]

theorem prefix_marked {a x : Bytes} (h : sep ∉ pre) : pre <+: a ++ sep :: x ↔ pre <+: a := by
  refine ⟨fun hpre => ?_, fun hpre => hpre.trans (prefix_append a _)⟩
  rcases prefix_or_prefix_of_prefix hpre (prefix_append a _) with hle | ⟨rest, rfl⟩
  · exact hle
  · cases rest with
    | nil => exact ⟨[], by simp⟩
    | cons c rest =>
      obtain ⟨tail, htail⟩ := (prefix_append_right_inj a).mp hpre
      rw [cons_append, List.cons.injEq] at htail
      exact absurd (htail.1 ▸ mem_append_right a mem_cons_self) h

theorem prefix_cut (h : sep ∉ pre) : pre <+: (cut sep s).1 ↔ pre <+: s := by
  have hsplit := (cut_spec sep s).2
  cases htail : (cut sep s).2 with
  | none =>
    rw [htail, Option.map_none, Option.getD_none, append_nil] at hsplit
    rw [← hsplit]
  | some rest =>
    rw [htail, Option.map_some, Option.getD_some] at hsplit
    exact ((prefix_marked h).symm).trans (by rw [← hsplit])

end cutting

section numerals

variable {m n : Nat} {s : Bytes}

theorem repr_digit (m : Nat) : ∀ c ∈ (Nat.repr m).toList,
    48 ≤ c.toNat ∧ c.toNat ≤ 57 ∧ c.toNat.toUInt8.toNat = c.toNat := by
  intro c hc
  simp only [Nat.repr, String.toList_ofList] at hc
  have hisDigit := Nat.isDigit_of_mem_toDigits (by decide) (by decide) hc
  simp only [Char.isDigit, Bool.and_eq_true, decide_eq_true_eq, UInt32.le_iff_toNat_le] at hisDigit
  have hlo : 48 ≤ c.toNat := hisDigit.1
  have hhi : c.toNat ≤ 57 := hisDigit.2
  refine ⟨hlo, hhi, ?_⟩
  rw [Nat.toUInt8, UInt8.toNat_ofNat']
  omega

theorem lit_repr_decimal : ∀ b ∈ lit (Nat.repr m), decimal b = true := by
  intro b hb
  obtain ⟨c, hc, rfl⟩ := mem_map.mp hb
  obtain ⟨hlo, hhi, hbyte⟩ := repr_digit m c hc
  rw [decimal, Bool.and_eq_true, decide_eq_true_eq, decide_eq_true_eq, UInt8.le_iff_toNat_le,
    UInt8.le_iff_toNat_le, hbyte]
  exact ⟨hlo, hhi⟩

theorem lit_repr_injective (h : lit (Nat.repr m) = lit (Nat.repr n)) : m = n := by
  have hback : ∀ k, (lit (Nat.repr k)).map (fun b => Char.ofNat b.toNat) = (Nat.repr k).toList := by
    intro k
    rw [lit, map_map]
    refine (map_congr_left fun c hc => ?_).trans (map_id _)
    rw [Function.comp_apply, (repr_digit k c hc).2.2, Char.ofNat_toNat, id]
  have hdigits : Nat.toDigits 10 m = Nat.toDigits 10 n := by
    rw [← String.toList_ofList (l := Nat.toDigits 10 m), ← String.toList_ofList (l := Nat.toDigits 10 n)]
    exact (hback m).symm.trans (h ▸ hback n)
  rw [← @Nat.ofDigitChars_ten_toDigits m, hdigits, Nat.ofDigitChars_ten_toDigits]

theorem itoa_negSucc (m : Nat) : itoa (Int.negSucc m) = 45 :: lit (Nat.repr (m + 1)) := by
  have htext : toString (Int.negSucc m) = "-" ++ Nat.repr (m + 1) := rfl
  rw [itoa, htext, lit, String.toList_append, map_append]
  rfl

theorem itoa_digits {n : Int} : ∀ c ∈ itoa n, decimal c = true ∨ c = 45 := by
  intro c hc
  cases n with
  | ofNat m => exact .inl (lit_repr_decimal c hc)
  | negSucc m =>
    rw [itoa_negSucc] at hc
    rcases mem_cons.mp hc with rfl | hc
    · exact .inr rfl
    · exact .inl (lit_repr_decimal c hc)

theorem itoa_injective {a b : Int} (h : itoa a = itoa b) : a = b := by
  have hsign : ∀ m n : Nat, lit (Nat.repr m) ≠ 45 :: lit (Nat.repr n) := by
    intro m n hmn
    have hdigit := @lit_repr_decimal m 45 (hmn ▸ mem_cons_self)
    cases hdigit
  cases a with
  | ofNat m =>
    cases b with
    | ofNat n => exact congrArg Int.ofNat (lit_repr_injective h)
    | negSucc n => exact absurd (h.trans (itoa_negSucc n)) (hsign m (n + 1))
  | negSucc m =>
    cases b with
    | ofNat n => exact absurd (h.symm.trans (itoa_negSucc m)) (hsign n (m + 1))
    | negSucc n =>
      rw [itoa_negSucc, itoa_negSucc] at h
      exact congrArg Int.negSucc (Nat.succ.inj (lit_repr_injective (List.cons.inj h).2))

theorem not_mem_itoa {c : UInt8} (h : decimal c = false) (hminus : c ≠ 45) (n : Int) : c ∉ itoa n := by
  intro hc
  rcases itoa_digits c hc with hdigit | rfl
  · rw [hdigit] at h
    cases h
  · exact hminus rfl

theorem numeral_none (h : numeral s = none) : (atoi s).value ≤ 0 := by
  rw [numeral] at h
  split at h
  case isFalse => cases h
  case isTrue hbad =>
    by_cases hminus : s.head? = some 45
    · simp only [atoi, hminus, if_pos, true_or]
      split
      case isTrue => exact le_refl 0
      case isFalse =>
        have hnat : (0 : Int) ≤ digitsValue s.tail := Int.natCast_nonneg _
        split
        case isTrue => exact Int.neg_nonpos_of_nonneg hnat
        case isFalse => exact Int.neg_nonpos_of_nonneg (by decide)
    · simp only [atoi, hminus, false_or]
      rw [unsigned] at hbad
      rw [if_pos hbad]

theorem numeral_some {p : Nat} (h : numeral s = some p) :
    atoi s = if p < 2 ^ 63 then ⟨p, false⟩ else ⟨2 ^ 63 - 1, true⟩ := by
  rw [numeral] at h
  split at h
  case isTrue => cases h
  case isFalse hok =>
    have hminus : s.head? ≠ some 45 := by
      intro hhead
      obtain ⟨rest, rfl⟩ := head?_eq_some_iff.mp hhead
      rw [not_or] at hok
      exact hok.2 rfl
    rw [unsigned] at h hok
    cases h
    simp only [atoi, hminus, false_or]
    rw [if_neg hok, if_neg (fun hfalse => hfalse)]
    generalize digitsValue (if s.head? = some 43 then s.tail else s) = n
    have hcast : ((n : Int) < 2 ^ 63) = (n < 2 ^ 63) := propext (by omega)
    simp only [hcast]

theorem numeral_digits (h : s ≠ []) (hdigits : s.all decimal = true) : numeral s = some (digitsValue s) := by
  have hunsigned : unsigned s = s := by
    cases s with
    | nil => rfl
    | cons c s =>
      rw [unsigned, if_neg]
      intro hplus
      cases hplus
      cases (all_eq_true.mp hdigits) 43 mem_cons_self
  rw [numeral, hunsigned, if_neg]
  rw [not_or, Bool.not_eq_false]
  exact ⟨h, hdigits⟩

theorem digitsValue_append (a b : Bytes) :
    digitsValue (a ++ b) = digitsValue a * 10 ^ b.length + digitsValue b := by
  have hfold : ∀ (b : Bytes) (n : Nat),
      b.foldl (fun n c => 10 * n + (c.toNat - 48)) n = n * 10 ^ b.length + digitsValue b := by
    intro b
    induction b with
    | nil => simp [digitsValue]
    | cons c b ih =>
      intro n
      have hcons : digitsValue (c :: b) = (10 * 0 + (c.toNat - 48)) * 10 ^ b.length + digitsValue b := ih _
      rw [foldl_cons, ih, hcons, length_cons, Nat.pow_succ, Nat.mul_zero, Nat.zero_add, Nat.add_mul,
        Nat.mul_comm 10 n, Nat.mul_assoc, Nat.mul_comm 10, Nat.add_assoc]
  rw [digitsValue, foldl_append, hfold, ← digitsValue]

theorem digitsValue_zeros (k : Nat) (s : Bytes) : digitsValue (List.replicate k 48 ++ s) = digitsValue s := by
  induction k with
  | zero => rfl
  | succ k ih =>
    rw [replicate_succ, cons_append, ← singleton_append, digitsValue_append, ih]
    simp [digitsValue]

theorem digitsValue_lt (h : ∀ c ∈ s, decimal c = true) : digitsValue s < 10 ^ s.length := by
  induction s with
  | nil => simp [digitsValue]
  | cons c s ih =>
    have hc := h c mem_cons_self
    have hs := ih fun x hx => h x (mem_cons_of_mem _ hx)
    have hdigit : digitsValue [c] ≤ 9 := by
      simp only [decimal, Bool.and_eq_true, decide_eq_true_eq, UInt8.le_iff_toNat_le, UInt8.reduceToNat] at hc
      simp only [digitsValue, foldl_cons, foldl_nil]
      omega
    have hcarry : digitsValue [c] * 10 ^ s.length ≤ 9 * 10 ^ s.length := Nat.mul_le_mul_right _ hdigit
    rw [← singleton_append, digitsValue_append, length_append, length_singleton, Nat.add_comm 1,
      Nat.pow_succ]
    omega

theorem digitsValue_repr (m : Nat) : digitsValue (lit (Nat.repr m)) = m := by
  have hmap : ∀ (cs : List Char) (n : Nat), (∀ c ∈ cs, c.toNat.toUInt8.toNat = c.toNat) →
      (cs.map fun c => c.toNat.toUInt8).foldl (fun n c => 10 * n + (c.toNat - 48)) n = Nat.ofDigitChars 10 cs n := by
    intro cs
    induction cs with
    | nil =>
      intro n _
      rfl
    | cons c cs ih =>
      intro n hcs
      rw [map_cons, foldl_cons, hcs c mem_cons_self, ih _ fun x hx => hcs x (mem_cons_of_mem _ hx)]
      rfl
  rw [digitsValue, lit, hmap _ _ fun c hc => (repr_digit m c hc).2.2]
  simp only [Nat.repr, String.toList_ofList]
  exact Nat.ofDigitChars_ten_toDigits

end numerals

section trimming

variable {codes : List Bytes} {code s : Bytes} {n m : Nat}

def PrefixFree (codes : List Bytes) : Prop :=
  [] ∉ codes ∧ ∀ a ∈ codes, ∀ b ∈ codes, a.isPrefixOf b = true → a = b

theorem find_code (hfree : PrefixFree codes) (hcode : code ∈ codes) (s : Bytes) :
    codes.find? (·.isPrefixOf (code ++ s)) = some code := by
  have hself : code.isPrefixOf (code ++ s) = true := List.isPrefixOf_iff_prefix.mpr (prefix_append code s)
  have hsome : (codes.find? (·.isPrefixOf (code ++ s))).isSome := by
    rw [find?_isSome]
    exact ⟨code, hcode, hself⟩
  obtain ⟨other, hfind⟩ := Option.isSome_iff_exists.mp hsome
  have hfound := find?_some hfind
  have hpre := List.isPrefixOf_iff_prefix.mp hfound
  have hother := mem_of_find?_eq_some hfind
  rw [hfind]
  rcases prefix_or_prefix_of_prefix hpre (prefix_append code s) with hle | hle
  · rw [hfree.2 other hother code hcode (List.isPrefixOf_iff_prefix.mpr hle)]
  · rw [hfree.2 code hcode other hother (List.isPrefixOf_iff_prefix.mpr hle)]

theorem find_nil (hfree : PrefixFree codes) : codes.find? (·.isPrefixOf ([] : Bytes)) = none := by
  rw [find?_eq_none]
  intro code hcode hpre
  rw [prefix_nil.mp (List.isPrefixOf_iff_prefix.mp hpre)] at hcode
  exact hfree.1 hcode

theorem strip_fuel (hfree : PrefixFree codes) (hn : s.length ≤ n) (hm : s.length ≤ m) :
    strip codes n s = strip codes m s := by
  have hnil : ∀ k, strip codes k ([] : Bytes) = [] := by
    intro k
    cases k with
    | zero => rfl
    | succ k => rw [strip, find_nil hfree]
  induction n generalizing m s with
  | zero =>
    obtain rfl := eq_nil_of_length_eq_zero (Nat.le_zero.mp hn)
    rw [hnil, hnil]
  | succ n ih =>
    cases m with
    | zero =>
      obtain rfl := eq_nil_of_length_eq_zero (Nat.le_zero.mp hm)
      rw [hnil, hnil]
    | succ m =>
      rw [strip, strip]
      cases hfind : codes.find? (·.isPrefixOf s) with
      | none => rfl
      | some code =>
        have hne : code ≠ [] := fun hnil => hfree.1 (hnil ▸ mem_of_find?_eq_some hfind)
        have hpos := length_pos_iff.mpr hne
        refine ih ?_ ?_
        · rw [length_drop]
          omega
        · rw [length_drop]
          omega

theorem strip_code (hfree : PrefixFree codes) (hcode : code ∈ codes) (s : Bytes) :
    strip codes (code ++ s).length (code ++ s) = strip codes s.length s := by
  have hne : code ≠ [] := fun hnil => hfree.1 (hnil ▸ hcode)
  have hpos := length_pos_iff.mpr hne
  rw [strip_fuel hfree (m := (code.length + s.length - 1) + 1) (le_refl _) (by rw [length_append]; omega), strip,
    find_code hfree hcode]
  dsimp only
  rw [drop_left]
  exact strip_fuel hfree (by omega) (le_refl _)

theorem strip_spec (n : Nat) (s : Bytes) :
    ∃ ws : List Bytes, (∀ w ∈ ws, w ∈ codes) ∧ s = ws.flatten ++ strip codes n s := by
  induction n generalizing s with
  | zero => exact ⟨[], fun w hw => absurd hw not_mem_nil, rfl⟩
  | succ n ih =>
    rw [strip]
    cases hfind : codes.find? (·.isPrefixOf s) with
    | none => exact ⟨[], fun w hw => absurd hw not_mem_nil, rfl⟩
    | some code =>
      have hpre := find?_some hfind
      obtain ⟨rest, rfl⟩ := List.isPrefixOf_iff_prefix.mp hpre
      obtain ⟨ws, hws, hrest⟩ := ih rest
      refine ⟨code :: ws, forall_mem_cons.mpr ⟨mem_of_find?_eq_some hfind, hws⟩, ?_⟩
      dsimp only
      rw [drop_left, flatten_cons, append_assoc, ← hrest]

theorem spaces_apart : PrefixFree spaces ∧ PrefixFree (spaces.map List.reverse) ∧
    ∀ a ∈ spaces, ∀ b ∈ spaces, a.tail.all (fun c => b.head? != some c) = true := by
  unfold PrefixFree
  decide +kernel

theorem spaces_free : PrefixFree spaces :=
  spaces_apart.1

theorem spaces_reverse_free : PrefixFree (spaces.map List.reverse) :=
  spaces_apart.2.1

theorem trimLeft_code (hcode : code ∈ spaces) (s : Bytes) : trimLeft (code ++ s) = trimLeft s :=
  strip_code spaces_free hcode s

theorem trimRight_code (hcode : code ∈ spaces) (s : Bytes) : trimRight (s ++ code) = trimRight s := by
  have hstrip := strip_code spaces_reverse_free (mem_map_of_mem hcode) s.reverse
  rw [← reverse_append, length_reverse, length_reverse] at hstrip
  rw [trimRight, trimRight, hstrip]

theorem trimSpace_before (hcode : code ∈ spaces) (s : Bytes) : trimSpace (code ++ s) = trimSpace s := by
  rw [trimSpace, trimSpace, trimLeft_code hcode]

theorem trimLeft_cases (s : Bytes) :
    (∃ code ∈ spaces, ∃ rest, s = code ++ rest) ∨ spaces.find? (·.isPrefixOf s) = none := by
  cases hfind : spaces.find? (·.isPrefixOf s) with
  | none => exact .inr rfl
  | some code =>
    have hpre := find?_some hfind
    obtain ⟨rest, hrest⟩ := List.isPrefixOf_iff_prefix.mp hpre
    exact .inl ⟨code, mem_of_find?_eq_some hfind, rest, hrest.symm⟩

theorem trimLeft_none (h : spaces.find? (·.isPrefixOf s) = none) : trimLeft s = s := by
  rw [trimLeft]
  cases s with
  | nil => rfl
  | cons c s => rw [length_cons, strip, h]

theorem find_append (hne : s ≠ []) (h : spaces.find? (·.isPrefixOf s) = none) (hcode : code ∈ spaces) :
    spaces.find? (·.isPrefixOf (s ++ code)) = none := by
  have hinner := spaces_apart.2.2
  rw [find?_eq_none] at h ⊢
  intro other hother hpre
  have hother' := List.isPrefixOf_iff_prefix.mp hpre
  rcases prefix_or_prefix_of_prefix hother' (prefix_append s code) with hle | ⟨rest, rfl⟩
  · exact h other hother (List.isPrefixOf_iff_prefix.mpr hle)
  · cases rest with
    | nil =>
      rw [append_nil] at hother
      exact h s hother (List.isPrefixOf_iff_prefix.mpr (prefix_refl s))
    | cons c rest =>
      obtain ⟨tail, htail⟩ := (prefix_append_right_inj s).mp hother'
      have hhead : code.head? = some c := by
        rw [← htail]
        rfl
      have hmem : c ∈ (s ++ c :: rest).tail := by
        cases s with
        | nil => exact absurd rfl hne
        | cons a s => exact mem_append_right s mem_cons_self
      have houter := all_eq_true.mp (hinner _ hother code hcode) c hmem
      rw [hhead, bne_self_eq_false] at houter
      cases houter

theorem trimSpace_after (hcode : code ∈ spaces) (s : Bytes) : trimSpace (s ++ code) = trimSpace s := by
  induction hlen : s.length using Nat.strong_induction_on generalizing s with
  | _ n ih =>
    rcases trimLeft_cases s with ⟨other, hother, rest, rfl⟩ | hnone
    · have hpos := length_pos_iff.mpr fun hnil => spaces_free.1 (hnil ▸ hother)
      rw [append_assoc, trimSpace_before hother, trimSpace_before hother]
      refine ih rest.length ?_ rest rfl
      rw [← hlen, length_append]
      omega
    · by_cases hne : s = []
      · have hback := trimSpace_before hcode []
        rw [append_nil] at hback
        rw [hne]
        exact hback
      · rw [trimSpace, trimSpace, trimLeft_none hnone, trimLeft_none (find_append hne hnone hcode),
          trimRight_code hcode]

theorem trimSpace_spec (s : Bytes) : ∃ ws vs : List Bytes, (∀ w ∈ ws, w ∈ spaces) ∧ (∀ v ∈ vs, v ∈ spaces) ∧
    s = ws.flatten ++ (trimSpace s ++ vs.flatten) := by
  obtain ⟨ws, hws, hleft⟩ := @strip_spec spaces s.length s
  obtain ⟨vs, hvs, hright⟩ := @strip_spec (spaces.map List.reverse) (trimLeft s).length (trimLeft s).reverse
  refine ⟨ws, (vs.map List.reverse).reverse, hws, fun v hv => ?_, ?_⟩
  · obtain ⟨w, hw, rfl⟩ := mem_map.mp (mem_reverse.mp hv)
    obtain ⟨code, hcode, rfl⟩ := mem_map.mp (hvs w hw)
    rw [reverse_reverse]
    exact hcode
  · have hback := congrArg List.reverse hright
    rw [reverse_reverse, reverse_append, reverse_flatten] at hback
    rw [trimSpace, trimRight, ← hback]
    exact hleft

def visible (c : UInt8) : Bool := 33 ≤ c && c < 127

variable {codes : List Bytes}

theorem strip_visible {n : Nat} (hcodes : codes.all (fun code => code.any fun c => !visible c) = true)
    (h : ∀ c ∈ s, visible c = true) : strip codes n s = s := by
  have hnone : codes.find? (·.isPrefixOf s) = none := by
    rw [find?_eq_none]
    intro code hcode hpre
    obtain ⟨rest, hrest⟩ := List.isPrefixOf_iff_prefix.mp hpre
    obtain ⟨c, hc, hhidden⟩ := any_eq_true.mp (all_eq_true.mp hcodes code hcode)
    rw [h c (hrest ▸ mem_append_left _ hc)] at hhidden
    cases hhidden
  cases n with
  | zero => rfl
  | succ n => rw [strip, hnone]

theorem spaces_hidden : spaces.all (fun code => code.head?.any (fun c => !visible c) && code.any fun c => !visible c) =
    true ∧ (spaces.map List.reverse).all (fun code => code.head?.any (fun c => !visible c) && code.any fun c => !visible c) =
      true := by
  decide +kernel

theorem all_and {p q : Bytes → Bool} (h : codes.all (fun code => p code && q code) = true) :
    codes.all p = true ∧ codes.all q = true := by
  rw [all_eq_true] at h
  exact ⟨all_eq_true.mpr fun code hcode => (Bool.and_eq_true_iff.mp (h code hcode)).1,
    all_eq_true.mpr fun code hcode => (Bool.and_eq_true_iff.mp (h code hcode)).2⟩

theorem trimSpace_visible (h : ∀ c ∈ s, visible c = true) : trimSpace s = s := by
  have hleft : trimLeft s = s := strip_visible (all_and spaces_hidden.1).2 h
  rw [trimSpace, hleft, trimRight, strip_visible (all_and spaces_hidden.2).2 fun c hc => h c (mem_reverse.mp hc),
    reverse_reverse]

theorem strip_head {n : Nat} {c : UInt8}
    (hcodes : codes.all (fun code => code.head?.any fun c => !visible c) = true) (hhead : s.head? = some c)
    (hc : visible c = true) : strip codes n s = s := by
  have hnone : codes.find? (·.isPrefixOf s) = none := by
    rw [find?_eq_none]
    intro code hcode hpre
    obtain ⟨rest, rfl⟩ := List.isPrefixOf_iff_prefix.mp hpre
    have hhidden := all_eq_true.mp hcodes code hcode
    cases code with
    | nil => cases hhidden
    | cons b code =>
      cases hhead
      have hfalse : (!visible c) = true := hhidden
      rw [hc] at hfalse
      cases hfalse
  cases n with
  | zero => rfl
  | succ n => rw [strip, hnone]

theorem trimSpace_ends {a b : UInt8} (hhead : s.head? = some a) (hlast : s.getLast? = some b)
    (ha : visible a = true) (hb : visible b = true) : trimSpace s = s := by
  have hleft : trimLeft s = s := strip_head (all_and spaces_hidden.1).1 hhead ha
  rw [getLast?_eq_head?_reverse] at hlast
  rw [trimSpace, hleft, trimRight, strip_head (all_and spaces_hidden.2).1 hlast hb, reverse_reverse]

theorem trim_invariant {A : Type} {g : Bytes → A} (hbefore : ∀ code ∈ spaces, ∀ s, g (code ++ s) = g s)
    (hafter : ∀ code ∈ spaces, ∀ s, g (s ++ code) = g s) (s : Bytes) : g (trimSpace s) = g s := by
  have hleft : ∀ (ws : List Bytes) (s : Bytes), (∀ w ∈ ws, w ∈ spaces) → g (ws.flatten ++ s) = g s := by
    intro ws s hws
    induction ws with
    | nil => rfl
    | cons w ws ih =>
      rw [forall_mem_cons] at hws
      rw [flatten_cons, append_assoc, hbefore w hws.1, ih hws.2]
  have hright : ∀ (vs : List Bytes) (s : Bytes), (∀ v ∈ vs, v ∈ spaces) → g (s ++ vs.flatten) = g s := by
    intro vs s hvs
    induction vs generalizing s with
    | nil => rw [flatten_nil, append_nil]
    | cons v vs ih =>
      rw [forall_mem_cons] at hvs
      rw [flatten_cons, ← append_assoc, ih _ hvs.2, hafter v hvs.1]
  obtain ⟨ws, vs, hws, hvs, hsplit⟩ := trimSpace_spec s
  exact (hright vs _ hvs).symm.trans ((hleft ws _ hws).symm.trans (congrArg g hsplit.symm))

theorem trimSpace_idem (s : Bytes) : trimSpace (trimSpace s) = trimSpace s :=
  trim_invariant (fun _ hcode => trimSpace_before hcode) (fun _ hcode => trimSpace_after hcode) s

end trimming

section lines

variable {A : Type} {p : UInt8 → Bool} {f : Bytes → Option A} {w : Bytes}

def gather (p : UInt8 → Bool) (f : Bytes → Option A) (s : Bytes) : List A := (s.splitOnP p).filterMap f

theorem gather_break {c : UInt8} (hc : p c = true) (a b : Bytes) :
    gather p f (a ++ c :: b) = gather p f a ++ gather p f b := by
  rw [gather, splitOnP_append_cons a b hc, filterMap_append]
  rfl

theorem gather_line {s : Bytes} (h : ∀ c ∈ s, p c = false) : gather p f s = (f s).toList := by
  rw [gather, splitOnP_eq_singleton h, filterMap_cons]
  cases f s with
  | none => rfl
  | some a => rfl

theorem gather_induction {P : Bytes → Prop} (hline : ∀ s, (∀ c ∈ s, p c = false) → P s)
    (hbreak : ∀ a c b, p c = true → P a → P b → P (a ++ c :: b)) (s : Bytes) : P s := by
  induction hlen : s.length using Nat.strong_induction_on generalizing s with
  | _ n ih =>
    by_cases hall : ∀ c ∈ s, p c = false
    · exact hline s hall
    · rw [not_forall] at hall
      obtain ⟨c, hc⟩ := hall
      obtain ⟨hmem, hsep⟩ := Classical.not_imp.mp hc
      obtain ⟨a, b, rfl⟩ := append_of_mem hmem
      rw [Bool.not_eq_false] at hsep
      rw [length_append, length_cons] at hlen
      exact hbreak a c b hsep (ih a.length (by omega) a rfl) (ih b.length (by omega) b rfl)

theorem gather_before (hw : ∀ c ∈ w, p c = false) (hf : ∀ s, f (w ++ s) = f s) (s : Bytes) :
    gather p f (w ++ s) = gather p f s := by
  induction s using gather_induction (p := p) with
  | hline s hs => rw [gather_line (forall_mem_append.mpr ⟨hw, hs⟩), gather_line hs, hf]
  | hbreak a c b hc ha hb => rw [← append_assoc, gather_break hc, gather_break hc, ha]

theorem gather_after (hw : ∀ c ∈ w, p c = false) (hf : ∀ s, f (s ++ w) = f s) (s : Bytes) :
    gather p f (s ++ w) = gather p f s := by
  induction s using gather_induction (p := p) with
  | hline s hs => rw [gather_line (forall_mem_append.mpr ⟨hs, hw⟩), gather_line hs, hf]
  | hbreak a c b hc ha hb => rw [append_assoc, cons_append, gather_break hc, gather_break hc, hb]

end lines

end ByteText
