import Mathlib.Data.List.Basic

namespace Base64

open List

def alphabet : List Char := "ABCDEFGHIJKLMNOPQRSTUVWXYZabcdefghijklmnopqrstuvwxyz0123456789+/".toList

def symbol (n : Nat) : Char := alphabet.getD n '='

def digit (c : Char) : Option Nat := alphabet.findIdx? (· == c)

def encode : List UInt8 → List Char
  | [] => []
  | [a] => [symbol (a.toNat / 4), symbol (a.toNat % 4 * 16), '=', '=']
  | [a, b] =>
    [symbol (a.toNat / 4), symbol (a.toNat % 4 * 16 + b.toNat / 16), symbol (b.toNat % 16 * 4), '=']
  | a :: b :: c :: rest =>
    symbol (a.toNat / 4) :: symbol (a.toNat % 4 * 16 + b.toNat / 16) ::
      symbol (b.toNat % 16 * 4 + c.toNat / 64) :: symbol (c.toNat % 64) :: encode rest

def first (a b : Nat) : UInt8 := UInt8.ofNat (a * 4 + b / 16)

def second (b c : Nat) : UInt8 := UInt8.ofNat (b % 16 * 16 + c / 4)

def third (c d : Nat) : UInt8 := UInt8.ofNat (c % 4 * 64 + d)

def quanta : List Char → Option (List UInt8)
  | [] => some []
  | a :: b :: c :: d :: rest =>
    if c = '=' ∧ d = '=' ∧ rest = [] then do
      let a ← digit a
      let b ← digit b
      return [first a b]
    else if d = '=' ∧ rest = [] then do
      let a ← digit a
      let b ← digit b
      let c ← digit c
      return [first a b, second b c]
    else do
      let a ← digit a
      let b ← digit b
      let c ← digit c
      let d ← digit d
      let rest ← quanta rest
      return first a b :: second b c :: third c d :: rest
  | _ => none

def decode (s : List Char) : Option (List UInt8) := quanta (s.filter fun c => c != '\n' && c != '\r')

attribute [local grind =] encode quanta

section roundtrip

variable {n : Nat} {bs : List UInt8} {s : List Char}

theorem alphabet_spelled : alphabet =
    ['A', 'B', 'C', 'D', 'E', 'F', 'G', 'H', 'I', 'J', 'K', 'L', 'M', 'N', 'O', 'P', 'Q', 'R', 'S', 'T', 'U',
      'V', 'W', 'X', 'Y', 'Z', 'a', 'b', 'c', 'd', 'e', 'f', 'g', 'h', 'i', 'j', 'k', 'l', 'm', 'n', 'o', 'p',
      'q', 'r', 's', 't', 'u', 'v', 'w', 'x', 'y', 'z', '0', '1', '2', '3', '4', '5', '6', '7', '8', '9', '+',
      '/'] :=
  String.toList_ofList

theorem symbols_listed : (List.range 64).all (fun k => digit (symbol k) == some k && symbol k != '=' &&
    symbol k != '\n' && symbol k != '\r') = true := by
  simp only [symbol, digit, alphabet_spelled]
  decide +kernel

theorem symbol_listed (h : n < 64) :
    digit (symbol n) = some n ∧ symbol n ≠ '=' ∧ symbol n ≠ '\n' ∧ symbol n ≠ '\r' := by
  have hall := all_eq_true.mp symbols_listed n (mem_range.mpr h)
  simpa [and_assoc] using hall

theorem digit_symbol (h : n < 64) : digit (symbol n) = some n :=
  (symbol_listed h).1

theorem symbol_ne_pad (h : n < 64) : symbol n ≠ '=' :=
  (symbol_listed h).2.1

theorem symbol_visible (n : Nat) : symbol n ≠ '\n' ∧ symbol n ≠ '\r' := by
  by_cases h : n < 64
  · exact (symbol_listed h).2.2
  · have hlen : alphabet.length = 64 := by rw [alphabet_spelled]; rfl
    have hpad : symbol n = '=' := by
      rw [symbol, getD_eq_getElem?_getD, getElem?_eq_none (by omega), Option.getD_none]
    rw [hpad]
    decide

theorem encode_visible (bs : List UInt8) : ∀ c ∈ encode bs, c ≠ '\n' ∧ c ≠ '\r' := by
  induction bs using encode.induct with
  | case1 => exact fun c hc => absurd hc not_mem_nil
  | case2 a =>
    simp only [encode, forall_mem_cons]
    exact ⟨symbol_visible _, symbol_visible _, by decide, by decide, fun c hc => absurd hc not_mem_nil⟩
  | case3 a b =>
    simp only [encode, forall_mem_cons]
    exact ⟨symbol_visible _, symbol_visible _, symbol_visible _, by decide,
      fun c hc => absurd hc not_mem_nil⟩
  | case4 a b c rest ih =>
    simp only [encode, forall_mem_cons]
    exact ⟨symbol_visible _, symbol_visible _, symbol_visible _, symbol_visible _, ih⟩

theorem first_digits (a : UInt8) (n : Nat) (h : n < 16) :
    first (a.toNat / 4) (a.toNat % 4 * 16 + n) = a := by
  have hvalue : a.toNat / 4 * 4 + (a.toNat % 4 * 16 + n) / 16 = a.toNat := by omega
  rw [first, hvalue, UInt8.ofNat_toNat]

theorem second_digits (a b : UInt8) (n : Nat) (h : n < 4) :
    second (a.toNat % 4 * 16 + b.toNat / 16) (b.toNat % 16 * 4 + n) = b := by
  have hbound := b.toNat_lt
  have hvalue : (a.toNat % 4 * 16 + b.toNat / 16) % 16 * 16 + (b.toNat % 16 * 4 + n) / 4 = b.toNat := by
    omega
  rw [second, hvalue, UInt8.ofNat_toNat]

theorem third_digits (b c : UInt8) : third (b.toNat % 16 * 4 + c.toNat / 64) (c.toNat % 64) = c := by
  have hbound := c.toNat_lt
  have hvalue : (b.toNat % 16 * 4 + c.toNat / 64) % 4 * 64 + c.toNat % 64 = c.toNat := by omega
  rw [third, hvalue, UInt8.ofNat_toNat]

theorem quanta_encode (bs : List UInt8) : quanta (encode bs) = some bs := by
  induction bs using encode.induct with
  | case1 => rfl
  | case2 a =>
    have ha := a.toNat_lt
    have hfirst := first_digits a 0 (by omega)
    rw [Nat.add_zero] at hfirst
    simp only [encode, quanta, and_self, if_true, digit_symbol (n := a.toNat / 4) (by omega),
      digit_symbol (n := a.toNat % 4 * 16) (by omega), Option.bind_eq_bind, Option.bind_some, hfirst]
    rfl
  | case3 a b =>
    have ha := a.toNat_lt
    have hb := b.toNat_lt
    have hsecond := second_digits a b 0 (by omega)
    rw [Nat.add_zero] at hsecond
    simp only [encode, quanta, symbol_ne_pad (n := b.toNat % 16 * 4) (by omega), false_and, if_false,
      and_self, if_true, digit_symbol (n := a.toNat / 4) (by omega),
      digit_symbol (n := a.toNat % 4 * 16 + b.toNat / 16) (by omega),
      digit_symbol (n := b.toNat % 16 * 4) (by omega), Option.bind_eq_bind, Option.bind_some,
      first_digits a (b.toNat / 16) (by omega), hsecond]
    rfl
  | case4 a b c rest ih =>
    have ha := a.toNat_lt
    have hb := b.toNat_lt
    have hc := c.toNat_lt
    simp only [encode, quanta, symbol_ne_pad (n := c.toNat % 64) (by omega), false_and, and_false, if_false,
      digit_symbol (n := a.toNat / 4) (by omega),
      digit_symbol (n := a.toNat % 4 * 16 + b.toNat / 16) (by omega),
      digit_symbol (n := b.toNat % 16 * 4 + c.toNat / 64) (by omega),
      digit_symbol (n := c.toNat % 64) (by omega), Option.bind_eq_bind, Option.bind_some, ih,
      first_digits a (b.toNat / 16) (by omega), second_digits a b (c.toNat / 64) (by omega),
      third_digits b c]
    rfl

theorem decode_encode (bs : List UInt8) : decode (encode bs) = some bs := by
  have hall : (encode bs).filter (fun c => c != '\n' && c != '\r') = encode bs := by
    rw [filter_eq_self]
    intro c hc
    simpa using encode_visible bs c hc
  rw [decode, hall, quanta_encode]

theorem encode_ne_nil (h : bs ≠ []) : encode bs ≠ [] := by
  intro hnil
  have hround := quanta_encode bs
  rw [hnil] at hround
  exact h (Option.some.inj hround).symm

theorem quanta_short (hnil : s ≠ []) (hlong : ∀ a b c d rest, s ≠ a :: b :: c :: d :: rest) : quanta s = none := by
  match s with
  | [_] => rfl
  | [_, _] => rfl
  | [_, _, _] => rfl
  | [] => exact absurd rfl hnil
  | a :: b :: c :: d :: rest => exact absurd rfl (hlong a b c d rest)

theorem quanta_unpadded (hpad : '=' ∉ s) (h : quanta s = some bs) : 3 ∣ bs.length := by
  induction s using quanta.induct generalizing bs with
  | case1 =>
    cases h
    exact Nat.dvd_zero 3
  | case2 a b c d rest hend =>
    obtain ⟨rfl, -⟩ := hend
    simp at hpad
  | case3 a b c d rest _ hend =>
    obtain ⟨rfl, -⟩ := hend
    simp at hpad
  | case4 a b c d rest hend₂ hend₁ ih =>
    simp only [quanta, if_neg hend₂, if_neg hend₁, Option.bind_eq_bind, Option.bind_eq_some_iff] at h
    obtain ⟨a', -, b', -, c', -, d', -, bs', hrest, h⟩ := h
    cases h
    have htail : '=' ∉ rest := fun hmem => hpad (by simp [hmem])
    obtain ⟨k, hk⟩ := ih htail hrest
    exact ⟨k + 1, by simp only [length_cons]; omega⟩
  | case5 s hnil hlong =>
    rw [quanta_short hnil hlong] at h
    cases h

theorem decode_unpadded (hpad : '=' ∉ s) (h : decode s = some bs) : 3 ∣ bs.length :=
  quanta_unpadded (fun hmem => hpad (mem_filter.mp hmem).1) h

end roundtrip

section characters

variable {s : List Char} {bs : List UInt8} {c : Char}

theorem quanta_chars (h : quanta s = some bs) : ∀ c ∈ s, (digit c).isSome ∨ c = '=' := by
  induction s using quanta.induct generalizing bs with
  | case1 => exact fun c hc => absurd hc not_mem_nil
  | case2 a b c d rest hend =>
    rw [quanta, if_pos hend] at h
    obtain ⟨a', ha, h⟩ := Option.bind_eq_some_iff.mp h
    obtain ⟨b', hb, h⟩ := Option.bind_eq_some_iff.mp h
    obtain ⟨rfl, rfl, rfl⟩ := hend
    simp [ha, hb]
  | case3 a b c d rest hend₂ hend =>
    rw [quanta, if_neg hend₂, if_pos hend] at h
    obtain ⟨a', ha, h⟩ := Option.bind_eq_some_iff.mp h
    obtain ⟨b', hb, h⟩ := Option.bind_eq_some_iff.mp h
    obtain ⟨c', hc, h⟩ := Option.bind_eq_some_iff.mp h
    obtain ⟨rfl, rfl⟩ := hend
    simp [ha, hb, hc]
  | case4 a b c d rest hend₂ hend₁ ih =>
    rw [quanta, if_neg hend₂, if_neg hend₁] at h
    obtain ⟨a', ha, h⟩ := Option.bind_eq_some_iff.mp h
    obtain ⟨b', hb, h⟩ := Option.bind_eq_some_iff.mp h
    obtain ⟨c', hc, h⟩ := Option.bind_eq_some_iff.mp h
    obtain ⟨d', hd, h⟩ := Option.bind_eq_some_iff.mp h
    obtain ⟨bs', hrest, h⟩ := Option.bind_eq_some_iff.mp h
    simp only [forall_mem_cons, ha, hb, hc, hd, Option.isSome_some, true_or, true_and]
    exact ih hrest
  | case5 s hnil hlong =>
    rw [quanta_short hnil hlong] at h
    cases h

theorem decode_chars (h : decode s = some bs) (hc : c ∈ s) (hn : c ≠ '\n') (hr : c ≠ '\r') :
    (digit c).isSome ∨ c = '=' :=
  quanta_chars h c (mem_filter.mpr ⟨hc, by simp [hn, hr]⟩)

theorem symbol_cases (n : Nat) : symbol n ∈ alphabet ∨ symbol n = '=' := by
  rw [symbol, getD_eq_getElem?_getD]
  cases hn : alphabet[n]? with
  | none => exact .inr rfl
  | some c => exact .inl (mem_of_getElem? hn)

theorem encode_chars (bs : List UInt8) : ∀ c ∈ encode bs, c ∈ alphabet ∨ c = '=' := by
  induction bs using encode.induct with
  | case1 => exact fun c hc => absurd hc not_mem_nil
  | case2 a =>
    simp only [encode, forall_mem_cons]
    exact ⟨symbol_cases _, symbol_cases _, .inr trivial, .inr trivial, fun c hc => absurd hc not_mem_nil⟩
  | case3 a b =>
    simp only [encode, forall_mem_cons]
    exact ⟨symbol_cases _, symbol_cases _, symbol_cases _, .inr trivial, fun c hc => absurd hc not_mem_nil⟩
  | case4 a b c rest ih =>
    simp only [encode, forall_mem_cons]
    exact ⟨symbol_cases _, symbol_cases _, symbol_cases _, symbol_cases _, ih⟩

theorem encode_padding (bs : List UInt8) : ∃ k ≤ 2, 4 ∣ (encode bs).length ∧
    encode bs = (encode bs).filter (· ≠ '=') ++ List.replicate k '=' := by
  induction bs using encode.induct with
  | case1 => exact ⟨0, by decide, by decide, rfl⟩
  | case2 a =>
    have ha := a.toNat_lt
    refine ⟨2, Nat.le_refl 2, Nat.dvd_refl 4, ?_⟩
    have h₁ := @symbol_ne_pad (a.toNat / 4) (by omega)
    have h₂ := @symbol_ne_pad (a.toNat % 4 * 16) (by omega)
    simp [encode, h₁, h₂]
  | case3 a b =>
    have ha := a.toNat_lt
    have hb := b.toNat_lt
    refine ⟨1, by decide, Nat.dvd_refl 4, ?_⟩
    have h₁ := @symbol_ne_pad (a.toNat / 4) (by omega)
    have h₂ := @symbol_ne_pad (a.toNat % 4 * 16 + b.toNat / 16) (by omega)
    have h₃ := @symbol_ne_pad (b.toNat % 16 * 4) (by omega)
    simp [encode, h₁, h₂, h₃]
  | case4 a b c rest ih =>
    have ha := a.toNat_lt
    have hb := b.toNat_lt
    have hc := c.toNat_lt
    obtain ⟨k, hk, hlength, hpad⟩ := ih
    refine ⟨k, hk, by simpa only [encode, length_cons] using Nat.dvd_add hlength (Nat.dvd_refl 4), ?_⟩
    have h₁ := @symbol_ne_pad (a.toNat / 4) (by omega)
    have h₂ := @symbol_ne_pad (a.toNat % 4 * 16 + b.toNat / 16) (by omega)
    have h₃ := @symbol_ne_pad (b.toNat % 16 * 4 + c.toNat / 64) (by omega)
    have h₄ := @symbol_ne_pad (c.toNat % 64) (by omega)
    rw [encode, filter_cons_of_pos (by simpa using h₁), filter_cons_of_pos (by simpa using h₂),
      filter_cons_of_pos (by simpa using h₃), filter_cons_of_pos (by simpa using h₄)]
    simp only [cons_append]
    rw [← hpad]

end characters

end Base64
