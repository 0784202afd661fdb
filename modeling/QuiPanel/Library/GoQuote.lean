import Mathlib.Data.Nat.Digits.Lemmas
import Mathlib.Data.List.Basic
import Mathlib.Tactic.SplitIfs

namespace GoQuote

def hexDigit (n : Nat) : Char := if n < 10 then Char.ofNat (48 + n) else Char.ofNat (87 + n)

def hex : Nat → Nat → List Char
  | 0, _ => []
  | width + 1, n => hex width (n / 16) ++ [hexDigit (n % 16)]

def control (c : Char) : Bool := c.toNat < 32 || c.toNat = 127

def escapeControl (c : Char) : List Char :=
  if c = '\x07' then ['\\', 'a']
  else if c = '\x08' then ['\\', 'b']
  else if c = '\x0c' then ['\\', 'f']
  else if c = '\n' then ['\\', 'n']
  else if c = '\r' then ['\\', 'r']
  else if c = '\t' then ['\\', 't']
  else if c = '\x0b' then ['\\', 'v']
  else if control c then '\\' :: 'x' :: hex 2 c.toNat
  else if c.toNat < 0x10000 then '\\' :: 'u' :: hex 4 c.toNat
  else '\\' :: 'U' :: hex 8 c.toNat

def appendEscapedRune (isPrint : Char → Bool) (c : Char) : List Char :=
  if c = '"' || c = '\\' then ['\\', c] else if isPrint c then [c] else escapeControl c

def quoteBody (isPrint : Char → Bool) (s : List Char) : List Char := s.flatMap (appendEscapedRune isPrint)

def quote (isPrint : Char → Bool) (s : List Char) : List Char := '"' :: (quoteBody isPrint s ++ ['"'])

theorem line_not_mem_hex (width n : Nat) : '\n' ∉ hex width n := by
  induction width generalizing n with
  | zero => exact List.not_mem_nil
  | succ width ih =>
    have hdigit : ∀ d < 16, hexDigit d ≠ '\n' := by decide
    rw [hex, List.mem_append, List.mem_singleton, not_or]
    exact ⟨ih _, (hdigit _ (Nat.mod_lt _ (by decide))).symm⟩

theorem line_not_mem_escape (c : Char) : '\n' ∉ escapeControl c := by
  have hcode (mark : Char) (hmark : mark ≠ '\n') (width : Nat) : '\n' ∉ '\\' :: mark :: hex width c.toNat := by
    rw [List.mem_cons, List.mem_cons, not_or, not_or]
    exact ⟨by decide, hmark.symm, line_not_mem_hex _ _⟩
  rw [escapeControl]
  split_ifs
  any_goals decide
  · exact hcode 'x' (by decide) 2
  · exact hcode 'u' (by decide) 4
  · exact hcode 'U' (by decide) 8

theorem line_not_mem_quote {isPrint : Char → Bool} (hprint : isPrint '\n' = false) (s : List Char) :
    '\n' ∉ quote isPrint s := by
  have hbody : '\n' ∉ quoteBody isPrint s := by
    intro h
    obtain ⟨c, -, hc⟩ := List.mem_flatMap.mp h
    rw [appendEscapedRune] at hc
    split_ifs at hc with hmark hraw
    · rcases List.mem_cons.mp hc with hslash | hc
      · exact absurd hslash (by decide)
      · rw [← List.mem_singleton.mp hc] at hmark
        exact absurd hmark (by decide)
    · rw [← List.mem_singleton.mp hc, hprint] at hraw
      cases hraw
    · exact line_not_mem_escape c hc
  rw [quote, List.mem_cons, List.mem_append, List.mem_singleton, not_or, not_or]
  exact ⟨by decide, hbody, by decide⟩

end GoQuote
