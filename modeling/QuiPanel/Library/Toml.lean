import QuiPanel.Library.GoQuote
import Mathlib.Data.List.TakeWhile

namespace Toml

open List

inductive Value
  | str (s : List Char)
  | int (n : Int)
  | bool (b : Bool)
  | strs (l : List (List Char))
  deriving DecidableEq

inductive Mode
  | plain
  | escape
  | hex (left acc : Nat)

def control (c : Char) : Bool := c.toNat < 32 && c ≠ '\t' || c.toNat = 127

def simpleEscape (c : Char) : Option Char :=
  if c = 'b' then some '\x08'
  else if c = 't' then some '\t'
  else if c = 'n' then some '\n'
  else if c = 'f' then some '\x0c'
  else if c = 'r' then some '\r'
  else if c = '"' then some '"'
  else if c = '\\' then some '\\'
  else none

def hexValue (c : Char) : Option Nat :=
  if '0' ≤ c ∧ c ≤ '9' then some (c.toNat - 48)
  else if 'a' ≤ c ∧ c ≤ 'f' then some (c.toNat - 87)
  else if 'A' ≤ c ∧ c ≤ 'F' then some (c.toNat - 55)
  else none

def scalar (n : Nat) : Option Char := if n.isValidChar then some (Char.ofNat n) else none

def scan : Mode → List Char → Option (List Char × List Char)
  | _, [] => none
  | .plain, c :: cs =>
    if c = '"' then some ([], cs)
    else if c = '\\' then scan .escape cs
    else if control c then none
    else (scan .plain cs).map fun r => (c :: r.1, r.2)
  | .escape, c :: cs =>
    match simpleEscape c with
    | some d => (scan .plain cs).map fun r => (d :: r.1, r.2)
    | none => if c = 'u' then scan (.hex 4 0) cs else if c = 'U' then scan (.hex 8 0) cs else none
  | .hex left acc, c :: cs =>
    match hexValue c with
    | none => none
    | some d =>
      if left = 1 then (scalar (acc * 16 + d)).bind fun ch => (scan .plain cs).map fun r => (ch :: r.1, r.2)
      else scan (.hex (left - 1) (acc * 16 + d)) cs

def space (c : Char) : Bool := c = ' ' || c = '\t'

def readStrings : Nat → List Char → Option (List (List Char) × List Char)
  | 0, _ => none
  | n + 1, cs =>
    match cs.dropWhile space with
    | ']' :: rest => some ([], rest)
    | '"' :: rest =>
      match scan .plain rest with
      | none => none
      | some (s, rest) =>
        match rest.dropWhile space with
        | ',' :: rest => (readStrings n rest).map fun r => (s :: r.1, r.2)
        | ']' :: rest => some ([s], rest)
        | _ => none
    | _ => none

def readNat (cs : List Char) : Option (Nat × List Char) :=
  match cs.takeWhile Char.isDigit with
  | [] => none
  | digits => some (Nat.ofDigitChars 10 digits 0, cs.dropWhile Char.isDigit)

def readValue : List Char → Option (Value × List Char)
  | '"' :: rest => (scan .plain rest).map fun r => (.str r.1, r.2)
  | '[' :: rest => (readStrings rest.length rest).map fun r => (.strs r.1, r.2)
  | 't' :: 'r' :: 'u' :: 'e' :: rest => some (.bool true, rest)
  | 'f' :: 'a' :: 'l' :: 's' :: 'e' :: rest => some (.bool false, rest)
  | '-' :: rest => (readNat rest).map fun r => (.int (-r.1), r.2)
  | '+' :: rest => (readNat rest).map fun r => (.int r.1, r.2)
  | rest => (readNat rest).map fun r => (.int r.1, r.2)

inductive Line
  | blank
  | table (name : List Char)
  | pair (key : List Char) (v : Value)

def bareKey (c : Char) : Bool := c.isAlphanum || c = '_' || c = '-'

def readPair (cs : List Char) : Option Line :=
  let key := cs.takeWhile bareKey
  match (cs.dropWhile bareKey).dropWhile space with
  | '=' :: rest =>
    match readValue (rest.dropWhile space) with
    | some (v, rest) => if key ≠ [] ∧ rest.dropWhile space = [] then some (.pair key v) else none
    | none => none
  | _ => none

def readTable (cs : List Char) : Option Line :=
  let name := cs.takeWhile fun c => bareKey c || c = '.'
  if name ≠ [] ∧ cs.drop name.length = [']'] then some (.table name) else none

def readLine (cs : List Char) : Option Line :=
  match cs.dropWhile space with
  | [] => some .blank
  | '#' :: _ => some .blank
  | '[' :: rest => readTable rest
  | cs => readPair cs

structure Entry where
  table : List Char
  key : List Char
  value : Value

def readLines : List Char → List (List Char) → Option (List Entry)
  | _, [] => some []
  | t, l :: ls =>
    match readLine l with
    | none => none
    | some .blank => readLines t ls
    | some (.table name) => readLines name ls
    | some (.pair key v) => (readLines t ls).map (⟨t, key, v⟩ :: ·)

def splitLines : List Char → List (List Char)
  | [] => [[]]
  | c :: cs =>
    if c = '\n' then [] :: splitLines cs
    else
      match splitLines cs with
      | [] => [[c]]
      | l :: ls => (c :: l) :: ls

def read (cs : List Char) : Option (List Entry) :=
  (readLines [] (splitLines cs)).bind fun es =>
    if (es.map fun e => (e.table, e.key)).Nodup then some es else none

def get (es : List Entry) (table key : List Char) : Option Value :=
  (es.find? fun e => e.table = table ∧ e.key = key).map (·.value)

attribute [local grind =] scan readStrings readNat readValue readPair readLine

section strings

open GoQuote (hexDigit hex escapeControl appendEscapedRune quoteBody)

variable {isPrint : Char → Bool} {c : Char} {s rest : List Char}

def safe (c : Char) : Bool := !GoQuote.control c || c = '\x08' || c = '\t' || c = '\n' || c = '\x0c' || c = '\r'

theorem hexValue_hexDigit {n : Nat} (h : n < 16) : hexValue (hexDigit n) = some n := by
  have hall : ∀ n < 16, hexValue (hexDigit n) = some n := by decide
  exact hall n h

theorem scan_hex (k j acc n : Nat) (rest : List Char) : scan (.hex (k + (j + 1)) acc) (hex k n ++ rest) =
    scan (.hex (j + 1) (acc * 16 ^ k + n % 16 ^ k)) rest := by
  induction k generalizing j n rest with
  | zero => simp [hex, Nat.mod_one]
  | succ k ih =>
    have hleft : k + 1 + (j + 1) = k + (j + 1 + 1) := by omega
    rw [hex, hleft, append_assoc, ih]
    have hmod : n % 16 ^ (k + 1) = n % 16 + 16 * (n / 16 % 16 ^ k) := by
      rw [pow_succ', Nat.mod_mul]
    have hacc : (acc * 16 ^ k + n / 16 % 16 ^ k) * 16 + n % 16 = acc * 16 ^ (k + 1) + n % 16 ^ (k + 1) := by
      rw [hmod, pow_succ]
      ring
    rw [singleton_append, scan, hexValue_hexDigit (Nat.mod_lt _ (by decide))]
    simp only [hacc]
    rw [if_neg (by omega)]
    rfl

theorem scalar_toNat (c : Char) : scalar c.toNat = some c := by
  rw [scalar, if_pos (show c.toNat.isValidChar from c.valid), Char.ofNat_toNat]

theorem scan_code {k : Nat} (h : c.toNat < 16 ^ (k + 1)) : scan (.hex (k + 1) 0) (hex (k + 1) c.toNat ++ rest) =
    (scan .plain rest).map fun r => (c :: r.1, r.2) := by
  have hsplit : hex (k + 1) c.toNat ++ rest = hex k (c.toNat / 16) ++ (hexDigit (c.toNat % 16) :: rest) := by
    rw [hex, append_assoc, singleton_append]
  rw [hsplit, scan_hex k 0, scan, hexValue_hexDigit (Nat.mod_lt _ (by decide))]
  have hlt : c.toNat / 16 < 16 ^ k := by
    rw [pow_succ] at h
    omega
  have hcode : (0 * 16 ^ k + c.toNat / 16 % 16 ^ k) * 16 + c.toNat % 16 = c.toNat := by
    rw [Nat.mod_eq_of_lt hlt]
    omega
  simp only [hcode, scalar_toNat]
  rfl

theorem scan_plain (hquote : c ≠ '"') (hslash : c ≠ '\\') (hcontrol : control c = false) :
    scan .plain (c :: rest) = (scan .plain rest).map fun r => (c :: r.1, r.2) := by
  rw [scan, if_neg hquote, if_neg hslash, hcontrol]
  rfl

theorem scan_bad (hsimple : simpleEscape c = none) (hu : c ≠ 'u') (hU : c ≠ 'U') :
    scan .plain ('\\' :: c :: rest) = none := by
  rw [scan, if_neg (by decide), if_pos rfl, scan, hsimple]
  simp only
  rw [if_neg hu, if_neg hU]

theorem control_go (h : control c = true) : GoQuote.control c = true := by
  simp only [control, GoQuote.control, Bool.or_eq_true, Bool.and_eq_true, decide_eq_true_eq] at h ⊢
  exact h.imp_left And.left

theorem code_lt (c : Char) : c.toNat < 16 ^ 8 := by
  have hvalid := c.valid
  have hlt : c.toNat < 0x110000 := by
    rcases hvalid with h | h
    · exact Nat.lt_trans h (by decide)
    · exact h.2
  exact Nat.lt_trans hlt (by decide)

theorem scan_control (c : Char) (rest : List Char) : scan .plain (escapeControl c ++ rest) =
    if safe c then (scan .plain rest).map fun r => (c :: r.1, r.2) else none := by
  by_cases hbell : c = '\x07'
  · subst hbell
    exact scan_bad rfl (by decide) (by decide)
  by_cases hback : c = '\x08'
  · subst hback
    rfl
  by_cases hfeed : c = '\x0c'
  · subst hfeed
    rfl
  by_cases hline : c = '\n'
  · subst hline
    rfl
  by_cases hreturn : c = '\r'
  · subst hreturn
    rfl
  by_cases htab : c = '\t'
  · subst htab
    rfl
  by_cases hvertical : c = '\x0b'
  · subst hvertical
    exact scan_bad rfl (by decide) (by decide)
  rw [escapeControl, if_neg hbell, if_neg hback, if_neg hfeed, if_neg hline, if_neg hreturn, if_neg htab,
    if_neg hvertical]
  by_cases hcontrol : GoQuote.control c = true
  · have hsafe : safe c = false := by simp [safe, hcontrol, hback, htab, hline, hfeed, hreturn]
    rw [if_pos hcontrol, hsafe]
    exact scan_bad rfl (by decide) (by decide)
  · have hsafe : safe c = true := by simp [safe, hcontrol]
    rw [if_neg hcontrol, hsafe, if_pos rfl]
    split
    case isTrue hsmall => exact scan_code (k := 3) hsmall
    case isFalse => exact scan_code (k := 7) (code_lt c)

theorem scan_rune (hprint : ∀ c, GoQuote.control c = true → isPrint c = false) (c : Char) (rest : List Char) :
    scan .plain (appendEscapedRune isPrint c ++ rest) =
      if safe c then (scan .plain rest).map fun r => (c :: r.1, r.2) else none := by
  by_cases hquote : c = '"'
  · subst hquote
    rfl
  by_cases hslash : c = '\\'
  · subst hslash
    rfl
  rw [appendEscapedRune, if_neg (by simp [hquote, hslash])]
  split
  case isTrue hraw =>
    have hplain : GoQuote.control c = false := by
      refine Bool.eq_false_iff.mpr fun hcontrol => ?_
      rw [hprint c hcontrol] at hraw
      cases hraw
    have hcontrol : control c = false := by
      refine Bool.eq_false_iff.mpr fun hcontrol => ?_
      rw [control_go hcontrol] at hplain
      cases hplain
    have hsafe : safe c = true := by simp [safe, hplain]
    rw [hsafe, if_pos rfl]
    exact scan_plain hquote hslash hcontrol
  case isFalse => exact scan_control c rest

theorem scan_quote (hprint : ∀ c, GoQuote.control c = true → isPrint c = false) (s rest : List Char) :
    scan .plain (quoteBody isPrint s ++ '"' :: rest) = if s.all safe then some (s, rest) else none := by
  induction s with
  | nil => rfl
  | cons c s ih =>
    rw [quoteBody, flatMap_cons, append_assoc, scan_rune hprint, all_cons]
    rw [quoteBody] at ih
    rw [ih]
    cases safe c <;> cases s.all safe <;> rfl

theorem scan_raw (h : ∀ c ∈ s, c ≠ '"' ∧ c ≠ '\\' ∧ control c = false) :
    scan .plain (s ++ '"' :: rest) = some (s, rest) := by
  induction s with
  | nil => rfl
  | cons c s ih =>
    obtain ⟨⟨hquote, hslash, hcontrol⟩, hs⟩ := forall_mem_cons.mp h
    rw [cons_append, scan_plain hquote hslash hcontrol, ih hs]
    rfl

end strings

section values

variable {isPrint : Char → Bool} {key line text : List Char}

theorem readValue_quote (hprint : ∀ c, GoQuote.control c = true → isPrint c = false) (s : List Char) :
    readValue (GoQuote.quote isPrint s) = if s.all safe then some (.str s, []) else none := by
  rw [GoQuote.quote, readValue, scan_quote hprint]
  split <;> rfl

theorem readValue_raw {s : List Char} (h : ∀ c ∈ s, c ≠ '"' ∧ c ≠ '\\' ∧ control c = false) :
    readValue ('"' :: (s ++ ['"'])) = some (.str s, []) := by
  rw [readValue, scan_raw h]
  rfl

theorem readValue_one {s : List Char} (h : ∀ c ∈ s, c ≠ '"' ∧ c ≠ '\\' ∧ control c = false) :
    readValue ('[' :: '"' :: (s ++ ['"', ']'])) = some (.strs [s], []) := by
  have hscan : scan .plain (s ++ ['"', ']']) = some (s, [']']) := scan_raw h
  simp only [readValue, length_cons, readStrings]
  rw [dropWhile_cons_of_neg (by decide)]
  simp only [hscan]
  rfl

theorem readNat_digits (n : Nat) : readNat (Nat.toDigits 10 n) = some (n, []) := by
  have hdigits : ∀ c ∈ Nat.toDigits 10 n, c.isDigit = true :=
    fun c hc => Nat.isDigit_of_mem_toDigits (by decide) (by decide) hc
  rw [readNat, takeWhile_eq_self_iff.mpr hdigits, dropWhile_eq_nil_iff.mpr hdigits]
  split
  case h_1 hnil => exact absurd hnil Nat.toDigits_ne_nil
  case h_2 => rw [Nat.ofDigitChars_toDigits (by decide) (by decide)]

theorem readValue_digits (n : Nat) : readValue (Nat.toDigits 10 n) = some (.int n, []) := by
  have hdigits : ∀ c ∈ Nat.toDigits 10 n, c.isDigit = true :=
    fun c hc => Nat.isDigit_of_mem_toDigits (by decide) (by decide) hc
  have hread := readNat_digits n
  cases hlist : Nat.toDigits 10 n with
  | nil => exact absurd hlist Nat.toDigits_ne_nil
  | cons c cs =>
    rw [hlist] at hread hdigits
    have hc : c.isDigit = true := hdigits c mem_cons_self
    have hne {d : Char} {rest : List Char} (hd : d.isDigit = false) : c :: cs ≠ d :: rest := by
      intro h
      obtain ⟨rfl, -⟩ := List.cons.inj h
      rw [hc] at hd
      cases hd
    rw [readValue]
    case cons =>
      rw [hread]
      rfl
    all_goals exact fun rest => hne (by decide)

theorem readPair_text (hkey : key ≠ []) (hbare : ∀ c ∈ key, bareKey c = true) (htext : ∀ c, text.head? = some c → space c = false) :
    readPair (key ++ ' ' :: '=' :: ' ' :: text) = match readValue text with
      | some (v, rest) => if rest.dropWhile space = [] then some (.pair key v) else none
      | none => none := by
  have htake : (key ++ ' ' :: '=' :: ' ' :: text).takeWhile bareKey = key := by
    rw [takeWhile_append_of_pos hbare]
    simp [bareKey]
  have hdrop : ((key ++ ' ' :: '=' :: ' ' :: text).dropWhile bareKey).dropWhile space = '=' :: ' ' :: text := by
    rw [dropWhile_append_of_pos hbare]
    rfl
  have hvalue : (' ' :: text).dropWhile space = text := by
    cases text with
    | nil => rfl
    | cons c text =>
      rw [dropWhile_cons_of_pos rfl, dropWhile_cons_of_neg]
      rw [htext c rfl]
      decide
  rw [readPair, htake, hdrop]
  simp only [hvalue, hkey, ne_eq, not_false_eq_true, true_and]

def keyStart (c : Char) : Bool := bareKey c && !space c && c ≠ '#' && c ≠ '['

theorem readLine_text {c : Char} (hstart : keyStart c = true) (hbare : ∀ d ∈ key, bareKey d = true)
    (htext : ∀ d, text.head? = some d → space d = false) (hline : line = c :: key ++ ' ' :: '=' :: ' ' :: text) :
    readLine line = match readValue text with
      | some (v, rest) => if rest.dropWhile space = [] then some (.pair (c :: key) v) else none
      | none => none := by
  simp only [keyStart, Bool.and_eq_true, Bool.not_eq_true', decide_eq_true_eq] at hstart
  obtain ⟨⟨⟨hc, hspace⟩, hhash⟩, hbracket⟩ := hstart
  have hread := @readPair_text (c :: key) text nofun (forall_mem_cons.mpr ⟨hc, hbare⟩) htext
  subst hline
  rw [readLine, cons_append, dropWhile_cons_of_neg (by rw [hspace]; decide)]
  split
  case h_1 h => cases h
  case h_2 h => exact absurd (List.cons.inj h).1 hhash
  case h_3 h => exact absurd (List.cons.inj h).1 hbracket
  case h_4 => exact hread

theorem readLine_pair {c : Char} {v : Value} (hstart : keyStart c = true) (hbare : ∀ d ∈ key, bareKey d = true)
    (htext : ∀ d, text.head? = some d → space d = false) (hline : line = c :: key ++ ' ' :: '=' :: ' ' :: text)
    (hvalue : readValue text = some (v, [])) : readLine line = some (.pair (c :: key) v) := by
  rw [readLine_text hstart hbare htext hline, hvalue]
  rfl

end values

section blocks

variable {t t' t'' name key : List Char} {ls ls' : List (List Char)} {line : List Char} {r r' : Option (List Entry)}
  {b : Bool} {v : Value}

def Block (t : List Char) (ls : List (List Char)) (t' : List Char) (r : Option (List Entry)) : Prop :=
  ∀ rest, readLines t (ls ++ rest) = r.bind fun es => (readLines t' rest).map (es ++ ·)

def join (r r' : Option (List Entry)) : Option (List Entry) := r.bind fun es => r'.map (es ++ ·)

@[simp] theorem join_some (es es' : List Entry) : join (some es) (some es') = some (es ++ es') := rfl

@[simp] theorem join_none_left (r : Option (List Entry)) : join none r = none := rfl

@[simp] theorem join_none_right (r : Option (List Entry)) : join r none = none := by
  cases r <;> rfl

theorem Block.nil (t : List Char) : Block t [] t (some []) := by
  intro rest
  simp

theorem Block.append (h : Block t ls t' r) (h' : Block t' ls' t'' r') : Block t (ls ++ ls') t'' (join r r') := by
  intro rest
  rw [append_assoc, h, h']
  cases r with
  | none => rfl
  | some es =>
    cases r' with
    | none => rfl
    | some es' => simp [join, Function.comp_def]

theorem Block.blank (t : List Char) : Block t [[]] t (some []) := by
  intro rest
  simp only [singleton_append, readLines]
  rw [show readLine [] = some .blank from rfl]
  simp

theorem Block.table (t : List Char) (h : readLine line = some (.table name)) : Block t [line] name (some []) := by
  intro rest
  simp only [singleton_append, readLines, h]
  simp

theorem Block.pair (t : List Char) (h : readLine line = some (.pair key v)) :
    Block t [line] t (some [⟨t, key, v⟩]) := by
  intro rest
  simp only [singleton_append, readLines, h]
  simp

theorem Block.bad (t : List Char) (h : readLine line = none) : Block t [line] t none := by
  intro rest
  simp only [singleton_append, readLines, h]
  rfl

theorem Block.when (b : Bool) (h : b = true → Block t ls t' r) :
    Block t (if b then ls else []) (if b then t' else t) (if b then r else some []) := by
  cases b with
  | true => exact h rfl
  | false => exact Block.nil t

theorem Block.read (h : Block [] ls t' r) : readLines [] (ls ++ [[]]) = r := by
  rw [h]
  have hlast : readLines t' [[]] = some [] := rfl
  rw [hlast]
  cases r <;> simp

theorem splitLines_line (h : '\n' ∉ line) (rest : List Char) :
    splitLines (line ++ '\n' :: rest) = line :: splitLines rest := by
  induction line with
  | nil => rw [nil_append, splitLines, if_pos rfl]
  | cons c line ih =>
    rw [mem_cons, not_or] at h
    rw [cons_append, splitLines, if_neg (Ne.symm h.1), ih h.2]

theorem splitLines_flatMap (h : ∀ l ∈ ls, '\n' ∉ l) : splitLines (ls.flatMap (· ++ ['\n'])) = ls ++ [[]] := by
  induction ls with
  | nil => rfl
  | cons l ls ih =>
    obtain ⟨hl, hls⟩ := forall_mem_cons.mp h
    rw [flatMap_cons, append_assoc, singleton_append, splitLines_line hl, ih hls]
    rfl

end blocks

end Toml
