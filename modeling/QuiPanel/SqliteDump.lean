import QuiPanel.Library.SqlText

namespace QuiPanel

namespace SqliteDump

open ByteText SqlText List

structure Shortest where
  neg : Bool
  coefficient : Nat
  exponent : Int
  trimmed : (coefficient = 0 → exponent = 0) ∧ (coefficient ≠ 0 → coefficient % 10 ≠ 0)
deriving DecidableEq

-- strconv's shortest digits, SQLite's reading of a decimal, and the text of the time the driver reads in a cell
structure Env (R : Type) where
  shortest : R → Shortest
  nearest : Bool → Nat → Int → R
  intTime : Int64 → Bytes
  textTime : Bytes → Bytes

def Env.RoundTrips {R : Type} (env : Env R) : Prop :=
  ∀ x, env.nearest (env.shortest x).neg (env.shortest x).coefficient (env.shortest x).exponent = x

inductive Decl where
  | plain
  | boolean
  | time
deriving DecidableEq

inductive GoValue (R : Type) where
  | null
  | int64 (n : Int64)
  | float64 (x : R)
  | bool (b : Bool)
  | string (s : Bytes)
  | bytes (b : Bytes)
  | other (shown : Bytes)

def digits (x : Shortest) : Bytes := if x.coefficient = 0 then [] else lit (Nat.repr x.coefficient)

def decimalPoint (x : Shortest) : Int := (digits x).length + x.exponent

def fmtE (neg : Bool) (d : Bytes) (dp : Int) : Bytes :=
  let exp := dp - 1
  signed neg (scientific (d.headD 48) d.tail (decide (exp < 0))
    ((if exp.natAbs < 10 then [48] else []) ++ lit (Nat.repr exp.natAbs)))

def fmtF (neg : Bool) (d : Bytes) (dp : Int) : Bytes :=
  let whole := if 0 < dp then d.take dp.toNat ++ List.replicate (dp.toNat - d.length) 48 else [48]
  let fraction := List.replicate (-dp).toNat 48 ++ d.drop dp.toNat
  signed neg (whole ++ if dp < d.length then 46 :: fraction else [])

def formatFloat (x : Shortest) : Bytes :=
  let exp := decimalPoint x - 1
  if exp < -4 ∨ 6 ≤ exp then fmtE x.neg (digits x) (decimalPoint x) else fmtF x.neg (digits x) (decimalPoint x)

def quoteSQLiteText (s : Bytes) : Bytes := quote 39 s

def hexPair (c : UInt8) : Bytes := [digit (c.toNat / 16), digit (c.toNat % 16)]

def lead (c : UInt8) : Option (Nat × UInt8 × UInt8) :=
  if c < 0xC2 then none
  else if c < 0xE0 then some (1, 0x80, 0xBF)
  else if c = 0xE0 then some (2, 0xA0, 0xBF)
  else if c = 0xED then some (2, 0x80, 0x9F)
  else if c < 0xF0 then some (2, 0x80, 0xBF)
  else if c = 0xF0 then some (3, 0x90, 0xBF)
  else if c < 0xF4 then some (3, 0x80, 0xBF)
  else if c = 0xF4 then some (3, 0x80, 0x8F)
  else none

def validFrom : Nat → UInt8 → UInt8 → Bytes → Bool
  | owed, _, _, [] => owed == 0
  | 0, _, _, c :: s =>
    if c < 0x80 then validFrom 0 0 0 s
    else
      match lead c with
      | none => false
      | some (owed, low, high) => validFrom owed low high s
  | owed + 1, low, high, c :: s => low ≤ c && c ≤ high && validFrom owed 0x80 0xBF s

def valid (s : Bytes) : Bool := validFrom 0 0 0 s

section dumping

variable {R : Type} (env : Env R)

def scan (decl : Decl) : Value R → GoValue R
  | .null => .null
  | .integer n =>
    match decl with
    | .plain => .int64 n
    | .boolean => .bool (decide (0 < n))
    | .time => .other (env.intTime n)
  | .real x => .float64 x
  | .text s =>
    match decl with
    | .time => .other (env.textTime s)
    | .plain | .boolean => .string s
  | .blob b => .bytes b

def sqliteLiteral : GoValue R → Bytes
  | .null => lit "NULL"
  | .int64 n => itoa n.toInt
  | .float64 x => formatFloat (env.shortest x)
  | .bool b => if b then lit "1" else lit "0"
  | .string s => quoteSQLiteText s
  | .bytes b => if valid b then quoteSQLiteText b else lit "X'" ++ b.flatMap hexPair ++ lit "'"
  | .other shown => quoteSQLiteText shown

structure Table (R : Type) where
  name : Bytes
  columns : List Decl
  rows : List (List (Value R))
  plain : Plain name
  columned : columns ≠ []
  shaped : ∀ row ∈ rows, row.length = columns.length

def rowText (t : Table R) (row : List (Value R)) : Bytes :=
  insertText t.name (List.zipWith (fun decl v => sqliteLiteral env (scan env decl v)) t.columns row)

def dumpTableData (t : Table R) : Bytes := t.rows.flatMap (rowText env t)

def dumpTables (ts : List (Table R)) : Bytes := ts.flatMap (dumpTableData env)

def contents (ts : List (Table R)) : List (Insert R) :=
  ts.flatMap fun t => t.rows.map fun row => ⟨t.name, row⟩

end dumping

section numbers

variable {x : Shortest} {s : Bytes}

def Shortest.Integral (x : Shortest) : Prop := 0 ≤ x.exponent ∧ decimalPoint x ≤ 6

instance (x : Shortest) : Decidable x.Integral := inferInstanceAs (Decidable (_ ∧ _))

def wholeText (x : Shortest) : Bytes :=
  if 0 < decimalPoint x then digits x ++ List.replicate ((decimalPoint x).toNat - (digits x).length) 48 else [48]

theorem repr_ne_nil (m : Nat) : lit (Nat.repr m) ≠ [] := by
  intro hnil
  have hvalue := digitsValue_repr m
  have hone : lit (Nat.repr m) = lit (Nat.repr 0) → m = 0 := lit_repr_injective
  rw [hnil] at hvalue
  rw [← hvalue] at hnil
  exact absurd hnil (by decide)

theorem digits_digits (x : Shortest) : Digits (digits x) := by
  rw [digits]
  split
  · intro c hc
    cases hc
  · exact lit_repr_decimal

theorem digits_value (x : Shortest) : digitsValue (digits x) = x.coefficient := by
  rw [digits]
  split
  case isTrue hzero =>
    rw [hzero]
    rfl
  case isFalse => exact digitsValue_repr _

theorem digits_ne_nil (h : x.coefficient ≠ 0) : digits x ≠ [] := by
  rw [digits, if_neg h]
  exact repr_ne_nil _

theorem zeros_digits (k : Nat) (h : Digits s) : Digits (List.replicate k 48 ++ s) := by
  intro c hc
  rcases mem_append.mp hc with hin | hin
  · rw [(mem_replicate.mp hin).2]
    rfl
  · exact h c hin

theorem wholeText_spec (h : x.Integral) :
    Digits (wholeText x) ∧ wholeText x ≠ [] ∧ (wholeText x).length ≤ 6 := by
  have hd := digits_digits x
  have hpoint : decimalPoint x = (digits x).length + x.exponent := rfl
  obtain ⟨hexp, hsix⟩ := h
  rw [wholeText]
  split
  case isTrue hpos =>
    have hlength : (digits x ++ List.replicate ((decimalPoint x).toNat - (digits x).length) 48).length =
        (decimalPoint x).toNat := by
      rw [length_append, length_replicate]
      omega
    refine ⟨?_, ?_, ?_⟩
    · intro c hc
      rcases mem_append.mp hc with hin | hin
      · exact hd c hin
      · rw [(mem_replicate.mp hin).2]
        rfl
    · intro hnil
      rw [hnil, length_nil] at hlength
      omega
    · omega
  case isFalse =>
    refine ⟨?_, by simp, by simp⟩
    intro c hc
    rw [mem_singleton.mp hc]
    rfl

theorem format_integral (h : x.Integral) :
    Reads (formatFloat x) (signedToks x.neg (.integer (wholeText x))) := by
  have hpoint : decimalPoint x = (digits x).length + x.exponent := rfl
  obtain ⟨hdigits, hne, _⟩ := wholeText_spec h
  have htext : formatFloat x = signed x.neg (wholeText x) := by
    obtain ⟨hexp, hsix⟩ := h
    have hsmall : ¬ (decimalPoint x - 1 < -4 ∨ 6 ≤ decimalPoint x - 1) := by omega
    have hfraction : ¬ decimalPoint x < (digits x).length := by omega
    have hall : (digits x).take (decimalPoint x).toNat = digits x := take_of_length_le (by omega)
    rw [formatFloat, if_neg hsmall, fmtF, if_neg hfraction, append_nil, hall, wholeText]
  rw [htext]
  obtain ⟨c, t, hwhole⟩ := exists_cons_of_ne_nil hne
  rw [hwhole] at hdigits ⊢
  exact integer_reads hdigits x.neg

theorem format_real (h : ¬ x.Integral) : ∃ ds, digitsValue ds = x.coefficient ∧
    Reads (formatFloat x) (signedToks x.neg (.real ds x.exponent)) := by
  have hpoint : decimalPoint x = (digits x).length + x.exponent := rfl
  have hd := digits_digits x
  have hvalue := digits_value x
  have hcoefficient : x.coefficient ≠ 0 := by
    intro hzero
    refine h ⟨(x.trimmed.1 hzero).ge, ?_⟩
    rw [hpoint, x.trimmed.1 hzero, digits, if_pos hzero]
    decide
  obtain ⟨c, t, hcons⟩ := exists_cons_of_ne_nil (digits_ne_nil hcoefficient)
  rw [formatFloat]
  by_cases hexp : decimalPoint x - 1 < -4 ∨ 6 ≤ decimalPoint x - 1
  · rw [if_pos hexp, fmtE, hcons, headD_cons, tail_cons]
    rw [hcons] at hd hvalue
    refine ⟨c :: t, hvalue, ?_⟩
    have hpower : Digits ((if (decimalPoint x - 1).natAbs < 10 then [48] else []) ++
        lit (Nat.repr (decimalPoint x - 1).natAbs)) := by
      intro y hy
      rcases mem_append.mp hy with hin | hin
      · split at hin
        · rw [mem_singleton.mp hin]
          rfl
        · cases hin
      · exact lit_repr_decimal y hin
    have hread := scientific_reads (decide (decimalPoint x - 1 < 0)) (hd c mem_cons_self) hd.tail
      (append_ne_nil_of_right_ne_nil _ (repr_ne_nil _)) hpower x.neg
    have hpowerValue : digitsValue ((if (decimalPoint x - 1).natAbs < 10 then [48] else []) ++
        lit (Nat.repr (decimalPoint x - 1).natAbs)) = (decimalPoint x - 1).natAbs := by
      split
      · exact (digitsValue_zeros 1 _).trans (digitsValue_repr _)
      · exact digitsValue_repr _
    have hexponent : (if decide (decimalPoint x - 1 < 0) = true then -((decimalPoint x - 1).natAbs : Int)
        else (decimalPoint x - 1).natAbs) - t.length = x.exponent := by
      rw [hcons, length_cons] at hpoint
      split
      case isTrue hneg =>
        have := of_decide_eq_true hneg
        omega
      case isFalse hneg =>
        have : ¬ decimalPoint x - 1 < 0 := fun hlt => hneg (decide_eq_true hlt)
        omega
    rw [hpowerValue, hexponent] at hread
    exact hread
  · have hnegative : x.exponent < 0 := by
      by_contra hnonneg
      exact h ⟨by omega, by omega⟩
    have hfraction : decimalPoint x < (digits x).length := by omega
    rw [if_neg hexp, fmtF, if_pos hfraction]
    by_cases hpos : 0 < decimalPoint x
    · have hnopad : (decimalPoint x).toNat - (digits x).length = 0 := by omega
      have hnolead : (-decimalPoint x).toNat = 0 := by omega
      rw [if_pos hpos, hnopad, hnolead, replicate_zero, append_nil, nil_append]
      have hwhole : (digits x).take (decimalPoint x).toNat = c :: t.take ((decimalPoint x).toNat - 1) := by
        obtain ⟨k, hk⟩ : ∃ k, (decimalPoint x).toNat = k + 1 := ⟨(decimalPoint x).toNat - 1, by omega⟩
        rw [hcons, hk, take_succ_cons, Nat.add_sub_cancel]
      have hread := fraction_reads (c := c) (a := t.take ((decimalPoint x).toNat - 1))
        (b := (digits x).drop (decimalPoint x).toNat) (fun y hy => hd y (mem_of_mem_take (hwhole ▸ hy)))
        (fun y hy => hd y (mem_of_mem_drop hy)) x.neg
      have hscale : -(((digits x).drop (decimalPoint x).toNat).length : Int) = x.exponent := by
        rw [length_drop]
        omega
      rw [← hwhole, take_append_drop, hscale] at hread
      exact ⟨digits x, hvalue, hread⟩
    · have hnone : (decimalPoint x).toNat = 0 := by omega
      rw [if_neg hpos, hnone, drop_zero]
      have hread := fraction_reads (c := 48) (a := []) (b := List.replicate (-decimalPoint x).toNat 48 ++ digits x)
        (by intro y hy; rw [mem_singleton.mp hy]; rfl) (zeros_digits _ hd) x.neg
      have hscale : -((List.replicate (-decimalPoint x).toNat 48 ++ digits x).length : Int) = x.exponent := by
        rw [length_append, length_replicate]
        omega
      rw [hscale] at hread
      exact ⟨_, (digitsValue_zeros 1 _).trans ((digitsValue_zeros _ _).trans hvalue), hread⟩

end numbers

section literals

variable {R : Type} (env : Env R) {s b : Bytes}

def nibbles (b : Bytes) : List Nat := b.flatMap fun c => [c.toNat / 16, c.toNat % 16]

def meaning : GoValue R → Value R
  | .null => .null
  | .int64 n => .integer n
  | .float64 x =>
    if (env.shortest x).Integral then number env.nearest (env.shortest x).neg (wholeText (env.shortest x))
    else .real x
  | .bool b => .integer (if b then 1 else 0)
  | .string s => .text s
  | .bytes b => if valid b then .text b else .blob b
  | .other shown => .text shown

def Broken : GoValue R → Prop
  | .string s => 0 ∈ s
  | .bytes b => valid b = true ∧ 0 ∈ b
  | .other shown => 0 ∈ shown
  | .null | .int64 _ | .float64 _ | .bool _ => False

def ReadsAs (g : GoValue R) : Prop :=
  ∃ ts, Reads (sqliteLiteral env g) ts ∧ literal env.nearest ts = some (meaning env g)

theorem nibble_table :
    (List.range 16).all (fun d => hexDigit (digit d) == some d && digit d != 39 && digit d != 0) = true := by
  decide +kernel

theorem nibble_spec {d : Nat} (h : d < 16) : hexDigit (digit d) = some d ∧ digit d ≠ 39 ∧ digit d ≠ 0 := by
  have hd := all_eq_true.mp nibble_table d (mem_range.mpr h)
  simpa [and_assoc] using hd

theorem run_hex (acc : List Nat) (b : Bytes) :
    run (.hex acc) (b.flatMap hexPair) = some ([], .hex (acc ++ nibbles b)) := by
  induction b generalizing acc with
  | nil =>
    rw [nibbles, flatMap_nil, flatMap_nil, append_nil]
    rfl
  | cons c b ih =>
    obtain ⟨hhigh, hhighQuote, _⟩ := nibble_spec (d := c.toNat / 16) (by have := c.toNat_lt; omega)
    obtain ⟨hlow, hlowQuote, _⟩ := nibble_spec (d := c.toNat % 16) (by omega)
    have hpair : run (.hex acc) (hexPair c) = some ([], .hex (acc ++ [c.toNat / 16, c.toNat % 16])) := by
      rw [hexPair, run, step, if_neg hhighQuote, hhigh, Option.map_some, Option.bind_some, run, step,
        if_neg hlowQuote, hlow, Option.map_some, Option.bind_some, run]
      simp
    have hrest := ih (acc ++ [c.toNat / 16, c.toNat % 16])
    rw [flatMap_cons, run_then hpair, hrest, nibbles, nibbles, flatMap_cons, append_assoc]
    rfl

theorem octets_nibbles (b : Bytes) : octets (nibbles b) = b := by
  induction b with
  | nil => rfl
  | cons c b ih =>
    have hbyte : (16 * (c.toNat / 16) + c.toNat % 16).toUInt8 = c := by
      rw [Nat.div_add_mod]
      exact UInt8.ofNat_toNat
    change (16 * (c.toNat / 16) + c.toNat % 16).toUInt8 :: octets (nibbles b) = c :: b
    rw [hbyte, ih]

theorem nibbles_even (b : Bytes) : (nibbles b).length % 2 = 0 := by
  rw [nibbles, length_flatMap]
  simp only [length_cons, length_nil]
  induction b with
  | nil => rfl
  | cons c b ih =>
    rw [map_cons, sum_cons]
    omega

theorem blob_reads (b : Bytes) : Reads (lit "X'" ++ b.flatMap hexPair ++ lit "'") [.blob b] := by
  have hopen : run .blank (lit "X'") = some ([], .hex []) := by decide
  have hbody : run .blank (lit "X'" ++ b.flatMap hexPair) = some ([], .hex (nibbles b)) := by
    rw [run_then hopen, run_hex]
    rfl
  have hclose : step (.hex (nibbles b)) 39 = some ([.blob b], .blank) := by
    rw [step, if_pos rfl, if_pos (nibbles_even b), octets_nibbles]
  have hall : run .blank (lit "X'" ++ b.flatMap hexPair ++ lit "'") = some ([.blob b], .blank) := by
    have hsnoc := run_snoc hbody 39
    rwa [hclose] at hsnoc
  refine ⟨?_, ?_, ?_, by simp, by simp⟩
  · intro hzero
    rw [mem_append, mem_append] at hzero
    rcases hzero with (hzero | hzero) | hzero
    · exact absurd hzero (by decide)
    · obtain ⟨c, _, hin⟩ := mem_flatMap.mp hzero
      rw [hexPair, mem_cons, mem_singleton] at hin
      rcases hin with hin | hin
      · exact (nibble_spec (by have := c.toNat_lt; omega)).2.2 hin.symm
      · exact (nibble_spec (by omega)).2.2 hin.symm
    · exact absurd hzero (by decide)
  · rw [run_snoc hall]
    rfl
  · rw [run_snoc hall]
    rfl

theorem null_reads : Reads (lit "NULL") [.word (lit "NULL")] := by
  have hrun : run .blank (lit "NULL") = some ([], .word (lit "NULL")) := by decide
  refine reads_of_run [] (by decide) hrun ?_ ⟨by simp, by simp⟩
  rintro c (rfl | rfl)
  · rfl
  · rfl

theorem literal_integer (neg : Bool) (ds : Bytes) :
    literal env.nearest (signedToks neg (.integer ds)) = some (number env.nearest neg ds) := by
  cases neg with
  | true => rfl
  | false => rfl

theorem literal_real (neg : Bool) (ds : Bytes) (e : Int) :
    literal env.nearest (signedToks neg (.real ds e)) = some (.real (env.nearest neg (digitsValue ds) e)) := by
  cases neg with
  | true => rfl
  | false => rfl

theorem int_readsAs (n : Int64) : ReadsAs env (.int64 n) := by
  have hlow := n.le_toInt
  have hhigh := n.toInt_lt
  have hback := n.ofInt_toInt
  have hread : ∀ (neg : Bool) (m : Nat), Reads (signed neg (lit (Nat.repr m)))
      (signedToks neg (.integer (lit (Nat.repr m)))) := by
    intro neg m
    have hdigits : Digits (lit (Nat.repr m)) := lit_repr_decimal
    obtain ⟨c, t, hcons⟩ := exists_cons_of_ne_nil (repr_ne_nil m)
    rw [hcons] at hdigits ⊢
    exact integer_reads hdigits neg
  change ∃ ts, Reads (itoa n.toInt) ts ∧ literal env.nearest ts = some (.integer n)
  cases hn : n.toInt with
  | ofNat m =>
    refine ⟨_, hread false m, ?_⟩
    rw [hn] at hhigh hback
    have hm : m < 2 ^ 63 := by
      change (m : Int) < 2 ^ 63 at hhigh
      omega
    rw [literal_integer, number, digitsValue_repr, if_neg Bool.false_ne_true, if_pos hm]
    exact congrArg (fun k => some (Value.integer k)) hback
  | negSucc m =>
    rw [hn] at hlow hback
    rw [itoa_negSucc]
    refine ⟨_, hread true (m + 1), ?_⟩
    have hm : m + 1 ≤ 2 ^ 63 := by omega
    rw [literal_integer, number, digitsValue_repr, if_pos rfl, if_pos hm]
    exact congrArg (fun k => some (Value.integer k)) hback

theorem bool_readsAs (b : Bool) : ReadsAs env (.bool b) := by
  have hdigit : ∀ c, decimal c = true → Digits [c] := by
    intro c hc x hx
    rwa [mem_singleton.mp hx]
  have hone : Reads (lit "1") [.integer (lit "1")] := integer_reads (hdigit 49 rfl) false
  have hzero : Reads (lit "0") [.integer (lit "0")] := integer_reads (hdigit 48 rfl) false
  cases b with
  | true => exact ⟨_, hone, rfl⟩
  | false => exact ⟨_, hzero, rfl⟩

theorem text_reads (h : 0 ∉ s) : ∃ ts, Reads (quoteSQLiteText s) ts ∧ literal env.nearest ts = some (.text s) :=
  ⟨_, quote_reads h, rfl⟩

theorem float_readsAs (hround : env.RoundTrips) (x : R) : ReadsAs env (.float64 x) := by
  unfold ReadsAs sqliteLiteral meaning
  dsimp only
  by_cases h : (env.shortest x).Integral
  · rw [if_pos h]
    exact ⟨_, format_integral h, literal_integer env _ _⟩
  · obtain ⟨ds, hvalue, hread⟩ := format_real h
    rw [if_neg h]
    refine ⟨_, hread, ?_⟩
    rw [literal_real, hvalue, hround x]

theorem literal_cases (hround : env.RoundTrips) (g : GoValue R) :
    (¬ Broken g ∧ ReadsAs env g) ∨ (Broken g ∧ Breaks (sqliteLiteral env g)) := by
  cases g with
  | null => exact .inl ⟨id, _, null_reads, rfl⟩
  | int64 n => exact .inl ⟨id, int_readsAs env n⟩
  | float64 x => exact .inl ⟨id, float_readsAs env hround x⟩
  | bool b => exact .inl ⟨id, bool_readsAs env b⟩
  | string s =>
    by_cases h : 0 ∈ s
    · exact .inr ⟨h, quote_breaks h⟩
    · exact .inl ⟨h, text_reads env h⟩
  | other shown =>
    by_cases h : 0 ∈ shown
    · exact .inr ⟨h, quote_breaks h⟩
    · exact .inl ⟨h, text_reads env h⟩
  | bytes b =>
    unfold Broken ReadsAs sqliteLiteral meaning
    dsimp only
    by_cases hvalid : valid b = true
    · rw [if_pos hvalid, if_pos hvalid]
      by_cases h : 0 ∈ b
      · exact .inr ⟨⟨hvalid, h⟩, quote_breaks h⟩
      · exact .inl ⟨fun hb => h hb.2, text_reads env h⟩
    · rw [if_neg hvalid, if_neg hvalid]
      exact .inl ⟨fun hb => hvalid hb.1, _, blob_reads b, rfl⟩

end literals

section cells

variable {R : Type} {env : Env R} {decl : Decl} {v : Value R}

def Kept (env : Env R) (decl : Decl) : Value R → Prop
  | .null => True
  | .integer n =>
    match decl with
    | .plain => True
    | .boolean => n = 0 ∨ n = 1
    | .time => False
  | .real x => ¬ (env.shortest x).Integral
  | .text s => 0 ∉ s ∧ (decl = .time → env.textTime s = s)
  | .blob b => valid b = false

theorem whole_integer (x : R) (h : (env.shortest x).Integral) (y : R) :
    number env.nearest (env.shortest x).neg (wholeText (env.shortest x)) ≠ .real y := by
  obtain ⟨hdigits, _, hlength⟩ := wholeText_spec h
  have hvalue : digitsValue (wholeText (env.shortest x)) < 2 ^ 63 := by
    have hlt := digitsValue_lt hdigits
    have hpow : 10 ^ (wholeText (env.shortest x)).length ≤ 10 ^ 6 := Nat.pow_le_pow_right (by decide) hlength
    omega
  intro heq
  rw [number] at heq
  cases hneg : (env.shortest x).neg with
  | true =>
    rw [hneg, if_pos rfl, if_pos (Nat.le_of_lt hvalue)] at heq
    cases heq
  | false =>
    rw [hneg, if_neg Bool.false_ne_true, if_pos hvalue] at heq
    cases heq

theorem kept_iff : Kept env decl v ↔ ¬ Broken (scan env decl v) ∧ meaning env (scan env decl v) = v := by
  cases v with
  | null => exact ⟨fun _ => ⟨id, rfl⟩, fun _ => trivial⟩
  | integer n =>
    cases decl with
    | plain => exact ⟨fun _ => ⟨id, rfl⟩, fun _ => trivial⟩
    | time => exact ⟨fun h => h.elim, fun h => by cases h.2⟩
    | boolean =>
      have hbool : Value.integer (if decide (0 < n) = true then 1 else 0) = (Value.integer n : Value R) ↔
          n = 0 ∨ n = 1 := by
        rw [Value.integer.injEq]
        constructor
        · intro heq
          split at heq
          · exact .inr heq.symm
          · exact .inl heq.symm
        · rintro (rfl | rfl)
          · rfl
          · rfl
      exact ⟨fun h => ⟨id, hbool.mpr h⟩, fun h => hbool.mp h.2⟩
  | real x =>
    have hreal : ¬ (env.shortest x).Integral ↔ meaning env (.float64 x) = .real x := by
      unfold meaning
      dsimp only
      split
      case isTrue h => exact ⟨fun hn => absurd h hn, fun heq => absurd heq (whole_integer x h x)⟩
      case isFalse h => exact ⟨fun _ => rfl, fun _ => h⟩
    exact ⟨fun h => ⟨id, hreal.mp h⟩, fun h => hreal.mpr h.2⟩
  | text s =>
    have hother : ∀ decl, decl ≠ .time →
        (Kept env decl (.text s) ↔ ¬ 0 ∈ s ∧ Value.text s = (Value.text s : Value R)) :=
      fun decl hdecl => ⟨fun h => ⟨h.1, rfl⟩, fun h => ⟨h.1, fun htime => absurd htime hdecl⟩⟩
    cases decl with
    | plain => exact hother .plain (by decide)
    | boolean => exact hother .boolean (by decide)
    | time =>
      have htime : 0 ∉ s ∧ env.textTime s = s ↔
          ¬ 0 ∈ env.textTime s ∧ Value.text (env.textTime s) = (Value.text s : Value R) := by
        rw [Value.text.injEq]
        constructor
        · rintro ⟨hclean, heq⟩
          exact ⟨heq.symm ▸ hclean, heq⟩
        · rintro ⟨hclean, heq⟩
          exact ⟨heq ▸ hclean, heq⟩
      exact ⟨fun h => htime.mp ⟨h.1, h.2 rfl⟩, fun h => ⟨(htime.mpr h).1, fun _ => (htime.mpr h).2⟩⟩
  | blob b =>
    have hblob : valid b = false ↔ ¬ (valid b = true ∧ 0 ∈ b) ∧ meaning env (.bytes b) = .blob b := by
      unfold meaning
      dsimp only
      split
      case isTrue h => exact ⟨fun hf => (nomatch h.symm.trans hf), fun heq => (nomatch heq.2)⟩
      case isFalse h =>
        exact ⟨fun hf => ⟨fun hb => h hb.1, rfl⟩, fun _ => Bool.eq_false_iff.mpr h⟩
    exact hblob

end cells

section tables

variable {R : Type} {env : Env R} {ts : List (Table R)}

def rowsOf (ts : List (Table R)) : List (Table R × List (Value R)) :=
  ts.flatMap fun t => t.rows.map fun row => (t, row)

def meaningRow (env : Env R) (columns : List Decl) (row : List (Value R)) : List (Value R) :=
  (columns.zip row).map fun cell => meaning env (scan env cell.1 cell.2)

variable {row : List (Value R)}

theorem rowsOf_spec {t : Table R} (h : (t, row) ∈ rowsOf ts) : t ∈ ts ∧ row ∈ t.rows := by
  obtain ⟨t', ht, hrow⟩ := mem_flatMap.mp h
  obtain ⟨row', hrow', heq⟩ := mem_map.mp hrow
  cases heq
  exact ⟨ht, hrow'⟩

theorem mem_rowsOf {t : Table R} (ht : t ∈ ts) (hrow : row ∈ t.rows) : (t, row) ∈ rowsOf ts :=
  mem_flatMap.mpr ⟨t, ht, mem_map.mpr ⟨row, hrow, rfl⟩⟩

theorem dumpTables_rows (ts : List (Table R)) :
    dumpTables env ts = (rowsOf ts).flatMap fun p => rowText env p.1 p.2 := by
  rw [dumpTables, rowsOf, flatMap_assoc]
  refine flatMap_congr fun t _ => ?_
  rw [dumpTableData, flatMap_map]

theorem contents_rows (ts : List (Table R)) : contents ts = (rowsOf ts).map fun p => ⟨p.1.name, p.2⟩ := by
  rw [contents, rowsOf, map_flatMap]
  refine flatMap_congr fun t _ => ?_
  rw [map_map]
  rfl

theorem meaningRow_eq {columns : List Decl} (h : row.length = columns.length) :
    meaningRow env columns row = row ↔ ∀ cell ∈ columns.zip row, meaning env (scan env cell.1 cell.2) = cell.2 := by
  have hrow : row = (columns.zip row).map Prod.snd := (map_snd_zip (by omega)).symm
  calc meaningRow env columns row = row
    _ ↔ meaningRow env columns row = (columns.zip row).map Prod.snd := by rw [← hrow]
    _ ↔ ∀ cell ∈ columns.zip row, meaning env (scan env cell.1 cell.2) = cell.2 := map_inj_left

theorem dump_read (hround : env.RoundTrips) (ts : List (Table R)) :
    ((∀ p ∈ rowsOf ts, ∀ cell ∈ p.1.columns.zip p.2, ¬ Broken (scan env cell.1 cell.2)) ∧
      inserts env.nearest (dumpTables env ts) =
        some ((rowsOf ts).map fun p => ⟨p.1.name, meaningRow env p.1.columns p.2⟩)) ∨
    ((∃ p ∈ rowsOf ts, ∃ cell ∈ p.1.columns.zip p.2, Broken (scan env cell.1 cell.2)) ∧
      inserts env.nearest (dumpTables env ts) = none) := by
  have hcell : ∀ g : GoValue R, ∃ cell : Cell R, cell.text = sqliteLiteral env g ∧ cell.value = meaning env g ∧
      ((¬ Broken g ∧ cell.Good env.nearest) ∨ (Broken g ∧ Breaks cell.text)) := by
    intro g
    rcases literal_cases env hround g with ⟨hbroken, toks, hread, hvalue⟩ | ⟨hbroken, hbreak⟩
    · exact ⟨⟨_, toks, _⟩, rfl, rfl, .inl ⟨hbroken, hread, hvalue⟩⟩
    · exact ⟨⟨_, [], _⟩, rfl, rfl, .inr ⟨hbroken, hbreak⟩⟩
  choose cellOf htext hvalue hcases using hcell
  let entryOf : Table R × List (Value R) → Bytes × List (Cell R) := fun p =>
    (p.1.name, (p.1.columns.zip p.2).map fun cell => cellOf (scan env cell.1 cell.2))
  have hentry : ∀ p, Entry.text (entryOf p) = rowText env p.1 p.2 := by
    intro p
    have hcells : ((entryOf p).2.map Cell.text) =
        List.zipWith (fun decl v => sqliteLiteral env (scan env decl v)) p.1.columns p.2 := by
      rw [← map_uncurry_zip_eq_zipWith, map_map]
      exact map_congr_left fun cell _ => htext _
    rw [Entry.text, rowText, hcells]
  have hinsert : ∀ p, Entry.value (entryOf p) = ⟨p.1.name, meaningRow env p.1.columns p.2⟩ := by
    intro p
    have hcells : ((entryOf p).2.map Cell.value) = meaningRow env p.1.columns p.2 := by
      rw [meaningRow, map_map]
      exact map_congr_left fun cell _ => hvalue _
    rw [Entry.value, hcells]
  have hdump : dumpTables env ts = ((rowsOf ts).map entryOf).flatMap Entry.text := by
    rw [dumpTables_rows, flatMap_map]
    exact flatMap_congr fun p _ => (hentry p).symm
  have hshape : ∀ entry ∈ (rowsOf ts).map entryOf, Entry.Shaped entry := by
    intro entry hin
    obtain ⟨⟨t, row⟩, hp, rfl⟩ := mem_map.mp hin
    have hlength : row.length = t.columns.length := t.shaped row (rowsOf_spec hp).2
    have hcolumns := length_pos_iff.mpr t.columned
    refine ⟨t.plain, ?_⟩
    rw [← length_pos_iff, length_map, length_zip, hlength, Nat.min_self]
    exact hcolumns
  by_cases hbroken : ∃ p ∈ rowsOf ts, ∃ cell ∈ p.1.columns.zip p.2, Broken (scan env cell.1 cell.2)
  · refine .inr ⟨hbroken, ?_⟩
    rw [hdump]
    refine inserts_broken hshape ?_ ?_
    · intro entry hin cell hcell
      obtain ⟨p, _, rfl⟩ := mem_map.mp hin
      obtain ⟨c, _, rfl⟩ := mem_map.mp hcell
      exact (hcases (scan env c.1 c.2)).imp And.right And.right
    · obtain ⟨p, hp, c, hc, hb⟩ := hbroken
      exact ⟨entryOf p, mem_map_of_mem hp, cellOf (scan env c.1 c.2), mem_map_of_mem hc,
        ((hcases _).resolve_left fun hgood => hgood.1 hb).2⟩
  · have hclean : ∀ p ∈ rowsOf ts, ∀ cell ∈ p.1.columns.zip p.2, ¬ Broken (scan env cell.1 cell.2) :=
      fun p hp cell hcell hb => hbroken ⟨p, hp, cell, hcell, hb⟩
    refine .inl ⟨hclean, ?_⟩
    have hgood : ∀ entry ∈ (rowsOf ts).map entryOf, ∀ cell ∈ entry.2, cell.Good env.nearest := by
      intro entry hin cell hcell
      obtain ⟨p, hp, rfl⟩ := mem_map.mp hin
      obtain ⟨c, hc, rfl⟩ := mem_map.mp hcell
      exact ((hcases _).resolve_right fun hb => hclean p hp c hc hb.1).2
    rw [hdump, inserts_entries hshape hgood, map_map]
    exact congrArg some (map_congr_left fun p _ => hinsert p)

theorem dump_faithful_iff (hround : env.RoundTrips) (ts : List (Table R)) :
    inserts env.nearest (dumpTables env ts) = some (contents ts) ↔
      ∀ t ∈ ts, ∀ row ∈ t.rows, ∀ cell ∈ t.columns.zip row, Kept env cell.1 cell.2 := by
  have hrows : (rowsOf ts).map (fun p => (⟨p.1.name, meaningRow env p.1.columns p.2⟩ : Insert R)) = contents ts ↔
      ∀ t ∈ ts, ∀ row ∈ t.rows, ∀ cell ∈ t.columns.zip row, meaning env (scan env cell.1 cell.2) = cell.2 := by
    rw [contents_rows, map_inj_left]
    constructor
    · intro h t ht row hrow
      exact (meaningRow_eq (t.shaped row hrow)).mp (Insert.mk.inj (h (t, row) (mem_rowsOf ht hrow))).2
    · rintro h ⟨t, row⟩ hp
      obtain ⟨ht, hrow⟩ := rowsOf_spec hp
      rw [(meaningRow_eq (t.shaped row hrow)).mpr (h t ht row hrow)]
  rcases dump_read hround ts with ⟨hclean, hread⟩ | ⟨⟨⟨t, row⟩, hp, cell, hcell, hbroken⟩, hread⟩
  · rw [hread, Option.some.injEq, hrows]
    constructor
    · intro h t ht row hrow cell hcell
      exact kept_iff.mpr ⟨hclean (t, row) (mem_rowsOf ht hrow) cell hcell, h t ht row hrow cell hcell⟩
    · intro h t ht row hrow cell hcell
      exact (kept_iff.mp (h t ht row hrow cell hcell)).2
  · rw [hread]
    refine ⟨fun heq => (nomatch heq), fun h => ?_⟩
    obtain ⟨ht, hrow⟩ := rowsOf_spec hp
    exact absurd hbroken (kept_iff.mp (h t ht row hrow cell hcell)).1

def decimals : Env Shortest where
  shortest := id
  nearest := fun neg c e =>
    if h : (c = 0 → e = 0) ∧ (c ≠ 0 → c % 10 ≠ 0) then ⟨neg, c, e, h⟩
    else ⟨neg, 0, 0, fun _ => rfl, fun h => absurd rfl h⟩
  intTime := fun _ => lit "1970-01-01 00:00:00 +0000 UTC"
  textTime := fun _ => lit "0001-01-01 00:00:00 +0000 UTC"

theorem decimals_round : decimals.RoundTrips := fun x => dif_pos x.trimmed

def oneRow (row : List (Value Shortest)) (h : row ≠ []) : Table Shortest where
  name := lit "t"
  columns := row.map fun _ => .plain
  rows := [row]
  plain := ⟨by decide, by decide⟩
  columned := by simpa using h
  shaped := by simp

def keptRow : List (Value Shortest) :=
  [.null, .integer (-7), .real ⟨true, 5, -1, by decide⟩, .text (lit "it's\n;"), .blob [255]]

theorem dump_faithful_kept : decimals.RoundTrips ∧
    inserts decimals.nearest (dumpTables decimals [oneRow keptRow (by decide)]) = some [⟨lit "t", keptRow⟩] := by
  refine ⟨decimals_round, (dump_faithful_iff decimals_round [oneRow keptRow (by decide)]).mpr ?_⟩
  intro t ht row hrow
  rw [mem_singleton] at ht
  subst ht
  rw [mem_singleton.mp hrow]
  simp only [oneRow, keptRow, map_cons, map_nil, zip_cons_cons, zip_nil_right,
    forall_mem_cons]
  refine ⟨trivial, trivial, ?_, ⟨by decide, by simp⟩, ?_, by simp⟩
  · exact fun h => absurd h.1 (by decide)
  · show valid [255] = false
    decide

theorem dump_changes_classes : ¬ ∀ ts : List (Table Shortest),
    inserts decimals.nearest (dumpTables decimals ts) = some (contents ts) := by
  intro hclaim
  have hrow := hclaim [oneRow [.real ⟨false, 5, 0, by decide⟩, .blob (lit "ab")] (by decide)]
  have hread : inserts decimals.nearest
      (dumpTables decimals [oneRow [.real ⟨false, 5, 0, by decide⟩, .blob (lit "ab")] (by decide)]) =
        some [⟨lit "t", [.integer 5, .text (lit "ab")]⟩] := by decide +kernel
  rw [hread] at hrow
  exact absurd hrow (by decide)

end tables

end SqliteDump

end QuiPanel
