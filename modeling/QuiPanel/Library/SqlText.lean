import QuiPanel.Library.ByteText

namespace SqlText

open ByteText List

inductive Token where
  | word (s : Bytes)
  | name (s : Bytes)
  | text (s : Bytes)
  | blob (b : Bytes)
  | integer (ds : Bytes)
  | real (ds : Bytes) (e : Int)
  | minus
  | left
  | right
  | comma
  | semi
deriving DecidableEq

inductive Mode where
  | blank
  | word (acc : Bytes)
  | quoted (q : UInt8) (acc : Bytes)
  | closing (q : UInt8) (acc : Bytes)
  | hex (acc : List Nat)
  | dash
  | int (ds : Bytes)
  | frac (ds : Bytes) (n : Nat)
  | mark (ds : Bytes) (n : Nat)
  | sign (ds : Bytes) (n : Nat) (neg : Bool)
  | exp (ds : Bytes) (n : Nat) (neg : Bool) (es : Bytes)
deriving DecidableEq

def space (c : UInt8) : Bool := c == 32 || c == 9 || c == 10 || c == 12 || c == 13

def idChar (c : UInt8) : Bool := lowerLetter c || upperLetter c || decimal c || c == 95 || c == 36 || 128 ≤ c

def start (c : UInt8) : Option (List Token × Mode) :=
  if space c then some ([], .blank)
  else if c = 40 then some ([.left], .blank)
  else if c = 41 then some ([.right], .blank)
  else if c = 44 then some ([.comma], .blank)
  else if c = 59 then some ([.semi], .blank)
  else if c = 45 then some ([], .dash)
  else if c = 39 ∨ c = 34 then some ([], .quoted c [])
  else if decimal c then some ([], .int [c])
  else if idChar c then some ([], .word [c])
  else none

def after (t : Token) (c : UInt8) : Option (List Token × Mode) := (start c).map fun r => (t :: r.1, r.2)

def quotedToken (q : UInt8) (acc : Bytes) : Token := if q = 39 then .text acc else .name acc

def octets : List Nat → Bytes
  | a :: b :: ds => (16 * a + b).toUInt8 :: octets ds
  | _ => []

def realToken (ds : Bytes) (n : Nat) (neg : Bool) (es : Bytes) : Token :=
  .real ds ((if neg then -(digitsValue es : Int) else digitsValue es) - n)

def step : Mode → UInt8 → Option (List Token × Mode)
  | .blank, c => start c
  | .word acc, c =>
    if idChar c then some ([], .word (acc ++ [c]))
    else if c = 39 ∧ (acc = [120] ∨ acc = [88]) then some ([], .hex [])
    else after (.word acc) c
  | .quoted q acc, c => if c = q then some ([], .closing q acc) else some ([], .quoted q (acc ++ [c]))
  | .closing q acc, c => if c = q then some ([], .quoted q (acc ++ [q])) else after (quotedToken q acc) c
  | .hex acc, c =>
    if c = 39 then if acc.length % 2 = 0 then some ([.blob (octets acc)], .blank) else none
    else (hexDigit c).map fun d => ([], .hex (acc ++ [d]))
  | .dash, c => if c = 45 ∨ c = 62 then none else after .minus c
  | .int ds, c =>
    if decimal c then some ([], .int (ds ++ [c]))
    else if c = 46 then some ([], .frac ds 0)
    else if c = 69 ∨ c = 101 then some ([], .mark ds 0)
    else if idChar c then none
    else after (.integer ds) c
  | .frac ds n, c =>
    if decimal c then some ([], .frac (ds ++ [c]) (n + 1))
    else if c = 69 ∨ c = 101 then some ([], .mark ds n)
    else if idChar c then none
    else after (realToken ds n false []) c
  | .mark ds n, c =>
    if decimal c then some ([], .exp ds n false [c])
    else if c = 43 then some ([], .sign ds n false)
    else if c = 45 then some ([], .sign ds n true)
    else none
  | .sign ds n neg, c => if decimal c then some ([], .exp ds n neg [c]) else none
  | .exp ds n neg es, c =>
    if decimal c then some ([], .exp ds n neg (es ++ [c]))
    else if idChar c then none
    else after (realToken ds n neg es) c

def finish : Mode → Option (List Token)
  | .blank => some []
  | .word acc => some [.word acc]
  | .closing q acc => some [quotedToken q acc]
  | .dash => some [.minus]
  | .int ds => some [.integer ds]
  | .frac ds n => some [realToken ds n false []]
  | .exp ds n neg es => some [realToken ds n neg es]
  | .quoted _ _ | .hex _ | .mark _ _ | .sign _ _ _ => none

def run : Mode → Bytes → Option (List Token × Mode)
  | m, [] => some ([], m)
  | m, c :: s => (step m c).bind fun r => (run r.2 s).map fun r' => (r.1 ++ r'.1, r'.2)

def visiblePart (s : Bytes) : Bytes := s.takeWhile (· ≠ 0)

def scanFrom (m : Mode) (s : Bytes) : Option (List Token) :=
  (run m (visiblePart s)).bind fun r => (finish r.2).map fun ts => r.1 ++ ts

def tokens (s : Bytes) : Option (List Token) := scanFrom .blank s

def statements (s : Bytes) : Option (List (List Token)) :=
  (tokens s).map fun ts => (ts.splitOn .semi).filter fun st => !st.isEmpty

inductive Value (R : Type) where
  | null
  | integer (n : Int64)
  | real (x : R)
  | text (s : Bytes)
  | blob (b : Bytes)
deriving DecidableEq

structure Insert (R : Type) where
  table : Bytes
  row : List (Value R)
deriving DecidableEq

section reading

variable {R : Type} (nearest : Bool → Nat → Int → R)

def number (neg : Bool) (ds : Bytes) : Value R :=
  let n := digitsValue ds
  if neg then if n ≤ 2 ^ 63 then .integer (Int64.ofInt (-n)) else .real (nearest true n 0)
  else if n < 2 ^ 63 then .integer (Int64.ofInt n) else .real (nearest false n 0)

def literal : List Token → Option (Value R)
  | [.word w] => if w = lit "NULL" then some .null else none
  | [.text s] => some (.text s)
  | [.blob b] => some (.blob b)
  | [.integer ds] => some (number nearest false ds)
  | [.minus, .integer ds] => some (number nearest true ds)
  | [.real ds e] => some (.real (nearest false (digitsValue ds) e))
  | [.minus, .real ds e] => some (.real (nearest true (digitsValue ds) e))
  | _ => none

def insert : List Token → Option (Insert R)
  | .word i :: .word o :: .name table :: .word v :: .left :: body =>
    if i = lit "INSERT" ∧ o = lit "INTO" ∧ v = lit "VALUES" ∧ body.getLast? = some .right then
      ((body.dropLast.splitOn .comma).mapM (literal nearest)).map fun row => ⟨table, row⟩
    else none
  | _ => none

def inserts (s : Bytes) : Option (List (Insert R)) := (statements s).bind fun sts => sts.mapM (insert nearest)

end reading

section scanning

variable {m m' : Mode} {s t p : Bytes} {ts : List Token} {c q : UInt8} {acc : Bytes} {tok : Token}

attribute [local grind =] after realToken step run visiblePart scanFrom tokens statements insert inserts

theorem run_append (m : Mode) (s t : Bytes) : run m (s ++ t) =
    (run m s).bind fun r => (run r.2 t).map fun r' => (r.1 ++ r'.1, r'.2) := by
  induction s generalizing m with
  | nil =>
    rw [nil_append, run, Option.bind_some]
    cases run m t with
    | none => rfl
    | some r => rfl
  | cons c s ih =>
    rw [cons_append, run, run]
    cases step m c with
    | none => rfl
    | some r =>
      rw [Option.bind_some, Option.bind_some, ih]
      cases run r.2 s with
      | none => rfl
      | some r' =>
        rw [Option.bind_some, Option.map_some, Option.bind_some]
        dsimp only
        cases run r'.2 t with
        | none => rfl
        | some r'' => rw [Option.map_some, Option.map_some, Option.map_some, append_assoc]

theorem run_then (h : run m s = some (ts, m')) (t : Bytes) :
    run m (s ++ t) = (run m' t).map fun r => (ts ++ r.1, r.2) := by
  rw [run_append, h, Option.bind_some]

theorem run_snoc (h : run m s = some (ts, m')) (c : UInt8) :
    run m (s ++ [c]) = (step m' c).map fun r => (ts ++ r.1, r.2) := by
  rw [run_then h, run]
  cases step m' c with
  | none => rfl
  | some r => rw [Option.bind_some, run, Option.map_some, Option.map_some, Option.map_some, append_nil]

theorem visible_append (h : 0 ∉ s) (t : Bytes) : visiblePart (s ++ t) = s ++ visiblePart t := by
  rw [visiblePart, takeWhile_append_of_pos]
  · rfl
  · intro c hc
    rw [decide_eq_true_eq]
    rintro rfl
    exact h hc

theorem visible_cut (h : 0 ∈ s) (t : Bytes) : visiblePart (s ++ t) = visiblePart s := by
  induction s with
  | nil => cases h
  | cons c s ih =>
    rw [visiblePart, visiblePart, cons_append, takeWhile_cons, takeWhile_cons]
    split
    case isTrue hc =>
      rcases mem_cons.mp h with rfl | hin
      · exact absurd rfl (decide_eq_true_eq.mp hc)
      · exact congrArg (List.cons c) (ih hin)
    case isFalse => rfl

theorem scan_then (hs : 0 ∉ s) (h : run m s = some (ts, m')) (t : Bytes) :
    scanFrom m (s ++ t) = (scanFrom m' t).map fun rest => ts ++ rest := by
  rw [scanFrom, visible_append hs, run_then h, scanFrom]
  cases run m' (visiblePart t) with
  | none => rfl
  | some r =>
    rw [Option.map_some, Option.bind_some, Option.bind_some]
    cases finish r.2 with
    | none => rfl
    | some fs => rw [Option.map_some, Option.map_some, Option.map_some, append_assoc]

theorem scan_cut (hs : 0 ∈ s) (h : run m (visiblePart s) = some (ts, m')) (hend : finish m' = none) (t : Bytes) :
    scanFrom m (s ++ t) = none := by
  rw [scanFrom, visible_cut hs, h, Option.bind_some, hend, Option.map_none]

end scanning

def quoteBody (q : UInt8) (s : Bytes) : Bytes := s.flatMap fun c => if c = q then [q, q] else [c]

def quote (q : UInt8) (s : Bytes) : Bytes := q :: (quoteBody q s ++ [q])

structure Reads (p : Bytes) (ts : List Token) : Prop where
  clean : 0 ∉ p
  comma : run .blank (p ++ [44]) = some (ts ++ [.comma], .blank)
  right : run .blank (p ++ [41]) = some (ts ++ [.right], .blank)
  apart : Token.comma ∉ ts ∧ Token.semi ∉ ts

structure Breaks (p : Bytes) : Prop where
  cut : 0 ∈ p
  unfinished : ∃ ts m, run .blank (visiblePart p) = some (ts, m) ∧ finish m = none

structure Cell (R : Type) where
  text : Bytes
  toks : List Token
  value : Value R

structure Cell.Good {R : Type} (nearest : Bool → Nat → Int → R) (cell : Cell R) : Prop where
  reads : Reads cell.text cell.toks
  valued : literal nearest cell.toks = some cell.value

def insertText (table : Bytes) (cells : List Bytes) : Bytes :=
  lit "INSERT INTO \"" ++ table ++ lit "\" VALUES(" ++ List.intercalate [44] cells ++ lit ");\n"

section pieces

variable {R : Type} {s t p table : Bytes} {ts : List Token} {tok : Token} {m : Mode} {q : UInt8}
  {cells : List (Cell R)}

theorem reads_of_run (pre : List Token) (hclean : 0 ∉ p) (h : run .blank p = some (pre, m))
    (hend : ∀ c, c = 44 ∨ c = 41 → step m c = after tok c)
    (hapart : Token.comma ∉ pre ++ [tok] ∧ Token.semi ∉ pre ++ [tok]) : Reads p (pre ++ [tok]) where
  clean := hclean
  comma := by
    rw [run_snoc h, hend 44 (.inl rfl), append_assoc]
    rfl
  right := by
    rw [run_snoc h, hend 41 (.inr rfl), append_assoc]
    rfl
  apart := hapart

theorem quoteBody_cons (q c : UInt8) (s : Bytes) :
    quoteBody q (c :: s) = (if c = q then [q, q] else [c]) ++ quoteBody q s := flatMap_cons

theorem run_quoteBody (q : UInt8) (acc s : Bytes) :
    run (.quoted q acc) (quoteBody q s) = some ([], .quoted q (acc ++ s)) := by
  induction s generalizing acc with
  | nil => rw [append_nil]; rfl
  | cons c s ih =>
    have hacc : acc ++ c :: s = acc ++ [c] ++ s := by simp
    rw [quoteBody_cons, hacc]
    split
    case isTrue h =>
      have hpair : run (.quoted q acc) [q, q] = some ([], .quoted q (acc ++ [q])) := by simp [run, step]
      rw [run_then hpair, ih, h]
      rfl
    case isFalse h =>
      have hone : run (.quoted q acc) [c] = some ([], .quoted q (acc ++ [c])) := by simp [run, step, h]
      rw [run_then hone, ih]
      rfl

theorem run_opened (hq : q = 39 ∨ q = 34) (s : Bytes) :
    run .blank (q :: s) = run (.quoted q []) s := by
  have hstart : start q = some ([], .quoted q []) := by
    rcases hq with rfl | rfl
    · rfl
    · rfl
  rw [run, step, hstart, Option.bind_some]
  cases run (.quoted q []) s with
  | none => rfl
  | some r => rfl

theorem run_quote (hq : q = 39 ∨ q = 34) (s : Bytes) :
    run .blank (quote q s) = some ([], .closing q s) := by
  rw [quote, run_opened hq, run_snoc (run_quoteBody q [] s), step, if_pos rfl]
  rfl

theorem not_mem_quoteBody (hq : q ≠ 0) (h : 0 ∉ s) : 0 ∉ quoteBody q s := by
  intro hin
  obtain ⟨c, hc, hzero⟩ := mem_flatMap.mp hin
  split at hzero
  · simp only [mem_cons, not_mem_nil, or_false, or_self] at hzero
    exact hq hzero.symm
  · exact h (mem_singleton.mp hzero ▸ hc)

theorem quoteBody_plain (h : q ∉ s) : quoteBody q s = s := by
  induction s with
  | nil => rfl
  | cons c s ih =>
    rw [mem_cons, not_or] at h
    rw [quoteBody_cons, if_neg (Ne.symm h.1), ih h.2]
    rfl

theorem quote_reads (h : 0 ∉ s) : Reads (quote 39 s) [.text s] := by
  refine reads_of_run [] ?_ (run_quote (.inl rfl) s) ?_ ⟨by simp, by simp⟩
  · rw [quote, mem_cons, mem_append, mem_singleton]
    rintro (hzero | hzero | hzero)
    · cases hzero
    · exact not_mem_quoteBody (by decide) h hzero
    · cases hzero
  · rintro c (rfl | rfl)
    · rfl
    · rfl

theorem visible_quoteBody (hq : q ≠ 0) (h : 0 ∈ s) (t : Bytes) :
    visiblePart (quoteBody q s ++ t) = quoteBody q (visiblePart s) := by
  induction s with
  | nil => cases h
  | cons c s ih =>
    by_cases hc : c = 0
    · subst hc
      rw [quoteBody_cons, if_neg (Ne.symm hq)]
      rfl
    · have hin : 0 ∈ s := (mem_cons.mp h).resolve_left (Ne.symm hc)
      have hone : 0 ∉ [c] := by simpa using Ne.symm hc
      have hhead : visiblePart (c :: s) = c :: visiblePart s := visible_append hone s
      have hunit : 0 ∉ (if c = q then [q, q] else [c]) := by
        split
        · simpa using Ne.symm hq
        · simpa using Ne.symm hc
      rw [hhead, quoteBody_cons, quoteBody_cons, append_assoc, visible_append hunit, ih hin]

theorem quote_breaks (h : 0 ∈ s) : Breaks (quote 39 s) where
  cut := by
    refine mem_cons_of_mem _ (mem_append_left _ (mem_flatMap.mpr ⟨0, h, ?_⟩))
    simp
  unfinished := by
    have hvisible : visiblePart (quote 39 s) = 39 :: quoteBody 39 (visiblePart s) :=
      congrArg (List.cons 39) (visible_quoteBody (by decide) h [39])
    exact ⟨[], .quoted 39 (visiblePart s), by rw [hvisible, run_opened (.inl rfl), run_quoteBody]; rfl, rfl⟩

theorem scan_cells (hne : cells ≠ []) (h : ∀ cell ∈ cells, Reads cell.text cell.toks) (rest : Bytes) :
    scanFrom .blank (List.intercalate [44] (cells.map Cell.text) ++ lit ");\n" ++ rest) =
      (scanFrom .blank rest).map fun ts =>
        List.intercalate [.comma] (cells.map Cell.toks) ++ [.right, .semi] ++ ts := by
  induction cells with
  | nil => exact absurd rfl hne
  | cons cell cells ih =>
    have hcell := h cell mem_cons_self
    cases cells with
    | nil =>
      have hend : run .blank (lit ";\n") = some ([.semi], .blank) := by decide
      have hclean : 0 ∉ cell.text ++ [41] := by simpa using hcell.clean
      have hsplit : List.intercalate [44] ([cell].map Cell.text) ++ lit ");\n" ++ rest =
          cell.text ++ [41] ++ (lit ";\n" ++ rest) := by
        simp only [map_cons, map_nil, intercalate_singleton, append_assoc]
        rfl
      rw [hsplit, scan_then hclean hcell.right, scan_then (by decide) hend, Option.map_map]
      congr 1
      funext ts
      simp
    | cons other cells =>
      have hclean : 0 ∉ cell.text ++ [44] := by simpa using hcell.clean
      have hsplit : List.intercalate [44] ((cell :: other :: cells).map Cell.text) ++ lit ");\n" ++ rest =
          cell.text ++ [44] ++ (List.intercalate [44] ((other :: cells).map Cell.text) ++ lit ");\n" ++ rest) := by
        simp only [map_cons, intercalate_cons_cons, append_assoc]
      rw [hsplit, scan_then hclean hcell.comma,
        ih (cons_ne_nil _ _) fun c hc => h c (mem_cons_of_mem _ hc), Option.map_map]
      congr 1
      funext ts
      simp only [map_cons, intercalate_cons_cons, append_assoc, Function.comp_apply]

theorem scan_broken (h : ∀ cell ∈ cells, Reads cell.text cell.toks ∨ Breaks cell.text)
    (hbreak : ∃ cell ∈ cells, Breaks cell.text) (rest : Bytes) :
    scanFrom .blank (List.intercalate [44] (cells.map Cell.text) ++ rest) = none := by
  induction cells with
  | nil =>
    obtain ⟨_, hin, _⟩ := hbreak
    cases hin
  | cons cell cells ih =>
    have hcut : ∀ t, Breaks cell.text → scanFrom .blank (cell.text ++ t) = none := by
      intro t hb
      obtain ⟨ts, m, hrun, hend⟩ := hb.unfinished
      exact scan_cut hb.cut hrun hend t
    cases cells with
    | nil =>
      obtain ⟨other, hin, hb⟩ := hbreak
      rw [mem_singleton] at hin
      subst hin
      rw [map_cons, map_nil, intercalate_singleton]
      exact hcut rest hb
    | cons other cells =>
      have hsplit : List.intercalate [44] ((cell :: other :: cells).map Cell.text) ++ rest =
          cell.text ++ ([44] ++ (List.intercalate [44] ((other :: cells).map Cell.text) ++ rest)) := by
        simp only [map_cons, intercalate_cons_cons, append_assoc]
      rw [hsplit]
      rcases h cell mem_cons_self with hcell | hb
      case inr => exact hcut _ hb
      case inl =>
        have hclean : 0 ∉ cell.text ++ [44] := by simpa using hcell.clean
        have htail : ∃ cell' ∈ other :: cells, Breaks cell'.text := by
          obtain ⟨cell', hin, hb⟩ := hbreak
          rcases mem_cons.mp hin with rfl | hin
          · exact absurd hb.cut hcell.clean
          · exact ⟨cell', hin, hb⟩
        rw [← append_assoc, scan_then hclean hcell.comma,
          ih (fun c hc => h c (mem_cons_of_mem _ hc)) htail, Option.map_none]

def head (table : Bytes) : List Token :=
  [.word (lit "INSERT"), .word (lit "INTO"), .name table, .word (lit "VALUES"), .left]

structure Plain (table : Bytes) : Prop where
  quote : 34 ∉ table
  nul : 0 ∉ table

theorem scan_head (h : Plain table) (rest : Bytes) :
    scanFrom .blank (lit "INSERT INTO \"" ++ table ++ lit "\" VALUES(" ++ rest) =
      (scanFrom .blank rest).map fun ts => head table ++ ts := by
  have hopen : run .blank (lit "INSERT INTO \"") =
      some ([.word (lit "INSERT"), .word (lit "INTO")], .quoted 34 []) := by decide +kernel
  have hname : run (.quoted 34 []) table = some ([], .quoted 34 table) := by
    have hbody := run_quoteBody 34 [] table
    rwa [quoteBody_plain h.quote] at hbody
  have hclose : run (.quoted 34 table) (lit "\" VALUES(") =
      some ([.name table, .word (lit "VALUES"), .left], .blank) := rfl
  rw [append_assoc, append_assoc, scan_then (by decide +kernel) hopen, scan_then h.nul hname,
    scan_then (by decide +kernel) hclose, Option.map_map, Option.map_map]
  rfl

end pieces

section scripts

variable {R : Type} {nearest : Bool → Nat → Int → R} {entries : List (Bytes × List (Cell R))}
  {entry : Bytes × List (Cell R)}

def Entry.text (entry : Bytes × List (Cell R)) : Bytes := insertText entry.1 (entry.2.map Cell.text)

def Entry.toks (entry : Bytes × List (Cell R)) : List Token :=
  head entry.1 ++ List.intercalate [.comma] (entry.2.map Cell.toks) ++ [.right]

def Entry.value (entry : Bytes × List (Cell R)) : Insert R := ⟨entry.1, entry.2.map Cell.value⟩

structure Entry.Shaped (entry : Bytes × List (Cell R)) : Prop where
  plain : Plain entry.1
  cells : entry.2 ≠ []

theorem scan_entry (hshape : Entry.Shaped entry) (h : ∀ cell ∈ entry.2, cell.Good nearest) (rest : Bytes) :
    scanFrom .blank (Entry.text entry ++ rest) =
      (scanFrom .blank rest).map fun ts => Entry.toks entry ++ .semi :: ts := by
  have hsplit : Entry.text entry ++ rest = lit "INSERT INTO \"" ++ entry.1 ++ lit "\" VALUES(" ++
      (List.intercalate [44] (entry.2.map Cell.text) ++ lit ");\n" ++ rest) := by
    simp only [Entry.text, insertText, append_assoc]
  rw [hsplit, scan_head hshape.plain, scan_cells hshape.cells fun cell hcell => (h cell hcell).reads, Option.map_map]
  congr 1
  funext ts
  simp only [Entry.toks, Function.comp_apply, append_assoc, cons_append, nil_append]

theorem scan_entry_broken (hshape : Entry.Shaped entry)
    (h : ∀ cell ∈ entry.2, cell.Good nearest ∨ Breaks cell.text) (hbreak : ∃ cell ∈ entry.2, Breaks cell.text)
    (rest : Bytes) : scanFrom .blank (Entry.text entry ++ rest) = none := by
  have hsplit : Entry.text entry ++ rest = lit "INSERT INTO \"" ++ entry.1 ++ lit "\" VALUES(" ++
      (List.intercalate [44] (entry.2.map Cell.text) ++ (lit ");\n" ++ rest)) := by
    simp only [Entry.text, insertText, append_assoc]
  rw [hsplit, scan_head hshape.plain,
    scan_broken (fun cell hcell => (h cell hcell).imp_left Cell.Good.reads) hbreak, Option.map_none]

theorem tokens_entries (hshape : ∀ entry ∈ entries, Entry.Shaped entry)
    (h : ∀ entry ∈ entries, ∀ cell ∈ entry.2, cell.Good nearest) :
    tokens (entries.flatMap Entry.text) = some (entries.flatMap fun entry => Entry.toks entry ++ [.semi]) := by
  induction entries with
  | nil => rfl
  | cons entry entries ih =>
    have hrest := ih (fun e he => hshape e (mem_cons_of_mem _ he)) fun e he => h e (mem_cons_of_mem _ he)
    rw [tokens, flatMap_cons, scan_entry (hshape entry mem_cons_self) (h entry mem_cons_self),
      ← tokens, hrest, Option.map_some, flatMap_cons, append_assoc]
    rfl

theorem tokens_broken (hshape : ∀ entry ∈ entries, Entry.Shaped entry)
    (h : ∀ entry ∈ entries, ∀ cell ∈ entry.2, cell.Good nearest ∨ Breaks cell.text)
    (hbreak : ∃ entry ∈ entries, ∃ cell ∈ entry.2, Breaks cell.text) :
    tokens (entries.flatMap Entry.text) = none := by
  induction entries with
  | nil =>
    obtain ⟨_, hin, _⟩ := hbreak
    cases hin
  | cons entry entries ih =>
    have hhere := hshape entry mem_cons_self
    have hcells := h entry mem_cons_self
    rw [tokens, flatMap_cons]
    by_cases hin : ∃ cell ∈ entry.2, Breaks cell.text
    · exact scan_entry_broken hhere hcells hin _
    · have hgood : ∀ cell ∈ entry.2, cell.Good nearest :=
        fun cell hcell => (hcells cell hcell).resolve_right fun hb => hin ⟨cell, hcell, hb⟩
      have htail : ∃ e ∈ entries, ∃ cell ∈ e.2, Breaks cell.text := by
        obtain ⟨e, he, hcell⟩ := hbreak
        rcases mem_cons.mp he with rfl | he
        · exact absurd hcell hin
        · exact ⟨e, he, hcell⟩
      have hrest := ih (fun e he => hshape e (mem_cons_of_mem _ he))
        (fun e he => h e (mem_cons_of_mem _ he)) htail
      rw [scan_entry hhere hgood, ← tokens, hrest, Option.map_none]

theorem comma_cells {cells : List (Cell R)} (h : ∀ cell ∈ cells, cell.Good nearest) (hne : cells ≠ []) :
    (List.intercalate [.comma] (cells.map Cell.toks)).splitOn Token.comma = cells.map Cell.toks := by
  induction cells with
  | nil => exact absurd rfl hne
  | cons cell cells ih =>
    have hapart := (h cell mem_cons_self).reads.apart.1
    cases cells with
    | nil =>
      rw [map_cons, map_nil, intercalate_singleton]
      exact splitOn_eq_singleton hapart
    | cons other cells =>
      have hrest := ih (fun c hc => h c (mem_cons_of_mem _ hc)) (cons_ne_nil _ _)
      rw [map_cons] at hrest
      rw [map_cons, map_cons, intercalate_cons_cons, append_assoc, singleton_append,
        splitOn_append_cons_self_of_not_mem hapart, hrest]

theorem insert_entry (hshape : Entry.Shaped entry) (h : ∀ cell ∈ entry.2, cell.Good nearest) :
    insert nearest (Entry.toks entry) = some (Entry.value entry) := by
  have hvalues : (entry.2.map Cell.toks).mapM (literal nearest) = some (entry.2.map Cell.value) := by
    have hall : ∀ cells : List (Cell R), (∀ cell ∈ cells, cell.Good nearest) →
        (cells.map Cell.toks).mapM (literal nearest) = some (cells.map Cell.value) := by
      intro cells hcells
      induction cells with
      | nil => rfl
      | cons cell cells ih =>
        rw [map_cons, mapM_cons, (hcells cell mem_cons_self).valued,
          ih fun c hc => hcells c (mem_cons_of_mem _ hc)]
        rfl
    exact hall entry.2 h
  have hbody : Entry.toks entry = .word (lit "INSERT") :: .word (lit "INTO") :: .name entry.1 ::
      .word (lit "VALUES") :: .left :: (List.intercalate [.comma] (entry.2.map Cell.toks) ++ [.right]) := by
    simp only [Entry.toks, head, cons_append, nil_append]
  rw [hbody, insert, if_pos ⟨rfl, rfl, rfl, getLast?_concat⟩, dropLast_concat,
    comma_cells h hshape.cells, hvalues]
  rfl

theorem semi_entry (h : ∀ cell ∈ entry.2, cell.Good nearest) : Token.semi ∉ Entry.toks entry := by
  have hcells : ∀ cells : List (Cell R), (∀ cell ∈ cells, cell.Good nearest) →
      Token.semi ∉ List.intercalate [.comma] (cells.map Cell.toks) := by
    intro cells hcells hin
    induction cells with
    | nil => cases hin
    | cons cell cells ih =>
      have hapart := (hcells cell mem_cons_self).reads.apart.2
      cases cells with
      | nil =>
        rw [map_cons, map_nil, intercalate_singleton] at hin
        exact hapart hin
      | cons other cells =>
        rw [map_cons, map_cons, intercalate_cons_cons, mem_append, mem_append] at hin
        rcases hin with (hin | hin) | hin
        · exact hapart hin
        · cases mem_singleton.mp hin
        · exact ih (fun c hc => hcells c (mem_cons_of_mem _ hc)) hin
  intro hin
  rw [Entry.toks, mem_append, mem_append] at hin
  rcases hin with (hin | hin) | hin
  · simp [head] at hin
  · exact hcells entry.2 h hin
  · cases mem_singleton.mp hin

theorem statements_entries (hshape : ∀ entry ∈ entries, Entry.Shaped entry)
    (h : ∀ entry ∈ entries, ∀ cell ∈ entry.2, cell.Good nearest) :
    statements (entries.flatMap Entry.text) = some (entries.map Entry.toks) := by
  have hsplit : ((entries.flatMap fun entry => Entry.toks entry ++ [.semi]).splitOn Token.semi).filter
      (fun st => !st.isEmpty) = entries.map Entry.toks := by
    clear hshape
    induction entries with
    | nil => rfl
    | cons entry entries ih =>
      have hsemi := semi_entry (h entry mem_cons_self)
      have hfull : (!(Entry.toks entry).isEmpty) = true := by
        simp only [Entry.toks, head, cons_append, isEmpty_cons, Bool.not_false]
      rw [flatMap_cons, append_assoc, singleton_append, splitOn_append_cons_self_of_not_mem hsemi,
        filter_cons, if_pos hfull, ih fun e he => h e (mem_cons_of_mem _ he), map_cons]
  rw [statements, tokens_entries hshape h, Option.map_some, hsplit]

theorem inserts_entries (hshape : ∀ entry ∈ entries, Entry.Shaped entry)
    (h : ∀ entry ∈ entries, ∀ cell ∈ entry.2, cell.Good nearest) :
    inserts nearest (entries.flatMap Entry.text) = some (entries.map Entry.value) := by
  have hall : (entries.map Entry.toks).mapM (insert nearest) = some (entries.map Entry.value) := by
    induction entries with
    | nil => rfl
    | cons entry entries ih =>
      rw [map_cons, mapM_cons, insert_entry (hshape entry mem_cons_self) (h entry mem_cons_self),
        ih (fun e he => hshape e (mem_cons_of_mem _ he)) fun e he => h e (mem_cons_of_mem _ he)]
      rfl
  rw [inserts, statements_entries hshape h, Option.bind_some, hall]

theorem inserts_broken (hshape : ∀ entry ∈ entries, Entry.Shaped entry)
    (h : ∀ entry ∈ entries, ∀ cell ∈ entry.2, cell.Good nearest ∨ Breaks cell.text)
    (hbreak : ∃ entry ∈ entries, ∃ cell ∈ entry.2, Breaks cell.text) :
    inserts nearest (entries.flatMap Entry.text) = none := by
  rw [inserts, statements, tokens_broken hshape h hbreak]
  rfl

end scripts

section numerals

variable {R : Type} {nearest : Bool → Nat → Int → R} {c : UInt8} {a b e p s : Bytes} {tok : Token}
  {neg : Bool}

def Digits (s : Bytes) : Prop := ∀ c ∈ s, decimal c = true

theorem digit_code : (List.range 256).all (fun n => !decimal n.toUInt8 ||
    (start n.toUInt8 == some ([], .int [n.toUInt8]) && n.toUInt8 != 0 && n.toUInt8 != 45 &&
      n.toUInt8 != 62)) = true := by
  decide +kernel

theorem digit_spec (h : decimal c = true) : start c = some ([], .int [c]) ∧ c ≠ 0 ∧ c ≠ 45 ∧ c ≠ 62 := by
  have hc := all_eq_true.mp digit_code c.toNat (mem_range.mpr c.toNat_lt)
  simpa [h, and_assoc] using hc

theorem Digits.clean (h : Digits s) : 0 ∉ s := fun hin => (digit_spec (h 0 hin)).2.1 rfl

theorem Digits.tail (h : Digits (c :: s)) : Digits s := fun x hx => h x (mem_cons_of_mem _ hx)

theorem run_digits (mode : Bytes → Mode)
    (hmode : ∀ acc c, decimal c = true → step (mode acc) c = some ([], mode (acc ++ [c])))
    (h : Digits s) (acc : Bytes) : run (mode acc) s = some ([], mode (acc ++ s)) := by
  induction s generalizing acc with
  | nil => rw [append_nil, run]
  | cons c s ih =>
    rw [run, hmode acc c (h c mem_cons_self), Option.bind_some, ih h.tail, Option.map_some]
    simp

theorem run_int (h : Digits (c :: s)) : run .blank (c :: s) = some ([], .int (c :: s)) := by
  have hrest : run (.int [c]) s = some ([], .int ([c] ++ s)) :=
    run_digits .int (fun acc x hx => by rw [step, if_pos hx]) h.tail [c]
  rw [run, step, (digit_spec (h c mem_cons_self)).1, Option.bind_some, hrest]
  rfl

theorem run_frac (h : Digits (c :: a)) (hb : Digits b) :
    run .blank (c :: a ++ 46 :: b) = some ([], .frac (c :: a ++ b) b.length) := by
  have hcount : ∀ (s acc : Bytes) (n : Nat), Digits s →
      run (.frac acc n) s = some ([], .frac (acc ++ s) (n + s.length)) := by
    intro s
    induction s with
    | nil =>
      intro acc n _
      rw [append_nil, run]
      rfl
    | cons x s ih =>
      intro acc n hs
      rw [run, step, if_pos (hs x mem_cons_self), Option.bind_some, ih _ _ hs.tail, Option.map_some]
      simp [Nat.add_assoc, Nat.add_comm 1]
  have hpoint : run (.int (c :: a)) (46 :: b) = some ([], .frac (c :: a ++ b) b.length) := by
    have hstep : step (.int (c :: a)) 46 = some ([], .frac (c :: a) 0) := rfl
    rw [run, hstep, Option.bind_some, hcount b _ 0 hb, Option.map_some, Nat.zero_add]
    rfl
  rw [run_then (run_int h), hpoint]
  rfl

theorem run_exponent {m : Mode} {ds : Bytes} {k : Nat} (hmark : step m 101 = some ([], .mark ds k)) (hne : e ≠ [])
    (he : Digits e) :
    run m (101 :: (if neg then 45 else 43) :: e) = some ([], .exp ds k neg e) := by
  obtain ⟨x, e, rfl⟩ := exists_cons_of_ne_nil hne
  have hsign : step (.mark ds k) (if neg then 45 else 43) = some ([], .sign ds k neg) := by
    cases neg with
    | true => rfl
    | false => rfl
  have hrest : run (.exp ds k neg [x]) e = some ([], .exp ds k neg ([x] ++ e)) :=
    run_digits (.exp ds k neg) (fun acc y hy => by rw [step, if_pos hy]) he.tail [x]
  rw [run, hmark, Option.bind_some, run, hsign, Option.bind_some, run, step, if_pos (he x mem_cons_self),
    Option.bind_some, hrest]
  rfl

def signed (neg : Bool) (p : Bytes) : Bytes := if neg then 45 :: p else p

def signedToks (neg : Bool) (tok : Token) : List Token := if neg then [.minus, tok] else [tok]

theorem signed_reads (hdigit : decimal c = true) (h : Reads (c :: p) [tok]) (neg : Bool) :
    Reads (signed neg (c :: p)) (signedToks neg tok) := by
  cases neg with
  | false => exact h
  | true =>
    obtain ⟨hstart, _, hdash, hgreater⟩ := digit_spec hdigit
    have hminus : ∀ s, run .blank (45 :: c :: s) = (run .blank (c :: s)).map fun r => (.minus :: r.1, r.2) := by
      intro s
      have hopen : step .blank 45 = some ([], .dash) := rfl
      rw [run, hopen, Option.bind_some, run, step, if_neg (not_or.mpr ⟨hdash, hgreater⟩), after, hstart, run, step,
        hstart, Option.map_some, Option.bind_some, Option.bind_some]
      cases run (.int [c]) s with
      | none => rfl
      | some r => rfl
    refine ⟨?_, ?_, ?_, ?_⟩
    · intro hzero
      rcases mem_cons.mp hzero with hzero | hzero
      · cases hzero
      · exact h.clean hzero
    · have hcomma := h.comma
      rw [cons_append] at hcomma
      change run .blank (45 :: c :: (p ++ [44])) = _
      rw [hminus, hcomma]
      rfl
    · have hright := h.right
      rw [cons_append] at hright
      change run .blank (45 :: c :: (p ++ [41])) = _
      rw [hminus, hright]
      rfl
    · exact ⟨fun hin => h.apart.1 ((mem_cons.mp hin).resolve_left (by simp)),
        fun hin => h.apart.2 ((mem_cons.mp hin).resolve_left (by simp))⟩

theorem integer_reads (h : Digits (c :: s)) (neg : Bool) :
    Reads (signed neg (c :: s)) (signedToks neg (.integer (c :: s))) := by
  refine signed_reads (h c mem_cons_self) (reads_of_run [] h.clean (run_int h) ?_ ⟨by simp, by simp⟩) neg
  rintro x (rfl | rfl)
  · rfl
  · rfl

theorem fraction_reads (h : Digits (c :: a)) (hb : Digits b) (neg : Bool) :
    Reads (signed neg (c :: a ++ 46 :: b)) (signedToks neg (.real (c :: a ++ b) (-b.length))) := by
  have htok : realToken (c :: a ++ b) b.length false [] = .real (c :: a ++ b) (-b.length) := by
    simp [realToken, digitsValue]
  rw [← htok]
  refine signed_reads (h c mem_cons_self)
    (reads_of_run [] ?_ (run_frac h hb) ?_ ⟨by simp [realToken], by simp [realToken]⟩) neg
  · intro hzero
    rcases mem_append.mp (show 0 ∈ (c :: a) ++ 46 :: b from hzero) with hzero | hzero
    · exact h.clean hzero
    · rcases mem_cons.mp hzero with hzero | hzero
      · cases hzero
      · exact hb.clean hzero
  · rintro x (rfl | rfl)
    · rfl
    · rfl

def scientific (c : UInt8) (b : Bytes) (eneg : Bool) (e : Bytes) : Bytes :=
  c :: ((if b = [] then [] else 46 :: b) ++ 101 :: (if eneg then 45 else 43) :: e)

theorem scientific_reads (eneg : Bool) (hc : decimal c = true) (hb : Digits b) (hne : e ≠ []) (he : Digits e)
    (neg : Bool) :
    Reads (signed neg (scientific c b eneg e)) (signedToks neg
      (.real (c :: b) ((if eneg then -(digitsValue e : Int) else digitsValue e) - b.length))) := by
  have hone : Digits [c] := by
    intro x hx
    rwa [mem_singleton.mp hx]
  have hrun : run .blank (scientific c b eneg e) = some ([], .exp (c :: b) b.length eneg e) := by
    rw [scientific]
    split
    case isTrue hnil =>
      subst hnil
      have hexp : run (.int [c]) (101 :: (if eneg then 45 else 43) :: e) = some ([], .exp [c] 0 eneg e) :=
        run_exponent rfl hne he
      have hall := run_then (run_int hone) (101 :: (if eneg then 45 else 43) :: e)
      rw [hexp] at hall
      exact hall
    case isFalse =>
      have hexp : run (.frac ([c] ++ b) b.length) (101 :: (if eneg then 45 else 43) :: e) =
          some ([], .exp ([c] ++ b) b.length eneg e) := run_exponent rfl hne he
      have hall := run_then (run_frac hone hb) (101 :: (if eneg then 45 else 43) :: e)
      rw [hexp] at hall
      exact hall
  refine signed_reads hc (reads_of_run [] ?_ hrun ?_ ⟨by simp, by simp⟩) neg
  · have hmark : ∀ c : UInt8, c = 46 ∨ c = 101 ∨ c = 45 ∨ c = 43 → c ≠ 0 := by
      rintro _ (rfl | rfl | rfl | rfl) <;> decide
    intro hzero
    rw [mem_cons, mem_append, mem_cons, mem_cons] at hzero
    rcases hzero with hzero | hzero | hzero | hzero | hzero
    · exact (digit_spec hc).2.1 hzero.symm
    · split at hzero
      · cases hzero
      · rcases mem_cons.mp hzero with hzero | hzero
        · exact hmark 46 (.inl rfl) hzero.symm
        · exact hb.clean hzero
    · exact hmark 101 (.inr (.inl rfl)) hzero.symm
    · cases eneg with
      | true => cases hzero
      | false => cases hzero
    · exact he.clean hzero
  · rintro x (rfl | rfl)
    · rfl
    · rfl

end numerals

end SqlText
