import QuiPanel.Library.ByteText

namespace NetAddr

open ByteText List

abbrev Groups := { gs : List UInt16 // gs.length = 8 }

inductive Addr where
  | v4 (a b c d : UInt8)
  | v6 (groups : Groups) (zone : Bytes)
  deriving DecidableEq

def parseFields : Bytes → List UInt8 → Nat → Nat → Option (List UInt8)
  | [], fields, val, _ => if fields.length < 3 then none else some (fields ++ [val.toUInt8])
  | c :: s, fields, val, digLen =>
    if decimal c then
      if digLen = 1 ∧ val = 0 then none
      else if val * 10 + (c.toNat - 48) > 255 then none
      else parseFields s fields (val * 10 + (c.toNat - 48)) (digLen + 1)
    else if c = 46 then
      if digLen = 0 ∨ s = [] then none
      else if fields.length = 3 then none
      else parseFields s (fields ++ [val.toUInt8]) 0 0
    else none

def parseIPv4 (s : Bytes) : Option Addr :=
  match parseFields s [] 0 0 with
  | some [a, b, c, d] => some (.v4 a b c d)
  | _ => none

def readHex : Bytes → Nat → Nat → Option (Nat × Nat × Bytes)
  | [], acc, off => some (acc, off, [])
  | c :: s, acc, off =>
    match hexDigit c with
    | none => some (acc, off, c :: s)
    | some d =>
      if off > 3 then none
      else if acc * 16 + d > 65535 then none
      else readHex s (acc * 16 + d) (off + 1)

def embedded (fields : Option (List UInt8)) : Option (List UInt16) :=
  match fields with
  | some [a, b, c, d] => some [a.toUInt16 * 256 + b.toUInt16, c.toUInt16 * 256 + d.toUInt16]
  | _ => none

def parseGroups : Nat → List UInt16 → Option Nat → Bytes → Option (List UInt16 × Option Nat × Bytes)
  | 0, gs, ellipsis, s => some (gs, ellipsis, s)
  | n + 1, gs, ellipsis, s =>
    match readHex s 0 0 with
    | none => none
    | some (acc, off, rest) =>
      if off = 0 then none
      else if rest.head? = some 46 then
        if ellipsis = none ∧ gs.length ≠ 6 then none
        else if gs.length + 2 > 8 then none
        else (embedded (parseFields s [] 0 0)).map fun tail => (gs ++ tail, ellipsis, [])
      else
        match rest with
        | [] => some (gs ++ [acc.toUInt16], ellipsis, [])
        | c :: rest =>
          if c ≠ 58 ∨ rest = [] then none
          else if rest.head? = some 58 then
            if ellipsis.isSome then none
            else if rest.tail = [] then some (gs ++ [acc.toUInt16], some (gs.length + 1), [])
            else parseGroups n (gs ++ [acc.toUInt16]) (some (gs.length + 1)) rest.tail
          else parseGroups n (gs ++ [acc.toUInt16]) ellipsis rest

def expand (gs : List UInt16) (ellipsis : Option Nat) : Option (List UInt16) :=
  if gs.length < 8 then
    ellipsis.map fun e => gs.take e ++ List.replicate (8 - gs.length) 0 ++ gs.drop e
  else if ellipsis.isSome then none
  else some gs

def zeroGroups : Groups := ⟨List.replicate 8 0, rfl⟩

def withGroups (gs : List UInt16) (zone : Bytes) : Option Addr :=
  if h : gs.length = 8 then some (.v6 ⟨gs, h⟩ zone) else none

def finish (zone : Bytes) : Option (List UInt16 × Option Nat × Bytes) → Option Addr
  | some (gs, ellipsis, []) => (expand gs ellipsis).bind fun gs => withGroups gs zone
  | _ => none

def parseBody (s zone : Bytes) : Option Addr :=
  if (lit "::").isPrefixOf s then
    if s.drop 2 = [] then some (.v6 zeroGroups zone) else finish zone (parseGroups 8 [] (some 0) (s.drop 2))
  else finish zone (parseGroups 8 [] none s)

def parseIPv6 (s : Bytes) : Option Addr :=
  match cut 37 s with
  | (body, none) => parseBody body []
  | (_, some []) => none
  | (body, some zone) => parseBody body zone

def special (c : UInt8) : Bool := c == 46 || c == 58 || c == 37

def parseAddr (s : Bytes) : Option Addr :=
  match s.find? special with
  | some 46 => parseIPv4 s
  | some 58 => parseIPv6 s
  | _ => none

def decimalText (x : Nat) : Bytes :=
  (if x ≥ 100 then [digit (x / 100)] else []) ++ (if x ≥ 10 then [digit (x / 10 % 10)] else []) ++ [digit (x % 10)]

def hexText (x : Nat) : Bytes :=
  (if x ≥ 0x1000 then [digit (x / 0x1000)] else []) ++ (if x ≥ 0x100 then [digit (x / 0x100 % 16)] else []) ++
    (if x ≥ 0x10 then [digit (x / 0x10 % 16)] else []) ++ [digit (x % 16)]

def text4 (a b c d : UInt8) : Bytes :=
  List.intercalate [46] [decimalText a.toNat, decimalText b.toNat, decimalText c.toNat, decimalText d.toNat]

def joined (gs : List UInt16) : Bytes := List.intercalate [58] (gs.map fun g => hexText g.toNat)

def zeroesAt (gs : List UInt16) (i : Nat) : Nat := ((gs.drop i).takeWhile (· = 0)).length

def zeroRun (gs : List UInt16) : Nat × Nat :=
  (List.range 8).foldl
    (fun best i => if zeroesAt gs i ≥ 2 ∧ zeroesAt gs i > best.2 then (i, zeroesAt gs i) else best) (0, 0)

def groupsText (gs : List UInt16) : Bytes :=
  let run := zeroRun gs
  if run.2 = 0 then joined gs else joined (gs.take run.1) ++ [58, 58] ++ joined (gs.drop (run.1 + run.2))

def high (g : UInt16) : UInt8 := (g.toNat / 256).toUInt8

def low (g : UInt16) : UInt8 := (g.toNat % 256).toUInt8

def zoneText (zone : Bytes) : Bytes := if zone = [] then [] else 37 :: zone

def text : Addr → Bytes
  | .v4 a b c d => text4 a b c d
  | .v6 groups zone =>
    match groups.val with
    | [0, 0, 0, 0, 0, 0xffff, g, g'] => lit "::ffff:" ++ text4 (high g) (low g) (high g') (low g') ++ zoneText zone
    | gs => groupsText gs ++ zoneText zone

def unmap : Addr → Addr
  | .v4 a b c d => .v4 a b c d
  | .v6 groups zone =>
    match groups.val with
    | [0, 0, 0, 0, 0, 0xffff, g, g'] => .v4 (high g) (low g) (high g') (low g')
    | _ => .v6 groups zone

structure Prefix where
  addr : Addr
  bits : Nat

def width : Addr → Nat
  | .v4 .. => 32
  | .v6 .. => 128

def zoned : Addr → Bool
  | .v4 .. => false
  | .v6 _ zone => zone ≠ []

def value : Addr → Nat
  | .v4 a b c d => [a, b, c, d].foldl (fun n x => n * 256 + x.toNat) 0
  | .v6 groups _ => groups.val.foldl (fun n g => n * 65536 + g.toNat) 0

def parsePrefix (s : Bytes) : Option Prefix :=
  match cutLast 47 s with
  | none => none
  | some (body, bits) =>
    match parseAddr body with
    | none => none
    | some addr =>
      if zoned addr then none
      else if bits.length > 1 ∧ ¬ (49 ≤ bits.headD 0 ∧ bits.headD 0 ≤ 57) then none
      else if (atoi bits).failed then none
      else if (atoi bits).value < 0 ∨ (atoi bits).value > width addr then none
      else some ⟨addr, (atoi bits).value.toNat⟩

def Prefix.contains (p : Prefix) (a : Addr) : Bool :=
  !zoned a && width p.addr == width a &&
    value p.addr / 2 ^ (width a - p.bits) == value a / 2 ^ (width a - p.bits)

def splitHostPort (s : Bytes) : Option (Bytes × Bytes) :=
  match cutLast 58 s with
  | none => none
  | some (before, port) =>
    if s.head? = some 91 then
      let opened := (cut 93 s).1
      if before = opened ++ [93] ∧ 91 ∉ s.tail ∧ 93 ∉ port then some (opened.tail, port) else none
    else if 58 ∈ before ∨ 91 ∈ s ∨ 93 ∈ s then none
    else some (before, port)

def joinHostPort (host port : Bytes) : Bytes :=
  if 58 ∈ host then 91 :: (host ++ 93 :: 58 :: port) else host ++ 58 :: port

section digits

variable {d val n acc off x : Nat} {s : Bytes} {fields : List UInt8} {c : UInt8}

theorem digit_table : (List.range 16).all (fun d =>
    hexDigit (digit d) == some d && special (digit d) == false &&
      (decide (d < 10) == decimal (digit d)) && decide (d < 10 → (digit d).toNat - 48 = d)) = true := by
  decide +kernel

theorem digit_spec (h : d < 16) : hexDigit (digit d) = some d ∧ special (digit d) = false ∧
    (d < 10 → decimal (digit d) = true ∧ (digit d).toNat - 48 = d) := by
  have hd := all_eq_true.mp digit_table d (mem_range.mpr h)
  simp only [Bool.and_eq_true, beq_iff_eq, decide_eq_true_eq] at hd
  obtain ⟨⟨⟨hhex, hspecial⟩, hdecimal⟩, hvalue⟩ := hd
  exact ⟨hhex, hspecial, fun hlt => ⟨hdecimal ▸ decide_eq_true hlt, hvalue hlt⟩⟩

def Hex (c : UInt8) : Prop := ∃ d < 16, c = digit d

theorem Hex.plain (h : Hex c) : special c = false := by
  obtain ⟨d, hd, rfl⟩ := h
  exact (digit_spec hd).2.1

theorem parseFields_digit (h : d < 10) (hzero : ¬ (n = 1 ∧ val = 0)) (hval : val * 10 + d ≤ 255) :
    parseFields (digit d :: s) fields val n = parseFields s fields (val * 10 + d) (n + 1) := by
  obtain ⟨_, _, hten⟩ := digit_spec (Nat.lt_trans h (by decide : 10 < 16))
  obtain ⟨hdecimal, hvalue⟩ := hten h
  rw [parseFields, if_pos hdecimal, if_neg hzero, hvalue, if_neg (not_lt.mpr hval)]

theorem parseFields_octet (hx : x < 256) (s : Bytes) (fields : List UInt8) :
    ∃ n, 0 < n ∧ parseFields (decimalText x ++ s) fields 0 0 = parseFields s fields x n := by
  rw [decimalText]
  by_cases hlarge : x ≥ 100
  · rw [if_pos hlarge, if_pos (by omega)]
    refine ⟨3, by decide, ?_⟩
    change parseFields (digit (x / 100) :: digit (x / 10 % 10) :: digit (x % 10) :: s) fields 0 0 = _
    rw [parseFields_digit (by omega) (by omega) (by omega), parseFields_digit (by omega) (by omega) (by omega),
      parseFields_digit (by omega) (by omega) (by omega)]
    congr 1
    omega
  · rw [if_neg hlarge]
    by_cases hsmall : x ≥ 10
    · rw [if_pos hsmall]
      refine ⟨2, by decide, ?_⟩
      change parseFields (digit (x / 10 % 10) :: digit (x % 10) :: s) fields 0 0 = _
      rw [parseFields_digit (by omega) (by omega) (by omega), parseFields_digit (by omega) (by omega) (by omega)]
      congr 1
      omega
    · rw [if_neg hsmall]
      refine ⟨1, by decide, ?_⟩
      change parseFields (digit (x % 10) :: s) fields 0 0 = _
      rw [parseFields_digit (by omega) (by omega) (by omega)]
      congr 1
      omega

theorem parseFields_dot (hn : 0 < n) (hs : s ≠ []) (hfields : fields.length < 3) :
    parseFields (46 :: s) fields val n = parseFields s (fields ++ [val.toUInt8]) 0 0 := by
  rw [parseFields, if_neg (by decide), if_pos rfl, if_neg (by simp [hs]; omega), if_neg (by omega)]

theorem decimalText_ne_nil (x : Nat) : decimalText x ≠ [] := by
  rw [decimalText]
  exact append_ne_nil_of_right_ne_nil _ (cons_ne_nil _ _)

theorem parseIPv4_text (a b c d : UInt8) : parseIPv4 (text4 a b c d) = some (.v4 a b c d) := by
  have hdotted : text4 a b c d = decimalText a.toNat ++ 46 :: (decimalText b.toNat ++ 46 :: (decimalText c.toNat ++
      46 :: (decimalText d.toNat ++ []))) := by
    simp [text4, List.intercalate]
  have hne : ∀ x : UInt8, ∀ t, decimalText x.toNat ++ t ≠ [] := fun x t =>
    append_ne_nil_of_left_ne_nil (decimalText_ne_nil _) _
  have hback : ∀ x : UInt8, x.toNat.toUInt8 = x := fun x => UInt8.ofNat_toNat
  obtain ⟨n, hn, ha⟩ := parseFields_octet a.toNat_lt (46 :: (decimalText b.toNat ++ 46 :: (decimalText c.toNat ++
      46 :: (decimalText d.toNat ++ [])))) []
  obtain ⟨n', hn', hb⟩ := parseFields_octet b.toNat_lt (46 :: (decimalText c.toNat ++
      46 :: (decimalText d.toNat ++ []))) [a]
  obtain ⟨m, hm, hc⟩ := parseFields_octet c.toNat_lt (46 :: (decimalText d.toNat ++ [])) [a, b]
  obtain ⟨m', hm', hd⟩ := parseFields_octet d.toNat_lt [] [a, b, c]
  have hall : parseFields (text4 a b c d) [] 0 0 = some [a, b, c, d] := by
    rw [hdotted, ha, parseFields_dot hn (hne b _) (by decide), hback]
    change parseFields _ [a] 0 0 = _
    rw [hb, parseFields_dot hn' (hne c _) (by simp), hback]
    change parseFields _ [a, b] 0 0 = _
    rw [hc, parseFields_dot hm (hne d _) (by simp), hback]
    change parseFields _ [a, b, c] 0 0 = _
    rw [hd, parseFields, if_neg (by simp), hback]
    rfl
  rw [parseIPv4, hall]

theorem hexText_digits (hx : x < 65536) : ∃ ds : List Nat, hexText x = ds.map digit ∧ (∀ d ∈ ds, d < 16) ∧
    ds ≠ [] ∧ ds.length ≤ 4 ∧ ds.foldl (fun acc d => acc * 16 + d) 0 = x := by
  rw [hexText]
  by_cases hfour : x ≥ 0x1000
  · rw [if_pos hfour, if_pos (by omega), if_pos (by omega)]
    refine ⟨[x / 0x1000, x / 0x100 % 16, x / 0x10 % 16, x % 16], rfl, ?_, cons_ne_nil _ _, by simp, ?_⟩
    · simp only [forall_mem_cons, not_mem_nil, false_imp_iff, implies_true, and_true]
      omega
    · simp only [List.foldl]
      omega
  · rw [if_neg hfour]
    by_cases hthree : x ≥ 0x100
    · rw [if_pos hthree, if_pos (by omega)]
      refine ⟨[x / 0x100 % 16, x / 0x10 % 16, x % 16], rfl, ?_, cons_ne_nil _ _, by simp, ?_⟩
      · simp only [forall_mem_cons, not_mem_nil, false_imp_iff, implies_true, and_true]
        omega
      · simp only [List.foldl]
        omega
    · rw [if_neg hthree]
      by_cases htwo : x ≥ 0x10
      · rw [if_pos htwo]
        refine ⟨[x / 0x10 % 16, x % 16], rfl, ?_, cons_ne_nil _ _, by simp, ?_⟩
        · simp only [forall_mem_cons, not_mem_nil, false_imp_iff, implies_true, and_true]
          omega
        · simp only [List.foldl]
          omega
      · rw [if_neg htwo]
        refine ⟨[x % 16], rfl, ?_, cons_ne_nil _ _, by simp, ?_⟩
        · simp only [forall_mem_cons, not_mem_nil, false_imp_iff, implies_true, and_true]
          omega
        · simp only [List.foldl]
          omega

theorem readHex_digits {ds : List Nat} (hds : ∀ d ∈ ds, d < 16) (hacc : acc < 16 ^ off)
    (hlen : off + ds.length ≤ 4) (s : Bytes) : readHex (ds.map digit ++ s) acc off =
      readHex s (ds.foldl (fun acc d => acc * 16 + d) acc) (off + ds.length) := by
  induction ds generalizing acc off with
  | nil => rfl
  | cons d ds ih =>
    rw [length_cons] at hlen
    have hd := hds d mem_cons_self
    have hnext : acc * 16 + d < 16 ^ (off + 1) := by
      rw [Nat.pow_succ]
      omega
    have hcap : 16 ^ (off + 1) ≤ 16 ^ 4 := Nat.pow_le_pow_right (by decide) (by omega)
    rw [map_cons, cons_append, readHex, (digit_spec hd).1]
    dsimp only
    rw [if_neg (by omega), if_neg (by omega),
      ih (fun d' hd' => hds d' (mem_cons_of_mem d hd')) hnext (by omega), foldl_cons, length_cons,
      Nat.add_assoc, Nat.add_comm 1]

def stops (s : Bytes) : Prop := ∀ c, s.head? = some c → hexDigit c = none

theorem readHex_stop (h : stops s) (acc off : Nat) : readHex s acc off = some (acc, off, s) := by
  cases s with
  | nil => rfl
  | cons c s => rw [readHex, h c rfl]

theorem readHex_text (hx : x < 65536) (h : stops s) :
    ∃ n, 0 < n ∧ readHex (hexText x ++ s) 0 0 = some (x, n, s) := by
  obtain ⟨ds, htext, hds, hne, hlen, hvalue⟩ := hexText_digits hx
  refine ⟨0 + ds.length, ?_, ?_⟩
  · have := length_pos_of_ne_nil hne
    omega
  · rw [htext, readHex_digits hds (by decide) (by omega), readHex_stop h, hvalue]

theorem hexText_hex (hx : x < 65536) : hexText x ≠ [] ∧ ∀ c ∈ hexText x, Hex c := by
  obtain ⟨ds, htext, hds, hne, _⟩ := hexText_digits hx
  rw [htext]
  refine ⟨fun hnil => hne (map_eq_nil_iff.mp hnil), fun c hc => ?_⟩
  obtain ⟨d, hd, rfl⟩ := mem_map.mp hc
  exact ⟨d, hds d hd, rfl⟩

theorem decimalText_hex (hx : x < 256) : ∀ c ∈ decimalText x, Hex c := by
  have hdigit : ∀ d, d < 16 → ∀ c ∈ [digit d], Hex c := fun d hd c hc => ⟨d, hd, mem_singleton.mp hc⟩
  have hpart : ∀ (p : Prop) [Decidable p] (d : Nat), d < 16 → ∀ c ∈ (if p then [digit d] else []), Hex c := by
    intro p _ d hd c hc
    split at hc
    · exact hdigit d hd c hc
    · exact absurd hc not_mem_nil
  intro c hc
  rw [decimalText, mem_append, mem_append] at hc
  rcases hc with (hin | hin) | hin
  · exact hpart _ _ (by omega) c hin
  · exact hpart _ _ (by omega) c hin
  · exact hdigit _ (by omega) c hin

theorem text4_chars (a b c d : UInt8) : ∀ x ∈ text4 a b c d, Hex x ∨ x = 46 := by
  intro x hx
  simp only [text4, intercalate_cons_cons, intercalate_singleton, mem_append, mem_singleton] at hx
  rcases hx with (hin | rfl) | (hin | rfl) | (hin | rfl) | hin
  · exact .inl (decimalText_hex a.toNat_lt x hin)
  · exact .inr rfl
  · exact .inl (decimalText_hex b.toNat_lt x hin)
  · exact .inr rfl
  · exact .inl (decimalText_hex c.toNat_lt x hin)
  · exact .inr rfl
  · exact .inl (decimalText_hex d.toNat_lt x hin)

theorem parseFields_foreign (hc : c ∈ s) (hdecimal : decimal c = false) (hdot : c ≠ 46) :
    parseFields s fields val n = none := by
  induction s generalizing fields val n with
  | nil => exact absurd hc not_mem_nil
  | cons x s ih =>
    rw [parseFields]
    rcases mem_cons.mp hc with rfl | hin
    · rw [if_neg (by rw [hdecimal]; exact Bool.false_ne_true), if_neg hdot]
    · split
      · split
        · rfl
        · split
          · rfl
          · exact ih hin
      · split
        · split
          · rfl
          · split
            · rfl
            · exact ih hin
        · rfl

end digits

section groups

variable {n : Nat} {gs as bs : List UInt16} {ellipsis : Option Nat} {g : UInt16} {s zone : Bytes}

def groupText (g : UInt16) : Bytes := hexText g.toNat

theorem group_back (g : UInt16) : g.toNat.toUInt16 = g := UInt16.ofNat_toNat

theorem joined_cons (g g' : UInt16) (gs : List UInt16) :
    joined (g :: g' :: gs) = groupText g ++ 58 :: joined (g' :: gs) := by
  rw [joined, map_cons, map_cons, intercalate_cons_cons, append_assoc]
  rfl

theorem joined_single (g : UInt16) : joined [g] = groupText g := append_nil _

theorem groupText_spec (g : UInt16) : ∃ c rest, groupText g = c :: rest ∧ ∀ x ∈ c :: rest, Hex x := by
  obtain ⟨hne, hplain⟩ := hexText_hex g.toNat_lt
  obtain ⟨c, rest, htext⟩ := exists_cons_of_ne_nil hne
  exact ⟨c, rest, htext, fun x hx => hplain x (htext ▸ hx)⟩

theorem joined_head (h : gs ≠ []) : ∃ c rest, joined gs = c :: rest ∧ special c = false := by
  cases gs with
  | nil => exact absurd rfl h
  | cons g gs =>
    obtain ⟨c, rest, htext, hplain⟩ := groupText_spec g
    have hc := (hplain c mem_cons_self).plain
    cases gs with
    | nil => exact ⟨c, rest, (joined_single g).trans htext, hc⟩
    | cons g' gs => exact ⟨c, _, by rw [joined_cons, htext, cons_append], hc⟩

theorem not_colon {c : UInt8} (h : special c = false) : c ≠ 58 := by
  rintro rfl
  exact absurd h (by decide)

theorem parseGroups_last (n : Nat) (gs : List UInt16) (ellipsis : Option Nat) (g : UInt16) :
    parseGroups (n + 1) gs ellipsis (groupText g) = some (gs ++ [g], ellipsis, []) := by
  obtain ⟨off, hoff, hread⟩ := readHex_text (s := []) g.toNat_lt nofun
  rw [append_nil] at hread
  rw [parseGroups, groupText, hread]
  dsimp only
  rw [if_neg (Nat.ne_of_gt hoff), if_neg nofun, group_back]

theorem parseGroups_colon (hs : s ≠ []) : parseGroups (n + 1) gs ellipsis (groupText g ++ 58 :: s) =
    if s.head? = some 58 then
      if ellipsis.isSome then none
      else if s.tail = [] then some (gs ++ [g], some (gs.length + 1), [])
      else parseGroups n (gs ++ [g]) (some (gs.length + 1)) s.tail
    else parseGroups n (gs ++ [g]) ellipsis s := by
  have hstops : stops (58 :: s) := by
    intro c hc
    cases hc
    decide
  obtain ⟨off, hoff, hread⟩ := readHex_text g.toNat_lt hstops
  rw [parseGroups, groupText, hread]
  dsimp only
  rw [if_neg (Nat.ne_of_gt hoff), if_neg (by simp), if_neg (by simp [hs]), group_back]

theorem parseGroups_joined (hbs : bs ≠ []) (hn : bs.length ≤ n) :
    parseGroups n gs ellipsis (joined bs) = some (gs ++ bs, ellipsis, []) := by
  induction bs generalizing n gs with
  | nil => exact absurd rfl hbs
  | cons g bs ih =>
    cases n with
    | zero => exact absurd hn (by simp)
    | succ n =>
      cases bs with
      | nil =>
        rw [joined_single, parseGroups_last]
      | cons g' bs =>
        obtain ⟨c, rest, htext, hc⟩ := joined_head (cons_ne_nil g' bs)
        have hhead : ¬ (joined (g' :: bs)).head? = some 58 := by
          rw [htext]
          exact fun heq => not_colon hc (Option.some.inj heq)
        have hne : joined (g' :: bs) ≠ [] := by
          rw [htext]
          exact cons_ne_nil c rest
        rw [joined_cons, parseGroups_colon hne, if_neg hhead,
          ih (cons_ne_nil g' bs) (Nat.le_of_succ_le_succ hn), append_assoc, singleton_append]

theorem parseGroups_split (has : as ≠ []) (hn : as.length + bs.length ≤ n) :
    parseGroups n gs none (joined as ++ 58 :: 58 :: joined bs) =
      some (gs ++ as ++ bs, some (gs.length + as.length), []) := by
  induction as generalizing n gs with
  | nil => exact absurd rfl has
  | cons g as ih =>
    cases n with
    | zero => exact absurd hn (by simp)
    | succ n =>
      rw [length_cons] at hn
      cases as with
      | nil =>
        rw [joined_single, parseGroups_colon (cons_ne_nil _ _), head?_cons, if_pos rfl, if_neg (by simp),
          tail_cons]
        cases bs with
        | nil =>
          rw [if_pos (show joined [] = [] from rfl), append_nil]
          rfl
        | cons b bs =>
          obtain ⟨c, rest, htext, _⟩ := joined_head (cons_ne_nil b bs)
          have hne : joined (b :: bs) ≠ [] := by
            rw [htext]
            exact cons_ne_nil c rest
          have hfits : (b :: bs).length ≤ n := by
            change 0 + 1 + (b :: bs).length ≤ n + 1 at hn
            omega
          rw [if_neg hne, parseGroups_joined (cons_ne_nil b bs) hfits]
          rfl
      | cons g' as =>
        obtain ⟨c, rest, htext, hc⟩ := joined_head (cons_ne_nil g' as)
        have hhead : ¬ (joined (g' :: as) ++ 58 :: 58 :: joined bs).head? = some 58 := by
          rw [htext]
          exact fun heq => not_colon hc (Option.some.inj heq)
        rw [joined_cons, append_assoc, cons_append,
          parseGroups_colon (append_ne_nil_of_right_ne_nil _ (cons_ne_nil _ _)), if_neg hhead,
          ih (cons_ne_nil g' as) (by omega)]
        have hlen : (gs ++ [g]).length + (g' :: as).length = gs.length + (g :: g' :: as).length := by
          simp only [length_append, length_cons, length_nil]
          omega
        rw [hlen, append_assoc gs, singleton_append]

theorem zeroesAt_spec (gs : List UInt16) (i : Nat) :
    gs.take i ++ List.replicate (zeroesAt gs i) 0 ++ gs.drop (i + zeroesAt gs i) = gs := by
  have hzero : (gs.drop i).takeWhile (· = 0) = List.replicate (zeroesAt gs i) 0 := by
    rw [eq_replicate_iff]
    exact ⟨rfl, fun g hg => of_decide_eq_true (mem_takeWhile_imp (p := fun g => decide (g = 0)) hg)⟩
  have hrest : (gs.drop i).dropWhile (· = 0) = gs.drop (i + zeroesAt gs i) := by
    rw [← drop_drop]
    have hsplit := takeWhile_append_dropWhile (p := fun g : UInt16 => decide (g = 0)) (l := gs.drop i)
    have hdrop := congrArg (List.drop (zeroesAt gs i)) hsplit
    rw [zeroesAt, drop_left] at hdrop
    exact hdrop
  rw [append_assoc, ← hzero, ← hrest, takeWhile_append_dropWhile, take_append_drop]

def ZeroRun (gs : List UInt16) (run : Nat × Nat) : Prop :=
  run.2 = 0 ∨ 2 ≤ run.2 ∧ gs.take run.1 ++ List.replicate run.2 0 ++ gs.drop (run.1 + run.2) = gs

theorem zeroRun_spec (gs : List UInt16) : ZeroRun gs (zeroRun gs) := by
  have hrun : ∀ (is : List Nat) (best : Nat × Nat), ZeroRun gs best → ZeroRun gs (is.foldl
      (fun best i => if zeroesAt gs i ≥ 2 ∧ zeroesAt gs i > best.2 then (i, zeroesAt gs i) else best) best) := by
    intro is
    induction is with
    | nil => exact fun best h => h
    | cons i is ih =>
      intro best h
      refine ih _ ?_
      dsimp only
      split
      case isTrue hlong => exact .inr ⟨hlong.1, zeroesAt_spec gs i⟩
      case isFalse => exact h
  exact hrun (List.range 8) (0, 0) (.inl rfl)

theorem expand_full (h : gs.length = 8) : expand gs none = some gs := by
  rw [expand, if_neg (by omega)]
  rfl

theorem withGroups_val (groups : Groups) (zone : Bytes) : withGroups groups.val zone = some (.v6 groups zone) :=
  dif_pos groups.property

theorem joined_not_leading (t : Bytes) (h : as ≠ []) : (lit "::").isPrefixOf (joined as ++ t) = false := by
  obtain ⟨c, rest, htext, hc⟩ := joined_head h
  rw [htext]
  change (58 == c && _) = false
  rw [beq_eq_false_iff_ne.mpr (not_colon hc).symm, Bool.false_and]

theorem expand_at (as : List UInt16) (h : (as ++ bs).length < 8) : expand (as ++ bs) (some as.length) =
    some (as ++ List.replicate (8 - (as ++ bs).length) 0 ++ bs) := by
  rw [expand, if_pos h, Option.map_some, take_left, drop_left]

theorem parseBody_run {groups : Groups} {l : Nat} (hl : 2 ≤ l) (hsplit : as ++ List.replicate l 0 ++ bs = groups.val)
    (zone : Bytes) : parseBody (joined as ++ 58 :: 58 :: joined bs) zone = some (.v6 groups zone) := by
  have hlen : as.length + l + bs.length = 8 := by
    rw [← groups.property, ← hsplit, length_append, length_append, length_replicate]
  have hroom : 8 - (as ++ bs).length = l := by
    rw [length_append]
    omega
  have hshort : (as ++ bs).length < 8 := by
    rw [length_append]
    omega
  have hwhole : finish zone (some (as ++ bs, some as.length, [])) = some (.v6 groups zone) := by
    rw [finish, expand_at as hshort, hroom, hsplit]
    exact withGroups_val groups zone
  by_cases has : as = []
  · subst has
    rw [parseBody, if_pos (show (lit "::").isPrefixOf (joined [] ++ 58 :: 58 :: joined bs) = true from rfl)]
    change (if joined bs = [] then _ else finish zone (parseGroups 8 [] (some 0) (joined bs))) = _
    by_cases hbs : bs = []
    · subst hbs
      rw [if_pos (show joined [] = [] from rfl)]
      have hzero : groups = zeroGroups := by
        refine Subtype.ext ?_
        rw [← hsplit, append_nil, nil_append, show l = 8 from by simpa using hlen]
        rfl
      rw [hzero]
    · obtain ⟨c, rest, htext, _⟩ := joined_head hbs
      rw [if_neg (by rw [htext]; exact cons_ne_nil c rest), parseGroups_joined hbs (by omega)]
      exact hwhole
  · rw [parseBody, joined_not_leading _ has, if_neg Bool.false_ne_true, parseGroups_split has (by omega),
      length_nil, Nat.zero_add, nil_append]
    exact hwhole

theorem parseBody_text (groups : Groups) (zone : Bytes) :
    parseBody (groupsText groups.val) zone = some (.v6 groups zone) := by
  have hlen := groups.property
  rw [groupsText]
  obtain hnone | ⟨htwo, hsplit⟩ := zeroRun_spec groups.val
  · have hne : groups.val ≠ [] := ne_nil_of_length_pos (by omega)
    have hlead := joined_not_leading [] hne
    rw [append_nil] at hlead
    rw [if_pos hnone, parseBody, hlead, if_neg Bool.false_ne_true, parseGroups_joined hne hlen.le, nil_append,
      finish, expand_full hlen]
    exact withGroups_val groups zone
  · rw [if_neg (by omega), append_assoc]
    exact parseBody_run htwo hsplit zone

theorem joined_chars (gs : List UInt16) : ∀ c ∈ joined gs, Hex c ∨ c = 58 := by
  induction gs with
  | nil => exact fun c hc => absurd hc not_mem_nil
  | cons g gs ih =>
    obtain ⟨c, rest, htext, hplain⟩ := groupText_spec g
    have hgroup : ∀ x ∈ groupText g, Hex x ∨ x = 58 := fun x hx => .inl (hplain x (htext ▸ hx))
    cases gs with
    | nil => exact joined_single g ▸ hgroup
    | cons g' gs =>
      intro x hx
      rw [joined_cons, mem_append, mem_cons] at hx
      rcases hx with hin | rfl | hin
      · exact hgroup x hin
      · exact .inr rfl
      · exact ih x hin

theorem groupsText_chars (gs : List UInt16) : ∀ c ∈ groupsText gs, Hex c ∨ c = 58 := by
  intro c hc
  rw [groupsText] at hc
  split at hc
  · exact joined_chars gs c hc
  · rw [mem_append, mem_append] at hc
    rcases hc with (hin | hin) | hin
    · exact joined_chars _ c hin
    · exact .inr (by simpa using hin)
    · exact joined_chars _ c hin

theorem groupsText_colon (groups : Groups) : 58 ∈ groupsText groups.val := by
  rw [groupsText]
  split
  · obtain ⟨g, g', gs, hgs⟩ : ∃ g g' gs, groups.val = g :: g' :: gs := by
      obtain ⟨gs, hlen⟩ := groups
      match gs, hlen with
      | g :: g' :: gs, _ => exact ⟨g, g', gs, rfl⟩
    rw [hgs, joined_cons]
    exact mem_append_right _ mem_cons_self
  · exact mem_append_left _ (mem_append_right _ mem_cons_self)

theorem find_colon {t : Bytes} (h : ∀ c ∈ s, Hex c ∨ c = 58) (hin : 58 ∈ s) :
    (s ++ t).find? special = some 58 := by
  induction s with
  | nil => exact absurd hin not_mem_nil
  | cons c s ih =>
    rw [cons_append, find?_cons]
    rcases h c mem_cons_self with hhex | rfl
    · rw [hhex.plain]
      have hne : c ≠ 58 := not_colon hhex.plain
      exact ih (fun x hx => h x (mem_cons_of_mem c hx)) ((mem_cons.mp hin).resolve_left hne.symm)
    · rfl

theorem parseIPv6_text (groups : Groups) (zone : Bytes) :
    parseIPv6 (groupsText groups.val ++ zoneText zone) = some (.v6 groups zone) := by
  have hfree : 37 ∉ groupsText groups.val := by
    intro hin
    rcases groupsText_chars groups.val 37 hin with hhex | heq
    · exact absurd hhex.plain (by decide)
    · exact absurd heq (by decide)
  rw [parseIPv6, zoneText]
  cases zone with
  | nil =>
    rw [if_pos rfl, cut_append hfree, cut]
    dsimp only
    rw [append_nil]
    exact parseBody_text groups []
  | cons z zone =>
    rw [if_neg (cons_ne_nil z zone), cut_at hfree]
    exact parseBody_text groups (z :: zone)

end groups

section hosts

variable {host port : Bytes}

theorem splitHostPort_plain (hhost : 58 ∉ host ∧ 91 ∉ host ∧ 93 ∉ host) (hport : 58 ∉ port ∧ 91 ∉ port ∧ 93 ∉ port) :
    splitHostPort (host ++ 58 :: port) = some (host, port) := by
  have hfree : ∀ c, c ≠ 58 → c ∉ host → c ∉ port → c ∉ host ++ 58 :: port := by
    intro c hc hin hin'
    rw [mem_append, mem_cons, not_or, not_or]
    exact ⟨hin, hc, hin'⟩
  have hopen := hfree 91 (by decide) hhost.2.1 hport.2.1
  have hclose := hfree 93 (by decide) hhost.2.2 hport.2.2
  rw [splitHostPort, cutLast_at hport.1]
  dsimp only
  rw [if_neg fun hhead => hopen (mem_of_head? hhead), if_neg]
  rintro (hin | hin | hin)
  · exact hhost.1 hin
  · exact hopen hin
  · exact hclose hin

theorem splitHostPort_bracket (hhost : 91 ∉ host ∧ 93 ∉ host) (hport : 58 ∉ port ∧ 91 ∉ port ∧ 93 ∉ port) :
    splitHostPort (91 :: (host ++ 93 :: 58 :: port)) = some (host, port) := by
  have hshape : 91 :: (host ++ 93 :: 58 :: port) = (91 :: (host ++ [93])) ++ 58 :: port := by simp
  have hcut : (cut 93 (91 :: (host ++ 93 :: 58 :: port))).1 = 91 :: host := by
    change (91 :: (cut 93 (host ++ 93 :: 58 :: port)).1) = _
    rw [cut_at hhost.2]
  have hlast : cutLast 58 (91 :: (host ++ 93 :: 58 :: port)) = some (91 :: (host ++ [93]), port) := by
    rw [hshape]
    exact cutLast_at hport.1
  rw [splitHostPort, hlast]
  dsimp only
  rw [head?_cons, if_pos rfl, hcut, if_pos]
  · rfl
  · refine ⟨rfl, ?_, hport.2.2⟩
    rw [tail_cons, mem_append, mem_cons, mem_cons, not_or, not_or, not_or]
    exact ⟨hhost.1, by decide, by decide, hport.2.1⟩

end hosts

section addresses

variable {a b : Addr}

theorem text4_first (a b c d : UInt8) : (text4 a b c d).find? special = some 46 := by
  have hnone : (decimalText a.toNat).find? special = none := by
    rw [find?_eq_none]
    exact fun c hc htrue => Bool.false_ne_true ((decimalText_hex a.toNat_lt c hc).plain.symm.trans htrue)
  rw [text4, intercalate_cons_cons, append_assoc, find?_append, hnone]
  rfl

theorem parseAddr_text4 (a b c d : UInt8) : parseAddr (text4 a b c d) = some (.v4 a b c d) := by
  rw [parseAddr, text4_first]
  exact parseIPv4_text a b c d

theorem text_v6 {groups : Groups} {zone : Bytes} (h : unmap (.v6 groups zone) = .v6 groups zone) :
    text (.v6 groups zone) = groupsText groups.val ++ zoneText zone := by
  rw [text]
  split
  case h_1 g g' hmapped =>
    rw [unmap, hmapped] at h
    cases h
  case h_2 => rfl

theorem unmap_unmap (a : Addr) : unmap (unmap a) = unmap a := by
  cases a with
  | v4 a b c d => rfl
  | v6 groups zone =>
    rw [unmap]
    split
    · rfl
    case h_2 hplain =>
      rw [unmap]
      split
      case h_1 g g' hmapped => exact absurd hmapped (hplain g g')
      case h_2 => rfl

theorem parseAddr_text (h : unmap a = a) : parseAddr (text a) = some a := by
  cases a with
  | v4 a b c d => exact parseAddr_text4 a b c d
  | v6 groups zone =>
    rw [text_v6 h, parseAddr, find_colon (groupsText_chars groups.val) (groupsText_colon groups)]
    exact parseIPv6_text groups zone

theorem parseAddr_foreign4 {t : Bytes} (a b c d : UInt8) (h : 58 ∈ t) : parseAddr (text4 a b c d ++ t) = none := by
  have hfirst : (text4 a b c d ++ t).find? special = some 46 := by
    rw [find?_append, text4_first]
    rfl
  have hnone : parseFields (text4 a b c d ++ t) [] 0 0 = none :=
    parseFields_foreign (mem_append_right _ h) (by decide) (by decide)
  rw [parseAddr, hfirst]
  change parseIPv4 (text4 a b c d ++ t) = none
  rw [parseIPv4, hnone]

theorem parseAddr_bracket (s : Bytes) (h : s.find? special = some 58) : parseAddr (91 :: s) = none := by
  have hbody : ∀ body zone, parseBody (91 :: body) zone = none := fun body zone => rfl
  have hfirst : (91 :: s).find? special = some 58 := h
  have hcut : cut 37 (91 :: s) = (91 :: (cut 37 s).1, (cut 37 s).2) := rfl
  rw [parseAddr, hfirst]
  change parseIPv6 (91 :: s) = none
  rw [parseIPv6, hcut]
  cases (cut 37 s).2 with
  | none => exact hbody _ _
  | some zone =>
    cases zone with
    | nil => rfl
    | cons z zone => exact hbody _ _

end addresses

end NetAddr
