import QuiPanel.Library.Url

namespace Url

open ByteText

def segmentMarks : Bytes := lit "-_.~$&+:=@"

def segmentByte (c : UInt8) : Bool := lowerLetter c || upperLetter c || decimal c || segmentMarks.contains c

def upperHex (n : UInt8) : UInt8 := if n < 10 then n + 48 else n + 55

def escapeByte (c : UInt8) : Bytes := if segmentByte c then [c] else [37, upperHex (c / 16), upperHex (c % 16)]

def pathEscape (s : Bytes) : Bytes := s.flatMap escapeByte

section reading

variable {mode : Mode} {s t : Bytes} {c : UInt8}

def Mode.text (mode : Mode) : Prop := mode ≠ .host ∧ mode ≠ .zone

def spaced (mode : Mode) (c : UInt8) : UInt8 := if c = 43 ∧ mode = .queryComponent then 32 else c

theorem nibble {n : UInt8} (h : n < 16) :
    isHex (upperHex n) = true ∧ unhex (upperHex n) = n ∧ visible (upperHex n) = true := by
  have hall : (List.range 16).all (fun n => isHex (upperHex (UInt8.ofNat n)) &&
      (unhex (upperHex (UInt8.ofNat n)) == UInt8.ofNat n && visible (upperHex (UInt8.ofNat n)))) = true := by
    decide +kernel
  have hn := List.all_eq_true.mp hall n.toNat (List.mem_range.mpr (UInt8.lt_iff_toNat_lt.mp h))
  rw [UInt8.ofNat_toNat, Bool.and_eq_true, Bool.and_eq_true, beq_iff_eq] at hn
  exact hn

theorem high_lt (c : UInt8) : c / 16 < 16 := by
  have hc := c.toNat_lt
  simp only [UInt8.lt_iff_toNat_lt, UInt8.toNat_div, UInt8.reduceToNat]
  omega

theorem low_lt (c : UInt8) : c % 16 < 16 := by
  simp only [UInt8.lt_iff_toNat_lt, UInt8.toNat_mod, UInt8.reduceToNat]
  omega

theorem escaped_hex (c : UInt8) : escaped (upperHex (c / 16)) (upperHex (c % 16)) = c := by
  have hc := c.toNat_lt
  rw [escaped, (nibble (high_lt c)).2.1, (nibble (low_lt c)).2.1, ← UInt8.toNat_inj]
  simp only [UInt8.toNat_add, UInt8.toNat_mul, UInt8.toNat_div, UInt8.toNat_mod, UInt8.reduceToNat]
  omega

theorem segmentByte_visible {c : UInt8} (h : segmentByte c = true) : visible c = true := by
  have hmarks : ∀ c ∈ segmentMarks, visible c = true := by decide +kernel
  simp only [segmentByte, lowerLetter, upperLetter, decimal, Bool.or_eq_true, Bool.and_eq_true, decide_eq_true_eq,
    List.contains_iff_mem, UInt8.le_iff_toNat_le, UInt8.reduceToNat] at h
  rcases h with ((h | h) | h) | h
  all_goals first
    | exact hmarks c h
    | simp only [visible, Bool.and_eq_true, decide_eq_true_eq, UInt8.le_iff_toNat_le, UInt8.lt_iff_toNat_lt,
        UInt8.reduceToNat]
      omega

theorem escapeByte_visible (c : UInt8) : ∀ b ∈ escapeByte c, visible b = true := by
  rw [escapeByte]
  split
  case isTrue h => exact fun b hb => List.mem_singleton.mp hb ▸ segmentByte_visible h
  case isFalse =>
    simp only [List.forall_mem_cons, (nibble (high_lt c)).2.2, (nibble (low_lt c)).2.2, true_and]
    exact ⟨by decide, fun b hb => absurd hb List.not_mem_nil⟩

theorem pathEscape_visible (s : Bytes) : ∀ b ∈ pathEscape s, visible b = true := by
  intro b hb
  obtain ⟨c, -, hc⟩ := List.mem_flatMap.mp hb
  exact escapeByte_visible c b hc

theorem unescape_byte (hmode : mode.text) (h : c ≠ 37) (s : Bytes) :
    unescape mode (c :: s) = (unescape mode s).map (spaced mode c :: ·) := by
  have hallowed : byteAllowed mode c = true := by
    cases mode with
    | host => exact absurd rfl hmode.1
    | zone => exact absurd rfl hmode.2
    | _ => rfl
  rw [unescape.eq_def]
  split
  case h_1 heq => cases heq
  case h_2 heq => exact absurd (List.cons.inj heq).1 h
  case h_3 heq =>
    obtain ⟨rfl, rfl⟩ := List.cons.inj heq
    rw [if_neg h, spaced]
    split
    case isTrue => rfl
    case isFalse => rfl

theorem unescape_escaped (hmode : mode.text) (c : UInt8) (s : Bytes) :
    unescape mode (37 :: upperHex (c / 16) :: upperHex (c % 16) :: s) = (unescape mode s).map (c :: ·) := by
  have hhigh := (nibble (high_lt c)).1
  have hlow := (nibble (low_lt c)).1
  have hallowed : escapeAllowed mode (upperHex (c / 16)) (upperHex (c % 16)) = true := by
    cases mode with
    | host => exact absurd rfl hmode.1
    | zone => exact absurd rfl hmode.2
    | _ => rfl
  rw [unescape, hhigh, hlow, hallowed, escaped_hex]
  rfl

theorem unescape_escapeByte (hmode : mode.text) (c : UInt8) (s : Bytes) :
    unescape mode (escapeByte c ++ s) = (unescape mode s).map (spaced mode c :: ·) := by
  rw [escapeByte]
  split
  case isTrue hc =>
    have hpercent : c ≠ 37 := by
      rintro rfl
      exact absurd hc (by decide +kernel)
    exact unescape_byte hmode hpercent s
  case isFalse hc =>
    have hplus : c ≠ 43 := by
      rintro rfl
      exact hc (by decide +kernel)
    rw [spaced, if_neg fun h => hplus h.1]
    exact unescape_escaped hmode c s

theorem unescape_pathEscape (hmode : mode.text) (s : Bytes) :
    unescape mode (pathEscape s) = some (s.map (spaced mode)) := by
  induction s with
  | nil => rfl
  | cons c s ih =>
    have hcons : pathEscape (c :: s) = escapeByte c ++ pathEscape s := rfl
    rw [hcons, unescape_escapeByte hmode, ih]
    rfl

theorem spaced_fragment (s : Bytes) : s.map (spaced .fragment) = s := by
  refine (List.map_congr_left fun c _ => ?_).trans (List.map_id s)
  exact if_neg fun h => nomatch h.2

theorem spaced_query (s : Bytes) : s.map (spaced .queryComponent) = s ↔ 43 ∉ s := by
  induction s with
  | nil => exact ⟨fun _ => List.not_mem_nil, fun _ => rfl⟩
  | cons c s ih =>
    rw [List.map_cons, List.cons.injEq, ih, List.mem_cons, not_or]
    refine and_congr_left fun _ => ?_
    by_cases hc : c = 43
    · subst hc
      decide
    · rw [spaced, if_neg fun h => hc h.1]
      exact ⟨fun _ => Ne.symm hc, fun _ => rfl⟩

theorem fragment_pathEscape (s : Bytes) : unescape .fragment (pathEscape s) = some s := by
  have hmode : Mode.fragment.text := ⟨nofun, nofun⟩
  rw [unescape_pathEscape hmode, spaced_fragment]

theorem queryUnescape_pathEscape (s : Bytes) :
    queryUnescape (pathEscape s) = some (s.map (spaced .queryComponent)) := by
  have hmode : Mode.queryComponent.text := ⟨nofun, nofun⟩
  exact unescape_pathEscape hmode s

theorem unescape_plain (hmode : mode.text) (h : 37 ∉ s) : unescape mode s = some (s.map (spaced mode)) := by
  induction s with
  | nil => rfl
  | cons c s ih =>
    rw [List.mem_cons, not_or] at h
    rw [unescape_byte hmode (Ne.symm h.1), ih h.2]
    rfl

theorem unescape_length (h : unescape mode s = some t) :
    t.length ≤ s.length ∧ (t.length = s.length → 37 ∉ s) := by
  have hstep : ∀ {c : UInt8} {s t : Bytes} {b : UInt8}, c ≠ 37 → (unescape mode s).map (b :: ·) = some t →
      (∀ t', unescape mode s = some t' → t'.length ≤ s.length ∧ (t'.length = s.length → 37 ∉ s)) →
        t.length ≤ (c :: s).length ∧ (t.length = (c :: s).length → 37 ∉ c :: s) := by
    intro c s t b hc ht ih
    obtain ⟨t', ht', rfl⟩ := Option.map_eq_some_iff.mp ht
    obtain ⟨hle, hsame⟩ := ih t' ht'
    simp only [List.length_cons, List.mem_cons, not_or]
    exact ⟨Nat.succ_le_succ hle, fun hlen => ⟨hc.symm, hsame (Nat.succ.inj hlen)⟩⟩
  fun_induction unescape mode s generalizing t
  case case1 =>
    cases h
    exact ⟨le_refl _, fun _ => List.not_mem_nil⟩
  case case2 a b s _ ih =>
    obtain ⟨t', ht', rfl⟩ := Option.map_eq_some_iff.mp h
    have hle := (ih ht').1
    simp only [List.length_cons]
    exact ⟨by omega, fun hlen => by omega⟩
  case case3 => cases h
  case case4 => cases h
  case case5 _ hc _ ih => exact hstep hc h fun t' ht' => ih ht'
  case case6 _ hc _ _ ih => exact hstep hc h fun t' ht' => ih ht'
  case case7 => cases h

theorem queryUnescape_fixed : queryUnescape s = some s ↔ 37 ∉ s ∧ 43 ∉ s := by
  have hmode : Mode.queryComponent.text := ⟨nofun, nofun⟩
  constructor
  · intro h
    have hplain := (unescape_length h).2 rfl
    rw [queryUnescape, unescape_plain hmode hplain] at h
    exact ⟨hplain, (spaced_query s).mp (Option.some.inj h)⟩
  · rintro ⟨hpercent, hplus⟩
    rw [queryUnescape, unescape_plain hmode hpercent, (spaced_query s).mpr hplus]

theorem queryUnescape_kept :
    (queryUnescape s).getD s = s ↔ queryUnescape s = none ∨ 37 ∉ s ∧ 43 ∉ s := by
  rw [← queryUnescape_fixed]
  cases queryUnescape s with
  | none => simp
  | some t => simp

theorem parseAbsolute_relabel {hosts : Hosts} {rawURL rawURL' f : Bytes} {u : URL}
    (h : parseAbsolute hosts rawURL = some u) (hsame : (cut 35 rawURL').1 = (cut 35 rawURL).1)
    (hfragment : unescape .fragment ((cut 35 rawURL').2.getD []) = some f) :
    parseAbsolute hosts rawURL' = some { u with fragment := f } := by
  rw [parseAbsolute.eq_def] at h ⊢
  dsimp only at h ⊢
  rw [hsame, hfragment]
  split at h
  case isTrue => cases h
  case isFalse hcontrol =>
    obtain ⟨r, hr, h⟩ := Option.bind_eq_some_iff.mp h
    obtain ⟨url, hurl, h⟩ := Option.bind_eq_some_iff.mp h
    obtain ⟨frag, -, h⟩ := Option.bind_eq_some_iff.mp h
    cases h
    rw [if_neg hcontrol, hr, Option.bind_eq_bind, Option.bind_some, hurl]
    rfl

end reading

end Url
