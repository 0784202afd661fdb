import QuiPanel.Text

namespace QuiPanel

namespace Slugs

open List

abbrev Runes := List Char

section model

variable (table : Char → Char)

def lowerRune (c : Char) : Char := if c.toNat < 128 then c.toLower else table c

def toLower (s : Runes) : Runes := s.map (lowerRune table)

def trimSpace (s : Runes) : Runes := (s.dropWhile Text.isSpace).rdropWhile Text.isSpace

def alnum (c : Char) : Bool := ('a' ≤ c && c ≤ 'z') || ('0' ≤ c && c ≤ '9')

def slugRune (c : Char) : Bool := alnum c || c == '-'

def dash (c : Char) : Bool := c == '-'

def trimDashes (s : Runes) : Runes := (s.dropWhile dash).rdropWhile dash

def doubled : Runes → Bool
  | '-' :: '-' :: _ => true
  | _ :: s => doubled s
  | [] => false

def replaceDoubled : Runes → Runes
  | '-' :: '-' :: s => '-' :: replaceDoubled s
  | c :: s => c :: replaceDoubled s
  | [] => []

def squeeze : Nat → Runes → Runes
  | 0, s => s
  | n + 1, s => if doubled s then squeeze n (replaceDoubled s) else s

def maxSlug : Nat := 32

def deriveSlug (username : Runes) : Runes :=
  let written := (toLower table (trimSpace username)).map fun r => if alnum r then r else '-'
  let out := trimDashes written
  let out := squeeze out.length out
  let out := if out.length < 3 then out ++ ['-', 'w', 's'] else out
  if out.length > maxSlug then trimDashes (out.take maxSlug) else out

def reservedSlugs : List Runes :=
  ["api", "setting", "settings", "xray", "ws", "csrf-token", "api-docs", "inbounds", "clients", "groups", "users",
    "profile", "billing", "nodes", "store", "orders", "products", "services", "referral", "manual-deposit",
    "manual-deposits", "tickets", "support", "finance"].map String.toList

def isReservedSlug (s : Runes) : Bool := (toLower table (trimSpace s)) ∈ reservedSlugs

def slugPattern : Runes → Bool
  | [] => false
  | c :: rest =>
    match rest.getLast? with
    | none => false
    | some d =>
      alnum c && (rest.dropLast.all slugRune && 1 ≤ rest.dropLast.length && rest.dropLast.length ≤ 30) && alnum d

def validateSlug (s : Runes) : Bool :=
  let s := toLower table (trimSpace s)
  slugPattern s && !isReservedSlug table s

def next (base : Runes) (i : Nat) : Runes :=
  let suffix := '-' :: (Nat.repr i).toList
  let trimTo := maxSlug - suffix.length
  let b := if base.length > trimTo then trimDashes (base.take trimTo) else base
  b ++ suffix

def search (taken : Runes → Bool) (base : Runes) : Nat → Nat → Runes → Option Runes
  | 0, _, _ => none
  | fuel + 1, i, candidate =>
    if validateSlug table candidate && !taken candidate then some candidate
    else search taken base fuel (i + 1) (next base i)

def repaired (base : Runes) : Runes :=
  if validateSlug table base then base
  else
    let base := 'w' :: 's' :: '-' :: base
    if base.length > maxSlug then base.take maxSlug else base

def uniqueSlug (taken : Runes → Bool) (base : Runes) : Option Runes :=
  let base := repaired table base
  search table taken base 998 2 base

end model

section pattern

variable {table : Char → Char} {s t base : Runes} {c : Char} {i j n : Nat}

structure Slug (s : Runes) : Prop where
  runes : ∀ c ∈ s, slugRune c = true
  head : ∃ c rest, s = c :: rest ∧ alnum c = true
  last : ∃ pre c, s = pre ++ [c] ∧ alnum c = true
  long : 3 ≤ s.length
  short : s.length ≤ maxSlug

def dashesOnly : Runes := ['-', 'w', 's']

attribute [local grind =] trimSpace slugRune trimDashes doubled squeeze deriveSlug isReservedSlug slugPattern validateSlug search
  repaired

theorem slugPattern_of_slug (h : Slug s) : slugPattern s = true := by
  obtain ⟨c, rest, rfl, hc⟩ := h.head
  obtain ⟨pre, d, hs, hd⟩ := h.last
  have hlong := h.long
  have hshort := h.short
  rw [length_cons] at hlong hshort
  cases pre with
  | nil =>
    obtain ⟨_, rfl⟩ := List.cons.inj hs
    exact absurd hlong (by decide)
  | cons c' pre =>
    obtain ⟨rfl, rfl⟩ := List.cons.inj hs
    have hrunes : pre.all slugRune = true := by
      rw [all_eq_true]
      exact fun x hx => h.runes x (mem_cons_of_mem _ (mem_append_left _ hx))
    have hsize : (pre.append [d]).length = pre.length + 1 := length_append
    rw [hsize] at hlong hshort
    have hlen : 1 ≤ pre.length ∧ pre.length ≤ 30 := by
      rw [maxSlug] at hshort
      omega
    have hlast : (pre.append [d]).getLast? = some d := getLast?_concat
    have hpre : (pre.append [d]).dropLast = pre := dropLast_concat
    rw [slugPattern, hlast]
    simp only [hpre, hc, hd, hrunes, hlen, decide_true, Bool.and_self]

theorem slugRune_cases (h : slugRune c = true) :
    (97 ≤ c.toNat ∧ c.toNat ≤ 122) ∨ (48 ≤ c.toNat ∧ c.toNat ≤ 57) ∨ c.toNat = 45 := by
  simp only [slugRune, alnum, Bool.or_eq_true, Bool.and_eq_true, decide_eq_true_eq, beq_iff_eq] at h
  rcases h with (⟨hlo, hhi⟩ | ⟨hlo, hhi⟩) | rfl
  · exact .inl ⟨hlo, hhi⟩
  · exact .inr (.inl ⟨hlo, hhi⟩)
  · exact .inr (.inr rfl)

theorem slugRune_space (h : slugRune c = true) : Text.isSpace c = false := by
  have hcases := slugRune_cases h
  rw [Text.isSpace, Bool.or_eq_false_iff, decide_eq_false_iff_not, Bool.and_eq_false_iff, decide_eq_false_iff_not]
  simp only [mem_cons, not_mem_nil, or_false]
  omega

theorem slugRune_lower (h : slugRune c = true) (table : Char → Char) : lowerRune table c = c := by
  have hcases := slugRune_cases h
  rw [lowerRune, if_pos (by omega), Char.toLower]
  exact dif_neg fun hupper => (by
    have hlo : 65 ≤ c.toNat := hupper.1
    have hhi : c.toNat ≤ 90 := hupper.2
    omega)

theorem trimSpace_runes (h : ∀ c ∈ s, slugRune c = true) : trimSpace s = s := by
  have hdrop : ∀ {t : Runes}, (∀ c ∈ t, slugRune c = true) → t.dropWhile Text.isSpace = t := by
    intro t ht
    cases t with
    | nil => rfl
    | cons c t => rw [dropWhile_cons, slugRune_space (ht c mem_cons_self), if_neg Bool.false_ne_true]
  rw [trimSpace, hdrop h, List.rdropWhile, hdrop fun c hc => h c (mem_reverse.mp hc), reverse_reverse]

theorem toLower_runes (h : ∀ c ∈ s, slugRune c = true) (table : Char → Char) : toLower table s = s :=
  (map_congr_left fun c hc => slugRune_lower (h c hc) table).trans (map_id s)

theorem validateSlug_runes (h : ∀ c ∈ s, slugRune c = true) (table : Char → Char) :
    validateSlug table s = (slugPattern s && !decide (s ∈ reservedSlugs)) := by
  rw [validateSlug, isReservedSlug, trimSpace_runes h, toLower_runes h, trimSpace_runes h, toLower_runes h]

theorem validateSlug_slug (h : Slug s) (hfree : s ∉ reservedSlugs) (table : Char → Char) :
    validateSlug table s = true := by
  rw [validateSlug_runes h.runes, slugPattern_of_slug h, Bool.true_and, Bool.not_eq_true', decide_eq_false_iff_not]
  exact hfree

theorem alnum_slugRune (h : alnum c = true) : slugRune c = true := by rw [slugRune, h, Bool.true_or]

theorem alnum_not_dash (h : alnum c = true) : dash c = false := by
  rw [dash, beq_eq_false_iff_ne]
  rintro rfl
  exact absurd h (by decide)

theorem slugRune_alnum (h : slugRune c = true) (hdash : dash c = false) : alnum c = true := by
  rw [slugRune, Bool.or_eq_true] at h
  exact h.resolve_right fun heq => Bool.false_ne_true (hdash.symm.trans heq)

theorem trimDashes_head (rest : Runes) (hc : alnum c = true) :
    ∃ kept, trimDashes (c :: rest) = c :: kept ∧ c :: kept <+: c :: rest := by
  have hdrop : (c :: rest).dropWhile dash = c :: rest := by
    rw [dropWhile_cons, alnum_not_dash hc, if_neg Bool.false_ne_true]
  have hpre := List.rdropWhile_prefix dash (l := c :: rest)
  rw [trimDashes, hdrop]
  cases hkept : (c :: rest).rdropWhile dash with
  | nil =>
    have hall := rdropWhile_eq_nil_iff.mp hkept c mem_cons_self
    exact absurd hall (by rw [alnum_not_dash hc]; exact Bool.false_ne_true)
  | cons d kept =>
    rw [hkept] at hpre
    obtain rfl := (cons_prefix_cons.mp hpre).1
    exact ⟨kept, rfl, hpre⟩

theorem trimDashes_subset (s : Runes) : trimDashes s ⊆ s := fun _ hc =>
  dropWhile_subset _ ((List.rdropWhile_prefix dash _).subset hc)

theorem trimDashes_edges (hs : ∀ c ∈ s, slugRune c = true) :
    (∀ c, (trimDashes s).head? = some c → alnum c = true) ∧ ∀ c, (trimDashes s).getLast? = some c → alnum c = true := by
  have hrune : ∀ c ∈ trimDashes s, slugRune c = true := fun c hc => hs c (trimDashes_subset s hc)
  refine ⟨fun c hc => slugRune_alnum (hrune c (mem_of_head? hc)) ?_,
    fun c hc => slugRune_alnum (hrune c (mem_of_getLast? hc)) ?_⟩
  · obtain ⟨rest, hrest⟩ := List.rdropWhile_prefix dash (l := s.dropWhile dash)
    have hhead := head?_dropWhile_not dash s
    rw [← hrest, head?_append, show ((s.dropWhile dash).rdropWhile dash).head? = some c from hc] at hhead
    exact hhead
  · rw [trimDashes, List.rdropWhile, getLast?_reverse] at hc
    have hhead := head?_dropWhile_not dash (s.dropWhile dash).reverse
    rw [hc] at hhead
    exact hhead

theorem replaceDoubled_head (s : Runes) : (replaceDoubled s).head? = s.head? := by
  fun_induction replaceDoubled s with
  | case1 => rfl
  | case2 => rfl
  | case3 => rfl

theorem replaceDoubled_last (s : Runes) : (replaceDoubled s).getLast? = s.getLast? := by
  fun_induction replaceDoubled s with
  | case1 s ih => rw [getLast?_cons, ih, getLast?_cons_cons, getLast?_cons]
  | case2 c s _ ih => rw [getLast?_cons, ih, getLast?_cons]
  | case3 => rfl

theorem replaceDoubled_subset (s : Runes) : replaceDoubled s ⊆ s := by
  fun_induction replaceDoubled s with
  | case1 s ih => exact cons_subset.mpr ⟨.head _, fun c hc => .tail _ (.tail _ (ih hc))⟩
  | case2 c s _ ih => exact cons_subset.mpr ⟨.head _, fun c hc => .tail _ (ih hc)⟩
  | case3 => exact List.Subset.refl _

theorem replaceDoubled_length (s : Runes) :
    (replaceDoubled s).length ≤ s.length ∧ (doubled s = true → (replaceDoubled s).length < s.length) := by
  fun_induction replaceDoubled s with
  | case1 s ih =>
    rw [length_cons, length_cons, length_cons]
    exact ⟨by omega, fun _ => by omega⟩
  | case2 c s hplain ih =>
    rw [length_cons, length_cons]
    refine ⟨by omega, fun h => ?_⟩
    rw [doubled] at h
    · have := ih.2 h
      omega
    · exact hplain
  | case3 => exact ⟨le_refl _, fun h => absurd h Bool.false_ne_true⟩

theorem squeeze_spec (h : s.length ≤ n) : doubled (squeeze n s) = false ∧ squeeze n s ⊆ s ∧
    (squeeze n s).head? = s.head? ∧ (squeeze n s).getLast? = s.getLast? := by
  induction n generalizing s with
  | zero =>
    obtain rfl := length_eq_zero_iff.mp (Nat.le_zero.mp h)
    exact ⟨rfl, List.Subset.refl _, rfl, rfl⟩
  | succ n ih =>
    rw [squeeze]
    split
    case isTrue hd =>
      have hlt := (replaceDoubled_length s).2 hd
      obtain ⟨hsingle, hsub, hhead, hlast⟩ := ih (s := replaceDoubled s) (by omega)
      exact ⟨hsingle, List.Subset.trans hsub (replaceDoubled_subset s), hhead.trans (replaceDoubled_head s),
        hlast.trans (replaceDoubled_last s)⟩
    case isFalse hd => exact ⟨Bool.eq_false_iff.mpr hd, List.Subset.refl _, rfl, rfl⟩

theorem doubled_cons (c : Char) (h : doubled s = true) : doubled (c :: s) = true := by
  rw [doubled.eq_def]
  split
  case h_1 => rfl
  case h_2 heq =>
    obtain ⟨_, rfl⟩ := List.cons.inj heq
    exact h
  case h_3 heq => cases heq

theorem doubled_right (s t : Runes) (h : doubled t = true) : doubled (s ++ t) = true := by
  induction s with
  | nil => exact h
  | cons c s ih => exact doubled_cons c ih

theorem doubled_left (s t : Runes) (h : doubled s = true) : doubled (s ++ t) = true := by
  fun_induction doubled s with
  | case1 => rfl
  | case2 s c hplain ih => exact doubled_cons s (ih h)
  | case3 => exact absurd h Bool.false_ne_true

theorem rdropWhile_close (h : doubled s = false) : s.length ≤ (s.rdropWhile dash).length + 1 := by
  cases eq_nil_or_concat s with
  | inl hnil =>
    rw [hnil]
    exact Nat.zero_le _
  | inr hconcat =>
    obtain ⟨u, x, rfl⟩ := hconcat
    rw [concat_eq_append] at h ⊢
    by_cases hx : dash x = true
    · rw [rdropWhile_concat_pos _ _ _ hx, length_append, length_singleton]
      cases eq_nil_or_concat u with
      | inl hnil =>
        rw [hnil]
        exact Nat.le_refl _
      | inr hconcat =>
        obtain ⟨w, y, rfl⟩ := hconcat
        rw [concat_eq_append] at h ⊢
        have hy : ¬ dash y = true := by
          intro hy
          rw [eq_of_beq hx, eq_of_beq hy, append_assoc, doubled_right w _ rfl] at h
          cases h
        rw [rdropWhile_concat_neg _ _ _ hy]
    · rw [rdropWhile_concat_neg _ _ _ hx]
      exact Nat.le_succ _

structure Squeezed (s : Runes) : Prop where
  runes : ∀ c ∈ s, slugRune c = true
  single : doubled s = false
  head : ∀ c, s.head? = some c → alnum c = true
  last : ∀ c, s.getLast? = some c → alnum c = true

theorem Squeezed.slug (h : Squeezed s) (hlong : 3 ≤ s.length) (hshort : s.length ≤ maxSlug) : Slug s := by
  have hne : s ≠ [] := ne_nil_of_length_pos (by omega)
  obtain ⟨c, rest, rfl⟩ := exists_cons_of_ne_nil hne
  refine ⟨h.runes, ⟨c, rest, rfl, h.head c rfl⟩, ?_, hlong, hshort⟩
  exact ⟨(c :: rest).dropLast, (c :: rest).getLast hne, (dropLast_append_getLast hne).symm,
    h.last _ (getLast?_eq_getLast_of_ne_nil hne)⟩

theorem Squeezed.padded (h : Squeezed s) (hshort : s.length < 3) :
    s ++ ['-', 'w', 's'] = dashesOnly ∨ Slug (s ++ ['-', 'w', 's']) := by
  cases s with
  | nil => exact .inl rfl
  | cons c rest =>
    rw [length_cons] at hshort
    refine .inr ⟨fun x hx => ?_, ⟨c, rest ++ ['-', 'w', 's'], rfl, h.head c rfl⟩,
      ⟨(c :: rest) ++ ['-', 'w'], 's', by simp, by decide⟩, ?_, ?_⟩
    · have hpad : ∀ c ∈ ['-', 'w', 's'], slugRune c = true := all_eq_true.mp rfl
      exact (mem_append.mp hx).elim (h.runes x) (hpad x)
    · rw [length_append, length_cons]
      exact Nat.le_add_left 3 _
    · rw [length_append, length_cons, maxSlug]
      change rest.length + 1 + 3 ≤ 32
      omega

theorem Squeezed.clamped (h : Squeezed s) (hlong : s.length > maxSlug) : Slug (trimDashes (s.take maxSlug)) := by
  have hlen : (s.take maxSlug).length = maxSlug := length_take_of_le hlong.le
  have hrunes : ∀ c ∈ s.take maxSlug, slugRune c = true := fun c hc => h.runes c (mem_of_mem_take hc)
  have hsingle : doubled (s.take maxSlug) = false := by
    rw [Bool.eq_false_iff]
    intro hd
    have hall := doubled_left _ (s.drop maxSlug) hd
    rw [take_append_drop, h.single] at hall
    exact Bool.false_ne_true hall
  have hedges := trimDashes_edges hrunes
  obtain ⟨c, rest, hs⟩ := exists_cons_of_ne_nil (ne_nil_of_length_pos (l := s.take maxSlug) (by rw [hlen]; decide))
  have hc : alnum c = true := by
    refine h.head c ?_
    rw [← take_append_drop maxSlug s, hs]
    rfl
  obtain ⟨kept, hkept, hpre⟩ := trimDashes_head rest hc
  rw [hs] at hlen hedges hsingle ⊢
  rw [hkept] at hedges ⊢
  -- no two dashes stand together, so at most the last rune is cut off
  have hclose : maxSlug ≤ (c :: kept).length + 1 := by
    have hdrop : (c :: rest).dropWhile dash = c :: rest := by
      rw [dropWhile_cons, alnum_not_dash hc, if_neg Bool.false_ne_true]
    have hkept' : (c :: rest).rdropWhile dash = c :: kept := by
      rw [← hkept, trimDashes, hdrop]
    rw [← hlen, ← hkept']
    exact rdropWhile_close hsingle
  have hshort : (c :: kept).length ≤ maxSlug := hlen ▸ hpre.length_le
  have hne : c :: kept ≠ [] := cons_ne_nil c kept
  refine ⟨fun x hx => hrunes x (hs ▸ hpre.subset hx), ⟨c, kept, rfl, hc⟩, ?_, ?_, hshort⟩
  · exact ⟨(c :: kept).dropLast, (c :: kept).getLast hne, (dropLast_append_getLast hne).symm,
      hedges.2 _ (getLast?_eq_getLast_of_ne_nil hne)⟩
  · rw [maxSlug] at hclose
    omega

theorem deriveSlug_spec (table : Char → Char) (username : Runes) :
    deriveSlug table username = dashesOnly ∨ Slug (deriveSlug table username) := by
  have hwritten : ∀ c ∈ (toLower table (trimSpace username)).map (fun r => if alnum r then r else '-'),
      slugRune c = true := by
    intro c hc
    obtain ⟨r, _, rfl⟩ := mem_map.mp hc
    split
    case isTrue halnum => exact alnum_slugRune halnum
    case isFalse => rfl
  generalize hw : (toLower table (trimSpace username)).map (fun r => if alnum r then r else '-') = written at hwritten
  obtain ⟨hfirst, hfinal⟩ := trimDashes_edges hwritten
  obtain ⟨hsingle, hsub, hhead, hlast⟩ := squeeze_spec (le_refl (trimDashes written).length)
  have hsqueezed : Squeezed (squeeze (trimDashes written).length (trimDashes written)) :=
    ⟨fun c hc => hwritten c (trimDashes_subset written (hsub hc)), hsingle, hhead ▸ hfirst, hlast ▸ hfinal⟩
  rw [deriveSlug, hw]
  generalize squeeze (trimDashes written).length (trimDashes written) = out at hsqueezed
  by_cases hshort : out.length < 3
  · rw [if_pos hshort]
    have hlen : ¬ (out ++ ['-', 'w', 's']).length > maxSlug := by
      rw [length_append, maxSlug]
      change ¬ out.length + 3 > 32
      omega
    rw [if_neg hlen]
    exact hsqueezed.padded hshort
  · rw [if_neg hshort]
    by_cases hlong : out.length > maxSlug
    · rw [if_pos hlong]
      exact .inr (hsqueezed.clamped hlong)
    · rw [if_neg hlong]
      exact .inr (hsqueezed.slug (not_lt.mp hshort) (not_lt.mp hlong))

theorem digit_alnum (h : c.isDigit = true) : alnum c = true := by
  rw [Char.isDigit, Bool.and_eq_true, decide_eq_true_eq, decide_eq_true_eq] at h
  rw [alnum, Bool.or_eq_true, Bool.and_eq_true, Bool.and_eq_true]
  exact .inr ⟨decide_eq_true h.1, decide_eq_true h.2⟩

def digits (i : Nat) : Runes := (Nat.repr i).toList

theorem digits_alnum (i : Nat) : ∀ c ∈ digits i, alnum c = true := fun c hc => digit_alnum (Text.repr_isDigit c hc)

theorem digits_length (hi : i < 1000) : (digits i).length ≤ 3 := by
  rw [digits, Nat.toList_repr]
  exact Nat.toDigits_length 10 i 3 (by decide) hi

theorem digits_ne_nil (i : Nat) : digits i ≠ [] := by
  rw [digits, Nat.toList_repr]
  exact Nat.toDigits_ne_nil

theorem next_eq (base : Runes) (i : Nat) : next base i =
    (if base.length > maxSlug - ((digits i).length + 1) then
      trimDashes (base.take (maxSlug - ((digits i).length + 1)))
    else base) ++ '-' :: digits i := rfl

theorem next_split (h : Slug base) (hi : i < 1000) :
    ∃ c kept, next base i = (c :: kept) ++ '-' :: digits i ∧ alnum c = true ∧ (∀ x ∈ c :: kept, slugRune x = true) ∧
      (c :: kept).length + (digits i).length + 1 ≤ maxSlug := by
  obtain ⟨c, rest, rfl, hc⟩ := h.head
  have hlen := digits_length hi
  rw [next_eq]
  split
  case isTrue hlong =>
    have hpos : maxSlug - ((digits i).length + 1) = maxSlug - ((digits i).length + 2) + 1 := by
      rw [maxSlug]
      omega
    rw [hpos, take_succ_cons]
    obtain ⟨kept, hkept, hpre⟩ := trimDashes_head (rest.take (maxSlug - ((digits i).length + 2))) hc
    refine ⟨c, kept, by rw [hkept], hc, fun x hx => ?_, ?_⟩
    · rcases mem_cons.mp (hpre.subset hx) with rfl | hin
      · exact alnum_slugRune hc
      · exact h.runes x (mem_cons_of_mem c (mem_of_mem_take hin))
    · have hshort := hpre.length_le
      rw [length_cons, length_cons, length_take] at hshort
      rw [length_cons]
      rw [maxSlug] at hshort ⊢
      omega
  case isFalse hfit =>
    refine ⟨c, rest, rfl, hc, h.runes, ?_⟩
    rw [maxSlug] at hfit ⊢
    omega

theorem next_slug (h : Slug base) (hi : i < 1000) : Slug (next base i) := by
  obtain ⟨c, kept, hsplit, hc, hrunes, hlen⟩ := next_split h hi
  have hne := digits_ne_nil i
  rw [hsplit]
  refine ⟨fun x hx => ?_, ⟨c, kept ++ '-' :: digits i, rfl, hc⟩, ?_, ?_, ?_⟩
  · rcases mem_append.mp hx with hin | hin
    · exact hrunes x hin
    · rcases mem_cons.mp hin with rfl | hdigit
      · rfl
      · exact alnum_slugRune (digits_alnum i x hdigit)
  · refine ⟨(c :: kept) ++ '-' :: (digits i).dropLast, (digits i).getLast hne, ?_,
      digits_alnum i _ (getLast_mem hne)⟩
    rw [append_assoc]
    exact congrArg (fun ds => c :: (kept ++ '-' :: ds)) (dropLast_append_getLast hne).symm
  · have hpos := length_pos_of_ne_nil hne
    rw [length_append, length_cons, length_cons]
    omega
  · rw [length_append]
    exact hlen

theorem next_free (base : Runes) (i : Nat) : next base i ∉ reservedSlugs := by
  have hlast : ∀ r ∈ reservedSlugs, ∀ c, r.getLast? = some c → c.isDigit = false := by
    have hall : reservedSlugs.all (fun r => r.getLast?.all fun c => !c.isDigit) = true := by decide +kernel
    intro r hr c hc
    have hr' := all_eq_true.mp hall r hr
    rw [hc] at hr'
    exact Bool.eq_false_of_not_eq_true' hr'
  intro hin
  have hne := digits_ne_nil i
  have hend : (next base i).getLast? = some ((digits i).getLast hne) := by
    rw [next_eq, getLast?_append_of_ne_nil _ (cons_ne_nil _ _), getLast?_cons,
      getLast?_eq_getLast_of_ne_nil hne]
    rfl
  have hdigit := Text.repr_isDigit _ (getLast_mem hne)
  rw [hlast _ hin _ hend] at hdigit
  cases hdigit

theorem next_injective (h : next base i = next base j) : i = j := by
  have htail : ∀ n (b : Runes), (b ++ '-' :: digits n).reverse.takeWhile (fun c => !dash c) = (digits n).reverse := by
    intro n b
    rw [reverse_append, reverse_cons, append_assoc, takeWhile_append_of_pos]
    · exact append_nil _
    · intro c hc
      rw [alnum_not_dash (digits_alnum n c (mem_reverse.mp hc))]
      rfl
  rw [next_eq, next_eq] at h
  have hdigits := congrArg (fun s => List.takeWhile (fun c => !dash c) (List.reverse s)) h
  rw [htail, htail, reverse_inj, digits, digits, Nat.toList_repr, Nat.toList_repr] at hdigits
  rw [← @Nat.ofDigitChars_ten_toDigits i, hdigits, Nat.ofDigitChars_ten_toDigits]

theorem repaired_spec (h : base = dashesOnly ∨ Slug base) (table : Char → Char) :
    Slug (repaired table base) ∧ repaired table base ∉ reservedSlugs := by
  have hrunes : ∀ c ∈ base, slugRune c = true := by
    rcases h with rfl | hslug
    · exact all_eq_true.mp rfl
    · exact hslug.runes
  have hvalid := validateSlug_runes hrunes table
  have hplain : ∀ r ∈ dashesOnly :: reservedSlugs, ('w' :: 's' :: '-' :: r).length ≤ maxSlug ∧
      ('w' :: 's' :: '-' :: r) ∉ reservedSlugs := by
    decide +kernel
  rw [repaired, hvalid]
  dsimp only
  split
  case isTrue hok =>
    rw [Bool.and_eq_true, Bool.not_eq_true', decide_eq_false_iff_not] at hok
    refine ⟨h.resolve_left ?_, hok.2⟩
    rintro rfl
    cases hok.1
  case isFalse hbad =>
    have hin : base ∈ dashesOnly :: reservedSlugs := by
      rcases h with rfl | hslug
      · exact mem_cons_self
      · rw [slugPattern_of_slug hslug, Bool.true_and, Bool.not_eq_true', decide_eq_false_iff_not, not_not] at hbad
        exact mem_cons_of_mem _ hbad
    obtain ⟨hfit, hfree⟩ := hplain base hin
    rw [if_neg (not_lt.mpr hfit)]
    refine ⟨⟨?_, ⟨'w', _, rfl, rfl⟩, ?_, ?_, hfit⟩, hfree⟩
    · intro c hc
      have hhead : ∀ c ∈ ['w', 's', '-'], slugRune c = true := all_eq_true.mp rfl
      exact (mem_append.mp (show c ∈ ['w', 's', '-'] ++ base from hc)).elim (hhead c) (hrunes c)
    · rcases h with rfl | hslug
      · exact ⟨['w', 's', '-', '-', 'w'], 's', rfl, rfl⟩
      · obtain ⟨pre, d, hpre, hd⟩ := hslug.last
        exact ⟨'w' :: 's' :: '-' :: pre, d, by rw [hpre]; rfl, hd⟩
    · exact Nat.le_add_left 3 _

theorem search_some {taken : Runes → Bool} {candidate slug : Runes}
    (h : search table taken base n i candidate = some slug) : validateSlug table slug = true ∧ taken slug = false := by
  induction n generalizing i candidate with
  | zero => cases h
  | succ n ih =>
    rw [search] at h
    split at h
    case isTrue hok =>
      rw [Bool.and_eq_true, Bool.not_eq_true'] at hok
      cases h
      exact hok
    case isFalse => exact ih h

theorem search_none {taken : Runes → Bool} {candidate : Runes}
    (h : search table taken base n i candidate = none) (hj : i ≤ j) (hn : j + 1 < i + n)
    (hvalid : validateSlug table (next base j) = true) : taken (next base j) = true := by
  induction n generalizing i candidate with
  | zero => omega
  | succ n ih =>
    rw [search] at h
    split at h
    case isTrue => cases h
    case isFalse =>
      rcases Nat.lt_or_eq_of_le hj with hlt | rfl
      · exact ih h hlt (by omega)
      · cases n with
        | zero => omega
        | succ n =>
          rw [search, hvalid, Bool.true_and] at h
          split at h
          case isTrue => cases h
          case isFalse hfull =>
            rw [Bool.not_eq_true', Bool.not_eq_false] at hfull
            exact hfull

end pattern

theorem slug_derived (table : Char → Char) (username : Runes) (taken : Finset Runes) (h : taken.card < 900) :
    ∃ slug, uniqueSlug table (fun s => decide (s ∈ taken)) (deriveSlug table username) = some slug ∧
      validateSlug table slug = true ∧ slug ∉ taken := by
  obtain ⟨hslug, _⟩ := repaired_spec (deriveSlug_spec table username) table
  cases hfound : uniqueSlug table (fun s => decide (s ∈ taken)) (deriveSlug table username) with
  | some slug =>
    obtain ⟨hvalid, hfree⟩ := search_some hfound
    exact ⟨slug, rfl, hvalid, of_decide_eq_false hfree⟩
  | none =>
    have hall : ∀ j ∈ Finset.Ico 2 999, next (repaired table (deriveSlug table username)) j ∈ taken := by
      intro j hj
      obtain ⟨hlo, hhi⟩ := Finset.mem_Ico.mp hj
      have hvalid := validateSlug_slug (next_slug hslug (i := j) (by omega)) (next_free _ j) table
      exact of_decide_eq_true (search_none hfound hlo (by omega) hvalid)
    have hcard := Finset.card_le_card_of_injOn _ hall fun i _ j _ hij => next_injective hij
    rw [Nat.card_Ico] at hcard
    omega

theorem slug_derived_symbols : ∃ slug,
    uniqueSlug id (fun s => decide (s ∈ ({"ws--ws".toList} : Finset Runes))) (deriveSlug id ['Ω', '!']) = some slug ∧
      validateSlug id slug = true ∧ slug ∉ ({"ws--ws".toList} : Finset Runes) :=
  slug_derived id ['Ω', '!'] {"ws--ws".toList} (by rw [Finset.card_singleton]; decide)

end Slugs

end QuiPanel
