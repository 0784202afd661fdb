import QuiPanel.Library.Framing
import QuiPanel.Library.ByteText

namespace JsonText

open Framing List

def numChar (c : Char) : Bool := c.isDigit || c == '-' || c == '+' || c == '.' || c == 'e' || c == 'E'

structure Number where
  text : List Char
  shape : ∀ c ∈ text, numChar c = true
  nonempty : text ≠ []

inductive Tree
  | null
  | bool (b : Bool)
  | num (x : Number)
  | str (s : String)
  | arr (elems : List Tree)
  | obj (fields : List (String × Tree))

def mark : Char := Char.ofNat 34

def backslash : Char := Char.ofNat 92

def brace : Char := Char.ofNat 123

def unbrace : Char := Char.ofNat 125

def escapes : List (Nat × String) :=
  [(34, "\""), (92, "\\"), (8, "b"), (12, "f"), (10, "n"), (13, "r"), (9, "t"), (0, "u0000"), (1, "u0001"),
    (2, "u0002"), (3, "u0003"), (4, "u0004"), (5, "u0005"), (6, "u0006"), (7, "u0007"), (11, "u000b"),
    (14, "u000e"), (15, "u000f"), (16, "u0010"), (17, "u0011"), (18, "u0012"), (19, "u0013"), (20, "u0014"),
    (21, "u0015"), (22, "u0016"), (23, "u0017"), (24, "u0018"), (25, "u0019"), (26, "u001a"), (27, "u001b"),
    (28, "u001c"), (29, "u001d"), (30, "u001e"), (31, "u001f"), (60, "u003c"), (62, "u003e"), (38, "u0026"),
    (0x2028, "u2028"), (0x2029, "u2029")]

def escape (c : Char) : List Char :=
  match escapes.find? (·.1 = c.toNat) with
  | some e => backslash :: e.2.toList
  | none => [c]

def quote (s : String) : List Char := mark :: (s.toList.flatMap escape ++ [mark])

mutual

def text : Tree → List Char
  | .null => "null".toList
  | .bool true => "true".toList
  | .bool false => "false".toList
  | .num x => x.text
  | .str s => quote s
  | .arr elems => '[' :: textElems elems
  | .obj fields => brace :: textFields fields

def textElems : List Tree → List Char
  | [] => [']']
  | v :: vs => text v ++ textRest vs

def textRest : List Tree → List Char
  | [] => [']']
  | v :: vs => ',' :: (text v ++ textRest vs)

def textFields : List (String × Tree) → List Char
  | [] => [unbrace]
  | (k, v) :: fs => quote k ++ (':' :: (text v ++ textMore fs))

def textMore : List (String × Tree) → List Char
  | [] => [unbrace]
  | (k, v) :: fs => ',' :: (quote k ++ (':' :: (text v ++ textMore fs)))

end

def utf8 (cs : List Char) : ByteText.Bytes := cs.flatMap String.utf8EncodeChar

def marshal (t : Tree) : ByteText.Bytes := utf8 (text t)

section strings

variable {c d : Char} {cs ds x y : List Char}

theorem codes_apart : (escapes.map fun e => (e.1, e.2.toList)).Pairwise fun p q =>
    (p.2.isPrefixOf q.2 || q.2.isPrefixOf p.2) = false := by
  simp only [escapes, map_cons, map_nil, String.reduceToList]
  decide +kernel

theorem escapes_apart {p q : Nat × String} (hp : p ∈ escapes) (hq : q ∈ escapes)
    (h : p.2.toList <+: q.2.toList) : p.1 = q.1 := by
  have hpairs : escapes.Pairwise fun p q =>
      (p.2.toList <+: q.2.toList → p.1 = q.1) ∧ (q.2.toList <+: p.2.toList → q.1 = p.1) := by
    refine (pairwise_map.mp codes_apart).imp fun {p q} hne => ?_
    obtain ⟨hpq, hqp⟩ := Bool.or_eq_false_iff.mp hne
    refine ⟨fun h => ?_, fun h => ?_⟩
    · exact absurd (List.isPrefixOf_iff_prefix.mpr h) (Bool.eq_false_iff.mp hpq)
    · exact absurd (List.isPrefixOf_iff_prefix.mpr h) (Bool.eq_false_iff.mp hqp)
  have hself : ∀ p ∈ escapes, (p.2.toList <+: p.2.toList → p.1 = p.1) ∧ (p.2.toList <+: p.2.toList → p.1 = p.1) :=
    fun _ _ => ⟨fun _ => rfl, fun _ => rfl⟩
  exact (hpairs.forall_of_forall_of_flip hself (hpairs.imp fun h => h.symm) hp hq).1 h

theorem escapes_round : escapes.all (fun e => (Char.ofNat e.1).toNat == e.1) = true := by
  decide +kernel

theorem escape_cases (c : Char) : (escape c = [c] ∧ ∀ e ∈ escapes, e.1 ≠ c.toNat) ∨
    ∃ e ∈ escapes, e.1 = c.toNat ∧ escape c = backslash :: e.2.toList := by
  cases hfind : escapes.find? (·.1 = c.toNat) with
  | none =>
    refine .inl ⟨by rw [escape, hfind], fun e he heq => ?_⟩
    exact absurd (find?_eq_none.mp hfind e he) (by simpa using heq)
  | some e =>
    refine .inr ⟨e, mem_of_find?_eq_some hfind, by simpa using find?_some hfind, ?_⟩
    rw [escape, hfind]

theorem plain_ne {n : Nat} {t : String} (he : (n, t) ∈ escapes) (h : ∀ e ∈ escapes, e.1 ≠ c.toNat) :
    c ≠ Char.ofNat n := by
  rintro rfl
  exact h _ he (beq_iff_eq.mp (all_eq_true.mp escapes_round _ he)).symm

theorem escape_delimited (h : escape c ++ x = escape d ++ y) : c = d ∧ x = y := by
  have hslash : ∀ {c : Char}, (∀ e ∈ escapes, e.1 ≠ c.toNat) → c ≠ backslash := fun hplain =>
    plain_ne (n := 92) (t := "\\") (by decide) hplain
  rcases escape_cases c with ⟨hc, hplain⟩ | ⟨e, he, hec, hc⟩
  · rcases escape_cases d with ⟨hd, -⟩ | ⟨f, -, -, hd⟩
    · rw [hc, hd] at h
      exact List.cons.inj h
    · rw [hc, hd] at h
      exact absurd (List.cons.inj h).1 (hslash hplain)
  · rcases escape_cases d with ⟨hd, hplain⟩ | ⟨f, hf, hfd, hd⟩
    · rw [hc, hd] at h
      exact absurd (List.cons.inj h).1.symm (hslash hplain)
    · rw [hc, hd] at h
      have hcodes := (List.cons.inj h).2
      have hsame : e.1 = f.1 := by
        rcases append_eq_append_iff.mp hcodes with ⟨rest, hrest, -⟩ | ⟨rest, hrest, -⟩
        · exact escapes_apart he hf ⟨rest, hrest.symm⟩
        · exact (escapes_apart hf he ⟨rest, hrest.symm⟩).symm
      have hchar : c = d := Char.toNat_inj.mp (by rw [← hec, ← hfd, hsame])
      subst hchar
      have hcode : e.2 = f.2 := by
        have hcode := hc.symm.trans hd
        exact String.toList_inj.mp (List.cons.inj hcode).2
      rw [hcode] at hcodes
      exact ⟨rfl, append_cancel_left hcodes⟩

theorem escape_head (c : Char) : ∃ b rest, escape c = b :: rest ∧ b ≠ mark := by
  rcases escape_cases c with ⟨hc, hplain⟩ | ⟨e, -, -, hc⟩
  · exact ⟨c, [], hc, plain_ne (n := 34) (t := "\"") (by decide) hplain⟩
  · exact ⟨backslash, _, hc, by decide⟩

theorem escaped_delimited (h : cs.flatMap escape ++ mark :: x = ds.flatMap escape ++ mark :: y) :
    cs = ds ∧ x = y := by
  induction cs generalizing ds with
  | nil =>
    cases ds with
    | nil => exact ⟨rfl, (List.cons.inj h).2⟩
    | cons d ds =>
      obtain ⟨b, rest, hd, hb⟩ := escape_head d
      rw [flatMap_cons, hd] at h
      exact absurd (List.cons.inj h).1.symm hb
  | cons c cs ih =>
    cases ds with
    | nil =>
      obtain ⟨b, rest, hc, hb⟩ := escape_head c
      rw [flatMap_cons, hc] at h
      exact absurd (List.cons.inj h).1 hb
    | cons d ds =>
      rw [flatMap_cons, flatMap_cons, append_assoc, append_assoc] at h
      obtain ⟨hcd, hrest⟩ := escape_delimited h
      obtain ⟨hcs, hxy⟩ := ih hrest
      exact ⟨congrArg₂ List.cons hcd hcs, hxy⟩

theorem quote_delimited : SelfDelimiting quote := by
  intro s t x y h
  rw [quote, quote, cons_append, cons_append, append_assoc, append_assoc] at h
  obtain ⟨hst, hxy⟩ := escaped_delimited (List.cons.inj h).2
  exact ⟨String.toList_inj.mp hst, hxy⟩

end strings

section trees

variable {x y : List Char}

def Ends (x : List Char) : Prop := ∀ c, x.head? = some c → numChar c = false

theorem number_delimited {a b : Number} (hx : Ends x) (hy : Ends y) (h : a.text ++ x = b.text ++ y) :
    a = b ∧ x = y := by
  have htake : ∀ (n : Number) (z : List Char), Ends z → (n.text ++ z).takeWhile numChar = n.text := by
    intro n z hz
    rw [takeWhile_append_of_pos n.shape]
    cases z with
    | nil => simp
    | cons c z => simp [hz c rfl]
  have htext : a.text = b.text := by rw [← htake a x hx, h, htake b y hy]
  rw [htext] at h
  refine ⟨?_, append_cancel_left h⟩
  cases a
  cases b
  cases htext
  rfl

def kindOf (c : Char) : Nat :=
  if c = 'n' then 0 else if c = 't' then 1 else if c = 'f' then 2 else if c = mark then 3
  else if c = '[' then 4 else if c = brace then 5 else 6

def kind : Tree → Nat
  | .null => 0
  | .bool true => 1
  | .bool false => 2
  | .str _ => 3
  | .arr _ => 4
  | .obj _ => 5
  | .num _ => 6

theorem kindOf_num {c : Char} (h : numChar c = true) : kindOf c = 6 := by
  have hne : ∀ d, numChar d = false → c ≠ d := fun d hd he => by rw [he, hd] at h; cases h
  rw [kindOf, if_neg (hne _ (by decide)), if_neg (hne _ (by decide)), if_neg (hne _ (by decide)),
    if_neg (hne _ (by decide)), if_neg (hne _ (by decide)), if_neg (hne _ (by decide))]

theorem text_head (a : Tree) : ∃ c rest, text a = c :: rest ∧ kindOf c = kind a := by
  cases a with
  | null => exact ⟨'n', "ull".toList, by decide, by decide⟩
  | bool b => cases b with
    | true => exact ⟨'t', "rue".toList, by decide, by decide⟩
    | false => exact ⟨'f', "alse".toList, by decide, by decide⟩
  | num n =>
    obtain ⟨text, shape, nonempty⟩ := n
    cases text with
    | nil => exact absurd rfl nonempty
    | cons c rest => exact ⟨c, rest, by rw [JsonText.text], kindOf_num (shape c mem_cons_self)⟩
  | str s => exact ⟨mark, _, by rw [text, quote], (by decide : kindOf mark = 3)⟩
  | arr elems => exact ⟨'[', _, by rw [text], (by decide : kindOf '[' = 4)⟩
  | obj fields => exact ⟨brace, _, by rw [text], (by decide : kindOf brace = 5)⟩

theorem kind_eq {a b : Tree} (h : text a ++ x = text b ++ y) : kind a = kind b := by
  obtain ⟨c, rest, ha, hc⟩ := text_head a
  obtain ⟨d, rest', hb, hd⟩ := text_head b
  rw [ha, hb] at h
  rw [← hc, ← hd, (List.cons.inj h).1]

theorem ends_rest (vs : List Tree) (x : List Char) : Ends (textRest vs ++ x) := by
  cases vs with
  | nil => exact fun c hc => by rw [textRest] at hc; cases hc; decide
  | cons v vs => exact fun c hc => by rw [textRest] at hc; cases hc; decide

theorem ends_more (fs : List (String × Tree)) (x : List Char) : Ends (textMore fs ++ x) := by
  cases fs with
  | nil => exact fun c hc => by rw [textMore] at hc; cases hc; decide
  | cons f fs => exact fun c hc => by rw [textMore] at hc; cases hc; decide

theorem elem_ne_close {v : Tree} {rest : List Char} : text v ++ rest ≠ ']' :: x := by
  intro h
  obtain ⟨c, tail, hv, hc⟩ := text_head v
  rw [hv] at h
  obtain rfl := (List.cons.inj h).1
  have hnum : kindOf ']' = 6 := by decide
  cases v with
  | num n =>
    have hmem : ']' ∈ n.text := by
      rw [text] at hv
      exact hv ▸ mem_cons_self
    exact absurd (n.shape _ hmem) (by decide)
  | bool b => cases b <;> exact absurd (hnum.symm.trans hc) (by decide)
  | null => exact absurd (hnum.symm.trans hc) (by decide)
  | str s => exact absurd (hnum.symm.trans hc) (by simp [kind])
  | arr elems => exact absurd (hnum.symm.trans hc) (by simp [kind])
  | obj fields => exact absurd (hnum.symm.trans hc) (by simp [kind])

mutual

theorem text_delimited : (a b : Tree) → (x y : List Char) → Ends x → Ends y →
    text a ++ x = text b ++ y → a = b ∧ x = y
  | a, b, x, y, hx, hy, h => by
    have hkind := kind_eq h
    match a, b, hkind, h with
    | .null, .null, _, h => exact ⟨rfl, append_cancel_left h⟩
    | .bool true, .bool true, _, h => exact ⟨rfl, append_cancel_left h⟩
    | .bool false, .bool false, _, h => exact ⟨rfl, append_cancel_left h⟩
    | .num n, .num m, _, h =>
      rw [text, text] at h
      obtain ⟨hnm, hxy⟩ := number_delimited hx hy h
      exact ⟨congrArg Tree.num hnm, hxy⟩
    | .str s, .str t, _, h =>
      rw [text, text] at h
      obtain ⟨hst, hxy⟩ := quote_delimited _ _ _ _ h
      exact ⟨congrArg Tree.str hst, hxy⟩
    | .arr as, .arr bs, _, h =>
      rw [text, text] at h
      obtain ⟨hab, hxy⟩ := elems_delimited as bs x y (List.cons.inj h).2
      exact ⟨congrArg Tree.arr hab, hxy⟩
    | .obj fs, .obj gs, _, h =>
      rw [text, text] at h
      obtain ⟨hfg, hxy⟩ := fields_delimited fs gs x y (List.cons.inj h).2
      exact ⟨congrArg Tree.obj hfg, hxy⟩

theorem elems_delimited : (as bs : List Tree) → (x y : List Char) →
    textElems as ++ x = textElems bs ++ y → as = bs ∧ x = y
  | [], [], x, y, h => ⟨rfl, append_cancel_left h⟩
  | [], b :: bs, x, y, h => by
    rw [textElems, textElems, append_assoc] at h
    exact absurd h.symm elem_ne_close
  | a :: as, [], x, y, h => by
    rw [textElems, textElems, append_assoc] at h
    exact absurd h elem_ne_close
  | a :: as, b :: bs, x, y, h => by
    rw [textElems, textElems, append_assoc, append_assoc] at h
    obtain ⟨hab, hrest⟩ := text_delimited a b _ _ (ends_rest as x) (ends_rest bs y) h
    obtain ⟨htail, hxy⟩ := rest_delimited as bs x y hrest
    exact ⟨congrArg₂ List.cons hab htail, hxy⟩

theorem rest_delimited : (as bs : List Tree) → (x y : List Char) →
    textRest as ++ x = textRest bs ++ y → as = bs ∧ x = y
  | [], [], x, y, h => ⟨rfl, append_cancel_left h⟩
  | [], b :: bs, x, y, h => by
    rw [textRest, textRest] at h
    exact absurd (List.cons.inj h).1 (by decide)
  | a :: as, [], x, y, h => by
    rw [textRest, textRest] at h
    exact absurd (List.cons.inj h).1 (by decide)
  | a :: as, b :: bs, x, y, h => by
    rw [textRest, textRest, cons_append, cons_append, append_assoc, append_assoc] at h
    obtain ⟨hab, hrest⟩ := text_delimited a b _ _ (ends_rest as x) (ends_rest bs y) (List.cons.inj h).2
    obtain ⟨htail, hxy⟩ := rest_delimited as bs x y hrest
    exact ⟨congrArg₂ List.cons hab htail, hxy⟩

theorem fields_delimited : (fs gs : List (String × Tree)) → (x y : List Char) →
    textFields fs ++ x = textFields gs ++ y → fs = gs ∧ x = y
  | [], [], x, y, h => ⟨rfl, append_cancel_left h⟩
  | [], (k, v) :: gs, x, y, h => by
    rw [textFields, textFields, quote] at h
    exact absurd (List.cons.inj h).1 (by decide)
  | (k, v) :: fs, [], x, y, h => by
    rw [textFields, textFields, quote] at h
    exact absurd (List.cons.inj h).1 (by decide)
  | (k, v) :: fs, (l, w) :: gs, x, y, h => by
    rw [textFields, textFields, append_assoc, append_assoc] at h
    obtain ⟨hkl, hrest⟩ := quote_delimited _ _ _ _ h
    rw [cons_append, cons_append, append_assoc, append_assoc] at hrest
    obtain ⟨hvw, hmore⟩ := text_delimited v w _ _ (ends_more fs x) (ends_more gs y) (List.cons.inj hrest).2
    obtain ⟨htail, hxy⟩ := more_delimited fs gs x y hmore
    exact ⟨congrArg₂ List.cons (Prod.ext hkl hvw) htail, hxy⟩

theorem more_delimited : (fs gs : List (String × Tree)) → (x y : List Char) →
    textMore fs ++ x = textMore gs ++ y → fs = gs ∧ x = y
  | [], [], x, y, h => ⟨rfl, append_cancel_left h⟩
  | [], (k, v) :: gs, x, y, h => by
    rw [textMore, textMore] at h
    exact absurd (List.cons.inj h).1 (by decide)
  | (k, v) :: fs, [], x, y, h => by
    rw [textMore, textMore] at h
    exact absurd (List.cons.inj h).1 (by decide)
  | (k, v) :: fs, (l, w) :: gs, x, y, h => by
    rw [textMore, textMore, cons_append, cons_append, append_assoc, append_assoc] at h
    obtain ⟨hkl, hrest⟩ := quote_delimited _ _ _ _ (List.cons.inj h).2
    rw [cons_append, cons_append, append_assoc, append_assoc] at hrest
    obtain ⟨hvw, hmore⟩ := text_delimited v w _ _ (ends_more fs x) (ends_more gs y) (List.cons.inj hrest).2
    obtain ⟨htail, hxy⟩ := more_delimited fs gs x y hmore
    exact ⟨congrArg₂ List.cons (Prod.ext hkl hvw) htail, hxy⟩

end

theorem utf8_injective {cs ds : List Char} (h : utf8 cs = utf8 ds) : cs = ds := by
  have hbytes : (String.ofList cs).toByteArray = (String.ofList ds).toByteArray :=
    congrArg List.toByteArray h
  exact String.ofList_injective (String.toByteArray_inj.mp hbytes)

theorem marshal_injective {a b : Tree} (h : marshal a = marshal b) : a = b := by
  have hends : Ends [] := fun c hc => nomatch hc
  exact (text_delimited a b [] [] hends hends (congrArg (· ++ []) (utf8_injective h))).1

end trees

end JsonText
