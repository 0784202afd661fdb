import QuiPanel.LinkIdentity

namespace QuiPanel

namespace LinkParser

open ByteText List

section body

def blank (c : UInt8) : Bool := c == 32 || c == 10 || c == 13 || c == 9

def tryBase64 (s : Bytes) : Option Bytes :=
  let clean := padBase64 (s.filter fun c => !blank c)
  ((stdDecode clean).or (rawURLDecode clean)).or (urlDecode clean)

def lineEnd (c : UInt8) : Bool := c == 10 || c == 13

def replaceNewlines : Bytes → Bytes
  | [] => []
  | 92 :: 110 :: s => 10 :: replaceNewlines s
  | c :: s => c :: replaceNewlines s

def splitLines (s : Bytes) : List Bytes := ((replaceNewlines s).splitOnP lineEnd).filter (· ≠ [])

def parseLine (env : Env) (ln : Bytes) : Option ParseResult :=
  let ln := trimSpace ln
  if ln = [] ∨ ln.head? = some 35 then none else parseLink env ln

def parseSubscriptionBody (env : Env) (body : Bytes) : List Object × List Bytes :=
  let text := trimSpace body
  if text = [] then ([], [])
  else
    let text := match tryBase64 text with
      | some decoded => trimSpace decoded
      | none => text
    let results := (splitLines text).filterMap (parseLine env)
    (results.map ParseResult.outbound, results.map ParseResult.identity)

end body

section lines

variable {env : Env} {a b s w code : Bytes}

def harvest (env : Env) (s : Bytes) : List ParseResult := (splitLines s).filterMap (parseLine env)

theorem harvest_gather (env : Env) (s : Bytes) :
    harvest env s = gather lineEnd (parseLine env) (replaceNewlines s) := by
  rw [harvest, splitLines, gather, filterMap_filter]
  congr 1
  funext ln
  cases ln with
  | nil => rfl
  | cons c ln => rfl

theorem replaceNewlines_cons {c : UInt8} (h : c = 92 → s.head? ≠ some 110) :
    replaceNewlines (c :: s) = c :: replaceNewlines s := by
  rw [replaceNewlines]
  intro t hc hs
  exact h hc (by rw [hs]; rfl)

theorem replaceNewlines_append (hb : b.head? ≠ some 110) (a : Bytes) :
    replaceNewlines (a ++ b) = replaceNewlines a ++ replaceNewlines b := by
  fun_induction replaceNewlines a with
  | case1 => rfl
  | case2 s ih => rw [cons_append, cons_append, replaceNewlines, ih, cons_append]
  | case3 c s hplain ih =>
    rw [cons_append, replaceNewlines_cons, ih, cons_append]
    intro hc hhead
    cases s with
    | nil => exact hb hhead
    | cons d s => exact hplain s hc (congrArg (· :: s) (Option.some.inj hhead))

theorem replaceNewlines_before (h : 92 ∉ w) (s : Bytes) : replaceNewlines (w ++ s) = w ++ replaceNewlines s := by
  induction w with
  | nil => rfl
  | cons c w ih =>
    rw [mem_cons, not_or] at h
    rw [cons_append, replaceNewlines_cons fun hc => absurd hc.symm h.1, ih h.2, cons_append]

theorem replaceNewlines_self (h : 92 ∉ w) : replaceNewlines w = w := by
  have hback := replaceNewlines_before h []
  rwa [append_nil, replaceNewlines, append_nil] at hback

theorem lineEnd_cases {c : UInt8} (hc : lineEnd c = true) : c = 10 ∨ c = 13 := by
  rw [lineEnd, Bool.or_eq_true, beq_iff_eq, beq_iff_eq] at hc
  exact hc

theorem harvest_break {c : UInt8} (hc : lineEnd c = true) (a b : Bytes) :
    harvest env (a ++ c :: b) = harvest env a ++ harvest env b := by
  have hplain : c ≠ 92 ∧ c ≠ 110 := by
    rcases lineEnd_cases hc with rfl | rfl
    · decide
    · decide
  have hhead : (c :: b).head? ≠ some 110 := fun heq => hplain.2 (Option.some.inj heq)
  rw [harvest_gather, replaceNewlines_append hhead, replaceNewlines_cons fun heq => absurd heq hplain.1,
    gather_break hc, ← harvest_gather, ← harvest_gather]

theorem harvest_nil (env : Env) : harvest env [] = [] := rfl

theorem spaces_plain : ∀ code ∈ spaces, 92 ∉ code ∧ code.head? ≠ some 110 ∧ 58 ∉ code ∧
    ((∃ c, lineEnd c = true ∧ code = [c]) ∨ ∀ c ∈ code, lineEnd c = false) := by
  have hbreaks : spaces.all (fun code => decide (92 ∉ code ∧ code.head? ≠ some 110 ∧ 58 ∉ code ∧
      (code = [10] ∨ code = [13] ∨ code.all (fun c => !lineEnd c) = true))) = true := by
    decide +kernel
  intro code hcode
  obtain ⟨hslash, hhead, hcolon, hlines⟩ := of_decide_eq_true (all_eq_true.mp hbreaks code hcode)
  refine ⟨hslash, hhead, hcolon, ?_⟩
  rcases hlines with hlf | hcr | hnone
  · exact .inl ⟨10, rfl, hlf⟩
  · exact .inl ⟨13, rfl, hcr⟩
  · exact .inr fun c hc => Bool.eq_false_of_not_eq_true' (all_eq_true.mp hnone c hc)

theorem parseLine_before (hcode : code ∈ spaces) (s : Bytes) : parseLine env (code ++ s) = parseLine env s := by
  rw [parseLine, parseLine, trimSpace_before hcode]

theorem parseLine_after (hcode : code ∈ spaces) (s : Bytes) : parseLine env (s ++ code) = parseLine env s := by
  rw [parseLine, parseLine, trimSpace_after hcode]

theorem harvest_before (hcode : code ∈ spaces) (s : Bytes) : harvest env (code ++ s) = harvest env s := by
  obtain ⟨hslash, _, _, ⟨c, hc, rfl⟩ | hline⟩ := spaces_plain code hcode
  · exact (harvest_break hc [] s).trans (by rw [harvest_nil, nil_append])
  · rw [harvest_gather, replaceNewlines_before hslash, gather_before hline (parseLine_before hcode), ← harvest_gather]

theorem harvest_after (hcode : code ∈ spaces) (s : Bytes) : harvest env (s ++ code) = harvest env s := by
  obtain ⟨hslash, hhead, _, ⟨c, hc, rfl⟩ | hline⟩ := spaces_plain code hcode
  · rw [harvest_break hc s [], harvest_nil, append_nil]
  · rw [harvest_gather, replaceNewlines_append hhead, replaceNewlines_self hslash,
      gather_after hline (parseLine_after hcode), ← harvest_gather]

theorem harvest_trimSpace (s : Bytes) : harvest env (trimSpace s) = harvest env s :=
  trim_invariant (fun _ hcode => harvest_before hcode) (fun _ hcode => harvest_after hcode) s

def newlines : List Bytes := [[10], [13, 10]]

theorem harvest_intercalate {nl : Bytes} (hnl : nl ∈ newlines) (ls : List Bytes) :
    harvest env (List.intercalate nl ls) = ls.flatMap (harvest env) := by
  have hcut : ∀ a b, harvest env (a ++ (nl ++ b)) = harvest env a ++ harvest env b := by
    intro a b
    rcases mem_cons.mp hnl with rfl | hcrlf
    · exact harvest_break rfl a b
    · obtain rfl := mem_singleton.mp hcrlf
      exact (harvest_break rfl a (10 :: b)).trans (congrArg (harvest env a ++ ·) (harvest_break rfl [] b))
  induction ls with
  | nil => rfl
  | cons l ls ih =>
    cases ls with
    | nil => rw [intercalate_singleton, flatMap_singleton]
    | cons l' ls =>
      rw [intercalate_cons_cons, append_assoc, hcut, ih]
      exact flatMap_cons.symm

end lines

section decoding

variable {env : Env} {s t : Bytes} {c : Char}

def charByte (c : Char) : UInt8 := c.toNat.toUInt8

def toUrl (b : UInt8) : UInt8 := if b = 43 then 45 else if b = 47 then 95 else b

def stdText (s : Bytes) : Bytes := (Base64.encode s).map charByte

def urlText (s : Bytes) : Bytes := (Base64.encode s).map (toUrl ∘ charByte)

def unpadded (t : Bytes) : Bytes := t.filter (· ≠ 61)

def encodings (s : Bytes) : List Bytes := [stdText s, unpadded (stdText s), urlText s, unpadded (urlText s)]

def graphic (b : UInt8) : Bool := 33 ≤ b && b < 127

def Foreign (c : Char) : Prop := Base64.digit c = none ∧ c ≠ '=' ∧ c ≠ '\n' ∧ c ≠ '\r'

structure Symbol (c : Char) : Prop where
  std : glyph (charByte c) = c
  url : urlGlyph (glyph (toUrl (charByte c))) = c
  pad : charByte c ≠ 61 ↔ c ≠ '='
  urlPad : toUrl (charByte c) ≠ 61 ↔ c ≠ '='
  printed : graphic (charByte c) = true
  urlPrinted : graphic (toUrl (charByte c)) = true
  foreign : toUrl (charByte c) = charByte c ∨ Foreign (glyph (toUrl (charByte c)))

theorem symbol_of_encode (hc : c ∈ Base64.encode s) : Symbol c := by
  have hall : ('=' :: Base64.alphabet).all (fun c => decide (glyph (charByte c) = c ∧
      urlGlyph (glyph (toUrl (charByte c))) = c ∧ (charByte c ≠ 61 ↔ c ≠ '=') ∧ (toUrl (charByte c) ≠ 61 ↔ c ≠ '=') ∧
      graphic (charByte c) = true ∧ graphic (toUrl (charByte c)) = true ∧ (toUrl (charByte c) = charByte c ∨
        (Base64.digit (glyph (toUrl (charByte c))) = none ∧ glyph (toUrl (charByte c)) ≠ '=' ∧
          glyph (toUrl (charByte c)) ≠ '\n' ∧ glyph (toUrl (charByte c)) ≠ '\r')))) = true := by
    decide +kernel
  have hmem : c ∈ '=' :: Base64.alphabet := by
    rcases Base64.encode_chars s c hc with hin | rfl
    · exact mem_cons_of_mem _ hin
    · exact mem_cons_self
  obtain ⟨std, url, pad, urlPad, printed, urlPrinted, foreign⟩ :=
    of_decide_eq_true (all_eq_true.mp hall c hmem)
  exact ⟨std, url, pad, urlPad, printed, urlPrinted, foreign⟩

theorem stdDecode_stdText (s : Bytes) : stdDecode (stdText s) = some s := by
  have hback : (stdText s).map glyph = Base64.encode s := by
    rw [stdText, map_map]
    exact (map_congr_left fun c hc => (symbol_of_encode hc).std).trans (map_id _)
  rw [stdDecode, hback, Base64.decode_encode]

theorem urlDecode_urlText (s : Bytes) : urlDecode (urlText s) = some s := by
  have hback : ((urlText s).map glyph).map urlGlyph = Base64.encode s := by
    rw [urlText, map_map, map_map]
    exact (map_congr_left fun c hc => (symbol_of_encode hc).url).trans (map_id _)
  rw [urlDecode, hback, Base64.decode_encode]

theorem decode_foreign {cs : List Char} (hc : Foreign c) (hmem : c ∈ cs) : Base64.decode cs = none := by
  obtain ⟨hdigit, hpad, hlf, hcr⟩ := hc
  cases hdecode : Base64.decode cs with
  | none => rfl
  | some bs =>
    rcases Base64.decode_chars hdecode hmem hlf hcr with hsome | heq
    · rw [hdigit] at hsome
      cases hsome
    · exact absurd heq hpad

theorem stdDecode_urlText (s : Bytes) : stdDecode (urlText s) = none ∨ stdDecode (urlText s) = some s := by
  by_cases hsame : ∀ c ∈ Base64.encode s, toUrl (charByte c) = charByte c
  · have htext : urlText s = stdText s := map_congr_left hsame
    rw [htext]
    exact .inr (stdDecode_stdText s)
  · rw [not_forall] at hsame
    obtain ⟨c, hc⟩ := hsame
    obtain ⟨hmem, hne⟩ := Classical.not_imp.mp hc
    have hforeign := (symbol_of_encode hmem).foreign.resolve_left hne
    exact .inl (decode_foreign hforeign (mem_map_of_mem (mem_map_of_mem hmem)))

theorem text_length (s : Bytes) : 4 ∣ (stdText s).length ∧ 4 ∣ (urlText s).length := by
  obtain ⟨k, _, hlength, _⟩ := Base64.encode_padding s
  rw [stdText, urlText, length_map, length_map]
  exact ⟨hlength, hlength⟩

theorem padBase64_full (h : 4 ∣ t.length) : padBase64 t = t := by
  have hnone : (4 - t.length % 4) % 4 = 0 := by omega
  rw [padBase64, padTo, hnone, replicate_zero, append_nil]

theorem padBase64_unpadded {k : Nat} (hk : k ≤ 2) (hlength : 4 ∣ t.length)
    (hpad : t = unpadded t ++ List.replicate k 61) : padBase64 (unpadded t) = t := by
  have hsize := congrArg List.length hpad
  rw [length_append, length_replicate] at hsize
  have hmissing : (4 - (unpadded t).length % 4) % 4 = k := by omega
  rw [padBase64, padTo, hmissing, ← hpad]

theorem unpadded_map {f : Char → UInt8} (hf : ∀ c ∈ Base64.encode s, f c ≠ 61 ↔ c ≠ '=') (hpad : f '=' = 61) :
    ∃ k ≤ 2, (Base64.encode s).map f = unpadded ((Base64.encode s).map f) ++ List.replicate k 61 := by
  obtain ⟨k, hk, _, hsplit⟩ := Base64.encode_padding s
  have hkeep : unpadded ((Base64.encode s).map f) = ((Base64.encode s).filter (· ≠ '=')).map f := by
    rw [unpadded, filter_map]
    congr 1
    refine filter_congr fun c hc => ?_
    rw [Function.comp_apply, decide_eq_decide]
    exact hf c hc
  refine ⟨k, hk, ?_⟩
  rw [hkeep, ← hpad, ← map_replicate, ← map_append, ← hsplit]

theorem padBase64_encodings (h : t ∈ encodings s) : padBase64 t = stdText s ∨ padBase64 t = urlText s := by
  obtain ⟨hstd, hurl⟩ := text_length s
  obtain ⟨k, hk, hstdPad⟩ := @unpadded_map s charByte (fun c hc => (symbol_of_encode hc).pad) rfl
  obtain ⟨m, hm, hurlPad⟩ := @unpadded_map s (toUrl ∘ charByte) (fun c hc => (symbol_of_encode hc).urlPad) rfl
  simp only [encodings, mem_cons, not_mem_nil, or_false] at h
  rcases h with rfl | rfl | rfl | rfl
  · exact .inl (padBase64_full hstd)
  · exact .inl (padBase64_unpadded hk hstd hstdPad)
  · exact .inr (padBase64_full hurl)
  · exact .inr (padBase64_unpadded hm hurl hurlPad)

theorem encodings_graphic (h : t ∈ encodings s) : ∀ b ∈ t, graphic b = true := by
  have hstd : ∀ b ∈ stdText s, graphic b = true :=
    forall_mem_map.mpr fun c hc => (symbol_of_encode hc).printed
  have hurl : ∀ b ∈ urlText s, graphic b = true :=
    forall_mem_map.mpr fun c hc => (symbol_of_encode hc).urlPrinted
  simp only [encodings, mem_cons, not_mem_nil, or_false] at h
  rcases h with rfl | rfl | rfl | rfl
  · exact hstd
  · exact fun b hb => hstd b (mem_filter.mp hb).1
  · exact hurl
  · exact fun b hb => hurl b (mem_filter.mp hb).1

theorem rawURLDecode_urlText (s : Bytes) : rawURLDecode (urlText s) = none ∨ rawURLDecode (urlText s) = some s := by
  have hmem : urlText s ∈ encodings s := by simp [encodings]
  have hall : (urlText s).filter (fun b => b != 10 && b != 13) = urlText s := by
    rw [filter_eq_self]
    intro b hb
    have hprinted := encodings_graphic hmem b hb
    rw [Bool.and_eq_true, bne_iff_ne, bne_iff_ne]
    refine ⟨fun hlf => ?_, fun hcr => ?_⟩
    · rw [hlf] at hprinted
      cases hprinted
    · rw [hcr] at hprinted
      cases hprinted
  rw [rawURLDecode]
  split
  case isTrue => exact .inl rfl
  case isFalse =>
    rw [hall]
    have hpad := padBase64_full (text_length s).2
    rw [padBase64] at hpad
    rw [hpad]
    exact .inr (urlDecode_urlText s)

theorem tryBase64_encodings (h : t.filter (fun c => !blank c) ∈ encodings s) : tryBase64 t = some s := by
  rw [tryBase64]
  rcases padBase64_encodings h with hstd | hurl
  · rw [hstd, stdDecode_stdText]
    rfl
  · rw [hurl, urlDecode_urlText]
    rcases stdDecode_urlText s with hnone | hsome
    · rw [hnone]
      rcases rawURLDecode_urlText s with hraw | hraw
      · rw [hraw]
        rfl
      · rw [hraw]
        rfl
    · rw [hsome]
      rfl

theorem tryBase64_colon (h : 58 ∈ t) : tryBase64 t = none := by
  have hcolon : Base64.digit (glyph 58) = none ∧ glyph 58 ≠ '=' ∧ glyph 58 ≠ '\n' ∧ glyph 58 ≠ '\r' ∧
      urlGlyph (glyph 58) = glyph 58 := by
    decide +kernel
  have hforeign : Foreign (glyph 58) := ⟨hcolon.1, hcolon.2.1, hcolon.2.2.1, hcolon.2.2.2.1⟩
  have hstd : ∀ {u : Bytes}, 58 ∈ u → stdDecode u = none :=
    fun hu => decode_foreign hforeign (mem_map_of_mem hu)
  have hurl : ∀ {u : Bytes}, 58 ∈ u → urlDecode u = none :=
    fun hu => decode_foreign hforeign (mem_map.mpr ⟨glyph 58, mem_map_of_mem hu, hcolon.2.2.2.2⟩)
  have hraw : ∀ {u : Bytes}, 58 ∈ u → rawURLDecode u = none := by
    intro u hu
    rw [rawURLDecode]
    split
    case isTrue => rfl
    case isFalse => exact hurl (mem_append_left _ (mem_filter.mpr ⟨hu, rfl⟩))
  have hclean : 58 ∈ padBase64 (t.filter fun c => !blank c) :=
    mem_append_left _ (mem_filter.mpr ⟨h, rfl⟩)
  rw [tryBase64, hstd hclean, hraw hclean, hurl hclean]
  rfl

end decoding

section presentations

variable {env : Env} {s t body ln : Bytes} {ls : List Bytes}

def Presents (ls : List Bytes) (body : Bytes) : Prop :=
  ∃ nl ∈ newlines, body = List.intercalate nl ls ∨
    body.filter (fun c => !blank c) ∈ encodings (List.intercalate nl ls)

def OneLine (ln : Bytes) : Prop := (∀ c ∈ ln, lineEnd c = false) ∧ ¬ [92, 110] <:+: ln

def outcome (results : List ParseResult) : List Object × List Bytes :=
  (results.map ParseResult.outbound, results.map ParseResult.identity)

theorem trimSpace_subset (s : Bytes) : trimSpace s ⊆ s := by
  obtain ⟨ws, vs, _, _, hsplit⟩ := trimSpace_spec s
  intro c hc
  rw [hsplit]
  exact mem_append_right _ (mem_append_left _ hc)

theorem colon_trimSpace (h : 58 ∈ s) : 58 ∈ trimSpace s := by
  have hflat : ∀ {ws : List Bytes}, (∀ w ∈ ws, w ∈ spaces) → 58 ∉ ws.flatten := by
    intro ws hws hmem
    obtain ⟨w, hw, hin⟩ := mem_flatten.mp hmem
    exact (spaces_plain w (hws w hw)).2.2.1 hin
  obtain ⟨ws, vs, hws, hvs, hsplit⟩ := trimSpace_spec s
  rw [hsplit, mem_append, mem_append] at h
  rcases h with hin | hin | hin
  · exact absurd hin (hflat hws)
  · exact hin
  · exact absurd hin (hflat hvs)

theorem filter_trimSpace (h : ∀ b ∈ s.filter (fun c => !blank c), graphic b = true) :
    (trimSpace s).filter (fun c => !blank c) = s.filter fun c => !blank c := by
  have hplain : spaces.all (fun code => code.all fun b => !graphic b) = true := by decide +kernel
  have hflat : ∀ {ws : List Bytes}, (∀ w ∈ ws, w ∈ spaces) → ws.flatten ⊆ s →
      ws.flatten.filter (fun c => !blank c) = [] := by
    intro ws hws hsub
    rw [filter_eq_nil_iff]
    intro b hb hvisible
    obtain ⟨w, hw, hin⟩ := mem_flatten.mp hb
    have hprinted := h b (mem_filter.mpr ⟨hsub hb, hvisible⟩)
    have hhidden := all_eq_true.mp (all_eq_true.mp hplain w (hws w hw)) b hin
    rw [hprinted] at hhidden
    cases hhidden
  obtain ⟨ws, vs, hws, hvs, hsplit⟩ := trimSpace_spec s
  have hleft : ws.flatten ⊆ s := by
    rw [hsplit]
    exact fun b hb => mem_append_left _ hb
  have hright : vs.flatten ⊆ s := by
    rw [hsplit]
    exact fun b hb => mem_append_right _ (mem_append_right _ hb)
  have hfilter := congrArg (List.filter fun c => !blank c) hsplit
  rw [filter_append, filter_append, hflat hws hleft, hflat hvs hright, nil_append,
    append_nil] at hfilter
  exact hfilter.symm

theorem prefixes_plain : ∀ entry ∈ prefixes, 58 ∈ lit entry.1 ∧ (lit entry.1).head? ≠ none ∧
    (lit entry.1).head? ≠ some 35 := by
  decide +kernel

theorem colon_of_link (h : (parseLink env ln).isSome) : 58 ∈ ln := by
  obtain ⟨r, hr⟩ := Option.isSome_iff_exists.mp h
  obtain ⟨scheme, hs, _⟩ := parseLink_scheme hr
  obtain ⟨entry, hfind, _⟩ := Option.map_eq_some_iff.mp hs
  have hfound := find?_some hfind
  obtain ⟨rest, hrest⟩ := List.isPrefixOf_iff_prefix.mp hfound
  refine trimSpace_subset ln ?_
  rw [← hrest]
  exact mem_append_left _ (prefixes_plain entry (mem_of_find?_eq_some hfind)).1

theorem mem_intercalate {c : UInt8} (nl : Bytes) (hln : ln ∈ ls) (hc : c ∈ ln) : c ∈ List.intercalate nl ls := by
  induction ls with
  | nil => exact absurd hln not_mem_nil
  | cons l ls ih =>
    cases ls with
    | nil =>
      rw [intercalate_singleton, ← mem_singleton.mp hln]
      exact hc
    | cons l' ls =>
      rw [intercalate_cons_cons]
      rcases mem_cons.mp hln with rfl | hrest
      · exact mem_append_left _ (mem_append_left _ hc)
      · exact mem_append_right _ (ih hrest)

theorem parse_text (hne : trimSpace body ≠ []) (htext : tryBase64 (trimSpace body) = none) :
    parseSubscriptionBody env body = outcome (harvest env body) := by
  rw [parseSubscriptionBody, if_neg hne, htext, ← harvest_trimSpace body]
  rfl

theorem parse_encoded (hne : trimSpace body ≠ []) (htext : tryBase64 (trimSpace body) = some s) :
    parseSubscriptionBody env body = outcome (harvest env s) := by
  rw [parseSubscriptionBody, if_neg hne, htext, ← harvest_trimSpace s]
  rfl

theorem schemeOf_none (h : t.head? = none ∨ t.head? = some 35) : schemeOf t = none := by
  rw [schemeOf, Option.map_eq_none_iff, find?_eq_none]
  intro entry hentry hpre
  obtain ⟨rest, rfl⟩ := List.isPrefixOf_iff_prefix.mp hpre
  obtain ⟨_, hsome, hhash⟩ := prefixes_plain entry hentry
  obtain ⟨c, hc⟩ := Option.ne_none_iff_exists'.mp hsome
  rw [head?_append, hc, Option.some_or] at h
  rw [hc] at hhash
  rcases h with hnone | heq
  · cases hnone
  · exact hhash heq

theorem parseLine_eq (env : Env) (ln : Bytes) : parseLine env ln = parseLink env ln := by
  rw [parseLine]
  split
  case isTrue hskip =>
    rw [parseLink, schemeOf_none, Option.bind_none]
    rcases hskip with hnil | hhash
    · exact .inl (by rw [hnil]; rfl)
    · exact .inr hhash
  case isFalse => rw [parseLink, parseLink, trimSpace_idem]

theorem replaceNewlines_free (h : ¬ [92, 110] <:+: s) : replaceNewlines s = s := by
  fun_induction replaceNewlines s with
  | case1 => rfl
  | case2 s ih => exact absurd (prefix_append [92, 110] s).isInfix h
  | case3 c s hplain ih => rw [ih fun hin => h (infix_cons hin)]

theorem harvest_oneLine (h : OneLine ln) : harvest env ln = (parseLink env ln).toList := by
  rw [harvest_gather, replaceNewlines_free h.2, gather_line h.1, parseLine_eq]

theorem body_uniform (env : Env) (ls : List Bytes) (body : Bytes)
    (hshare : ∃ ln ∈ ls, (parseLink env ln).isSome) (h : Presents ls body) :
    parseSubscriptionBody env body = outcome (ls.flatMap (harvest env)) ∧
      ∀ ln ∈ ls, OneLine ln → harvest env ln = (parseLink env ln).toList ∧
        ((trimSpace ln).head? = some 35 → harvest env ln = []) := by
  obtain ⟨nl, hnl, hbody⟩ := h
  obtain ⟨share, hmem, haccepted⟩ := hshare
  have hcolon := mem_intercalate nl hmem (colon_of_link haccepted)
  refine ⟨?_, fun ln _ hln => ⟨harvest_oneLine hln, fun hcomment => ?_⟩⟩
  · rw [← harvest_intercalate hnl]
    rcases hbody with rfl | hencoded
    · have htrim := colon_trimSpace hcolon
      exact parse_text (ne_nil_of_mem htrim) (tryBase64_colon htrim)
    · have hfilter := filter_trimSpace (encodings_graphic hencoded)
      have hdecode := tryBase64_encodings (hfilter ▸ hencoded)
      refine parse_encoded (fun hnil => ?_) hdecode
      rw [hnil] at hdecode
      rw [← Option.some.inj hdecode] at hcolon
      exact absurd hcolon not_mem_nil
  · rw [harvest_oneLine hln, parseLink, schemeOf_none (.inr hcomment), Option.bind_none, Option.toList_none]

def sampleLines : List Bytes := [lit "# mirrors", lit "vless://u@h:443?type=ws#a", lit "not a link"]

def sampleShare : Bytes := lit "vless://u@h:443?type=ws#a"

def wrapped (gap : Bytes) : Bytes :=
  let text := stdText (List.intercalate [13, 10] sampleLines)
  text.take 6 ++ (gap ++ text.drop 6)

theorem sample_facts : (parseLink bareEnv sampleShare).isSome ∧
    (sampleShare.all (fun c => !lineEnd c) = true ∧ ¬ [92, 110] <:+: sampleShare) ∧
      (wrapped [13, 10, 32]).filter (fun c => !blank c) ∈ encodings (List.intercalate [13, 10] sampleLines) ∧
        (wrapped [11]).filter (fun c => !spaces.contains [c]) ∈ encodings (List.intercalate [13, 10] sampleLines) ∧
          (parseSubscriptionBody bareEnv (wrapped [11])).2 ≠
            (parseSubscriptionBody bareEnv (List.intercalate [13, 10] sampleLines)).2 := by
  decide +kernel

theorem sampleLines_shared : ∃ ln ∈ sampleLines, (parseLink bareEnv ln).isSome :=
  ⟨sampleShare, .tail _ (.head _), sample_facts.1⟩

theorem body_uniform_wrapped : ∃ r, parseLink bareEnv sampleShare = some r ∧
    parseSubscriptionBody bareEnv (wrapped [13, 10, 32]) = outcome (sampleLines.flatMap (harvest bareEnv)) ∧
      harvest bareEnv sampleShare = [r] := by
  obtain ⟨haccepted, ⟨hflat, hbare⟩, hencoded, _⟩ := sample_facts
  have hpresents : Presents sampleLines (wrapped [13, 10, 32]) := ⟨[13, 10], .tail _ (.head _), .inr hencoded⟩
  obtain ⟨hresult, hlines⟩ := body_uniform bareEnv sampleLines (wrapped [13, 10, 32]) sampleLines_shared hpresents
  have hline := (hlines sampleShare (.tail _ (.head _))
    ⟨fun c hc => Bool.eq_false_of_not_eq_true' (all_eq_true.mp hflat c hc), hbare⟩).1
  obtain ⟨r, hr⟩ := Option.isSome_iff_exists.mp haccepted
  exact ⟨r, hr, hresult, hline.trans (congrArg Option.toList hr)⟩

theorem vertical_tab_breaks : ∃ ls body, (∃ ln ∈ ls, (parseLink bareEnv ln).isSome) ∧
    body.filter (fun c => !spaces.contains [c]) ∈ encodings (List.intercalate [13, 10] ls) ∧
      parseSubscriptionBody bareEnv body ≠ parseSubscriptionBody bareEnv (List.intercalate [13, 10] ls) := by
  obtain ⟨_, _, _, hencoded, hdiffers⟩ := sample_facts
  exact ⟨sampleLines, wrapped [11], sampleLines_shared, hencoded, fun heq => hdiffers (congrArg Prod.snd heq)⟩

end presentations

end LinkParser

end QuiPanel
