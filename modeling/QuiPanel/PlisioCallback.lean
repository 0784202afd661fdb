import QuiPanel.Text
import QuiPanel.Library.ByteText
import QuiPanel.Library.Framing

namespace QuiPanel

namespace PlisioCallback

open Framing List

abbrev Bytes := List UInt8

structure Values where
  rows : List (Bytes × List Bytes)
  nodup : (rows.map (·.1)).Nodup

def Values.Has (form : Values) (k : Bytes) : Prop := k ∈ form.rows.map (·.1)

def Values.get (form : Values) (k : Bytes) : Bytes := ((form.rows.find? (·.1 = k)).bind (·.2.head?)).getD []

def ascii (s : String) : Bytes := s.toList.map fun c => c.toNat.toUInt8

def itoa (n : Nat) : Bytes := (Nat.toDigits 10 n).map fun c => c.toNat.toUInt8

def phpSerializeString (s : Bytes) : Bytes :=
  ascii "s:" ++ itoa s.length ++ ascii ":\"" ++ s ++ ascii "\";"

def verifyHashKey : Bytes := ascii "verify_hash"

def signedKeys (form : Values) : List Bytes :=
  ((form.rows.map (·.1)).filter (· ≠ verifyHashKey)).insertionSort (· ≤ ·)

def payload (form : Values) : Bytes :=
  ascii "a:" ++ itoa (signedKeys form).length ++ ascii ":\x7b" ++
    (signedKeys form).flatMap (fun k => phpSerializeString k ++ phpSerializeString (form.get k)) ++ ascii "\x7d"

def hexDigit (n : Nat) : UInt8 := if n < 10 then (48 + n).toUInt8 else (87 + n).toUInt8

def hexEncode (bs : Bytes) : Bytes := bs.flatMap fun b => [hexDigit (b.toNat / 16), hexDigit (b.toNat % 16)]

def verifyCallback (mac : String → Bytes → Bytes) (form : Values) (secret : String) : Bool :=
  let verifyHash := form.get verifyHashKey
  if verifyHash.isEmpty || Text.trimSpace secret == "" then false
  else hexEncode (mac secret (payload form)) == verifyHash

structure Agree (form form' : Values) : Prop where
  keys : ∀ k ≠ verifyHashKey, form.Has k ↔ form'.Has k
  values : ∀ k ≠ verifyHashKey, form.get k = form'.get k

section digits

variable {m n : Nat} {c : Char}

theorem itoa_repr (n : Nat) : itoa n = ByteText.lit (Nat.repr n) := by
  rw [itoa, ByteText.lit, Nat.toList_repr]

theorem itoa_inj (h : itoa m = itoa n) : m = n := by
  rw [itoa_repr, itoa_repr] at h
  exact ByteText.lit_repr_injective h

theorem colon_not_digit (n : Nat) : (58 : UInt8) ∉ itoa n := by
  intro h
  rw [itoa_repr] at h
  cases ByteText.lit_repr_decimal 58 h

theorem counter_delimited (pre post : Bytes) : SelfDelimiting fun n => pre ++ itoa n ++ (58 :: post) := by
  have hcolon : SelfDelimiting fun n => itoa n ++ [58] := terminated (fun _ _ => itoa_inj) colon_not_digit
  have hwhole := (hcolon.before post).after pre
  have hsame : (fun n => pre ++ itoa n ++ (58 :: post)) = fun n => pre ++ (itoa n ++ [58] ++ post) :=
    funext fun n => by simp only [append_assoc, singleton_append]
  rwa [hsame]

end digits

section payload

variable {form form' : Values} {k : Bytes}

theorem string_delimited : SelfDelimiting phpSerializeString :=
  (lengthPrefixed (counter_delimited (ascii "s:") (ascii "\""))).before (ascii "\";")

def entry (form : Values) (k : Bytes) : Bytes × Bytes := (k, form.get k)

def token (p : Bytes × Bytes) : Bytes := phpSerializeString p.1 ++ phpSerializeString p.2

theorem payload_entries (form : Values) : payload form =
    ascii "a:" ++ itoa ((signedKeys form).map (entry form)).length ++ ascii ":\x7b" ++
      ((signedKeys form).map (entry form)).flatMap token ++ ascii "\x7d" := by
  rw [payload, length_map, flatMap_map]
  rfl

theorem payload_inj (h : payload form = payload form') :
    (signedKeys form).map (entry form) = (signedKeys form').map (entry form') := by
  have hdelimited : SelfDelimiting fun ps : List (Bytes × Bytes) =>
      ascii "a:" ++ itoa ps.length ++ ascii ":\x7b" ++ ps.flatMap token ++ ascii "\x7d" :=
    (counted (counter_delimited (ascii "a:") (ascii "\x7b")) (string_delimited.pair string_delimited)).before _
  rw [payload_entries, payload_entries] at h
  exact hdelimited.injective h

theorem mem_signedKeys : k ∈ signedKeys form ↔ form.Has k ∧ k ≠ verifyHashKey := by
  rw [signedKeys, mem_insertionSort, mem_filter, decide_eq_true_eq, Values.Has]

theorem get_absent (h : ¬form.Has k) : form.get k = [] := by
  have hnone : form.rows.find? (·.1 = k) = none := by
    rw [find?_eq_none]
    intro row hrow hkey
    exact h (mem_map.mpr ⟨row, hrow, by simpa using hkey⟩)
  rw [Values.get, hnone]
  rfl

theorem agree_of_payload (h : payload form = payload form') : Agree form form' := by
  have hentries := payload_inj h
  have hkeys : signedKeys form = signedKeys form' := by
    have hfirst : ∀ form, ((signedKeys form).map (entry form)).map Prod.fst = signedKeys form := by
      intro form
      rw [map_map]
      exact map_id _
    rw [← hfirst form, hentries, hfirst form']
  have hhas : ∀ k ≠ verifyHashKey, form.Has k ↔ form'.Has k := by
    intro k hk
    rw [← and_iff_left (a := form.Has k) hk, ← mem_signedKeys, hkeys, mem_signedKeys, and_iff_left hk]
  refine ⟨hhas, fun k hk => ?_⟩
  by_cases hin : form.Has k
  · rw [hkeys] at hentries
    have hmem : k ∈ signedKeys form' := hkeys ▸ mem_signedKeys.mpr ⟨hin, hk⟩
    exact congrArg Prod.snd (map_inj_left.mp hentries k hmem)
  · rw [get_absent hin, get_absent fun h => hin ((hhas k hk).mpr h)]

theorem signed_bytes_canonical : payload form = payload form' ↔ Agree form form' := by
  refine ⟨agree_of_payload, fun h => ?_⟩
  have hsorted : ∀ form, (signedKeys form).Pairwise (· ≤ ·) := fun form => pairwise_insertionSort _ _
  have hnodup : ∀ form, (signedKeys form).Nodup := fun form =>
    (perm_insertionSort _ _).nodup_iff.mpr (form.nodup.filter _)
  have hkeys : signedKeys form = signedKeys form' := by
    refine Perm.eq_of_pairwise' (hsorted form) (hsorted form') ((perm_ext_iff_of_nodup (hnodup _) (hnodup _)).mpr ?_)
    intro k
    rw [mem_signedKeys, mem_signedKeys]
    exact and_congr_left fun hk => h.keys k hk
  rw [payload_entries, payload_entries, hkeys]
  have hentries : (signedKeys form').map (entry form) = (signedKeys form').map (entry form') :=
    map_congr_left fun k hk => Prod.ext rfl (h.values k (mem_signedKeys.mp hk).2)
  rw [hentries]

end payload

section signature

variable {form form' : Values} {secret : String} {mac : String → Bytes → Bytes}

theorem hexDigit_inj {m n : Nat} (hm : m < 16) (hn : n < 16) (h : hexDigit m = hexDigit n) : m = n := by
  have hall : ∀ i j : Fin 16, hexDigit i = hexDigit j → i = j := by decide
  exact congrArg Fin.val (hall ⟨m, hm⟩ ⟨n, hn⟩ h)

theorem hexByte_delimited : SelfDelimiting fun b : UInt8 => [hexDigit (b.toNat / 16), hexDigit (b.toNat % 16)] := by
  intro a b x y h
  have ha := a.toNat_lt
  have hb := b.toNat_lt
  simp only [cons_append, nil_append, List.cons.injEq] at h
  obtain ⟨hhigh, hlow, hrest⟩ := h
  have hdiv := hexDigit_inj (by omega) (by omega) hhigh
  have hmod := hexDigit_inj (by omega) (by omega) hlow
  exact ⟨UInt8.toNat_inj.mp (by omega), hrest⟩

theorem hexEncode_inj {x y : Bytes} (h : hexEncode x = hexEncode y) : x = y := by
  have hlength : ∀ bs, (hexEncode bs).length = 2 * bs.length := by
    intro bs
    induction bs with
    | nil => rfl
    | cons b bs ih =>
      rw [hexEncode, flatMap_cons, length_append, ← hexEncode, ih]
      simp only [length_cons, length_nil]
      omega
  have hx := hlength x
  rw [h, hlength y] at hx
  have hsame : x.flatMap _ ++ ([] : Bytes) = y.flatMap _ ++ [] := congrArg (· ++ []) h
  exact (hexByte_delimited.all (by omega) hsame).1

theorem verifyCallback_hash (h : verifyCallback mac form secret = true) :
    form.get verifyHashKey = hexEncode (mac secret (payload form)) := by
  rw [verifyCallback] at h
  split at h
  · cases h
  · exact (beq_iff_eq.mp h).symm

theorem callback_signature_faithful (form form' : Values) :
    (¬Agree form form' → payload form ≠ payload form') ∧
    ∀ (mac : String → Bytes → Bytes) (secret : String), Function.Injective (mac secret) →
      form.get verifyHashKey = hexEncode (mac secret (payload form')) → verifyCallback mac form secret = true →
        Agree form form' := by
  refine ⟨mt agree_of_payload, fun mac secret hmac hhash haccepted => ?_⟩
  rw [verifyCallback_hash haccepted] at hhash
  exact agree_of_payload (hmac (hexEncode_inj hhash))

end signature

section examples

def quoted : Values where
  rows := [(ascii "b", [ascii "a\"b", ascii "c"]), (ascii "a", []), (verifyHashKey, [ascii "00"])]
  nodup := by decide

example : payload quoted = ascii "a:2:\x7bs:1:\"a\";s:0:\"\";s:1:\"b\";s:3:\"a\"b\";\x7d" := by decide +kernel

def plainMac (secret : String) (message : Bytes) : Bytes := ascii secret ++ message

def signed : Values where
  rows := [(verifyHashKey, [hexEncode (plainMac "k" (payload quoted))]), (ascii "b", [ascii "a\"b"]),
    (ascii "a", [[]])]
  nodup := by decide

theorem callback_signature_faithful_signed : Agree signed quoted :=
  (callback_signature_faithful signed quoted).2 plainMac "k" (fun _ _ => append_cancel_left) (by decide +kernel)
    (by decide +kernel)

end examples

end PlisioCallback

end QuiPanel
