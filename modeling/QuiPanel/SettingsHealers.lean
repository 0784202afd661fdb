import QuiPanel.Text
import QuiPanel.Library.GoQuote
import QuiPanel.Library.JsonCodec
import QuiPanel.Library.Normal

namespace QuiPanel

namespace SettingsHealers

open ByteText JsonText List

def maxNestingDepth : Nat := 10000

structure GoJson where
  read : Bytes → Option Tree
  unmarshal : Bytes → Option Tree
  marshalIndent : Tree → Option Bytes

structure Documented (float : Number → Prop) (json : GoJson) : Prop where
  empty : json.unmarshal [] = none
  exact : ∀ raw t, json.read raw = some t → Canonical float t maxNestingDepth → json.unmarshal raw = some t
  decoded : ∀ raw t, json.unmarshal raw = some t → Canonical float t maxNestingDepth
  printed : ∀ t, Canonical float t maxNestingDepth →
    ∃ out, json.marshalIndent t = some out ∧ json.unmarshal out = some t

structure Draw where
  buf : Bytes
  full : buf.length = 16

section source

def stringField (m : Fields Tree) (k : String) : String :=
  match m.get k with
  | some (.str s) => s
  | _ => ""

def dropKey (st : Fields Tree × Bool) (key : String) : Fields Tree × Bool :=
  if (st.1.get key).isSome then (st.1.del key, true) else st

def dropMember (key : String) (cm : Fields Tree) : Option (Fields Tree) :=
  if (cm.get key).isSome then some (cm.del key) else none

def healEntry (heal : Fields Tree → Option (Fields Tree)) : Tree → Option Tree
  | .obj cm => (heal cm).map .obj
  | _ => none

def healClients (heal : Fields Tree → Option (Fields Tree)) (parsed : Fields Tree) : Option (Fields Tree) :=
  match parsed.get "clients" with
  | some (.arr clients) =>
    if clients.any fun c => (healEntry heal c).isSome then
      some (parsed.insert "clients" (.arr (clients.map fun c => (healEntry heal c).getD c)))
    else none
  | _ => none

def clientOnly : List String :=
  ["xmux", "downloadSettings", "scMinPostsIntervalMs", "uplinkChunkSize", "noGRPCHeader"]

def withoutXhttpClientFields (stream : Fields Tree) : Option (Fields Tree) :=
  if stringField stream "network" ≠ "xhttp" then none
  else match stream.get "xhttpSettings" with
    | some (.obj xhttp) =>
      if xhttp.isEmpty then none
      else
        let st := clientOnly.foldl dropKey (xhttp, false)
        if st.2 then some (stream.insert "xhttpSettings" (.obj st.1)) else none
    | _ => none

def withoutClientSecurity : Fields Tree → Option (Fields Tree) := healClients (dropMember "security")

def withoutInboundEncryption : Fields Tree → Option (Fields Tree) := dropMember "encryption"

def healMethod (method : String) (cm : Fields Tree) : Option (Fields Tree) :=
  if "2022-blake3-".toList.isPrefixOf method.toList then dropMember "method" cm
  else if method = "" then none
  else if stringField cm "method" = method then none
  else some (cm.insert "method" (.str method))

def withClientMethods (parsed : Fields Tree) : Option (Fields Tree) :=
  healClients (healMethod (stringField parsed "method")) parsed

def isHex (c : Char) : Bool :=
  ('0' ≤ c && c ≤ '9') || ('a' ≤ c && c ≤ 'f') || ('A' ≤ c && c ≤ 'F')

def hexEncode (bs : Bytes) : List Char :=
  bs.flatMap fun b => [GoQuote.hexDigit (b.toNat / 16), GoQuote.hexDigit (b.toNat % 16)]

def mtprotoRandomMiddle (draw : Draw) : List Char := hexEncode draw.buf

def fakeMark : List Char := ['e', 'e']

def paddedMark : List Char := ['d', 'd']

def unmarked (secret : List Char) : List Char :=
  if fakeMark.isPrefixOf secret || paddedMark.isPrefixOf secret then secret.drop 2 else secret

def mtprotoSecretMiddle (draw : Draw) (secret : List Char) : List Char :=
  let s := unmarked secret
  let mid := s.take 32
  if 32 ≤ s.length && mid.all isHex then mid else mtprotoRandomMiddle draw

def fakeTLSSecret (mid : List Char) (domain : String) : String :=
  String.ofList (fakeMark ++ (mid ++ hexEncode (utf8 domain.toList)))

def domainOf (parsed : Fields Tree) : String := Text.trimSpace (stringField parsed "fakeTlsDomain")

def withFakeTLSSecret (draw : Draw) (parsed : Fields Tree) : Option (Fields Tree) :=
  let domain := domainOf parsed
  if domain = "" then none
  else
    let secret := stringField parsed "secret"
    let expected := fakeTLSSecret (mtprotoSecretMiddle draw secret.toList) domain
    if secret = expected then none else some (parsed.insert "secret" (.str expected))

variable (json : GoJson)

def unmarshalMap (settings : Bytes) : Option (Fields Tree) :=
  if settings = [] then none
  else match json.unmarshal settings with
    | some (.obj parsed) => some parsed
    | some .null => some []
    | _ => none

def mapCodec : Normal.Codec Bytes (Fields Tree) := ⟨unmarshalMap json, fun parsed => json.marshalIndent (.obj parsed)⟩

def stripInboundXhttpClientFields (streamSettings : Bytes) : Bytes × Bool :=
  Normal.rewrite (mapCodec json) withoutXhttpClientFields streamSettings

def stripVmessClientSecurity (settings : Bytes) : Bytes × Bool :=
  Normal.rewrite (mapCodec json) withoutClientSecurity settings

def stripVlessInboundEncryption (settings : Bytes) : Bytes × Bool :=
  Normal.rewrite (mapCodec json) withoutInboundEncryption settings

def healShadowsocksClientMethods (settings : Bytes) : Bytes × Bool :=
  Normal.rewrite (mapCodec json) withClientMethods settings

def healMtprotoSecret (draw : Draw) (settings : Bytes) : Bytes × Bool :=
  Normal.rewrite (mapCodec json) (withFakeTLSSecret draw) settings

end source

inductive Healer
  | xhttp
  | vmess
  | vless
  | shadowsocks
  | mtproto

def Healer.run (json : GoJson) (draw : Draw) : Healer → Bytes → Bytes × Bool
  | .xhttp => stripInboundXhttpClientFields json
  | .vmess => stripVmessClientSecurity json
  | .vless => stripVlessInboundEncryption json
  | .shadowsocks => healShadowsocksClientMethods json
  | .mtproto => healMtprotoSecret json draw

def Healer.step : Healer → Draw → Fields Tree → Option (Fields Tree)
  | .xhttp, _ => withoutXhttpClientFields
  | .vmess, _ => withoutClientSecurity
  | .vless, _ => withoutInboundEncryption
  | .shadowsocks, _ => withClientMethods
  | .mtproto, draw => withFakeTLSSecret draw

def SameExcept (keys : List String) (m m' : Fields Tree) : Prop := ∀ k ∉ keys, m'.get k = m.get k

def SameEntry (keys : List String) : Tree → Tree → Prop
  | .obj m, .obj m' => SameExcept keys m m'
  | v, v' => v' = v

def SameItems (keys : List String) : Tree → Tree → Prop
  | .arr vs, .arr vs' => List.Forall₂ (SameEntry keys) vs vs'
  | v, v' => v' = v

structure SameOutside (key : String) (within : Tree → Tree → Prop) (m m' : Fields Tree) : Prop where
  outside : SameExcept [key] m m'
  inside : Option.Rel within (m.get key) (m'.get key)

structure Middle (secret mid : List Char) : Prop where
  length : mid.length = 32
  digits : mid.all isHex = true
  placed : ∃ mark rest, secret = mark ++ (mid ++ rest) ∧ (mark = fakeMark ∨ mark = paddedMark ∨
    mark = [] ∧ ¬ fakeMark <+: secret ∧ ¬ paddedMark <+: secret)

structure FakeTLS (mid : List Char) (secret domain : String) : Prop where
  length : mid.length = 32
  digits : mid.all isHex = true
  secret : secret = fakeTLSSecret mid domain

structure KeepsMiddle (m m' : Fields Tree) : Prop where
  outside : SameExcept ["secret"] m m'
  middle : ∀ mid, Middle (stringField m "secret").toList mid → domainOf m ≠ "" →
    FakeTLS mid (stringField m' "secret") (domainOf m)

def Healer.Scope : Healer → Fields Tree → Fields Tree → Prop
  | .xhttp => SameOutside "xhttpSettings" (SameEntry clientOnly)
  | .vmess => SameOutside "clients" (SameItems ["security"])
  | .vless => SameExcept ["encryption"]
  | .shadowsocks => SameOutside "clients" (SameItems ["method"])
  | .mtproto => KeepsMiddle

def EveryClient (p : Fields Tree → Prop) (m : Fields Tree) : Prop :=
  ∀ clients cm, m.get "clients" = some (.arr clients) → .obj cm ∈ clients → p cm

def Methodical (method : String) (cm : Fields Tree) : Prop :=
  if "2022-blake3-".toList <+: method.toList then cm.get "method" = none
  else method ≠ "" → cm.get "method" = some (.str method)

def Healer.Clean : Healer → Fields Tree → Prop
  | .xhttp, m => m.get "network" = some (.str "xhttp") →
    ∀ xhttp : Fields Tree, m.get "xhttpSettings" = some (.obj xhttp) → ∀ k ∈ clientOnly, xhttp.get k = none
  | .vmess, m => EveryClient (fun cm => cm.get "security" = none) m
  | .vless, m => m.get "encryption" = none
  | .shadowsocks, m => EveryClient (Methodical (stringField m "method")) m
  | .mtproto, m => domainOf m ≠ "" → ∃ mid, FakeTLS mid (stringField m "secret") (domainOf m)

def Healer.Healed (healer : Healer) : Tree → Tree → Prop
  | .obj m, .obj m' => healer.Scope m m' ∧ healer.Clean m'
  | t, t' => t' = t

section entries

variable {heal : Fields Tree → Option (Fields Tree)} {keys : List String} {key method : String}
  {m m' cm cm' : Fields Tree} {v : Tree} {float : Number → Prop} {n : Nat}

theorem outside_ne {k : String} (hk : k ∉ [key]) : k ≠ key := fun he => hk (mem_singleton.mpr he)

theorem SameEntry.refl (keys : List String) (v : Tree) : SameEntry keys v v := by
  cases v <;> first | rfl | exact fun _ _ => rfl

theorem SameItems.refl (keys : List String) (v : Tree) : SameItems keys v v := by
  cases v <;> first | rfl | exact List.forall₂_same.mpr fun v _ => SameEntry.refl keys v

variable {within : Tree → Tree → Prop}

theorem SameOutside.refl (hwithin : ∀ v, within v v) (m : Fields Tree) :
    SameOutside key within m m := by
  refine ⟨fun _ _ => rfl, ?_⟩
  cases m.get key with
  | none => exact .none
  | some v => exact .some (hwithin v)

theorem SameOutside.insert {w : Tree} (hv : m.get key = some v) (hw : within v w) :
    SameOutside key within m (m.insert key w) := by
  refine ⟨fun k hk => Fields.get_insert_ne (outside_ne hk) m w, ?_⟩
  rw [hv, Fields.get_insert_self]
  exact .some hw

theorem dropMember_some (h : dropMember key cm = some cm') : cm' = cm.del key := by
  rw [dropMember] at h
  split at h
  · exact (Option.some.inj h).symm
  · cases h

theorem dropMember_none : dropMember key cm = none ↔ cm.get key = none := by
  simp [dropMember]

structure Mends (float : Number → Prop) (key : String) (heal : Fields Tree → Option (Fields Tree)) : Prop where
  good : ∀ cm cm' n, heal cm = some cm' → Canonical float (.obj cm) n → Canonical float (.obj cm') n
  settled : ∀ cm cm', heal cm = some cm' → heal cm' = none
  scope : ∀ cm cm', heal cm = some cm' → SameExcept [key] cm cm'

theorem dropMember_mends (float : Number → Prop) (key : String) : Mends float key (dropMember key) where
  good := fun cm cm' n h hgood => by
    rw [dropMember_some h]
    exact canonical_del hgood
  settled := fun cm cm' h => by
    rw [dropMember_none, dropMember_some h, Fields.get_del_self]
  scope := fun cm cm' h k hk => by
    rw [dropMember_some h]
    exact Fields.get_del_ne (Ne.symm (outside_ne hk))

theorem stringField_str {s : String} (hs : s ≠ "") : stringField m key = s ↔ m.get key = some (.str s) := by
  rw [stringField]
  split
  case h_1 s' h => rw [h, Option.some.injEq, Tree.str.injEq]
  case h_2 h => exact ⟨fun he => absurd he.symm hs, fun he => absurd he (h s)⟩

theorem stringField_insert (m : Fields Tree) (key s : String) : stringField (m.insert key (.str s)) key = s := by
  rw [stringField, Fields.get_insert_self]

theorem healMethod_none : healMethod method cm = none ↔ Methodical method cm := by
  rw [healMethod, Methodical]
  simp only [List.isPrefixOf_iff_prefix]
  split
  · exact dropMember_none
  · split
    case isTrue hempty => simp [hempty]
    case isFalse hne =>
      simp [stringField_str hne, hne]

theorem healMethod_some (h : healMethod method cm = some cm') :
    dropMember "method" cm = some cm' ∨ cm' = cm.insert "method" (.str method) := by
  rw [healMethod] at h
  split at h
  · exact .inl h
  · split at h
    · cases h
    · split at h
      · cases h
      · exact .inr (Option.some.inj h).symm

theorem methodical_insert (h : ¬ "2022-blake3-".toList <+: method.toList) :
    Methodical method (cm.insert "method" (.str method)) := by
  rw [Methodical, if_neg h]
  exact fun _ => Fields.get_insert_self cm "method" _

theorem healMethod_mends (float : Number → Prop) (method : String) : Mends float "method" (healMethod method) where
  good := fun cm cm' n h hgood => by
    rcases healMethod_some h with hdrop | rfl
    · exact (dropMember_mends float "method").good cm cm' n hdrop hgood
    · exact canonical_insert hgood
  settled := fun cm cm' h => by
    rw [healMethod_none]
    by_cases hblake : "2022-blake3-".toList <+: method.toList
    · rw [healMethod, if_pos (List.isPrefixOf_iff_prefix.mpr hblake)] at h
      rw [Methodical, if_pos hblake]
      exact dropMember_none.mp ((dropMember_mends float "method").settled cm cm' h)
    · rw [healMethod, if_neg (mt List.isPrefixOf_iff_prefix.mp hblake)] at h
      split at h
      · cases h
      · split at h
        · cases h
        · obtain rfl := Option.some.inj h
          exact methodical_insert hblake
  scope := fun cm cm' h => by
    rcases healMethod_some h with hdrop | rfl
    · exact (dropMember_mends float "method").scope cm cm' hdrop
    · exact fun k hk => Fields.get_insert_ne (outside_ne hk) cm _

end entries

section clients

variable {heal : Fields Tree → Option (Fields Tree)} {key : String} {m m' cm cm' : Fields Tree} {v : Tree}
  {clients : List Tree} {float : Number → Prop} {n : Nat}

def mended (heal : Fields Tree → Option (Fields Tree)) (v : Tree) : Tree := (healEntry heal v).getD v

theorem mended_good (hheal : Mends float key heal) (v : Tree) (n : Nat) (hv : Canonical float v n) :
    Canonical float (mended heal v) n := by
  cases v with
  | obj cm =>
    rw [mended, healEntry]
    cases h : heal cm with
    | none => exact hv
    | some cm' => exact hheal.good cm cm' n h hv
  | _ => exact hv

theorem mended_settled (hheal : Mends float key heal) (v : Tree) : healEntry heal (mended heal v) = none := by
  cases v with
  | obj cm =>
    rw [mended, healEntry]
    cases h : heal cm with
    | none => simp only [Option.map_none, Option.getD_none, healEntry, h]
    | some cm' => simp only [Option.map_some, Option.getD_some, healEntry, hheal.settled cm cm' h, Option.map_none]
  | _ => rfl

theorem mended_scope (hheal : Mends float key heal) (v : Tree) : SameEntry [key] v (mended heal v) := by
  cases v with
  | obj cm =>
    rw [mended, healEntry]
    cases h : heal cm with
    | none => exact SameEntry.refl _ _
    | some cm' => exact hheal.scope cm cm' h
  | _ => rfl

theorem healClients_some (h : healClients heal m = some m') :
    ∃ clients, m.get "clients" = some (.arr clients) ∧
      m' = m.insert "clients" (.arr (clients.map (mended heal))) := by
  rw [healClients] at h
  split at h
  case h_1 clients hclients =>
    split at h
    · exact ⟨clients, hclients, (Option.some.inj h).symm⟩
    · cases h
  case h_2 => cases h

theorem healClients_none (h : healClients heal m = none) (hclients : m.get "clients" = some (.arr clients))
    (hmem : v ∈ clients) : healEntry heal v = none := by
  simp only [healClients, hclients, ite_eq_right_iff, reduceCtorEq, imp_false] at h
  exact Option.not_isSome_iff_eq_none.mp fun hsome => h (any_eq_true.mpr ⟨v, hmem, hsome⟩)

theorem healClients_of_none (h : ∀ clients, m.get "clients" = some (.arr clients) →
    ∀ v ∈ clients, healEntry heal v = none) : healClients heal m = none := by
  rw [healClients]
  split
  case h_1 clients hclients =>
    refine if_neg fun hany => ?_
    obtain ⟨v, hmem, hsome⟩ := any_eq_true.mp hany
    rw [h clients hclients v hmem] at hsome
    cases hsome
  case h_2 => rfl

theorem healClients_mends (hheal : Mends float key heal) (h : healClients heal m = some m') :
    healClients heal m' = none ∧ SameOutside "clients" (SameItems [key]) m m' ∧
      (Canonical float (.obj m) n → Canonical float (.obj m') n) := by
  obtain ⟨clients, hclients, rfl⟩ := healClients_some h
  refine ⟨healClients_of_none fun clients' hget v hv => ?_, SameOutside.insert hclients ?_, fun hgood => ?_⟩
  · rw [Fields.get_insert_self] at hget
    obtain rfl := Tree.arr.inj (Option.some.inj hget)
    obtain ⟨w, -, rfl⟩ := mem_map.mp hv
    exact mended_settled hheal w
  · exact List.forall₂_map_right_iff.mpr (List.forall₂_same.mpr fun v _ => mended_scope hheal v)
  · exact canonical_put hgood hclients fun d hd => canonical_map (mended_good hheal) hd

theorem healEntry_none : healEntry heal v = none ↔ ∀ cm, v = .obj cm → heal cm = none := by
  cases v <;> simp [healEntry]

theorem healClients_iff {p : Fields Tree → Prop} (hp : ∀ cm, heal cm = none ↔ p cm) :
    healClients heal m = none ↔ EveryClient p m := by
  constructor
  · intro h clients cm hclients hmem
    exact (hp cm).mp (healEntry_none.mp (healClients_none h hclients hmem) cm rfl)
  · intro h
    refine healClients_of_none fun clients hclients v hmem => healEntry_none.mpr fun cm hv => (hp cm).mpr ?_
    exact h clients cm hclients (hv ▸ hmem)

end clients

section xhttp

variable {m m' stream stream' xhttp : Fields Tree} {k : String} {keys : List String} {changed : Bool}
  {float : Number → Prop} {n : Nat}

theorem dropKey_get (st : Fields Tree × Bool) (key k : String) :
    (dropKey st key).1.get k = if k = key then none else st.1.get k := by
  rw [dropKey]
  split
  · exact Fields.get_del
  case isFalse hnone =>
    split
    case isTrue he =>
      subst he
      exact Option.not_isSome_iff_eq_none.mp hnone
    case isFalse => rfl

theorem dropKeys_get (st : Fields Tree × Bool) (k : String) :
    (keys.foldl dropKey st).1.get k = if k ∈ keys then none else st.1.get k := by
  induction keys generalizing st with
  | nil => rfl
  | cons key keys ih =>
    rw [foldl_cons, ih, dropKey_get]
    by_cases hk : k = key
    · simp [hk]
    · simp [hk]

theorem dropKeys_kept (h : ∀ k ∈ keys, m.get k = none) : keys.foldl dropKey (m, changed) = (m, changed) := by
  induction keys with
  | nil => rfl
  | cons key keys ih =>
    rw [foldl_cons, dropKey, h key mem_cons_self]
    exact ih fun k hk => h k (mem_cons_of_mem key hk)

theorem dropKeys_changed (st : Fields Tree × Bool) (h : st.2 = true) : (keys.foldl dropKey st).2 = true := by
  induction keys generalizing st with
  | nil => exact h
  | cons key keys ih =>
    refine ih (dropKey st key) ?_
    rw [dropKey]
    split
    · rfl
    · exact h

theorem dropKeys_clean (h : (keys.foldl dropKey (m, false)).2 = false) : ∀ k ∈ keys, m.get k = none := by
  induction keys with
  | nil => exact fun k hk => absurd hk not_mem_nil
  | cons key keys ih =>
    rw [foldl_cons, dropKey] at h
    split at h
    · rw [dropKeys_changed _ rfl] at h
      cases h
    case isFalse hnone => exact forall_mem_cons.mpr ⟨Option.not_isSome_iff_eq_none.mp hnone, ih h⟩

theorem dropKeys_good (st : Fields Tree × Bool) (h : Canonical float (.obj st.1) n) :
    Canonical float (.obj (keys.foldl dropKey st).1) n := by
  induction keys generalizing st with
  | nil => exact h
  | cons key keys ih =>
    refine ih (dropKey st key) ?_
    rw [dropKey]
    split
    · exact canonical_del h
    · exact h

theorem xhttp_some (h : withoutXhttpClientFields stream = some stream') :
    ∃ xhttp : Fields Tree, stream.get "xhttpSettings" = some (.obj xhttp) ∧
      stream' = stream.insert "xhttpSettings" (.obj (clientOnly.foldl dropKey (xhttp, false)).1) := by
  rw [withoutXhttpClientFields] at h
  split at h
  · cases h
  · split at h
    case h_1 xhttp hxhttp =>
      split at h
      · cases h
      · dsimp only at h
        split at h
        · exact ⟨xhttp, hxhttp, (Option.some.inj h).symm⟩
        · cases h
    case h_2 => cases h

theorem xhttp_none : withoutXhttpClientFields stream = none ↔ Healer.xhttp.Clean stream := by
  rw [withoutXhttpClientFields, Healer.Clean, ← stringField_str (by decide)]
  split
  case isTrue hother => exact ⟨fun _ hxhttp => absurd hxhttp hother, fun _ => rfl⟩
  case isFalse hnetwork =>
    have hnetwork := not_not.mp hnetwork
    split
    case h_1 xhttp hxhttp =>
      simp only [hxhttp, Option.some.injEq, Tree.obj.injEq, hnetwork, forall_const, forall_eq']
      split
      case isTrue hempty => simp [List.isEmpty_iff.mp hempty]
      case isFalse =>
        refine ⟨fun h => dropKeys_clean (m := xhttp) ?_, fun h => ?_⟩
        · simpa using h
        · rw [dropKeys_kept h]
          rfl
    case h_2 hforeign => exact ⟨fun _ _ xhttp hxhttp => absurd hxhttp (hforeign xhttp), fun _ => rfl⟩

theorem xhttp_clean (h : withoutXhttpClientFields stream = some stream') : Healer.xhttp.Clean stream' := by
  obtain ⟨xhttp, -, rfl⟩ := xhttp_some h
  intro _ xhttp' hxhttp' k hk
  rw [Fields.get_insert_self, Option.some.injEq, Tree.obj.injEq] at hxhttp'
  rw [← hxhttp', dropKeys_get, if_pos hk]

theorem xhttp_scope (h : withoutXhttpClientFields stream = some stream') : Healer.xhttp.Scope stream stream' := by
  obtain ⟨xhttp, hxhttp, rfl⟩ := xhttp_some h
  refine SameOutside.insert hxhttp fun k hk => ?_
  rw [dropKeys_get, if_neg hk]

theorem xhttp_good (h : withoutXhttpClientFields stream = some stream') (hgood : Canonical float (.obj stream) n) :
    Canonical float (.obj stream') n := by
  obtain ⟨xhttp, hxhttp, rfl⟩ := xhttp_some h
  exact canonical_put hgood hxhttp fun d hd => dropKeys_good (xhttp, false) hd

end xhttp

section mtproto

variable {m m' : Fields Tree} {draw draw' : Draw} {secret mid mid' : List Char} {domain : String}

theorem isHex_hexDigit {n : Nat} (h : n < 16) : isHex (GoQuote.hexDigit n) = true := by
  have hall : ∀ n < 16, isHex (GoQuote.hexDigit n) = true := by decide
  exact hall n h

theorem hexEncode_digits (bs : Bytes) : (hexEncode bs).all isHex = true := by
  refine all_eq_true.mpr fun c hc => ?_
  obtain ⟨b, -, hc⟩ := mem_flatMap.mp hc
  have hb := b.toNat_lt
  rcases mem_cons.mp hc with rfl | hc
  · exact isHex_hexDigit (by omega)
  · obtain rfl := mem_singleton.mp hc
    exact isHex_hexDigit (by omega)

theorem hexEncode_length (bs : Bytes) : (hexEncode bs).length = 2 * bs.length := by
  induction bs with
  | nil => rfl
  | cons b bs ih =>
    rw [hexEncode, flatMap_cons, length_append, ← hexEncode, ih, length_cons]
    simp only [length_cons, length_nil]
    omega

theorem middle_shape (draw : Draw) (secret : List Char) :
    (mtprotoSecretMiddle draw secret).length = 32 ∧ (mtprotoSecretMiddle draw secret).all isHex = true := by
  rw [mtprotoSecretMiddle]
  generalize unmarked secret = s
  simp only [Bool.and_eq_true, decide_eq_true_eq]
  split
  case isTrue h => exact ⟨length_take_of_le h.1, h.2⟩
  case isFalse =>
    rw [mtprotoRandomMiddle]
    exact ⟨by rw [hexEncode_length, draw.full], hexEncode_digits draw.buf⟩

theorem middle_kept (h : Middle secret mid) : mtprotoSecretMiddle draw secret = mid := by
  obtain ⟨hlength, hdigits, mark, rest, hsecret, hmark⟩ := h
  have hbody : unmarked secret = mid ++ rest := by
    rw [unmarked]
    rcases hmark with rfl | rfl | ⟨rfl, hfake, hpadded⟩
    · rw [hsecret]
      rfl
    · rw [hsecret]
      rfl
    · rw [if_neg (by simp [List.isPrefixOf_iff_prefix, hfake, hpadded]), hsecret]
      rfl
  have htake : (mid ++ rest).take 32 = mid := by rw [← hlength, take_left]
  rw [mtprotoSecretMiddle, hbody, htake, if_pos]
  simp [hdigits, hlength]

theorem fakeTLS_middle (hlength : mid.length = 32) (hdigits : mid.all isHex = true) :
    Middle (fakeTLSSecret mid domain).toList mid :=
  ⟨hlength, hdigits, fakeMark, hexEncode (utf8 domain.toList), String.toList_ofList, .inl rfl⟩

theorem mtproto_some (h : withFakeTLSSecret draw m = some m') : domainOf m ≠ "" ∧
    m' = m.insert "secret"
      (.str (fakeTLSSecret (mtprotoSecretMiddle draw (stringField m "secret").toList) (domainOf m))) := by
  rw [withFakeTLSSecret] at h
  split at h
  · cases h
  case isFalse hdomain =>
    dsimp only at h
    split at h
    · cases h
    · exact ⟨hdomain, (Option.some.inj h).symm⟩

theorem domainOf_insert (m : Fields Tree) (v : Tree) : domainOf (m.insert "secret" v) = domainOf m := by
  rw [domainOf, domainOf, stringField, stringField, Fields.get_insert_ne (by decide)]

theorem mtproto_none : withFakeTLSSecret draw m = none ↔ Healer.mtproto.Clean m := by
  rw [withFakeTLSSecret, Healer.Clean]
  split
  case isTrue hempty => simp [hempty]
  case isFalse hdomain =>
    simp only [ne_eq, hdomain, not_false_eq_true, forall_const, ite_eq_left_iff, reduceCtorEq, imp_false, not_not]
    constructor
    · intro hsecret
      obtain ⟨hlength, hdigits⟩ := middle_shape draw (stringField m "secret").toList
      exact ⟨_, hlength, hdigits, hsecret⟩
    · rintro ⟨mid, hlength, hdigits, hsecret⟩
      rw [hsecret, middle_kept (fakeTLS_middle hlength hdigits)]

theorem mtproto_clean (h : withFakeTLSSecret draw m = some m') : Healer.mtproto.Clean m' := by
  obtain ⟨-, rfl⟩ := mtproto_some h
  obtain ⟨hlength, hdigits⟩ := middle_shape draw (stringField m "secret").toList
  rw [Healer.Clean, domainOf_insert, stringField_insert]
  exact fun _ => ⟨_, hlength, hdigits, rfl⟩

theorem mtproto_scope (h : withFakeTLSSecret draw m = some m') : Healer.mtproto.Scope m m' := by
  obtain ⟨-, rfl⟩ := mtproto_some h
  refine ⟨fun k hk => Fields.get_insert_ne (outside_ne hk) m _, fun mid hmid hdomain => ?_⟩
  rw [stringField_insert, middle_kept hmid]
  exact ⟨hmid.length, hmid.digits, rfl⟩

theorem mtproto_same (h : withFakeTLSSecret draw m = none) : Healer.mtproto.Scope m m := by
  refine ⟨fun _ _ => rfl, fun mid hmid hdomain => ?_⟩
  obtain ⟨mid', hmid'⟩ := mtproto_none.mp h hdomain
  have hread : Middle (stringField m "secret").toList mid' :=
    hmid'.secret.symm ▸ fakeTLS_middle hmid'.length hmid'.digits
  have hsame : mid' = mid := (@middle_kept draw _ _ hread).symm.trans (middle_kept hmid)
  exact hsame ▸ hmid'

end mtproto

section step

variable {healer : Healer} {draw : Draw} {m m' : Fields Tree} {float : Number → Prop} {n : Nat}

theorem methods_kept (h : withClientMethods m = some m') : stringField m' "method" = stringField m "method" := by
  obtain ⟨clients, -, rfl⟩ := healClients_some h
  rw [stringField, Fields.get_insert_ne (by decide), stringField]

theorem step_none : healer.step draw m = none ↔ healer.Clean m := by
  cases healer with
  | xhttp => exact xhttp_none
  | vmess => exact healClients_iff fun _ => dropMember_none
  | vless => exact dropMember_none
  | shadowsocks => exact healClients_iff fun _ => healMethod_none
  | mtproto => exact mtproto_none

theorem step_clean (h : healer.step draw m = some m') : healer.Clean m' := by
  cases healer with
  | xhttp => exact xhttp_clean h
  | vmess =>
    have hagain := (@healClients_mends _ _ _ _ _ 0 (dropMember_mends (fun _ => True) _) h).1
    exact (healClients_iff fun _ => dropMember_none).mp hagain
  | vless => exact dropMember_none.mp ((dropMember_mends (fun _ => True) _).settled m m' h)
  | shadowsocks =>
    have hagain := (@healClients_mends _ _ _ _ _ 0 (healMethod_mends (fun _ => True) _) h).1
    rw [Healer.Clean, methods_kept h]
    exact (healClients_iff fun _ => healMethod_none).mp hagain
  | mtproto => exact mtproto_clean h

theorem step_scope (h : healer.step draw m = some m') : healer.Scope m m' := by
  cases healer with
  | xhttp => exact xhttp_scope h
  | vmess => exact (@healClients_mends _ _ _ _ _ 0 (dropMember_mends (fun _ => True) _) h).2.1
  | vless => exact (dropMember_mends (fun _ => True) _).scope m m' h
  | shadowsocks => exact (@healClients_mends _ _ _ _ _ 0 (healMethod_mends (fun _ => True) _) h).2.1
  | mtproto => exact mtproto_scope h

theorem step_same (h : healer.step draw m = none) : healer.Scope m m := by
  cases healer with
  | xhttp => exact SameOutside.refl (SameEntry.refl _) m
  | vmess => exact SameOutside.refl (SameItems.refl _) m
  | vless => exact fun _ _ => rfl
  | shadowsocks => exact SameOutside.refl (SameItems.refl _) m
  | mtproto => exact mtproto_same h

theorem step_good (h : healer.step draw m = some m') (hgood : Canonical float (.obj m) n) :
    Canonical float (.obj m') n := by
  cases healer with
  | xhttp => exact xhttp_good h hgood
  | vmess => exact (healClients_mends (dropMember_mends float _) h).2.2 hgood
  | vless => exact (dropMember_mends float _).good m m' n h hgood
  | shadowsocks => exact (healClients_mends (healMethod_mends float _) h).2.2 hgood
  | mtproto =>
    obtain ⟨-, rfl⟩ := mtproto_some h
    exact canonical_insert hgood

def GoodMap (float : Number → Prop) (m : Fields Tree) : Prop := Canonical float (.obj m) maxNestingDepth

theorem step_settles (float : Number → Prop) (healer : Healer) : Normal.Settles healer.step (GoodMap float) where
  good := fun _ _ _ h hgood => step_good h hgood
  settled := fun _ _ _ _ h => step_none.mpr (step_clean h)
  steady := fun _ _ _ h => step_none.mpr (step_none.mp h)

theorem step_healed (healer : Healer) (draw : Draw) (m : Fields Tree) :
    healer.Healed (.obj m) (.obj ((healer.step draw m).getD m)) := by
  cases h : healer.step draw m with
  | none => exact ⟨step_same h, step_none.mp h⟩
  | some m' => exact ⟨step_scope h, step_clean h⟩

end step

section healers

variable {json : GoJson} {float : Number → Prop} {raw settings : Bytes} {t : Tree} {m : Fields Tree}

theorem run_rewrite (json : GoJson) (draw : Draw) (healer : Healer) :
    healer.run json draw = Normal.rewrite (mapCodec json) (healer.step draw) := by
  cases healer <;> rfl

theorem unmarshalMap_obj (hjson : Documented float json) :
    json.unmarshal raw = some (.obj m) → unmarshalMap json raw = some m := by
  intro h
  rw [unmarshalMap, if_neg, h]
  rintro rfl
  rw [hjson.empty] at h
  cases h

theorem unmarshalMap_cases (h : unmarshalMap json raw = some m) :
    json.unmarshal raw = some (.obj m) ∨ json.unmarshal raw = some .null ∧ m = [] := by
  rw [unmarshalMap] at h
  split at h
  · cases h
  · split at h
    case h_1 parsed hread => exact .inl (Option.some.inj h ▸ hread)
    case h_2 hread => exact .inr ⟨hread, (Option.some.inj h).symm⟩
    case h_3 => cases h

theorem mapCodec_lawful (hjson : Documented float json) : Normal.Lawful (mapCodec json) (GoodMap float) where
  decoded := fun raw m h => by
    rcases unmarshalMap_cases h with hread | ⟨-, rfl⟩
    · exact hjson.decoded raw _ hread
    · exact ⟨List.Pairwise.nil, trivial⟩
  encoded := fun m hm => by
    obtain ⟨out, hprint, hread⟩ := hjson.printed _ hm
    exact ⟨out, hprint, unmarshalMap_obj hjson hread⟩

theorem empty_settled (healer : Healer) (draw : Draw) : healer.step draw [] = none := by
  cases healer <;> rfl

theorem run_healed (hjson : Documented float json) (healer : Healer) (draw : Draw)
    (h : json.unmarshal settings = some t) :
    ∃ t', json.unmarshal (healer.run json draw settings).1 = some t' ∧ healer.Healed t t' := by
  rw [run_rewrite]
  cases hmap : unmarshalMap json settings with
  | none =>
    rw [Normal.rewrite_foreign hmap]
    refine ⟨t, h, ?_⟩
    cases t with
    | obj m => cases hmap.symm.trans (unmarshalMap_obj hjson h)
    | _ => rfl
  | some m =>
    rcases unmarshalMap_cases hmap with hread | ⟨hread, rfl⟩
    · obtain rfl := Option.some.inj (h.symm.trans hread)
      have hhealed := step_healed healer draw m
      cases hstep : healer.step draw m with
      | none =>
        rw [Normal.rewrite_normal hmap hstep]
        rw [hstep] at hhealed
        exact ⟨.obj m, h, hhealed⟩
      | some m' =>
        obtain ⟨out, hprint, hout⟩ := hjson.printed _ (step_good hstep (hjson.decoded settings _ h))
        rw [Normal.rewrite_encoded hmap hstep hprint]
        rw [hstep] at hhealed
        exact ⟨.obj m', hout, hhealed⟩
    · obtain rfl := Option.some.inj (h.symm.trans hread)
      rw [Normal.rewrite_normal hmap (empty_settled healer draw)]
      exact ⟨.null, h, rfl⟩

theorem healers_settle (json : GoJson) (float : Number → Prop) (hjson : Documented float json) (healer : Healer)
    (draw draw' : Draw) (settings : Bytes) :
    let healed := healer.run json draw settings
    healer.run json draw' healed.1 = (healed.1, false) ∧ (healed.2 = false → healed.1 = settings) ∧
      ∀ t, json.read settings = some t → Canonical float t maxNestingDepth →
        ∃ t', json.unmarshal healed.1 = some t' ∧ healer.Healed t t' := by
  intro healed
  refine ⟨?_, ?_, fun t hread hgood => run_healed hjson healer draw (hjson.exact settings t hread hgood)⟩
  · simp only [healed, run_rewrite]
    exact Normal.rewrite_idem (mapCodec_lawful hjson) (step_settles float healer) draw draw' settings
  · simp only [healed, run_rewrite]
    exact Normal.rewrite_unchanged

def zeros : List Char := List.replicate 32 '0'

def movedSettings : Fields Tree :=
  [("fakeTlsDomain", .str "b.io"), ("secret", .str (fakeTLSSecret zeros "a.io"))]

def settledSettings : Fields Tree :=
  [("fakeTlsDomain", .str "b.io"), ("secret", .str (fakeTLSSecret zeros "b.io"))]

def settledText : List Char :=
  brace :: '\n' :: ("  \"fakeTlsDomain\": \"b.io\",\n  \"secret\": ".toList ++
    quote (fakeTLSSecret zeros "b.io") ++ ['\n', unbrace])

open Classical in
noncomputable def indented (t : Tree) : List Char := if t = .obj settledSettings then settledText else text t

theorem text_ne_settled (t : Tree) : text t ≠ settledText := by
  intro h
  cases t with
  | obj fields =>
    rw [text, settledText, List.cons.injEq] at h
    cases fields with
    | nil => cases h.2
    | cons f fields => cases h.2
  | num x =>
    have hbrace : brace ∈ x.text := by
      rw [text, settledText] at h
      exact h ▸ mem_cons_self
    cases x.shape brace hbrace
  | bool b => cases b <;> cases h
  | _ => cases h

theorem indented_injective {t t' : Tree} (h : indented t = indented t') : t = t' := by
  rw [indented, indented] at h
  split at h
  case isTrue ht =>
    split at h
    case isTrue ht' => exact ht.trans ht'.symm
    case isFalse => exact absurd h.symm (text_ne_settled t')
  case isFalse =>
    split at h
    case isTrue => exact absurd h (text_ne_settled t)
    case isFalse => exact marshal_injective (congrArg utf8 h)

open Classical in
noncomputable def reread (raw : Bytes) : Option Tree :=
  if h : ∃ t, Canonical (fun _ => True) t maxNestingDepth ∧ utf8 (indented t) = raw then some h.choose else none

noncomputable def indentedJson : GoJson := ⟨reread, reread, fun t => some (utf8 (indented t))⟩

theorem reread_indented {t : Tree} (h : Canonical (fun _ => True) t maxNestingDepth) :
    reread (utf8 (indented t)) = some t := by
  have hex : ∃ t', Canonical (fun _ => True) t' maxNestingDepth ∧ utf8 (indented t') = utf8 (indented t) :=
    ⟨t, h, rfl⟩
  rw [reread, dif_pos hex, indented_injective (utf8_injective hex.choose_spec.2)]

theorem indentedJson_documented : Documented (fun _ => True) indentedJson where
  empty := by
    refine dif_neg fun ⟨t, _, ht⟩ => ?_
    have hnil : indented t = [] := @utf8_injective _ [] ht
    rw [indented] at hnil
    split at hnil
    · cases hnil
    · obtain ⟨c, rest, htext, -⟩ := text_head t
      cases htext.symm.trans hnil
  exact := fun _ _ h _ => h
  decoded := fun raw t h => by
    change reread raw = some t at h
    rw [reread] at h
    split at h
    case isTrue hex => exact Option.some.inj h ▸ hex.choose_spec.1
    case isFalse => cases h
  printed := fun t ht => ⟨_, rfl, reread_indented ht⟩

def blankDraw : Draw := ⟨List.replicate 16 0, rfl⟩

def otherDraw : Draw := ⟨List.replicate 16 7, rfl⟩

theorem healers_settle_moved :
    let healed := Healer.mtproto.run indentedJson blankDraw (utf8 (indented (.obj movedSettings)))
    Healer.mtproto.run indentedJson otherDraw healed.1 = (healed.1, false) ∧ ∃ m',
      indentedJson.unmarshal healed.1 = some (.obj m') ∧
        FakeTLS zeros (stringField m' "secret") "b.io" := by
  intro healed
  have hsorted : ["fakeTlsDomain", "secret"].Pairwise (· < ·) := by decide
  have hgood : Canonical (fun _ => True) (.obj movedSettings) maxNestingDepth := ⟨hsorted, trivial, trivial, trivial⟩
  obtain ⟨hidem, -, hhealed⟩ := healers_settle indentedJson (fun _ => True) indentedJson_documented .mtproto
    blankDraw otherDraw (utf8 (indented (.obj movedSettings)))
  obtain ⟨t', hread, hscope⟩ := hhealed (.obj movedSettings) (reread_indented hgood) hgood
  refine ⟨hidem, ?_⟩
  cases t' with
  | obj m' =>
    have hdomain : domainOf movedSettings = "b.io" := by decide +kernel
    have hmiddle := hscope.1.middle zeros (fakeTLS_middle rfl rfl) (hdomain ▸ by decide)
    exact ⟨m', hread, hdomain ▸ hmiddle⟩
  | _ => cases hscope

end healers

end SettingsHealers

end QuiPanel
