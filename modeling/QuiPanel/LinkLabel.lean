import QuiPanel.SubscriptionBody
import QuiPanel.Subscription
import QuiPanel.Library.JsonCodec
import QuiPanel.Library.PathEscape

namespace QuiPanel

namespace LinkLabel

open ByteText JsonText LinkParser List

structure GoJson where
  unmarshal : Bytes → Option Tree
  marshal : Tree → Option Bytes

structure DropIn (float : Number → Prop) (depth : Nat) (env : Env) (json : GoJson) : Prop where
  reads : ∀ raw t, env.decodeJson raw = some t → json.unmarshal raw = some t ∧ Canonical float t depth
  writes : ∀ t, Canonical float t depth → ∃ nb, json.marshal t = some nb ∧ env.decodeJson nb = some t

section relabel

variable (json : GoJson) (env : Env)

def padBase64Sub (s : Bytes) : Bytes := padTo 61 s

def applyVmessRemark (rawLink : Bytes) (remark : String) : Subscription.Go Bytes :=
  let b64 := trimPrefix (lit "vmess://") rawLink
  match (stdDecode (padBase64Sub b64)).or (rawURLDecode (trimRightPad b64)) with
  | none => pure rawLink
  | some raw =>
    match json.unmarshal raw with
    | some (.obj j) =>
      match json.marshal (.obj (Fields.insert j "ps" (.str remark))) with
      | some nb => pure (lit "vmess://" ++ stdText nb)
      | none => pure rawLink
    | some .null => .error .nilMap
    | _ => pure rawLink

def applyRemarkToLink (rawLink : Bytes) (remark : String) : Subscription.Go Bytes :=
  let rawLink := trimSpace rawLink
  if remark = "" then pure rawLink
  else if (lit "vmess://").isPrefixOf rawLink then applyVmessRemark json rawLink remark
  else pure ((cut 35 rawLink).1 ++ 35 :: Url.pathEscape (utf8 remark.toList))

structure Renamed (res res' : ParseResult) (remark : String) : Prop where
  identity : res'.identity = res.identity
  server : SameServer res res'
  label : res'.outbound.get "tag" = some (str (utf8 remark.toList))

def Relabels (l : Bytes) (remark : String) (res : ParseResult) : Prop :=
  if remark = "" then applyRemarkToLink json l remark = pure l
  else ∃ link res', applyRemarkToLink json l remark = pure link ∧ parseLink env link = some res' ∧
    Renamed res res' remark

def vmessTree (b64 : Bytes) : Option Tree := ((stdDecode (padBase64 b64)).or (rawURLDecode b64)).bind env.decodeJson

def Kept (l : Bytes) (remark : String) : Prop :=
  let r := utf8 remark.toList
  if remark = "" then trimSpace l = l
  else match schemeOf (trimSpace l) with
  | some .vmess => vmessTree env (body "vmess://" l) ≠ some .null
  | some .shadowsocks => 43 ∉ r
  | _ => Url.queryUnescape r = none ∨ 37 ∉ r ∧ 43 ∉ r

end relabel

section fragments

variable {env : Env} {json : GoJson} {l r : Bytes} {s : Scheme} {res : ParseResult}

def marked (l r : Bytes) : Bytes := (cut 35 (trimSpace l)).1 ++ 35 :: Url.pathEscape r

def readBack (s : Scheme) (r : Bytes) : Bytes :=
  match s with
  | .shadowsocks => r.map (Url.spaced .queryComponent)
  | _ => decodeHash r

theorem cut_marked (l r : Bytes) : cut 35 (marked l r) = ((cut 35 (trimSpace l)).1, some (Url.pathEscape r)) :=
  cut_at (cut_spec 35 (trimSpace l)).1

theorem prefixes_lettered : ∀ entry ∈ prefixes, 35 ∉ lit entry.1 ∧ (lit entry.1).head?.any visible = true := by
  decide +kernel

theorem schemeOf_marked (l r : Bytes) : schemeOf (marked l r) = schemeOf (trimSpace l) := by
  rw [schemeOf, schemeOf, find?_congr]
  intro entry hentry
  have hfree := (prefixes_lettered entry hentry).1
  rw [Bool.eq_iff_iff, List.isPrefixOf_iff_prefix, List.isPrefixOf_iff_prefix]
  exact (prefix_marked hfree).trans (prefix_cut hfree)

theorem trimSpace_marked (h : schemeOf (trimSpace l) = some s) (r : Bytes) : trimSpace (marked l r) = marked l r := by
  rw [← schemeOf_marked l r] at h
  obtain ⟨entry, hfind, -⟩ := Option.map_eq_some_iff.mp h
  have hfound := find?_some hfind
  obtain ⟨rest, hrest⟩ := List.isPrefixOf_iff_prefix.mp hfound
  have hlettered := (prefixes_lettered entry (mem_of_find?_eq_some hfind)).2
  obtain ⟨a, ha, hvisible⟩ := (Option.any_eq_true _ _).mp hlettered
  have hhead : (marked l r).head? = some a := by
    rw [← hrest, head?_append, ha, Option.some_or]
  obtain ⟨b, hb⟩ := Option.ne_none_iff_exists'.mp
    (show (35 :: Url.pathEscape r).getLast? ≠ none from by simp)
  have hlast : (marked l r).getLast? = some b := by
    rw [marked, getLast?_append, hb, Option.some_or]
  refine trimSpace_ends hhead hlast hvisible ?_
  rcases mem_cons.mp (mem_of_getLast? hb) with rfl | hmem
  · decide
  · exact Url.pathEscape_visible r b hmem

theorem endpoint_marked {e : Endpoint} (h : endpoint env (trimSpace l) = some e) (r : Bytes) :
    endpoint env (marked l r) = some { e with remark := decodeHash r } := by
  obtain ⟨u, hu, rfl⟩ := Option.map_eq_some_iff.mp h
  have hfragment : Url.unescape .fragment ((cut 35 (marked l r)).2.getD []) = some r := by
    rw [cut_marked, Option.getD_some, Url.fragment_pathEscape]
  rw [endpoint, Url.parseAbsolute_relabel hu (by rw [cut_marked]) hfragment]
  rfl

theorem ssAccount_relabel {core other : Bytes} {a : Account} (h : ssAccount core = some a)
    (hsame : (cut 35 other).1 = (cut 35 core).1) :
    ssAccount other = some { a with remark := ((cut 35 other).2.bind Url.queryUnescape).getD [] } := by
  rw [ssAccount] at h ⊢
  rw [hsame]
  have hat : ∀ {userInfo hp remark a} (remark' : Bytes), accountAt userInfo hp remark = some a →
      accountAt userInfo hp remark' = some { a with remark := remark' } := by
    intro userInfo hp remark a remark' h
    obtain ⟨split, hsplit, rfl⟩ := Option.map_eq_some_iff.mp h
    rw [accountAt, hsplit]
    rfl
  split at h
  case h_1 => exact hat _ h
  case h_2 =>
    obtain ⟨dec, hdec, h⟩ := Option.bind_eq_some_iff.mp h
    rw [hdec, Option.bind_eq_bind, Option.bind_some]
    split at h
    case h_1 => exact hat _ h
    case h_2 => cases h

theorem ssAccount_marked {a : Account} (hs : schemeOf (trimSpace l) = some .shadowsocks)
    (h : ssAccount (body "ss://" l) = some a) (r : Bytes) :
    ssAccount (trimPrefix (lit "ss://") (marked l r)) =
      some { a with remark := r.map (Url.spaced .queryComponent) } := by
  have hstarts := shadowsocks_starts ((schemeOf_marked l r).trans hs)
  have hcut := @cut_trimPrefix 35 (marked l r) (lit "ss://") (by decide +kernel) hstarts
  rw [cut_marked] at hcut
  rw [ssAccount_relabel h (by rw [hcut, body_cut hs]), hcut, Option.bind_some,
    Url.queryUnescape_pathEscape, Option.getD_some]

theorem parseScheme_marked (hs : schemeOf (trimSpace l) = some s) (hne : s ≠ .vmess)
    (h : parseScheme env (trimSpace l) s = some res) (r : Bytes) :
    ∃ res', parseLink env (marked l r) = some res' ∧ res'.identity = res.identity ∧ SameServer res res' ∧
      res'.outbound.get "tag" = some (str (readBack s r)) := by
  rw [parseLink, trimSpace_marked hs, schemeOf_marked, hs, Option.bind_some]
  cases s with
  | vmess => exact absurd rfl hne
  | shadowsocks =>
    obtain ⟨a, ha, rfl⟩ := Option.map_eq_some_iff.mp h
    exact ⟨_, congrArg (Option.map shadowsocksResult) (ssAccount_marked hs ha r), rfl, rfl, rfl⟩
  | vless =>
    obtain ⟨e, he, rfl⟩ := Option.map_eq_some_iff.mp h
    exact ⟨_, congrArg (Option.map (vlessResult env)) (endpoint_marked he r), rfl, vless_server rfl, rfl⟩
  | trojan =>
    obtain ⟨e, he, rfl⟩ := Option.map_eq_some_iff.mp h
    exact ⟨_, congrArg (Option.map (trojanResult env)) (endpoint_marked he r), rfl, trojan_server rfl, rfl⟩
  | hysteria2 =>
    obtain ⟨e, he, rfl⟩ := Option.map_eq_some_iff.mp h
    exact ⟨_, congrArg (Option.map (hysteria2Result env)) (endpoint_marked he r), rfl, hysteria2_server rfl, rfl⟩
  | wireguard =>
    obtain ⟨e, he, rfl⟩ := Option.map_eq_some_iff.mp h
    exact ⟨_, congrArg (Option.map wireguardResult) (endpoint_marked he r), rfl, wireguard_server rfl, rfl⟩

end fragments

section vmess

variable {float : Number → Prop} {depth : Nat} {env : Env} {json : GoJson} {l b64 raw nb : Bytes} {remark : String}
  {j : Fields Tree} {res : ParseResult}

theorem vmess_starts : schemeOf (trimSpace l) = some .vmess ↔ (lit "vmess://").isPrefixOf (trimSpace l) = true := by
  constructor
  · intro h
    have honly : ∀ entry ∈ prefixes, entry.2 = .vmess → entry.1 = "vmess://" := by decide
    obtain ⟨entry, hfind, hscheme⟩ := Option.map_eq_some_iff.mp h
    have hpre := find?_some hfind
    rw [honly entry (mem_of_find?_eq_some hfind) hscheme] at hpre
    exact hpre
  · intro h
    have hfind : prefixes.find? (fun entry => (lit entry.1).isPrefixOf (trimSpace l)) = some ("vmess://", .vmess) :=
      find?_cons_of_pos h
    rw [schemeOf, hfind]
    rfl

theorem trimRightPad_plain (h : 61 ∉ b64) : trimRightPad b64 = b64 := by
  have hnone : b64.reverse.dropWhile (· = 61) = b64.reverse := by
    cases hback : b64.reverse with
    | nil => rfl
    | cons c rest =>
      have hc : c ≠ 61 := by
        rintro rfl
        exact h (mem_reverse.mp (hback ▸ mem_cons_self))
      rw [dropWhile_cons_of_neg (by simpa using hc)]
  rw [trimRightPad, hnone, reverse_reverse]

theorem decode_agrees (h : (stdDecode (padBase64 b64)).or (rawURLDecode b64) = some raw) :
    (stdDecode (padBase64Sub b64)).or (rawURLDecode (trimRightPad b64)) = some raw := by
  have hpad : padBase64Sub b64 = padBase64 b64 := rfl
  rw [hpad]
  cases hstd : stdDecode (padBase64 b64) with
  | some bytes =>
    rw [hstd] at h
    exact h
  | none =>
    rw [hstd, Option.none_or] at h
    have hplain : 61 ∉ b64 := by
      intro hmem
      rw [rawURLDecode, if_pos hmem] at h
      cases h
    rw [trimRightPad_plain hplain, Option.none_or, h]

theorem vmess_tree (h : parseScheme env (trimSpace l) .vmess = some res) :
    (∃ j, vmessTree env (body "vmess://" l) = some (.obj j) ∧ res = ⟨vmessOutbound env j, vmessIdentity j⟩) ∨
      vmessTree env (body "vmess://" l) = some .null := by
  obtain ⟨j, hj, rfl⟩ := Option.map_eq_some_iff.mp h
  obtain ⟨raw, hraw, hj⟩ := Option.bind_eq_some_iff.mp hj
  rw [vmessTree, body, hraw, Option.bind_some]
  rw [unmarshalMap] at hj
  split at hj
  case h_1 hdecode =>
    cases hj
    exact .inl ⟨j, hdecode, rfl⟩
  case h_2 hdecode => exact .inr hdecode
  case h_3 => cases hj

theorem vmess_relabel (hjson : DropIn float depth env json) (hs : schemeOf (trimSpace l) = some .vmess)
    (hr : remark ≠ "") (hj : vmessTree env (body "vmess://" l) = some (.obj j)) :
    ∃ nb, applyRemarkToLink json l remark = pure (lit "vmess://" ++ stdText nb) ∧
      env.decodeJson nb = some (.obj (Fields.insert j "ps" (.str remark))) := by
  obtain ⟨raw, hraw, hdecode⟩ := Option.bind_eq_some_iff.mp hj
  obtain ⟨hread, hcanonical⟩ := hjson.reads raw _ hdecode
  obtain ⟨nb, hmarshal, hback⟩ := hjson.writes _ (@canonical_insert _ _ _ "ps" remark hcanonical)
  refine ⟨nb, ?_, hback⟩
  rw [body] at hraw
  simp only [applyRemarkToLink, if_neg hr, if_pos (vmess_starts.mp hs), applyVmessRemark, decode_agrees hraw, hread,
    hmarshal]

theorem vmess_panics (hjson : DropIn float depth env json) (hs : schemeOf (trimSpace l) = some .vmess)
    (hr : remark ≠ "") (hj : vmessTree env (body "vmess://" l) = some .null) :
    applyRemarkToLink json l remark = .error .nilMap := by
  obtain ⟨raw, hraw, hdecode⟩ := Option.bind_eq_some_iff.mp hj
  have hread := (hjson.reads raw _ hdecode).1
  rw [body] at hraw
  simp only [applyRemarkToLink, if_neg hr, if_pos (vmess_starts.mp hs), applyVmessRemark, decode_agrees hraw, hread]

theorem parseLink_vmess (h : env.decodeJson nb = some (.obj j)) :
    parseLink env (lit "vmess://" ++ stdText nb) = some ⟨vmessOutbound env j, vmessIdentity j⟩ := by
  have htrim : trimSpace (lit "vmess://" ++ stdText nb) = lit "vmess://" ++ stdText nb := by
    refine trimSpace_visible fun c hc => ?_
    rcases mem_append.mp hc with hc | hc
    · have hall : ∀ c ∈ lit "vmess://", visible c = true := by decide +kernel
      exact hall c hc
    · obtain ⟨symbol, hsymbol, rfl⟩ := mem_map.mp hc
      exact (symbol_of_encode hsymbol).printed
  have hscheme : schemeOf (trimSpace (lit "vmess://" ++ stdText nb)) = some .vmess :=
    vmess_starts.mpr (by rw [htrim]; exact List.isPrefixOf_iff_prefix.mpr (prefix_append _ _))
  have hfields : vmessFields env (stdText nb) = some j := by
    rw [vmessFields, padBase64_full (text_length nb).1, stdDecode_stdText, Option.some_or, Option.bind_eq_bind,
      Option.bind_some, unmarshalMap, h]
  rw [parseLink, hscheme, Option.bind_some, htrim, parseScheme, trimPrefix_append, parseVmess, hfields]
  rfl

theorem renamed_vmess (env : Env) (j : Fields Tree) (remark : String) :
    Renamed ⟨vmessOutbound env j, vmessIdentity j⟩
      ⟨vmessOutbound env (Fields.insert j "ps" (.str remark)), vmessIdentity (Fields.insert j "ps" (.str remark))⟩
      remark := by
  have hcore : core (Fields.insert j "ps" (.str remark)) = core j := Fields.del_insert j "ps" (.str remark)
  have hlabel : getString (Fields.insert j "ps" (.str remark)) remarkKey [] = utf8 remark.toList := by
    rw [getString, getTree, remarkKey, Fields.get_insert_self]
    rfl
  refine ⟨congrArg (fun c => lit "vmess:" ++ marshal (.obj c)) hcore, vmess_server hcore.symm, ?_⟩
  rw [← hlabel]
  rfl

end vmess

section relabelling

variable {float : Number → Prop} {depth : Nat} {env : Env} {json : GoJson} {l : Bytes} {remark : String} {s : Scheme}
  {res : ParseResult}

theorem relabels_marked (hs : schemeOf (trimSpace l) = some s) (hne : s ≠ .vmess) (hr : remark ≠ "")
    (h : parseScheme env (trimSpace l) s = some res) :
    Relabels json env l remark res ↔ readBack s (utf8 remark.toList) = utf8 remark.toList := by
  have hprefix : ¬ (lit "vmess://").isPrefixOf (trimSpace l) = true := by
    intro hpre
    rw [vmess_starts.mpr hpre] at hs
    exact hne (Option.some.inj hs).symm
  have hlink : applyRemarkToLink json l remark = pure (marked l (utf8 remark.toList)) := by
    simp only [applyRemarkToLink, if_neg hr, if_neg hprefix]
    rfl
  obtain ⟨res', hparse, hidentity, hserver, hlabel⟩ := parseScheme_marked hs hne h (utf8 remark.toList)
  rw [Relabels, if_neg hr, hlink]
  constructor
  · rintro ⟨link, res'', hlink', hparse', hrenamed⟩
    obtain rfl := Except.ok.inj hlink'
    obtain rfl := Option.some.inj (hparse.symm.trans hparse')
    exact Value.str.inj (Option.some.inj (hlabel.symm.trans hrenamed.label))
  · intro hread
    rw [hread] at hlabel
    exact ⟨_, res', rfl, hparse, hidentity, hserver, hlabel⟩

theorem relabels_vmess (hjson : DropIn float depth env json) (hs : schemeOf (trimSpace l) = some .vmess)
    (hr : remark ≠ "") (h : parseScheme env (trimSpace l) .vmess = some res) :
    Relabels json env l remark res ↔ vmessTree env (body "vmess://" l) ≠ some .null := by
  rw [Relabels, if_neg hr]
  rcases vmess_tree h with ⟨j, hj, rfl⟩ | hnull
  · obtain ⟨nb, hlink, hback⟩ := vmess_relabel hjson hs hr hj
    rw [hj]
    exact ⟨fun _ => nofun, fun _ => ⟨_, _, hlink, parseLink_vmess hback, renamed_vmess env j remark⟩⟩
  · rw [vmess_panics hjson hs hr hnull]
    exact ⟨fun ⟨_, _, hlink, _⟩ => (nomatch hlink), fun hne => absurd hnull hne⟩

theorem relabels_iff (float : Number → Prop) (depth : Nat) (env : Env) (json : GoJson)
    (hjson : DropIn float depth env json) (l : Bytes) (remark : String) (res : ParseResult)
    (h : parseLink env l = some res) : Relabels json env l remark res ↔ Kept env l remark := by
  obtain ⟨s, hs, hres⟩ := parseLink_scheme h
  by_cases hr : remark = ""
  · rw [Relabels, if_pos hr, Kept, if_pos hr, applyRemarkToLink, if_pos hr]
    exact ⟨Except.ok.inj, congrArg Except.ok⟩
  · rw [Kept, if_neg hr, hs]
    cases s with
    | vmess => exact relabels_vmess hjson hs hr hres
    | shadowsocks => exact (relabels_marked hs nofun hr hres).trans (Url.spaced_query _)
    | vless => exact (relabels_marked hs nofun hr hres).trans Url.queryUnescape_kept
    | trojan => exact (relabels_marked hs nofun hr hres).trans Url.queryUnescape_kept
    | hysteria2 => exact (relabels_marked hs nofun hr hres).trans Url.queryUnescape_kept
    | wireguard => exact (relabels_marked hs nofun hr hres).trans Url.queryUnescape_kept

open Classical in
noncomputable def reread (raw : Bytes) : Option Tree :=
  if h : ∃ t, Canonical (fun _ => True) t 10000 ∧ marshal t = raw then some h.choose else none

noncomputable def rereadEnv : Env where
  hosts := ⟨fun _ => false, false⟩
  decodeJson := reread
  truncate := fun _ => 0

noncomputable def rereadJson : GoJson := ⟨reread, fun t => some (marshal t)⟩

theorem reread_dropIn : DropIn (fun _ => True) 10000 rereadEnv rereadJson where
  reads := fun raw t h => by
    refine ⟨h, ?_⟩
    change reread raw = some t at h
    rw [reread] at h
    split at h
    case isTrue hex =>
      obtain rfl := Option.some.inj h
      exact hex.choose_spec.1
    case isFalse => cases h
  writes := fun t ht => by
    have hex : ∃ t', Canonical (fun _ => True) t' 10000 ∧ marshal t' = marshal t := ⟨t, ht, rfl⟩
    refine ⟨marshal t, rfl, ?_⟩
    change reread (marshal t) = some t
    rw [reread, dif_pos hex, marshal_injective hex.choose_spec.2]

theorem renamed_link : Relabels rereadJson rereadEnv oldLink "DE #1 / fast"
    ((parseLink rereadEnv oldLink).get (by decide +kernel)) := by
  have hfacts : schemeOf (trimSpace oldLink) = some .vless ∧ 37 ∉ utf8 "DE #1 / fast".toList ∧
      43 ∉ utf8 "DE #1 / fast".toList := by
    decide +kernel
  obtain ⟨hscheme, hmarks⟩ := hfacts
  have hkept : Kept rereadEnv oldLink "DE #1 / fast" := by
    rw [Kept, if_neg (by decide), hscheme]
    exact .inr hmarks
  exact (relabels_iff _ _ _ _ reread_dropIn _ _ _ (Option.some_get _).symm).mpr hkept

theorem plus_read_as_space : ∃ res, parseLink rereadEnv oldLink = some res ∧
    ¬ Relabels rereadJson rereadEnv oldLink "a+b" res := by
  have hfacts : (parseLink rereadEnv oldLink).isSome ∧ schemeOf (trimSpace oldLink) = some .vless ∧
      readBack .vless (utf8 "a+b".toList) ≠ utf8 "a+b".toList := by
    decide +kernel
  obtain ⟨hsome, hscheme, hread⟩ := hfacts
  obtain ⟨res, hres⟩ := Option.isSome_iff_exists.mp hsome
  obtain ⟨s, hs, hparse⟩ := parseLink_scheme hres
  obtain rfl : Scheme.vless = s := Option.some.inj (hscheme.symm.trans hs)
  exact ⟨res, hres, fun hrelabels => hread ((relabels_marked hs nofun (by decide) hparse).mp hrelabels)⟩

end relabelling

end LinkLabel

end QuiPanel
