import QuiPanel.Traffic

namespace QuiPanel

namespace Xray

open LeftmostFirst List

def forbiddenClientChar (r : Char) : Bool :=
  r == '/' || r == '\\' || r == ' ' || r < Char.ofNat 0x20 || r == Char.ofNat 0x7f

def hasForbiddenClientChar (s : String) : Bool := s.toList.any forbiddenClientChar

def validateClientEmail (email : String) : Except String Unit :=
  if hasForbiddenClientChar email then
    .error ("client email contains an invalid character: " ++ email ++ "\n")
  else .ok ()

def sanitizeClientName (name : String) : String :=
  String.ofList ((Text.trimSpace name).toList.map fun r => if forbiddenClientChar r then '-' else r)

theorem sanitize_valid (name : String) : validateClientEmail (sanitizeClientName name) = .ok () := by
  have hclean : hasForbiddenClientChar (sanitizeClientName name) = false := by
    simp only [hasForbiddenClientChar, sanitizeClientName, String.toList_ofList, any_map,
      any_eq_false, Function.comp_apply]
    intro r hr
    cases hf : forbiddenClientChar r with
    | true => simpa only [if_true] using by decide
    | false => simp [hf]
  simp [validateClientEmail, hclean]

structure ClientEmail where
  email : String
  valid : validateClientEmail email = .ok ()
  deriving DecidableEq

def ClientEmail.ofName (name : String) : ClientEmail := ⟨sanitizeClientName name, sanitize_valid name⟩

def link (isDown : Bool) : String := if isDown then "downlink" else "uplink"

inductive Counter
  | client (email : String) (isDown : Bool)
  | inbound (tag : String) (isDown : Bool)
  | outbound (tag : String) (isDown : Bool)
  deriving DecidableEq

def Counter.name : Counter → String
  | client email isDown => "user>>>" ++ email ++ ">>>traffic>>>" ++ link isDown
  | inbound tag isDown => "inbound>>>" ++ tag ++ ">>>traffic>>>" ++ link isDown
  | outbound tag isDown => "outbound>>>" ++ tag ++ ">>>traffic>>>" ++ link isDown

section shapes

variable {cs : List Char} {caps : List (List Char)}

def directions : List (List Char) := ["downlink".toList, "uplink".toList]

def kinds : List (List Char) := ["inbound".toList, "outbound".toList]

theorem nameClass_matches (h : Matches nameClass cs caps) : cs ≠ [] ∧ '>' ∉ cs ∧ caps = [cs] := by
  cases h with
  | group h =>
    cases h with
    | plus hne hcs => exact ⟨hne, fun hm => by simpa using hcs _ hm, rfl⟩

theorem direction_matches (h : Matches direction cs caps) : cs ∈ directions ∧ caps = [cs] := by
  cases h with
  | group h =>
    cases h with
    | either hcs => exact ⟨hcs, rfl⟩

theorem lit_matches {ds : List Char} (h : Matches (.lit ds) cs caps) : cs = ds ∧ caps = [] := by
  cases h with
  | lit => exact ⟨rfl, rfl⟩

theorem clientTraffic_matches (h : Matches clientTrafficRegex cs caps) :
    ∃ x d, x ≠ [] ∧ '>' ∉ x ∧ d ∈ directions ∧
      cs = "user>>>".toList ++ (x ++ (">>>traffic>>>".toList ++ d)) ∧ caps = [x, d] := by
  cases h with
  | seq huser h =>
    cases h with
    | seq hname h =>
      cases h with
      | seq htraffic hdir =>
        obtain ⟨rfl, rfl⟩ := lit_matches huser
        obtain ⟨hne, hclean, rfl⟩ := nameClass_matches hname
        obtain ⟨rfl, rfl⟩ := lit_matches htraffic
        obtain ⟨hd, rfl⟩ := direction_matches hdir
        exact ⟨_, _, hne, hclean, hd, rfl, rfl⟩

theorem traffic_matches (h : Matches trafficRegex cs caps) :
    ∃ k x d, k ∈ kinds ∧ x ≠ [] ∧ '>' ∉ x ∧ d ∈ directions ∧
      cs = k ++ (">>>".toList ++ (x ++ (">>>traffic>>>".toList ++ d))) ∧ caps = [k, x, d] := by
  cases h with
  | seq hkind h =>
    cases h with
    | seq harrow h =>
      cases h with
      | seq hname h =>
        cases h with
        | seq htraffic hdir =>
          cases hkind with
          | group hkind =>
            cases hkind with
            | either hk =>
              obtain ⟨rfl, rfl⟩ := lit_matches harrow
              obtain ⟨hne, hclean, rfl⟩ := nameClass_matches hname
              obtain ⟨rfl, rfl⟩ := lit_matches htraffic
              obtain ⟨hd, rfl⟩ := direction_matches hdir
              exact ⟨_, _, _, hk, hne, hclean, hd, rfl, rfl⟩

theorem matches_clientTraffic {x d : List Char} (hne : x ≠ []) (hclean : '>' ∉ x)
    (hd : d ∈ directions) : Matches clientTrafficRegex
      ("user>>>".toList ++ (x ++ (">>>traffic>>>".toList ++ d))) [x, d] := by
  have hx : Matches nameClass x [x] :=
    .group (.plus hne fun c hc => by simpa using fun he : c = '>' => hclean (he ▸ hc))
  have hdir : Matches direction d [d] := .group (.either hd)
  exact .seq (.lit _) (.seq hx (.seq (.lit _) hdir))

end shapes

section parsing

variable {name email : String} {isDown : Bool}

theorem link_mem (isDown : Bool) : (link isDown).toList ∈ directions := by
  cases isDown <;> decide

theorem link_clean (isDown : Bool) : '>' ∉ (link isDown).toList := by
  cases isDown <;> decide

theorem client_name_toList (email : String) (isDown : Bool) : (Counter.client email isDown).name.toList =
    "user>>>".toList ++ (email.toList ++ (">>>traffic>>>".toList ++ (link isDown).toList)) := by
  simp only [Counter.name, String.toList_append, append_assoc]

theorem takeWhile_name {x rest : List Char} (h : '>' ∉ x) :
    (x ++ '>' :: rest).takeWhile (· != '>') = x := by
  induction x with
  | nil => rfl
  | cons c x ih =>
    have hc : c ≠ '>' := fun he => h (he ▸ mem_cons_self ..)
    have hx : '>' ∉ x := fun hm => h (mem_cons_of_mem _ hm)
    have hb : (c != '>') = true := by simpa using hc
    rw [cons_append, takeWhile_cons, if_pos hb, ih hx]

theorem name_inj {x y rest rest' : List Char} (hx : '>' ∉ x) (hy : '>' ∉ y)
    (h : x ++ '>' :: rest = y ++ '>' :: rest') : x = y ∧ rest = rest' := by
  have hxy : x = y := by
    have hleft : (x ++ '>' :: rest).takeWhile (· != '>') = x := takeWhile_name hx
    rw [← hleft, h, takeWhile_name hy]
  subst hxy
  simpa using h

theorem count_marks {s : List Char} (h : '>' ∉ s) : s.count '>' = 0 := count_eq_zero.mpr h

theorem kind_marks {k : List Char} (h : k ∈ kinds) : '>' ∉ k ∧ 7 ≤ k.length := by
  simp only [kinds, mem_cons, not_mem_nil, or_false] at h
  rcases h with rfl | rfl <;> decide

theorem direction_marks {d : List Char} (h : d ∈ directions) : '>' ∉ d := by
  simp only [directions, mem_cons, not_mem_nil, or_false] at h
  rcases h with rfl | rfl <;> decide

theorem direction_unique {d d' post : List Char} (hd : d ∈ directions) (hd' : d' ∈ directions)
    (h : d = d' ++ post) : d = d' := by
  simp only [directions, mem_cons, not_mem_nil, or_false] at hd hd'
  rcases hd with rfl | rfl <;> rcases hd' with rfl | rfl
  · rfl
  · exact absurd (congrArg List.head? h) (by simp)
  · exact absurd (congrArg List.head? h) (by simp)
  · rfl

theorem no_traffic_of_clean (hclean : '>' ∉ email.toList) :
    findStringSubmatch trafficRegex (Counter.client email isDown).name = none := by
  cases hfound : findSubmatch trafficRegex (Counter.client email isDown).name.toList with
  | none => simp only [findStringSubmatch, hfound, Option.map_none]
  | some caps =>
    obtain ⟨pre, cs, post, hs, hm⟩ := findSubmatch_sound hfound
    obtain ⟨k, x, d, hk, -, hx, hd, rfl, -⟩ := traffic_matches hm
    have hcount := congrArg (List.count '>') hs
    have hlink := count_marks (link_clean isDown)
    rw [client_name_toList] at hs hcount
    simp only [count_append, count_marks hclean, hlink, count_marks (kind_marks hk).1,
      count_marks hx, count_marks (direction_marks hd)] at hcount
    have hpre : '>' ∉ pre := count_eq_zero.mp (by
      have h3 : ">>>".toList.count '>' = 3 := by decide
      have h6 : ">>>traffic>>>".toList.count '>' = 6 := by decide
      have hu : "user>>>".toList.count '>' = 3 := by decide
      omega)
    have hfront : '>' ∉ pre ++ k := by
      rw [mem_append, not_or]
      exact ⟨hpre, (kind_marks hk).1⟩
    have hsplit : "user".toList ++ '>' :: (">>".toList ++ (email.toList ++
        (">>>traffic>>>".toList ++ (link isDown).toList))) =
        (pre ++ k) ++ '>' :: (">>".toList ++ (x ++ (">>>traffic>>>".toList ++ d)) ++ post) := by
      have hs' : "user>>>".toList = "user".toList ++ '>' :: ">>".toList := by decide
      have ha : ">>>".toList = '>' :: ">>".toList := by decide
      rw [hs', ha] at hs
      simpa only [append_assoc, cons_append] using hs
    have huser := (name_inj (by decide) hfront hsplit).1
    have hlen := congrArg List.length huser
    have hklen := (kind_marks hk).2
    have h4 : "user".toList.length = 4 := by decide
    rw [length_append] at hlen
    omega

theorem client_found (hne : email ≠ "") (hclean : '>' ∉ email.toList) :
    findStringSubmatch clientTrafficRegex (Counter.client email isDown).name =
      some [email, link isDown] := by
  have hne' : email.toList ≠ [] := by simpa using hne
  obtain ⟨ds, post, caps, hs, hm, hfound⟩ :=
    findSubmatch_head [] (matches_clientTraffic hne' hclean (link_mem isDown))
  obtain ⟨x, d, -, hx, hd, rfl, rfl⟩ := clientTraffic_matches hm
  rw [append_nil] at hs hfound
  have hsplit : email.toList ++ '>' :: (">>traffic>>>".toList ++ (link isDown).toList) =
      x ++ '>' :: (">>traffic>>>".toList ++ (d ++ post)) := by
    have ht : ">>>traffic>>>".toList = '>' :: ">>traffic>>>".toList := by decide
    rw [ht] at hs
    rw [append_assoc] at hs
    have hs := append_cancel_left hs
    simpa only [append_assoc, cons_append] using hs
  obtain ⟨hemail, hrest⟩ := name_inj hclean hx hsplit
  have hdir := direction_unique (link_mem isDown) hd (append_cancel_left hrest)
  simp only [findStringSubmatch, client_name_toList, hfound, Option.map_some, map_cons,
    map_nil, ← hemail, ← hdir, String.ofList_toList]

theorem slot_client (hne : email ≠ "") (hclean : '>' ∉ email.toList) :
    slot (Counter.client email isDown).name = some (.client email isDown) := by
  have hdown : (link isDown == "downlink") = isDown := by cases isDown <;> decide
  simp only [slot, no_traffic_of_clean hclean, client_found hne hclean, hdown]

def ReadAsTraffic (name : String) : Prop := Occurs trafficRegex name.toList

def ReadAsClient (name : String) : Prop :=
  ¬ ReadAsTraffic name ∧ Occurs clientTrafficRegex name.toList

theorem found_none {r : Regex Char} (h : ¬ Occurs r name.toList) : findStringSubmatch r name = none := by
  rw [← findSubmatch_isSome, Option.not_isSome_iff_eq_none] at h
  simp only [findStringSubmatch, h, Option.map_none]

theorem slot_traffic (h : ReadAsTraffic name) :
    ∃ inbound tag isDown, slot name = some (.traffic inbound tag isDown) := by
  obtain ⟨caps, hfound⟩ := Option.isSome_iff_exists.mp (findSubmatch_isSome.mpr h)
  obtain ⟨_, _, _, _, hm⟩ := findSubmatch_sound hfound
  obtain ⟨k, x, d, -, -, -, -, -, rfl⟩ := traffic_matches hm
  have hsub : findStringSubmatch trafficRegex name =
      some [String.ofList k, String.ofList x, String.ofList d] := by
    simp only [findStringSubmatch, hfound, Option.map_some, map_cons, map_nil]
  exact ⟨String.ofList k == "inbound", String.ofList x, String.ofList d == "downlink",
    by simp only [slot, hsub]⟩

theorem slot_of_client (h : ReadAsClient name) : ∃ email isDown, email ≠ "" ∧ '>' ∉ email.toList ∧
    slot name = some (.client email isDown) := by
  obtain ⟨htraffic, hclient⟩ := h
  obtain ⟨caps, hfound⟩ := Option.isSome_iff_exists.mp (findSubmatch_isSome.mpr hclient)
  obtain ⟨_, _, _, _, hm⟩ := findSubmatch_sound hfound
  obtain ⟨x, d, hne, hclean, -, -, rfl⟩ := clientTraffic_matches hm
  have hsub : findStringSubmatch clientTrafficRegex name = some [String.ofList x, String.ofList d] := by
    simp only [findStringSubmatch, hfound, Option.map_some, map_cons, map_nil]
  refine ⟨String.ofList x, String.ofList d == "downlink", ?_, ?_, ?_⟩
  · exact fun he => hne (by simpa using congrArg String.toList he)
  · simpa only [String.toList_ofList] using hclean
  · simp only [slot, found_none htraffic, hsub]

theorem slot_other (h : ¬ ReadAsTraffic name) (h' : ¬ ReadAsClient name) : slot name = none := by
  have hclient : ¬ Occurs clientTrafficRegex name.toList := fun hc => h' ⟨h, hc⟩
  simp only [slot, found_none h, found_none hclient]

theorem client_of_slot (h : slot name = some (.client email isDown)) :
    email ≠ "" ∧ '>' ∉ email.toList ∧ ReadAsClient name := by
  by_cases htraffic : ReadAsTraffic name
  · obtain ⟨_, _, _, hs⟩ := slot_traffic htraffic
    rw [hs] at h
    cases h
  by_cases hclient : ReadAsClient name
  · obtain ⟨e, d, hne, hclean, hs⟩ := slot_of_client hclient
    rw [hs] at h
    cases h
    exact ⟨hne, hclean, hclient⟩
  · rw [slot_other htraffic hclient] at h
    cases h

theorem attributed_iff : slot (Counter.client email isDown).name = some (.client email isDown) ↔
    email ≠ "" ∧ '>' ∉ email.toList := by
  constructor
  · intro h
    have hclient := client_of_slot h
    exact ⟨hclient.1, hclient.2.1⟩
  · intro h
    exact slot_client h.1 h.2

end parsing

structure Counters where
  clients : Set ClientEmail
  inbounds : Set String
  outbounds : Set String

def Counters.Has (C : Counters) : Counter → Prop
  | .client email _ => ∃ e ∈ C.clients, e.email = email
  | .inbound tag _ => tag ∈ C.inbounds
  | .outbound tag _ => tag ∈ C.outbounds

structure Counters.Snapshot (C : Counters) (snapshot : List Stat) : Prop where
  known : ∀ stat ∈ snapshot, ∃ c, C.Has c ∧ stat.name = c.name
  distinct : (snapshot.map (·.name)).Nodup

def Counters.ClientsClean (C : Counters) : Prop :=
  ∀ e ∈ C.clients, e.email ≠ "" ∧ '>' ∉ e.email.toList

def Counters.TagsApart (C : Counters) : Prop :=
  ∀ isDown, (∀ tag ∈ C.inbounds, ¬ ReadAsClient (Counter.inbound tag isDown).name) ∧
    ∀ tag ∈ C.outbounds, ¬ ReadAsClient (Counter.outbound tag isDown).name

def increase (last : String → Option Int64) (snapshot : List Stat) (c : Counter) : Int64 :=
  ((snapshot.find? (·.name = c.name)).bind (delta last)).getD 0

structure Attributed (C : Counters) (last : String → Option Int64) (snapshot : List Stat)
    (emails : List ClientTraffic) : Prop where
  once : (emails.map (·.email)).Nodup
  exact : ∀ r ∈ emails, C.Has (.client r.email false) ∧
    ∀ isDown, r.field isDown = increase last snapshot (.client r.email isDown)
  total : ∀ e ∈ C.clients, ∀ isDown, increase last snapshot (.client e.email isDown) ≠ 0 →
    ∃ r ∈ emails, r.email = e.email

structure Attributable (C : Counters) : Prop where
  parsed : ∀ e ∈ C.clients, ∀ isDown,
    findStringSubmatch trafficRegex (Counter.client e.email isDown).name = none ∧
      findStringSubmatch clientTrafficRegex (Counter.client e.email isDown).name =
        some [e.email, link isDown]
  attributed : ∀ last snapshot, C.Snapshot snapshot →
    Attributed C last snapshot (getTraffic last snapshot).emails

section attribution

variable {C : Counters} {last : String → Option Int64} {snapshot : List Stat}

variable {email : String}

theorem counter_of_slot (hclean : C.ClientsClean) (htags : C.TagsApart) {c : Counter} (hc : C.Has c)
    {isDown : Bool} (h : slot c.name = some (.client email isDown)) :
    c = .client email isDown := by
  have hread := (client_of_slot h).2.2
  cases c with
  | client e d =>
    obtain ⟨e', he', rfl⟩ := hc
    obtain ⟨hne, hmark⟩ := hclean e' he'
    rw [slot_client hne hmark] at h
    cases h
    rfl
  | inbound tag d => exact absurd hread ((htags d).1 tag hc)
  | outbound tag d => exact absurd hread ((htags d).2 tag hc)

theorem latest_client (hclean : C.ClientsClean) (htags : C.TagsApart) (hs : C.Snapshot snapshot)
    (hemail : email ≠ "" ∧ '>' ∉ email.toList) (isDown : Bool) :
    latest (forClient email isDown) (snapshot.filterMap (piece last)) =
      (snapshot.find? (·.name = (Counter.client email isDown).name)).bind (delta last) := by
  apply latest_pieces hs.distinct
  · intro stat hstat sl hsl hfor
    obtain ⟨c, hc, hname⟩ := hs.known stat hstat
    cases sl with
    | traffic => simp [forClient] at hfor
    | client e d =>
      simp only [forClient, Bool.and_eq_true, decide_eq_true_eq] at hfor
      obtain ⟨rfl, rfl⟩ := hfor
      rw [hname] at hsl ⊢
      rw [counter_of_slot hclean htags hc hsl]
  · exact ⟨_, slot_client hemail.1 hemail.2, by simp [forClient]⟩

theorem mem_emails {ps : List (Slot × Int64)} {r : ClientTraffic} (h : r ∈ emailsOf ps) :
    (∃ isDown, ∃ p ∈ ps, p.1 = .client r.email isDown) ∧
      ∀ isDown, r.field isDown = emailField ps r.email isDown := by
  have hsome : ((emailsOf ps).find? fun b => b.email = r.email) = some r := by
    cases hf : (emailsOf ps).find? fun b => b.email = r.email with
    | none => exact absurd (find?_eq_none.mp hf r h) (by simp)
    | some b =>
      have hb := mem_of_find?_eq_some hf
      have hkey : b.email = r.email := by simpa using find?_some hf
      rw [inj_on_of_nodup_map emailsOf_nodup hb h hkey]
  rw [find_email] at hsome
  split at hsome
  case isFalse => cases hsome
  case isTrue hhas =>
    have hrow := Option.some.inj hsome
    constructor
    · obtain ⟨⟨sl, v⟩, hp, hfor⟩ := any_eq_true.mp hhas
      cases sl with
      | traffic => simp [forClient] at hfor
      | client e d =>
        have he : e = r.email := by simp [forClient] at hfor; tauto
        exact ⟨d, _, hp, by rw [he]⟩
    · intro isDown
      rw [← hrow]
      cases isDown <;> rfl

theorem attributed_of_clean (hclean : C.ClientsClean) (htags : C.TagsApart)
    (hs : C.Snapshot snapshot) : Attributed C last snapshot (getTraffic last snapshot).emails := by
  rw [getTraffic_eq hs.distinct]
  have hfield : ∀ e ∈ C.clients, ∀ isDown, emailField (snapshot.filterMap (piece last)) e.email isDown =
      increase last snapshot (.client e.email isDown) := by
    intro e he isDown
    rw [emailField, increase, latest_client hclean htags hs (hclean e he)]
  constructor
  case once => exact emailsOf_nodup
  case exact =>
    intro r hr
    obtain ⟨⟨d, p, hp, hslot⟩, hfields⟩ := mem_emails hr
    obtain ⟨stat, hstat, hsl, -⟩ := mem_pieces.mp hp
    obtain ⟨c, hc, hname⟩ := hs.known stat hstat
    rw [hslot, hname] at hsl
    rw [counter_of_slot hclean htags hc hsl] at hc
    obtain ⟨e, he, hemail⟩ := hc
    refine ⟨⟨e, he, hemail⟩, ?_⟩
    intro isDown
    rw [hfields, ← hemail, hfield e he]
  case total =>
    intro e he isDown hne
    rw [← hfield e he] at hne
    have hseen : hasEmail (snapshot.filterMap (piece last)) e.email = true := by
      rw [← Bool.not_eq_false]
      intro hno
      have hrow := emailRow_fresh hno
      apply hne
      cases isDown with
      | false => exact congrArg ClientTraffic.up hrow
      | true => exact congrArg ClientTraffic.down hrow
    have hfind := find_email (snapshot.filterMap (piece last)) e.email
    rw [hseen, if_pos rfl] at hfind
    exact ⟨_, mem_of_find?_eq_some hfind, rfl⟩

theorem tag_name_ne {c : Counter} (hc : ∀ email isDown, c ≠ .client email isDown)
    {isDown : Bool} : c.name ≠ (Counter.client email isDown).name := by
  intro h
  have hhead := congrArg (fun s => s.toList.head?) h
  cases c with
  | client e d => exact hc e d rfl
  | inbound tag d => simp [Counter.name] at hhead
  | outbound tag d => simp [Counter.name] at hhead

theorem lookalike_misread {c : Counter}
    (hc : ∀ email isDown, c ≠ .client email isDown) (hread : ReadAsClient c.name)
    (hhas : C.Has c) : ¬ Attributable C := by
  intro h
  obtain ⟨email, isDown, -, -, hsl⟩ := slot_of_client hread
  have hs : C.Snapshot [⟨c.name, 1⟩] := ⟨by simpa using ⟨c, hhas, rfl⟩, by simp⟩
  have hatt := h.attributed (fun _ => some 0) _ hs
  have hp : [Stat.mk c.name 1].filterMap (piece fun _ => some 0) = [(.client email isDown, 1)] := by
    simp [piece, delta, hsl]
  rw [getTraffic_eq hs.distinct, hp] at hatt
  have hrow : ⟨email, if isDown then 0 else 1, if isDown then 1 else 0⟩ ∈
      emailsOf [(Slot.client email isDown, 1)] := by
    cases isDown <;> simp [emailsOf, recordEmail, upsert, ClientTraffic.set]
  have hfield := (hatt.exact _ hrow).2 isDown
  have hzero : increase (fun _ => some 0) [⟨c.name, 1⟩] (.client email isDown) = 0 := by
    simp [increase, tag_name_ne hc]
  rw [hzero] at hfield
  cases isDown <;> exact absurd hfield (by simp [ClientTraffic.field])

end attribution

end Xray

end QuiPanel
