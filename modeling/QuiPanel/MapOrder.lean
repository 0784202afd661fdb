import QuiPanel.OddInbound
import QuiPanel.Library.JsonOrder

namespace QuiPanel

namespace MapOrder

open Json (Same)
open Subscription List

section enumeration

mutual

def searchKey (key : String) : Json → Option Json
  | .obj fields => searchFields key fields
  | .arr elems => searchElems key elems
  | .null | .bool _ | .num _ | .str _ => none

def searchFields (key : String) : List (String × Json) → Option Json
  | [] => none
  | (k, v) :: fs => if k = key then some v else (searchKey key v).or (searchFields key fs)

def searchElems (key : String) : List Json → Option Json
  | [] => none
  | v :: vs => (searchKey key v).or (searchElems key vs)

end

def searchHost : Object → Go String
  | [] => .ok ""
  | (k, v) :: fs => if isHostKey k && v ≠ .null then must (hostText v) else searchHost fs

end enumeration

section specification

inductive SameResult : Option Json → Option Json → Prop
  | absent : SameResult none none
  | present {v w : Json} : Same v w → SameResult (some v) (some w)

def OrderFree (key : String) (t : Json) : Prop :=
  ∀ t₁ t₂, Same t t₁ → Same t t₂ → SameResult (searchKey key t₁) (searchKey key t₂)

def OwnFirst (key : String) (t : Json) : Prop :=
  ∀ fields v, t = .obj fields → (key, v) ∈ fields → ∀ t₁, Same t t₁ → SameResult (searchKey key t₁) (some v)

def HostFree (headers : Object) : Prop :=
  ∀ h₁ h₂, headers.Perm h₁ → headers.Perm h₂ → searchHost h₁ = searchHost h₂

def clientKeys : List String := ["fingerprint", "echConfigList", "pinnedPeerCertSha256"]

inductive Searched (stream : Object) : String → Json → Prop
  | server {tls : Object} : obj? (stream.get "tlsSettings") = some tls →
      Searched stream "serverName" (.obj tls)
  | settings {tls : Object} : obj? (stream.get "tlsSettings") = some tls → Searched stream "settings" (.obj tls)
  | client {tls : Object} {key : String} {s : Json} : obj? (stream.get "tlsSettings") = some tls →
      s ∈ found "settings" (.obj tls) → key ∈ clientKeys → Searched stream key s

def transports (stream : Object) : List Object :=
  ["wsSettings", "httpupgradeSettings", "xhttpSettings"].map fun key => objD (stream.get key)

def hostHeaders (settings : Object) : Object :=
  if strD (settings.get "host") = "" then objD (settings.get "headers") else []

structure Steady (env : Env) (stream : Object) : Prop where
  search {key : String} {t : Json} : Searched stream key t → OrderFree key t ∧ OwnFirst key t
  host : ∀ settings ∈ transports stream, HostFree (hostHeaders settings)
  share (d d' : Draw) (params : Params) : applyShareTLSParams d stream params = applyShareTLSParams d' stream params
  vmess (d d' : Draw) (obj : Object) : applyVmessTLSParams d stream obj = applyVmessTLSParams d' stream obj
  path : ∀ settings ∈ transports stream, ∀ (d d' : Draw) (params : Params),
    applyPathAndHostParams d settings params = applyPathAndHostParams d' settings params
  hysteria (d d' : Draw) (ib : Inbound) (email : String) : ib.streamSettings = stream →
    genHysteriaLink env d ib email = genHysteriaLink env d' ib email

def Unambiguous (key : String) (t : Json) : Prop := ∀ v ∈ found key t, ∀ w ∈ found key t, Same v w

structure Plain (stream : Object) : Prop where
  search {key : String} {t : Json} : Searched stream key t → Unambiguous key t
  host : ∀ settings ∈ transports stream, ∀ v ∈ hosts (hostHeaders settings),
    ∀ w ∈ hosts (hostHeaders settings), hostText v = hostText w

end specification

section search

variable {key : String} {t t' v w : Json} {fields : List (String × Json)} {elems : List Json}

def fieldFound (key : String) (f : String × Json) : List Json := if f.1 = key then [f.2] else found key f.2

attribute [local grind =] searchFields hostHeaders

theorem foundFields_eq : foundFields key fields = fields.flatMap (fieldFound key) := by
  induction fields with
  | nil => rfl
  | cons f fields ih =>
    obtain ⟨k, v⟩ := f
    rw [foundFields, ih]
    rfl

theorem searchFields_eq : searchFields key fields =
    fields.findSome? fun f => if f.1 = key then some f.2 else searchKey key f.2 := by
  induction fields with
  | nil => rfl
  | cons f fields ih =>
    obtain ⟨k, v⟩ := f
    rw [searchFields, ih, findSome?_cons]
    split
    · rfl
    · cases searchKey key v <;> rfl

theorem mem_foundElems : v ∈ foundElems key elems ↔
    ∃ pre x post, elems = pre ++ x :: post ∧ (∀ y ∈ pre, found key y = []) ∧ v ∈ found key x := by
  induction elems with
  | nil => simp [foundElems]
  | cons x elems ih =>
    rw [foundElems]
    split
    case isTrue hnone =>
      rw [List.isEmpty_iff] at hnone
      rw [ih]
      constructor
      · rintro ⟨pre, y, post, rfl, hpre, hv⟩
        exact ⟨x :: pre, y, post, rfl, forall_mem_cons.mpr ⟨hnone, hpre⟩, hv⟩
      · rintro ⟨pre, y, post, hsplit, hpre, hv⟩
        cases pre with
        | nil =>
          obtain ⟨rfl, rfl⟩ := List.cons.inj hsplit
          rw [hnone] at hv
          cases hv
        | cons z pre =>
          obtain ⟨rfl, rfl⟩ := List.cons.inj hsplit
          exact ⟨pre, y, post, rfl, (forall_mem_cons.mp hpre).2, hv⟩
    case isFalse hsome =>
      rw [List.isEmpty_iff] at hsome
      constructor
      · intro hv
        exact ⟨[], x, elems, rfl, fun _ h => absurd h not_mem_nil, hv⟩
      · rintro ⟨pre, y, post, hsplit, hpre, hv⟩
        cases pre with
        | nil =>
          obtain ⟨rfl, rfl⟩ := List.cons.inj hsplit
          exact hv
        | cons z pre =>
          obtain ⟨rfl, rfl⟩ := List.cons.inj hsplit
          exact absurd (forall_mem_cons.mp hpre).1 hsome

theorem foundElems_nil : foundElems key elems = [] ↔ ∀ x ∈ elems, found key x = [] := by
  induction elems with
  | nil => simp [foundElems]
  | cons x elems ih =>
    rw [foundElems, forall_mem_cons]
    split
    case isTrue hnone =>
      rw [ih, List.isEmpty_iff.mp hnone]
      simp
    case isFalse hsome =>
      rw [List.isEmpty_iff] at hsome
      simp [hsome]

theorem searchElems_eq : searchElems key elems = elems.findSome? (searchKey key) := by
  induction elems with
  | nil => rfl
  | cons v elems ih =>
    rw [searchElems, ih, findSome?_cons]
    cases searchKey key v <;> rfl

theorem searchKey_found : (searchKey key t = none ↔ found key t = []) ∧
    ∀ v, searchKey key t = some v → v ∈ found key t := by
  induction t using Json.induct with
  | leaf t harr hobj =>
    cases t with
    | arr elems => exact absurd rfl (harr elems)
    | obj fields => exact absurd rfl (hobj fields)
    | null | bool | num | str => exact ⟨⟨fun _ => rfl, fun _ => rfl⟩, nofun⟩
  | arr elems ih =>
    rw [searchKey, found, searchElems_eq]
    constructor
    · rw [findSome?_eq_none_iff, foundElems_nil]
      exact forall₂_congr fun x hx => (ih x hx).1
    · intro v hv
      obtain ⟨pre, x, post, rfl, hx, hpre⟩ := findSome?_eq_some_iff.mp hv
      refine mem_foundElems.mpr ⟨pre, x, post, rfl, fun y hy => ?_, ?_⟩
      · exact (ih y (mem_append_left _ hy)).1.mp (hpre y hy)
      · exact (ih x (mem_append_right _ mem_cons_self)).2 v hx
  | obj fields ih =>
    rw [searchKey, found, searchFields_eq, foundFields_eq]
    constructor
    · rw [findSome?_eq_none_iff, flatMap_eq_nil_iff]
      refine forall₂_congr fun f hf => ?_
      rw [fieldFound]
      split
      · simp
      · exact (ih f hf).1
    · intro v hv
      obtain ⟨f, hf, hsome⟩ := exists_of_findSome?_eq_some hv
      refine mem_flatMap.mpr ⟨f, hf, ?_⟩
      rw [fieldFound]
      split at hsome
      case isTrue hk =>
        cases hsome
        rw [if_pos hk]
        exact mem_singleton_self _
      case isFalse hk =>
        rw [if_neg hk]
        exact (ih f hf).2 v hsome

def Covers (l l' : List Json) : Prop := ∀ v ∈ l, ∃ w ∈ l', Same v w

theorem Covers.refl (l : List Json) : Covers l l := fun v hv => ⟨v, hv, .refl v⟩

theorem Covers.trans {l l' l'' : List Json} (h : Covers l l') (h' : Covers l' l'') : Covers l l'' := by
  intro u hu
  obtain ⟨v, hv, huv⟩ := h u hu
  obtain ⟨w, hw, hvw⟩ := h' v hv
  exact ⟨w, hw, huv.trans hvw⟩

theorem Covers.nil {l : List Json} (h : Covers l []) : l = [] := by
  refine eq_nil_iff_forall_not_mem.mpr fun v hv => ?_
  obtain ⟨w, hw, -⟩ := h v hv
  cases hw

theorem covers_field {pre post : List (String × Json)} {k : String} (hsame : Same v w)
    (h : Covers (found key v) (found key w)) :
    Covers (found key (.obj (pre ++ (k, v) :: post))) (found key (.obj (pre ++ (k, w) :: post))) := by
  have hfield : Covers (fieldFound key (k, v)) (fieldFound key (k, w)) := by
    simp only [fieldFound]
    split
    · intro u hu
      rw [mem_singleton.mp hu]
      exact ⟨w, mem_singleton_self w, hsame⟩
    · exact h
  simp only [found, foundFields_eq, flatMap_append, flatMap_cons]
  intro u hu
  rcases mem_append.mp hu with hu | hu
  · exact ⟨u, mem_append_left _ hu, .refl u⟩
  · rcases mem_append.mp hu with hu | hu
    · obtain ⟨u', hu', hsame'⟩ := hfield u hu
      exact ⟨u', mem_append_right _ (mem_append_left _ hu'), hsame'⟩
    · exact ⟨u, mem_append_right _ (mem_append_right _ hu), .refl u⟩

theorem covers_elem {pre post : List Json} (h : Covers (found key v) (found key w))
    (h' : Covers (found key w) (found key v)) :
    Covers (found key (.arr (pre ++ v :: post))) (found key (.arr (pre ++ w :: post))) := by
  induction pre with
  | nil =>
    simp only [found, nil_append, foundElems]
    by_cases hv : found key v = []
    · rw [hv] at h'
      rw [hv, h'.nil]
      exact .refl _
    · have hw : found key w ≠ [] := fun hw => hv (by rw [hw] at h; exact h.nil)
      simp only [List.isEmpty_iff, hv, hw, if_false]
      exact h
  | cons x pre ih =>
    simp only [found, cons_append, foundElems] at ih ⊢
    split
    · exact ih
    · exact .refl _

theorem same_covers (h : Same t t') :
    Covers (found key t) (found key t') ∧ Covers (found key t') (found key t) := by
  induction h with
  | refl t => exact ⟨.refl _, .refl _⟩
  | symm _ ih => exact ih.symm
  | trans _ _ ih ih' => exact ⟨ih.1.trans ih'.1, ih'.2.trans ih.2⟩
  | order hperm =>
    simp only [found, foundFields_eq]
    have hsame := hperm.flatMap_right (fieldFound key)
    exact ⟨fun v hv => ⟨v, hsame.mem_iff.mp hv, .refl v⟩, fun v hv => ⟨v, hsame.mem_iff.mpr hv, .refl v⟩⟩
  | field pre k post hsame ih => exact ⟨covers_field hsame ih.1, covers_field hsame.symm ih.2⟩
  | elem pre post _ ih => exact ⟨covers_elem ih.1 ih.2, covers_elem ih.2 ih.1⟩

theorem found_reached (hv : v ∈ found key t) : ∃ t₁, Same t t₁ ∧ searchKey key t₁ = some v := by
  induction t using Json.induct generalizing v with
  | leaf t harr hobj =>
    cases t with
    | arr elems => exact absurd rfl (harr elems)
    | obj fields => exact absurd rfl (hobj fields)
    | null | bool | num | str => cases hv
  | arr elems ih =>
    obtain ⟨pre, x, post, rfl, hpre, hx⟩ := mem_foundElems.mp hv
    obtain ⟨x', hsame, hfirst⟩ := ih x (mem_append_right _ mem_cons_self) hx
    refine ⟨.arr (pre ++ x' :: post), .elem pre post hsame, ?_⟩
    rw [searchKey, searchElems_eq]
    refine findSome?_eq_some_iff.mpr ⟨pre, x', post, rfl, hfirst, fun y hy => ?_⟩
    exact searchKey_found.1.mpr (hpre y hy)
  | obj fields ih =>
    rw [found, foundFields_eq] at hv
    obtain ⟨f, hf, hfv⟩ := mem_flatMap.mp hv
    obtain ⟨pre, post, rfl⟩ := append_of_mem hf
    have hfront : Same (.obj (pre ++ f :: post)) (.obj (f :: (pre ++ post))) := .order perm_middle
    obtain ⟨k, x⟩ := f
    simp only [fieldFound] at hfv
    split at hfv
    case isTrue hk =>
      obtain rfl := mem_singleton.mp hfv
      refine ⟨_, hfront, ?_⟩
      rw [searchKey, searchFields, if_pos hk]
    case isFalse hk =>
      obtain ⟨x', hsame, hfirst⟩ := ih _ hf hfv
      refine ⟨.obj ((k, x') :: (pre ++ post)), hfront.trans (.field [] k (pre ++ post) hsame), ?_⟩
      rw [searchKey, searchFields, if_neg hk, hfirst, Option.some_or]

theorem search_same (h : Unambiguous key t) (hv : v ∈ found key t) (hsame : Same t t') :
    SameResult (searchKey key t') (some v) := by
  obtain ⟨hto, hfrom⟩ := @same_covers key _ _ hsame
  cases hfirst : searchKey key t' with
  | none =>
    rw [searchKey_found.1.mp hfirst] at hto
    rw [hto.nil] at hv
    cases hv
  | some w =>
    obtain ⟨u, hu, hwu⟩ := hfrom w (searchKey_found.2 w hfirst)
    exact .present (hwu.trans (h u hu v hv))

theorem orderFree_iff : OrderFree key t ↔ Unambiguous key t := by
  constructor
  · intro h v hv w hw
    obtain ⟨t₁, hsame, hfirst⟩ := found_reached hv
    obtain ⟨t₂, hsame', hfirst'⟩ := found_reached hw
    have hresult := h t₁ t₂ hsame hsame'
    rw [hfirst, hfirst'] at hresult
    cases hresult with
    | present hvw => exact hvw
  · intro h t₁ t₂ hsame hsame'
    cases hfound : found key t with
    | nil =>
      have hnone : ∀ t', Same t t' → searchKey key t' = none := by
        intro t' ht'
        have hfrom := (@same_covers key _ _ ht').2
        rw [hfound] at hfrom
        exact searchKey_found.1.mpr hfrom.nil
      rw [hnone t₁ hsame, hnone t₂ hsame']
      exact .absent
    | cons v vs =>
      have hv : v ∈ found key t := by
        rw [hfound]
        exact mem_cons_self
      cases hfirst : searchKey key t₁ with
      | none =>
        have hresult := search_same h hv hsame
        rw [hfirst] at hresult
        cases hresult
      | some w =>
        obtain ⟨u, hu, hwu⟩ := (@same_covers key _ _ hsame).2 w (searchKey_found.2 w hfirst)
        cases hfirst' : searchKey key t₂ with
        | none =>
          have hresult := search_same h hv hsame'
          rw [hfirst'] at hresult
          cases hresult
        | some w' =>
          have hresult := search_same h hu hsame'
          rw [hfirst'] at hresult
          cases hresult with
          | present hsame'' => exact .present (hwu.trans hsame''.symm)

theorem ownFirst_of (h : Unambiguous key t) : OwnFirst key t := by
  rintro fields v rfl hv t₁ hsame
  refine search_same h ?_ hsame
  rw [found, foundFields_eq]
  refine mem_flatMap.mpr ⟨(key, v), hv, ?_⟩
  rw [fieldFound, if_pos rfl]
  exact mem_singleton_self v

end search

section hosts

variable {headers : Object}

theorem searchHost_eq : searchHost headers = match hosts headers with
    | [] => .ok ""
    | v :: _ => must (hostText v) := by
  induction headers with
  | nil => rfl
  | cons f headers ih =>
    obtain ⟨k, v⟩ := f
    rw [searchHost, ih]
    simp only [hosts, filter_cons]
    split <;> rfl

theorem must_inj {α : Type} {a b : Option α} (h : (must a : Go α) = must b) : a = b := by
  cases a with
  | none =>
    cases b with
    | none => rfl
    | some b => cases h
  | some a =>
    cases b with
    | none => cases h
    | some b => rw [Except.ok.inj h]

theorem host_reached {v : Json} (hv : v ∈ hosts headers) :
    ∃ h, headers.Perm h ∧ searchHost h = must (hostText v) := by
  obtain ⟨f, hf, rfl⟩ := mem_map.mp hv
  obtain ⟨hmem, hhost⟩ := mem_filter.mp hf
  obtain ⟨pre, post, rfl⟩ := append_of_mem hmem
  refine ⟨f :: (pre ++ post), perm_middle, ?_⟩
  rw [searchHost_eq, hosts, filter_cons, if_pos hhost]
  rfl

theorem hostFree_iff : HostFree headers ↔ ∀ v ∈ hosts headers, ∀ w ∈ hosts headers, hostText v = hostText w := by
  constructor
  · intro h v hv w hw
    obtain ⟨h₁, hperm₁, hv⟩ := host_reached hv
    obtain ⟨h₂, hperm₂, hw⟩ := host_reached hw
    have hsame := h h₁ h₂ hperm₁ hperm₂
    rw [hv, hw] at hsame
    exact must_inj hsame
  · intro h h₁ h₂ hperm₁ hperm₂
    have hhosts : (hosts h₁).Perm (hosts h₂) := ((hperm₁.symm.trans hperm₂).filter _).map _
    have hsub {v : Json} (hv : v ∈ hosts h₁) : v ∈ hosts headers := ((hperm₁.filter _).map _).mem_iff.mpr hv
    rw [searchHost_eq, searchHost_eq]
    cases hlist : hosts h₁ with
    | nil =>
      rw [hlist] at hhosts
      rw [hhosts.nil_eq]
    | cons v vs =>
      cases hlist' : hosts h₂ with
      | nil =>
        rw [hlist, hlist'] at hhosts
        cases hhosts.eq_nil
      | cons w ws =>
        have hv : v ∈ hosts h₁ := by
          rw [hlist]
          exact mem_cons_self
        have hw : w ∈ hosts h₁ := by
          rw [hhosts.mem_iff, hlist']
          exact mem_cons_self
        simp only [h v (hsub hv) w (hsub hw)]

theorem drawn_host {d d' : Draw} {site : String}
    (h : ∀ v ∈ hosts headers, ∀ w ∈ hosts headers, hostText v = hostText w) :
    Subscription.searchHost d site headers = Subscription.searchHost d' site headers := by
  simp only [Subscription.searchHost]
  by_cases hnone : hosts headers = []
  · rw [hnone]
    rfl
  · obtain ⟨v, hv⟩ := @pick_some _ d site _ hnone
    obtain ⟨w, hw⟩ := @pick_some _ d' site _ hnone
    simp only [hv, hw, h v (pick_mem hv) w (pick_mem hw)]

end hosts

section draws

variable {key : String} {t t' : Json} (d d' : Draw)

theorem drawn_same (h : Unambiguous key t) (hsame : Same t t') (site : String) :
    SameResult (Subscription.searchKey d site (some t) key) (Subscription.searchKey d' site (some t') key) := by
  obtain ⟨hto, hfrom⟩ := @same_covers key _ _ hsame
  simp only [Subscription.searchKey, foundIn, Option.map_some, Option.getD_some]
  by_cases hnone : found key t = []
  · rw [hnone] at hfrom ⊢
    rw [hfrom.nil]
    exact .absent
  · have hnone' : found key t' ≠ [] := fun hnone' => hnone (by rw [hnone'] at hto; exact hto.nil)
    obtain ⟨v, hv⟩ := @pick_some _ d site _ hnone
    obtain ⟨w, hw⟩ := @pick_some _ d' site _ hnone'
    obtain ⟨u, hu, hwu⟩ := hfrom w (pick_mem hw)
    rw [hv, hw]
    exact .present ((h v (pick_mem hv) u hu).trans hwu.symm)

theorem strD_text (v : Json) : strD (some v) = v.text.getD "" := by
  cases v <;> rfl

theorem texts_items (v : Json) : texts (arrD (some v)) = (v.items.map Json.text).filterMap (·.filter (· ≠ "")) := by
  have htext (w : Json) : str? (some w) = w.text := by
    cases w <;> rfl
  have hitems : arrD (some v) = v.items := by
    cases v <;> rfl
  rw [texts, hitems, filterMap_map]
  refine filterMap_congr fun w _ => ?_
  rw [htext]
  rfl

theorem SameResult.strD_eq {a b : Option Json} (h : SameResult a b) : strD a = strD b := by
  cases h with
  | absent => rfl
  | present hsame => rw [strD_text, strD_text, hsame.text_eq]

theorem SameResult.texts_eq {a b : Option Json} (h : SameResult a b) : texts (arrD a) = texts (arrD b) := by
  cases h with
  | absent => rfl
  | present hsame => rw [texts_items, texts_items, hsame.items_text]

end draws

section parameters

variable {α : Type} {stream : Object} {params : Params} (d d' : Draw) (wrap : String → α) (pinKey : String)
  (pin : String → String)

def putFound (field : String) (found : Option Json) (m : Fields α) : Fields α :=
  match found with
  | some v => m.put field (wrap (strD (some v)))
  | none => m

def putCertificate (ech : String) (pins : List String) (m : Fields α) : Fields α :=
  (m.putIf (ech ≠ "") "ech" (wrap ech)).putIf (pins ≠ []) pinKey (wrap (join "," (pins.map pin)))

theorem putFound_steady {a b : Option Json} (h : SameResult a b) (field : String) (m : Fields α) :
    putFound wrap field a m = putFound wrap field b m := by
  cases h with
  | absent => rfl
  | present hvw => simp only [putFound, strD_text, hvw.text_eq]

theorem applyClientSettings_eq (t : Option Json) (m : Fields α) : applyClientSettings d wrap pinKey pin t m =
    putCertificate wrap pinKey pin (strD (Subscription.searchKey d "echConfigList" t "echConfigList"))
      (pinnedSha256List d t) (putFound wrap "fp" (Subscription.searchKey d "fingerprint" t "fingerprint") m) := rfl

theorem client_steady {s s' : Json} (h : ∀ key ∈ clientKeys, Unambiguous key s) (hsame : Same s s') (m : Fields α) :
    applyClientSettings d wrap pinKey pin (some s) m = applyClientSettings d' wrap pinKey pin (some s') m := by
  have hfp := drawn_same d d' (h "fingerprint" (by decide)) hsame "fingerprint"
  have hech := (drawn_same d d' (h "echConfigList" (by decide)) hsame "echConfigList").strD_eq
  have hpins : pinnedSha256List d (some s) = pinnedSha256List d' (some s') :=
    (drawn_same d d' (h "pinnedPeerCertSha256" (by decide)) hsame "pins").texts_eq
  rw [applyClientSettings_eq, applyClientSettings_eq, hech, hpins, putFound_steady wrap hfp]

theorem applyTLS_eq {tls : Object} (h : obj? (stream.get "tlsSettings") = some tls) (m : Fields α) :
    applyTLS d wrap pinKey pin stream m = (do
      let alpn ← (arrD (tls.get "alpn")).mapM fun a => must (str? (some a))
      pure (applyClientSettings d wrap pinKey pin
        (Subscription.searchKey d "settings" (some (.obj tls)) "settings")
        (putFound wrap "sni" (Subscription.searchKey d "serverName" (some (.obj tls)) "serverName")
          (m.putIf (alpn ≠ []) "alpn" (wrap (join "," alpn)))))) := by
  rw [applyTLS, h]
  rfl

theorem tls_steady (h : Plain stream) (m : Fields α) :
    applyTLS d wrap pinKey pin stream m = applyTLS d' wrap pinKey pin stream m := by
  cases htls : obj? (stream.get "tlsSettings") with
  | none =>
    rw [applyTLS, applyTLS, htls]
    rfl
  | some tls =>
    have hsni := putFound_steady wrap (drawn_same d d' (h.search (.server htls)) (.refl _) "serverName") "sni"
    have hfound := drawn_same d d' (h.search (.settings htls)) (.refl _) "settings"
    have hclient (m : Fields α) :
        applyClientSettings d wrap pinKey pin (Subscription.searchKey d "settings" (some (.obj tls)) "settings") m =
          applyClientSettings d' wrap pinKey pin
            (Subscription.searchKey d' "settings" (some (.obj tls)) "settings") m := by
      cases hs : Subscription.searchKey d "settings" (some (.obj tls)) "settings" with
      | none =>
        rw [hs] at hfound
        generalize Subscription.searchKey d' "settings" (some (.obj tls)) "settings" = s' at hfound
        cases hfound
        rfl
      | some s =>
        rw [hs] at hfound
        generalize Subscription.searchKey d' "settings" (some (.obj tls)) "settings" = s' at hfound
        cases hfound with
        | present hsame =>
          exact client_steady d d' wrap pinKey pin (fun key hkey => h.search (.client htls (pick_mem hs) hkey)) hsame m
    rw [applyTLS_eq d wrap pinKey pin htls, applyTLS_eq d' wrap pinKey pin htls]
    simp only [hsni, hclient]

variable {settings : Object}

theorem pathHost_blank (h : strD (settings.get "host") = "") :
    pathHost d settings = Subscription.searchHost d "headers" (objD (settings.get "headers")) := by
  rw [strD] at h
  rw [pathHost]
  cases hs : str? (settings.get "host") with
  | none => rfl
  | some host =>
    rw [hs] at h
    obtain rfl : host = "" := h
    rfl

theorem pathHost_own (h : strD (settings.get "host") ≠ "") :
    pathHost d settings = .ok (strD (settings.get "host")) := by
  rw [strD] at h ⊢
  rw [pathHost]
  cases hs : str? (settings.get "host") with
  | none =>
    rw [hs] at h
    exact absurd rfl h
  | some host =>
    rw [hs] at h
    exact if_pos h

theorem path_steady (h : Plain stream) (hmem : settings ∈ transports stream) :
    applyPathAndHostParams d settings params = applyPathAndHostParams d' settings params := by
  have hheaders := h.host settings hmem
  have hhost : pathHost d settings = pathHost d' settings := by
    by_cases hblank : strD (settings.get "host") = ""
    · rw [hostHeaders, if_pos hblank] at hheaders
      rw [pathHost_blank d hblank, pathHost_blank d' hblank]
      exact drawn_host hheaders
    · rw [pathHost_own d hblank, pathHost_own d' hblank]
  simp only [applyPathAndHostParams, applyPathAndHost, hhost]

theorem hysteria_steady (env : Env) {ib : Inbound} (h : Plain ib.streamSettings) (email : String) :
    genHysteriaLink env d ib email = genHysteriaLink env d' ib email := by
  simp only [genHysteriaLink, tls_steady d d' id "pinSHA256" (hysteriaPinHex env) h]

end parameters

section results

theorem steady_iff (env : Env) (stream : Object) : Steady env stream ↔ Plain stream := by
  constructor
  · intro h
    exact ⟨fun hs => orderFree_iff.mp (h.search hs).1, fun settings hmem => hostFree_iff.mp (h.host settings hmem)⟩
  · intro h
    refine ⟨?search, ?host, ?share, ?vmess, ?path, ?hysteria⟩
    case search => exact fun hs => ⟨orderFree_iff.mpr (h.search hs), ownFirst_of (h.search hs)⟩
    case host => exact fun settings hmem => hostFree_iff.mpr (h.host settings hmem)
    case share => exact fun d d' params => tls_steady d d' id "pcs" id h _
    case vmess => exact fun d d' obj => tls_steady d d' Json.str "pcs" id h obj
    case path => exact fun settings hmem d d' params => path_steady d d' h hmem
    case hysteria =>
      rintro d d' ib email rfl
      exact hysteria_steady d d' env h email

def nestedName : Object :=
  [("tlsSettings", .obj [("settings", .obj [("serverName", .str "inner.example")]),
    ("serverName", .str "own.example")])]

theorem nested_name_shadows :
    applyShareTLSParams (fun _ => 0) nestedName [] = .ok [("security", "tls"), ("sni", "inner.example")] ∧
      applyShareTLSParams (fun _ => 1) nestedName [] = .ok [("security", "tls"), ("sni", "own.example")] ∧
      ¬ (∀ stream, Steady plainEnv stream) := by
  have hinner : applyShareTLSParams (fun _ => 0) nestedName [] =
      .ok [("security", "tls"), ("sni", "inner.example")] := by rfl
  have hown : applyShareTLSParams (fun _ => 1) nestedName [] =
      .ok [("security", "tls"), ("sni", "own.example")] := by rfl
  refine ⟨hinner, hown, fun h => ?_⟩
  have hsame := (h nestedName).share (fun _ => 0) (fun _ => 1) []
  rw [hinner, hown] at hsame
  exact absurd hsame (by decide)

end results

end MapOrder

end QuiPanel
