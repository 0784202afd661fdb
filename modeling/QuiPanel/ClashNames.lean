import QuiPanel.SubService

namespace QuiPanel

namespace ClashNames

open Fresh Subscription List

section config

def linesToClashRules (raw : String) : List Json :=
  let lines := (raw.toList.splitOn '\n').map fun line => Text.trimSpace (String.ofList line)
  (lines.filter fun line => line != "" && line.toList.head? != some '#').map .str

def hasClashMatchRule (rules : List Json) : Bool :=
  rules.any fun rule =>
    (str? (some rule)).any fun ruleText =>
      Text.equalFold (Text.trimSpace (String.ofList (ruleText.toList.takeWhile (· ≠ ',')))) "MATCH"

def mergeClashRules (base : Object) (customRules : List Json) : Object :=
  if customRules = [] then base
  else if hasClashMatchRule customRules then base.put "rules" (.arr customRules)
  else base.put "rules" (.arr (customRules ++ arrD (base.get "rules")))

def mergeClashField (base : Object) (field : String × Json) : Object :=
  if field.1 = "rules" then
    match field.2 with
    | .arr ruleList => mergeClashRules base ruleList
    | _ => base
  else base.put field.1 field.2

variable (yaml : String → Option Json)

def mergeClashRulesYAML (base : Object) (raw : String) : Object :=
  let raw := Text.trimSpace raw
  if raw = "" then base
  else
    match yaml raw with
    | some (.arr rules) => mergeClashRules base rules
    | some (.obj custom) => custom.foldl mergeClashField base
    | _ => mergeClashRules base (linesToClashRules raw)

def names (proxies : List Object) : List String := proxies.map fun proxy => strD (proxy.get "name")

def clashConfig (proxies : List Object) : Object :=
  let proxyNames := (names proxies).filter (· ≠ "") ++ ["DIRECT"]
  [("proxies", .arr (proxies.map .obj)),
    ("proxy-groups", .arr [.obj
      [("name", .str "PROXY"), ("type", .str "select"), ("proxies", .arr (proxyNames.map .str))]]),
    ("rules", .arr [.str "MATCH,PROXY"])]

def getClashConfig (enableRouting : Bool) (clashRules : String) (proxies : List Object) : Object :=
  let config := clashConfig (ensureUniqueProxyNames proxies)
  if enableRouting then mergeClashRulesYAML yaml config clashRules else config

end config

section specification

def proxyNames (config : Object) : List String :=
  (arrD (config.get "proxies")).map fun proxy => strD ((objD (some proxy)).get "name")

def groups (config : Object) : List Object :=
  (arrD (config.get "proxy-groups")).map fun group => objD (some group)

def members (group : Object) : List String := (arrD (group.get "proxies")).map fun name => strD (some name)

structure Usable (builtin : String → Bool) (config : Object) : Prop where
  apart : ∀ n ∈ proxyNames config, n ≠ "PROXY" ∧ builtin n = false
  grouped : ∃ group, groups config = [group] ∧ strD (group.get "name") = "PROXY" ∧
    (∀ m ∈ members group, (proxyNames config).count m + (if builtin m then 1 else 0) = 1) ∧
    ∀ n ∈ proxyNames config, (members group).count n = 1

structure Accepted (yaml : String → Option Json) (builtin : String → Bool) (enableRouting : Bool)
    (clashRules : String) (proxies : List Object) : Prop where
  halts : ∀ seen base, ∃ k, pick suffix seen base = nameSuffix base k ∧ nameSuffix base k ∉ seen ∧
    ∀ i < k, nameSuffix base i ∈ seen
  named : ∀ n ∈ names (ensureUniqueProxyNames proxies), n ≠ ""
  distinct : (names (ensureUniqueProxyNames proxies)).Nodup
  kept : ∀ p ∈ (names proxies).zip (names (ensureUniqueProxyNames proxies)), p.1 ≠ "" →
    (names proxies).count p.1 = 1 → p.2 = p.1
  usable : Usable builtin (getClashConfig yaml enableRouting clashRules proxies)

structure Policies (builtin : String → Bool) : Prop where
  direct : builtin "DIRECT" = true
  unnumbered : ∀ base n, builtin (nameSuffix base (n + 1)) = false

def Intact (yaml : String → Option Json) (enableRouting : Bool) (clashRules : String) : Prop :=
  enableRouting = true → ∀ custom : Object, yaml (Text.trimSpace clashRules) = some (.obj custom) →
    custom.get "proxies" = none ∧ custom.get "proxy-groups" = none

def sole (proxies : List Object) (name : String) : Option String :=
  if name ≠ "" ∧ (names proxies).count name = 1 then some name else none

def requests (proxies : List Object) : List (Request String) :=
  proxies.zipIdx.map fun p => ⟨sole proxies (strD (p.1.get "name")), baseName p.1 p.2⟩

end specification

section naming

variable {proxies : List Object} {proxy : Object} {n base : String} {idx : Nat}

theorem fallbackProxyName_ne : fallbackProxyName proxy idx ≠ "" := by
  have hne : ∀ s : String, "proxy-" ++ s ≠ "" := by
    intro s h
    have hlen := congrArg String.length h
    rw [String.length_append] at hlen
    have hpre : "proxy-".length = 6 := rfl
    have hblank : "".length = 0 := rfl
    omega
  simp only [fallbackProxyName]
  split
  case isTrue hshown =>
    intro h
    have hlen := congrArg String.length h
    simp only [String.length_append] at hlen
    have hdash : "-".length = 1 := rfl
    have hblank : "".length = 0 := rfl
    omega
  case isFalse => exact hne _

theorem baseName_ne : baseName proxy idx ≠ "" := by
  simp only [baseName]
  split
  · exact fallbackProxyName_ne
  · assumption

theorem nameSuffix_last (base : String) (k : Nat) :
    ∃ c, (nameSuffix base (k + 1)).toList.getLast? = some c ∧ c.isDigit = true := by
  have hne : (Nat.repr (k + 2)).toList ≠ [] := by
    intro h
    have hpos := @Nat.length_repr_pos (k + 2)
    rw [← String.length_toList, h] at hpos
    exact absurd hpos (Nat.lt_irrefl 0)
  refine ⟨(Nat.repr (k + 2)).toList.getLast hne, ?_, Text.repr_isDigit _ (getLast_mem hne)⟩
  rw [nameSuffix, String.toList_append, getLast?_append, getLast?_eq_some_getLast hne]
  rfl

variable {word : String}

theorem nameSuffix_ne {c : Char} (hlast : word.toList.getLast? = some c)
    (hc : c.isDigit = false) (base : String) (k : Nat) : nameSuffix base (k + 1) ≠ word := by
  intro h
  obtain ⟨c', hlast', hdigit⟩ := nameSuffix_last base k
  rw [h, hlast] at hlast'
  cases hlast'
  rw [hc] at hdigit
  cases hdigit

theorem nameSuffix_ne_nil (hbase : base ≠ "") (k : Nat) : nameSuffix base k ≠ "" := by
  cases k with
  | zero => exact hbase
  | succ k =>
    intro h
    obtain ⟨c, hlast, -⟩ := nameSuffix_last base k
    rw [h] at hlast
    cases hlast

theorem length_baseNames : (baseNames proxies).length = proxies.length := by
  rw [baseNames, length_map, length_zipIdx]

theorem names_ensureUnique : names (ensureUniqueProxyNames proxies) = assign suffix [] (baseNames proxies) := by
  rw [names, ensureUniqueProxyNames, map_zipWith]
  have hname : (fun (proxy : Object) name => strD (Fields.get (Fields.put proxy "name" (.str name)) "name")) =
      fun _ name => name := by
    funext proxy name
    rw [Fields.get_put_self]
    rfl
  rw [hname]
  refine ext_getElem ?_ fun k _ _ => ?_
  · rw [length_zipWith, length_assign, length_baseNames, Nat.min_self]
  · rw [getElem_zipWith]

theorem pick_halts (seen : List String) (base : String) : ∃ k, pick suffix seen base = nameSuffix base k ∧
    nameSuffix base k ∉ seen ∧ ∀ i < k, nameSuffix base i ∈ seen := by
  obtain ⟨k, hk, hskipped⟩ := pick_least suffix seen base
  have hfree := @pick_not_mem _ _ suffix seen base
  rw [hk] at hfree
  exact ⟨k, hk, hfree, hskipped⟩

theorem named (h : n ∈ names (ensureUniqueProxyNames proxies)) : n ≠ "" := by
  rw [names_ensureUnique] at h
  obtain ⟨base, hbase, k, rfl⟩ := mem_assign h
  obtain ⟨p, -, rfl⟩ := mem_map.mp hbase
  exact nameSuffix_ne_nil baseName_ne k

theorem distinct : (names (ensureUniqueProxyNames proxies)).Nodup := by
  rw [names_ensureUnique]
  exact assign_nodup

theorem zipWith_put (ns : List String) :
    zipWith (fun proxy name => Fields.put proxy "name" (.str name))
      (zipWith (fun proxy name => Fields.put proxy "name" (.str name)) proxies ns) ns =
      zipWith (fun proxy name => Fields.put proxy "name" (.str name)) proxies ns := by
  induction proxies generalizing ns with
  | nil => rfl
  | cons proxy proxies ih =>
    cases ns with
    | nil => rfl
    | cons name ns => simp only [zipWith_cons_cons, Fields.put_put, ih]

theorem baseNames_named (h : ∀ n ∈ names proxies, n ≠ "") : baseNames proxies = names proxies := by
  rw [baseNames, names]
  refine (map_congr_left fun p hp => ?_).trans ((map_map ..).symm.trans (by rw [zipIdx_map_fst]))
  exact if_neg (h _ (mem_map.mpr ⟨p.1, fst_mem_of_mem_zipIdx hp, rfl⟩))

theorem renaming_idempotent :
    ensureUniqueProxyNames (ensureUniqueProxyNames proxies) = ensureUniqueProxyNames proxies := by
  have hnames : assign suffix [] (baseNames (ensureUniqueProxyNames proxies)) =
      assign suffix [] (baseNames proxies) := by
    rw [baseNames_named fun _ => named, assign_self distinct (by simp), names_ensureUnique]
  rw [ensureUniqueProxyNames, hnames, ensureUniqueProxyNames, zipWith_put]

theorem sole_some : sole proxies n = some base ↔ n ≠ "" ∧ (names proxies).count n = 1 ∧ n = base := by
  rw [sole]
  split
  case isTrue h => simp [h.1, h.2]
  case isFalse h =>
    simp only [reduceCtorEq, false_iff]
    rintro ⟨hne, hcount, -⟩
    exact h ⟨hne, hcount⟩

theorem candidates : (requests proxies).map Request.candidate = baseNames proxies := by
  rw [requests, baseNames, map_map]
  refine map_congr_left fun p _ => ?_
  simp only [Function.comp_apply, Request.candidate]
  cases hsole : sole proxies (strD (p.1.get "name")) with
  | none => rfl
  | some n =>
    obtain ⟨hne, -, rfl⟩ := sole_some.mp hsole
    rw [Option.getD_some, baseName, if_neg hne]

theorem requests_reserved : (requests proxies).map (·.reserved) = (names proxies).map (sole proxies) := by
  rw [requests, names, map_map, map_map]
  conv_rhs => rw [← zipIdx_map_fst 0 proxies, map_map]
  rw [zipIdx_map_fst 0 proxies]
  rfl

theorem reserved_eq : (requests proxies).filterMap (·.reserved) =
    (names proxies).filter fun n => n ≠ "" ∧ (names proxies).count n = 1 := by
  have hid : (requests proxies).filterMap (·.reserved) = ((requests proxies).map (·.reserved)).filterMap id := by
    rw [filterMap_map, Function.id_comp]
  rw [hid, requests_reserved, filterMap_map, Function.id_comp, ← filterMap_eq_filter]
  congr 1
  funext n
  simp only [sole, Option.guard, decide_eq_true_eq]

theorem reserved_nodup : ((requests proxies).filterMap (·.reserved)).Nodup := by
  rw [reserved_eq, nodup_iff_count_le_one]
  intro n
  by_cases hsole : n ≠ "" ∧ (names proxies).count n = 1
  · exact (filter_sublist.count_le n).trans (Nat.le_of_eq hsole.2)
  · rw [count_eq_zero_of_not_mem]
    · exact Nat.zero_le 1
    · exact fun hmem => hsole (of_decide_eq_true (mem_filter.mp hmem).2)

theorem honoured_iff_kept {ts : List String} (hlen : (names proxies).length = ts.length) :
    Honoured (requests proxies) ts ↔ ∀ p ∈ (names proxies).zip ts, p.1 ≠ "" →
      (names proxies).count p.1 = 1 → p.2 = p.1 := by
  have hmap : ∀ (rs : List (Request String)), Honoured rs ts ↔
      List.Forall₂ (fun (o : Option String) t => ∀ k, o = some k → t = k) (rs.map (·.reserved)) ts := by
    intro rs
    rw [List.forall₂_map_left_iff]
    rfl
  rw [hmap, requests_reserved, List.forall₂_map_left_iff, List.forall₂_iff_zip]
  constructor
  · rintro ⟨-, hall⟩ p hp hne hcount
    exact hall hp p.1 (sole_some.mpr ⟨hne, hcount, rfl⟩)
  · intro hall
    refine ⟨hlen, fun {n t} hp k hk => ?_⟩
    obtain ⟨hne, hcount, rfl⟩ := sole_some.mp hk
    exact hall (n, t) hp hne hcount

theorem kept_iff : (∀ p ∈ (names proxies).zip (names (ensureUniqueProxyNames proxies)), p.1 ≠ "" →
    (names proxies).count p.1 = 1 → p.2 = p.1) ↔ ¬ Usurped suffix [] (requests proxies) := by
  have hlen : (names proxies).length = (assign suffix [] (baseNames proxies)).length := by
    rw [length_assign, length_baseNames, names, length_map]
  rw [names_ensureUnique, ← honoured_iff_kept hlen, ← candidates, honoured_iff]
  exact ⟨fun hall => hall.2.2, fun husurped => ⟨reserved_nodup, fun _ _ => not_mem_nil, husurped⟩⟩

theorem mem_names_iff (hplain : ∀ base k, nameSuffix base (k + 1) ≠ word) :
    word ∈ names (ensureUniqueProxyNames proxies) ↔ word ∈ baseNames proxies := by
  have hmem := @mem_assign_iff _ _ suffix [] (baseNames proxies) word hplain
  simp only [not_mem_nil, or_false] at hmem
  rw [names_ensureUnique, hmem]

theorem reserved_word (builtin : String → Bool) (hpolicies : Policies builtin)
    (hword : word = "PROXY" ∨ builtin word = true) (base : String) (k : Nat) :
    nameSuffix base (k + 1) ≠ word := by
  rcases hword with rfl | hbuiltin
  · have hlast : "PROXY".toList.getLast? = some 'Y' := by decide
    exact nameSuffix_ne hlast (by decide) base k
  · intro h
    have hplain := hpolicies.unnumbered base k
    rw [h, hbuiltin] at hplain
    cases hplain

theorem apart_iff (builtin : String → Bool) (hpolicies : Policies builtin) :
    (∀ n ∈ names (ensureUniqueProxyNames proxies), n ≠ "PROXY" ∧ builtin n = false) ↔
      ∀ n ∈ baseNames proxies, n ≠ "PROXY" ∧ builtin n = false := by
  have hsplit : ∀ l : List String, (∀ n ∈ l, n ≠ "PROXY" ∧ builtin n = false) ↔
      ∀ word, word = "PROXY" ∨ builtin word = true → word ∉ l := by
    intro l
    constructor
    · rintro hall word hword hmem
      obtain ⟨hne, hplain⟩ := hall word hmem
      rcases hword with hproxy | hbuiltin
      · exact hne hproxy
      · rw [hplain] at hbuiltin
        cases hbuiltin
    · intro hall n hn
      refine ⟨fun hproxy => hall n (.inl hproxy) hn, ?_⟩
      cases hb : builtin n with
      | false => rfl
      | true => exact absurd hn (hall n (.inr hb))
  rw [hsplit, hsplit]
  refine forall₂_congr fun word hword => ?_
  rw [mem_names_iff (reserved_word builtin hpolicies hword)]

end naming

section grouping

variable {yaml : String → Option Json} {builtin : String → Bool} {enableRouting : Bool} {clashRules : String}
  {proxies : List Object} {base : Object} {rules : List Json}

structure SameServers (base config : Object) : Prop where
  proxies : config.get "proxies" = base.get "proxies"
  groups : config.get "proxy-groups" = base.get "proxy-groups"

theorem SameServers.refl (base : Object) : SameServers base base := ⟨rfl, rfl⟩

theorem SameServers.trans {mid config : Object} (h : SameServers base mid) (h' : SameServers mid config) :
    SameServers base config :=
  ⟨h'.proxies.trans h.proxies, h'.groups.trans h.groups⟩

theorem sameServers_put {key : String} {v : Json} (hp : key ≠ "proxies") (hg : key ≠ "proxy-groups") :
    SameServers base (base.put key v) :=
  ⟨Fields.get_put_ne hp, Fields.get_put_ne hg⟩

theorem sameServers_rules : SameServers base (mergeClashRules base rules) := by
  rw [mergeClashRules]
  split
  · exact .refl base
  · split <;> exact sameServers_put (by decide) (by decide)

theorem sameServers_field {field : String × Json} (hp : field.1 ≠ "proxies") (hg : field.1 ≠ "proxy-groups") :
    SameServers base (mergeClashField base field) := by
  rw [mergeClashField]
  split
  · split
    · exact sameServers_rules
    · exact .refl base
  · exact sameServers_put hp hg

theorem sameServers_fields {custom : Object} (hp : ∀ f ∈ custom, f.1 ≠ "proxies")
    (hg : ∀ f ∈ custom, f.1 ≠ "proxy-groups") : SameServers base (custom.foldl mergeClashField base) := by
  induction custom generalizing base with
  | nil => exact .refl base
  | cons field custom ih =>
    obtain ⟨hfield, hrest⟩ := forall_mem_cons.mp hp
    obtain ⟨hfield', hrest'⟩ := forall_mem_cons.mp hg
    exact (sameServers_field hfield hfield').trans (ih hrest hrest')

theorem not_key {m : Object} {key : String} (h : m.get key = none) : ∀ f ∈ m, f.1 ≠ key := by
  rw [Fields.get, Option.map_eq_none_iff] at h
  exact KeyedDiff.lookup_none.mp h

theorem sameServers_config (hintact : Intact yaml enableRouting clashRules) :
    SameServers (clashConfig (ensureUniqueProxyNames proxies))
      (getClashConfig yaml enableRouting clashRules proxies) := by
  rw [getClashConfig]
  cases henabled : enableRouting with
  | false => exact .refl _
  | true =>
    simp only [if_true, mergeClashRulesYAML]
    split
    · exact .refl _
    · split
      · exact sameServers_rules
      case h_2 custom hcustom =>
        obtain ⟨hp, hg⟩ := hintact henabled custom hcustom
        exact sameServers_fields (not_key hp) (not_key hg)
      · exact sameServers_rules

theorem proxyNames_clashConfig : proxyNames (clashConfig proxies) = names proxies := by
  have hget : Fields.get (clashConfig proxies) "proxies" = some (.arr (proxies.map .obj)) := rfl
  rw [proxyNames, hget, names]
  simp only [arrD, arr?, Option.getD_some, map_map]
  rfl

theorem groups_clashConfig : ∃ group, groups (clashConfig proxies) = [group] ∧
    strD (group.get "name") = "PROXY" ∧ members group = (names proxies).filter (· ≠ "") ++ ["DIRECT"] := by
  refine ⟨[("name", .str "PROXY"), ("type", .str "select"),
    ("proxies", .arr (((names proxies).filter (· ≠ "") ++ ["DIRECT"]).map .str))], rfl, rfl, ?_⟩
  have htext : (fun name : Json => strD (some name)) ∘ Json.str = id := rfl
  generalize (names proxies).filter (· ≠ "") ++ ["DIRECT"] = ns
  have hmembers : members [("name", .str "PROXY"), ("type", .str "select"), ("proxies", .arr (ns.map .str))] =
      (ns.map .str).map fun name => strD (some name) := rfl
  rw [hmembers, map_map, htext, map_id]

theorem usable_iff (hpolicies : Policies builtin) (hintact : Intact yaml enableRouting clashRules) :
    Usable builtin (getClashConfig yaml enableRouting clashRules proxies) ↔
      ∀ n ∈ baseNames proxies, n ≠ "PROXY" ∧ builtin n = false := by
  have hsame := @sameServers_config yaml enableRouting clashRules proxies hintact
  have hnames : proxyNames (getClashConfig yaml enableRouting clashRules proxies) =
      names (ensureUniqueProxyNames proxies) := by
    rw [← proxyNames_clashConfig, proxyNames, hsame.proxies, proxyNames]
  obtain ⟨group, hgroup, hname, hmembers⟩ := @groups_clashConfig (ensureUniqueProxyNames proxies)
  have hkept : (names (ensureUniqueProxyNames proxies)).filter (· ≠ "") =
      names (ensureUniqueProxyNames proxies) := filter_eq_self.mpr fun n hn => by simpa using named hn
  rw [hkept] at hmembers
  have hgroups : groups (getClashConfig yaml enableRouting clashRules proxies) = [group] := by
    rw [← hgroup, groups, hsame.groups, groups]
  rw [← apart_iff builtin hpolicies]
  constructor
  · intro h n hn
    exact h.apart n (hnames ▸ hn)
  · intro happart
    have hdirect : "DIRECT" ∉ names (ensureUniqueProxyNames proxies) := by
      intro hmem
      have hplain := (happart "DIRECT" hmem).2
      rw [hpolicies.direct] at hplain
      cases hplain
    rw [← hnames] at happart
    refine ⟨happart, group, hgroups, hname, ?_, ?_⟩
    · intro m hm
      rw [hmembers, mem_append, mem_singleton] at hm
      rw [hnames]
      rcases hm with hm | rfl
      · rw [count_eq_one_of_mem distinct hm, (happart m (hnames ▸ hm)).2]
        rfl
      · rw [count_eq_zero_of_not_mem hdirect, hpolicies.direct]
        rfl
    · intro n hn
      rw [hnames] at hn
      have hne : "DIRECT" ≠ n := fun he => hdirect (he ▸ hn)
      rw [hmembers, count_append, count_eq_one_of_mem distinct hn, count_singleton,
        if_neg (by simpa using hne)]

theorem profile_accepted_iff (hpolicies : Policies builtin) (hintact : Intact yaml enableRouting clashRules) :
    Accepted yaml builtin enableRouting clashRules proxies ↔
      ¬ Usurped suffix [] (requests proxies) ∧
        ∀ n ∈ baseNames proxies, n ≠ "PROXY" ∧ builtin n = false := by
  rw [← kept_iff, ← usable_iff hpolicies hintact]
  constructor
  · intro h
    exact ⟨h.kept, h.usable⟩
  · rintro ⟨hkept, husable⟩
    exact ⟨pick_halts, fun n => named, distinct, hkept, husable⟩

def policies : List String := ["DIRECT", "REJECT", "REJECT-DROP", "PASS", "COMPATIBLE"]

theorem policies_standard : Policies policies.contains := by
  refine ⟨by decide, fun base k => ?_⟩
  have hlasts : ∀ word ∈ policies, word.toList.getLast?.map Char.isDigit = some false := by decide
  rw [← Bool.not_eq_true, contains_iff_mem]
  intro hmem
  obtain ⟨c, hlast, hc⟩ := Option.map_eq_some_iff.mp (hlasts _ hmem)
  exact nameSuffix_ne hlast hc base k rfl

def sharing (names : List String) : List Object :=
  names.map fun name => [("name", .str name), ("type", .str "vless"), ("server", .str "a.com")]

theorem unrouted (clashRules : String) : Intact (fun _ => none) true clashRules := by
  intro _ custom h
  cases h

theorem accepted_plain :
    Accepted (fun _ => none) policies.contains true "" (sharing ["fi", "fi", "de"]) :=
  (profile_accepted_iff policies_standard (unrouted "")).mpr ⟨kept_iff.mp (by decide), by decide⟩

theorem suffix_steals_name : ¬ Accepted (fun _ => none) policies.contains true ""
    (sharing ["fi", "fi", "fi-2"]) := by
  intro h
  exact absurd (h.kept ("fi-2", "fi-2-2") (by decide) (by decide) (by decide)) (by decide)

end grouping

end ClashNames

end QuiPanel
