import QuiPanel.StatsRouting
import QuiPanel.Library.JsonOrder

namespace QuiPanel

namespace TemplateSave

open List

open StatsRouting (asObject ruleFields unmarshalConfig unwrapKeys isApiRule findApiRule routingObject defaultApiRule
  Unparsed maxDepth inboundConfigs)

structure Codec (T : Type) where
  parse : T → Option Json
  print : Json → T
  member : T → T
  ofString : String → T
  float : String → Option String
  parse_print : ∀ v, parse (print v) = some v
  parse_member : ∀ t fields v, parse t = some (.obj fields) → Fields.get fields "xraySetting" = some v →
    parse (member t) = some v
  float_float : ∀ d d', float d = some d' → float d' = some d'

section renumber

variable (float : String → Option String)

mutual

def renumber : Json → Option Json
  | .num digits => (float digits).map .num
  | .arr elems => (renumberElems elems).map .arr
  | .obj fields => (renumberFields fields).map .obj
  | .null => some .null
  | .bool b => some (.bool b)
  | .str s => some (.str s)

def renumberElems : List Json → Option (List Json)
  | [] => some []
  | v :: vs => (renumber v).bind fun v => (renumberElems vs).map (v :: ·)

def renumberFields : List (String × Json) → Option (List (String × Json))
  | [] => some []
  | (k, v) :: fs => (renumber v).bind fun v => (renumberFields fs).map ((k, v) :: ·)

end

def ruleMaps : Option Json → Option (List Json)
  | none | some .null => some []
  | some (.arr elems) => if elems.all fun e => (asObject e).isSome then renumberElems float elems else none
  | some _ => none

end renumber

section save

variable {T : Type} (c : Codec T)

def unwrapXrayTemplateConfig : Nat → T → T
  | 0, raw => raw
  | depth + 1, raw =>
    match (c.parse raw).bind asObject with
    | none => raw
    | some top =>
      match top.get "xraySetting" with
      | none => raw
      | some inner =>
        if unwrapKeys.any fun key => (top.get key).isSome then raw
        else
          match inner with
          | .str asStr => unwrapXrayTemplateConfig depth (c.ofString asStr)
          | .null => unwrapXrayTemplateConfig depth (c.ofString "")
          | _ => unwrapXrayTemplateConfig depth (c.member raw)

def ensureStatsRouting (raw : T) : Except Unparsed T :=
  match c.parse raw with
  | some .null => .error .nilMap
  | some (.obj cfg) =>
    match routingObject (Fields.get cfg "routing") with
    | none => .error .syntaxError
    | some routing =>
      match ruleMaps c.float (routing.get "rules") with
      | none => .error .syntaxError
      | some rules =>
        let hoisted (apiRule : Json) (rest : List Json) : Except Unparsed T :=
          .ok (c.print (.obj (Fields.put cfg "routing" (.obj (routing.put "rules" (.arr (apiRule :: rest)))))))
        match findApiRule rules with
        | some 0 => .ok raw
        | some (i + 1) =>
          hoisted (.obj ((ruleFields (rules.getD (i + 1) .null)).del "enabled")) (rules.eraseIdx (i + 1))
        | none => hoisted defaultApiRule rules
  | _ => .error .syntaxError

def saveXraySetting (newXraySettings : T) : Option T := do
  let text := unwrapXrayTemplateConfig c maxDepth newXraySettings
  let parsed ← c.parse text
  let _ ← unmarshalConfig parsed
  match ensureStatsRouting c text with
  | .ok hoisted => some hoisted
  | .error .syntaxError => some text
  | .error .nilMap => none

end save

def Standard (cfg : Fields Json) : Prop := (unwrapKeys.any fun key => (cfg.get key).isSome) = true

instance (cfg : Fields Json) : Decidable (Standard cfg) := inferInstanceAs (Decidable (_ = true))

inductive Wrapped {T : Type} (c : Codec T) (cfg : Json) : Nat → Json → Prop
  | bare : Wrapped c cfg 0 cfg
  | object {k : Nat} {inner : Json} {top : Fields Json} (hinner : Wrapped c cfg k inner)
      (htop : top.get "xraySetting" = some inner) (hkeys : ¬Standard top) : Wrapped c cfg (k + 1) (.obj top)
  | text {k : Nat} {inner : Json} {top : Fields Json} {s : String} (hinner : Wrapped c cfg k inner)
      (hs : c.parse (c.ofString s) = some inner) (htop : top.get "xraySetting" = some (.str s))
      (hkeys : ¬Standard top) : Wrapped c cfg (k + 1) (.obj top)

structure Hoisted (float : String → Option String) (cfg cfg' : Fields Json) : Prop where
  sections : ∀ key, key ≠ "routing" → cfg'.get key = cfg.get key
  unreadable : ((routingObject (cfg.get "routing")).bind fun routing => ruleMaps float (routing.get "rules")) = none →
    cfg' = cfg
  routing : ∀ routing rules, routingObject (cfg.get "routing") = some routing →
    ruleMaps float (routing.get "rules") = some rules → findApiRule rules = some 0 ∧ cfg' = cfg ∨
      ∃ routing' first rest, cfg'.get "routing" = some (.obj routing') ∧
        (∀ key, key ≠ "rules" → Fields.get routing' key = routing.get key) ∧
        Fields.get routing' "rules" = some (.arr (first :: rest)) ∧ isApiRule (ruleFields first) = true ∧
        (findApiRule rules = none ∧ first = defaultApiRule ∧ rest = rules ∨
          ∃ i, findApiRule rules = some (i + 1) ∧
            first = .obj ((ruleFields (rules.getD (i + 1) .null)).del "enabled") ∧ rest = rules.eraseIdx (i + 1))

section rules

variable {float : String → Option String} {v v' first : Json} {vs vs' rules rest : List Json} {fs fs' : Fields Json}
  {field : Option Json}

theorem mem_paired {α β : Type} {R : α → β → Prop} {as : List α} {bs : List β} {b : β} (h : List.Forall₂ R as bs)
    (hb : b ∈ bs) : ∃ a ∈ as, R a b := by
  induction h with
  | nil => cases hb
  | cons hab _ ih =>
    rcases mem_cons.mp hb with rfl | hb
    · exact ⟨_, mem_cons_self, hab⟩
    · obtain ⟨a, ha, hR⟩ := ih hb
      exact ⟨a, mem_cons_of_mem _ ha, hR⟩

theorem renumberElems_iff : renumberElems float vs = some vs' ↔ List.Forall₂ (renumber float · = some ·) vs vs' := by
  induction vs generalizing vs' with
  | nil =>
    rw [renumberElems, Option.some_inj, List.forall₂_nil_left_iff]
    exact eq_comm
  | cons v vs ih =>
    simp only [renumberElems, Option.bind_eq_some_iff, Option.map_eq_some_iff, ih, List.forall₂_cons_left_iff]
    constructor
    · rintro ⟨w, hw, ws, hws, rfl⟩
      exact ⟨w, ws, hw, hws, rfl⟩
    · rintro ⟨w, ws, hw, hws, rfl⟩
      exact ⟨w, hw, ws, hws, rfl⟩

theorem renumberFields_iff : renumberFields float fs = some fs' ↔
    List.Forall₂ (fun f f' => f'.1 = f.1 ∧ renumber float f.2 = some f'.2) fs fs' := by
  induction fs generalizing fs' with
  | nil =>
    rw [renumberFields, Option.some_inj, List.forall₂_nil_left_iff]
    exact eq_comm
  | cons f fs ih =>
    obtain ⟨key, v⟩ := f
    simp only [renumberFields, Option.bind_eq_some_iff, Option.map_eq_some_iff, ih, List.forall₂_cons_left_iff]
    constructor
    · rintro ⟨w, hw, ws, hws, rfl⟩
      exact ⟨(key, w), ws, ⟨rfl, hw⟩, hws, rfl⟩
    · rintro ⟨⟨_, w⟩, ws, ⟨rfl, hw⟩, hws, rfl⟩
      exact ⟨w, hw, ws, hws, rfl⟩

theorem renumberElems_self : renumberElems float vs = some vs ↔ ∀ v ∈ vs, renumber float v = some v := by
  rw [renumberElems_iff, List.forall₂_same]

theorem renumberFields_self : renumberFields float fs = some fs ↔ ∀ f ∈ fs, renumber float f.2 = some f.2 := by
  rw [renumberFields_iff, List.forall₂_same]
  simp only [true_and]

theorem renumber_renumber (hfloat : ∀ d d', float d = some d' → float d' = some d') (v : Json) :
    ∀ v', renumber float v = some v' → renumber float v' = some v' := by
  induction v using Json.induct with
  | leaf v harr hobj =>
    intro v' h
    cases v with
    | num d =>
      obtain ⟨d', hd, rfl⟩ := Option.map_eq_some_iff.mp h
      rw [renumber, hfloat d d' hd]
      rfl
    | arr elems => exact absurd rfl (harr elems)
    | obj fields => exact absurd rfl (hobj fields)
    | _ =>
      obtain rfl := Option.some.inj h
      rfl
  | arr elems ih =>
    intro v' h
    obtain ⟨elems', helems, rfl⟩ := Option.map_eq_some_iff.mp h
    rw [renumber, renumberElems_self.mpr fun w hw => ?_]
    · rfl
    · obtain ⟨v, hv, hw⟩ := mem_paired (renumberElems_iff.mp helems) hw
      exact ih v hv w hw
  | obj fields ih =>
    intro v' h
    obtain ⟨fields', hfields, rfl⟩ := Option.map_eq_some_iff.mp h
    rw [renumber, renumberFields_self.mpr fun f hf => ?_]
    · rfl
    · obtain ⟨g, hg, -, hw⟩ := mem_paired (renumberFields_iff.mp hfields) hf
      exact ih g hg f.2 hw

theorem asObject_renumber (h : renumber float v = some v') : (asObject v').isSome = (asObject v).isSome := by
  cases v with
  | num d =>
    obtain ⟨d', -, rfl⟩ := Option.map_eq_some_iff.mp h
    rfl
  | arr elems =>
    obtain ⟨elems', -, rfl⟩ := Option.map_eq_some_iff.mp h
    rfl
  | obj fields =>
    obtain ⟨fields', -, rfl⟩ := Option.map_eq_some_iff.mp h
    rfl
  | _ =>
    obtain rfl := Option.some.inj h
    rfl

structure Settled (float : String → Option String) (rules : List Json) : Prop where
  objects : ∀ v ∈ rules, (asObject v).isSome = true
  numbers : ∀ v ∈ rules, renumber float v = some v

theorem settled_of_ruleMaps (hfloat : ∀ d d', float d = some d' → float d' = some d')
    (h : ruleMaps float field = some rules) : Settled float rules := by
  have hnil : Settled float [] := ⟨fun _ hv => absurd hv not_mem_nil, fun _ hv => absurd hv not_mem_nil⟩
  cases field with
  | none =>
    obtain rfl := Option.some.inj h
    exact hnil
  | some value =>
    cases value with
    | null =>
      obtain rfl := Option.some.inj h
      exact hnil
    | arr elems =>
      rw [ruleMaps] at h
      split at h
      case isTrue hall =>
        have hpairs := renumberElems_iff.mp h
        constructor
        · intro w hw
          obtain ⟨v, hv, hvw⟩ := mem_paired hpairs hw
          exact (asObject_renumber hvw).trans (all_eq_true.mp hall v hv)
        · intro w hw
          obtain ⟨v, hv, hvw⟩ := mem_paired hpairs hw
          exact renumber_renumber hfloat v w hvw
      case isFalse => cases h
    | _ => cases h

theorem ruleMaps_settled (h : Settled float rules) : ruleMaps float (some (.arr rules)) = some rules := by
  rw [ruleMaps, if_pos (all_eq_true.mpr h.objects), renumberElems_self.mpr h.numbers]

theorem settled_cons (hobject : (asObject first).isSome = true) (hnumbers : renumber float first = some first)
    (h : Settled float rules) (hrest : ∀ v ∈ rest, v ∈ rules) : Settled float (first :: rest) := by
  constructor
  · intro v hv
    rcases mem_cons.mp hv with rfl | hv
    · exact hobject
    · exact h.objects v (hrest v hv)
  · intro v hv
    rcases mem_cons.mp hv with rfl | hv
    · exact hnumbers
    · exact h.numbers v (hrest v hv)

theorem renumber_del {key : String} (h : renumber float (.obj fs) = some (.obj fs)) :
    renumber float (.obj (fs.del key)) = some (.obj (fs.del key)) := by
  obtain ⟨fs', hfs, heq⟩ := Option.map_eq_some_iff.mp h
  obtain rfl := Json.obj.inj heq
  have hall := renumberFields_self.mp hfs
  have hdel : renumberFields float (Fields.del fs' key) = some (Fields.del fs' key) :=
    renumberFields_self.mpr fun f hf => hall f (mem_filter.mp hf).1
  rw [renumber, hdel]
  rfl

end rules

def plan (float : String → Option String) (cfg : Fields Json) : Option (Option (Fields Json)) :=
  (routingObject (cfg.get "routing")).bind fun routing =>
    (ruleMaps float (routing.get "rules")).map fun rules =>
      let hoisted (apiRule : Json) (rest : List Json) : Option (Fields Json) :=
        some (cfg.put "routing" (.obj (routing.put "rules" (.arr (apiRule :: rest)))))
      match findApiRule rules with
      | some 0 => none
      | some (i + 1) =>
        hoisted (.obj ((ruleFields (rules.getD (i + 1) .null)).del "enabled")) (rules.eraseIdx (i + 1))
      | none => hoisted defaultApiRule rules

section saved

variable {T : Type} {c : Codec T} {cfg cfg' routing : Fields Json} {raw text stored : T} {k depth : Nat} {v : Json}
  {rules : List Json}

def settled (c : Codec T) (cfg : Fields Json) (text : T) : T :=
  match plan c.float cfg with
  | some (some cfg') => c.print (.obj cfg')
  | _ => text

def settledFields (float : String → Option String) (cfg : Fields Json) : Fields Json :=
  match plan float cfg with
  | some (some cfg') => cfg'
  | _ => cfg

theorem parse_settled (htext : c.parse text = some (.obj cfg)) :
    c.parse (settled c cfg text) = some (.obj (settledFields c.float cfg)) := by
  rw [settled, settledFields]
  cases plan c.float cfg with
  | none => exact htext
  | some cfg' =>
    cases cfg' with
    | none => exact htext
    | some cfg' => exact c.parse_print (.obj cfg')

theorem ensureStatsRouting_plan (htext : c.parse text = some (.obj cfg)) :
    ensureStatsRouting c text = match plan c.float cfg with
      | none => .error .syntaxError
      | some none => .ok text
      | some (some cfg') => .ok (c.print (.obj cfg')) := by
  rw [ensureStatsRouting, htext]
  dsimp only
  cases hrouting : routingObject (Fields.get cfg "routing") with
  | none =>
    rw [plan, hrouting]
    rfl
  | some routing =>
    cases hrules : ruleMaps c.float (routing.get "rules") with
    | none => simp only [plan, hrouting, hrules, Option.bind_some, Option.map_none]
    | some rules =>
      simp only [plan, hrouting, hrules, Option.bind_some, Option.map_some]
      cases findApiRule rules with
      | none => rfl
      | some i => cases i <;> rfl

theorem unwrap_standard (hcfg : Standard cfg) (hraw : c.parse raw = some (.obj cfg)) (depth : Nat) :
    unwrapXrayTemplateConfig c depth raw = raw := by
  cases depth with
  | zero => rfl
  | succ depth =>
    rw [unwrapXrayTemplateConfig, hraw]
    dsimp only [Option.bind_some, asObject]
    cases Fields.get cfg "xraySetting" with
    | none => rfl
    | some inner => exact if_pos hcfg

theorem wrapped_object (h : Wrapped c (.obj cfg) k v) : ∃ top, v = .obj top := by
  cases h with
  | bare => exact ⟨_, rfl⟩
  | object => exact ⟨_, rfl⟩
  | text => exact ⟨_, rfl⟩

theorem unwrap_wrapped (hcfg : Standard cfg) (h : Wrapped c (.obj cfg) k v) (hk : k ≤ depth)
    (hraw : c.parse raw = some v) : c.parse (unwrapXrayTemplateConfig c depth raw) = some (.obj cfg) := by
  induction h generalizing depth raw with
  | bare => rwa [unwrap_standard hcfg hraw]
  | @object k inner top hinner htop hkeys ih =>
    obtain ⟨depth, rfl⟩ : ∃ d, depth = d + 1 := ⟨depth - 1, by omega⟩
    obtain ⟨fields, rfl⟩ := wrapped_object hinner
    rw [unwrapXrayTemplateConfig, hraw]
    dsimp only [Option.bind_some, asObject]
    rw [htop]
    dsimp only
    rw [if_neg (show ¬(unwrapKeys.any fun key => (top.get key).isSome) = true from hkeys)]
    exact ih (by omega) (c.parse_member raw top _ hraw htop)
  | @text k inner top s hinner hs htop hkeys ih =>
    obtain ⟨depth, rfl⟩ : ∃ d, depth = d + 1 := ⟨depth - 1, by omega⟩
    rw [unwrapXrayTemplateConfig, hraw]
    dsimp only [Option.bind_some, asObject]
    rw [htop]
    dsimp only
    rw [if_neg (show ¬(unwrapKeys.any fun key => (top.get key).isSome) = true from hkeys)]
    exact ih (by omega) hs

theorem save_eq (htext : c.parse (unwrapXrayTemplateConfig c maxDepth raw) = some (.obj cfg)) :
    saveXraySetting c raw = (unmarshalConfig (.obj cfg)).map fun _ =>
      settled c cfg (unwrapXrayTemplateConfig c maxDepth raw) := by
  rw [saveXraySetting, htext]
  simp only [Option.bind_eq_bind, Option.bind_some, ensureStatsRouting_plan htext, settled]
  cases unmarshalConfig (.obj cfg) with
  | none => rfl
  | some base =>
    cases plan c.float cfg with
    | none => rfl
    | some cfg' => cases cfg' <;> rfl

structure Hoist (float : String → Option String) (cfg cfg' routing : Fields Json) (rules : List Json) (first : Json)
    (rest : List Json) : Prop where
  config : cfg' = cfg.put "routing" (.obj (routing.put "rules" (.arr (first :: rest))))
  api : isApiRule (ruleFields first) = true
  settled : Settled float (first :: rest)
  origin : findApiRule rules = none ∧ first = defaultApiRule ∧ rest = rules ∨
    ∃ i, findApiRule rules = some (i + 1) ∧
      first = .obj ((ruleFields (rules.getD (i + 1) .null)).del "enabled") ∧ rest = rules.eraseIdx (i + 1)

variable {float : String → Option String}

theorem plan_cases (hfloat : ∀ d d', float d = some d' → float d' = some d')
    (hrouting : routingObject (cfg.get "routing") = some routing)
    (hrules : ruleMaps float (routing.get "rules") = some rules) :
    findApiRule rules = some 0 ∧ plan float cfg = some none ∨
      ∃ cfg' first rest, plan float cfg = some (some cfg') ∧ Hoist float cfg cfg' routing rules first rest := by
  have hsettled := settled_of_ruleMaps hfloat hrules
  cases hfind : findApiRule rules with
  | none =>
    refine .inr ⟨_, defaultApiRule, rules, ?_, rfl, rfl, settled_cons rfl rfl hsettled fun _ h => h,
      .inl ⟨hfind, rfl, rfl⟩⟩
    simp only [plan, hrouting, hrules, hfind, Option.bind_some, Option.map_some]
  | some i =>
    cases i with
    | zero =>
      refine .inl ⟨rfl, ?_⟩
      simp only [plan, hrouting, hrules, hfind, Option.bind_some, Option.map_some]
    | succ i =>
      have hapi := StatsRouting.findApiRule_api hfind
      obtain ⟨fields, hrule, hdel⟩ := StatsRouting.hoisted_api hapi
      have hi : i + 1 < rules.length := (findIdx?_eq_some_iff_getElem.mp hfind).1
      have hmem : Json.obj fields ∈ rules := by
        rw [← hrule, getD_eq_getElem _ _ hi]
        exact getElem_mem hi
      refine .inr ⟨_, .obj ((ruleFields (rules.getD (i + 1) .null)).del "enabled"), rules.eraseIdx (i + 1), ?_, rfl, ?_,
        ?_, .inr ⟨i, hfind, rfl, rfl⟩⟩
      · simp only [plan, hrouting, hrules, hfind, Option.bind_some, Option.map_some]
      · rw [hrule]
        exact hdel
      · rw [hrule]
        exact settled_cons rfl (renumber_del (hsettled.numbers _ hmem)) hsettled fun v hv =>
          mem_of_mem_eraseIdx hv

theorem plan_hoist {first : Json} {rest : List Json}
    (h : Hoist float cfg cfg' routing rules first rest) : plan float cfg' = some none := by
  have hget : cfg'.get "routing" = some (.obj (routing.put "rules" (.arr (first :: rest)))) := by
    rw [h.config]
    exact Fields.get_put_self
  have hrouting : routingObject (cfg'.get "routing") = some (routing.put "rules" (.arr (first :: rest))) := by
    rw [hget]
    rfl
  have hrules : ruleMaps float ((routing.put "rules" (.arr (first :: rest))).get "rules") = some (first :: rest) := by
    rw [Fields.get_put_self]
    exact ruleMaps_settled h.settled
  have hfind : findApiRule (first :: rest) = some 0 := by
    rw [findApiRule, findIdx?_cons, if_pos h.api]
  simp only [plan, hrouting, hrules, hfind, Option.bind_some, Option.map_some]

theorem standard_hoist {first : Json} {rest : List Json}
    (h : Hoist float cfg cfg' routing rules first rest) : Standard cfg' := by
  have hget : (cfg'.get "routing").isSome = true := by
    rw [h.config, Fields.get_put_self]
    rfl
  exact any_eq_true.mpr ⟨"routing", by decide, hget⟩

theorem accepted_put {value : Json} (h : unmarshalConfig (.obj cfg) ≠ none) :
    unmarshalConfig (.obj (cfg.put "routing" value)) ≠ none := by
  obtain ⟨base, hbase⟩ := Option.ne_none_iff_exists'.mp h
  obtain ⟨hinbounds, -⟩ := StatsRouting.unmarshalConfig_obj hbase
  have hkept : inboundConfigs (cfg.put "routing" value) = some base.inboundConfigs := by
    rw [inboundConfigs, Fields.get_put_ne (by decide), ← inboundConfigs, hinbounds]
  simp only [unmarshalConfig, asObject, Option.bind_eq_bind, Option.bind_some, hkept, Option.pure_def]
  exact Option.some_ne_none _

theorem settledFields_hoisted (c : Codec T) (cfg : Fields Json) :
    Hoisted c.float cfg (settledFields c.float cfg) := by
  cases hplan : plan c.float cfg with
  | none =>
    have hsame : settledFields c.float cfg = cfg := by rw [settledFields, hplan]
    rw [hsame]
    refine ⟨fun _ _ => rfl, fun _ => rfl, fun routing rules hrouting hrules => ?_⟩
    rcases plan_cases c.float_float hrouting hrules with ⟨hfirst, -⟩ | ⟨cfg', first, rest, hsome, -⟩
    · exact .inl ⟨hfirst, rfl⟩
    · rw [hplan] at hsome
      cases hsome
  | some result =>
    obtain ⟨routing, hrouting, hmap⟩ := Option.bind_eq_some_iff.mp hplan
    obtain ⟨rules, hrules, -⟩ := Option.map_eq_some_iff.mp hmap
    have hreadable : ∀ routing' rules', routingObject (cfg.get "routing") = some routing' →
        ruleMaps c.float (routing'.get "rules") = some rules' → routing' = routing ∧ rules' = rules := by
      intro routing' rules' hrouting' hrules'
      obtain rfl := Option.some.inj (hrouting'.symm.trans hrouting)
      exact ⟨rfl, Option.some.inj (hrules'.symm.trans hrules)⟩
    have hnone : ((routingObject (cfg.get "routing")).bind fun routing => ruleMaps c.float (routing.get "rules")) ≠
        none := by
      rw [hrouting, Option.bind_some, hrules]
      exact Option.some_ne_none rules
    rcases plan_cases c.float_float hrouting hrules with ⟨hfirst, hkept⟩ | ⟨cfg', first, rest, hsome, hhoist⟩
    · have hsame : settledFields c.float cfg = cfg := by rw [settledFields, hkept]
      rw [hsame]
      refine ⟨fun _ _ => rfl, fun h => absurd h hnone, fun routing' rules' hrouting' hrules' => ?_⟩
      obtain ⟨-, rfl⟩ := hreadable routing' rules' hrouting' hrules'
      exact .inl ⟨hfirst, rfl⟩
    · have hsame : settledFields c.float cfg = cfg' := by rw [settledFields, hsome]
      rw [hsame, hhoist.config]
      refine ⟨fun key hkey => Fields.get_put_ne hkey.symm, fun h => absurd h hnone,
        fun routing' rules' hrouting' hrules' => ?_⟩
      obtain ⟨rfl, rfl⟩ := hreadable routing' rules' hrouting' hrules'
      exact .inr ⟨_, first, rest, Fields.get_put_self, fun key hkey => Fields.get_put_ne hkey.symm,
        Fields.get_put_self, hhoist.api, hhoist.origin⟩

theorem save_settled (hcfg : Standard cfg) (htext : c.parse text = some (.obj cfg))
    (haccepted : unmarshalConfig (.obj cfg) ≠ none) :
    saveXraySetting c (settled c cfg text) = some (settled c cfg text) := by
  have hsave : ∀ {fields : Fields Json} {t : T}, Standard fields → c.parse t = some (.obj fields) →
      unmarshalConfig (.obj fields) ≠ none → saveXraySetting c t = some (settled c fields t) := by
    intro fields t hstandard ht hok
    have hunwrap := unwrap_standard hstandard ht maxDepth
    obtain ⟨base, hbase⟩ := Option.ne_none_iff_exists'.mp hok
    rw [save_eq (by rwa [hunwrap]), hunwrap, hbase]
    rfl
  cases hplan : plan c.float cfg with
  | none =>
    have hsame : settled c cfg text = text := by rw [settled, hplan]
    rw [hsame, hsave hcfg htext haccepted, hsame]
  | some result =>
    cases result with
    | none =>
      have hsame : settled c cfg text = text := by rw [settled, hplan]
      rw [hsame, hsave hcfg htext haccepted, hsame]
    | some cfg' =>
      obtain ⟨routing, hrouting, hmap⟩ := Option.bind_eq_some_iff.mp hplan
      obtain ⟨rules, hrules, -⟩ := Option.map_eq_some_iff.mp hmap
      rcases plan_cases c.float_float hrouting hrules with ⟨-, hkept⟩ | ⟨cfg'', first, rest, hsome, hhoist⟩
      · rw [hplan] at hkept
        cases hkept
      · obtain rfl := Option.some.inj (Option.some.inj (hplan.symm.trans hsome))
        have hprinted : settled c cfg text = c.print (.obj cfg') := by rw [settled, hplan]
        have hok : unmarshalConfig (.obj cfg') ≠ none := by
          rw [hhoist.config]
          exact accepted_put haccepted
        rw [hprinted, hsave (standard_hoist hhoist) (c.parse_print _) hok, settled, plan_hoist hhoist]

theorem save_projects {fields : Fields Json} (hcfg : Standard fields) (hraw : c.parse raw = some (.obj fields))
    (hsave : saveXraySetting c raw = some stored) :
    (∀ k ≤ maxDepth, ∀ v wrapped, Wrapped c (.obj fields) k v → c.parse wrapped = some v →
      ∃ stored', saveXraySetting c wrapped = some stored' ∧ c.parse stored' = c.parse stored) ∧
    saveXraySetting c stored = some stored ∧
    ∃ fields', c.parse stored = some (.obj fields') ∧ Hoisted c.float fields fields' := by
  have hunwrap := unwrap_standard hcfg hraw maxDepth
  rw [save_eq (by rwa [hunwrap]), hunwrap] at hsave
  obtain ⟨base, hbase, rfl⟩ := Option.map_eq_some_iff.mp hsave
  have haccepted : unmarshalConfig (.obj fields) ≠ none := by
    rw [hbase]
    exact Option.some_ne_none base
  refine ⟨fun k hk v wrapped hwrapped hparse => ?_, save_settled hcfg hraw haccepted,
    settledFields c.float fields, parse_settled hraw, settledFields_hoisted c fields⟩
  have hpeeled := unwrap_wrapped hcfg hwrapped hk hparse
  refine ⟨_, by rw [save_eq hpeeled, hbase]; rfl, ?_⟩
  rw [parse_settled hpeeled, parse_settled hraw]

def treeCodec (texts : String → Option Json) (float : String → Option String)
    (hfloat : ∀ d d', float d = some d' → float d' = some d') : Codec (Json ⊕ String) where
  parse t := t.elim some texts
  print := .inl
  member t := match t.elim some texts with
    | some (.obj fields) => ((Fields.get fields "xraySetting").map .inl).getD t
    | _ => t
  ofString := .inr
  float := float
  parse_print _ := rfl
  parse_member t fields v ht hv := by
    rw [ht]
    dsimp only
    rw [hv]
    rfl
  float_float := hfloat

def nearest (d : String) : Option String := if d = "9007199254740993" then some "9007199254740992" else some d

theorem nearest_nearest (d d' : String) (h : nearest d = some d') : nearest d' = some d' := by
  rw [nearest] at h
  split at h
  · obtain rfl := Option.some.inj h
    decide
  case isFalse hne =>
    obtain rfl := Option.some.inj h
    exact if_neg hne

def sampleCodec : Codec (Json ⊕ String) := treeCodec (fun _ => none) nearest nearest_nearest

def rule (port : String) : Json :=
  .obj [("type", .str "field"), ("port", .num port), ("outboundTag", .str "direct")]

def sampleConfig (rules : List Json) : Fields Json := [("routing", .obj [("rules", .arr rules)])]

def wrapTimes : Nat → Json → Json
  | 0, v => v
  | k + 1, v => .obj [("xraySetting", wrapTimes k v)]

theorem wrapped_wrapTimes (c : Codec T) (v : Json) (k : Nat) : Wrapped c v k (wrapTimes k v) := by
  induction k with
  | zero => exact .bare
  | succ k ih =>
    have hkeys : ∀ w : Json, ¬Standard [("xraySetting", w)] := by
      intro w h
      obtain ⟨key, hkey, hget⟩ := any_eq_true.mp h
      have hplain : ∀ key ∈ unwrapKeys, key ≠ "xraySetting" := by decide
      rw [Fields.get, KeyedDiff.lookup, find?_cons_of_neg (by simpa using (hplain key hkey).symm)] at hget
      cases hget
    exact .object ih rfl (hkeys _)

theorem save_projects_sample : (∀ k ≤ maxDepth, ∀ v wrapped,
      Wrapped sampleCodec (.obj (sampleConfig [rule "53"])) k v → sampleCodec.parse wrapped = some v →
        ∃ stored', saveXraySetting sampleCodec wrapped = some stored' ∧
          sampleCodec.parse stored' = some (.obj (sampleConfig [defaultApiRule, rule "53"]))) ∧
    saveXraySetting sampleCodec (.inl (.obj (sampleConfig [defaultApiRule, rule "53"]))) =
      some (.inl (.obj (sampleConfig [defaultApiRule, rule "53"]))) ∧
    ∃ fields', some (Json.obj (sampleConfig [defaultApiRule, rule "53"])) = some (.obj fields') ∧
      Hoisted nearest (sampleConfig [rule "53"]) fields' :=
  @save_projects (Json ⊕ String) sampleCodec (.inl (.obj (sampleConfig [rule "53"])))
    (.inl (.obj (sampleConfig [defaultApiRule, rule "53"]))) (sampleConfig [rule "53"]) (by decide) rfl rfl

theorem nine_wraps_and_numbers :
    (∃ v stored stored', Wrapped sampleCodec (.obj (sampleConfig [])) 9 v ∧
      saveXraySetting sampleCodec (.inl v) = some stored ∧
      saveXraySetting sampleCodec (.inl (.obj (sampleConfig []))) = some stored' ∧
      sampleCodec.parse stored ≠ sampleCodec.parse stored') ∧
    saveXraySetting sampleCodec (.inl (.obj (sampleConfig [rule "9007199254740993"]))) =
      some (.inl (.obj (sampleConfig [defaultApiRule, rule "9007199254740992"]))) := by
  constructor
  · refine ⟨wrapTimes 9 (.obj (sampleConfig [])), _, _, wrapped_wrapTimes _ _ 9, rfl, rfl, ?_⟩
    decide
  · rfl

end saved

end TemplateSave

end QuiPanel
