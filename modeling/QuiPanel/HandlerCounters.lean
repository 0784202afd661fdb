import QuiPanel.Attribution

namespace QuiPanel

namespace HandlerCounters

open List hiding beq_eq_decide
open LeftmostFirst Xray

structure Snapshot where
  stats : List Stat
  distinct : (stats.map (·.name)).Nodup

def counterOf (inbound : Bool) (tag : String) (isDown : Bool) : Counter :=
  if inbound then .inbound tag isDown else .outbound tag isDown

def Known (last : String → Option Int64) (stat : Stat) : Prop := (delta last stat).isSome = true

def grown (last : String → Option Int64) (s : Snapshot) (inbound : Bool) (tag : String) (isDown : Bool) :
    Int64 :=
  increase last s.stats (counterOf inbound tag isDown)

def ownRow (last : String → Option Int64) (s : Snapshot) (inbound : Bool) (tag : String) : Traffic :=
  ⟨inbound, !inbound, tag, grown last s inbound tag false, grown last s inbound tag true⟩

structure Handled (last : String → Option Int64) (s : Snapshot) (inbound : Bool) (tag : String) : Prop where
  counted : ∃ isDown, ∃ stat ∈ s.stats, stat.name = (counterOf inbound tag isDown).name ∧ Known last stat

def KeptApart (last : String → Option Int64) (s : Snapshot) : Prop :=
  ∀ inbound tag, Handled last s inbound tag → ∀ order, order.Perm s.stats →
    (getTraffic last order).tags.filter (fun r => r.isInbound == inbound && r.tag == tag) =
      [ownRow last s inbound tag]

structure Unmixed (last : String → Option Int64) (s : Snapshot) (inbound : Bool) (tag : String) : Prop where
  named : tag ≠ "" ∧ '>' ∉ tag.toList
  visible : tag ≠ "api"
  own : ∀ stat ∈ s.stats, ∀ kind isDown v, delta last stat = some v →
    slot stat.name = some (.traffic kind tag isDown) → kind = inbound ∧ v = grown last s inbound tag isDown

section reading

variable {name tag : String} {inbound isDown : Bool}

theorem tag_of_slot (h : slot name = some (.traffic inbound tag isDown)) : tag ≠ "" ∧ '>' ∉ tag.toList := by
  have htraffic : ReadAsTraffic name := by
    by_contra hno
    by_cases hclient : ReadAsClient name
    · obtain ⟨_, _, -, -, hs⟩ := slot_of_client hclient
      rw [hs] at h
      cases h
    · rw [slot_other hno hclient] at h
      cases h
  obtain ⟨caps, hfound⟩ := Option.isSome_iff_exists.mp (findSubmatch_isSome.mpr htraffic)
  obtain ⟨_, _, _, _, hm⟩ := findSubmatch_sound hfound
  obtain ⟨k, x, d, -, hne, hclean, -, -, rfl⟩ := traffic_matches hm
  have hsub : findStringSubmatch trafficRegex name =
      some [String.ofList k, String.ofList x, String.ofList d] := by
    simp only [findStringSubmatch, hfound, Option.map_some, map_cons, map_nil]
  simp only [slot, hsub, Option.some.injEq, Slot.traffic.injEq] at h
  obtain ⟨-, rfl, -⟩ := h
  exact ⟨fun he => hne (by simpa using congrArg String.toList he), by simpa using hclean⟩

def kindName (inbound : Bool) : String := if inbound then "inbound" else "outbound"

theorem counter_name_toList : (counterOf inbound tag isDown).name.toList = (kindName inbound).toList ++
    (">>>".toList ++ (tag.toList ++ (">>>traffic>>>".toList ++ (link isDown).toList))) := by
  cases inbound <;> simp [counterOf, kindName, Counter.name, String.toList_append]

theorem kindName_mem (inbound : Bool) : (kindName inbound).toList ∈ kinds := by
  cases inbound <;> decide

theorem matches_traffic {k x d : List Char} (hk : k ∈ kinds) (hne : x ≠ []) (hclean : '>' ∉ x)
    (hd : d ∈ directions) : Matches trafficRegex
      (k ++ (">>>".toList ++ (x ++ (">>>traffic>>>".toList ++ d)))) [k, x, d] := by
  have hx : Matches nameClass x [x] :=
    .group (.plus hne fun c hc => by simpa using fun he : c = '>' => hclean (he ▸ hc))
  have hdir : Matches direction d [d] := .group (.either hd)
  have hkind : Matches (.group (.either ["inbound".toList, "outbound".toList])) k [k] := .group (.either hk)
  exact .seq hkind (.seq (.lit _) (.seq hx (.seq (.lit _) hdir)))

theorem slot_counter (inbound isDown : Bool) (hne : tag ≠ "") (hclean : '>' ∉ tag.toList) :
    slot (counterOf inbound tag isDown).name = some (.traffic inbound tag isDown) := by
  have hne' : tag.toList ≠ [] := by simpa using hne
  obtain ⟨ds, post, caps, hs, hm, hfound⟩ :=
    findSubmatch_head [] (matches_traffic (kindName_mem inbound) hne' hclean (link_mem isDown))
  obtain ⟨k, x, d, hk, -, hx, hd, rfl, rfl⟩ := traffic_matches hm
  rw [append_nil] at hs hfound
  have harrow : ">>>".toList = '>' :: ">>".toList := by decide
  have htraffic : ">>>traffic>>>".toList = '>' :: ">>traffic>>>".toList := by decide
  have hsplit : (kindName inbound).toList ++ '>' :: (">>".toList ++ (tag.toList ++
      (">>>traffic>>>".toList ++ (link isDown).toList))) =
      k ++ '>' :: (">>".toList ++ (x ++ (">>>traffic>>>".toList ++ (d ++ post)))) := by
    rw [harrow] at hs
    simpa only [append_assoc, cons_append] using hs
  obtain ⟨hkind, hrest⟩ := name_inj (kind_marks (kindName_mem inbound)).1 (kind_marks hk).1 hsplit
  have hrest' : tag.toList ++ '>' :: (">>traffic>>>".toList ++ (link isDown).toList) =
      x ++ '>' :: (">>traffic>>>".toList ++ (d ++ post)) := by
    have hcancel := append_cancel_left hrest
    rw [htraffic] at hcancel
    simpa only [append_assoc, cons_append] using hcancel
  obtain ⟨htag, hlast⟩ := name_inj hclean hx hrest'
  have hdir := direction_unique (link_mem isDown) hd (append_cancel_left hlast)
  have hsub : findStringSubmatch trafficRegex (counterOf inbound tag isDown).name =
      some [kindName inbound, tag, link isDown] := by
    simp only [findStringSubmatch, counter_name_toList, hfound, Option.map_some, map_cons,
      map_nil, ← hkind, ← htag, ← hdir, String.ofList_toList]
  have hin : (kindName inbound == "inbound") = inbound := by cases inbound <;> decide
  have hdown : (link isDown == "downlink") = isDown := by cases isDown <;> decide
  simp only [slot, hsub, hin, hdown]

end reading

section rows

variable {ps : List (Slot × Int64)} {r : Traffic} {tag : String}

theorem tagsOf_nodup : ((tagsOf ps).map (·.tag)).Nodup := by
  induction ps using List.reverseRecOn with
  | nil => exact nodup_nil
  | append_singleton ps p ih =>
    rw [tagsOf_concat]
    obtain ⟨sl, v⟩ := p
    cases sl with
    | client => exact ih
    | traffic inbound t isDown =>
      simp only [recordTag]
      split
      · exact ih
      · exact upsert_nodup (set_tag isDown v) (by rfl) ih

theorem find_row (h : r ∈ tagsOf ps) : (tagsOf ps).find? (fun b => b.tag = r.tag) = some r := by
  cases hf : (tagsOf ps).find? fun b => b.tag = r.tag with
  | none => exact absurd (find?_eq_none.mp hf r h) (by simp)
  | some b =>
    have hb := mem_of_find?_eq_some hf
    have hkey : b.tag = r.tag := by simpa using find?_some hf
    rw [inj_on_of_nodup_map tagsOf_nodup hb h hkey]

theorem row_of_mem (h : r ∈ tagsOf ps) : r.tag ≠ "api" ∧ tagRow ps r.tag = some r := by
  have hfind := find_row h
  have hvisible : r.tag ≠ "api" := by
    intro hapi
    rw [hapi, find_api] at hfind
    cases hfind
  rw [find_tag hvisible] at hfind
  exact ⟨hvisible, hfind⟩

theorem filter_rows (ps : List (Slot × Int64)) (inbound : Bool) (htag : tag ≠ "api") :
    (tagsOf ps).filter (fun r => r.isInbound == inbound && r.tag == tag) =
      ((tagRow ps tag).filter fun r => r.isInbound == inbound).toList := by
  have hone : (tagsOf ps).filter (fun r => r.tag = tag) = (tagRow ps tag).toList := by
    rw [← find_tag htag]
    have hnodup : ((tagsOf ps).map (·.tag)).Nodup := tagsOf_nodup
    generalize tagsOf ps = rows at hnodup ⊢
    induction rows with
    | nil => rfl
    | cons b rows ih =>
      obtain ⟨hfresh, hrest⟩ := nodup_cons.mp hnodup
      by_cases hb : b.tag = tag
      · have hnone : rows.filter (fun r => r.tag = tag) = [] := by
          rw [filter_eq_nil_iff]
          intro r hr hrt
          have hsame : r.tag = b.tag := (of_decide_eq_true hrt).trans hb.symm
          exact hfresh (mem_map.mpr ⟨r, hr, hsame⟩)
        simp [hb, hnone]
      · simpa [hb] using ih hrest
  have hsplit : (tagsOf ps).filter (fun r => r.isInbound == inbound && r.tag == tag) =
      ((tagsOf ps).filter (fun r => r.tag = tag)).filter fun r => r.isInbound == inbound := by
    rw [filter_filter]
    apply filter_congr
    intro r _
    simp [beq_eq_decide]
  rw [hsplit, hone]
  cases tagRow ps tag with
  | none => rfl
  | some r => cases hr : r.isInbound == inbound <;> simp [Option.filter, hr]

end rows

section apart

variable {last : String → Option Int64} {s : Snapshot} {inbound : Bool} {tag : String} {order : List Stat}

theorem order_distinct (h : order.Perm s.stats) : (order.map (·.name)).Nodup :=
  (h.map _).nodup_iff.mpr s.distinct

theorem grown_of_unknown {isDown : Bool}
    (h : ∀ stat ∈ s.stats, stat.name = (counterOf inbound tag isDown).name → delta last stat = none) :
    grown last s inbound tag isDown = 0 := by
  rw [grown, increase]
  cases hfind : s.stats.find? (·.name = (counterOf inbound tag isDown).name) with
  | none => rfl
  | some stat =>
    have hstat := mem_of_find?_eq_some hfind
    have hname : stat.name = (counterOf inbound tag isDown).name := by simpa using find?_some hfind
    rw [Option.bind_some, h stat hstat hname]
    rfl

theorem field_of_unmixed (hunmixed : Unmixed last s inbound tag) (horder : order.Perm s.stats)
    (isDown : Bool) :
    tagField (order.filterMap (piece last)) tag isDown = grown last s inbound tag isDown := by
  have hown : ∀ p ∈ order.filterMap (piece last), forTag tag isDown p.1 = true →
      p.2 = grown last s inbound tag isDown := by
    rintro ⟨sl, v⟩ hp hfor
    obtain ⟨stat, hstat, hsl, hv⟩ := mem_pieces.mp hp
    cases sl with
    | client => simp [forTag] at hfor
    | traffic kind t d =>
      simp only [forTag, Bool.and_eq_true, decide_eq_true_eq] at hfor
      obtain ⟨rfl, rfl⟩ := hfor
      exact (hunmixed.own stat (horder.subset hstat) kind d v hv hsl).2
  rw [tagField]
  by_cases hseen : ∃ p ∈ order.filterMap (piece last), forTag tag isDown p.1 = true
  · rw [latest_some hseen hown]
    rfl
  · have hnone : ∀ p ∈ order.filterMap (piece last), forTag tag isDown p.1 = false := by
      intro p hp
      rw [Bool.eq_false_iff]
      exact fun hfor => hseen ⟨p, hp, hfor⟩
    rw [latest_none hnone, grown_of_unknown]
    · rfl
    · intro stat hstat hname
      cases hv : delta last stat with
      | none => rfl
      | some v =>
        have hslot := slot_counter inbound isDown hunmixed.named.1 hunmixed.named.2
        rw [← hname] at hslot
        have hmem : (Slot.traffic inbound tag isDown, v) ∈ order.filterMap (piece last) :=
          mem_pieces.mpr ⟨stat, horder.symm.subset hstat, hslot, hv⟩
        exact absurd (hnone _ hmem) (by simp [forTag])

theorem kind_of_unmixed (hunmixed : Unmixed last s inbound tag) (hhandled : Handled last s inbound tag)
    (horder : order.Perm s.stats) :
    (order.filterMap (piece last)).findSome? (kindOf tag) = some inbound := by
  obtain ⟨isDown, stat, hstat, hname, hknown⟩ := hhandled.counted
  obtain ⟨v, hv⟩ := Option.isSome_iff_exists.mp hknown
  have hslot := slot_counter inbound isDown hunmixed.named.1 hunmixed.named.2
  rw [← hname] at hslot
  have hmem : (Slot.traffic inbound tag isDown, v) ∈ order.filterMap (piece last) :=
    mem_pieces.mpr ⟨stat, horder.symm.subset hstat, hslot, hv⟩
  cases hfirst : (order.filterMap (piece last)).findSome? (kindOf tag) with
  | none => exact absurd (findSome?_eq_none_iff.mp hfirst _ hmem) (by simp [kindOf])
  | some kind =>
    obtain ⟨⟨sl, w⟩, hp, hkind⟩ := exists_of_findSome?_eq_some hfirst
    obtain ⟨stat', hstat', hsl, hw⟩ := mem_pieces.mp hp
    cases sl with
    | client => simp [kindOf] at hkind
    | traffic k t d =>
      simp only [kindOf] at hkind
      split at hkind
      case isFalse => cases hkind
      case isTrue ht =>
        cases hkind
        rw [ht] at hsl
        exact congrArg some (hunmixed.own stat' (horder.subset hstat') _ d w hw hsl).1

theorem rows_of_unmixed (hunmixed : Unmixed last s inbound tag) (hhandled : Handled last s inbound tag)
    (horder : order.Perm s.stats) :
    (getTraffic last order).tags.filter (fun r => r.isInbound == inbound && r.tag == tag) =
      [ownRow last s inbound tag] := by
  rw [getTraffic_eq (order_distinct horder)]
  have hrow : tagRow (order.filterMap (piece last)) tag = some (ownRow last s inbound tag) := by
    rw [tagRow, kind_of_unmixed hunmixed hhandled horder, Option.map_some,
      field_of_unmixed hunmixed horder, field_of_unmixed hunmixed horder, ownRow]
  have hfilter := filter_rows (order.filterMap (piece last)) inbound hunmixed.visible
  rw [hrow] at hfilter
  rw [tagsOf] at hfilter
  rw [hfilter]
  simp [Option.filter, ownRow]

theorem row_kept (h : KeptApart last s) (hhandled : Handled last s inbound tag) (horder : order.Perm s.stats) :
    ownRow last s inbound tag ∈ tagsOf (order.filterMap (piece last)) := by
  have hfilter := h inbound tag hhandled order horder
  rw [getTraffic_eq (order_distinct horder)] at hfilter
  have hmem : ownRow last s inbound tag ∈ [ownRow last s inbound tag] := mem_singleton_self _
  rw [← hfilter] at hmem
  exact (mem_filter.mp hmem).1

theorem own_first (h : KeptApart last s) (hhandled : Handled last s inbound tag) {stat : Stat}
    (hstat : stat ∈ s.stats) {kind isDown : Bool} {v : Int64} (hv : delta last stat = some v)
    (hsl : slot stat.name = some (.traffic kind tag isDown)) : kind = inbound := by
  obtain ⟨front, back, hsplit⟩ := append_of_mem hstat
  have horder : (stat :: (front ++ back)).Perm s.stats := by
    rw [hsplit]
    exact perm_middle.symm
  have hrow := (row_of_mem (row_kept h hhandled horder)).2
  have hpiece : piece last stat = some (.traffic kind tag isDown, v) := by simp [piece, hv, hsl]
  have hfirst : (List.filterMap (piece last) (stat :: (front ++ back))).findSome? (kindOf tag) = some kind := by
    rw [filterMap_cons_some hpiece]
    simp [kindOf]
  have htag : (ownRow last s inbound tag).tag = tag := rfl
  rw [htag, tagRow, hfirst, Option.map_some, Option.some.injEq] at hrow
  exact congrArg Traffic.isInbound hrow

theorem own_last (h : KeptApart last s) (hhandled : Handled last s inbound tag) {stat : Stat}
    (hstat : stat ∈ s.stats) {kind isDown : Bool} {v : Int64} (hv : delta last stat = some v)
    (hsl : slot stat.name = some (.traffic kind tag isDown)) : v = grown last s inbound tag isDown := by
  obtain ⟨front, back, hsplit⟩ := append_of_mem hstat
  have horder : (front ++ back ++ [stat]).Perm s.stats := by
    rw [hsplit, append_assoc]
    exact (perm_append_singleton stat back).append_left front
  have hrow := (row_of_mem (row_kept h hhandled horder)).2
  have hpiece : piece last stat = some (.traffic kind tag isDown, v) := by simp [piece, hv, hsl]
  have hfield : tagField ((front ++ back ++ [stat]).filterMap (piece last)) tag isDown = v := by
    rw [filterMap_append, filterMap_cons_some hpiece, filterMap_nil, tagField, latest_concat]
    simp [forTag]
  have htag : (ownRow last s inbound tag).tag = tag := rfl
  rw [htag, tagRow, Option.map_eq_some_iff] at hrow
  obtain ⟨k, -, hrow⟩ := hrow
  have hfields := congrArg (fun r => r.field isDown) hrow
  cases isDown with
  | false =>
    simp only [Traffic.field, Bool.false_eq_true, if_false, ownRow, hfield] at hfields
    exact hfields
  | true =>
    simp only [Traffic.field, if_true, ownRow, hfield] at hfields
    exact hfields

theorem kept_apart_iff (last : String → Option Int64) (s : Snapshot) :
    KeptApart last s ↔ ∀ inbound tag, Handled last s inbound tag → Unmixed last s inbound tag := by
  constructor
  · intro h inbound tag hhandled
    have hmem := row_kept h hhandled (List.Perm.refl s.stats)
    obtain ⟨hvisible, hrow⟩ := row_of_mem hmem
    have htag : (ownRow last s inbound tag).tag = tag := rfl
    rw [htag] at hvisible hrow
    refine ⟨?_, hvisible, ?_⟩
    · rw [tagRow, Option.map_eq_some_iff] at hrow
      obtain ⟨kind, hkind, -⟩ := hrow
      obtain ⟨⟨sl, v⟩, hp, hsome⟩ := exists_of_findSome?_eq_some hkind
      obtain ⟨stat, -, hsl, -⟩ := mem_pieces.mp hp
      cases sl with
      | client => simp [kindOf] at hsome
      | traffic k t d =>
        simp only [kindOf] at hsome
        split at hsome
        case isFalse => cases hsome
        case isTrue ht =>
          rw [ht] at hsl
          exact tag_of_slot hsl
    · intro stat hstat kind isDown v hv hsl
      exact ⟨own_first h hhandled hstat hv hsl, own_last h hhandled hstat hv hsl⟩
  · intro h inbound tag hhandled order horder
    exact rows_of_unmixed (h inbound tag hhandled) hhandled horder

def sharedTag : Snapshot where
  stats := [⟨"inbound>>>x>>>traffic>>>uplink", 3⟩, ⟨"outbound>>>x>>>traffic>>>uplink", 5⟩]
  distinct := by decide

theorem shared_tag_mixed :
    (getTraffic (fun _ => some 0) sharedTag.stats).tags.map (fun r => (r.isInbound, r.tag, r.up)) =
        [(true, "x", 5)] ∧
      (getTraffic (fun _ => some 0) sharedTag.stats.reverse).tags.map (fun r => (r.isInbound, r.tag, r.up)) =
        [(false, "x", 3)] ∧
      ¬ KeptApart (fun _ => some 0) sharedTag := by
  refine ⟨by decide +kernel, by decide +kernel, ?_⟩
  intro h
  have hhandled : Handled (fun _ => some 0) sharedTag false "x" :=
    ⟨false, ⟨"outbound>>>x>>>traffic>>>uplink", 5⟩, by simp [sharedTag], rfl, rfl⟩
  have hrows := h false "x" hhandled sharedTag.stats (List.Perm.refl _)
  have hnone : ((getTraffic (fun _ => some 0) sharedTag.stats).tags.filter
      fun r => r.isInbound == false && r.tag == "x").length = 0 := by decide +kernel
  rw [hrows] at hnone
  cases hnone

end apart

end HandlerCounters

end QuiPanel
