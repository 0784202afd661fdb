import QuiPanel.Library.Regex
import QuiPanel.Text

namespace QuiPanel

namespace Xray

open LeftmostFirst List

structure Stat where
  name : String
  value : Int64

structure Traffic where
  isInbound : Bool
  isOutbound : Bool
  tag : String
  up : Int64
  down : Int64

structure ClientTraffic where
  email : String
  up : Int64
  down : Int64

def nameClass : Regex Char := .group (.plus (· != '>'))

def direction : Regex Char := .group (.either ["downlink".toList, "uplink".toList])

def trafficRegex : Regex Char :=
  .seq (.group (.either ["inbound".toList, "outbound".toList]))
    (.seq (.lit ">>>".toList) (.seq nameClass (.seq (.lit ">>>traffic>>>".toList) direction)))

def clientTrafficRegex : Regex Char :=
  .seq (.lit "user>>>".toList) (.seq nameClass (.seq (.lit ">>>traffic>>>".toList) direction))

def findStringSubmatch (r : Regex Char) (s : String) : Option (List String) :=
  (findSubmatch r s.toList).map (·.map String.ofList)

def upsert {β : Type} (key : β → String) (k : String) (fresh : β) (f : β → β) : List β → List β
  | [] => [f fresh]
  | b :: bs => if key b = k then f b :: bs else b :: upsert key k fresh f bs

def Traffic.field (r : Traffic) (isDown : Bool) : Int64 := if isDown then r.down else r.up

def ClientTraffic.field (r : ClientTraffic) (isDown : Bool) : Int64 := if isDown then r.down else r.up

def Traffic.set (isDown : Bool) (value : Int64) (t : Traffic) : Traffic :=
  if isDown then { t with down := value } else { t with up := value }

def ClientTraffic.set (isDown : Bool) (value : Int64) (t : ClientTraffic) : ClientTraffic :=
  if isDown then { t with down := value } else { t with up := value }

def processTraffic (kind tag dir : String) (value : Int64) (trafficMap : List Traffic) :
    List Traffic :=
  let isInbound := kind == "inbound"
  let isDown := dir == "downlink"
  if tag = "api" then trafficMap
  else upsert (·.tag) tag ⟨isInbound, !isInbound, tag, 0, 0⟩ (·.set isDown value) trafficMap

def processClientTraffic (email dir : String) (value : Int64)
    (clientTrafficMap : List ClientTraffic) : List ClientTraffic :=
  let isDown := dir == "downlink"
  upsert (·.email) email ⟨email, 0, 0⟩ (·.set isDown value) clientTrafficMap

structure Poll where
  statsLastValues : String → Option Int64
  tags : List Traffic
  emails : List ClientTraffic

def visit (acc : Poll) (stat : Stat) : Poll :=
  let lastValue := acc.statsLastValues stat.name
  let acc := { acc with
    statsLastValues := Function.update acc.statsLastValues stat.name (some stat.value) }
  match lastValue with
  | none => acc
  | some lastValue =>
    if stat.value < lastValue then
      acc
    else
      let value := stat.value - lastValue
      match findStringSubmatch trafficRegex stat.name with
      | some [kind, tag, dir] => { acc with tags := processTraffic kind tag dir value acc.tags }
      | _ =>
        match findStringSubmatch clientTrafficRegex stat.name with
        | some [email, dir] => { acc with emails := processClientTraffic email dir value acc.emails }
        | _ => acc

def getTraffic (statsLastValues : String → Option Int64) (stats : List Stat) : Poll :=
  stats.foldl visit ⟨statsLastValues, [], []⟩

inductive Slot
  | traffic (inbound : Bool) (tag : String) (isDown : Bool)
  | client (email : String) (isDown : Bool)
  deriving DecidableEq

def slot (name : String) : Option Slot :=
  match findStringSubmatch trafficRegex name with
  | some [kind, tag, dir] => some (.traffic (kind == "inbound") tag (dir == "downlink"))
  | _ =>
    match findStringSubmatch clientTrafficRegex name with
    | some [email, dir] => some (.client email (dir == "downlink"))
    | _ => none

def delta (last : String → Option Int64) (stat : Stat) : Option Int64 :=
  (last stat.name).bind fun l => if stat.value < l then none else some (stat.value - l)

def piece (last : String → Option Int64) (stat : Stat) : Option (Slot × Int64) :=
  (delta last stat).bind fun d => (slot stat.name).map fun sl => (sl, d)

def recordTag : Slot × Int64 → List Traffic → List Traffic
  | (.traffic inbound tag isDown, value), m =>
      if tag = "api" then m
      else upsert (·.tag) tag ⟨inbound, !inbound, tag, 0, 0⟩ (·.set isDown value) m
  | (.client _ _, _), m => m

def recordEmail : Slot × Int64 → List ClientTraffic → List ClientTraffic
  | (.client email isDown, value), m =>
      upsert (·.email) email ⟨email, 0, 0⟩ (·.set isDown value) m
  | (.traffic _ _ _, _), m => m

def remember (last : String → Option Int64) (stats : List Stat) : String → Option Int64 :=
  stats.foldl (fun last stat => Function.update last stat.name (some stat.value)) last

section polls

variable {last : String → Option Int64} {stat : Stat} {stats : List Stat}

theorem visit_eq (acc : Poll) (stat : Stat) : visit acc stat =
    ⟨Function.update acc.statsLastValues stat.name (some stat.value),
      (piece acc.statsLastValues stat).elim acc.tags fun p => recordTag p acc.tags,
      (piece acc.statsLastValues stat).elim acc.emails fun p => recordEmail p acc.emails⟩ := by
  unfold visit piece delta slot
  cases acc.statsLastValues stat.name with
  | none => rfl
  | some l =>
    simp only [Option.bind_some]
    split
    · rfl
    simp only [Option.bind_some]
    generalize findStringSubmatch trafficRegex stat.name = m
    generalize findStringSubmatch clientTrafficRegex stat.name = c
    split
    · rfl
    · split <;> rfl

theorem piece_congr {last' : String → Option Int64} (h : last stat.name = last' stat.name) :
    piece last stat = piece last' stat := by
  simp only [piece, delta, h]

theorem pieces_update {v : Option Int64} (h : stat.name ∉ stats.map (·.name)) :
    stats.filterMap (piece (Function.update last stat.name v)) = stats.filterMap (piece last) := by
  refine filterMap_congr ?_
  intro s hs
  have hne : s.name ≠ stat.name := fun he => h (he ▸ mem_map_of_mem hs)
  exact piece_congr (by rw [Function.update_of_ne hne])

theorem foldl_visit (hnodup : (stats.map (·.name)).Nodup) (acc : Poll) :
    stats.foldl visit acc = ⟨remember acc.statsLastValues stats,
      (stats.filterMap (piece acc.statsLastValues)).foldl (fun m p => recordTag p m) acc.tags,
      (stats.filterMap (piece acc.statsLastValues)).foldl (fun m p => recordEmail p m) acc.emails⟩ := by
  induction stats generalizing acc with
  | nil => rfl
  | cons stat stats ih =>
    rw [map_cons, nodup_cons] at hnodup
    obtain ⟨hfresh, hrest⟩ := hnodup
    rw [foldl_cons, ih hrest, visit_eq]
    simp only [pieces_update hfresh, remember, foldl_cons]
    cases hp : piece acc.statsLastValues stat with
    | none => rw [filterMap_cons_none hp]; rfl
    | some p => rw [filterMap_cons_some hp]; rfl

theorem getTraffic_eq (hnodup : (stats.map (·.name)).Nodup) : getTraffic last stats =
    ⟨remember last stats, (stats.filterMap (piece last)).foldl (fun m p => recordTag p m) [],
      (stats.filterMap (piece last)).foldl (fun m p => recordEmail p m) []⟩ :=
  foldl_visit hnodup _

theorem remember_of_not_mem {name : String} (h : name ∉ stats.map (·.name)) :
    remember last stats name = last name := by
  induction stats generalizing last with
  | nil => rfl
  | cons stat stats ih =>
    rw [map_cons, mem_cons, not_or] at h
    exact (ih h.2).trans (Function.update_of_ne h.1 _ _)

theorem remember_of_mem (hnodup : (stats.map (·.name)).Nodup) (h : stat ∈ stats) :
    remember last stats stat.name = some stat.value := by
  induction stats generalizing last with
  | nil => cases h
  | cons s stats ih =>
    rw [map_cons, nodup_cons] at hnodup
    rcases mem_cons.mp h with rfl | h
    · exact (remember_of_not_mem hnodup.1).trans (Function.update_self ..)
    · exact ih hnodup.2 h

end polls

section maps

variable {β : Type} {key : β → String} {k j : String} {fresh : β} {f : β → β}

theorem upsert_find_self (hkey : ∀ b, key (f b) = key b) (hfresh : key fresh = k) (bs : List β) :
    (upsert key k fresh f bs).find? (fun b => key b = k) =
      some (f ((bs.find? fun b => key b = k).getD fresh)) := by
  induction bs with
  | nil => simp [upsert, hkey, hfresh]
  | cons b bs ih =>
    by_cases hb : key b = k
    · simp [upsert, hb, hkey]
    · simp [upsert, hb, ih]

theorem upsert_find_ne (hkey : ∀ b, key (f b) = key b) (hfresh : key fresh = k) (hj : j ≠ k)
    (bs : List β) : (upsert key k fresh f bs).find? (fun b => key b = j) =
      bs.find? fun b => key b = j := by
  induction bs with
  | nil => simp [upsert, hkey, hfresh, hj.symm]
  | cons b bs ih =>
    by_cases hb : key b = k
    · simp [upsert, hb, hkey, hj.symm]
    · simp [upsert, hb, find?_cons, ih]

theorem upsert_keys (hkey : ∀ b, key (f b) = key b) (hfresh : key fresh = k) (bs : List β) :
    (upsert key k fresh f bs).map key = if k ∈ bs.map key then bs.map key else bs.map key ++ [k] := by
  induction bs with
  | nil => simp [upsert, hkey, hfresh]
  | cons b bs ih =>
    by_cases hb : key b = k
    · simp [upsert, hb, hkey]
    · have hne : k ≠ key b := fun h => hb h.symm
      simp only [upsert, hb, if_false, map_cons, ih, mem_cons, hne, false_or]
      split <;> rfl

theorem upsert_nodup (hkey : ∀ b, key (f b) = key b) (hfresh : key fresh = k) {bs : List β}
    (h : (bs.map key).Nodup) : ((upsert key k fresh f bs).map key).Nodup := by
  rw [upsert_keys hkey hfresh]
  split
  case isTrue => exact h
  case isFalse hk =>
    rw [nodup_append]
    refine ⟨h, nodup_singleton _, ?_⟩
    intro a ha b hb hab
    rw [mem_singleton.mp hb] at hab
    exact hk (hab ▸ ha)

theorem upsert_forall {P : β → Prop} {bs : List β} (hbs : ∀ b ∈ bs, P b) (hfresh : P fresh)
    (hf : ∀ b, P b → P (f b)) : ∀ b ∈ upsert key k fresh f bs, P b := by
  induction bs with
  | nil => simpa [upsert] using hf fresh hfresh
  | cons b bs ih =>
    have hb := hbs b (mem_cons_self ..)
    have htail : ∀ b ∈ bs, P b := fun b' hb' => hbs b' (mem_cons_of_mem _ hb')
    simp only [upsert]
    split
    · exact forall_mem_cons.mpr ⟨hf b hb, htail⟩
    · exact forall_mem_cons.mpr ⟨hb, ih htail⟩

end maps

def latest {κ : Type} (q : κ → Bool) (ps : List (κ × Int64)) : Option Int64 :=
  ps.foldl (fun acc p => if q p.1 then some p.2 else acc) none

section latest

variable {κ : Type} {q q' : κ → Bool} {ps : List (κ × Int64)}

theorem latest_concat (p : κ × Int64) :
    latest q (ps ++ [p]) = if q p.1 then some p.2 else latest q ps := by
  simp only [latest, foldl_append, foldl_cons, foldl_nil]

theorem latest_none (h : ∀ p ∈ ps, q p.1 = false) : latest q ps = none := by
  induction ps using List.reverseRecOn with
  | nil => rfl
  | append_singleton ps p ih =>
    have hp := h p (by simp)
    rw [latest_concat, hp, if_neg Bool.false_ne_true]
    exact ih fun p' hp' => h p' (mem_append_left _ hp')

theorem latest_some {v : Int64} (h : ∃ p ∈ ps, q p.1 = true) (hv : ∀ p ∈ ps, q p.1 = true → p.2 = v) :
    latest q ps = some v := by
  induction ps using List.reverseRecOn with
  | nil =>
    obtain ⟨_, hp, _⟩ := h
    cases hp
  | append_singleton ps p ih =>
    rw [latest_concat]
    split
    case isTrue hq => rw [hv p (by simp) hq]
    case isFalse hq =>
      apply ih
      · obtain ⟨p', hp', hq'⟩ := h
        rcases mem_append.mp hp' with hp' | hp'
        · exact ⟨p', hp', hq'⟩
        · rw [mem_singleton.mp hp'] at hq'
          exact absurd hq' hq
      · intro p' hp' hq'
        exact hv p' (mem_append_left _ hp') hq'

end latest

def forClient (email : String) (isDown : Bool) : Slot → Bool
  | .client e d => e = email && d = isDown
  | .traffic _ _ _ => false

def forTag (tag : String) (isDown : Bool) : Slot → Bool
  | .traffic _ t d => t = tag && d = isDown
  | .client _ _ => false

def kindOf (tag : String) (p : Slot × Int64) : Option Bool :=
  match p.1 with
  | .traffic inbound t _ => if t = tag then some inbound else none
  | .client _ _ => none

def emailField (ps : List (Slot × Int64)) (email : String) (isDown : Bool) : Int64 :=
  (latest (forClient email isDown) ps).getD 0

def tagField (ps : List (Slot × Int64)) (tag : String) (isDown : Bool) : Int64 :=
  (latest (forTag tag isDown) ps).getD 0

def emailRow (ps : List (Slot × Int64)) (email : String) : ClientTraffic :=
  ⟨email, emailField ps email false, emailField ps email true⟩

def tagRow (ps : List (Slot × Int64)) (tag : String) : Option Traffic :=
  (ps.findSome? (kindOf tag)).map fun inbound =>
    ⟨inbound, !inbound, tag, tagField ps tag false, tagField ps tag true⟩

def hasEmail (ps : List (Slot × Int64)) (email : String) : Bool :=
  ps.any fun p => forClient email false p.1 || forClient email true p.1

def emailsOf (ps : List (Slot × Int64)) : List ClientTraffic :=
  ps.foldl (fun m p => recordEmail p m) []

def tagsOf (ps : List (Slot × Int64)) : List Traffic :=
  ps.foldl (fun m p => recordTag p m) []

section records

variable {ps : List (Slot × Int64)}

theorem emailsOf_concat (p : Slot × Int64) : emailsOf (ps ++ [p]) = recordEmail p (emailsOf ps) := by
  simp only [emailsOf, foldl_append, foldl_cons, foldl_nil]

theorem tagsOf_concat (p : Slot × Int64) : tagsOf (ps ++ [p]) = recordTag p (tagsOf ps) := by
  simp only [tagsOf, foldl_append, foldl_cons, foldl_nil]

theorem set_email (isDown : Bool) (v : Int64) (r : ClientTraffic) : (r.set isDown v).email = r.email := by
  cases isDown <;> rfl

theorem set_tag (isDown : Bool) (v : Int64) (r : Traffic) : (r.set isDown v).tag = r.tag := by
  cases isDown <;> rfl

theorem emailsOf_nodup : ((emailsOf ps).map (·.email)).Nodup := by
  induction ps using List.reverseRecOn with
  | nil => exact nodup_nil
  | append_singleton ps p ih =>
    rw [emailsOf_concat]
    obtain ⟨sl, v⟩ := p
    cases sl with
    | traffic => exact ih
    | client email isDown =>
      simp only [recordEmail]
      exact upsert_nodup (set_email isDown v) (by rfl) ih

theorem emailRow_concat_client (email : String) (isDown : Bool) (v : Int64) :
    emailRow (ps ++ [(.client email isDown, v)]) email = (emailRow ps email).set isDown v := by
  cases isDown <;> simp [emailRow, emailField, latest_concat, forClient, ClientTraffic.set]

theorem emailRow_concat_other {email : String} {p : Slot × Int64}
    (h : ∀ isDown, forClient email isDown p.1 = false) :
    emailRow (ps ++ [p]) email = emailRow ps email := by
  simp [emailRow, emailField, latest_concat, h]

theorem emailRow_fresh {email : String} (h : hasEmail ps email = false) :
    emailRow ps email = ⟨email, 0, 0⟩ := by
  have hnone : ∀ isDown, latest (forClient email isDown) ps = none := by
    intro isDown
    apply latest_none
    intro p hp
    have hp' := any_eq_false.mp h p hp
    cases isDown <;> simp_all
  simp [emailRow, emailField, hnone]

theorem find_email (ps : List (Slot × Int64)) (email : String) :
    (emailsOf ps).find? (fun r => r.email = email) =
    if hasEmail ps email then some (emailRow ps email) else none := by
  induction ps using List.reverseRecOn with
  | nil => rfl
  | append_singleton ps p ih =>
    rw [emailsOf_concat]
    obtain ⟨sl, v⟩ := p
    have hskip (h : ∀ isDown, forClient email isDown sl = false) :
        (if hasEmail (ps ++ [(sl, v)]) email then some (emailRow (ps ++ [(sl, v)]) email) else none) =
          if hasEmail ps email then some (emailRow ps email) else none := by
      have hsame : hasEmail (ps ++ [(sl, v)]) email = hasEmail ps email := by
        simp [hasEmail, any_append, h]
      rw [emailRow_concat_other h, hsame]
    cases sl with
    | traffic => exact ih.trans (hskip fun _ => rfl).symm
    | client e isDown =>
      rcases eq_or_ne e email with rfl | hne
      · have hseen : hasEmail (ps ++ [(.client e isDown, v)]) e = true := by
          cases isDown <;> simp [hasEmail, forClient]
        have hrow : ((emailsOf ps).find? fun r => r.email = e).getD ⟨e, 0, 0⟩ = emailRow ps e := by
          rw [ih]
          cases hh : hasEmail ps e with
          | true => rfl
          | false => exact (emailRow_fresh hh).symm
        rw [hseen, if_pos rfl, emailRow_concat_client, ← hrow]
        simp only [recordEmail]
        exact upsert_find_self (set_email isDown v) (by rfl) _
      · rw [hskip fun d => by simp [forClient, hne], ← ih]
        exact upsert_find_ne (set_email isDown v) (by rfl) hne.symm _

theorem tagRow_concat_tag {tag : String} {inbound isDown : Bool} {v : Int64} :
    tagRow (ps ++ [(.traffic inbound tag isDown, v)]) tag =
      some (((tagRow ps tag).getD ⟨inbound, !inbound, tag, 0, 0⟩).set isDown v) := by
  have hfresh : ps.findSome? (kindOf tag) = none → ∀ d, latest (forTag tag d) ps = none := by
    intro h d
    apply latest_none
    intro p hp
    have hp := findSome?_eq_none_iff.mp h p hp
    obtain ⟨sl, w⟩ := p
    cases sl with
    | client => rfl
    | traffic i t d' => simpa [kindOf, forTag] using fun ht : t = tag => absurd hp (by simp [kindOf, ht])
  cases hk : ps.findSome? (kindOf tag) with
  | none => cases isDown <;> simp [tagRow, findSome?_append, hk, kindOf, tagField, latest_concat,
      forTag, hfresh hk, Traffic.set]
  | some k => cases isDown <;> simp [tagRow, findSome?_append, hk, tagField, latest_concat,
      forTag, Traffic.set]

theorem tagRow_concat_other {tag : String} {p : Slot × Int64} (h : ∀ isDown, forTag tag isDown p.1 = false) :
    tagRow (ps ++ [p]) tag = tagRow ps tag := by
  have hkind : kindOf tag p = none := by
    obtain ⟨sl, w⟩ := p
    cases sl with
    | client => rfl
    | traffic i t d => simpa [kindOf, forTag] using h d
  simp [tagRow, findSome?_append, hkind, tagField, latest_concat, h]

theorem find_tag {tag : String} (htag : tag ≠ "api") :
    (tagsOf ps).find? (fun r => r.tag = tag) = tagRow ps tag := by
  induction ps using List.reverseRecOn with
  | nil => rfl
  | append_singleton ps p ih =>
    rw [tagsOf_concat]
    obtain ⟨sl, v⟩ := p
    cases sl with
    | client => exact ih.trans (tagRow_concat_other fun _ => rfl).symm
    | traffic inbound t isDown =>
      rcases eq_or_ne t tag with rfl | hne
      · rw [tagRow_concat_tag, ← ih]
        simp only [recordTag, htag, if_false]
        exact upsert_find_self (set_tag isDown v) (by rfl) _
      · rw [tagRow_concat_other fun d => by simp [forTag, hne], ← ih]
        simp only [recordTag]
        split
        · rfl
        · exact upsert_find_ne (set_tag isDown v) (by rfl) hne.symm _

theorem find_api : (tagsOf ps).find? (fun r => r.tag = "api") = none := by
  induction ps using List.reverseRecOn with
  | nil => rfl
  | append_singleton ps p ih =>
    rw [tagsOf_concat]
    obtain ⟨sl, v⟩ := p
    cases sl with
    | client => exact ih
    | traffic inbound t isDown =>
      simp only [recordTag]
      split
      case isTrue => exact ih
      case isFalse hne => rw [upsert_find_ne (set_tag isDown v) (by rfl) (Ne.symm hne), ih]

theorem tagsOf_nonneg (h : ∀ p ∈ ps, 0 ≤ p.2) : ∀ r ∈ tagsOf ps, 0 ≤ r.up ∧ 0 ≤ r.down := by
  induction ps using List.reverseRecOn with
  | nil => exact fun _ hr => absurd hr (not_mem_nil)
  | append_singleton ps p ih =>
    have ih := ih fun p hp => h p (mem_append_left _ hp)
    have hp := h p (by simp)
    rw [tagsOf_concat]
    obtain ⟨sl, v⟩ := p
    cases sl with
    | client => exact ih
    | traffic inbound t isDown =>
      simp only [recordTag]
      split
      · exact ih
      · apply upsert_forall ih ⟨Int64.le_refl 0, Int64.le_refl 0⟩
        intro r hr
        cases isDown with
        | false => exact ⟨hp, hr.2⟩
        | true => exact ⟨hr.1, hp⟩

theorem emailsOf_nonneg (h : ∀ p ∈ ps, 0 ≤ p.2) : ∀ r ∈ emailsOf ps, 0 ≤ r.up ∧ 0 ≤ r.down := by
  induction ps using List.reverseRecOn with
  | nil => exact fun _ hr => absurd hr (not_mem_nil)
  | append_singleton ps p ih =>
    have ih := ih fun p hp => h p (mem_append_left _ hp)
    have hp := h p (by simp)
    rw [emailsOf_concat]
    obtain ⟨sl, v⟩ := p
    cases sl with
    | traffic => exact ih
    | client email isDown =>
      apply upsert_forall ih ⟨Int64.le_refl 0, Int64.le_refl 0⟩
      intro r hr
      cases isDown with
      | false => exact ⟨hp, hr.2⟩
      | true => exact ⟨hr.1, hp⟩

end records

section pieces

variable {last : String → Option Int64} {stats : List Stat} {q : Slot → Bool} {name : String}

theorem mem_pieces {p : Slot × Int64} : p ∈ stats.filterMap (piece last) ↔
    ∃ stat ∈ stats, slot stat.name = some p.1 ∧ delta last stat = some p.2 := by
  obtain ⟨sl, v⟩ := p
  simp only [mem_filterMap, piece, Option.bind_eq_some_iff, Option.map_eq_some_iff, Prod.mk.injEq]
  constructor
  · rintro ⟨stat, hstat, v', hv, sl', hsl, rfl, rfl⟩
    exact ⟨stat, hstat, hsl, hv⟩
  · rintro ⟨stat, hstat, hsl, hv⟩
    exact ⟨stat, hstat, v, hv, sl, hsl, rfl, rfl⟩

theorem latest_pieces (hnodup : (stats.map (·.name)).Nodup)
    (hown : ∀ stat ∈ stats, ∀ sl, slot stat.name = some sl → q sl = true → stat.name = name)
    (hname : ∃ sl, slot name = some sl ∧ q sl = true) :
    latest q (stats.filterMap (piece last)) = (stats.find? (·.name = name)).bind (delta last) := by
  have howner : ∀ p ∈ stats.filterMap (piece last), q p.1 = true →
      ∃ stat ∈ stats, stat.name = name ∧ delta last stat = some p.2 := by
    intro p hp hq
    obtain ⟨stat, hstat, hsl, hv⟩ := mem_pieces.mp hp
    exact ⟨stat, hstat, hown stat hstat p.1 hsl hq, hv⟩
  cases hfind : stats.find? (·.name = name) with
  | none =>
    apply latest_none
    intro p hp
    rw [Bool.eq_false_iff]
    intro hq
    obtain ⟨stat, hstat, hn, -⟩ := howner p hp hq
    exact absurd hn (by simpa using find?_eq_none.mp hfind stat hstat)
  | some stat =>
    have hstat := mem_of_find?_eq_some hfind
    have hn : stat.name = name := by simpa using find?_some hfind
    have huniq : ∀ p ∈ stats.filterMap (piece last), q p.1 = true → delta last stat = some p.2 := by
      intro p hp hq
      obtain ⟨stat', hstat', hn', hv⟩ := howner p hp hq
      rwa [inj_on_of_nodup_map hnodup hstat' hstat (hn'.trans hn.symm)] at hv
    rw [Option.bind_some]
    cases hv : delta last stat with
    | none =>
      apply latest_none
      intro p hp
      rw [Bool.eq_false_iff]
      intro hq
      have hp := huniq p hp hq
      rw [hv] at hp
      cases hp
    | some v =>
      obtain ⟨sl, hsl, hq⟩ := hname
      apply latest_some
      · exact ⟨(sl, v), mem_pieces.mpr ⟨stat, hstat, hn ▸ hsl, hv⟩, hq⟩
      · intro p hp hq
        have hp := huniq p hp hq
        rw [hv] at hp
        exact (Option.some.inj hp).symm

end pieces

end Xray

end QuiPanel
