import QuiPanel.Text
import QuiPanel.Library.Diff
import QuiPanel.Library.Fresh

namespace QuiPanel

namespace OutboundSub

open KeyedDiff Text Fresh List

structure Unicode where
  letterOrNumber : Char → Bool
  toLower : Char → Char

structure ParseResult where
  tag : String
  identity : String
  deriving DecidableEq

structure IdentityMap where
  entries : List (String × String)
  keys : (entries.map Prod.fst).Nodup
  injective : (entries.map Prod.snd).Nodup
  nonempty : ∀ e ∈ entries, e.2 ≠ ""

structure OutboundSubscription where
  id : Int
  tagPrefix : String
  linkIdentities : IdentityMap
  lastFetchedOutbounds : List String
  lastError : String

def numbered (candidate : String) : Nat → String
  | 0 => candidate
  | k + 1 => candidate ++ "-" ++ Nat.repr (k + 1)

theorem numbered_injective (candidate : String) : Function.Injective (numbered candidate) := by
  have heq : numbered candidate = numberedBy "-" candidate := by
    funext k
    cases k <;> rfl
  rw [heq]
  exact numberedBy_injective (by decide) candidate

def dashed : Suffix String := ⟨numbered, fun _ => rfl, numbered_injective⟩

def replaceRuns (keep : Char → Bool) (inRun : Bool) : List Char → List Char
  | [] => []
  | c :: cs =>
    if keep c then c :: replaceRuns keep false cs
    else if inRun then replaceRuns keep true cs
    else '-' :: replaceRuns keep true cs

def trimDashes (cs : List Char) : List Char := (cs.dropWhile (· = '-')).rdropWhile (· = '-')

def collapseDashes : List Char → List Char
  | '-' :: '-' :: cs => collapseDashes ('-' :: cs)
  | c :: cs => c :: collapseDashes cs
  | [] => []

variable (u : Unicode)

def slugRemark (remark : String) : String :=
  let s := (trimSpace remark).toList.map u.toLower
  String.ofList (collapseDashes (trimDashes (replaceRuns u.letterOrNumber false s)))

def trimSuffixDash (s : String) : String :=
  if s.toList.getLast? = some '-' then String.ofList s.toList.dropLast else s

def suggestTag (tagPrefix remark : String) (idx : Nat) : String :=
  let slug := slugRemark u remark
  let base := if slug = "" then Nat.repr idx else slug
  let p := trimSuffixDash tagPrefix
  if p ≠ "" then p ++ "-" ++ base else base

variable (sub : OutboundSubscription) (parsed : List ParseResult)

def storedTag (identity : String) : Option String :=
  ((lookup Prod.fst sub.linkIdentities.entries identity).map Prod.snd).filter (· ≠ "")

def prevTagByIndex (i : Nat) : Option String := (sub.lastFetchedOutbounds[i]?).filter (· ≠ "")

def freshTag (i : Nat) (l : ParseResult) : String :=
  let tagPrefix := if sub.tagPrefix = "" then "sub" ++ toString sub.id ++ "-" else sub.tagPrefix
  suggestTag u tagPrefix l.tag i

def request (i : Nat) (l : ParseResult) : Request String :=
  ⟨storedTag sub l.identity, (prevTagByIndex sub i).getD (freshTag u sub i l)⟩

def requests : List (Request String) := parsed.mapIdx (request u sub)

def assignStableTags : List String := assign dashed [] ((requests u sub parsed).map Request.candidate)

theorem numbered_ne_empty {candidate : String} (h : candidate ≠ "") (k : Nat) :
    numbered candidate k ≠ "" := by
  cases k with
  | zero => exact h
  | succ k =>
    intro he
    rw [numbered, String.append_eq_empty_iff, String.append_eq_empty_iff] at he
    exact h he.1.1

theorem suggestTag_ne_empty (tagPrefix remark : String) (idx : Nat) :
    suggestTag u tagPrefix remark idx ≠ "" := by
  have hbase : (if slugRemark u remark = "" then Nat.repr idx else slugRemark u remark) ≠ "" := by
    split
    · exact Nat.repr_ne_empty
    · assumption
  rw [suggestTag]
  split
  · intro he
    exact hbase (String.append_eq_empty_iff.mp he).2
  · exact hbase

theorem candidate_ne_empty {r : Request String} (h : r ∈ requests u sub parsed) : r.candidate ≠ "" := by
  obtain ⟨i, hi, rfl⟩ := mem_mapIdx.mp h
  have hfilter : ∀ {o : Option String} {t : String}, o.filter (· ≠ "") = some t → t ≠ "" := by
    intro o t ht
    simpa using (Option.filter_eq_some_iff.mp ht).2
  rw [Request.candidate, request]
  cases hstored : storedTag sub parsed[i].identity with
  | some t => exact hfilter hstored
  | none =>
    cases hprev : prevTagByIndex sub i with
    | some t => exact hfilter hprev
    | none => exact suggestTag_ne_empty u _ _ _

theorem assigned_ne_empty {t : String} (h : t ∈ assignStableTags u sub parsed) : t ≠ "" := by
  obtain ⟨c, hc, k, rfl⟩ := mem_assign h
  obtain ⟨r, hr, rfl⟩ := mem_map.mp hc
  exact numbered_ne_empty (candidate_ne_empty u sub parsed hr) k

theorem length_assigned : (assignStableTags u sub parsed).length = parsed.length := by
  rw [assignStableTags, length_assign, length_map, requests, length_mapIdx]

theorem newIdent_sublist (tags : List String) (hlen : tags.length = parsed.length) :
    ((replaceAll Prod.fst [] ((parsed.map (·.identity)).zip tags)).map Prod.snd).Sublist tags := by
  have hsub := (@replaceAll_sublist _ _ _ Prod.fst [] ((parsed.map (·.identity)).zip tags)).map Prod.snd
  rwa [nil_append, map_snd_zip (by rw [length_map, hlen])] at hsub

def newIdent : IdentityMap where
  entries := replaceAll Prod.fst [] ((parsed.map (·.identity)).zip (assignStableTags u sub parsed))
  keys := nodup_replaceAll nodup_nil
  injective := assign_nodup.sublist (newIdent_sublist parsed _ (length_assigned u sub parsed))
  nonempty _ he := assigned_ne_empty u sub parsed
    ((newIdent_sublist parsed _ (length_assigned u sub parsed)).subset (mem_map_of_mem he))

theorem newIdent_entries : (newIdent u sub parsed).entries =
    replaceAll Prod.fst [] ((parsed.map (·.identity)).zip (assignStableTags u sub parsed)) :=
  rfl

def fetchAndStore : Except String (List ParseResult) →
    OutboundSubscription × Except String (List String)
  | .error e => ({ sub with lastError := e }, .error e)
  | .ok parsed =>
    let assigned := assignStableTags u sub parsed
    ({ sub with
        linkIdentities := newIdent u sub parsed
        lastFetchedOutbounds := assigned
        lastError := "" }, .ok assigned)

def fetches (downloads : List (Except String (List ParseResult))) : OutboundSubscription :=
  downloads.foldl (fun sub d => (fetchAndStore u sub d).1) sub

structure TagsStable : Prop where
  distinct : (assignStableTags u sub parsed).Nodup
  kept : List.Forall₂ (fun l tag => ∀ old, storedTag sub l.identity = some old → tag = old) parsed
    (assignStableTags u sub parsed)
  refetched : ∀ later, (∀ d ∈ later, d = .ok parsed ∨ ∃ e, d = .error e) →
    (fetchAndStore u (fetches u sub (.ok parsed :: later)) (.ok parsed)).2 =
      (fetchAndStore u sub (.ok parsed)).2

section stability

variable {u sub parsed}

theorem stored_eq {sub : OutboundSubscription} {identity tag : String} :
    storedTag sub identity = some tag ↔ (identity, tag) ∈ sub.linkIdentities.entries := by
  rw [storedTag, Option.filter_eq_some_iff, Option.map_eq_some_iff]
  constructor
  · rintro ⟨⟨e, he, rfl⟩, _⟩
    obtain ⟨hmem, hid⟩ := lookup_mem he
    exact hid ▸ hmem
  · intro hmem
    refine ⟨⟨_, (lookup_some sub.linkIdentities.keys).mpr ⟨hmem, rfl⟩, rfl⟩, ?_⟩
    simpa using sub.linkIdentities.nonempty _ hmem

theorem stored_injective {identity identity' tag : String} (h : storedTag sub identity = some tag)
    (h' : storedTag sub identity' = some tag) : identity = identity' := by
  rw [stored_eq] at h h'
  exact congrArg Prod.fst (inj_on_of_nodup_map sub.linkIdentities.injective h h' rfl)

theorem requests_reserved :
    (requests u sub parsed).map (·.reserved) = parsed.map fun l => storedTag sub l.identity := by
  apply ext_getElem
  · simp [requests]
  · intro i hi hi'
    simp [requests, request]

theorem reserved_eq :
    (requests u sub parsed).filterMap (·.reserved) = (parsed.map (·.identity)).filterMap (storedTag sub) := by
  have hid : ∀ rs : List (Request String), rs.filterMap (·.reserved) = (rs.map (·.reserved)).filterMap id := by
    intro rs
    rw [filterMap_map, Function.id_comp]
  rw [hid, requests_reserved, filterMap_map, filterMap_map, Function.id_comp]
  rfl

theorem stored_nodup (h : (parsed.map (·.identity)).Nodup) :
    ((requests u sub parsed).filterMap (·.reserved)).Nodup := by
  rw [reserved_eq]
  exact h.filterMap fun _ _ _ hstored hstored' => stored_injective hstored hstored'

theorem honoured_iff_kept :
    Honoured (requests u sub parsed) (assignStableTags u sub parsed) ↔
      List.Forall₂ (fun l tag => ∀ old, storedTag sub l.identity = some old → tag = old) parsed
        (assignStableTags u sub parsed) := by
  have hmap : ∀ (rs : List (Request String)) ts, Honoured rs ts ↔
      List.Forall₂ (fun (o : Option String) t => ∀ old, o = some old → t = old) (rs.map (·.reserved)) ts := by
    intro rs ts
    rw [List.forall₂_map_left_iff]
    rfl
  rw [hmap, requests_reserved, List.forall₂_map_left_iff]

theorem kept_iff (h : (parsed.map (·.identity)).Nodup) :
    List.Forall₂ (fun l tag => ∀ old, storedTag sub l.identity = some old → tag = old) parsed
        (assignStableTags u sub parsed) ↔
      ¬ Usurped dashed [] (requests u sub parsed) := by
  rw [← honoured_iff_kept, assignStableTags, honoured_iff]
  exact ⟨fun hall => hall.2.2, fun husurped => ⟨stored_nodup h, fun _ _ => not_mem_nil, husurped⟩⟩

theorem candidates_settled {tags : List String} {sub' : OutboundSubscription}
    (hstored : List.Forall₂ (fun l tag => storedTag sub' l.identity = some tag) parsed tags) :
    (requests u sub' parsed).map Request.candidate = tags := by
  apply ext_getElem
  · rw [length_map, requests, length_mapIdx, hstored.length_eq]
  · intro i hi hi'
    have hi'' : i < parsed.length := by rwa [hstored.length_eq]
    have hget := List.forall₂_iff_get.mp hstored
    have htag := hget.2 i hi'' hi'
    simp only [get_eq_getElem] at htag
    simp [requests, request, Request.candidate, htag]

theorem zip_keys (u : Unicode) (sub : OutboundSubscription) (parsed : List ParseResult) :
    ((parsed.map (·.identity)).zip (assignStableTags u sub parsed)).map Prod.fst =
      parsed.map (·.identity) :=
  map_fst_zip (by rw [length_map, length_assigned])

theorem stored_newIdent (h : (parsed.map (·.identity)).Nodup) {sub' : OutboundSubscription}
    (hsub : sub'.linkIdentities = newIdent u sub parsed) :
    List.Forall₂ (fun l tag => storedTag sub' l.identity = some tag) parsed
      (assignStableTags u sub parsed) := by
  rw [← zip_keys u sub parsed] at h
  refine List.forall₂_iff_get.mpr ⟨(length_assigned u sub parsed).symm, ?_⟩
  intro i hi hi'
  have hpair : ((parsed.get ⟨i, hi⟩).identity, (assignStableTags u sub parsed).get ⟨i, hi'⟩) ∈
      (parsed.map (·.identity)).zip (assignStableTags u sub parsed) := by
    refine mem_iff_getElem.mpr ⟨i, ?_, ?_⟩
    · rw [length_zip, length_map]
      exact lt_min hi hi'
    · simp
  have hlook : lookup Prod.fst (newIdent u sub parsed).entries (parsed.get ⟨i, hi⟩).identity =
      some ((parsed.get ⟨i, hi⟩).identity, (assignStableTags u sub parsed).get ⟨i, hi'⟩) := by
    rw [newIdent_entries, lookup_replaceAll h, (lookup_some h).mpr ⟨hpair, rfl⟩]
    rfl
  rw [stored_eq, hsub]
  exact (lookup_mem hlook).1

theorem assign_settled (h : (parsed.map (·.identity)).Nodup) {sub' : OutboundSubscription}
    (hsub : sub'.linkIdentities = newIdent u sub parsed) :
    assignStableTags u sub' parsed = assignStableTags u sub parsed := by
  rw [assignStableTags, candidates_settled (stored_newIdent h hsub)]
  exact assign_self assign_nodup fun _ _ => not_mem_nil

theorem newIdent_congr {sub' : OutboundSubscription}
    (h : assignStableTags u sub' parsed = assignStableTags u sub parsed) :
    newIdent u sub' parsed = newIdent u sub parsed := by
  simp only [newIdent, h]

theorem fetches_settled (h : (parsed.map (·.identity)).Nodup)
    {later : List (Except String (List ParseResult))}
    (hlater : ∀ d ∈ later, d = .ok parsed ∨ ∃ e, d = .error e) {sub' : OutboundSubscription}
    (hsub : sub'.linkIdentities = newIdent u sub parsed) :
    (fetches u sub' later).linkIdentities = newIdent u sub parsed := by
  induction later generalizing sub' with
  | nil => exact hsub
  | cons d later ih =>
    have hrest : ∀ d ∈ later, d = .ok parsed ∨ ∃ e, d = .error e := fun d hd =>
      hlater d (mem_cons_of_mem _ hd)
    refine ih hrest ?_
    rcases hlater d mem_cons_self with rfl | ⟨e, rfl⟩
    · exact newIdent_congr (assign_settled h hsub)
    · exact hsub

theorem exists_duplicate (h : ¬ (parsed.map (·.identity)).Nodup) :
    ∃ before first between last after, parsed = before ++ first :: (between ++ last :: after) ∧
      first.identity = last.identity ∧ last.identity ∉ after.map (·.identity) := by
  induction parsed with
  | nil => exact absurd nodup_nil h
  | cons l parsed ih =>
    by_cases hrest : (parsed.map (·.identity)).Nodup
    · rw [map_cons, nodup_cons, not_and] at h
      have hmem : l.identity ∈ parsed.map (·.identity) := by
        by_contra hnot
        exact h hnot hrest
      obtain ⟨last, hlast, hsame⟩ := mem_map.mp hmem
      obtain ⟨between, after, rfl⟩ := append_of_mem hlast
      rw [map_append, map_cons, nodup_append, nodup_cons] at hrest
      exact ⟨[], l, between, last, after, rfl, hsame.symm, hrest.2.1.1⟩
    · obtain ⟨before, first, between, last, after, rfl, hsame, hlast⟩ := ih hrest
      exact ⟨l :: before, first, between, last, after, rfl, hsame, hlast⟩

theorem split_at {α β : Type} {before after : List α} {a : α} {bs : List β}
    (h : bs.length = (before ++ a :: after).length) :
    ∃ before' b after', bs = before' ++ b :: after' ∧ before'.length = before.length ∧
      after'.length = after.length := by
  rw [length_append, length_cons] at h
  have hlt : before.length < bs.length := by omega
  refine ⟨bs.take before.length, bs[before.length], bs.drop (before.length + 1), ?_, ?_, ?_⟩
  · rw [← drop_eq_getElem_cons hlt, take_append_drop]
  · rw [length_take]
    omega
  · rw [length_drop]
    omega

theorem identities_nodup {sub' : OutboundSubscription} (hsub : sub'.linkIdentities = newIdent u sub parsed)
    (hsame : assignStableTags u sub' parsed = assignStableTags u sub parsed) :
    (parsed.map (·.identity)).Nodup := by
  by_contra hdup
  obtain ⟨before, first, between, last, after, hsplit, hid, hlast⟩ := exists_duplicate hdup
  have hlen := (length_assigned u sub parsed).trans (congrArg List.length hsplit)
  obtain ⟨tags, tag, rest, htags, hbefore, hrest⟩ := split_at hlen
  obtain ⟨tags', tag', rest', rfl, hbetween, hafter⟩ := split_at hrest
  have hnodup : (assignStableTags u sub parsed).Nodup := assign_nodup
  rw [htags] at hnodup
  obtain ⟨_, hnodup', hdisjoint⟩ := nodup_append.mp hnodup
  have hzip : (parsed.map (·.identity)).zip (assignStableTags u sub parsed) =
      ((before.map (·.identity)).zip tags ++ (first.identity, tag) ::
        (between.map (·.identity)).zip tags') ++ (last.identity, tag') ::
          (after.map (·.identity)).zip rest' := by
    rw [htags, hsplit, map_append, map_cons, map_append, map_cons,
      zip_append (by rw [length_map, hbefore]), zip_cons_cons,
      zip_append (by rw [length_map, hbetween]), zip_cons_cons, append_assoc,
      cons_append]
  have hlook : lookup Prod.fst (newIdent u sub parsed).entries last.identity =
      some (last.identity, tag') := by
    rw [newIdent_entries, hzip]
    apply lookup_replaceAll_last
    rw [map_fst_zip (by rw [length_map, hafter])]
    exact hlast
  have hstored : storedTag sub' first.identity = some tag' := by
    rw [stored_eq, hsub, hid]
    exact (lookup_mem hlook).1
  have hcandidates : (requests u sub' parsed).map Request.candidate =
      (before.mapIdx (request u sub')).map Request.candidate ++
        tag' :: ((between ++ last :: after).mapIdx fun i => request u sub' (i + 1 + before.length)).map
          Request.candidate := by
    rw [requests, hsplit, mapIdx_append, mapIdx_cons, map_append, map_cons]
    simp [request, Request.candidate, hstored]
  have hassign := hsame
  rw [assignStableTags, hcandidates, assign_append, htags, assign] at hassign
  obtain ⟨htaken, hrest'⟩ := append_inj hassign (by simp [hbefore])
  have hpick := (List.cons.inj hrest').1
  have hfree : tag' ∉ tags := fun hmem => hdisjoint tag' hmem tag' (by simp) rfl
  rw [htaken, pick_of_not_mem (by simpa using hfree)] at hpick
  exact (nodup_cons.mp hnodup').1 (by simp [hpick])

theorem tags_stable_iff (u : Unicode) (sub : OutboundSubscription) (parsed : List ParseResult) :
    TagsStable u sub parsed ↔
      (parsed.map (·.identity)).Nodup ∧ ¬ Usurped dashed [] (requests u sub parsed) := by
  constructor
  · intro h
    have hsame := h.refetched [] fun _ hd => absurd hd not_mem_nil
    have hnodup := @identities_nodup u sub parsed (fetchAndStore u sub (.ok parsed)).1 rfl
      (Except.ok.inj hsame)
    exact ⟨hnodup, (kept_iff hnodup).mp h.kept⟩
  · rintro ⟨hnodup, husurped⟩
    refine ⟨assign_nodup, (kept_iff hnodup).mpr husurped, ?_⟩
    intro later hlater
    have hsub := @fetches_settled u sub parsed hnodup later hlater (fetchAndStore u sub (.ok parsed)).1 rfl
    exact congrArg Except.ok (assign_settled hnodup hsub)

def ascii : Unicode := ⟨Char.isAlphanum, Char.toLower⟩

def newSub : OutboundSubscription := ⟨1, "", ⟨[], nodup_nil, nodup_nil, by simp⟩, [], ""⟩

def knownSub : OutboundSubscription :=
  ⟨1, "", ⟨[("tokyo", "sub1-tokyo")], by decide, by decide, by decide⟩, ["sub1-tokyo"], ""⟩

def tokyo : ParseResult := ⟨"Tokyo", "tokyo"⟩

def osaka : ParseResult := ⟨"Osaka", "osaka"⟩

theorem tags_unstable :
    (assignStableTags ascii newSub [tokyo, tokyo] = ["sub1-tokyo", "sub1-tokyo-1"] ∧
      ¬ TagsStable ascii newSub [tokyo, tokyo]) ∧
    (assignStableTags ascii knownSub [osaka, tokyo] = ["sub1-tokyo", "sub1-tokyo-1"] ∧
      ¬ TagsStable ascii knownSub [osaka, tokyo]) := by
  refine ⟨⟨by decide +kernel, ?_⟩, by decide +kernel, ?_⟩
  · intro h
    have hsame := h.refetched [] fun _ hd => absurd hd not_mem_nil
    have htags : assignStableTags ascii (fetchAndStore ascii newSub (.ok [tokyo, tokyo])).1 [tokyo, tokyo] =
        assignStableTags ascii newSub [tokyo, tokyo] := Except.ok.inj hsame
    revert htags
    decide +kernel
  · intro h
    have htokyo := (List.forall₂_cons.mp (List.forall₂_cons.mp h.kept).2).1 "sub1-tokyo"
    revert htokyo
    decide +kernel

end stability

end OutboundSub

end QuiPanel
