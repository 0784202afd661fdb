import QuiPanel.OutboundSubscription
import QuiPanel.Library.Regex
import QuiPanel.Library.Table
import QuiPanel.Library.Territory
import QuiPanel.Library.Trace

namespace QuiPanel

namespace MergedOutbounds

open OutboundSub Keyed Text LeftmostFirst Territory List

variable {B : Type}

structure Outbound (B : Type) where
  tag : String
  body : B
  deriving DecidableEq

structure Link (B : Type) extends ParseResult where
  body : B

structure Template (B : Type) where
  outbounds : List (Outbound B)
  distinct : (outbounds.map (·.tag)).Nodup

structure Row (B : Type) where
  sub : OutboundSubscription
  enabled : Bool
  prepend : Bool
  priority : Int
  outbounds : List (Outbound B)
  stored : outbounds.map (·.tag) = sub.lastFetchedOutbounds
  distinct : sub.lastFetchedOutbounds.Nodup

abbrev Row.id (r : Row B) : Int := r.sub.id

abbrev Subs (B : Type) := Table (Row B) Row.id

section prefixes

def defaultPrefixRe : Regex Char :=
  .seq (.lit "sub".toList) (.seq (.group (.plus Char.isDigit)) (.lit "-".toList))

def findDefault (tagPrefix : String) : Option (List (List Char)) :=
  exec defaultPrefixRe tagPrefix.toList fun rest caps => if rest = [] then some caps else none

def atoi (digits : List Char) : Option Int :=
  let n := Nat.ofDigitChars 10 digits 0
  if n < 2 ^ 63 then some n else none

def defaultNumber (tagPrefix : String) : Option Int :=
  (findDefault tagPrefix).bind fun caps => caps.head?.bind atoi

def reserved (sub : OutboundSubscription) : Option Int :=
  if sub.tagPrefix = "" then some sub.id else defaultNumber sub.tagPrefix

theorem add_injective (c : Int) : Function.Injective fun k : Nat => c + k := fun k k' h => by simpa using h

theorem counted_zero (c : Int) : c + (0 : Nat) = c := add_zero c

def counting : Fresh.Suffix Int where
  at_ c k := c + k
  zero := counted_zero
  injective := add_injective

def defaultPrefixNumber (subs : List (Row B)) (excludeId : Int) : Int :=
  Fresh.pick counting ((subs.filter (·.id ≠ excludeId)).filterMap fun r => reserved r.sub) 1

def subPrefix (n : Int) : String := "sub" ++ toString n ++ "-"

def nextDefaultSubPrefix (t : Subs B) (excludeId : Int) : String :=
  subPrefix (defaultPrefixNumber t.rows excludeId)

def chosenPrefix (t : Subs B) (excludeId : Int) (tagPrefix : String) : String :=
  if trimSpace tagPrefix = "" then nextDefaultSubPrefix t excludeId else trimSpace tagPrefix

end prefixes

section service

variable (u : Unicode)

def noIdentities : IdentityMap := ⟨[], nodup_nil, nodup_nil, fun _ he => absurd he not_mem_nil⟩

def create (t : Subs B) (tagPrefix : String) (enabled prepend : Bool) : Subs B :=
  t.insert (fun id =>
    { sub := ⟨id, chosenPrefix t 0 tagPrefix, noIdentities, [], ""⟩
      enabled := enabled
      prepend := prepend
      priority := t.rows.length
      outbounds := []
      stored := rfl
      distinct := nodup_nil }) fun _ => rfl

def Row.edit (r : Row B) (tagPrefix : String) (enabled prepend : Bool) : Row B :=
  { r with
    sub := { r.sub with tagPrefix := tagPrefix }
    enabled := enabled
    prepend := prepend }

def update (t : Subs B) (id : Int) (tagPrefix : String) (enabled prepend : Bool) : Subs B :=
  t.modify (·.id = id) (·.edit (chosenPrefix t id tagPrefix) enabled prepend) fun _ => rfl

def delete (t : Subs B) (id : Int) : Subs B := t.delete (·.id = id)

def Row.fetch (r : Row B) : Except String (List (Link B)) → Row B
  | .error e => { r with sub := (fetchAndStore u r.sub (.error e)).1 }
  | .ok links =>
    let parsed := links.map Link.toParseResult
    { r with
      sub := (fetchAndStore u r.sub (.ok parsed)).1
      outbounds := (links.zip (assignStableTags u r.sub parsed)).map fun p => ⟨p.2, p.1.body⟩
      stored := by
        have hlen : (assignStableTags u r.sub parsed).length = links.length := by
          rw [length_assigned, length_map]
        rw [map_map]
        exact map_snd_zip (le_of_eq hlen)
      distinct := Fresh.assign_nodup }

def fetch (t : Subs B) (id : Int) (download : Except String (List (Link B))) : Subs B :=
  t.modify (·.id = id) (·.fetch u download) fun r => by cases download <;> rfl

def ahead (r r' : Row B) : Prop := r.priority < r'.priority ∨ (r.priority = r'.priority ∧ r.id ≤ r'.id)

instance (r r' : Row B) : Decidable (ahead r r') := inferInstanceAs (Decidable (_ ∨ _))

def ordered (t : Subs B) : List (Row B) := t.rows.insertionSort ahead

def swapped (ids : List Int) (i j : Nat) : List Int :=
  match ids[i]?, ids[j]? with
  | some a, some b => (ids.set i b).set j a
  | _, _ => ids

def neighbour (idx : Nat) (up : Bool) : Int := if up then idx - 1 else idx + 1

def renumber (t : Subs B) (ids : List Int) : Subs B :=
  t.modify (fun _ => true) (fun r => { r with priority := ids.idxOf r.id }) fun _ => rfl

def move (t : Subs B) (id : Int) (up : Bool) : Subs B :=
  let ids := (ordered t).map (·.id)
  match ids.findIdx? (· = id) with
  | none => t
  | some idx =>
    if neighbour idx up < 0 ∨ ids.length ≤ neighbour idx up then t
    else renumber t (swapped ids idx (neighbour idx up).toNat)

inductive Op (B : Type) where
  | create (tagPrefix : String) (enabled prepend : Bool)
  | update (id : Int) (tagPrefix : String) (enabled prepend : Bool)
  | delete (id : Int)
  | move (id : Int) (up : Bool)
  | fetch (id : Int) (download : Except String (List (Link B)))

def step (t : Subs B) : Op B → Subs B
  | .create tagPrefix enabled prepend => create t tagPrefix enabled prepend
  | .update id tagPrefix enabled prepend => update t id tagPrefix enabled prepend
  | .delete id => delete t id
  | .move id up => move t id up
  | .fetch id download => fetch u t id download

def history (t : Subs B) (ops : List (Op B)) : Subs B := ops.foldl (step u) t

def activeOutboundsSplit (t : Subs B) : List (Outbound B) × List (Outbound B) :=
  let subs := (ordered t).filter (·.enabled)
  ((subs.filter (·.prepend)).flatMap (·.outbounds), (subs.filter fun r => !r.prepend).flatMap (·.outbounds))

def mergeSubscriptionOutbounds (outboundConfigs : Except String (List (Outbound B)))
    (split : List (Outbound B) × List (Outbound B)) : Except String (List (Outbound B)) :=
  if split.1 = [] ∧ split.2 = [] then outboundConfigs
  else
    match outboundConfigs with
    | .error raw => .error raw
    | .ok template => .ok (split.1 ++ template ++ split.2)

end service

def Row.tags (r : Row B) : List String := r.sub.lastFetchedOutbounds

def active (t : Subs B) : List (Row B) := t.rows.filter (·.enabled)

structure Merged (template : List (Outbound B)) (t : Subs B) (merged : List (Outbound B)) : Prop where
  whole : ∃ pre post, merged = pre ++ template ++ post ∧
    (pre ++ post).Perm ((active t).flatMap (·.outbounds))
  distinct : (merged.map (·.tag)).Nodup

def Generated (template : List (Outbound B)) (t : Subs B) : Prop :=
  ∃ merged, mergeSubscriptionOutbounds (.ok template) (activeOutboundsSplit t) = .ok merged ∧
    Merged template t merged

structure Apart (template : List (Outbound B)) (t : Subs B) : Prop where
  pairs : (active t).Pairwise fun r r' => r.tags.Disjoint r'.tags
  template : ∀ r ∈ active t, (template.map (·.tag)).Disjoint r.tags

section merging

variable {t : Subs B} {template : List (Outbound B)}

theorem ordered_perm : (ordered t).Perm t.rows := perm_insertionSort _ _

theorem split_perm : ((activeOutboundsSplit t).1 ++ (activeOutboundsSplit t).2).Perm
    ((active t).flatMap (·.outbounds)) := by
  rw [activeOutboundsSplit, ← flatMap_append]
  refine ((filter_append_perm _ _).flatMap_right _).trans ?_
  exact (ordered_perm.filter _).flatMap_right _

theorem merge_ok : mergeSubscriptionOutbounds (.ok template) (activeOutboundsSplit t) =
    .ok ((activeOutboundsSplit t).1 ++ template ++ (activeOutboundsSplit t).2) := by
  rw [mergeSubscriptionOutbounds]
  split
  case isTrue h => rw [h.1, h.2, nil_append, append_nil]
  case isFalse => rfl

theorem tags_flatMap (rows : List (Row B)) :
    (rows.flatMap (·.outbounds)).map (·.tag) = (rows.map Row.tags).flatten := by
  rw [map_flatMap, flatMap_def]
  exact congrArg List.flatten (map_congr_left fun r _ => r.stored)

theorem distinct_iff (h : (template.map (·.tag)).Nodup) :
    (((activeOutboundsSplit t).1 ++ template ++ (activeOutboundsSplit t).2).map (·.tag)).Nodup ↔
      Apart template t := by
  have hperm := (split_perm (t := t)).map (·.tag)
  rw [map_append, tags_flatMap] at hperm
  have hsources : ∀ s ∈ (active t).map Row.tags, s.Nodup := by
    intro s hs
    obtain ⟨r, -, rfl⟩ := mem_map.mp hs
    exact r.distinct
  rw [map_append, map_append, nodup_merged hperm h hsources, pairwise_map,
    forall_mem_map]
  exact ⟨fun hapart => ⟨hapart.1, hapart.2⟩, fun hapart => ⟨hapart.pairs, hapart.template⟩⟩

theorem merged_iff_apart (h : (template.map (·.tag)).Nodup) : Generated template t ↔ Apart template t := by
  rw [Generated, merge_ok]
  constructor
  · rintro ⟨merged, hmerged, hall⟩
    obtain rfl := Except.ok.inj hmerged
    exact (distinct_iff h).mp hall.distinct
  · intro hapart
    exact ⟨_, rfl, ⟨_, _, rfl, split_perm⟩, (distinct_iff h).mpr hapart⟩

end merging

def effectivePrefix (sub : OutboundSubscription) : String :=
  if sub.tagPrefix = "" then subPrefix sub.id else sub.tagPrefix

def Led (tagPrefix : String) : Prop := trimSuffixDash tagPrefix ≠ ""

def root (tagPrefix : String) : List Char := (trimSuffixDash tagPrefix).toList ++ ['-']

def Row.root (r : Row B) : List Char := MergedOutbounds.root (effectivePrefix r.sub)

def Row.names (r : Row B) : List String := r.tags ++ r.sub.linkIdentities.entries.map Prod.snd

structure Separate (t : Subs B) : Prop where
  led : ∀ r ∈ t.rows, Led (effectivePrefix r.sub)
  rooted : ∀ r ∈ t.rows, Within r.root (r.names.map String.toList)
  diverge : ∀ r ∈ t.rows, ∀ r' ∈ t.rows, r.id ≠ r'.id → Diverge r.root r'.root

def Numbered (r : Row B) : Prop :=
  0 < r.id ∧ (r.sub.tagPrefix = "" ∨ ∃ m : Nat, m < 2 ^ 63 ∧ r.sub.tagPrefix = subPrefix m)

structure Clear (t : Subs B) (excludeId owner : Int) (tagPrefix : String) : Prop where
  led : Led (chosenPrefix t excludeId tagPrefix)
  others : ∀ r ∈ t.rows, r.id ≠ owner → (trimSpace tagPrefix = "" ∧ Numbered r) ∨
    Diverge (root (chosenPrefix t excludeId tagPrefix)) r.root

def Careful (t : Subs B) : Op B → Prop
  | .create tagPrefix _ _ => Clear t 0 t.next tagPrefix
  | .update id tagPrefix _ _ => Clear t id id tagPrefix ∧
      ∀ r ∈ t.rows, r.id = id → r.root = root (chosenPrefix t id tagPrefix) ∨ r.names = []
  | .delete _ => True
  | .move _ _ => True
  | .fetch _ _ => True

def Untouched (template : List (Outbound B)) (t : Subs B) : Prop :=
  ∀ o ∈ template, ∀ r ∈ active t, ¬ r.root <+: o.tag.toList

section numbering

variable {t : Subs B} {r : Row B} {excludeId : Int} {tagPrefix : String}

theorem atoi_repr {m : Nat} (h : m < 2 ^ 63) : atoi (Nat.repr m).toList = some (m : Int) := by
  have hdigits : (Nat.repr m).toList = Nat.toDigits 10 m := by simp [Nat.repr]
  rw [atoi, hdigits, Nat.ofDigitChars_ten_toDigits]
  exact if_pos h

theorem subPrefix_toList (m : Nat) :
    (subPrefix m).toList = "sub".toList ++ ((Nat.repr m).toList ++ "-".toList) := by
  have htoString : toString (m : Int) = Nat.repr m := rfl
  rw [subPrefix, htoString, String.toList_append, String.toList_append, append_assoc]

theorem defaultPrefixRe_matches {cs : List Char} {caps : List (List Char)}
    (h : Matches defaultPrefixRe cs caps) :
    ∃ ds, cs = "sub".toList ++ (ds ++ "-".toList) ∧ caps = [ds] := by
  cases h with
  | seq hsub h =>
    cases h with
    | seq hgroup hdash =>
      cases hsub
      cases hdash
      cases hgroup with
      | group hplus =>
        cases hplus
        exact ⟨_, rfl, rfl⟩

theorem findDefault_subPrefix (m : Nat) : findDefault (subPrefix m) = some [(Nat.repr m).toList] := by
  have hmatch : Matches defaultPrefixRe (subPrefix m).toList ([] ++ ([(Nat.repr m).toList] ++ [])) := by
    rw [subPrefix_toList]
    refine .seq (.lit _) (.seq (.group (.plus ?_ repr_isDigit)) (.lit _))
    exact fun h => Nat.repr_ne_empty (String.toList_inj.mp h)
  have hsome : (findDefault (subPrefix m)).isSome := by
    rw [findDefault, ← append_nil (subPrefix m).toList]
    exact exec_complete hmatch rfl
  obtain ⟨caps, hcaps⟩ := Option.isSome_iff_exists.mp hsome
  obtain ⟨cs, rest, caps', hsplit, hm, hk⟩ := exec_sound hcaps
  obtain ⟨ds, rfl, rfl⟩ := defaultPrefixRe_matches hm
  split at hk
  case isTrue hrest =>
    subst hrest
    rw [subPrefix_toList, append_nil, append_cancel_left_eq, append_cancel_right_eq] at hsplit
    rw [hcaps, ← Option.some.inj hk, hsplit]
  case isFalse => cases hk

theorem defaultNumber_subPrefix {m : Nat} (h : m < 2 ^ 63) : defaultNumber (subPrefix m) = some (m : Int) := by
  rw [defaultNumber, findDefault_subPrefix]
  exact atoi_repr h

theorem defaultPrefixNumber_nat (subs : List (Row B)) (excludeId : Int) :
    ∃ m : Nat, defaultPrefixNumber subs excludeId = m := by
  obtain ⟨k, hk, -⟩ := Fresh.pick_least counting
    ((subs.filter (·.id ≠ excludeId)).filterMap fun r => reserved r.sub) 1
  exact ⟨1 + k, hk.trans (by simp [counting])⟩

theorem root_subPrefix (m : Nat) : root (subPrefix m) = "sub".toList ++ (Nat.repr m).toList ++ ['-'] := by
  have hlist : (subPrefix m).toList = ("sub".toList ++ (Nat.repr m).toList) ++ ['-'] := by
    rw [subPrefix_toList, append_assoc]
    rfl
  have htrim : trimSuffixDash (subPrefix m) = String.ofList ("sub".toList ++ (Nat.repr m).toList) := by
    rw [trimSuffixDash, if_pos (by rw [hlist, getLast?_concat]), hlist, dropLast_concat]
  rw [root, htrim, String.toList_ofList]

theorem numbered_eq (h : Numbered r) :
    ∃ m : Nat, effectivePrefix r.sub = subPrefix m ∧ reserved r.sub = some (m : Int) := by
  obtain ⟨hpos, hblank | ⟨m, hm, hpre⟩⟩ := h
  · have hid : ((r.sub.id.toNat : Nat) : Int) = r.sub.id := Int.toNat_of_nonneg hpos.le
    exact ⟨r.sub.id.toNat, by rw [effectivePrefix, if_pos hblank, hid], by rw [reserved, if_pos hblank, hid]⟩
  · have hne : r.sub.tagPrefix ≠ "" := by
      intro hblank
      have hlist := congrArg String.toList (hpre.symm.trans hblank)
      rw [subPrefix_toList] at hlist
      exact absurd hlist (by simp)
    refine ⟨m, by rw [effectivePrefix, if_neg hne, hpre], ?_⟩
    rw [reserved, if_neg hne, hpre, defaultNumber_subPrefix hm]

theorem chosen_ne_empty (t : Subs B) (excludeId : Int) (tagPrefix : String) :
    chosenPrefix t excludeId tagPrefix ≠ "" := by
  rw [chosenPrefix]
  split
  · obtain ⟨m, hm⟩ := defaultPrefixNumber_nat t.rows excludeId
    intro h
    rw [nextDefaultSubPrefix, hm] at h
    have hlist := congrArg String.toList h
    rw [subPrefix_toList] at hlist
    exact absurd hlist (by simp)
  · assumption

theorem default_diverges (hr : r ∈ t.rows) (hother : r.id ≠ excludeId) (hnumbered : Numbered r)
    (hblank : trimSpace tagPrefix = "") :
    Diverge (root (chosenPrefix t excludeId tagPrefix)) r.root := by
  obtain ⟨m, hpre, hreserved⟩ := numbered_eq hnumbered
  obtain ⟨n, hn⟩ := defaultPrefixNumber_nat t.rows excludeId
  have hfree : n ≠ m := by
    intro he
    have hused : (n : Int) ∈ (t.rows.filter (·.id ≠ excludeId)).filterMap fun r => reserved r.sub := by
      rw [mem_filterMap]
      exact ⟨r, mem_filter.mpr ⟨hr, by simpa using hother⟩, he ▸ hreserved⟩
    rw [← hn] at hused
    exact Fresh.pick_not_mem hused
  have hdash : ∀ k : Nat, '-' ∉ (Nat.repr k).toList := fun k hk => absurd (repr_isDigit _ hk) (by decide)
  rw [Row.root, hpre, chosenPrefix, if_pos hblank, nextDefaultSubPrefix, hn, root_subPrefix,
    root_subPrefix]
  refine diverge_terminated (hdash n) (hdash m) fun he => hfree ?_
  exact Nat.repr_inj.mp (String.toList_inj.mp he)

end numbering

section separation

variable {u : Unicode} {t : Subs B} {r r' : Row B} {op : Op B} {template : List (Outbound B)}

theorem freshTag_rooted (sub : OutboundSubscription) (i : Nat) (l : ParseResult)
    (h : Led (effectivePrefix sub)) : root (effectivePrefix sub) <+: (freshTag u sub i l).toList := by
  have hfresh : freshTag u sub i l = suggestTag u (effectivePrefix sub) l.tag i := rfl
  rw [hfresh, suggestTag]
  simp only [if_pos (show trimSuffixDash (effectivePrefix sub) ≠ "" from h), String.toList_append, root]
  exact prefix_append _ _

theorem numbered_rooted {base : List Char} {candidate : String} (h : base <+: candidate.toList) (k : Nat) :
    base <+: (numbered candidate k).toList := by
  cases k with
  | zero => exact h
  | succ k =>
    rw [numbered, String.toList_append, String.toList_append, append_assoc]
    exact h.trans (prefix_append _ _)

theorem assigned_rooted (r : Row B) (parsed : List ParseResult) (hled : Led (effectivePrefix r.sub))
    (h : Within r.root (r.names.map String.toList)) :
    Within r.root ((assignStableTags u r.sub parsed).map String.toList) := by
  rw [Within, forall_mem_map] at h ⊢
  intro tag htag
  obtain ⟨c, hc, k, rfl⟩ := Fresh.mem_assign htag
  apply numbered_rooted
  obtain ⟨q, hq, rfl⟩ := mem_map.mp hc
  obtain ⟨i, hi, rfl⟩ := mem_mapIdx.mp hq
  rw [Fresh.Request.candidate, request]
  cases hstored : storedTag r.sub parsed[i].identity with
  | some tag =>
    exact h tag (mem_append_right _ (mem_map_of_mem (stored_eq.mp hstored)))
  | none =>
    cases hprev : prevTagByIndex r.sub i with
    | some tag =>
      have hget : r.sub.lastFetchedOutbounds[i]? = some tag := (Option.filter_eq_some_iff.mp hprev).1
      exact h tag (mem_append_left _ (mem_of_getElem? hget))
    | none => exact freshTag_rooted r.sub i _ hled

theorem fetch_rooted (r : Row B) (download : Except String (List (Link B)))
    (hled : Led (effectivePrefix r.sub)) (h : Within r.root (r.names.map String.toList)) :
    Within (r.fetch u download).root ((r.fetch u download).names.map String.toList) := by
  cases download with
  | error e => exact h
  | ok links =>
    have hassigned := assigned_rooted (u := u) r (links.map Link.toParseResult) hled h
    intro n hn
    obtain ⟨tag, htag, rfl⟩ := mem_map.mp hn
    apply hassigned
    rcases mem_append.mp htag with htag | htag
    · exact mem_map_of_mem htag
    · exact mem_map_of_mem ((newIdent_sublist _ _ (length_assigned u r.sub _)).subset htag)

theorem Separate.inherit {t' : Subs B} (h : Separate t) (hrows : ∀ r' ∈ t'.rows, ∃ r ∈ t.rows, r'.id = r.id ∧
    effectivePrefix r'.sub = effectivePrefix r.sub ∧ Within r'.root (r'.names.map String.toList)) :
    Separate t' := by
  constructor
  · intro r' hr'
    obtain ⟨r, hr, -, hpre, -⟩ := hrows r' hr'
    rw [hpre]
    exact h.led r hr
  · intro r' hr'
    obtain ⟨r, hr, -, -, hwithin⟩ := hrows r' hr'
    exact hwithin
  · intro a ha b hb hne
    obtain ⟨r, hr, hid, hpre, -⟩ := hrows a ha
    obtain ⟨r', hr', hid', hpre', -⟩ := hrows b hb
    rw [Row.root, Row.root, hpre, hpre']
    exact h.diverge r hr r' hr' fun he => hne (by rw [hid, hid', he])

variable {tagPrefix : String}

theorem Clear.apart {excludeId owner : Int} (h : Clear t excludeId owner tagPrefix)
    (hr : r ∈ t.rows) (hne : r.id ≠ owner) (hexclude : excludeId = owner ∨ excludeId = 0) :
    Diverge (root (chosenPrefix t excludeId tagPrefix)) r.root := by
  rcases h.others r hr hne with ⟨hblank, hnumbered⟩ | hdiverge
  · refine default_diverges hr ?_ hnumbered hblank
    rcases hexclude with rfl | rfl
    · exact hne
    · exact hnumbered.1.ne'
  · exact hdiverge

variable {enabled prepend : Bool} {id : Int}

theorem create_separate (h : Separate t)
    (hclear : Clear t 0 t.next tagPrefix) : Separate (create t tagPrefix enabled prepend) := by
  have hpre : ∀ id, effectivePrefix ⟨id, chosenPrefix t 0 tagPrefix, noIdentities, [], ""⟩ =
      chosenPrefix t 0 tagPrefix := fun id => if_neg (chosen_ne_empty t 0 tagPrefix)
  have hnew : ∀ r ∈ t.rows, Diverge (root (chosenPrefix t 0 tagPrefix)) r.root := fun r hr =>
    hclear.apart hr (t.below r hr).ne (.inr rfl)
  constructor
  · intro r hr
    rcases Table.mem_insert.mp hr with hr | rfl
    · exact h.led r hr
    · rw [hpre]
      exact hclear.led
  · intro r hr
    rcases Table.mem_insert.mp hr with hr | rfl
    · exact h.rooted r hr
    · exact fun n hn => absurd hn not_mem_nil
  · intro r hr r' hr' hne
    rcases Table.mem_insert.mp hr with hr | rfl
    · rcases Table.mem_insert.mp hr' with hr' | rfl
      · exact h.diverge r hr r' hr' hne
      · rw [Row.root, Row.root, hpre]
        exact (hnew r hr).symm
    · rcases Table.mem_insert.mp hr' with hr' | rfl
      · rw [Row.root, Row.root, hpre]
        exact hnew r' hr'
      · exact absurd rfl hne

theorem mem_update
    (h : r ∈ (update t id tagPrefix enabled prepend).rows) :
    (∃ old ∈ t.rows, old.id = id ∧ r = old.edit (chosenPrefix t id tagPrefix) enabled prepend) ∨
      (r ∈ t.rows ∧ r.id ≠ id) := by
  obtain ⟨old, hold, hr⟩ := Table.mem_modify.mp h
  by_cases hid : old.id = id
  · rw [if_pos (by simpa using hid)] at hr
    exact .inl ⟨old, hold, hid, hr.symm⟩
  · rw [if_neg (by simpa using hid)] at hr
    subst hr
    exact .inr ⟨hold, hid⟩

theorem update_separate (h : Separate t)
    (hclear : Clear t id id tagPrefix)
    (hkept : ∀ r ∈ t.rows, r.id = id → r.root = root (chosenPrefix t id tagPrefix) ∨ r.names = []) :
    Separate (update t id tagPrefix enabled prepend) := by
  have hpre : ∀ old : Row B, effectivePrefix (old.edit (chosenPrefix t id tagPrefix) enabled prepend).sub =
      chosenPrefix t id tagPrefix := fun _ => if_neg (chosen_ne_empty t id tagPrefix)
  have hroot : ∀ old : Row B, (old.edit (chosenPrefix t id tagPrefix) enabled prepend).root =
      root (chosenPrefix t id tagPrefix) := fun old => congrArg root (hpre old)
  have hnew : ∀ r ∈ t.rows, r.id ≠ id → Diverge (root (chosenPrefix t id tagPrefix)) r.root :=
    fun r hr hne => hclear.apart hr hne (.inl rfl)
  constructor
  · intro r hr
    rcases mem_update hr with ⟨old, -, -, rfl⟩ | ⟨hr, -⟩
    · rw [hpre]
      exact hclear.led
    · exact h.led r hr
  · intro r hr
    rcases mem_update hr with ⟨old, hold, hid, rfl⟩ | ⟨hr, -⟩
    · rw [hroot]
      rcases hkept old hold hid with hsame | hbare
      · rw [← hsame]
        exact h.rooted old hold
      · have hnames : (old.edit (chosenPrefix t id tagPrefix) enabled prepend).names = [] := hbare
        rw [hnames]
        exact fun n hn => absurd hn not_mem_nil
    · exact h.rooted r hr
  · intro r hr r' hr' hne
    rcases mem_update hr with ⟨old, -, hid, rfl⟩ | ⟨hr, hid⟩
    · rcases mem_update hr' with ⟨old', -, hid', rfl⟩ | ⟨hr', hid'⟩
      · exact absurd (hid.trans hid'.symm) hne
      · rw [hroot]
        exact hnew r' hr' hid'
    · rcases mem_update hr' with ⟨old', -, hid', rfl⟩ | ⟨hr', hid'⟩
      · rw [hroot]
        exact (hnew r hr hid).symm
      · exact h.diverge r hr r' hr' hne

theorem move_separate {up : Bool} (h : Separate t) : Separate (move t id up) := by
  rw [move]
  split
  · exact h
  · split
    · exact h
    · refine h.inherit fun r' hr' => ?_
      obtain ⟨r, hr, rfl⟩ := Table.mem_modify.mp hr'
      exact ⟨r, hr, rfl, rfl, h.rooted r hr⟩

theorem fetch_separate {download : Except String (List (Link B))} (h : Separate t) :
    Separate (fetch u t id download) := by
  refine h.inherit fun r' hr' => ?_
  obtain ⟨r, hr, rfl⟩ := Table.mem_modify.mp hr'
  refine ⟨r, hr, ?_⟩
  split
  · refine ⟨?_, ?_, fetch_rooted r download (h.led r hr) (h.rooted r hr)⟩ <;> cases download <;> rfl
  · exact ⟨rfl, rfl, h.rooted r hr⟩

theorem step_separate (h : Separate t) (hcareful : Careful t op) : Separate (step u t op) := by
  cases op with
  | create tagPrefix enabled prepend => exact create_separate h hcareful
  | update id tagPrefix enabled prepend => exact update_separate h hcareful.1 hcareful.2
  | delete id =>
    refine h.inherit fun r hr => ?_
    have hkept := (Table.mem_delete.mp hr).1
    exact ⟨r, hkept, rfl, rfl, h.rooted r hkept⟩
  | move id up => exact move_separate h
  | fetch id download => exact fetch_separate h

theorem Separate.apart (h : Separate t) (htemplate : Untouched template t) : Apart template t := by
  have htags : ∀ r ∈ t.rows, Within r.root (r.tags.map String.toList) := fun r hr n hn => by
    obtain ⟨tag, htag, rfl⟩ := mem_map.mp hn
    exact h.rooted r hr _ (mem_map_of_mem (mem_append_left _ htag))
  constructor
  · have hids : (active t).Pairwise fun r r' => r.id ≠ r'.id :=
      (pairwise_map.mp t.nodup).sublist filter_sublist
    refine hids.imp_of_mem fun {r r'} hr hr' hne => ?_
    have hrow := mem_of_mem_filter hr
    have hrow' := mem_of_mem_filter hr'
    have hdisjoint := (h.diverge r hrow r' hrow' hne).disjoint (htags r hrow) (htags r' hrow')
    exact fun tag htag htag' => hdisjoint (mem_map_of_mem htag) (mem_map_of_mem htag')
  · intro r hr tag htag htag'
    obtain ⟨o, ho, rfl⟩ := mem_map.mp htag
    exact htemplate o ho r hr (htags r (mem_of_mem_filter hr) _ (mem_map_of_mem htag'))

end separation

theorem generated_iff (u : Unicode) (start : Subs B) (ops : List (Op B)) (template : Template B) :
    (Generated template.outbounds (history u start ops) ↔ Apart template.outbounds (history u start ops)) ∧
      (Separate start → Trace.Throughout (step u) Careful start ops →
        Untouched template.outbounds (history u start ops) →
          Generated template.outbounds (history u start ops)) := by
  have hiff := merged_iff_apart (t := history u start ops) template.distinct
  refine ⟨hiff, fun hstart hcareful htemplate => hiff.mpr ?_⟩
  exact (hcareful.foldl hstart fun _ _ => step_separate).apart htemplate

def direct : Template String := ⟨[⟨"direct", "freedom"⟩], by decide⟩

def tokyoLink : Link String := ⟨tokyo, "jp.example.com:443"⟩

def apartSubs : List (Op String) :=
  [.create "" true false, .create "hk-" true true, .fetch 1 (.ok [tokyoLink, tokyoLink]),
    .fetch 2 (.ok [tokyoLink])]

theorem empty_separate : Separate (Table.empty : Subs B) where
  led _ hr := absurd hr not_mem_nil
  rooted _ hr := absurd hr not_mem_nil
  diverge _ hr := absurd hr not_mem_nil

theorem generated_sample : Trace.Throughout (step ascii) Careful Table.empty apartSubs ∧
    Generated direct.outbounds (history ascii Table.empty apartSubs) := by
  have hcareful : Trace.Throughout (step ascii) Careful Table.empty apartSubs := by
    refine ⟨⟨by unfold Led; decide +kernel, fun _ hr => absurd hr not_mem_nil⟩,
      ⟨by unfold Led; decide +kernel, ?_⟩, trivial, trivial, trivial⟩
    have hdiverge : ∀ r ∈ (step ascii Table.empty (apartSubs.head (by decide))).rows,
        Diverge (root "hk-") r.root := by
      unfold Diverge
      decide +kernel
    exact fun r hr _ => .inr (hdiverge r hr)
  refine ⟨hcareful, (generated_iff ascii Table.empty apartSubs direct).2 empty_separate hcareful ?_⟩
  unfold Untouched
  decide +kernel

def sharedPrefix : List (Op String) :=
  [.create "hk-" true false, .create "hk-" true false, .fetch 1 (.ok [tokyoLink]), .fetch 2 (.ok [tokyoLink])]

def recycledPrefix : List (Op String) :=
  [.create "" true false, .create "" true false, .fetch 2 (.ok [tokyoLink]), .delete 1,
    .update 2 "" true false, .create "" true false, .fetch 3 (.ok [tokyoLink])]

theorem tags_collide :
    ((activeOutboundsSplit (history ascii Table.empty sharedPrefix)).2.map (·.tag) = ["hk-tokyo", "hk-tokyo"] ∧
      ¬ Generated direct.outbounds (history ascii Table.empty sharedPrefix)) ∧
    ((activeOutboundsSplit (history ascii Table.empty recycledPrefix)).2.map (·.tag) =
        ["sub2-tokyo", "sub2-tokyo"] ∧
      ¬ Generated direct.outbounds (history ascii Table.empty recycledPrefix)) := by
  have hshared : (activeOutboundsSplit (history ascii Table.empty sharedPrefix)).2.map (·.tag) =
      ["hk-tokyo", "hk-tokyo"] := by decide +kernel
  have hrecycled : (activeOutboundsSplit (history ascii Table.empty recycledPrefix)).2.map (·.tag) =
      ["sub2-tokyo", "sub2-tokyo"] := by decide +kernel
  have hnot : ∀ (t : Subs String) (tag : String), (activeOutboundsSplit t).2.map (·.tag) = [tag, tag] →
      ¬ Generated direct.outbounds t := by
    rintro t tag htags ⟨merged, hmerged, hall⟩
    rw [merge_ok] at hmerged
    obtain rfl := Except.ok.inj hmerged
    have hnodup := hall.distinct
    rw [map_append, htags] at hnodup
    exact (nodup_cons.mp hnodup.of_append_right).1 mem_cons_self
  exact ⟨⟨hshared, hnot _ _ hshared⟩, hrecycled, hnot _ _ hrecycled⟩

end MergedOutbounds

end QuiPanel
