import Mathlib.Data.List.Nodup
import Mathlib.Logic.Basic

namespace KeyedDiff

open List

variable {R K M : Type} [DecidableEq K] {key : R → K}

def lookup (key : R → K) (rs : List R) (k : K) : Option R := rs.find? (key · = k)

variable {rs : List R}

theorem lookup_mem {k : K} {r : R} (h : lookup key rs k = some r) : r ∈ rs ∧ key r = k :=
  ⟨mem_of_find?_eq_some h, by simpa using find?_some h⟩

theorem lookup_none {k : K} : lookup key rs k = none ↔ ∀ r ∈ rs, key r ≠ k := by
  simp [lookup]

theorem lookup_some (hnodup : (rs.map key).Nodup) {k : K} {r : R} :
    lookup key rs k = some r ↔ r ∈ rs ∧ key r = k := by
  constructor
  · exact lookup_mem
  · rintro ⟨hr, rfl⟩
    cases h : lookup key rs (key r) with
    | none => exact absurd rfl (lookup_none.mp h r hr)
    | some r' =>
      obtain ⟨hr', hkey⟩ := lookup_mem h
      rw [inj_on_of_nodup_map hnodup hr' hr hkey]

def add (key : R → K) (rs : List R) (r : R) : Option (List R) :=
  if key r ∈ rs.map key then none else some (rs ++ [r])

def delete (key : R → K) (rs : List R) (k : K) : List R := rs.filter fun r => key r ≠ k

def deleteAll (key : R → K) (rs : List R) (ks : List K) : List R := ks.foldl (delete key) rs

theorem deleteAll_eq (rs : List R) (ks : List K) :
    deleteAll key rs ks = rs.filter fun r => key r ∉ ks := by
  induction ks generalizing rs with
  | nil => simp [deleteAll]
  | cons k ks ih =>
    have hstep : deleteAll key rs (k :: ks) = deleteAll key (delete key rs k) ks := rfl
    rw [hstep, ih, delete, filter_filter]
    apply filter_congr
    intro r _
    simp [not_or, Bool.and_comm]

theorem add_eq {r : R} (h : ((rs ++ [r]).map key).Nodup) :
    add key rs r = some (rs ++ [r]) := by
  have hfresh : key r ∉ rs.map key := by
    rw [map_append, map_singleton, nodup_append] at h
    exact fun hmem => h.2.2 _ hmem _ (mem_singleton_self _) rfl
  rw [add, if_neg hfresh]

section diff

variable (key) (same : R → R → Bool) (old new : List R)

def stays (o : R) : Bool := (lookup key new (key o)).any (same o)

def kept : List R := old.filter (stays key same new)

def removed : List R := old.filter fun o => !stays key same new o

def changed : List R := (removed key same old new).filterMap fun o => lookup key new (key o)

def fresh : List R := new.filter fun n => (lookup key old (key n)).isNone

end diff

section apply

variable {same : R → R → Bool} {old new : List R}

theorem mem_changed (hnew : (new.map key).Nodup) {n : R} : n ∈ changed key same old new ↔
    n ∈ new ∧ ∃ o ∈ old, key o = key n ∧ same o n = false := by
  simp only [changed, removed, mem_filterMap, mem_filter, Bool.not_eq_true', stays]
  constructor
  · rintro ⟨o, ⟨ho, hstays⟩, hlook⟩
    obtain ⟨hn, hkey⟩ := lookup_mem hlook
    rw [hlook] at hstays
    exact ⟨hn, o, ho, hkey.symm, hstays⟩
  · rintro ⟨hn, o, ho, hkey, hsame⟩
    have hlook : lookup key new (key o) = some n := (lookup_some hnew).mpr ⟨hn, hkey.symm⟩
    exact ⟨o, ⟨ho, by rw [hlook]; exact hsame⟩, hlook⟩

theorem mem_fresh {n : R} : n ∈ fresh key old new ↔ n ∈ new ∧ ∀ o ∈ old, key o ≠ key n := by
  simp [fresh, lookup_none]

theorem mem_kept (hnew : (new.map key).Nodup) {o : R} : o ∈ kept key same old new ↔
    o ∈ old ∧ ∃ n ∈ new, key n = key o ∧ same o n = true := by
  simp only [kept, stays, mem_filter, Option.any_eq_true]
  constructor
  · rintro ⟨ho, n, hlook, hsame⟩
    obtain ⟨hn, hkey⟩ := lookup_mem hlook
    exact ⟨ho, n, hn, hkey, hsame⟩
  · rintro ⟨ho, n, hn, hkey, hsame⟩
    exact ⟨ho, n, (lookup_some hnew).mpr ⟨hn, hkey⟩, hsame⟩

omit [DecidableEq K] in
theorem nodup_keys (h : (old.map key).Nodup) {o o' : R} (ho : o ∈ old) (ho' : o' ∈ old)
    (hkey : key o = key o') : o = o' := inj_on_of_nodup_map h ho ho' hkey

theorem deleteAll_removed (hold : (old.map key).Nodup) :
    deleteAll key old ((removed key same old new).map key) = kept key same old new := by
  rw [deleteAll_eq, kept]
  apply filter_congr
  intro o ho
  cases hstays : stays key same new o with
  | true =>
    have hnot : key o ∉ (removed key same old new).map key := by
      intro hmem
      obtain ⟨o', ho', hkey⟩ := mem_map.mp hmem
      obtain ⟨hin, hgone⟩ := mem_filter.mp ho'
      rw [nodup_keys hold hin ho hkey, hstays] at hgone
      cases hgone
    exact decide_eq_true hnot
  | false =>
    have hin : key o ∈ (removed key same old new).map key :=
      mem_map_of_mem (mem_filter.mpr ⟨ho, by rw [hstays]; rfl⟩)
    exact decide_eq_false fun hnot => hnot hin

theorem changed_keys (hold : (old.map key).Nodup) :
    ((changed key same old new).map key).Nodup := by
  have hsub : ((changed key same old new).map key).Sublist (old.map key) := by
    have hmap : ∀ os : List R, ((os.filterMap fun o => lookup key new (key o)).map key).Sublist
        (os.map key) := by
      intro os
      induction os with
      | nil => exact .slnil
      | cons o os ih =>
        cases hlook : lookup key new (key o) with
        | none =>
          simp only [filterMap_cons, hlook]
          exact ih.cons _
        | some n =>
          simp only [filterMap_cons, hlook, map_cons, (lookup_mem hlook).2]
          exact ih.cons_cons _
    exact (hmap _).trans (filter_sublist.map key)
  exact hold.sublist hsub

variable (same) in
theorem applied_nodup (hold : (old.map key).Nodup) (hnew : (new.map key).Nodup) :
    ((kept key same old new ++ (changed key same old new ++ fresh key old new)).map key).Nodup := by
  simp only [map_append, nodup_append, mem_append, mem_map]
  refine ⟨hold.sublist (filter_sublist.map key), ⟨changed_keys hold,
    hnew.sublist (filter_sublist.map key), ?_⟩, ?_⟩
  · rintro _ ⟨n, hn, rfl⟩ _ ⟨n', hn', rfl⟩ hkey
    obtain ⟨-, o, ho, hko, -⟩ := (mem_changed hnew).mp hn
    exact (mem_fresh.mp hn').2 o ho (hko.trans hkey)
  · rintro _ ⟨o, ho, rfl⟩ _ hin hkey
    obtain ⟨hold', n, hn, hkn, hsame⟩ := (mem_kept hnew).mp ho
    rcases hin with ⟨n', hn', rfl⟩ | ⟨n', hn', rfl⟩
    · obtain ⟨hn'', o', ho', hko', hdiff⟩ := (mem_changed hnew).mp hn'
      have ho'' := nodup_keys hold ho' hold' (hko'.trans hkey.symm)
      have hn''' := nodup_keys hnew hn'' hn (hkey.symm.trans hkn.symm)
      rw [ho'', hn''', hsame] at hdiff
      cases hdiff
    · exact (mem_fresh.mp hn').2 o hold' hkey

theorem lookup_applied {meaning : R → M} (hsame : ∀ a b, same a b = true → meaning a = meaning b)
    (hold : (old.map key).Nodup) (hnew : (new.map key).Nodup) (k : K) :
    (lookup key (kept key same old new ++ (changed key same old new ++ fresh key old new)) k).map
      meaning = (lookup key new k).map meaning := by
  have happ := applied_nodup same hold hnew
  cases hlook : lookup key new k with
  | none =>
    have hno := lookup_none.mp hlook
    have hnone : lookup key (kept key same old new ++ (changed key same old new ++
        fresh key old new)) k = none := by
      rw [lookup_none]
      intro r hr hkey
      rcases mem_append.mp hr with hr | hr
      · obtain ⟨-, n, hn, hkn, -⟩ := (mem_kept hnew).mp hr
        exact hno n hn (hkn.trans hkey)
      · rcases mem_append.mp hr with hr | hr
        · exact hno r ((mem_changed hnew).mp hr).1 hkey
        · exact hno r (mem_fresh.mp hr).1 hkey
    rw [hnone]
  | some n =>
    obtain ⟨hn, hkey⟩ := lookup_mem hlook
    have hfound : ∃ r, r ∈ kept key same old new ++ (changed key same old new ++ fresh key old new) ∧
        key r = k ∧ meaning r = meaning n := by
      by_cases hin : ∃ o ∈ old, key o = key n
      · obtain ⟨o, ho, hko⟩ := hin
        cases hs : same o n with
        | true =>
          have hmem : o ∈ kept key same old new := (mem_kept hnew).mpr ⟨ho, n, hn, hko.symm, hs⟩
          exact ⟨o, mem_append_left _ hmem, hko.trans hkey, hsame o n hs⟩
        | false =>
          have hmem := (mem_changed hnew).mpr ⟨hn, o, ho, hko, hs⟩
          exact ⟨n, mem_append_right _ (mem_append_left _ hmem), hkey, rfl⟩
      · have hmem : n ∈ fresh key old new := mem_fresh.mpr ⟨hn, fun o ho hko => hin ⟨o, ho, hko⟩⟩
        exact ⟨n, mem_append_right _ (mem_append_right _ hmem), hkey, rfl⟩
    obtain ⟨r, hr, hkr, hmeaning⟩ := hfound
    rw [(lookup_some happ).mpr ⟨hr, hkr⟩]
    exact congrArg some hmeaning

end apply

section replace

variable {rs new : List R} {r : R} {k : K}

def replace (key : R → K) (rs : List R) (r : R) : List R := delete key rs (key r) ++ [r]

def replaceAll (key : R → K) (rs new : List R) : List R := new.foldl (replace key) rs

theorem delete_absent (h : k ∉ rs.map key) : delete key rs k = rs := by
  apply filter_eq_self.mpr
  intro r hr
  exact decide_eq_true fun he => h (mem_map.mpr ⟨r, hr, he⟩)

theorem add_absent (h : key r ∉ rs.map key) : add key rs r = some (replace key rs r) := by
  rw [add, if_neg h, replace, delete_absent h]

theorem add_deleted : add key (delete key rs (key r)) r = some (replace key rs r) := by
  have hgone : key r ∉ (delete key rs (key r)).map key := by
    simp [delete]
  rw [add, if_neg hgone, replace]

theorem lookup_cons (r : R) (rs : List R) (k : K) :
    lookup key (r :: rs) k = if key r = k then some r else lookup key rs k := by
  by_cases hk : key r = k <;> simp [lookup, hk]

theorem lookup_delete (k' : K) :
    lookup key (delete key rs k) k' = if k' = k then none else lookup key rs k' := by
  induction rs with
  | nil => simp [delete, lookup]
  | cons r rs ih =>
    by_cases hk : key r = k
    · have hcons : delete key (r :: rs) k = delete key rs k := by simp [delete, hk]
      rw [hcons, ih, lookup_cons, hk]
      split
      case isTrue => rfl
      case isFalse hne => rw [if_neg fun he => hne he.symm]
    · have hcons : delete key (r :: rs) k = r :: delete key rs k := by simp [delete, hk]
      rw [hcons, lookup_cons, lookup_cons, ih]
      by_cases hk' : key r = k'
      · have hne : ¬ k' = k := fun he => hk (hk'.trans he)
        rw [if_pos hk', if_neg hne, if_pos hk']
      · rw [if_neg hk', if_neg hk']

theorem lookup_deleteAll (ks : List K) (k : K) :
    lookup key (deleteAll key rs ks) k = if k ∈ ks then none else lookup key rs k := by
  induction ks generalizing rs with
  | nil => simp [deleteAll]
  | cons k' ks ih =>
    have hstep : deleteAll key rs (k' :: ks) = deleteAll key (delete key rs k') ks := rfl
    rw [hstep, ih, lookup_delete]
    by_cases hk : k = k'
    · simp [hk]
    · simp [hk]

theorem lookup_replace : lookup key (replace key rs r) k = if key r = k then some r else lookup key rs k := by
  have hsplit : lookup key (replace key rs r) k =
      (lookup key (delete key rs (key r)) k).or (if key r = k then some r else none) := by
    rw [lookup, replace, find?_append, ← lookup]
    congr 1
    by_cases hk : key r = k <;> simp [hk]
  rw [hsplit, lookup_delete]
  by_cases hk : key r = k
  · simp [hk]
  · have hk' : ¬ k = key r := fun he => hk he.symm
    simp [hk, hk']

theorem lookup_replaceAll (hnodup : (new.map key).Nodup) (k : K) :
    lookup key (replaceAll key rs new) k = (lookup key new k).or (lookup key rs k) := by
  induction new generalizing rs with
  | nil => rfl
  | cons r new ih =>
    obtain ⟨hfresh, hrest⟩ := nodup_cons.mp hnodup
    have hstep : replaceAll key rs (r :: new) = replaceAll key (replace key rs r) new := rfl
    rw [hstep, ih hrest, lookup_replace, lookup_cons]
    split
    case isTrue hk =>
      have hnone : lookup key new k = none := by
        rw [lookup_none]
        intro r' hr' he
        exact hfresh (mem_map.mpr ⟨r', hr', he.trans hk.symm⟩)
      rw [hnone]
      rfl
    case isFalse => rfl

theorem mem_replace {r' : R} : r' ∈ replace key rs r ↔ r' = r ∨ r' ∈ rs ∧ key r' ≠ key r := by
  simp [replace, delete, or_comm]

theorem nodup_replace (h : (rs.map key).Nodup) : ((replace key rs r).map key).Nodup := by
  have hfresh : key r ∉ (delete key rs (key r)).map key := by
    intro hmem
    obtain ⟨r', hr', hkey⟩ := mem_map.mp hmem
    exact absurd hkey (by simpa using (mem_filter.mp hr').2)
  rw [replace, map_append, map_singleton, ← concat_eq_append]
  exact List.Nodup.concat hfresh (h.sublist (filter_sublist.map key))

theorem replaceAll_append {new' : List R} :
    replaceAll key rs (new ++ new') = replaceAll key (replaceAll key rs new) new' :=
  foldl_append

theorem nodup_replaceAll (h : (rs.map key).Nodup) : ((replaceAll key rs new).map key).Nodup := by
  induction new generalizing rs with
  | nil => exact h
  | cons r new ih => exact ih (nodup_replace h)

theorem replaceAll_sublist : (replaceAll key rs new).Sublist (rs ++ new) := by
  induction new generalizing rs with
  | nil =>
    rw [append_nil]
    exact List.Sublist.refl rs
  | cons r new ih =>
    have hstep : (replace key rs r).Sublist (rs ++ [r]) := filter_sublist.append_right [r]
    have hall := (@ih (replace key rs r)).trans (hstep.append_right new)
    rwa [append_assoc] at hall

theorem lookup_replaceAll_absent (h : k ∉ new.map key) :
    lookup key (replaceAll key rs new) k = lookup key rs k := by
  induction new generalizing rs with
  | nil => rfl
  | cons r new ih =>
    rw [map_cons, mem_cons, not_or] at h
    have hstep : replaceAll key rs (r :: new) = replaceAll key (replace key rs r) new := rfl
    rw [hstep, ih h.2, lookup_replace, if_neg (Ne.symm h.1)]

theorem lookup_replaceAll_congr {rs' : List R} (h : lookup key rs k = lookup key rs' k) :
    lookup key (replaceAll key rs new) k = lookup key (replaceAll key rs' new) k := by
  induction new generalizing rs rs' with
  | nil => exact h
  | cons r new ih =>
    apply ih
    rw [lookup_replace, lookup_replace, h]

theorem lookup_replaceAll_last {before after : List R} (h : key r ∉ after.map key) :
    lookup key (replaceAll key rs (before ++ r :: after)) (key r) = some r := by
  have hstep : ∀ rs : List R, replaceAll key rs (r :: after) = replaceAll key (replace key rs r) after :=
    fun _ => rfl
  rw [replaceAll_append, hstep, lookup_replaceAll_absent h, lookup_replace, if_pos rfl]

theorem head_deleteAll {ks : List K} (hhead : rs.head? = some r) (hkept : key r ∉ ks) :
    (deleteAll key rs ks).head? = some r := by
  cases rs with
  | nil => cases hhead
  | cons r' rs =>
    obtain rfl := Option.some.inj hhead
    rw [deleteAll_eq, filter_cons, if_pos (by simpa using hkept)]
    rfl

theorem head_replaceAll (hhead : rs.head? = some r) (hkept : key r ∉ new.map key) :
    (replaceAll key rs new).head? = some r := by
  induction new generalizing rs with
  | nil => exact hhead
  | cons r' new ih =>
    rw [map_cons, mem_cons, not_or] at hkept
    apply ih _ hkept.2
    have hother : key r ∉ [key r'] := by simpa using hkept.1
    have hone : (deleteAll key rs [key r']).head? = some r := head_deleteAll hhead hother
    rw [replace, head?_append]
    exact congrArg (Option.or · _) hone

end replace

section patch

variable {S : Type} {keyS : S → K} {f : R → S} {same : R → R → Bool} {old new : List R} {rs : List S}
  {k : K}

theorem removed_keys : k ∈ (removed key same old new).map key ↔
    ∃ o ∈ old, key o = k ∧ stays key same new o = false := by
  simp only [removed, mem_map, mem_filter, Bool.not_eq_true']
  constructor
  · rintro ⟨o, ⟨ho, hs⟩, hk⟩
    exact ⟨o, ho, hk, hs⟩
  · rintro ⟨o, ho, hk, hs⟩
    exact ⟨o, ⟨ho, hs⟩, hk⟩

theorem lookup_untouched (hsame : ∀ a b, same a b = true → f a = f b)
    (hremoved : k ∉ (removed key same old new).map key)
    (hadded : k ∉ (changed key same old new ++ fresh key old new).map key) :
    (lookup key old k).map f = (lookup key new k).map f := by
  cases hlook : lookup key old k with
  | some o =>
    obtain ⟨ho, hkey⟩ := lookup_mem hlook
    cases hs : stays key same new o with
    | false => exact absurd (removed_keys.mpr ⟨o, ho, hkey, hs⟩) hremoved
    | true =>
      rw [stays, Option.any_eq_true] at hs
      obtain ⟨n, hn, hon⟩ := hs
      rw [hkey] at hn
      rw [hn]
      exact congrArg some (hsame o n hon)
  | none =>
    cases hn : lookup key new k with
    | none => rfl
    | some n =>
      obtain ⟨hin, hkey⟩ := lookup_mem hn
      have hfresh : n ∈ fresh key old new :=
        mem_fresh.mpr ⟨hin, fun o ho hko => lookup_none.mp hlook o ho (hko.trans hkey)⟩
      exact absurd (mem_map.mpr ⟨n, mem_append_right _ hfresh, hkey⟩) hadded

theorem lookup_patched (hold : (old.map key).Nodup) (hnew : (new.map key).Nodup)
    (hkey : ∀ r, keyS (f r) = key r) :
    lookup keyS (replaceAll keyS (deleteAll keyS rs ((removed key same old new).map key))
        ((changed key same old new ++ fresh key old new).map f)) k =
      if k ∈ (removed key same old new).map key ∨
          k ∈ (changed key same old new ++ fresh key old new).map key
      then (lookup key new k).map f else lookup keyS rs k := by
  have hkeys : (fun r => keyS (f r)) = key := funext hkey
  have hnodup : ((changed key same old new ++ fresh key old new).map key).Nodup := by
    have happ := applied_nodup same hold hnew
    rw [map_append] at happ
    exact (nodup_append.mp happ).2.1
  have hnodupS : (((changed key same old new ++ fresh key old new).map f).map keyS).Nodup := by
    rw [map_map]
    exact hkeys ▸ hnodup
  have hmap : lookup keyS ((changed key same old new ++ fresh key old new).map f) k =
      (lookup key (changed key same old new ++ fresh key old new) k).map f := by
    rw [lookup, find?_map, lookup, ← hkeys]
    rfl
  rw [lookup_replaceAll hnodupS, lookup_deleteAll, hmap]
  cases hadd : lookup key (changed key same old new ++ fresh key old new) k with
  | some n =>
    obtain ⟨hn, hnk⟩ := lookup_mem hadd
    have hin : n ∈ new := by
      rcases mem_append.mp hn with hn | hn
      · exact ((mem_changed hnew).mp hn).1
      · exact (mem_fresh.mp hn).1
    have hmem : k ∈ (changed key same old new ++ fresh key old new).map key :=
      mem_map.mpr ⟨n, hn, hnk⟩
    have htouched : k ∈ (removed key same old new).map key ∨
        k ∈ (changed key same old new ++ fresh key old new).map key := .inr hmem
    rw [if_pos htouched, (lookup_some hnew).mpr ⟨hin, hnk⟩]
    rfl
  | none =>
    have hout : k ∉ (changed key same old new ++ fresh key old new).map key := by
      rintro hmem
      obtain ⟨n, hn, hnk⟩ := mem_map.mp hmem
      exact lookup_none.mp hadd n hn hnk
    by_cases hrem : k ∈ (removed key same old new).map key
    · rw [if_pos hrem, if_pos (.inl hrem)]
      obtain ⟨o, ho, hok, hs⟩ := removed_keys.mp hrem
      cases hlook : lookup key new k with
      | none => rfl
      | some n =>
        have hchanged : n ∈ changed key same old new :=
          mem_filterMap.mpr ⟨o, mem_filter.mpr ⟨ho, by rw [hs]; rfl⟩, by rw [hok, hlook]⟩
        have hmem := mem_map_of_mem (f := key) (mem_append_left (fresh key old new) hchanged)
        rw [(lookup_mem hlook).2] at hmem
        exact absurd hmem hout
    · rw [if_neg hrem, if_neg (not_or.mpr ⟨hrem, hout⟩)]
      rfl

end patch

end KeyedDiff
