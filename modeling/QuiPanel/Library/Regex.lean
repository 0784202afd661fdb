import Mathlib.Data.List.Basic

namespace LeftmostFirst

inductive Regex (α : Type) where
  | lit (cs : List α)
  | either (css : List (List α))
  | plus (p : α → Bool)
  | seq (r t : Regex α)
  | group (r : Regex α)

variable {α β : Type}

inductive Matches : Regex α → List α → List (List α) → Prop
  | lit (cs : List α) : Matches (.lit cs) cs []
  | either {css : List (List α)} {cs : List α} (h : cs ∈ css) : Matches (.either css) cs []
  | plus {p : α → Bool} {cs : List α} (hne : cs ≠ []) (h : ∀ c ∈ cs, p c = true) :
      Matches (.plus p) cs []
  | seq {r t : Regex α} {cs ds : List α} {caps caps' : List (List α)} (h : Matches r cs caps)
      (h' : Matches t ds caps') : Matches (.seq r t) (cs ++ ds) (caps ++ caps')
  | group {r : Regex α} {cs : List α} {caps : List (List α)} (h : Matches r cs caps) :
      Matches (.group r) cs (cs :: caps)

def execStar (p : α → Bool) : List α → (List α → Option β) → Option β
  | [], k => k []
  | c :: s, k => if p c then (execStar p s k).or (k (c :: s)) else k (c :: s)

def execPlus (p : α → Bool) : List α → (List α → Option β) → Option β
  | [], _ => none
  | c :: s, k => if p c then execStar p s k else none

section classes

variable {p : α → Bool} {k : List α → Option β} {v : β}

theorem execStar_sound {s : List α} (h : execStar p s k = some v) :
    ∃ cs rest, s = cs ++ rest ∧ (∀ c ∈ cs, p c = true) ∧ k rest = some v := by
  induction s with
  | nil => exact ⟨[], [], rfl, by simp, h⟩
  | cons c s ih =>
    have hstop : k (c :: s) = some v → ∃ cs rest, c :: s = cs ++ rest ∧ (∀ c ∈ cs, p c = true) ∧
        k rest = some v := fun hk => ⟨[], c :: s, rfl, by simp, hk⟩
    simp only [execStar] at h
    split at h
    case isTrue hc =>
      rcases Option.or_eq_some_iff.mp h with h | ⟨-, h⟩
      · obtain ⟨cs, rest, rfl, hcs, hk⟩ := ih h
        exact ⟨c :: cs, rest, rfl, by simpa [hc] using hcs, hk⟩
      · exact hstop h
    case isFalse => exact hstop h

theorem execStar_complete {cs rest : List α} (h : ∀ c ∈ cs, p c = true) (hk : (k rest).isSome) :
    (execStar p (cs ++ rest) k).isSome := by
  induction cs with
  | nil =>
    cases rest with
    | nil => exact hk
    | cons c rest =>
      simp only [List.nil_append, execStar]
      split
      · simp only [Option.isSome_or, hk, Bool.or_true]
      · exact hk
  | cons c cs ih =>
    have hc := h c (List.mem_cons_self ..)
    have ih := ih fun d hd => h d (List.mem_cons_of_mem _ hd)
    simp only [List.cons_append, execStar, hc, if_true, Option.isSome_or, ih, Bool.true_or]

theorem execPlus_sound {s : List α} (h : execPlus p s k = some v) :
    ∃ cs rest, s = cs ++ rest ∧ cs ≠ [] ∧ (∀ c ∈ cs, p c = true) ∧ k rest = some v := by
  cases s with
  | nil => cases h
  | cons c s =>
    simp only [execPlus] at h
    split at h
    case isTrue hc =>
      obtain ⟨cs, rest, rfl, hcs, hk⟩ := execStar_sound h
      exact ⟨c :: cs, rest, rfl, by simp, by simpa [hc] using hcs, hk⟩
    case isFalse => cases h

theorem execPlus_complete {cs rest : List α} (hne : cs ≠ []) (h : ∀ c ∈ cs, p c = true)
    (hk : (k rest).isSome) : (execPlus p (cs ++ rest) k).isSome := by
  cases cs with
  | nil => exact absurd rfl hne
  | cons c cs =>
    have hc := h c (List.mem_cons_self ..)
    simp only [List.cons_append, execPlus, hc, if_true]
    exact execStar_complete (fun d hd => h d (List.mem_cons_of_mem _ hd)) hk

end classes

variable [DecidableEq α]

def execLit : List α → List α → (List α → Option β) → Option β
  | [], s, k => k s
  | c :: cs, d :: s, k => if c = d then execLit cs s k else none
  | _ :: _, [], _ => none

def execEither : List (List α) → List α → (List α → Option β) → Option β
  | [], _, _ => none
  | cs :: css, s, k => (execLit cs s k).or (execEither css s k)

def exec : Regex α → List α → (List α → List (List α) → Option β) → Option β
  | .lit cs, s, k => execLit cs s (k · [])
  | .either css, s, k => execEither css s (k · [])
  | .plus p, s, k => execPlus p s (k · [])
  | .seq r t, s, k => exec r s fun rest caps => exec t rest fun rest' caps' => k rest' (caps ++ caps')
  | .group r, s, k => exec r s fun rest caps => k rest (s.take (s.length - rest.length) :: caps)

def findSubmatch (r : Regex α) : List α → Option (List (List α))
  | [] => exec r [] fun _ caps => some caps
  | c :: s => (exec r (c :: s) fun _ caps => some caps).or (findSubmatch r s)

section literals

variable {k : List α → Option β} {v : β}

theorem execLit_append (cs rest : List α) : execLit cs (cs ++ rest) k = k rest := by
  induction cs with
  | nil => rfl
  | cons c cs ih => simpa [execLit] using ih

theorem execLit_sound {cs s : List α} (h : execLit cs s k = some v) :
    ∃ rest, s = cs ++ rest ∧ k rest = some v := by
  induction cs generalizing s with
  | nil => exact ⟨s, rfl, h⟩
  | cons c cs ih =>
    cases s with
    | nil => cases h
    | cons d s =>
      simp only [execLit] at h
      split at h
      case isTrue hc =>
        obtain ⟨rest, rfl, hk⟩ := ih h
        exact ⟨rest, by rw [hc]; rfl, hk⟩
      case isFalse => cases h

theorem execEither_sound {css : List (List α)} {s : List α} (h : execEither css s k = some v) :
    ∃ cs ∈ css, ∃ rest, s = cs ++ rest ∧ k rest = some v := by
  induction css with
  | nil => cases h
  | cons cs css ih =>
    simp only [execEither, Option.or_eq_some_iff] at h
    rcases h with h | ⟨-, h⟩
    · obtain ⟨rest, hs, hk⟩ := execLit_sound h
      exact ⟨cs, List.mem_cons_self .., rest, hs, hk⟩
    · obtain ⟨ds, hds, hrest⟩ := ih h
      exact ⟨ds, List.mem_cons_of_mem _ hds, hrest⟩

theorem execEither_complete {css : List (List α)} {cs rest : List α} (h : cs ∈ css)
    (hk : (k rest).isSome) : (execEither css (cs ++ rest) k).isSome := by
  induction css with
  | nil => cases h
  | cons ds css ih =>
    simp only [execEither, Option.isSome_or, Bool.or_eq_true]
    rcases List.mem_cons.mp h with rfl | h
    · exact .inl (by rwa [execLit_append])
    · exact .inr (ih h)

end literals

variable {r : Regex α}

variable {caps : List (List α)} {k : List α → List (List α) → Option β}

theorem exec_sound {s : List α} {v : β}
    (h : exec r s k = some v) :
    ∃ cs rest caps, s = cs ++ rest ∧ Matches r cs caps ∧ k rest caps = some v := by
  induction r generalizing s k with
  | lit cs =>
    obtain ⟨rest, hs, hk⟩ := execLit_sound h
    exact ⟨cs, rest, [], hs, .lit cs, hk⟩
  | either css =>
    obtain ⟨cs, hcs, rest, hs, hk⟩ := execEither_sound h
    exact ⟨cs, rest, [], hs, .either hcs, hk⟩
  | plus p =>
    obtain ⟨cs, rest, hs, hne, hcs, hk⟩ := execPlus_sound h
    exact ⟨cs, rest, [], hs, .plus hne hcs, hk⟩
  | seq r t ihr iht =>
    obtain ⟨cs, mid, caps, rfl, hr, hmid⟩ := ihr h
    obtain ⟨ds, rest, caps', rfl, ht, hk⟩ := iht hmid
    exact ⟨cs ++ ds, rest, caps ++ caps', by simp, .seq hr ht, hk⟩
  | group r ih =>
    obtain ⟨cs, rest, caps, rfl, hr, hk⟩ := ih h
    refine ⟨cs, rest, cs :: caps, rfl, .group hr, ?_⟩
    simpa using hk

theorem exec_complete {cs : List α} (h : Matches r cs caps)
    {rest : List α} (hk : (k rest caps).isSome) :
    (exec r (cs ++ rest) k).isSome := by
  induction h generalizing rest k with
  | lit cs => simpa only [exec, execLit_append] using hk
  | either hcs => exact execEither_complete hcs hk
  | plus hne hcs => exact execPlus_complete hne hcs hk
  | seq _ _ ih ih' =>
    rw [List.append_assoc]
    exact ih (ih' hk)
  | group _ ih =>
    apply ih
    simpa using hk

theorem findSubmatch_sound {s : List α}
    (h : findSubmatch r s = some caps) : ∃ pre cs post, s = pre ++ cs ++ post ∧ Matches r cs caps := by
  have hhead : ∀ s : List α, (exec r s fun _ caps => some caps) = some caps →
      ∃ pre cs post, s = pre ++ cs ++ post ∧ Matches r cs caps := by
    intro s h
    obtain ⟨cs, rest, caps', rfl, hm, hk⟩ := exec_sound h
    obtain rfl := Option.some.inj hk
    exact ⟨[], cs, rest, rfl, hm⟩
  induction s with
  | nil => exact hhead [] h
  | cons c s ih =>
    rcases Option.or_eq_some_iff.mp h with h | ⟨-, h⟩
    · exact hhead (c :: s) h
    · obtain ⟨pre, cs, post, rfl, hm⟩ := ih h
      exact ⟨c :: pre, cs, post, rfl, hm⟩

theorem findSubmatch_head {cs : List α} (post : List α)
    (h : Matches r cs caps) : ∃ ds post' caps', cs ++ post = ds ++ post' ∧ Matches r ds caps' ∧
      findSubmatch r (cs ++ post) = some caps' := by
  have hsome : (exec r (cs ++ post) fun _ caps => some caps).isSome := exec_complete h rfl
  obtain ⟨caps', hexec⟩ := Option.isSome_iff_exists.mp hsome
  obtain ⟨ds, post', caps'', hs, hm, hk⟩ := exec_sound hexec
  obtain rfl := Option.some.inj hk
  refine ⟨ds, post', caps'', hs, hm, ?_⟩
  generalize cs ++ post = s at hexec ⊢
  cases s with
  | nil => exact hexec
  | cons c s =>
    simp only [findSubmatch, hexec, Option.some_or]

def Occurs (r : Regex α) (s : List α) : Prop :=
  ∃ pre cs post caps, s = pre ++ cs ++ post ∧ Matches r cs caps

theorem findSubmatch_isSome {s : List α} :
    (findSubmatch r s).isSome ↔ Occurs r s := by
  constructor
  · intro h
    obtain ⟨caps, h⟩ := Option.isSome_iff_exists.mp h
    obtain ⟨pre, cs, post, hs, hm⟩ := findSubmatch_sound h
    exact ⟨pre, cs, post, caps, hs, hm⟩
  · rintro ⟨pre, cs, post, caps, rfl, hm⟩
    induction pre with
    | nil =>
      obtain ⟨_, _, _, _, _, hfound⟩ := findSubmatch_head _ hm
      exact Option.isSome_iff_exists.mpr ⟨_, hfound⟩
    | cons c pre ih =>
      simp only [List.cons_append, findSubmatch, Option.isSome_or, ih, Bool.or_true]

end LeftmostFirst
