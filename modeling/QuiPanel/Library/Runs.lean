import QuiPanel.Library.Moves
import Mathlib.Data.List.Induction

namespace ReadCommitted

open List

variable {S : Schema} {ι ρ : Type}

def Event.entries : Event S → List S.Entry
  | .commit p => p.log
  | _ => []

namespace World

def replay (s : Store S) (hist : List (ι × Event S)) : Store S :=
  hist.foldl (fun s e => match e.2 with | .commit p => p.apply s | _ => s) s

theorem replay_snoc (s : Store S) (hist : List (ι × Event S)) (e : ι × Event S) :
    replay s (hist ++ [e]) = match e.2 with | .commit p => p.apply (replay s hist) | _ => replay s hist := by
  simp [replay]

theorem replay_quiet (s : Store S) (hist : List (ι × Event S)) {e : ι × Event S}
    (he : ∀ p, e.2 ≠ .commit p) : replay s (hist ++ [e]) = replay s hist := by
  obtain ⟨j, ev⟩ := e
  rw [replay_snoc]
  cases ev with
  | commit p => exact absurd rfl (he p)
  | _ => rfl

theorem replay_log (s : Store S) (hist : List (ι × Event S)) :
    (replay s hist).log = s.log ++ hist.flatMap (fun e => Event.entries e.2) := by
  induction hist using List.reverseRecOn with
  | nil => simp [replay]
  | append_singleton hist e ih =>
    obtain ⟨j, ev⟩ := e
    rw [replay_snoc]
    cases ev with
    | commit p => simp [ih, Event.entries]
    | _ => simp [ih, Event.entries]

variable [DecidableEq ι]

theorem replay_without {s : Store S} {hist : List (ι × Event S)} {i : ι}
    (hi : ∀ p, (i, .commit p) ∉ hist) : replay s (hist.filter (·.1 ≠ i)) = replay s hist := by
  induction hist using List.reverseRecOn with
  | nil => rfl
  | append_singleton hist e ih =>
    have ih := ih (fun p hp => hi p (mem_append_left _ hp))
    rw [filter_append]
    by_cases he : e.1 = i
    · rw [replay_quiet s hist]
      · simpa [he] using ih
      · intro p hp
        obtain ⟨j, ev⟩ := e
        obtain ⟨rfl, rfl⟩ : j = i ∧ ev = .commit p := ⟨he, hp⟩
        exact hi p (mem_append_right _ (mem_singleton.mpr rfl))
    · have hf : [e].filter (·.1 ≠ i) = [e] := by simp [he]
      rw [hf, replay_snoc, replay_snoc, ih]

def events (w : World S ι ρ) (i : ι) : List (Event S) := (w.hist.filter (·.1 = i)).map (·.2)

theorem mem_events {w : World S ι ρ} {i : ι} {ev : Event S} :
    ev ∈ w.events i ↔ (i, ev) ∈ w.hist := by
  simp only [events, mem_map, mem_filter, decide_eq_true_eq]
  constructor
  · rintro ⟨⟨j, e⟩, ⟨h, rfl⟩, rfl⟩
    exact h
  · intro h
    exact ⟨(i, ev), ⟨h, rfl⟩, rfl⟩

theorem events_run {w w' : World S ι ρ} {i : ι} {ev : Event S}
    (h : w'.hist = w.hist ++ [(i, ev)]) (j : ι) :
    w'.events j = if i = j then w.events j ++ [ev] else w.events j := by
  unfold events
  rw [h, filter_append, map_append]
  split <;> simp_all

theorem hist_split {hist : List (ι × Event S)} {i : ι} {tr rest : List (Event S)} {ev : Event S}
    (h : (hist.filter (·.1 = i)).map (·.2) = tr ++ ev :: rest) :
    ∃ pre post, hist = pre ++ (i, ev) :: post ∧ (pre.filter (·.1 = i)).map (·.2) = tr := by
  induction hist generalizing tr with
  | nil => simp at h
  | cons e hist ih =>
    obtain ⟨j, ev'⟩ := e
    by_cases hj : j = i
    · subst hj
      rw [filter_cons_of_pos (by simp), map_cons] at h
      cases tr with
      | nil =>
        obtain ⟨rfl, -⟩ := List.cons.inj h
        exact ⟨[], hist, rfl, rfl⟩
      | cons x xs =>
        obtain ⟨rfl, htail⟩ := List.cons.inj h
        obtain ⟨pre, post, rfl, hpre⟩ := ih htail
        exact ⟨(j, ev') :: pre, post, rfl, by simp [hpre]⟩
    · rw [filter_cons_of_neg (by simpa using hj)] at h
      obtain ⟨pre, post, rfl, hpre⟩ := ih h
      exact ⟨(j, ev') :: pre, post, rfl, by simp [hj, hpre]⟩

end World

structure Terms (S : Schema) (ι ρ : Type) where
  row : (k : S.Key) → Option (S.Row k) → Prop
  commit : ι → Pending S → Prop
  post : ι → Frame S → ρ → Prop

variable [DecidableEq S.Key]

structure Terms.Meets (c : Terms S ι ρ) (s : Store S) (prog : ι → Prog S ρ) : Prop where
  rows : ∀ k, c.row k (s.row k)
  wp : ∀ i, (prog i).wp c.row (c.commit i) (c.post i) .init

namespace World

variable [DecidableEq ι]

structure Sound (c : Terms S ι ρ) (w : World S ι ρ) : Prop where
  locked : w.Locked
  rows : ∀ k, c.row k (w.store.row k)
  keeps : ∀ i, Thread.Keeps c.row (w.th i).frame
  wp : ∀ i, (w.th i).prog.wp c.row (c.commit i) (c.post i) (w.th i).frame
  past : ∀ i, (w.th i).frame.past = w.events i
  commits : ∀ i p, (i, .commit p) ∈ w.hist → c.commit i p

variable {s : Store S} {prog : ι → Prog S ρ} {c : Terms S ι ρ} {w w' : World S ι ρ}

theorem locked_reachable (hr : Reachable (start s prog) w) : w.Locked := by
  induction hr with
  | refl => exact locked_start s prog
  | step _ i ch hs ih =>
    obtain ⟨ev, t, hm⟩ := step_moves ih hs
    exact hm.locked

theorem sound_start (h : c.Meets s prog) : Sound c (start s prog) where
  locked := locked_start s prog
  rows := h.rows
  keeps i := .closed (by simp [start, Frame.init])
  wp := h.wp
  past _ := rfl
  commits := by simp [start]

theorem Sound.view (hw : Sound c w) (i : ι) (k : S.Key) :
    c.row k ((w.th i).frame.view w.store k) := by
  unfold Frame.view
  cases hx : (w.th i).frame.tx with
  | none => exact hw.rows k
  | some p =>
    cases hh : p.held k with
    | none => simpa [hh] using hw.rows k
    | some b => simpa [hh] using hw.keeps i p hx k b.1 b.2 hh

def Admitted (R : Rely S) (hist : List (ι × Event S)) : Prop :=
  ∀ e ∈ hist, Thread.Admits R e.2

variable {i : ι} {k : S.Key}

theorem Sound.sees {ev : Event S} {t : Thread S ρ} (hw : Sound c w)
    (hm : Moves w i ev t w') (ha : Thread.Admits c.row ev) : Thread.Sees c.row ev := by
  cases ev with
  | read k v =>
    have hf : (w.th i).frame.view w.store k = v := hm.fits
    exact hf ▸ hw.view i k
  | hit k old new =>
    have hf : (w.th i).frame.view w.store k = some old := hm.fits
    have hv := hw.view i k
    rwa [hf] at hv
  | miss k v =>
    have hf : (w.th i).frame.view w.store k = v := hm.fits
    exact hf ▸ hw.view i k
  | commit p =>
    intro k old new hk
    have hold : c.row k old := (hm.commit p rfl).1 k _ _ hk ▸ hw.rows k
    refine ⟨hold, ?_⟩
    rintro rfl
    exact ha k new hk
  | _ => trivial

theorem Sound.moves {ev : Event S} {t : Thread S ρ} (hw : Sound c w)
    (hm : Moves w i ev t w') (ha : Thread.Admits c.row ev) : Sound c w' := by
  obtain ⟨hwp, hkeeps, hcommit⟩ := hm.step.wp (hw.sees hm ha) (hw.keeps i) (hw.wp i)
  refine ⟨hm.locked, ?_, ?_, ?_, ?_, ?_⟩
  · intro k
    by_cases he : ∃ p, ev = .commit p
    · obtain ⟨p, rfl⟩ := he
      rw [(hm.commit p rfl).2]
      cases hh : p.held k with
      | none =>
        rw [Pending.apply_row_of_free hh]
        exact hw.rows k
      | some b =>
        rw [Pending.apply_row_of_held hh]
        exact (hcommit p rfl).2 k b.1 b.2 hh
    · exact hm.quiet (fun p hp => he ⟨p, hp⟩) ▸ hw.rows k
  · intro j
    rw [hm.th]
    by_cases hj : j = i
    · subst hj
      simpa using hkeeps
    · simpa [hj] using hw.keeps j
  · intro j
    rw [hm.th]
    by_cases hj : j = i
    · subst hj
      simpa using hwp
    · simpa [hj] using hw.wp j
  · intro j
    rw [hm.th, events_run hm.hist]
    by_cases hj : j = i
    · subst hj
      simp [hm.step.past, hw.past j]
    · rw [Function.update_of_ne hj, if_neg (Ne.symm hj)]
      exact hw.past j
  · intro j p hp
    rw [hm.hist, mem_append, mem_singleton] at hp
    rcases hp with hp | hp
    · exact hw.commits j p hp
    · obtain ⟨rfl, rfl⟩ := Prod.mk.inj hp
      exact (hcommit p rfl).1

theorem run_induction {C : World S ι ρ → Prop} (h : c.Meets s prog) (h0 : C (start s prog))
    (hstep : ∀ w i ev t w', Sound c w → Sound c w' → C w → Moves w i ev t w' → C w')
    (hr : Reachable (start s prog) w) (hf : Admitted c.row w.hist) : Sound c w ∧ C w := by
  induction hr with
  | refl => exact ⟨sound_start h, h0⟩
  | step hr i ch hs ih =>
    obtain ⟨ev, t, hm⟩ := step_moves (locked_reachable hr) hs
    rw [hm.hist] at hf
    have hw := ih (fun e he => hf e (mem_append_left _ he))
    have hw' := hw.1.moves hm (hf (i, ev) (mem_append_right _ (mem_singleton.mpr rfl)))
    exact ⟨hw', hstep _ _ _ _ _ hw.1 hw' hw.2 hm⟩

theorem admitted_of_closed (h : c.Meets s prog)
    (hc : ∀ i k v, c.commit i (.one k none v) → c.row k (some v))
    (hr : Reachable (start s prog) w) : Admitted c.row w.hist := by
  induction hr with
  | refl => simp [Admitted, start]
  | step hr i ch hs ih =>
    obtain ⟨hw, -⟩ := run_induction (C := fun _ => True) h trivial
      (fun _ _ _ _ _ _ _ _ _ => trivial) hr ih
    obtain ⟨ev, t, hm⟩ := step_moves hw.locked hs
    have hnone : ∀ k v, ev = .commit (.one k none v) → c.row k none := by
      rintro k v rfl
      exact (hm.commit _ rfl).1 k none v (Pending.one_held ..) ▸ hw.rows k
    have ha := hm.step.admits (hc i) (hw.keeps i) (hw.wp i) hnone
    intro e he
    rw [hm.hist, mem_append, mem_singleton] at he
    rcases he with he | rfl
    · exact ih e he
    · exact ha

theorem sound_reachable (h : c.Meets s prog) (hr : Reachable (start s prog) w)
    (hf : Admitted c.row w.hist) : Sound c w :=
  (run_induction (C := fun _ => True) h trivial (fun _ _ _ _ _ _ _ _ _ => trivial) hr hf).1

theorem Sound.post (hw : Sound c w) {r : ρ} (hi : (w.th i).prog = .ret r) :
    c.post i (w.th i).frame r := by
  have h := hw.wp i
  rwa [hi] at h

theorem store_invariant {I : Store S → Prop} (h : c.Meets s prog) (h0 : I s)
    (hI : ∀ i p s', c.commit i p → I s' → p.Agrees s' → (∀ k, c.row k (s'.row k)) → I (p.apply s'))
    (hr : Reachable (start s prog) w) (hf : Admitted c.row w.hist) : I w.store := by
  refine (run_induction (C := fun w => I w.store) h h0 ?_ hr hf).2
  intro w i ev t w' hw hw' hIw hm
  by_cases he : ∃ p, ev = .commit p
  · obtain ⟨p, rfl⟩ := he
    obtain ⟨ha, hs⟩ := hm.commit p rfl
    have hG : c.commit i p := hw'.commits i p (by simp [hm.hist])
    rw [hs]
    exact hI i p w.store hG hIw ha hw.rows
  · rw [hm.quiet (fun p hp => he ⟨p, hp⟩)]
    exact hIw

theorem store_eq_replay (hr : Reachable (start s prog) w) : w.store = replay s w.hist := by
  induction hr with
  | refl => rfl
  | @step w w' hr i ch hs ih =>
    obtain ⟨ev, t, hm⟩ := step_moves (locked_reachable hr) hs
    rw [hm.hist]
    by_cases he : ∃ p, ev = .commit p
    · obtain ⟨p, rfl⟩ := he
      rw [(hm.commit p rfl).2, replay_snoc, ih]
    · rw [hm.quiet (fun p hp => he ⟨p, hp⟩), replay_quiet s w.hist (fun p hp => he ⟨p, hp⟩), ih]

variable {pre rest : List (ι × Event S)}

theorem commit_agrees (hr : Reachable (start s prog) w)
    {p : Pending S} (hw : w.hist = pre ++ (i, .commit p) :: rest) : p.Agrees (replay s pre) := by
  induction hr generalizing rest with
  | refl => simp [start] at hw
  | @step w₁ w₂ hr₁ j ch hs ih =>
    obtain ⟨ev, t, hm⟩ := step_moves (locked_reachable hr₁) hs
    rw [hm.hist] at hw
    rcases eq_nil_or_concat rest with rfl | ⟨rest, e, rfl⟩
    · obtain ⟨rfl, he⟩ := append_inj' hw rfl
      obtain ⟨rfl, rfl⟩ : j = i ∧ ev = .commit p := by simpa using he
      rw [← store_eq_replay hr₁]
      exact (hm.commit p rfl).1
    · rw [concat_eq_append, ← cons_append, ← append_assoc] at hw
      exact ih (append_inj' hw rfl).1

theorem tx_begun (hr : Reachable (start s prog) w) (h : .begin ∉ w.events i) :
    (w.th i).frame.tx = none := by
  induction hr with
  | refl => rfl
  | step hr j ch hs ih =>
    obtain ⟨ev, t, hm⟩ := step_moves (locked_reachable hr) hs
    rw [events_run hm.hist] at h
    rw [hm.th]
    by_cases hj : j = i
    · subst hj
      rw [if_pos rfl, mem_append, mem_singleton] at h
      have hne : ev ≠ .begin := fun he => h (.inr he.symm)
      simpa using hm.step.closed (ih fun hb => h (.inl hb)) hne
    · rw [if_neg hj] at h
      rw [Function.update_of_ne (Ne.symm hj)]
      exact ih h

theorem seen (hr : Reachable (start s prog) w)
    {v : Option (S.Row k)} {ev : Event S} (hev : ev = .read k v ∨ ev = .miss k v)
    (hw : w.hist = pre ++ (i, ev) :: rest) (hpre : (i, .begin) ∉ pre) :
    v = (replay s pre).row k := by
  induction hr generalizing rest with
  | refl => simp [start] at hw
  | @step w₁ w₂ hr₁ j ch hs ih =>
    obtain ⟨ev', t, hm⟩ := step_moves (locked_reachable hr₁) hs
    rw [hm.hist] at hw
    rcases eq_nil_or_concat rest with rfl | ⟨rest, e, rfl⟩
    · obtain ⟨rfl, he⟩ := append_inj' hw rfl
      obtain ⟨rfl, rfl⟩ : j = i ∧ ev' = ev := by simpa using he
      have htx := tx_begun hr₁ (mt mem_events.mp hpre)
      have hview : (w₁.th j).frame.view w₁.store k = v := by
        rcases hev with rfl | rfl
        · exact hm.fits
        · exact hm.fits
      rw [← store_eq_replay hr₁, ← hview]
      simp [Frame.view, htx]
    · rw [concat_eq_append, ← cons_append, ← append_assoc] at hw
      exact ih (append_inj' hw rfl).1

theorem row_keeps {P : S.Row k → Prop}
    (hc : ∀ i p old new, (i, .commit p) ∈ w.hist → p.held k = some (some old, new) → P old → P new)
    (hr : Reachable (start s prog) w) {pre mid rest : List (ι × Event S)}
    (hw : w.hist = pre ++ mid ++ rest) {v : S.Row k} (hv : (replay s pre).row k = some v) (hP : P v) :
    ∃ u, (replay s (pre ++ mid)).row k = some u ∧ P u := by
  induction mid using List.reverseRecOn generalizing rest with
  | nil => exact ⟨v, by simpa using hv, hP⟩
  | append_singleton mid e ih =>
    obtain ⟨j, ev⟩ := e
    have hsplit : w.hist = pre ++ mid ++ (j, ev) :: rest := by simpa using hw
    obtain ⟨u, hu, hPu⟩ := ih hsplit
    rw [← append_assoc, replay_snoc]
    cases ev with
    | commit p =>
      cases hh : p.held k with
      | none => exact ⟨u, by simpa only [Pending.apply_row_of_free hh] using hu, hPu⟩
      | some b =>
        obtain ⟨old, new⟩ := b
        obtain rfl : old = some u := (commit_agrees hr hsplit k old new hh).symm.trans hu
        exact ⟨new, Pending.apply_row_of_held hh, hc j p u new (by simp [hsplit]) hh hPu⟩
    | _ => exact ⟨u, hu, hPu⟩

theorem row_lasts {P : S.Row k → Prop}
    (hc : ∀ i p old new, (i, .commit p) ∈ w.hist → p.held k = some (some old, new) → P old → P new)
    (hr : Reachable (start s prog) w) (hw : w.hist = pre ++ rest)
    {v : S.Row k} (hv : (replay s pre).row k = some v) (hP : P v) :
    ∃ u, w.store.row k = some u ∧ P u := by
  have hall : w.hist = pre ++ rest ++ [] := by simpa using hw
  have h := row_keeps hc hr hall hv hP
  rwa [← hw, ← store_eq_replay hr] at h

theorem row_stable {β : Type} {f : S.Row k → β}
    (hc : ∀ i p old new, (i, .commit p) ∈ w.hist → p.held k = some (some old, new) → f new = f old)
    (hr : Reachable (start s prog) w) :
    (∀ v, s.row k = some v → ∃ u, w.store.row k = some u ∧ f u = f v) ∧
      ∀ i p old new, (i, .commit p) ∈ w.hist → p.held k = some (old, new) →
        ∃ u, w.store.row k = some u ∧ f u = f new := by
  have hkeep : ∀ v i p old new, (i, .commit p) ∈ w.hist → p.held k = some (some old, new) →
      f old = f v → f new = f v := fun v i p old new hp hh h => (hc i p old new hp hh).trans h
  constructor
  · intro v hv
    have hall : w.hist = [] ++ w.hist := rfl
    exact row_lasts (hkeep v) hr hall hv rfl
  · intro i p old new hp hh
    obtain ⟨pre, rest, hw⟩ := append_of_mem hp
    have hrow : (replay s (pre ++ [(i, .commit p)])).row k = some new := by
      rw [replay_snoc]
      exact Pending.apply_row_of_held hh
    exact row_lasts (hkeep new) hr (by simpa using hw) hrow rfl

end World

end ReadCommitted
