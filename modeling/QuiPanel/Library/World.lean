import QuiPanel.Library.Program

namespace ReadCommitted

variable {S : Schema} {ι ρ : Type}

def Prog.outcome : Prog S ρ → Option ρ
  | .ret r => some r
  | _ => none

theorem Prog.ret_of_outcome {p : Prog S ρ} {r : ρ} (h : p.outcome = some r) : p = .ret r := by
  cases p with
  | ret r' => rw [Option.some.inj h]
  | _ => cases h

structure Thread (S : Schema) (ρ : Type) where
  prog : Prog S ρ
  frame : Frame S

inductive Choice (S : Schema) where
  | go
  | fault
  | fresh (n : Nat)
  | answer (a : (q : S.Query) → S.Answer q)

structure World (S : Schema) (ι ρ : Type) where
  store : Store S
  locks : S.Key → Option ι
  th : ι → Thread S ρ
  hist : List (ι × Event S)

namespace Thread

def Sees (R : Rely S) : Event S → Prop
  | .read k v => R k v
  | .hit k old _ => R k (some old)
  | .miss k v => R k v
  | .commit p => ∀ k old new, p.held k = some (old, new) →
      R k old ∧ (old = none → R k (some new))
  | _ => True

def Keeps (R : Rely S) (l : Frame S) : Prop :=
  ∀ p, l.tx = some p → ∀ k old new, p.held k = some (old, new) → R k (some new)

variable {R : Rely S} {G : Pending S → Prop} {t t' : Thread S ρ} {ev : Event S}

variable {l : Frame S} {k : S.Key} {new : S.Row k} {Φ : Frame S → ρ → Prop}

theorem Keeps.add {e : S.Entry}
    (h : Keeps R l) : Keeps R (l.add e) := by
  intro p hp j o n hj
  cases hx : l.tx with
  | none => simp [Frame.add, hx] at hp
  | some q =>
    obtain rfl : q.note e = p := by simpa [Frame.add, hx] using hp
    exact h q hx j o n hj

theorem Keeps.closed
    (h : ∀ p, l.tx = some p → p = .empty) : Keeps R l := by
  intro p hp k old new hk
  rw [h p hp] at hk
  simp at hk

def Commits (R : Rely S) (G : Pending S → Prop) (ev : Event S) :
    Prop :=
  ∀ p, ev = .commit p → G p ∧ ∀ k old new, p.held k = some (old, new) → R k (some new)

theorem commits_of
    (h : ∀ p, ev ≠ .commit p) : Commits R G ev := fun p hp => absurd hp (h p)

variable [DecidableEq S.Key]

inductive Step (t : Thread S ρ) : Event S → Thread S ρ → Prop
  | read {k next fail} (h : t.prog = .read k next fail) (v) :
      Step t (.read k v) ⟨next v, t.frame.push (.read k v)⟩
  | hit {k guard set next fail p v} (h : t.prog = .update k guard set next fail)
      (hv : guard v = true) (ht : t.frame.tx = some p) :
      Step t (.hit k v (set v)) ⟨next true, t.frame.write k v (set v)⟩
  | auto {k guard set next fail v} (h : t.prog = .update k guard set next fail)
      (hv : guard v = true) (ht : t.frame.tx = none) :
      Step t (.commit (.one k (some v) (set v))) ⟨next true, t.frame.write k v (set v)⟩
  | miss {k guard set next fail v} (h : t.prog = .update k guard set next fail)
      (hv : ∀ u, v = some u → guard u = false) :
      Step t (.miss k v) ⟨next false, t.frame.push (.miss k v)⟩
  | create {make next fail p} (h : t.prog = .create make next fail) (n)
      (ht : t.frame.tx = some p) :
      Step t (.create (make n).1 (make n).2) ⟨next n, t.frame.fresh (make n).1 (make n).2⟩
  | createAuto {make next fail} (h : t.prog = .create make next fail) (n)
      (ht : t.frame.tx = none) :
      Step t (.commit (.one (make n).1 none (make n).2)) ⟨next n, t.frame.fresh (make n).1 (make n).2⟩
  | insert {e next fail p} (h : t.prog = .insert e next fail) (ht : t.frame.tx = some p) :
      Step t (.insert e) ⟨next, t.frame.add e⟩
  | insertAuto {e next fail} (h : t.prog = .insert e next fail) (ht : t.frame.tx = none) :
      Step t (.commit (Pending.empty.note e)) ⟨next, t.frame.add e⟩
  | begin {next} (h : t.prog = .begin next) : Step t .begin ⟨next, t.frame.start⟩
  | commit {next fail} (h : t.prog = .commit next fail) :
      Step t (.commit (t.frame.tx.getD .empty)) ⟨next, t.frame.finish⟩
  | rollback {next} (h : t.prog = .rollback next) : Step t .rollback ⟨next, t.frame.abort⟩
  | ask {q next} (h : t.prog = .ask q next) (a) :
      Step t (.ask q a) ⟨next a, t.frame.push (.ask q a)⟩
  | readFault {k next fail} (h : t.prog = .read k next fail) :
      Step t (.fault (.read k)) ⟨fail, t.frame.push (.fault (.read k))⟩
  | updateFault {k guard set next fail} (h : t.prog = .update k guard set next fail) :
      Step t (.fault (.update k)) ⟨fail, t.frame.push (.fault (.update k))⟩
  | createFault {make next fail} (h : t.prog = .create make next fail) :
      Step t (.fault .create) ⟨fail, t.frame.push (.fault .create)⟩
  | insertFault {e next fail} (h : t.prog = .insert e next fail) :
      Step t (.fault .insert) ⟨fail, t.frame.push (.fault .insert)⟩
  | commitFault {next fail} (h : t.prog = .commit next fail) :
      Step t (.fault .commit) ⟨fail, t.frame.crash⟩

theorem Step.past (h : Step t ev t') :
    t'.frame.past = t.frame.past ++ [ev] := by
  cases h with
  | hit _ _ ht => simp [Frame.write, ht]
  | auto _ _ ht => simp [Frame.write, ht]
  | create _ _ ht => simp [Frame.fresh, ht]
  | createAuto _ _ ht => simp [Frame.fresh, ht]
  | insert _ ht => simp [Frame.add, ht]
  | insertAuto _ ht => simp [Frame.add, ht]
  | _ => rfl

theorem Step.closed (h : Step t ev t') (ht : t.frame.tx = none)
    (hev : ev ≠ .begin) : t'.frame.tx = none := by
  cases h with
  | hit _ _ hx => simp [ht] at hx
  | auto _ _ _ => simp [Frame.write, ht]
  | create _ _ hx => simp [ht] at hx
  | createAuto _ _ _ => simp [Frame.fresh, ht]
  | insert _ hx => simp [ht] at hx
  | insertAuto _ _ => simp [Frame.add, ht]
  | begin _ => exact absurd rfl hev
  | commit _ | rollback _ | commitFault _ => rfl
  | _ => exact ht

theorem Keeps.write
    {old new : S.Row k} (h : Keeps R l) (hn : R k (some new)) : Keeps R (l.write k old new) := by
  intro p hp j o n hj
  cases hx : l.tx with
  | none => simp [Frame.write, hx] at hp
  | some q =>
    obtain rfl : q.put k (some old) new = p := by simpa [Frame.write, hx] using hp
    by_cases hk : j = k
    · subst hk
      rw [Pending.put_held] at hj
      obtain ⟨-, rfl⟩ := Prod.mk.inj (Option.some.inj hj)
      exact hn
    · rw [Pending.put_held_of_ne _ _ _ hk] at hj
      exact h q hx j o n hj

theorem Keeps.fresh
    (h : Keeps R l) (hn : R k (some new)) : Keeps R (l.fresh k new) := by
  intro p hp j o n hj
  cases hx : l.tx with
  | none => simp [Frame.fresh, hx] at hp
  | some q =>
    obtain rfl : q.put k none new = p := by simpa [Frame.fresh, hx] using hp
    by_cases hk : j = k
    · subst hk
      rw [Pending.put_held] at hj
      obtain ⟨-, rfl⟩ := Prod.mk.inj (Option.some.inj hj)
      exact hn
    · rw [Pending.put_held_of_ne _ _ _ hk] at hj
      exact h q hx j o n hj

theorem commits_one
    {old : Option (S.Row k)} (hR : R k (some new)) (hG : G (.one k old new)) :
    Commits R G (.commit (.one k old new)) := by
  rintro p ⟨⟩
  refine ⟨hG, ?_⟩
  intro j o n hj
  by_cases hk : j = k
  · subst hk
    rw [Pending.one_held] at hj
    obtain ⟨-, rfl⟩ := Prod.mk.inj (Option.some.inj hj)
    exact hR
  · simp [Pending.one_held_of_ne _ _ hk] at hj

theorem Step.wp
    (h : Step t ev t')
    (hs : Sees R ev) (hk : Keeps R t.frame) (hp : t.prog.wp R G Φ t.frame) :
    t'.prog.wp R G Φ t'.frame ∧ Keeps R t'.frame ∧ Commits R G ev := by
  cases h with
  | read h v => rw [h] at hp; exact ⟨hp.1 v hs, hk, commits_of (by simp)⟩
  | hit h hv _ =>
    rw [h] at hp
    obtain ⟨h₁, -, h₃⟩ := hp.1 _ hs hv
    exact ⟨h₃, hk.write h₁, commits_of (by simp)⟩
  | auto h hv ht =>
    rw [h] at hp
    obtain ⟨h₁, h₂, h₃⟩ := hp.1 _ (hs _ _ _ (Pending.one_held ..)).1 hv
    exact ⟨h₃, hk.write h₁, commits_one h₁ (h₂ ht)⟩
  | miss h hv => rw [h] at hp; exact ⟨hp.2.1 _ hs hv, hk, commits_of (by simp)⟩
  | create h n ht =>
    rw [h] at hp
    simp [hp.1] at ht
  | createAuto h n ht =>
    rw [h] at hp
    obtain ⟨hnone, hsome⟩ := hs _ _ _ (Pending.one_held ..)
    have hnew := hsome rfl
    obtain ⟨h₁, h₂⟩ := hp.2.1 n hnone
    exact ⟨h₂ hnew, hk.fresh hnew, commits_one hnew h₁⟩
  | insert h _ => rw [h] at hp; exact ⟨hp.2.1, hk.add, commits_of (by simp)⟩
  | insertAuto h ht =>
    rw [h] at hp
    exact ⟨hp.2.1, hk.add, by rintro p ⟨⟩; exact ⟨hp.1 ht, by simp⟩⟩
  | begin h =>
    rw [h] at hp
    exact ⟨hp, .closed (by simp [Frame.start, eq_comm]), commits_of (by simp)⟩
  | commit h =>
    rw [h] at hp
    refine ⟨hp.2.1, .closed (by simp [Frame.finish]), ?_⟩
    rintro p ⟨⟩
    refine ⟨hp.1, ?_⟩
    intro k old new hh
    cases hx : t.frame.tx with
    | none => simp [hx] at hh
    | some q => exact hk q hx k old new (by simpa [hx] using hh)
  | rollback h => rw [h] at hp; exact ⟨hp, .closed (by simp [Frame.abort]), commits_of (by simp)⟩
  | ask h a => rw [h] at hp; exact ⟨hp a, hk, commits_of (by simp)⟩
  | readFault h => rw [h] at hp; exact ⟨hp.2, hk, commits_of (by simp)⟩
  | updateFault h => rw [h] at hp; exact ⟨hp.2.2, hk, commits_of (by simp)⟩
  | createFault h => rw [h] at hp; exact ⟨hp.2.2, hk, commits_of (by simp)⟩
  | insertFault h => rw [h] at hp; exact ⟨hp.2.2, hk, commits_of (by simp)⟩
  | commitFault h =>
    rw [h] at hp
    exact ⟨hp.2.2, .closed (by simp [Frame.crash]), commits_of (by simp)⟩

def Admits (R : Rely S) : Event S → Prop
  | .commit p => ∀ k new, p.held k = some (none, new) → R k (some new)
  | _ => True

theorem admits_one {old : Option (S.Row k)}
    (h : old = none → R k (some new)) : Admits R (.commit (.one k old new)) := by
  intro j v hj
  by_cases hk : j = k
  · subst hk
    rw [Pending.one_held] at hj
    obtain ⟨rfl, rfl⟩ := Prod.mk.inj (Option.some.inj hj)
    exact h rfl
  · simp [Pending.one_held_of_ne _ _ hk] at hj

theorem Step.admits
    (h : Step t ev t')
    (hG : ∀ k v, G (.one k none v) → R k (some v)) (hk : Keeps R t.frame)
    (hp : t.prog.wp R G Φ t.frame)
    (hs : ∀ k v, ev = .commit (.one k none v) → R k none) : Admits R ev := by
  cases h with
  | createAuto h n _ =>
    rw [h] at hp
    exact admits_one fun _ => hG _ _ (hp.2.1 n (hs _ _ rfl)).1
  | auto h _ _ => exact admits_one (by simp)
  | insertAuto h _ =>
    intro k new hh
    simp at hh
  | commit h =>
    intro k new hh
    cases hx : t.frame.tx with
    | none => simp [hx] at hh
    | some q => exact hk q hx k none new (by simpa [hx] using hh)
  | _ => trivial

end Thread

namespace World

def start (s : Store S) (prog : ι → Prog S ρ) : World S ι ρ where
  store := s
  locks _ := none
  th i := ⟨prog i, .init⟩
  hist := []

variable [DecidableEq ι]

def run (w : World S ι ρ) (i : ι) (ev : Event S) (t : Thread S ρ) : World S ι ρ :=
  { w with th := Function.update w.th i t, hist := w.hist ++ [(i, ev)] }

def free (w : World S ι ρ) (i : ι) (k : S.Key) : Bool :=
  match w.locks k with
  | none => true
  | some j => j == i

def unlock (w : World S ι ρ) (i : ι) : World S ι ρ :=
  { w with locks := fun k => if w.locks k = some i then none else w.locks k }

def publish (w : World S ι ρ) (p : Pending S) : World S ι ρ := { w with store := p.apply w.store }

variable [DecidableEq S.Key]

def lock (w : World S ι ρ) (i : ι) (k : S.Key) : World S ι ρ :=
  { w with locks := Function.update w.locks k (some i) }

def write (w : World S ι ρ) (i : ι) (k : S.Key) (old : Option (S.Row k)) (new : S.Row k)
    (ev : Event S) (t : Thread S ρ) : Option (World S ι ρ) :=
  if w.free i k then
    match (w.th i).frame.tx with
    | some _ => some ((w.run i ev t).lock i k)
    | none => some ((w.run i (.commit (.one k old new)) t).publish (.one k old new))
  else none

def step (w : World S ι ρ) (i : ι) (c : Choice S) : Option (World S ι ρ) :=
  let l := (w.th i).frame
  match (w.th i).prog, c with
  | .read k next _, .go =>
      let v := l.view w.store k
      some (w.run i (.read k v) ⟨next v, l.push (.read k v)⟩)
  | .read k _ fail, .fault =>
      some (w.run i (.fault (.read k)) ⟨fail, l.push (.fault (.read k))⟩)
  | .update k guard set next _, .go =>
      match l.view w.store k with
      | some v =>
          if guard v then w.write i k (some v) (set v) (.hit k v (set v)) ⟨next true, l.write k v (set v)⟩
          else some (w.run i (.miss k (some v)) ⟨next false, l.push (.miss k (some v))⟩)
      | none => some (w.run i (.miss k none) ⟨next false, l.push (.miss k none)⟩)
  | .update k _ _ _ fail, .fault =>
      some (w.run i (.fault (.update k)) ⟨fail, l.push (.fault (.update k))⟩)
  | .create make next _, .fresh n =>
      match l.view w.store (make n).1 with
      | some _ => none
      | none =>
          w.write i (make n).1 none (make n).2 (.create (make n).1 (make n).2)
            ⟨next n, l.fresh (make n).1 (make n).2⟩
  | .create _ _ fail, .fault => some (w.run i (.fault .create) ⟨fail, l.push (.fault .create)⟩)
  | .insert e next _, .go =>
      match l.tx with
      | some _ => some (w.run i (.insert e) ⟨next, l.add e⟩)
      | none =>
          some ((w.run i (.commit (Pending.empty.note e)) ⟨next, l.add e⟩).publish (Pending.empty.note e))
  | .insert _ _ fail, .fault => some (w.run i (.fault .insert) ⟨fail, l.push (.fault .insert)⟩)
  | .begin next, .go => some ((w.run i .begin ⟨next, l.start⟩).unlock i)
  | .commit next _, .go =>
      some (((w.run i (.commit (l.tx.getD .empty)) ⟨next, l.finish⟩).publish (l.tx.getD .empty)).unlock i)
  | .commit _ fail, .fault => some ((w.run i (.fault .commit) ⟨fail, l.crash⟩).unlock i)
  | .rollback next, .go => some ((w.run i .rollback ⟨next, l.abort⟩).unlock i)
  | .ask q next, .answer a => some (w.run i (.ask q (a q)) ⟨next (a q), l.push (.ask q (a q))⟩)
  | _, _ => none

def exec (w : World S ι ρ) : List (ι × Choice S) → Option (World S ι ρ)
  | [] => some w
  | (i, c) :: rest => (w.step i c).bind (·.exec rest)

inductive Reachable (w₀ : World S ι ρ) : World S ι ρ → Prop
  | refl : Reachable w₀ w₀
  | step {w w'} (h : Reachable w₀ w) (i : ι) (c : Choice S) (hs : w.step i c = some w') :
      Reachable w₀ w'

theorem reachable_exec {w₀ w w' : World S ι ρ} (h : Reachable w₀ w)
    (sched : List (ι × Choice S)) (hs : w.exec sched = some w') : Reachable w₀ w' := by
  induction sched generalizing w with
  | nil => cases hs; exact h
  | cons a rest ih =>
    obtain ⟨w₁, h₁, h₂⟩ := Option.bind_eq_some_iff.mp hs
    exact ih (h.step _ _ h₁) h₂

theorem exec_reaches {w₀ : World S ι ρ} {sched : List (ι × Choice S)} {β : Type} {f : World S ι ρ → β} {b : β}
    (h : (w₀.exec sched).map f = some b) : ∃ w, Reachable w₀ w ∧ f w = b := by
  obtain ⟨w, hw, he⟩ := Option.map_eq_some_iff.mp h
  exact ⟨w, reachable_exec .refl sched hw, he⟩

end World

end ReadCommitted
