import QuiPanel.Library.World

namespace ReadCommitted

variable {S : Schema} {ι ρ : Type}

namespace World

structure Locked (w : World S ι ρ) : Prop where
  owner : ∀ i p, (w.th i).frame.tx = some p → ∀ k h, p.held k = some h → w.locks k = some i
  agrees : ∀ i p, (w.th i).frame.tx = some p → p.Agrees w.store

theorem locked_start (s : Store S) (prog : ι → Prog S ρ) : (start s prog).Locked :=
  ⟨by simp [start, Frame.init], by simp [start, Frame.init]⟩

variable [DecidableEq ι]

variable {w : World S ι ρ} {t : Thread S ρ} {i : ι}

variable {k : S.Key} {w w' : World S ι ρ} {ev : Event S} {p : Pending S}

theorem free_iff :
    w.free i k = true ↔ ∀ j, w.locks k = some j → j = i := by
  unfold free
  cases w.locks k with
  | none => simp
  | some j => simp

theorem Locked.update (hw : w.Locked)
    (hth : w'.th = Function.update w.th i t)
    (hlocks : ∀ j ≠ i, ∀ k, w.locks k = some j → w'.locks k = some j)
    (hstore : ∀ j ≠ i, ∀ k, w.locks k = some j → w'.store.row k = w.store.row k)
    (howner : ∀ p, t.frame.tx = some p → ∀ k h, p.held k = some h → w'.locks k = some i)
    (hagrees : ∀ p, t.frame.tx = some p → p.Agrees w'.store) : w'.Locked := by
  constructor
  · intro j p hp k h hk
    rw [hth] at hp
    by_cases hj : j = i
    · subst hj
      exact howner p (by simpa using hp) k h hk
    · rw [Function.update_of_ne hj] at hp
      exact hlocks j hj k (hw.owner j p hp k h hk)
  · intro j p hp
    rw [hth] at hp
    by_cases hj : j = i
    · subst hj
      exact hagrees p (by simpa using hp)
    · rw [Function.update_of_ne hj] at hp
      intro k old new hk
      rw [hstore j hj k (hw.owner j p hp k _ hk)]
      exact hw.agrees j p hp k old new hk

def Fits (l : Frame S) (s : Store S) : Event S → Prop
  | .read k v => l.view s k = v
  | .hit k old _ => l.view s k = some old
  | .miss k v => l.view s k = v
  | .create k _ => l.view s k = none
  | _ => True

theorem unlock_keeps {i j : ι} (hj : j ≠ i)
    (h : w.locks k = some j) : (w.unlock i).locks k = some j := by
  simp [unlock, h, hj]

variable [DecidableEq S.Key]

structure Moves (w : World S ι ρ) (i : ι) (ev : Event S) (t : Thread S ρ) (w' : World S ι ρ) :
    Prop where
  step : (w.th i).Step ev t
  fits : Fits (w.th i).frame w.store ev
  th : w'.th = Function.update w.th i t
  hist : w'.hist = w.hist ++ [(i, ev)]
  commit : ∀ p, ev = .commit p → p.Agrees w.store ∧ w'.store = p.apply w.store
  quiet : (∀ p, ev ≠ .commit p) → w'.store = w.store
  locked : w'.Locked

theorem moves_run (hw : w.Locked)
    (hs : (w.th i).Step ev t) (hv : Fits (w.th i).frame w.store ev) (he : ∀ p, ev ≠ .commit p)
    (ht : t.frame.tx = (w.th i).frame.tx) : Moves w i ev t (w.run i ev t) where
  step := hs
  fits := hv
  th := rfl
  hist := rfl
  commit p hp := absurd hp (he p)
  quiet _ := rfl
  locked := hw.update rfl (fun _ _ _ h => h) (fun _ _ _ _ => rfl)
    (fun p hp => hw.owner i p (ht ▸ hp)) (fun p hp => hw.agrees i p (ht ▸ hp))

theorem moves_release (hw : w.Locked)
    (hs : (w.th i).Step ev t) (hv : Fits (w.th i).frame w.store ev) (he : ∀ p, ev ≠ .commit p)
    (ht : ∀ p, t.frame.tx = some p → p = .empty) : Moves w i ev t ((w.run i ev t).unlock i) where
  step := hs
  fits := hv
  th := rfl
  hist := rfl
  commit p hp := absurd hp (he p)
  quiet _ := rfl
  locked := hw.update rfl (fun _ hj _ h => unlock_keeps (w := w) hj h)
    (fun _ _ _ _ => rfl)
    (fun p hp k h hk => by rw [ht p hp] at hk; simp at hk)
    (fun p hp k old new hk => by rw [ht p hp] at hk; simp at hk)

theorem moves_commit (hw : w.Locked)
    (hs : (w.th i).Step (.commit ((w.th i).frame.tx.getD .empty)) t) (ht : t.frame.tx = none) :
    Moves w i (.commit ((w.th i).frame.tx.getD .empty)) t
      (((w.run i (.commit ((w.th i).frame.tx.getD .empty)) t).publish
        ((w.th i).frame.tx.getD .empty)).unlock i) where
  step := hs
  fits := trivial
  th := rfl
  hist := rfl
  commit p hp := by
    cases hp
    refine ⟨?_, rfl⟩
    cases hx : (w.th i).frame.tx with
    | none => intro k old new hk; simp at hk
    | some p => exact hw.agrees i p hx
  quiet h := absurd rfl (h _)
  locked := by
    refine hw.update rfl (fun _ hj _ h => unlock_keeps (w := w) hj h) ?_
      (fun p hp => by simp [ht] at hp) (fun p hp => by simp [ht] at hp)
    intro j hj k hk
    apply Pending.apply_row_of_free
    cases hx : (w.th i).frame.tx with
    | none => rfl
    | some p =>
      cases hh : p.held k with
      | none => exact hh
      | some h => exact absurd ((hw.owner i p hx k h hh).symm.trans hk) (by simpa using hj.symm)

theorem moves_write {old : Option (S.Row k)}
    {new : S.Row k} (hw : w.Locked)
    (hin : ∀ p, (w.th i).frame.tx = some p → (w.th i).Step ev t ∧ (∀ q, ev ≠ .commit q) ∧
      t.frame.tx = some (p.put k old new))
    (hauto : (w.th i).frame.tx = none → (w.th i).Step (.commit (.one k old new)) t ∧
      t.frame.tx = none)
    (hview : (w.th i).frame.view w.store k = old) (hv : Fits (w.th i).frame w.store ev)
    (h : w.write i k old new ev t = some w') :
    ∃ ev', Moves w i ev' t w' := by
  unfold write at h
  split at h
  case isFalse => cases h
  case isTrue hf =>
    have hfree := free_iff.mp hf
    cases hx : (w.th i).frame.tx with
    | some p =>
      obtain ⟨hs, he, ht⟩ := hin p hx
      simp only [hx, Option.some.injEq] at h
      subst h
      refine ⟨ev, hs, hv, rfl, rfl, fun q hq => absurd hq (he q), fun _ => rfl, ?_⟩
      refine hw.update rfl ?_ (fun _ _ _ _ => rfl) ?_ ?_
      · intro j hj k' hk'
        have hne : k' ≠ k := by
          rintro rfl
          exact hj (hfree j hk')
        simp [lock, run, hne, hk']
      · intro q hq k' h' hk'
        obtain rfl : p.put k old new = q := by simpa [ht] using hq
        by_cases hk : k' = k
        · subst hk
          simp [lock]
        · rw [Pending.put_held_of_ne _ _ _ hk] at hk'
          simpa [lock, run, hk] using hw.owner i p hx k' h' hk'
      · intro q hq k' old' new' hk'
        obtain rfl : p.put k old new = q := by simpa [ht] using hq
        by_cases hk : k' = k
        · subst hk
          rw [Pending.put_held] at hk'
          simp only [Option.some.injEq, Prod.mk.injEq] at hk'
          cases hh : p.held k' with
          | none =>
            simp only [hh, Option.map_none, Option.getD_none] at hk'
            rw [← hk'.1, ← hview]
            simp [Frame.view, hx, hh, lock, run]
          | some b =>
            simp only [hh, Option.map_some, Option.getD_some] at hk'
            rw [← hk'.1]
            exact hw.agrees i p hx k' b.1 b.2 hh
        · rw [Pending.put_held_of_ne _ _ _ hk] at hk'
          exact hw.agrees i p hx k' old' new' hk'
    | none =>
      obtain ⟨hs, ht⟩ := hauto hx
      simp only [hx, Option.some.injEq] at h
      subst h
      refine ⟨_, hs, trivial, rfl, rfl, ?_, fun hq => absurd rfl (hq _), ?_⟩
      · rintro q ⟨⟩
        refine ⟨?_, rfl⟩
        intro k' old' new' hk'
        by_cases hk : k' = k
        · subst hk
          simp only [Pending.one_held, Option.some.injEq, Prod.mk.injEq] at hk'
          rw [← hk'.1, ← hview]
          simp [Frame.view, hx]
        · simp [Pending.one_held_of_ne _ _ hk] at hk'
      · refine hw.update rfl (fun _ _ _ h => h) ?_ (fun p hp => by simp [ht] at hp)
          (fun p hp => by simp [ht] at hp)
        intro j hj k' hk'
        have hne : k' ≠ k := by
          rintro rfl
          exact hj (hfree j hk')
        exact Pending.apply_row_of_free (Pending.one_held_of_ne _ _ hne)

theorem moves_note
    {e : S.Entry} (hw : w.Locked) (hs : (w.th i).Step ev t)
    (hv : Fits (w.th i).frame w.store ev) (he : ∀ p, ev ≠ .commit p)
    (hx : (w.th i).frame.tx = some p) (ht : t.frame.tx = some (p.note e)) :
    Moves w i ev t (w.run i ev t) where
  step := hs
  fits := hv
  th := rfl
  hist := rfl
  commit p hp := absurd hp (he p)
  quiet _ := rfl
  locked := by
    refine hw.update rfl (fun _ _ _ h => h) (fun _ _ _ _ => rfl) ?_ ?_
    · intro q hq k h hk
      obtain rfl : p.note e = q := by simpa [ht] using hq
      exact hw.owner i p hx k h hk
    · intro q hq
      obtain rfl : p.note e = q := by simpa [ht] using hq
      exact hw.agrees i p hx

theorem moves_append {e : S.Entry} (hw : w.Locked)
    (hs : (w.th i).Step (.commit (Pending.empty.note e)) t) (ht : t.frame.tx = none) :
    Moves w i (.commit (Pending.empty.note e)) t
      ((w.run i (.commit (Pending.empty.note e)) t).publish (Pending.empty.note e)) where
  step := hs
  fits := trivial
  th := rfl
  hist := rfl
  commit p hp := by
    cases hp
    exact ⟨fun k old new hk => by simp at hk, rfl⟩
  quiet h := absurd rfl (h _)
  locked := hw.update rfl (fun _ _ _ h => h) (fun _ _ _ _ => rfl)
    (fun p hp => by simp [ht] at hp) (fun p hp => by simp [ht] at hp)

theorem write_frame {l : Frame S} {old new : S.Row k}
    (h : l.tx = some p) : (l.write k old new).tx = some (p.put k (some old) new) := by
  simp [Frame.write, h]

theorem fresh_frame {l : Frame S} {new : S.Row k}
    (h : l.tx = some p) : (l.fresh k new).tx = some (p.put k none new) := by
  simp [Frame.fresh, h]

theorem step_moves {c : Choice S} (hw : w.Locked)
    (h : w.step i c = some w') : ∃ ev t, Moves w i ev t w' := by
  unfold step at h
  cases hq : (w.th i).prog with
  | ret r => cases c <;> simp [hq] at h
  | read k next fail =>
    cases c <;> simp only [hq, Option.some.injEq, reduceCtorEq] at h
    case go => subst h; exact ⟨_, _, moves_run hw (.read hq _) rfl (by simp) rfl⟩
    case fault => subst h; exact ⟨_, _, moves_run hw (.readFault hq) trivial (by simp) rfl⟩
  | update k guard set next fail =>
    cases c <;> simp only [hq, Option.some.injEq, reduceCtorEq] at h
    case go =>
      cases hv : (w.th i).frame.view w.store k with
      | none =>
        simp only [hv, Option.some.injEq] at h
        subst h
        exact ⟨_, _, moves_run hw (.miss hq (by simp)) hv (by simp) rfl⟩
      | some v =>
        simp only [hv] at h
        split at h
        case isFalse hg =>
          simp only [Option.some.injEq] at h
          subst h
          have hmiss : ∀ u, some v = some u → guard u = false := by
            rintro _ ⟨⟩
            simpa using hg
          exact ⟨_, _, moves_run hw (.miss hq hmiss) hv (by simp) rfl⟩
        case isTrue hg =>
          obtain ⟨ev, hm⟩ := moves_write hw
            (fun p hp => ⟨.hit hq hg hp, by simp, write_frame hp⟩)
            (fun hp => ⟨.auto hq hg hp, by simp [Frame.write, hp]⟩) hv hv h
          exact ⟨ev, _, hm⟩
    case fault => subst h; exact ⟨_, _, moves_run hw (.updateFault hq) trivial (by simp) rfl⟩
  | create make next fail =>
    cases c <;> simp only [hq, Option.some.injEq, reduceCtorEq] at h
    case fault => subst h; exact ⟨_, _, moves_run hw (.createFault hq) trivial (by simp) rfl⟩
    case fresh n =>
      cases hv : (w.th i).frame.view w.store (make n).1 with
      | some v => simp [hv] at h
      | none =>
        simp only [hv] at h
        obtain ⟨ev, hm⟩ := moves_write hw
          (fun p hp => ⟨.create hq n hp, by simp, fresh_frame hp⟩)
          (fun hp => ⟨.createAuto hq n hp, by simp [Frame.fresh, hp]⟩) hv hv h
        exact ⟨ev, _, hm⟩
  | insert e next fail =>
    cases c <;> simp only [hq, Option.some.injEq, reduceCtorEq] at h
    case go =>
      cases hx : (w.th i).frame.tx with
      | some p =>
        simp only [hx, Option.some.injEq] at h
        subst h
        exact ⟨_, _, moves_note (e := e) hw (.insert hq hx) trivial (by simp) hx (by simp [Frame.add, hx])⟩
      | none =>
        simp only [hx, Option.some.injEq] at h
        subst h
        exact ⟨_, _, moves_append hw (.insertAuto hq hx) (by simp [Frame.add, hx])⟩
    case fault => subst h; exact ⟨_, _, moves_run hw (.insertFault hq) trivial (by simp) rfl⟩
  | begin next =>
    cases c <;> simp only [hq, Option.some.injEq, reduceCtorEq] at h
    case go =>
      subst h
      exact ⟨_, _, moves_release hw (.begin hq) trivial (by simp) (by simp [Frame.start, eq_comm])⟩
  | commit next fail =>
    cases c <;> simp only [hq, Option.some.injEq, reduceCtorEq] at h
    case go => subst h; exact ⟨_, _, moves_commit hw (.commit hq) rfl⟩
    case fault =>
      subst h
      exact ⟨_, _, moves_release hw (.commitFault hq) trivial (by simp) (by simp [Frame.crash])⟩
  | rollback next =>
    cases c <;> simp only [hq, Option.some.injEq, reduceCtorEq] at h
    case go =>
      subst h
      exact ⟨_, _, moves_release hw (.rollback hq) trivial (by simp) (by simp [Frame.abort])⟩
  | ask q next =>
    cases c <;> simp only [hq, Option.some.injEq, reduceCtorEq] at h
    case answer a => subst h; exact ⟨_, _, moves_run hw (.ask hq (a q)) trivial (by simp) rfl⟩

end World

end ReadCommitted
