import QuiPanel.Library.Program

namespace ReadCommitted

abbrev Call (S : Schema) (ε α : Type) := ExceptT ε (Prog S) α

variable {S : Schema} {ε α β : Type}

namespace Call

def readRow (db : ε) (k : S.Key) : Call S ε (Option (S.Row k)) :=
  Prog.read k (fun v => .ret (.ok v)) (.ret (.error db))

def updateRow (db : ε) (k : S.Key) (guard : S.Row k → Bool) (set : S.Row k → S.Row k) :
    Call S ε Bool :=
  Prog.update k guard set (fun b => .ret (.ok b)) (.ret (.error db))

def createRow (db : ε) (make : Nat → (k : S.Key) × S.Row k) : Call S ε Nat :=
  Prog.create make (fun n => .ret (.ok n)) (.ret (.error db))

def insertEntry (db : ε) (e : S.Entry) : Call S ε Unit :=
  Prog.insert e (.ret (.ok ())) (.ret (.error db))

def ask (q : S.Query) : Call S ε (S.Answer q) := Prog.ask q fun a => .ret (.ok a)

def result (x : Call S ε α) : Call S ε (Except ε α) :=
  Prog.bind x fun r => .ret (.ok r)

def transaction (db : ε) (fn : Call S ε α) : Call S ε α :=
  Prog.begin <| Prog.bind fn fun
    | .ok a => .commit (.ret (.ok a)) (.ret (.error db))
    | .error e => .rollback (.ret (.error e))

def retry (again : ε → Bool) (fn : Call S ε α) : Nat → Call S ε α
  | 0 => fn
  | n + 1 => Prog.bind fn fun
      | .ok a => .ret (.ok a)
      | .error e => if again e then retry again fn n else .ret (.error e)

def Quiet (tr : List (Event S)) : Prop := ∀ p, .commit p ∉ tr

theorem quiet_nil : Quiet ([] : List (Event S)) := by simp [Quiet]

theorem Quiet.append {tr tr' : List (Event S)} (h : Quiet tr) (h' : Quiet tr') :
    Quiet (tr ++ tr') := by
  intro p hp
  rcases List.mem_append.mp hp with hp | hp
  · exact h p hp
  · exact h' p hp

theorem quiet_single {ev : Event S} (h : ∀ p, .commit p ≠ ev) : Quiet [ev] := by
  intro p hp
  exact h p (List.mem_singleton.mp hp)

abbrev Ends (S : Schema) (ε α : Type) := Pending S → List (Event S) → Except ε α → Prop

inductive Failed (db : ε) (Q : Ends S ε α) : List (Event S) → ε → Prop
  | commit {p tr a} (h : Q p tr (.ok a)) (hq : Quiet tr) :
      Failed db Q (.begin :: tr ++ [.fault .commit]) db
  | body {p tr e} (h : Q p tr (.error e)) (hq : Quiet tr) :
      Failed db Q (.begin :: tr ++ [.rollback]) e

inductive Retried (db : ε) (again : ε → Bool) (Q : Ends S ε α) : Nat → List (Event S) → Prop
  | zero : Retried db again Q 0 []
  | succ {n tr tr' e} (h : Retried db again Q n tr) (hf : Failed db Q tr' e)
      (ha : again e = true) : Retried db again Q (n + 1) (tr ++ tr')

theorem Failed.quiet {db : ε} {Q : Ends S ε α} {tr : List (Event S)} {e : ε} (h : Failed db Q tr e) : Quiet tr := by
  cases h with
  | commit _ hq => exact ((quiet_single (by simp)).append hq).append (quiet_single (by simp))
  | body _ hq => exact ((quiet_single (by simp)).append hq).append (quiet_single (by simp))

theorem Retried.quiet {db : ε} {again : ε → Bool} {Q : Ends S ε α} {n : Nat} {tr : List (Event S)}
    (h : Retried db again Q n tr) :
    Quiet tr := by
  induction h with
  | zero => exact quiet_nil
  | succ _ hf _ ih => exact ih.append hf.quiet

variable [DecidableEq S.Key] {R : Rely S} {G : Pending S → Prop}

def wp (R : Rely S) (G : Pending S → Prop)
    (Φ : Frame S → Except ε α → Prop) (x : Call S ε α) (l : Frame S) : Prop :=
  Prog.wp R G Φ x l

section rules

variable {Φ : Frame S → Except ε α → Prop} {l : Frame S}

@[simp] theorem wp_bind (x : Call S ε β) (f : β → Call S ε α) :
    wp R G Φ (x >>= f) l ↔
      wp R G (fun l' r => match r with
        | .ok a => wp R G Φ (f a) l'
        | .error e => Φ l' (.error e)) x l := by
  refine (Prog.wp_bind G Φ _ _ l).trans ?_
  constructor
  · exact Prog.wp_mono _ (fun _ h => h) (fun _ r h => by cases r with
      | ok a => exact h
      | error e => exact h) l
  · exact Prog.wp_mono _ (fun _ h => h) (fun _ r h => by cases r with
      | ok a => exact h
      | error e => exact h) l

@[simp] theorem wp_map (f : β → α) (x : Call S ε β) :
    wp R G Φ (f <$> x) l ↔ wp R G (fun l' r => Φ l' (r.map f)) x l := by
  refine (Prog.wp_bind G Φ _ _ l).trans ?_
  constructor
  · exact Prog.wp_mono _ (fun _ h => h) (fun _ r h => by cases r with
      | ok a => exact h
      | error e => exact h) l
  · exact Prog.wp_mono _ (fun _ h => h) (fun _ r h => by cases r with
      | ok a => exact h
      | error e => exact h) l

theorem wp_mono {Φ' : Frame S → Except ε α → Prop} {x : Call S ε α} (h : wp R G Φ x l)
    (hΦ : ∀ l r, Φ l r → Φ' l r) : wp R G Φ' x l :=
  Prog.wp_mono x (fun _ h => h) hΦ l h

@[simp] theorem wp_result (x : Call S ε β) {Φ : Frame S → Except ε (Except ε β) → Prop} :
    wp R G Φ (result x) l ↔ wp R G (fun l' r => Φ l' (.ok r)) x l :=
  Prog.wp_bind G Φ _ _ l

end rules

def Inside (R : Rely S) (x : Call S ε α) (p : Pending S)
    (Q : Ends S ε α) : Prop :=
  ∀ G past, wp R G (fun l r => ∃ p' tr, l = ⟨some p', past ++ tr⟩ ∧ Quiet tr ∧ Q p' tr r) x
    ⟨some p, past⟩

section inside

variable {p : Pending S} {Q : Ends S ε α}

theorem inside_pure {a : α} (h : Q p [] (.ok a)) : Inside R (pure a : Call S ε α) p Q :=
  fun _ past => ⟨p, [], by simp, quiet_nil, h⟩

theorem inside_throw {e : ε} (h : Q p [] (.error e)) : Inside R (throw e : Call S ε α) p Q :=
  fun _ past => ⟨p, [], by simp, quiet_nil, h⟩

theorem inside_bind {x : Call S ε β} {f : β → Call S ε α} {P : Ends S ε β}
    (hx : Inside R x p P)
    (hok : ∀ p' tr a, P p' tr (.ok a) → Inside R (f a) p' fun p'' tr' r => Q p'' (tr ++ tr') r)
    (herr : ∀ p' tr e, P p' tr (.error e) → Q p' tr (.error e)) : Inside R (x >>= f) p Q := by
  intro G past
  rw [wp_bind]
  refine wp_mono (hx G past) ?_
  rintro _ (e | a) ⟨p', tr, rfl, hq, h⟩
  · exact ⟨p', tr, rfl, hq, herr p' tr e h⟩
  · refine wp_mono (hok p' tr a h G (past ++ tr)) ?_
    rintro _ r ⟨p'', tr', rfl, hq', h'⟩
    exact ⟨p'', tr ++ tr', by simp, hq.append hq', h'⟩

theorem inside_read {db : ε} {k : S.Key} {Q : Ends S ε (Option (S.Row k))}
    (hok : ∀ v, R k v → Q p [.read k v] (.ok v)) (herr : Q p [.fault (.read k)] (.error db)) :
    Inside R (readRow db k) p Q :=
  fun _ _ => ⟨fun v hv => ⟨p, _, rfl, quiet_single (by simp), hok v hv⟩,
    ⟨p, _, rfl, quiet_single (by simp), herr⟩⟩

theorem inside_update {db : ε} {k : S.Key} {guard : S.Row k → Bool} {set : S.Row k → S.Row k}
    {Q : Ends S ε Bool}
    (hhit : ∀ v, R k (some v) → guard v = true → R k (some (set v)) ∧
      Q (p.put k (some v) (set v)) [.hit k v (set v)] (.ok true))
    (hmiss : ∀ v, R k v → (∀ u, v = some u → guard u = false) → Q p [.miss k v] (.ok false))
    (herr : Q p [.fault (.update k)] (.error db)) :
    Inside R (updateRow db k guard set) p Q := by
  intro G past
  refine ⟨fun v hv hg => ?_, fun v hv hg => ⟨p, _, rfl, quiet_single (by simp), hmiss v hv hg⟩,
    ⟨p, _, rfl, quiet_single (by simp), herr⟩⟩
  obtain ⟨h₁, h₂⟩ := hhit v hv hg
  exact ⟨h₁, by simp, _, _, rfl, quiet_single (by simp), h₂⟩

theorem inside_insert {db : ε} {e : S.Entry} {Q : Ends S ε Unit}
    (hok : Q (p.note e) [.insert e] (.ok ())) (herr : Q p [.fault .insert] (.error db)) :
    Inside R (insertEntry db e) p Q :=
  fun _ _ => ⟨by simp, ⟨_, _, rfl, quiet_single (by simp), hok⟩,
    ⟨p, _, rfl, quiet_single (by simp), herr⟩⟩

theorem inside_ask {q : S.Query} {Q : Ends S ε (S.Answer q)} (h : ∀ a, Q p [.ask q a] (.ok a)) :
    Inside R (ask q) p Q :=
  fun _ _ a => ⟨p, _, rfl, quiet_single (by simp), h a⟩

theorem inside_mono {x : Call S ε α} {Q' : Ends S ε α} (h : Inside R x p Q)
    (hQ : ∀ p tr r, Q p tr r → Q' p tr r) : Inside R x p Q' := by
  intro G past
  refine wp_mono (h G past) ?_
  rintro _ r ⟨p', tr, rfl, hq, h'⟩
  exact ⟨p', tr, rfl, hq, hQ _ _ _ h'⟩

end inside

section transactions

variable {db : ε} {again : ε → Bool} {Q : Ends S ε α}

variable {Φ : Frame S → Except ε α → Prop} {fn : Call S ε α} {past : List (Event S)}

theorem wp_transaction (hfn : Inside R fn .empty Q) (hG : ∀ p tr a, Q p tr (.ok a) → G p)
    (hok : ∀ p tr a, Q p tr (.ok a) → Quiet tr →
      Φ ⟨none, past ++ (.begin :: tr ++ [.commit p])⟩ (.ok a))
    (herr : ∀ tr e, Failed db Q tr e → Φ ⟨none, past ++ tr⟩ (.error e)) :
    wp R G Φ (transaction db fn) ⟨none, past⟩ := by
  refine (Prog.wp_bind G Φ fn _ _).mpr ?_
  refine wp_mono (hfn G (past ++ [.begin])) ?_
  rintro _ (e | a) ⟨p, tr, rfl, hq, h⟩
  · simpa [Prog.wp, Frame.abort] using herr _ _ (.body h hq)
  · refine ⟨hG p tr a h, ?_, ?_⟩
    · simpa [Prog.wp, Frame.finish] using hok p tr a h hq
    · simpa [Prog.wp, Frame.crash] using herr _ _ (.commit h hq)

theorem wp_retry (n : Nat) (hfn : Inside R fn .empty Q) (hG : ∀ p tr a, Q p tr (.ok a) → G p)
    (hok : ∀ k tr p tr' a, k ≤ n → Retried db again Q k tr → Q p tr' (.ok a) → Quiet tr' →
      Φ ⟨none, past ++ (tr ++ (.begin :: tr' ++ [.commit p]))⟩ (.ok a))
    (herr : ∀ k tr tr' e, k ≤ n → Retried db again Q k tr → Failed db Q tr' e →
      (again e = true → k = n) → Φ ⟨none, past ++ (tr ++ tr')⟩ (.error e)) :
    wp R G Φ (retry again (transaction db fn) n) ⟨none, past⟩ := by
  suffices H : ∀ m k tr, k + m = n → Retried db again Q k tr →
      wp R G Φ (retry again (transaction db fn) m) ⟨none, past ++ tr⟩ by
    simpa using H n 0 [] (by omega) .zero
  intro m
  induction m with
  | zero =>
    intro k tr hk htr
    refine wp_transaction hfn hG ?_ ?_
    · intro p tr' a h hq
      simpa using hok k tr p tr' a (by omega) htr h hq
    · intro tr' e h
      simpa using herr k tr tr' e (by omega) htr h (fun _ => by omega)
  | succ m ih =>
    intro k tr hk htr
    refine (Prog.wp_bind G Φ _ _ _).mpr ?_
    refine wp_transaction hfn hG ?_ ?_
    · intro p tr' a h hq
      simpa [Prog.wp] using hok k tr p tr' a (by omega) htr h hq
    · intro tr' e h
      by_cases ha : again e = true
      · simpa [ha, wp] using ih (k + 1) (tr ++ tr') (by omega) (htr.succ h ha)
      · simpa [ha, Prog.wp] using herr k tr tr' e (by omega) htr h (fun h => absurd h ha)

end transactions

def Outside (R : Rely S) (G : Pending S → Prop) (x : Call S ε α)
    (Q : List (Event S) → Except ε α → Prop) : Prop :=
  ∀ past, wp R G (fun l r => ∃ tr, l = ⟨none, past ++ tr⟩ ∧ Q tr r) x ⟨none, past⟩

section outside

variable {Q : List (Event S) → Except ε α → Prop}

theorem Outside.init {x : Call S ε α} (h : Outside R G x Q) :
    wp R G (fun l r => Q l.past r) x .init := by
  refine wp_mono (h []) ?_
  rintro _ r ⟨tr, rfl, hq⟩
  exact hq

variable {Q' : List (Event S) → Except ε α → Prop}

theorem Outside.mono {x : Call S ε α}
    (h : Outside R G x Q) (hQ : ∀ tr r, Q tr r → Q' tr r) : Outside R G x Q' := by
  intro past
  refine wp_mono (h past) ?_
  rintro _ r ⟨tr, rfl, hq⟩
  exact ⟨tr, rfl, hQ tr r hq⟩

theorem Outside.relax {x : Call S ε α} {G' : Pending S → Prop} (h : Outside R G x Q)
    (hG : ∀ p, G p → G' p) : Outside R G' x Q :=
  fun past => Prog.wp_mono (S := S) x hG (fun _ _ h => h) _ (h past)

theorem Outside.and {x : Call S ε α} {G' : Pending S → Prop}
    (h : Outside R G x Q) (h' : Outside R G' x Q') :
    Outside R (fun p => G p ∧ G' p) x fun tr r => Q tr r ∧ Q' tr r := by
  intro past
  refine wp_mono (Prog.wp_and (S := S) x _ (h past) (h' past)) ?_
  rintro l r ⟨⟨tr, rfl, hq⟩, tr', he, hq'⟩
  have htr := List.append_cancel_left (congrArg Frame.past he)
  exact ⟨tr, rfl, hq, htr ▸ hq'⟩

theorem outside_pure {a : α} (h : Q [] (.ok a)) : Outside R G (pure a : Call S ε α) Q :=
  fun past => ⟨[], by simp, h⟩

theorem outside_throw {e : ε} (h : Q [] (.error e)) : Outside R G (throw e : Call S ε α) Q :=
  fun past => ⟨[], by simp, h⟩

variable {x : Call S ε β}

theorem outside_bind {f : β → Call S ε α} {P : List (Event S) → Except ε β → Prop}
    (hx : Outside R G x P)
    (hok : ∀ tr b, P tr (.ok b) → Outside R G (f b) fun tr' r => Q (tr ++ tr') r)
    (herr : ∀ tr e, P tr (.error e) → Q tr (.error e)) : Outside R G (x >>= f) Q := by
  intro past
  rw [wp_bind]
  refine wp_mono (hx past) ?_
  rintro _ (e | b) ⟨tr, rfl, h⟩
  · exact ⟨tr, rfl, herr tr e h⟩
  · refine wp_mono (hok tr b h (past ++ tr)) ?_
    rintro _ r ⟨tr', rfl, h'⟩
    exact ⟨tr ++ tr', by simp, h'⟩

theorem outside_map {f : β → α}
    (hx : Outside R G x fun tr r => Q tr (r.map f)) : Outside R G (f <$> x) Q := by
  intro past
  rw [wp_map]
  exact hx past

theorem outside_result {Q : List (Event S) → Except ε (Except ε β) → Prop}
    (hx : Outside R G x fun tr r => Q tr (.ok r)) : Outside R G (result x) Q := by
  intro past
  rw [wp_result]
  exact hx past

theorem outside_attempt {Q : List (Event S) → Except ε β → Prop}
    (hx : Outside R G x Q) : Outside R G (result x) fun tr r => ∃ r', r = .ok r' ∧ Q tr r' :=
  outside_result (hx.mono fun _ r h => ⟨r, rfl, h⟩)

variable {db : ε}

theorem outside_read {k : S.Key} {Q : List (Event S) → Except ε (Option (S.Row k)) → Prop}
    (hok : ∀ v, R k v → Q [.read k v] (.ok v)) (herr : Q [.fault (.read k)] (.error db)) :
    Outside R G (readRow db k) Q :=
  fun _ => ⟨fun v hv => ⟨_, rfl, hok v hv⟩, ⟨_, rfl, herr⟩⟩

theorem outside_update {k : S.Key} {guard : S.Row k → Bool} {set : S.Row k → S.Row k}
    {Q : List (Event S) → Except ε Bool → Prop}
    (hhit : ∀ v, R k (some v) → guard v = true → R k (some (set v)) ∧
      G (.one k (some v) (set v)) ∧ Q [.commit (.one k (some v) (set v))] (.ok true))
    (hmiss : ∀ v, R k v → (∀ u, v = some u → guard u = false) → Q [.miss k v] (.ok false))
    (herr : Q [.fault (.update k)] (.error db)) :
    Outside R G (updateRow db k guard set) Q := by
  intro past
  refine ⟨fun v hv hg => ?_, fun v hv hg => ⟨_, rfl, hmiss v hv hg⟩, ⟨_, rfl, herr⟩⟩
  obtain ⟨h₁, h₂, h₃⟩ := hhit v hv hg
  exact ⟨h₁, fun _ => h₂, _, rfl, h₃⟩

variable {make : Nat → (k : S.Key) × S.Row k}

theorem outside_create
    {Q : List (Event S) → Except ε Nat → Prop}
    (hok : ∀ n, R (make n).1 none → G (.one (make n).1 none (make n).2) ∧
      (R (make n).1 (some (make n).2) → Q [.commit (.one (make n).1 none (make n).2)] (.ok n)))
    (herr : Q [.fault .create] (.error db)) : Outside R G (createRow db make) Q := by
  intro past
  refine ⟨rfl, fun n hn => ?_, ⟨_, rfl, herr⟩⟩
  obtain ⟨h₁, h₂⟩ := hok n hn
  exact ⟨h₁, fun hv => ⟨_, rfl, h₂ hv⟩⟩

theorem outside_ask {q : S.Query} {Q : List (Event S) → Except ε (S.Answer q) → Prop}
    (h : ∀ a, Q [.ask q a] (.ok a)) : Outside R G (ask q) Q :=
  fun _ a => ⟨_, rfl, h a⟩

def Safe (R : Rely S) (G : Pending S → Prop) (x : Call S ε α) :
    Prop :=
  Outside R G x fun _ _ => True

theorem Outside.safe {x : Call S ε α} (h : Outside R G x Q) : Safe R G x :=
  h.mono fun _ _ _ => trivial

theorem safe_pure (a : α) : Safe R G (pure a : Call S ε α) := outside_pure trivial

theorem safe_throw (e : ε) : Safe R G (throw e : Call S ε α) := outside_throw trivial

theorem safe_bind {f : β → Call S ε α} (hx : Safe R G x)
    (hf : ∀ b, Safe R G (f b)) : Safe R G (x >>= f) :=
  outside_bind hx (fun _ b _ => hf b) (fun _ _ _ => trivial)

theorem safe_map {f : β → α} (hx : Safe R G x) : Safe R G (f <$> x) :=
  outside_map hx

theorem safe_result (hx : Safe R G x) : Safe R G (result x) := outside_result hx

theorem safe_read (db : ε) (k : S.Key) : Safe R G (readRow db k) :=
  outside_read (fun _ _ => trivial) trivial

theorem safe_ask (q : S.Query) : Safe R G (ask q : Call S ε (S.Answer q)) :=
  outside_ask fun _ => trivial

theorem safe_update {k : S.Key} {guard : S.Row k → Bool} {set : S.Row k → S.Row k}
    (h : ∀ v, R k (some v) → guard v = true → R k (some (set v)) ∧ G (.one k (some v) (set v))) :
    Safe R G (updateRow db k guard set) :=
  outside_update (fun v hv hg => ⟨(h v hv hg).1, (h v hv hg).2, trivial⟩) (fun _ _ _ => trivial)
    trivial

theorem safe_create
    (h : ∀ n, G (.one (make n).1 none (make n).2)) : Safe R G (createRow db make) :=
  outside_create (fun n _ => ⟨h n, fun _ => trivial⟩) trivial

theorem outside_retry {again : ε → Bool} {fn : Call S ε α} {P : Pending S → α → Prop}
    (n : Nat) (hfn : Inside R fn .empty fun p _ r => ∀ a, r = .ok a → P p a)
    (hG : ∀ p a, P p a → G p) :
    Outside R G (retry again (transaction db fn) n) fun tr r => match r with
      | .ok a => ∃ tr' p, tr = tr' ++ [.commit p] ∧ Quiet tr' ∧ P p a
      | .error _ => Quiet tr := by
  intro past
  refine wp_retry n hfn (fun p _ a h => hG p a (h a rfl)) ?_ ?_
  · intro k tr p tr' a _ hr h hq
    have hquiet : Quiet (tr ++ .begin :: tr') :=
      hr.quiet.append ((quiet_single (by simp)).append hq)
    exact ⟨_, rfl, tr ++ .begin :: tr', p, by simp, hquiet, h a rfl⟩
  · intro k tr tr' e _ hr hf _
    exact ⟨_, rfl, hr.quiet.append hf.quiet⟩

end outside

end Call

end ReadCommitted
