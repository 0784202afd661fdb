import QuiPanel.Text
import QuiPanel.Library.TwoRuns

namespace QuiPanel

namespace LoginLimiter

open Trace TwoRuns List

structure LoginLimitRecord where
  failures : List Int
  blockedUntil : Option Int

structure Limits where
  maxFailures : Nat
  window : Int
  cooldown : Int

def minute : Int := 60000000000

def defaultLoginLimiter : Limits := ⟨5, 5 * minute, 15 * minute⟩

abbrev Attempts := String → Option LoginLimitRecord

def loginLimitKey (lower : Char → Char) (ip username : String) : String :=
  Text.trimSpace ip ++ "\x00" ++ String.ofList ((Text.trimSpace username).toList.map lower)

def pruneLoginFailures (failures : List Int) (cutoff : Int) : List Int := failures.dropWhile fun t => t < cutoff

def LoginLimitRecord.blocked (record : LoginLimitRecord) (now : Int) : Bool :=
  match record.blockedUntil with
  | none => false
  | some until_ => now < until_

section limiter

variable (l : Limits) (lower : Char → Char)

def allowRecord (record : Option LoginLimitRecord) (now : Int) : Option LoginLimitRecord × Option Int × Bool :=
  match record with
  | none => (none, none, true)
  | some record =>
    if record.blocked now then (some record, record.blockedUntil, false)
    else
      let failures := pruneLoginFailures record.failures (now - l.window)
      (if failures = [] then none else some ⟨failures, none⟩, none, true)

def failRecord (record : Option LoginLimitRecord) (now : Int) : LoginLimitRecord × Option Int × Bool :=
  let record := record.getD ⟨[], none⟩
  let failures := pruneLoginFailures record.failures (now - l.window) ++ [now]
  if failures.length ≥ l.maxFailures then (⟨[], some (now + l.cooldown)⟩, some (now + l.cooldown), true)
  else ({ record with failures }, none, false)

def allow (attempts : Attempts) (ip username : String) (now : Int) : Attempts × Option Int × Bool :=
  let key := loginLimitKey lower ip username
  let answer := allowRecord l (attempts key) now
  (Function.update attempts key answer.1, answer.2)

def registerFailure (attempts : Attempts) (ip username : String) (now : Int) : Attempts × Option Int × Bool :=
  let key := loginLimitKey lower ip username
  let answer := failRecord l (attempts key) now
  (Function.update attempts key (some answer.1), answer.2)

def registerSuccess (attempts : Attempts) (ip username : String) : Attempts :=
  Function.update attempts (loginLimitKey lower ip username) none

end limiter

inductive Step where
  | allow
  | check
  | fail
  | succeed
  deriving DecidableEq

structure Event where
  time : Int
  ip : String
  username : String
  step : Step

structure System where
  attempts : Attempts
  admitted : String → Nat
  checked : String → Nat

def start : System := ⟨fun _ => none, fun _ => 0, fun _ => 0⟩

section system

variable (l : Limits) (lower : Char → Char)

abbrev keyOf (e : Event) : String := loginLimitKey lower e.ip e.username

def perform (s : System) (e : Event) : System :=
  let key := keyOf lower e
  match e.step with
  | .allow =>
    let answer := allow l lower s.attempts e.ip e.username e.time
    { s with
      attempts := answer.1
      admitted := if answer.2.2 then Function.update s.admitted key (s.admitted key + 1) else s.admitted }
  | .check =>
    if 0 < s.admitted key then
      { s with
        admitted := Function.update s.admitted key (s.admitted key - 1)
        checked := Function.update s.checked key (s.checked key + 1) }
    else s
  | .fail =>
    if 0 < s.checked key then
      { s with
        attempts := (registerFailure l lower s.attempts e.ip e.username e.time).1
        checked := Function.update s.checked key (s.checked key - 1) }
    else s
  | .succeed =>
    if 0 < s.checked key then
      { s with
        attempts := registerSuccess lower s.attempts e.ip e.username
        checked := Function.update s.checked key (s.checked key - 1) }
    else s

end system

structure View where
  record : Option LoginLimitRecord
  admitted : Nat
  checked : Nat

def view (k : String) (s : System) : View := ⟨s.attempts k, s.admitted k, s.checked k⟩

def View.inFlight (v : View) : Nat := v.admitted + v.checked

def advance (l : Limits) (v : View) (now : Int) : Step → View
  | .allow =>
    let answer := allowRecord l v.record now
    { v with record := answer.1, admitted := if answer.2.2 then v.admitted + 1 else v.admitted }
  | .check => if 0 < v.admitted then { v with admitted := v.admitted - 1, checked := v.checked + 1 } else v
  | .fail =>
    if 0 < v.checked then { v with record := some (failRecord l v.record now).1, checked := v.checked - 1 } else v
  | .succeed => if 0 < v.checked then { v with record := none, checked := v.checked - 1 } else v

section projection

variable {l : Limits} {lower : Char → Char} {k : String} {s : System} {e : Event}

theorem view_other (h : keyOf lower e ≠ k) : view k (perform l lower s e) = view k s := by
  obtain ⟨time, ip, username, step⟩ := e
  have hk : k ≠ loginLimitKey lower ip username := fun heq => h heq.symm
  cases step with
  | allow =>
    rw [perform]
    dsimp only [allow, keyOf, view]
    split
    · rw [Function.update_of_ne hk, Function.update_of_ne hk]
    · rw [Function.update_of_ne hk]
  | check =>
    rw [perform]
    dsimp only [keyOf]
    rw [apply_ite (view k)]
    split
    · dsimp only [view]
      rw [Function.update_of_ne hk, Function.update_of_ne hk]
    · rfl
  | fail =>
    rw [perform]
    dsimp only [registerFailure, keyOf]
    rw [apply_ite (view k)]
    split
    · dsimp only [view]
      rw [Function.update_of_ne hk, Function.update_of_ne hk]
    · rfl
  | succeed =>
    rw [perform]
    dsimp only [registerSuccess, keyOf]
    rw [apply_ite (view k)]
    split
    · dsimp only [view]
      rw [Function.update_of_ne hk, Function.update_of_ne hk]
    · rfl

theorem view_own (h : keyOf lower e = k) : view k (perform l lower s e) = advance l (view k s) e.time e.step := by
  obtain ⟨time, ip, username, step⟩ := e
  subst h
  cases step with
  | allow =>
    rw [perform]
    dsimp only [allow, keyOf, view, advance]
    split
    · rw [Function.update_self, Function.update_self]
    · rw [Function.update_self]
  | check =>
    rw [perform]
    dsimp only [keyOf, view, advance]
    split
    · dsimp only
      rw [Function.update_self, Function.update_self]
    · rfl
  | fail =>
    rw [perform]
    dsimp only [registerFailure, keyOf, view, advance]
    split
    · dsimp only
      rw [Function.update_self, Function.update_self]
    · rfl
  | succeed =>
    rw [perform]
    dsimp only [registerSuccess, keyOf, view, advance]
    split
    · dsimp only
      rw [Function.update_self, Function.update_self]
    · rfl

end projection

section record

variable {l : Limits} {record : Option LoginLimitRecord} {now cutoff t : Int} {fs : List Int}

def failuresOf (record : Option LoginLimitRecord) : List Int := record.elim [] LoginLimitRecord.failures

def blockedUntil (record : Option LoginLimitRecord) : Option Int := record.bind LoginLimitRecord.blockedUntil

theorem prune_length (fs : List Int) (cutoff : Int) : (pruneLoginFailures fs cutoff).length ≤ fs.length :=
  (dropWhile_sublist _).length_le

theorem prune_recent (h : cutoff ≤ t) :
    (pruneLoginFailures fs cutoff).countP (fun x => t ≤ x) = fs.countP fun x => t ≤ x := by
  induction fs with
  | nil => rfl
  | cons x fs ih =>
    rw [pruneLoginFailures, dropWhile_cons]
    split
    case isTrue hx =>
      have hold : ¬ t ≤ x := by
        rw [decide_eq_true_eq] at hx
        omega
      rw [countP_cons_of_neg (by simpa using hold)]
      exact ih
    case isFalse => rfl

theorem allow_spec (l : Limits) (record : Option LoginLimitRecord) (now : Int) :
    ((∃ u, blockedUntil record = some u ∧ now < u) ∧
        (allowRecord l record now).1 = record ∧ (allowRecord l record now).2.2 = false) ∨
      ((∀ u, blockedUntil record = some u → u ≤ now) ∧
        failuresOf (allowRecord l record now).1 = pruneLoginFailures (failuresOf record) (now - l.window) ∧
          (allowRecord l record now).2.2 = true) := by
  cases record with
  | none => exact .inr ⟨fun u hu => (by cases hu), rfl, rfl⟩
  | some r =>
    obtain ⟨fs, until_⟩ := r
    rw [allowRecord]
    cases until_ with
    | none =>
      refine .inr ⟨fun u hu => (by cases hu), ?_⟩
      rw [if_neg (by simp [LoginLimitRecord.blocked])]
      refine ⟨?_, rfl⟩
      dsimp only
      split
      case isTrue hnil => exact hnil.symm
      case isFalse => rfl
    | some u =>
      by_cases hu : now < u
      · refine .inl ⟨⟨u, rfl, hu⟩, ?_⟩
        rw [if_pos (by simp [LoginLimitRecord.blocked, hu])]
        exact ⟨rfl, rfl⟩
      · refine .inr ⟨fun u' hu' => ?_, ?_⟩
        · cases hu'
          omega
        · rw [if_neg (by simp [LoginLimitRecord.blocked, hu])]
          refine ⟨?_, rfl⟩
          dsimp only
          split
          case isTrue hnil => exact hnil.symm
          case isFalse => rfl

def newFailures (l : Limits) (record : Option LoginLimitRecord) (now : Int) : List Int :=
  pruneLoginFailures (failuresOf record) (now - l.window) ++ [now]

theorem fail_spec (l : Limits) (record : Option LoginLimitRecord) (now : Int) :
    (l.maxFailures ≤ (newFailures l record now).length ∧
        failRecord l record now = (⟨[], some (now + l.cooldown)⟩, some (now + l.cooldown), true)) ∨
      ((newFailures l record now).length < l.maxFailures ∧
        failRecord l record now = (⟨newFailures l record now, blockedUntil record⟩, none, false)) := by
  have hfs : newFailures l record now =
      pruneLoginFailures (record.getD ⟨[], none⟩).failures (now - l.window) ++ [now] := by
    cases record with
    | none => rfl
    | some r => rfl
  have huntil : blockedUntil record = (record.getD ⟨[], none⟩).blockedUntil := by
    cases record with
    | none => rfl
    | some r => rfl
  rw [failRecord, hfs, huntil]
  split
  case isTrue hfull => exact .inl ⟨hfull, rfl⟩
  case isFalse hroom => exact .inr ⟨not_le.mp hroom, rfl⟩

end record

section budget

variable {l : Limits} {lower : Char → Char} {k : String} {v : View} {s : System} {e : Event} {evs : List Event}
  {now t hi : Int} {n m : Nat} {step : Step} {within : Int → Bool}

def carried (v : View) (step : Step) : Nat := if step = .check ∧ 0 < v.admitted then 1 else 0

theorem carried_other (h : step ≠ .check) (v : View) : carried v step = 0 := if_neg fun hboth => h hboth.1

theorem carried_check (v : View) : carried v .check = if 0 < v.admitted then 1 else 0 := by
  rw [carried]
  simp only [true_and]

def checks (lower : Char → Char) (k : String) (within : Int → Bool) (s : System) (e : Event) : Nat :=
  if keyOf lower e = k ∧ within e.time = true then carried (view k s) e.step else 0

def Short (l : Limits) (v : View) : Prop := (failuresOf v.record).length < l.maxFailures

def Spent (t : Int) (v : View) (n : Nat) : Prop :=
  n ≤ (failuresOf v.record).countP (fun x => t ≤ x) + v.checked

def Shut (hi : Int) (v : View) : Prop := ∃ u, blockedUntil v.record = some u ∧ hi ≤ u

theorem short_advance (hmax : 0 < l.maxFailures) (h : Short l v) (now : Int) (step : Step) :
    Short l (advance l v now step) := by
  cases step with
  | allow =>
    rw [advance, Short]
    dsimp only
    rcases allow_spec l v.record now with ⟨_, hrecord, _⟩ | ⟨_, hfs, _⟩
    · rw [hrecord]
      exact h
    · rw [hfs]
      exact (prune_length _ _).trans_lt h
  | check =>
    rw [advance]
    split
    · exact h
    · exact h
  | fail =>
    rw [advance]
    split
    · rw [Short]
      dsimp only
      rcases fail_spec l v.record now with ⟨_, hr⟩ | ⟨hlt, hr⟩
      · rw [hr]
        exact hmax
      · rw [hr]
        exact hlt
    · exact h
  | succeed =>
    rw [advance]
    split
    · exact hmax
    · exact h

theorem shut_advance (h : Shut hi v) (hnow : now < hi) (hlate : hi ≤ now + l.cooldown) (hstep : step ≠ .succeed) :
    Shut hi (advance l v now step) ∧
      carried v step + (advance l v now step).admitted ≤ v.admitted := by
  obtain ⟨u, hu, hhi⟩ := h
  cases step with
  | allow =>
    rw [advance]
    dsimp only
    rcases allow_spec l v.record now with ⟨_, hrecord, hno⟩ | ⟨hfree, _, _⟩
    · refine ⟨⟨u, ?_, hhi⟩, ?_⟩
      · dsimp only
        rw [hrecord, hu]
      · rw [hno, carried_other (by decide)]
        simp
    · exact absurd (hfree u hu) (by omega)
  | check =>
    rw [advance, carried_check]
    split
    · exact ⟨⟨u, hu, hhi⟩, by dsimp only; omega⟩
    · exact ⟨⟨u, hu, hhi⟩, by omega⟩
  | fail =>
    rw [advance, carried_other (by decide)]
    split
    · refine ⟨?_, by dsimp only; omega⟩
      rcases fail_spec l v.record now with ⟨_, hr⟩ | ⟨_, hr⟩
      · exact ⟨now + l.cooldown, by rw [hr]; rfl, hlate⟩
      · exact ⟨u, by rw [hr]; exact hu, hhi⟩
    · exact ⟨⟨u, hu, hhi⟩, by omega⟩
  | succeed => exact absurd rfl hstep

theorem checks_outside (h : ∀ e ∈ evs, within e.time = false) : total (perform l lower) (checks lower k within) s evs = 0 := by
  induction evs generalizing s with
  | nil => rfl
  | cons e evs ih =>
    rw [total, ih fun e' he' => h e' (mem_cons_of_mem e he'), checks, h e mem_cons_self]
    simp

theorem shut_checks (hwithin : ∀ x, within x = true → x < hi)
    (hsorted : evs.Pairwise fun e e' => e.time ≤ e'.time) (hlate : ∀ e ∈ evs, hi ≤ e.time + l.cooldown)
    (hfail : ∀ e ∈ evs, keyOf lower e = k → e.step ≠ .succeed) (h : Shut hi (view k s)) :
    total (perform l lower) (checks lower k within) s evs ≤ (view k s).admitted := by
  induction evs generalizing s with
  | nil => exact Nat.zero_le _
  | cons e evs ih =>
    rw [pairwise_cons] at hsorted
    by_cases hin : e.time < hi
    · have htail := fun h => ih (s := perform l lower s e) hsorted.2
        (fun e' he' => hlate e' (mem_cons_of_mem e he')) (fun e' he' => hfail e' (mem_cons_of_mem e he')) h
      by_cases hk : keyOf lower e = k
      · obtain ⟨hshut, hcount⟩ := shut_advance h hin (hlate e mem_cons_self) (hfail e mem_cons_self hk)
        rw [← view_own hk] at hshut hcount
        have hrest := htail hshut
        have hhead : checks lower k within s e ≤ carried (view k s) e.step := by
          rw [checks]
          split
          · exact le_refl _
          · exact Nat.zero_le _
        rw [total]
        omega
      · have hsame := view_other (l := l) (s := s) hk
        have hrest := htail (hsame ▸ h)
        rw [hsame] at hrest
        rw [total, checks, if_neg fun hboth => hk hboth.1, Nat.zero_add]
        exact hrest
    · rw [checks_outside]
      · exact Nat.zero_le _
      · intro e' he'
        rw [Bool.eq_false_iff]
        intro htrue
        have hlt := hwithin _ htrue
        rcases mem_cons.mp he' with rfl | htl
        · exact hin hlt
        · have := hsorted.1 e' htl
          omega

theorem spent_advance (hcool : l.window < l.cooldown) (hshort : Short l v) (hspent : Spent t v n)
    (hlo : t ≤ now) (hhi : now ≤ t + l.window) (hm : v.inFlight ≤ m) (hstep : step ≠ .succeed) :
    Spent t (advance l v now step) (n + carried v step) ∨
      Shut (t + l.window + 1) (advance l v now step) ∧ carried v step = 0 ∧
        n + (advance l v now step).admitted + 1 ≤ l.maxFailures + m := by
  rw [Spent] at hspent
  have hcut : now - l.window ≤ t := by omega
  cases step with
  | allow =>
    refine .inl ?_
    rw [carried_other (by decide), Nat.add_zero, Spent, advance]
    dsimp only
    rcases allow_spec l v.record now with ⟨_, hrecord, _⟩ | ⟨_, hfs, _⟩
    · rw [hrecord]
      exact hspent
    · rw [hfs, prune_recent hcut]
      exact hspent
  | check =>
    refine .inl ?_
    rw [Spent, advance, carried_check]
    split
    · dsimp only
      omega
    · omega
  | fail =>
    rw [carried_other (by decide), Nat.add_zero, Spent, advance]
    split
    case isTrue hpos =>
      dsimp only
      rcases fail_spec l v.record now with ⟨_, hr⟩ | ⟨_, hr⟩
      · refine .inr ⟨⟨now + l.cooldown, by rw [hr]; rfl, by omega⟩, rfl, ?_⟩
        have hrecent := countP_le_length (p := fun x => decide (t ≤ x)) (l := failuresOf v.record)
        rw [Short] at hshort
        rw [View.inFlight] at hm
        omega
      · refine .inl ?_
        rw [hr]
        change n ≤ (newFailures l v.record now).countP (fun x => t ≤ x) + (v.checked - 1)
        rw [newFailures, countP_append, prune_recent hcut, countP_singleton, if_pos (by simpa using hlo)]
        omega
    case isFalse => exact .inl hspent
  | succeed => exact absurd rfl hstep

theorem spent_bound (hshort : Short l v) (hspent : Spent t v n) (hm : v.inFlight ≤ m) :
    n + 1 ≤ l.maxFailures + m := by
  have hrecent := countP_le_length (p := fun x => decide (t ≤ x)) (l := failuresOf v.record)
  rw [Spent] at hspent
  rw [Short] at hshort
  rw [View.inFlight] at hm
  omega

theorem window_checks (hmax : 0 < l.maxFailures) (hcool : l.window < l.cooldown)
    (hwithin : ∀ x, within x = true ↔ t ≤ x ∧ x ≤ t + l.window)
    (hsorted : evs.Pairwise fun e e' => e.time ≤ e'.time)
    (hfail : ∀ e ∈ evs, keyOf lower e = k → e.step ≠ .succeed)
    (hflight : Throughout (perform l lower) (fun s e => (view k (perform l lower s e)).inFlight ≤ m) s evs)
    (hm : (view k s).inFlight ≤ m) (hshort : Short l (view k s)) (hspent : Spent t (view k s) n)
    (hn : n = 0 ∨ ∀ e ∈ evs, t ≤ e.time) :
    n + total (perform l lower) (checks lower k within) s evs + 1 ≤ l.maxFailures + m := by
  induction evs generalizing s n with
  | nil => exact spent_bound hshort hspent hm
  | cons e evs ih =>
    rw [pairwise_cons] at hsorted
    have hfail' := fun e' he' => hfail e' (mem_cons_of_mem e he')
    have hn' : n = 0 ∨ ∀ e' ∈ evs, t ≤ e'.time := hn.imp_right fun h e' he' => h e' (mem_cons_of_mem e he')
    by_cases hk : keyOf lower e = k
    · have hview := view_own (l := l) (s := s) hk
      have hshort' : Short l (view k (perform l lower s e)) := hview ▸ short_advance hmax hshort e.time e.step
      by_cases hlo : t ≤ e.time
      · have hlater : ∀ e' ∈ evs, t ≤ e'.time := fun e' he' => hlo.trans (hsorted.1 e' he')
        by_cases hhi : e.time ≤ t + l.window
        · have hhead : checks lower k within s e = carried (view k s) e.step :=
            if_pos ⟨hk, (hwithin e.time).mpr ⟨hlo, hhi⟩⟩
          rw [total, hhead, ← Nat.add_assoc]
          rcases spent_advance hcool hshort hspent hlo hhi hm (hfail e mem_cons_self hk) with hopen | hblock
          · exact ih hsorted.2 hfail' hflight.2 hflight.1 hshort' (hview ▸ hopen) (.inr hlater)
          · -- once the fifth failure is registered, only the requests already past the gate can still check
            obtain ⟨hshut, hnone, hleft⟩ := hblock
            rw [← hview] at hshut hleft
            have hbefore : ∀ x, within x = true → x < t + l.window + 1 := by
              intro x hx
              have := ((hwithin x).mp hx).2
              omega
            have hlate : ∀ e' ∈ evs, t + l.window + 1 ≤ e'.time + l.cooldown := by
              intro e' he'
              have := hlater e' he'
              omega
            have hrest := shut_checks hbefore hsorted.2 hlate hfail' hshut
            omega
        · rw [checks_outside]
          · exact spent_bound hshort hspent hm
          · intro e' he'
            rw [Bool.eq_false_iff]
            intro htrue
            have hle := ((hwithin _).mp htrue).2
            rcases mem_cons.mp he' with rfl | htl
            · exact hhi hle
            · have := hsorted.1 e' htl
              omega
      · have hzero : n = 0 := hn.resolve_right fun h => hlo (h e mem_cons_self)
        have hhead : checks lower k within s e = 0 := if_neg fun hboth => hlo ((hwithin _).mp hboth.2).1
        rw [total, hhead, Nat.zero_add]
        exact ih hsorted.2 hfail' hflight.2 hflight.1 hshort' (hzero ▸ Nat.zero_le _) (.inl hzero)
    · have hview := view_other (l := l) (s := s) hk
      rw [total, checks, if_neg fun hboth => hk hboth.1, Nat.zero_add]
      exact ih hsorted.2 hfail' hflight.2 hflight.1 (hview ▸ hshort) (hview ▸ hspent) hn'

end budget

section limited

variable {l : Limits} {lower : Char → Char} {k : String} {s : System}

def blocks (l : Limits) (lower : Char → Char) (s : System) (e : Event) : Bool :=
  e.step = .fail && 0 < s.checked (keyOf lower e) &&
    (registerFailure l lower s.attempts e.ip e.username e.time).2.2

theorem blocks_shut {e : Event} (hk : keyOf lower e = k) (h : blocks l lower s e = true) :
    Shut (e.time + l.cooldown) (view k (perform l lower s e)) ∧
      (view k (perform l lower s e)).admitted + 1 ≤ (view k s).inFlight := by
  rw [blocks, Bool.and_eq_true, Bool.and_eq_true, decide_eq_true_eq, decide_eq_true_eq] at h
  obtain ⟨⟨hstep, hpos⟩, hblock⟩ := h
  have hpos' : 0 < (view k s).checked := hk ▸ hpos
  have hblock' : (failRecord l (view k s).record e.time).2.2 = true := by
    rw [← hk]
    exact hblock
  rw [view_own hk, hstep, advance, if_pos hpos']
  refine ⟨?_, by rw [View.inFlight]; dsimp only; omega⟩
  rcases fail_spec l (view k s).record e.time with ⟨_, hr⟩ | ⟨_, hr⟩
  · exact ⟨e.time + l.cooldown, by rw [hr]; rfl, le_refl _⟩
  · rw [hr] at hblock'
    cases hblock'

theorem good_always (evs : List Event) :
    Throughout (perform l lower) (fun _ _ => True) s evs := by
  induction evs generalizing s with
  | nil => trivial
  | cons e evs ih => exact ⟨trivial, ih⟩

def foreign (lower : Char → Char) (k : String) (e : Event) : Bool := keyOf lower e != k

theorem view_unseen : Unseen (perform l lower) (view k) (fun v e => advance l v e.time e.step)
    (foreign lower k) fun _ _ => True where
  silent := fun s e he => view_other (bne_iff_ne.mp he)
  visible := fun s e he _ => view_own (by simpa [foreign] using he)

theorem answer_congr {s s' : System} (h : view k s = view k s') {ip username : String}
    (hk : loginLimitKey lower ip username = k) (now : Int) :
    (allow l lower s.attempts ip username now).2 = (allow l lower s'.attempts ip username now).2 := by
  have hrecord : s.attempts k = s'.attempts k := congrArg View.record h
  rw [allow, allow, hk, hrecord]

def run (lower : Char → Char) (evs : List Event) : System := evs.foldl (perform defaultLoginLimiter lower) start

def guesses (lower : Char → Char) (k : String) (within : Int → Bool) (s : System) (evs : List Event) : Nat :=
  total (perform defaultLoginLimiter lower) (checks lower k within) s evs

def AtOnce (lower : Char → Char) (k : String) (m : Nat) (evs : List Event) : Prop :=
  Throughout (perform defaultLoginLimiter lower)
    (fun s e => (view k (perform defaultLoginLimiter lower s e)).inFlight ≤ m) start evs

def within (t : Int) (x : Int) : Bool := t ≤ x && x ≤ t + defaultLoginLimiter.window

def cooling (b : Int) (x : Int) : Bool := x < b + defaultLoginLimiter.cooldown

theorem AtOnce.prior {m : Nat} {pre post : List Event} (h : AtOnce lower k m (pre ++ post)) :
    (view k (run lower pre)).inFlight ≤ m := by
  have hpre := Throughout.take h pre.length
  rw [take_left] at hpre
  exact hpre.foldl (I := fun s => (view k s).inFlight ≤ m) (Nat.zero_le m) fun _ _ _ hstep => hstep

theorem guesses_bounded (lower : Char → Char) (k : String) (evs : List Event) (m : Nat)
    (hsorted : evs.Pairwise fun e e' => e.time ≤ e'.time)
    (hfail : ∀ e ∈ evs, keyOf lower e = k → e.step ≠ .succeed) (hflight : AtOnce lower k m evs) :
    (∀ t, guesses lower k (within t) start evs ≤ 4 + m) ∧
      (∀ pre e post, evs = pre ++ e :: post → keyOf lower e = k →
        blocks defaultLoginLimiter lower (run lower pre) e = true →
          guesses lower k (cooling e.time) (run lower (pre ++ [e])) post + 1 ≤ m) ∧
      ∀ evs' : List Event, shown (foreign lower k) evs' = shown (foreign lower k) evs →
        ∀ ip username now, loginLimitKey lower ip username = k →
          (allow defaultLoginLimiter lower (run lower evs').attempts ip username now).2 =
            (allow defaultLoginLimiter lower (run lower evs).attempts ip username now).2 := by
  refine ⟨fun t => ?_, fun pre e post hevs hk hblock => ?_, fun evs' hsame ip username now hk => ?_⟩
  · have hwithin : ∀ x, within t x = true ↔ t ≤ x ∧ x ≤ t + defaultLoginLimiter.window := by simp [within]
    have hbound := window_checks (n := 0) (by decide) (by decide) hwithin hsorted hfail hflight (Nat.zero_le m)
      (Nat.succ_pos 4) (Nat.zero_le _) (.inl rfl)
    rw [Nat.zero_add] at hbound
    change guesses lower k (within t) start evs + 1 ≤ 5 + m at hbound
    omega
  · subst hevs
    obtain ⟨hshut, hleft⟩ := blocks_shut hk hblock
    have hprior := hflight.prior
    obtain ⟨_, hsorted', _⟩ := pairwise_append.mp hsorted
    rw [pairwise_cons] at hsorted'
    have hlate : ∀ e' ∈ post, e.time + defaultLoginLimiter.cooldown ≤ e'.time + defaultLoginLimiter.cooldown :=
      fun e' he' => Int.add_le_add_right (hsorted'.1 e' he') _
    have hfail' : ∀ e' ∈ post, keyOf lower e' = k → e'.step ≠ .succeed :=
      fun e' he' => hfail e' (mem_append_right pre (mem_cons_of_mem e he'))
    have hwindow : ∀ x, cooling e.time x = true → x < e.time + defaultLoginLimiter.cooldown :=
      fun x hx => of_decide_eq_true hx
    have hrest := shut_checks hwindow hsorted'.2 hlate hfail' hshut
    rw [run, foldl_append]
    change guesses lower k (cooling e.time) (perform defaultLoginLimiter lower (run lower pre) e) post + 1 ≤ m
    exact (Nat.add_le_add_right hrest 1).trans (hleft.trans hprior)
  · have hview := view_agree (view_unseen (l := defaultLoginLimiter)) (s := start) (t := start) rfl (good_always evs')
      (good_always evs) hsame
    exact answer_congr hview hk now

def login (step : Step) (time : Int) : Event := ⟨time, "192.0.2.10", "admin", step⟩

def asciiLower (c : Char) : Char := if 'A' ≤ c ∧ c ≤ 'Z' then c.toLower else c

def sampleKey : String := loginLimitKey asciiLower "192.0.2.10" "admin"

def lonely : List Event := [login .allow 0, login .check 1, login .fail 2, login .allow 3, login .check 4]

theorem guesses_bounded_lonely : guesses asciiLower sampleKey (within 0) start lonely ≤ 4 + 1 := by
  have hflight : AtOnce asciiLower sampleKey 1 lonely := by
    rw [AtOnce]
    simp only [lonely, Throughout]
    decide
  exact (guesses_bounded asciiLower sampleKey lonely 1 (by decide) (by decide) hflight).1 0

def crowd : List Event :=
  List.replicate 6 (login .allow 0) ++ List.replicate 5 (login .check 1) ++ List.replicate 5 (login .fail 2) ++
    [login .check 3]

theorem crowd_guesses : crowd.Pairwise (fun e e' => e.time ≤ e'.time) ∧ (∀ e ∈ crowd, e.step ≠ .succeed) ∧
    guesses asciiLower sampleKey (within 0) start crowd = 6 ∧
      ∃ pre e post, crowd = pre ++ e :: post ∧ blocks defaultLoginLimiter asciiLower (run asciiLower pre) e = true ∧
        guesses asciiLower sampleKey (cooling e.time) (run asciiLower (pre ++ [e])) post = 1 := by
  refine ⟨by decide, by decide, by decide, crowd.take 15, login .fail 2, [login .check 3], by rfl, by decide, by decide⟩

end limited

end LoginLimiter

end QuiPanel
