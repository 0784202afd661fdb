import QuiPanel.Mtproto

namespace QuiPanel

namespace Mtproto

section specification

inductive Act
  | ensure (inst : Instance)
  | remove (id : Int)
  | reconcile (desired : List Instance)
  | stopAll
  | exit (pid : Nat)

def Manager.act (env : Env) (m : Manager) : Act → Manager
  | .ensure inst => (m.ensure env inst).1
  | .remove id => m.remove id
  | .reconcile desired => m.reconcile env desired
  | .stopAll => m.stopAll
  | .exit pid => m.stop pid

def boot : Manager := ⟨∅, fun _ => none, fun _ => none, 0⟩

def SameConfig (a b : Instance) : Prop := { a with id := b.id, tag := b.tag } = b

def Manager.slot (m : Manager) (id : Int) : Option (Managed × Process) :=
  (m.procs.lookup id).bind fun cur => (m.process cur.proc).map fun p => (cur, p)

structure Runs (env : Env) (m : Manager) (inst : Instance) (cur : Managed) (p : Process) : Prop where
  slot : m.slot inst.id = some (cur, p)
  tag : cur.tag = inst.tag
  running : p.running = true
  config : ∃ inst', SameConfig inst' inst ∧ p.config = renderConfig env.isPrint inst' p.metricsPort

structure Settled (env : Env) (m : Manager) (desired : List Instance) : Prop where
  exact (id : Int) : ((m.reconcile env desired).procs.lookup id).isSome ↔ id ∈ desired.map (·.id)
  owned (pid : Nat) : (m.reconcile env desired).running pid = true →
    ∃ inst ∈ desired, ∃ cur, (m.reconcile env desired).procs.lookup inst.id = some cur ∧ cur.proc = pid
  runs : ∀ inst ∈ desired, ∃ cur p, Runs env (m.reconcile env desired) inst cur p
  kept : ∀ inst ∈ desired, ∀ cur p, m.slot inst.id = some (cur, p) → p.running = true → SameConfig p.inst inst →
    ∃ cur', (m.reconcile env desired).slot inst.id = some (cur', p) ∧ cur'.proc = cur.proc

def Told (env : Env) (m : Manager) (inst : Instance) : Prop :=
  ∀ cur p, m.slot inst.id = some (cur, p) → p.running = true → p.inst.fingerprint = inst.fingerprint →
    renderConfig env.isPrint p.inst p.metricsPort = renderConfig env.isPrint inst p.metricsPort

end specification

section invariant

variable {env : Env} {m : Manager} {id id₀ : Int} {inst : Instance} {cur : Managed} {p : Process}

structure Inv (env : Env) (m : Manager) : Prop where
  entry {id : Int} {cur : Managed} : m.procs.lookup id = some cur → ∃ p, m.process cur.proc = some p ∧ p.inst.id = id ∧
    cur.fingerprint = p.inst.fingerprint ∧ cur.metricsPort = p.metricsPort ∧
    p.config = renderConfig env.isPrint p.inst p.metricsPort
  fresh {pid : Nat} : m.next ≤ pid → m.process pid = none
  owned {pid : Nat} {p : Process} : m.process pid = some p → p.running = true →
    ∃ cur, m.procs.lookup p.inst.id = some cur ∧ cur.proc = pid

theorem slot_some : m.slot id = some (cur, p) ↔ m.procs.lookup id = some cur ∧ m.process cur.proc = some p := by
  rw [Manager.slot]
  constructor
  · intro h
    obtain ⟨cur', hcur, h⟩ := Option.bind_eq_some_iff.mp h
    obtain ⟨p', hp, h⟩ := Option.map_eq_some_iff.mp h
    cases h
    exact ⟨hcur, hp⟩
  · rintro ⟨hcur, hp⟩
    rw [hcur, Option.bind_some, hp]
    rfl

theorem slot_none : m.procs.lookup id = none → m.slot id = none := by
  intro h
  rw [Manager.slot, h]
  rfl

theorem Inv.slot (h : Inv env m) (hcur : m.procs.lookup id = some cur) : ∃ p, m.slot id = some (cur, p) ∧
    p.inst.id = id := by
  obtain ⟨p, hp, hid, -⟩ := h.entry hcur
  exact ⟨p, slot_some.mpr ⟨hcur, hp⟩, hid⟩

theorem Inv.apart (h : Inv env m) {cur₀ : Managed} (hcur : m.procs.lookup id = some cur)
    (hcur₀ : m.procs.lookup id₀ = some cur₀) (hne : id ≠ id₀) : cur.proc ≠ cur₀.proc := by
  intro hproc
  obtain ⟨p, hp, hid, -⟩ := h.entry hcur
  obtain ⟨p₀, hp₀, hid₀, -⟩ := h.entry hcur₀
  rw [hproc, hp₀] at hp
  obtain rfl := Option.some.inj hp
  exact hne (hid.symm.trans hid₀)

theorem stop_other {pid pid₀ : Nat} (h : pid ≠ pid₀) : (m.stop pid₀).process pid = m.process pid :=
  Function.update_of_ne h _ _

theorem stop_self {pid : Nat} : (m.stop pid).process pid = (m.process pid).map fun p => { p with running := false } :=
  Function.update_self _ _ _

theorem stop_cases {pid pid₀ : Nat} (h : (m.stop pid₀).process pid = some p) : ∃ p₀, m.process pid = some p₀ ∧
    (pid ≠ pid₀ ∧ p = p₀ ∨ pid = pid₀ ∧ p = { p₀ with running := false }) := by
  by_cases hpid : pid = pid₀
  · subst hpid
    rw [stop_self] at h
    obtain ⟨p₀, hp₀, rfl⟩ := Option.map_eq_some_iff.mp h
    exact ⟨p₀, hp₀, .inr ⟨rfl, rfl⟩⟩
  · rw [stop_other hpid] at h
    exact ⟨p, h, .inl ⟨hpid, rfl⟩⟩

theorem Inv.stopped (h : Inv env m) (pid₀ : Nat) : Inv env (m.stop pid₀) where
  entry := by
    intro id cur hcur
    obtain ⟨p, hp, hid, hfp, hport, hconfig⟩ := h.entry hcur
    by_cases hpid : cur.proc = pid₀
    · subst hpid
      refine ⟨{ p with running := false }, ?_, hid, hfp, hport, hconfig⟩
      rw [stop_self, hp]
      rfl
    · exact ⟨p, (stop_other hpid).trans hp, hid, hfp, hport, hconfig⟩
  fresh := by
    intro pid hpid
    have hnone := h.fresh hpid
    by_cases hpid : pid = pid₀
    · subst hpid
      rw [stop_self, hnone]
      rfl
    · rw [stop_other hpid, hnone]
  owned := by
    intro pid p hp hrunning
    obtain ⟨p₀, hp₀, ⟨-, rfl⟩ | ⟨-, rfl⟩⟩ := stop_cases hp
    · exact h.owned hp₀ hrunning
    · cases hrunning

theorem Inv.forgotten (h : Inv env m) (hcur : m.procs.lookup id₀ = some cur) : Inv env (m.forget id₀ cur.proc) where
  entry := by
    intro id cur' hcur'
    have hne : id ≠ id₀ := by
      rintro rfl
      rw [Manager.forget, AList.lookup_erase] at hcur'
      cases hcur'
    rw [Manager.forget, AList.lookup_erase_ne hne] at hcur'
    exact (h.stopped _).entry hcur'
  fresh := (h.stopped _).fresh
  owned := by
    intro pid p hp hrunning
    obtain ⟨p₀, hp₀, ⟨hpid, rfl⟩ | ⟨-, rfl⟩⟩ := stop_cases hp
    · obtain ⟨cur', hcur', rfl⟩ := h.owned hp₀ hrunning
      refine ⟨cur', ?_, rfl⟩
      have hne : p.inst.id ≠ id₀ := by
        rintro hid
        rw [hid, hcur] at hcur'
        exact hpid (congrArg Managed.proc (Option.some.inj hcur').symm)
      exact (AList.lookup_erase_ne hne).trans hcur'
    · cases hrunning

theorem forget_slot (h : Inv env m) (hcur : m.procs.lookup id₀ = some cur) :
    (m.forget id₀ cur.proc).slot id = if id = id₀ then none else m.slot id := by
  split
  case isTrue hid =>
    subst hid
    exact slot_none (AList.lookup_erase _ _)
  case isFalse hne =>
    have hlookup : (m.forget id₀ cur.proc).procs.lookup id = m.procs.lookup id := AList.lookup_erase_ne hne
    rw [Manager.slot, Manager.slot, hlookup]
    cases hid : m.procs.lookup id with
    | none => rfl
    | some cur' =>
      simp only [Option.bind_some]
      rw [show (m.forget id₀ cur.proc).process cur'.proc = m.process cur'.proc from
        stop_other (h.apart hid hcur hne)]

def launched (inst : Instance) (pid metricsPort : Nat) : Managed :=
  { proc := pid, tag := inst.tag, fingerprint := inst.fingerprint, metricsPort := metricsPort }

def spawned (env : Env) (inst : Instance) (metricsPort : Nat) : Process :=
  { inst := inst, config := renderConfig env.isPrint inst metricsPort, metricsPort := metricsPort }

def placed (env : Env) (m : Manager) (inst : Instance) (metricsPort : Nat) : Manager :=
  { procs := m.procs.insert inst.id (launched inst m.next metricsPort)
    files := (m.writeConfig env inst metricsPort).files
    process := Function.update m.process m.next (some (spawned env inst metricsPort))
    next := m.next + 1 }

theorem launch_cases (env : Env) (m : Manager) (inst : Instance) :
    (∃ port, env.launch m.next = .started port ∧ m.launch env inst = (placed env m inst port, true)) ∨
      (∀ port, env.launch m.next ≠ .started port) ∧
        ∃ files, m.launch env inst = ({ m with files := files, next := m.next + 1 }, false) := by
  rw [Manager.launch]
  cases hlaunch : env.launch m.next with
  | noPort => exact .inr ⟨nofun, m.files, rfl⟩
  | noFile port => exact .inr ⟨nofun, m.files, rfl⟩
  | noStart port => exact .inr ⟨nofun, _, rfl⟩
  | started port =>
    refine .inl ⟨port, rfl, ?_⟩
    simp only [Manager.start, Manager.writeConfig, Function.update_self]
    rfl

theorem placed_process (pid port : Nat) : (placed env m inst port).process pid =
    if pid = m.next then some (spawned env inst port) else m.process pid :=
  Function.update_apply _ _ _ _

theorem placed_slot (h : Inv env m) {port : Nat} : (placed env m inst port).slot id =
    if id = inst.id then some (launched inst m.next port, spawned env inst port) else m.slot id := by
  split
  case isTrue hid =>
    subst hid
    exact slot_some.mpr ⟨AList.lookup_insert _, Function.update_self _ _ _⟩
  case isFalse hne =>
    have hlookup : (placed env m inst port).procs.lookup id = m.procs.lookup id := AList.lookup_insert_ne hne
    rw [Manager.slot, Manager.slot, hlookup]
    cases hid : m.procs.lookup id with
    | none => rfl
    | some cur =>
      have hold : cur.proc ≠ m.next := by
        intro hproc
        obtain ⟨p, hp, -⟩ := h.entry hid
        rw [h.fresh (ge_of_eq hproc)] at hp
        cases hp
      simp only [Option.bind_some]
      rw [placed_process, if_neg hold]

theorem Inv.placed (h : Inv env m) (hnone : m.procs.lookup inst.id = none) (port : Nat) :
    Inv env (placed env m inst port) where
  entry := by
    intro id cur hcur
    by_cases hid : id = inst.id
    · subst hid
      obtain rfl := Option.some.inj ((AList.lookup_insert _).symm.trans hcur)
      exact ⟨_, Function.update_self _ _ _, rfl, rfl, rfl, rfl⟩
    · have hcur : m.procs.lookup id = some cur := (AList.lookup_insert_ne hid).symm.trans hcur
      obtain ⟨p, hp, hrest⟩ := h.entry hcur
      refine ⟨p, ?_, hrest⟩
      rw [placed_process, if_neg, hp]
      intro hproc
      rw [h.fresh (ge_of_eq hproc)] at hp
      cases hp
  fresh := by
    intro pid hpid
    have hlt : m.next + 1 ≤ pid := hpid
    rw [placed_process, if_neg (by omega)]
    exact h.fresh (by omega)
  owned := by
    intro pid p hp hrunning
    rw [placed_process] at hp
    split at hp
    case isTrue hpid =>
      obtain rfl := Option.some.inj hp
      exact ⟨_, AList.lookup_insert _, hpid.symm⟩
    case isFalse =>
      obtain ⟨cur, hcur, hproc⟩ := h.owned hp hrunning
      refine ⟨cur, ?_, hproc⟩
      have hne : p.inst.id ≠ inst.id := by
        intro hid
        rw [hid, hnone] at hcur
        cases hcur
      exact (AList.lookup_insert_ne hne).trans hcur

theorem Inv.launch (h : Inv env m) (hnone : m.procs.lookup inst.id = none) : Inv env (m.launch env inst).1 := by
  rcases launch_cases env m inst with ⟨port, -, heq⟩ | ⟨-, files, heq⟩
  · rw [heq]
    exact h.placed hnone port
  · rw [heq]
    exact ⟨h.entry, fun hpid => h.fresh (Nat.le_of_succ_le hpid), h.owned⟩

theorem launch_other (h : Inv env m) (hid : id ≠ inst.id) : (m.launch env inst).1.slot id = m.slot id := by
  rcases launch_cases env m inst with ⟨port, -, heq⟩ | ⟨-, files, heq⟩
  · rw [heq, placed_slot h, if_neg hid]
  · rw [heq]
    rfl

theorem launch_self (h : Inv env m) (hstarts : ∀ n, ∃ port, env.launch n = .started port) : ∃ port,
    (m.launch env inst).1.slot inst.id = some (launched inst m.next port, spawned env inst port) := by
  rcases launch_cases env m inst with ⟨port, -, heq⟩ | ⟨hfails, -⟩
  · exact ⟨port, by rw [heq, placed_slot h, if_pos rfl]⟩
  · obtain ⟨port, hport⟩ := hstarts m.next
    exact absurd hport (hfails port)

def renamed (m : Manager) (inst : Instance) (cur : Managed) : Manager :=
  { m with procs := m.procs.insert inst.id { cur with tag := inst.tag } }

theorem ensure_cases (env : Env) (m : Manager) (inst : Instance) :
    (m.procs.lookup inst.id = none ∧ m.ensure env inst = m.launch env inst) ∨
    ∃ cur, m.procs.lookup inst.id = some cur ∧
      ((cur.fingerprint = inst.fingerprint ∧ m.running cur.proc = true) ∧
        m.ensure env inst = (renamed m inst cur, true) ∨
      ¬ (cur.fingerprint = inst.fingerprint ∧ m.running cur.proc = true) ∧
        m.ensure env inst = (m.forget inst.id cur.proc).launch env inst) := by
  rw [Manager.ensure]
  cases hcur : m.procs.lookup inst.id with
  | none => exact .inl ⟨rfl, rfl⟩
  | some cur =>
    refine .inr ⟨cur, rfl, ?_⟩
    simp only
    split
    case isTrue hsame => exact .inl ⟨hsame, rfl⟩
    case isFalse hchanged => exact .inr ⟨hchanged, rfl⟩

theorem renamed_slot (h : m.slot inst.id = some (cur, p)) : (renamed m inst cur).slot id =
    if id = inst.id then some ({ cur with tag := inst.tag }, p) else m.slot id := by
  split
  case isTrue hid =>
    subst hid
    exact slot_some.mpr ⟨AList.lookup_insert _, (slot_some.mp h).2⟩
  case isFalse hne =>
    have hlookup : (renamed m inst cur).procs.lookup id = m.procs.lookup id := AList.lookup_insert_ne hne
    rw [Manager.slot, hlookup]
    rfl

variable (h : Inv env m)

include h

theorem Inv.renamed (hcur : m.procs.lookup inst.id = some cur) : Inv env (renamed m inst cur) where
  entry := by
    intro id cur' hcur'
    by_cases hid : id = inst.id
    · subst hid
      obtain rfl := Option.some.inj ((AList.lookup_insert _).symm.trans hcur')
      obtain ⟨p, hp⟩ := h.entry hcur
      exact ⟨p, hp⟩
    · exact h.entry ((AList.lookup_insert_ne hid).symm.trans hcur')
  fresh := h.fresh
  owned := by
    intro pid p hp hrunning
    obtain ⟨cur', hcur', hproc⟩ := h.owned hp hrunning
    by_cases hid : p.inst.id = inst.id
    · rw [hid, hcur] at hcur'
      refine ⟨{ cur with tag := inst.tag }, ?_, ?_⟩
      · rw [hid]
        exact AList.lookup_insert _
      · rw [Option.some.inj hcur']
        exact hproc
    · exact ⟨cur', (AList.lookup_insert_ne hid).trans hcur', hproc⟩

theorem Inv.ensured (inst : Instance) : Inv env (m.ensure env inst).1 := by
  rcases ensure_cases env m inst with ⟨hnone, heq⟩ | ⟨cur, hcur, ⟨-, heq⟩ | ⟨-, heq⟩⟩
  · rw [heq]
    exact h.launch hnone
  · rw [heq]
    exact h.renamed hcur
  · rw [heq]
    exact (h.forgotten hcur).launch (AList.lookup_erase _ _)

theorem ensure_other (hid : id ≠ inst.id) : (m.ensure env inst).1.slot id = m.slot id := by
  rcases ensure_cases env m inst with ⟨-, heq⟩ | ⟨cur, hcur, ⟨-, heq⟩ | ⟨-, heq⟩⟩
  · rw [heq, launch_other h hid]
  · obtain ⟨p, hp, -⟩ := h.slot hcur
    rw [heq, renamed_slot hp, if_neg hid]
  · rw [heq, launch_other (h.forgotten hcur) hid, forget_slot h hcur, if_neg hid]

theorem ensure_self (hstarts : ∀ n, ∃ port, env.launch n = .started port) (inst : Instance) :
    (∃ cur p, m.slot inst.id = some (cur, p) ∧ p.inst.fingerprint = inst.fingerprint ∧ p.running = true ∧
      (m.ensure env inst).1.slot inst.id = some ({ cur with tag := inst.tag }, p)) ∨
    (∀ cur p, m.slot inst.id = some (cur, p) → p.inst.fingerprint = inst.fingerprint → p.running = false) ∧
      ∃ pid port, (m.ensure env inst).1.slot inst.id = some (launched inst pid port, spawned env inst port) := by
  rcases ensure_cases env m inst with ⟨hnone, heq⟩ | ⟨cur, hcur, ⟨hsame, heq⟩ | ⟨hchanged, heq⟩⟩
  · obtain ⟨port, hport⟩ := @launch_self _ _ inst h hstarts
    refine .inr ⟨fun cur p hslot => ?_, _, port, by rw [heq, hport]⟩
    rw [slot_none hnone] at hslot
    cases hslot
  · obtain ⟨p, hp, -⟩ := h.slot hcur
    obtain ⟨p', hp', -, hfp, -⟩ := h.entry hcur
    obtain rfl := Option.some.inj ((slot_some.mp hp).2.symm.trans hp')
    have hrunning := hsame.2
    rw [Manager.running, hp'] at hrunning
    refine .inl ⟨cur, p, hp, hfp.symm.trans hsame.1, hrunning, ?_⟩
    rw [heq, renamed_slot hp, if_pos rfl]
  · obtain ⟨port, hport⟩ := @launch_self _ _ inst (h.forgotten hcur) hstarts
    refine .inr ⟨fun cur' p hslot hfp => Bool.eq_false_iff.mpr fun hrunning => hchanged ?_, _, port, by rw [heq, hport]⟩
    obtain ⟨hcur', hp⟩ := slot_some.mp hslot
    obtain rfl := Option.some.inj (hcur.symm.trans hcur')
    obtain ⟨p', hp', -, hfp', -⟩ := h.entry hcur
    obtain rfl := Option.some.inj (hp.symm.trans hp')
    refine ⟨hfp'.trans hfp, ?_⟩
    rw [Manager.running, hp]
    exact hrunning

theorem remove_slot (id₀ : Int) : (m.remove id₀).slot id = if id = id₀ then none else m.slot id := by
  cases hcur : m.procs.lookup id₀ with
  | none =>
    have heq : m.remove id₀ = m := by
      rw [Manager.remove, hcur]
    rw [heq]
    split
    case isTrue hid =>
      subst hid
      exact slot_none hcur
    case isFalse => rfl
  | some cur =>
    have hslot := @forget_slot _ _ id _ _ h hcur
    rw [Manager.remove, hcur]
    exact hslot

theorem Inv.removed (id₀ : Int) : Inv env (m.remove id₀) := by
  rw [Manager.remove]
  cases hcur : m.procs.lookup id₀ with
  | none => exact h
  | some cur =>
    have hforgotten := h.forgotten hcur
    exact ⟨hforgotten.entry, hforgotten.fresh, hforgotten.owned⟩

theorem Inv.swept (want ids : List Int) :
    Inv env (ids.foldl (fun m id => if id ∈ want then m else m.remove id) m) := by
  induction ids generalizing m with
  | nil => exact h
  | cons id₀ ids ih =>
    rw [List.foldl_cons]
    split
    · exact ih h
    · exact ih (h.removed id₀)

theorem swept_slot (want ids : List Int) :
    (ids.foldl (fun m id => if id ∈ want then m else m.remove id) m).slot id =
      if id ∈ ids ∧ id ∉ want then none else m.slot id := by
  induction ids generalizing m with
  | nil => simp
  | cons id₀ ids ih =>
    rw [List.foldl_cons]
    by_cases hwant : id₀ ∈ want
    · rw [if_pos hwant, ih h]
      have hmem : id ∈ id₀ :: ids ∧ id ∉ want ↔ id ∈ ids ∧ id ∉ want := by
        rw [List.mem_cons]
        refine ⟨?_, fun hin => ⟨.inr hin.1, hin.2⟩⟩
        rintro ⟨rfl | hin, hout⟩
        · exact absurd hwant hout
        · exact ⟨hin, hout⟩
      simp only [hmem]
    · rw [if_neg hwant, ih (h.removed id₀), remove_slot h]
      by_cases hid : id = id₀
      · subst hid
        simp [hwant]
      · simp [hid]

theorem Inv.sweep (want : List Int) : Inv env (m.sweep want) := h.swept want m.procs.keys

theorem sweep_slot (want : List Int) :
    (m.sweep want).slot id = if id ∈ want then m.slot id else none := by
  rw [Manager.sweep, swept_slot h]
  by_cases hwant : id ∈ want
  · simp [hwant]
  · by_cases hkeys : id ∈ m.procs.keys
    · simp [hwant, hkeys]
    · have hnone : m.procs.lookup id = none := AList.lookup_eq_none.mpr fun hin => hkeys (AList.mem_keys.mp hin)
      simp [hwant, hkeys, slot_none hnone]

theorem Inv.ensuredAll (desired : List Instance) :
    Inv env (desired.foldl (fun m inst => (m.ensure env inst).1) m) := by
  induction desired generalizing m with
  | nil => exact h
  | cons inst desired ih => exact ih (h.ensured inst)

variable {desired : List Instance}

theorem ensuredAll_other (hid : id ∉ desired.map (·.id)) :
    (desired.foldl (fun m inst => (m.ensure env inst).1) m).slot id = m.slot id := by
  induction desired generalizing m with
  | nil => rfl
  | cons inst desired ih =>
    rw [List.map_cons, List.mem_cons, not_or] at hid
    rw [List.foldl_cons, ih (h.ensured inst) hid.2, ensure_other h hid.1]

theorem ensuredAll_self (hnodup : (desired.map (·.id)).Nodup)
    (hmem : inst ∈ desired) : ∃ m', Inv env m' ∧ m'.slot inst.id = m.slot inst.id ∧
      (desired.foldl (fun m inst => (m.ensure env inst).1) m).slot inst.id =
        (m'.ensure env inst).1.slot inst.id := by
  induction desired generalizing m with
  | nil => cases hmem
  | cons inst₀ desired ih =>
    rw [List.map_cons, List.nodup_cons] at hnodup
    rw [List.foldl_cons]
    rcases List.mem_cons.mp hmem with rfl | hmem
    · exact ⟨m, h, rfl, ensuredAll_other (h.ensured inst) hnodup.1⟩
    · have hne : inst.id ≠ inst₀.id := by
        intro hid
        exact hnodup.1 (hid ▸ List.mem_map_of_mem hmem)
      obtain ⟨m', hinv, hslot, hfold⟩ := ih (h.ensured inst₀) hnodup.2 hmem
      exact ⟨m', hinv, hslot.trans (ensure_other h hne), hfold⟩

theorem Inv.reconciled (desired : List Instance) : Inv env (m.reconcile env desired) :=
  (h.sweep _).ensuredAll desired

theorem reconcile_other (hid : id ∉ desired.map (·.id)) :
    (m.reconcile env desired).slot id = none := by
  rw [Manager.reconcile, ensuredAll_other (h.sweep _) hid, sweep_slot h, if_neg hid]

theorem reconcile_self (hstarts : ∀ n, ∃ port, env.launch n = .started port)
    (hnodup : (desired.map (·.id)).Nodup) (hmem : inst ∈ desired) :
    (∃ cur p, m.slot inst.id = some (cur, p) ∧ p.inst.fingerprint = inst.fingerprint ∧ p.running = true ∧
      (m.reconcile env desired).slot inst.id = some ({ cur with tag := inst.tag }, p)) ∨
    (∀ cur p, m.slot inst.id = some (cur, p) → p.inst.fingerprint = inst.fingerprint → p.running = false) ∧
      ∃ pid port, (m.reconcile env desired).slot inst.id = some (launched inst pid port, spawned env inst port) := by
  obtain ⟨m', hinv, hslot, hfold⟩ := ensuredAll_self (h.sweep (desired.map (·.id))) hnodup hmem
  have hsame : m'.slot inst.id = m.slot inst.id := by
    rw [hslot]
    exact (sweep_slot h _).trans (if_pos (List.mem_map_of_mem hmem))
  have hself := ensure_self hinv hstarts inst
  rw [hsame, ← hfold] at hself
  exact hself

theorem Inv.stoppedAll : Inv env m.stopAll := by
  have hall : ∀ (ids : List Int) (m : Manager), Inv env m → Inv env (ids.foldl Manager.remove m) := by
    intro ids
    induction ids with
    | nil => exact fun _ h => h
    | cons id ids ih => exact fun m h => ih _ (h.removed id)
  exact hall _ _ h

omit h

theorem boot_inv : Inv env boot where
  entry := nofun
  fresh _ := rfl
  owned := nofun

theorem Inv.act (h : Inv env m) (a : Act) : Inv env (m.act env a) := by
  cases a with
  | ensure inst => exact h.ensured inst
  | remove id => exact h.removed id
  | reconcile desired => exact h.reconciled desired
  | stopAll => exact h.stoppedAll
  | exit pid => exact h.stopped pid

theorem run_inv (acts : List Act) : Inv env (acts.foldl (Manager.act env) boot) := by
  induction acts using List.reverseRecOn with
  | nil => exact boot_inv
  | append_singleton acts a ih =>
    rw [List.foldl_append]
    exact ih.act a

end invariant

section results

variable {env : Env} {m : Manager} {inst : Instance}

theorem config_of_fingerprint (h : Inv env m) {cur : Managed} {p : Process} (hslot : m.slot inst.id = some (cur, p)) :
    p.config = renderConfig env.isPrint p.inst p.metricsPort := by
  obtain ⟨hcur, hp⟩ := slot_some.mp hslot
  obtain ⟨p', hp', -, -, -, hconfig⟩ := h.entry hcur
  obtain rfl := Option.some.inj (hp.symm.trans hp')
  exact hconfig

theorem SameConfig.fingerprint_eq {a b : Instance} (h : SameConfig a b) : a.fingerprint = b.fingerprint := by
  rw [← h]
  rfl

theorem SameConfig.render_eq {a b : Instance} (h : SameConfig a b) (isPrint : Char → Bool) (port : Nat) :
    renderConfig isPrint a port = renderConfig isPrint b port := by
  rw [← h]
  rfl

theorem settled_iff (hstarts : ∀ n, ∃ port, env.launch n = .started port) (h : Inv env m) {desired : List Instance}
    (hnodup : (desired.map (·.id)).Nodup) : Settled env m desired ↔ ∀ inst ∈ desired, Told env m inst := by
  constructor
  · intro hsettled inst hmem cur p hslot hrunning hfp
    obtain ⟨cur', p', hruns⟩ := hsettled.runs inst hmem
    rcases reconcile_self h hstarts hnodup hmem with ⟨cur₁, p₁, hslot₁, -, -, hafter⟩ | ⟨hstopped, -⟩
    · obtain ⟨rfl, rfl⟩ := Prod.mk.inj (Option.some.inj (hslot.symm.trans hslot₁))
      obtain ⟨-, rfl⟩ := Prod.mk.inj (Option.some.inj (hafter.symm.trans hruns.slot))
      obtain ⟨inst', hsame, hconfig⟩ := hruns.config
      rw [← config_of_fingerprint h hslot, hconfig, hsame.render_eq]
    · rw [hstopped cur p hslot hfp] at hrunning
      cases hrunning
  · intro htold
    have hinv := h.reconciled desired
    have hself {inst : Instance} (hmem : inst ∈ desired) := reconcile_self h hstarts hnodup hmem
    have hexact (id : Int) : ((m.reconcile env desired).procs.lookup id).isSome ↔ id ∈ desired.map (·.id) := by
      constructor
      · intro hsome
        by_contra hid
        obtain ⟨cur, hcur⟩ := Option.isSome_iff_exists.mp hsome
        obtain ⟨p, hp, -⟩ := hinv.slot hcur
        rw [reconcile_other h hid] at hp
        cases hp
      · intro hid
        obtain ⟨inst, hmem, rfl⟩ := List.mem_map.mp hid
        rcases hself hmem with ⟨cur, p, -, -, -, hslot⟩ | ⟨-, pid, port, hslot⟩
        · rw [(slot_some.mp hslot).1]
          rfl
        · rw [(slot_some.mp hslot).1]
          rfl
    refine ⟨hexact, ?owned, ?runs, ?kept⟩
    case owned =>
      intro pid hrunning
      rw [Manager.running] at hrunning
      cases hp : (m.reconcile env desired).process pid with
      | none =>
        rw [hp] at hrunning
        cases hrunning
      | some p =>
        rw [hp] at hrunning
        obtain ⟨cur, hcur, hproc⟩ := hinv.owned hp hrunning
        have hid := (hexact p.inst.id).mp (by rw [hcur]; rfl)
        obtain ⟨inst, hmem, hid⟩ := List.mem_map.mp hid
        exact ⟨inst, hmem, cur, by rw [hid, hcur], hproc⟩
    case runs =>
      intro inst hmem
      rcases hself hmem with ⟨cur, p, hslot, hfp, hrunning, hafter⟩ | ⟨-, pid, port, hafter⟩
      · refine ⟨_, _, hafter, rfl, hrunning, inst, rfl, ?_⟩
        rw [config_of_fingerprint h hslot]
        exact htold inst hmem cur p hslot hrunning hfp
      · exact ⟨_, _, hafter, rfl, rfl, inst, rfl, rfl⟩
    case kept =>
      intro inst hmem cur p hslot hrunning hsame
      rcases hself hmem with ⟨cur', p', hslot', -, -, hafter⟩ | ⟨hstopped, -⟩
      · obtain ⟨rfl, rfl⟩ := Prod.mk.inj (Option.some.inj (hslot.symm.trans hslot'))
        exact ⟨_, hafter, rfl⟩
      · rw [hstopped cur p hslot hsame.fingerprint_eq] at hrunning
        cases hrunning

end results

end Mtproto

end QuiPanel
