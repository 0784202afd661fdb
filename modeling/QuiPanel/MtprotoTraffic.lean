import QuiPanel.MtprotoManager
import QuiPanel.Library.Labelled
import QuiPanel.Library.Sums

namespace QuiPanel

namespace Mtproto

open Labelled List

section model

structure Traffic where
  tag : String
  up : Int
  down : Int

structure Snap where
  id : Int
  proc : Nat
  metricsPort : Nat
  tag : String
  haveLast : Bool
  lastUp : Int
  lastDown : Int

structure Scrape where
  snap : Snap
  pid : Nat
  up : Int
  down : Int
  tagThen : Option String
  before : Option (Int × Int)

structure Collect where
  todo : List Snap
  scraped : Option Scrape := none

structure World where
  manager : Manager
  collects : List Collect
  seen : Nat → Option (Int × Int)
  log : List Scrape

def clamp (d : Int) : Int := if d < 0 then 0 else d

def Scrape.delta (s : Scrape) : Int × Int :=
  if s.snap.haveLast then (clamp (s.up - s.snap.lastUp), clamp (s.down - s.snap.lastDown)) else (0, 0)

def Scrape.traffic (s : Scrape) : Option Traffic :=
  if s.snap.haveLast && (0 < s.delta.1 || 0 < s.delta.2) then some ⟨s.snap.tag, s.delta.1, s.delta.2⟩ else none

def Managed.snap (id : Int) (cur : Managed) : Snap :=
  ⟨id, cur.proc, cur.metricsPort, cur.tag, cur.haveLast, cur.lastUp, cur.lastDown⟩

def Manager.snapshot (m : Manager) : List Snap :=
  m.procs.entries.filterMap fun e => if m.running e.2.proc then some (e.2.snap e.1) else none

def Managed.rebase (cur : Managed) (s : Scrape) : Managed :=
  { cur with lastUp := s.up, lastDown := s.down, haveLast := true }

def Manager.persist (m : Manager) (s : Scrape) : Manager :=
  match m.procs.lookup s.snap.id with
  | some cur => { m with procs := m.procs.insert s.snap.id (cur.rebase s) }
  | none => m

def Process.grow (p : Process) (up down : Nat) : Process := { p with up := p.up + up, down := p.down + down }

def World.scrape (w : World) (s : Snap) (pid : Nat) (p : Process) : Scrape where
  snap := s
  pid := pid
  up := p.up
  down := p.down
  tagThen := (w.manager.procs.lookup s.id).map (·.tag)
  before := w.seen pid

inductive Event
  | manage (a : Act)
  | grow (pid up down : Nat)
  | collect
  | scrape (s : Snap) (pid : Nat)
  | miss
  | persist
  | finish

inductive Step (env : Env) : World → Event → World → Prop
  | manage {w a} : Step env w (.manage a) { w with manager := w.manager.act env a }
  | grow {w pid p up down} : w.manager.process pid = some p → p.running = true → Step env w (.grow pid up down)
      { w with manager.process := Function.update w.manager.process pid (some (p.grow up down)) }
  | collect {w snaps} : snaps.Perm w.manager.snapshot →
      Step env w .collect { w with collects := { todo := snaps } :: w.collects }
  | scrape {w s rest pid p} (pre post) : w.collects = pre ++ { todo := s :: rest } :: post →
      w.manager.process pid = some p → p.running = true → p.metricsPort = s.metricsPort →
      Step env w (.scrape s pid)
        { w with
          collects := pre ++ { todo := rest, scraped := some (w.scrape s pid p) } :: post
          seen := Function.update w.seen pid (some (p.up, p.down))
          log := w.log ++ [w.scrape s pid p] }
  | miss {w s rest} (pre post) : w.collects = pre ++ { todo := s :: rest } :: post →
      Step env w .miss { w with collects := pre ++ { todo := rest } :: post }
  | persist {w s rest} (pre post) : w.collects = pre ++ { todo := rest, scraped := some s } :: post →
      Step env w .persist { w with manager := w.manager.persist s, collects := pre ++ { todo := rest } :: post }
  | finish {w} (pre post) : w.collects = pre ++ { todo := [] } :: post →
      Step env w .finish { w with collects := pre ++ post }

end model

section specification

inductive Side
  | up
  | down

def Side.of : Side → Int × Int → Int
  | .up, b => b.1
  | .down, b => b.2

def Scrape.reported (s : Scrape) : Int × Int := (s.traffic.map fun t => (t.up, t.down)).getD (0, 0)

def World.returned (w : World) (id : Int) (side : Side) : Int :=
  ((w.log.filter fun s => s.snap.id = id).map fun s => side.of s.reported).sum

def Manager.transferred (m : Manager) (id : Int) (side : Side) : Int :=
  ((List.range m.next).map fun pid =>
    match m.process pid with
    | some p => if p.inst.id = id then side.of (p.up, p.down) else 0
    | none => 0).sum

structure Sound (w : World) : Prop where
  nonneg : ∀ s ∈ w.log, ∀ t, s.traffic = some t → 0 ≤ t.up ∧ 0 ≤ t.down
  tagged : ∀ s ∈ w.log, ∀ t, s.traffic = some t → s.tagThen = some t.tag
  bounded (id : Int) (side : Side) : w.returned id side ≤ w.manager.transferred id side
  exact : ∀ s ∈ w.log, ∀ b, s.before = some b → s.reported = (s.up - b.1, s.down - b.2)

def Orderly (w : World) : Event → Prop
  | .collect => w.collects = []
  | .scrape s pid => pid = s.proc ∧ (w.manager.procs.lookup s.id).map (·.tag) = some s.tag
  | _ => True

def start : World := ⟨boot, [], fun _ => none, []⟩

end specification

section evolution

variable {env : Env} {m m' m'' : Manager} {id : Int} {inst : Instance} {cur : Managed} {p : Process}

structure Evolves (m m' : Manager) : Prop where
  process {pid : Nat} {p : Process} : m.process pid = some p →
    ∃ p', m'.process pid = some p' ∧ p'.inst = p.inst ∧ p'.up = p.up ∧ p'.down = p.down
  fresh {pid : Nat} {p : Process} : m.process pid = none → m'.process pid = some p → p.up = 0 ∧ p.down = 0
  entry {id : Int} {cur : Managed} : m'.procs.lookup id = some cur →
    (∃ cur', m.procs.lookup id = some cur' ∧ cur.snap id = { cur'.snap id with tag := cur.tag }) ∨
      m.process cur.proc = none ∧ cur.lastUp = 0 ∧ cur.lastDown = 0

theorem Evolves.refl (m : Manager) : Evolves m m where
  process hp := ⟨_, hp, rfl, rfl, rfl⟩
  fresh hnone hp := absurd (hnone.symm.trans hp) nofun
  entry hcur := .inl ⟨_, hcur, rfl⟩

theorem Evolves.trans (h : Evolves m m') (h' : Evolves m' m'') : Evolves m m'' where
  process hp := by
    obtain ⟨p', hp', hinst, hup, hdown⟩ := h.process hp
    obtain ⟨p'', hp'', hinst', hup', hdown'⟩ := h'.process hp'
    exact ⟨p'', hp'', hinst'.trans hinst, hup'.trans hup, hdown'.trans hdown⟩
  fresh := by
    intro pid p hnone hp
    cases hmid : m'.process pid with
    | none => exact h'.fresh hmid hp
    | some p' =>
      obtain ⟨p'', hp'', -, hup, hdown⟩ := h'.process hmid
      obtain rfl := Option.some.inj (hp''.symm.trans hp)
      obtain ⟨hzero, hzero'⟩ := h.fresh hnone hmid
      exact ⟨hup.trans hzero, hdown.trans hzero'⟩
  entry := by
    intro id cur hcur
    rcases h'.entry hcur with ⟨cur', hcur', hsnap⟩ | ⟨hnone, hlast⟩
    · rcases h.entry hcur' with ⟨cur'', hcur'', hsnap'⟩ | ⟨hnone, hup, hdown⟩
      · refine .inl ⟨cur'', hcur'', ?_⟩
        rw [hsnap, hsnap']
      · have hproc := congrArg Snap.proc hsnap
        have hlast := congrArg Snap.lastUp hsnap
        have hlast' := congrArg Snap.lastDown hsnap
        exact .inr ⟨(congrArg m.process hproc).trans hnone, hlast.trans hup, hlast'.trans hdown⟩
    · refine .inr ⟨?_, hlast⟩
      by_contra hsome
      obtain ⟨p, hp⟩ := Option.ne_none_iff_exists'.mp hsome
      obtain ⟨p', hp', -⟩ := h.process hp
      rw [hnone] at hp'
      cases hp'

theorem evolves_stop (pid : Nat) : Evolves m (m.stop pid) where
  process := by
    intro pid' p hp
    by_cases hpid : pid' = pid
    · subst hpid
      exact ⟨{ p with running := false }, by rw [stop_self, hp]; rfl, rfl, rfl, rfl⟩
    · exact ⟨p, (stop_other hpid).trans hp, rfl, rfl, rfl⟩
  fresh := by
    intro pid' p hnone hp
    obtain ⟨p', hp', -⟩ := stop_cases hp
    rw [hnone] at hp'
    cases hp'
  entry hcur := .inl ⟨_, hcur, rfl⟩

theorem evolves_erase (id₀ : Int) (files : Int → Option String) :
    Evolves m { m with procs := m.procs.erase id₀, files := files } where
  process hp := ⟨_, hp, rfl, rfl, rfl⟩
  fresh hnone hp := absurd (hnone.symm.trans hp) nofun
  entry := by
    intro id cur hcur
    by_cases hid : id = id₀
    · subst hid
      rw [AList.lookup_erase] at hcur
      cases hcur
    · rw [AList.lookup_erase_ne hid] at hcur
      exact .inl ⟨cur, hcur, rfl⟩

theorem evolves_launch (h : Inv env m) : Evolves m (m.launch env inst).1 := by
  rcases launch_cases env m inst with ⟨port, -, heq⟩ | ⟨-, files, heq⟩
  · rw [heq]
    refine ⟨?process, ?fresh, ?entry⟩
    case process =>
      intro pid p hp
      have hold : pid ≠ m.next := by
        rintro rfl
        rw [h.fresh le_rfl] at hp
        cases hp
      exact ⟨p, by rw [placed_process, if_neg hold, hp], rfl, rfl, rfl⟩
    case fresh =>
      intro pid p hnone hp
      rw [placed_process] at hp
      split at hp
      · obtain rfl := Option.some.inj hp
        exact ⟨rfl, rfl⟩
      · rw [hnone] at hp
        cases hp
    case entry =>
      intro id cur hcur
      by_cases hid : id = inst.id
      · subst hid
        obtain rfl := Option.some.inj ((AList.lookup_insert _).symm.trans hcur)
        exact .inr ⟨h.fresh le_rfl, rfl, rfl⟩
      · exact .inl ⟨cur, (AList.lookup_insert_ne hid).symm.trans hcur, rfl⟩
  · rw [heq]
    exact ⟨(Evolves.refl m).process, (Evolves.refl m).fresh, (Evolves.refl m).entry⟩

theorem evolves_forget (id₀ : Int) (pid : Nat) : Evolves m (m.forget id₀ pid) :=
  (evolves_stop pid).trans (evolves_erase id₀ _)

theorem evolves_remove (id₀ : Int) : Evolves m (m.remove id₀) := by
  rw [Manager.remove]
  split
  · exact (evolves_stop _).trans (evolves_erase id₀ _)
  · exact .refl m

theorem evolves_renamed (hcur : m.procs.lookup inst.id = some cur) : Evolves m (renamed m inst cur) where
  process hp := ⟨_, hp, rfl, rfl, rfl⟩
  fresh hnone hp := absurd (hnone.symm.trans hp) nofun
  entry := by
    intro id cur' hcur'
    by_cases hid : id = inst.id
    · subst hid
      obtain rfl := Option.some.inj ((AList.lookup_insert _).symm.trans hcur')
      exact .inl ⟨cur, hcur, rfl⟩
    · exact .inl ⟨cur', (AList.lookup_insert_ne hid).symm.trans hcur', rfl⟩

theorem evolves_ensure (h : Inv env m) (inst : Instance) : Evolves m (m.ensure env inst).1 := by
  rcases ensure_cases env m inst with ⟨-, heq⟩ | ⟨cur, hcur, ⟨-, heq⟩ | ⟨-, heq⟩⟩
  · rw [heq]
    exact evolves_launch h
  · rw [heq]
    exact evolves_renamed hcur
  · rw [heq]
    exact (evolves_forget _ _).trans (evolves_launch (h.forgotten hcur))

theorem evolves_act (h : Inv env m) (a : Act) : Evolves m (m.act env a) := by
  cases a with
  | ensure inst => exact evolves_ensure h inst
  | remove id => exact evolves_remove id
  | reconcile desired =>
    have hsweep (want ids : List Int) (m : Manager) :
        Evolves m (ids.foldl (fun m id => if id ∈ want then m else m.remove id) m) := by
      induction ids generalizing m with
      | nil => exact .refl m
      | cons id ids ih =>
        rw [foldl_cons]
        split
        · exact ih m
        · exact (evolves_remove id).trans (ih _)
    have hensure (desired : List Instance) (m : Manager) (h : Inv env m) :
        Evolves m (desired.foldl (fun m inst => (m.ensure env inst).1) m) := by
      induction desired generalizing m with
      | nil => exact .refl m
      | cons inst desired ih => exact (evolves_ensure h inst).trans (ih _ (h.ensured inst))
    exact (hsweep _ _ m).trans (hensure desired _ (h.sweep _))
  | stopAll =>
    have hall (ids : List Int) (m : Manager) : Evolves m (ids.foldl Manager.remove m) := by
      induction ids generalizing m with
      | nil => exact .refl m
      | cons id ids ih => exact (evolves_remove id).trans (ih _)
    exact hall _ m
  | exit pid => exact evolves_stop pid

end evolution

section invariant

variable {env : Env} {w w' : World} {id : Int} {pid : Nat} {b : Int × Int} {s : Snap} {sc : Scrape} {cur : Managed}
  {p : Process} {e : Event}

def Owned (process : Nat → Option Process) (pid : Nat) (id : Int) : Prop :=
  ∃ p, process pid = some p ∧ p.inst.id = id

def Based (seen : Nat → Option (Int × Int)) (s : Snap) : Prop :=
  ∀ b, seen s.proc = some b → s.haveLast = true ∧ (s.lastUp, s.lastDown) = b

structure Live (process : Nat → Option Process) (seen : Nat → Option (Int × Int)) (s : Snap) : Prop where
  owner : Owned process s.proc s.id
  nonneg : 0 ≤ s.lastUp ∧ 0 ≤ s.lastDown
  based : Based seen s

structure Pending (m : Manager) (seen : Nat → Option (Int × Int)) (sc : Scrape) : Prop where
  owner : Owned m.process sc.pid sc.snap.id
  nonneg : 0 ≤ sc.up ∧ 0 ≤ sc.down
  noted : seen sc.pid = some (sc.up, sc.down)
  current {cur : Managed} : m.procs.lookup sc.snap.id = some cur → cur.proc = sc.pid ∨ seen cur.proc = none

structure InFlight (m : Manager) (seen : Nat → Option (Int × Int)) (c : Collect) : Prop where
  nodup : (c.todo.map (·.proc)).Nodup
  live : ∀ s ∈ c.todo, Live m.process seen s
  pending {sc : Scrape} : c.scraped = some sc → Pending m seen sc

def Awaits (collects : List Collect) (pid : Nat) : Prop := ∃ c ∈ collects, ∃ sc, c.scraped = some sc ∧ sc.pid = pid

structure Logged (process : Nat → Option Process) (sc : Scrape) : Prop where
  owner : Owned process sc.pid sc.snap.id
  tagged : sc.tagThen = some sc.snap.tag
  exact (b : Int × Int) : sc.before = some b → sc.reported = (sc.up - b.1, sc.down - b.2)

def counted (log : List Scrape) (pid : Nat) (side : Side) : Int :=
  ((log.filter fun s => s.pid = pid).map fun s => side.of s.reported).sum

structure Kept (env : Env) (w : World) : Prop where
  inv : Inv env w.manager
  counters {pid : Nat} {p : Process} : w.manager.process pid = some p → 0 ≤ p.up ∧ 0 ≤ p.down
  seen {pid : Nat} {b : Int × Int} : w.seen pid = some b → ∃ p, w.manager.process pid = some p ∧
    (0 ≤ b.1 ∧ b.1 ≤ p.up) ∧ 0 ≤ b.2 ∧ b.2 ≤ p.down
  alone : w.collects = [] ∨ ∃ c, w.collects = [c] ∧ InFlight w.manager w.seen c
  nonneg {id : Int} {cur : Managed} : w.manager.procs.lookup id = some cur → 0 ≤ cur.lastUp ∧ 0 ≤ cur.lastDown
  based {id : Int} {cur : Managed} : w.manager.procs.lookup id = some cur →
    Awaits w.collects cur.proc ∨ Based w.seen (cur.snap id)
  log : ∀ sc ∈ w.log, Logged w.manager.process sc
  counted (pid : Nat) (side : Side) : counted w.log pid side ≤ side.of ((w.seen pid).getD (0, 0))

theorem clamp_nonneg (d : Int) : 0 ≤ clamp d := by
  rw [clamp]
  split <;> omega

theorem clamp_le {a l : Int} (ha : 0 ≤ a) (hl : 0 ≤ l) : clamp (a - l) ≤ a := by
  rw [clamp]
  split <;> omega

theorem clamp_sub {a l : Int} (h : l ≤ a) : clamp (a - l) = a - l := by
  rw [clamp]
  split <;> omega

theorem delta_nonneg (sc : Scrape) : 0 ≤ sc.delta.1 ∧ 0 ≤ sc.delta.2 := by
  rw [Scrape.delta]
  split
  · exact ⟨clamp_nonneg _, clamp_nonneg _⟩
  · exact ⟨le_rfl, le_rfl⟩

theorem reported_eq (sc : Scrape) : sc.reported = sc.delta := by
  obtain ⟨hup, hdown⟩ := delta_nonneg sc
  rw [Scrape.reported, Scrape.traffic]
  by_cases hlast : sc.snap.haveLast = true
  · by_cases hsome : 0 < sc.delta.1 ∨ 0 < sc.delta.2
    · rw [if_pos (by simpa [hlast] using hsome)]
      rfl
    · rw [if_neg (by simpa [hlast] using hsome)]
      have hzero : sc.delta.1 = 0 ∧ sc.delta.2 = 0 := by omega
      exact (Prod.ext hzero.1 hzero.2).symm
  · rw [if_neg (by simp [hlast]), Scrape.delta, if_neg hlast]
    rfl

theorem delta_first (side : Side) (hlast : 0 ≤ sc.snap.lastUp ∧ 0 ≤ sc.snap.lastDown) (hnow : 0 ≤ sc.up ∧ 0 ≤ sc.down) :
    side.of sc.reported ≤ side.of (sc.up, sc.down) := by
  rw [reported_eq, Scrape.delta]
  split
  · cases side
    · exact clamp_le hnow.1 hlast.1
    · exact clamp_le hnow.2 hlast.2
  · cases side
    · exact hnow.1
    · exact hnow.2

theorem delta_next (hlast : sc.snap.haveLast = true ∧ (sc.snap.lastUp, sc.snap.lastDown) = b)
    (hgrown : b.1 ≤ sc.up ∧ b.2 ≤ sc.down) : sc.reported = (sc.up - b.1, sc.down - b.2) := by
  obtain ⟨hlast, rfl⟩ := hlast
  rw [reported_eq, Scrape.delta, if_pos hlast, clamp_sub hgrown.1, clamp_sub hgrown.2]

theorem Kept.sound (h : Kept env w) : Sound w where
  nonneg := by
    intro sc _ t ht
    have hreported : sc.reported = (t.up, t.down) := by
      rw [Scrape.reported, ht]
      rfl
    have hnonneg := delta_nonneg sc
    rw [← reported_eq, hreported] at hnonneg
    exact hnonneg
  tagged := by
    intro sc hmem t ht
    rw [(h.log sc hmem).tagged]
    rw [Scrape.traffic] at ht
    split at ht
    · rw [← Option.some.inj ht]
    · cases ht
  bounded := by
    intro id side
    have hcover : ∀ sc ∈ w.log, sc.pid ∈ List.range w.manager.next := by
      intro sc hmem
      obtain ⟨p, hp, -⟩ := (h.log sc hmem).owner
      rw [mem_range]
      by_contra hge
      rw [h.inv.fresh (not_lt.mp hge)] at hp
      cases hp
    rw [World.returned, ← Sums.sum_partition nodup_range hcover, Manager.transferred]
    refine Sums.sum_mono fun pid _ => ?_
    have hnone (hother : ¬ Owned w.manager.process pid id) :
        (w.log.filter fun sc => decide (sc.snap.id = id) && sc.pid == pid) = [] := by
      refine filter_eq_nil_iff.mpr fun sc hmem hsc => ?_
      rw [Bool.and_eq_true, decide_eq_true_eq, beq_iff_eq] at hsc
      obtain ⟨rfl, rfl⟩ := hsc
      exact hother (h.log sc hmem).owner
    cases hp : w.manager.process pid with
    | none =>
      rw [hnone (by rintro ⟨p, hp', -⟩; rw [hp] at hp'; cases hp')]
      exact le_rfl
    | some p =>
      simp only
      split
      case isTrue hid =>
        have hsame : (w.log.filter fun sc => decide (sc.snap.id = id) && sc.pid == pid) =
            w.log.filter fun sc => sc.pid = pid := by
          refine filter_congr fun sc hmem => ?_
          by_cases hpid : sc.pid = pid
          · obtain ⟨p', hp', hid'⟩ := (h.log sc hmem).owner
            rw [hpid, hp] at hp'
            obtain rfl := Option.some.inj hp'
            simp [hpid, hid, ← hid']
          · simp [hpid]
        rw [hsame]
        refine (h.counted pid side).trans ?_
        cases hseen : w.seen pid with
        | none =>
          cases side
          · exact (h.counters hp).1
          · exact (h.counters hp).2
        | some b =>
          obtain ⟨p', hp', ⟨-, hup⟩, -, hdown⟩ := h.seen hseen
          obtain rfl := Option.some.inj (hp.symm.trans hp')
          cases side
          · exact hup
          · exact hdown
      case isFalse hid =>
        rw [hnone (by rintro ⟨p', hp', hid'⟩; rw [hp] at hp'; obtain rfl := Option.some.inj hp'; exact hid hid')]
        exact le_rfl
  exact sc hmem := (h.log sc hmem).exact

theorem Kept.carried (h : Kept env w) {m' : Manager} (hinv : Inv env m')
    (hprocess : ∀ pid p, w.manager.process pid = some p →
      ∃ p', m'.process pid = some p' ∧ p'.inst = p.inst ∧ p.up ≤ p'.up ∧ p.down ≤ p'.down)
    (hcounters : ∀ pid p, m'.process pid = some p → 0 ≤ p.up ∧ 0 ≤ p.down)
    (hentry : ∀ id cur, m'.procs.lookup id = some cur →
      (∃ cur', w.manager.procs.lookup id = some cur' ∧ cur.snap id = { cur'.snap id with tag := cur.tag }) ∨
        w.manager.process cur.proc = none ∧ cur.lastUp = 0 ∧ cur.lastDown = 0) :
    Kept env { w with manager := m' } := by
  have howned {pid : Nat} {id : Int} (ho : Owned w.manager.process pid id) : Owned m'.process pid id := by
    obtain ⟨p, hp, hid⟩ := ho
    obtain ⟨p', hp', hinst, -⟩ := hprocess pid p hp
    exact ⟨p', hp', (congrArg Instance.id hinst).trans hid⟩
  have hunseen {pid : Nat} (hnone : w.manager.process pid = none) : w.seen pid = none := by
    by_contra hsome
    obtain ⟨b, hb⟩ := Option.ne_none_iff_exists'.mp hsome
    obtain ⟨p, hp, -⟩ := h.seen hb
    rw [hnone] at hp
    cases hp
  refine ⟨hinv, fun {pid p} => hcounters pid p, ?seen, ?alone, ?nonneg, ?based, ?log, h.counted⟩
  case seen =>
    intro pid b hb
    obtain ⟨p, hp, ⟨hup, hup'⟩, hdown, hdown'⟩ := h.seen hb
    obtain ⟨p', hp', -, hgrown, hgrown'⟩ := hprocess pid p hp
    exact ⟨p', hp', ⟨hup, hup'.trans hgrown⟩, hdown, hdown'.trans hgrown'⟩
  case alone =>
    rcases h.alone with hnone | ⟨c, hone, hflight⟩
    · exact .inl hnone
    · refine .inr ⟨c, hone, hflight.nodup, fun s hs => ?_, fun {sc} hsc => ?_⟩
      · have hlive := hflight.live s hs
        exact ⟨howned hlive.owner, hlive.nonneg, hlive.based⟩
      · have hpending := hflight.pending hsc
        refine ⟨howned hpending.owner, hpending.nonneg, hpending.noted, fun {cur} hcur => ?_⟩
        rcases hentry _ cur hcur with ⟨cur', hcur', hsnap⟩ | ⟨hnone, -⟩
        · have hproc : cur.proc = cur'.proc := congrArg Snap.proc hsnap
          rw [hproc]
          exact hpending.current hcur'
        · exact .inr (hunseen hnone)
  case nonneg =>
    intro id cur hcur
    rcases hentry id cur hcur with ⟨cur', hcur', hsnap⟩ | ⟨-, hup, hdown⟩
    · have hup : cur.lastUp = cur'.lastUp := congrArg Snap.lastUp hsnap
      have hdown : cur.lastDown = cur'.lastDown := congrArg Snap.lastDown hsnap
      rw [hup, hdown]
      exact h.nonneg hcur'
    · rw [hup, hdown]
      exact ⟨le_rfl, le_rfl⟩
  case based =>
    intro id cur hcur
    rcases hentry id cur hcur with ⟨cur', hcur', hsnap⟩ | ⟨hnone, -⟩
    · have hproc : cur.proc = cur'.proc := congrArg Snap.proc hsnap
      refine (h.based hcur').imp (fun hwait => ?_) fun hbased => ?_
      · rw [hproc]
        exact hwait
      · rw [hsnap]
        exact hbased
    · refine .inr fun b hb => ?_
      exact absurd ((hunseen hnone).symm.trans hb) nofun
  case log =>
    intro sc hmem
    have hlogged := h.log sc hmem
    exact ⟨howned hlogged.owner, hlogged.tagged, hlogged.exact⟩

theorem Kept.managed (h : Kept env w) (a : Act) : Kept env { w with manager := w.manager.act env a } := by
  have hevolves := evolves_act h.inv a
  refine h.carried (h.inv.act a) (fun pid p hp => ?_) (fun pid p hp => ?_) fun id cur => hevolves.entry
  · obtain ⟨p', hp', hinst, hup, hdown⟩ := hevolves.process hp
    exact ⟨p', hp', hinst, le_of_eq hup.symm, le_of_eq hdown.symm⟩
  · cases hold : w.manager.process pid with
    | none =>
      obtain ⟨hup, hdown⟩ := hevolves.fresh hold hp
      rw [hup, hdown]
      exact ⟨le_rfl, le_rfl⟩
    | some p₀ =>
      obtain ⟨p', hp', -, hup, hdown⟩ := hevolves.process hold
      obtain rfl := Option.some.inj (hp'.symm.trans hp)
      rw [hup, hdown]
      exact h.counters hold

variable {m : Manager}

theorem grow_cases (hp : m.process pid = some p) (up down pid' : Nat) :
    Function.update m.process pid (some (p.grow up down)) pid' = m.process pid' ∧ pid' ≠ pid ∨
      pid' = pid ∧ Function.update m.process pid (some (p.grow up down)) pid' = some (p.grow up down) := by
  by_cases hpid : pid' = pid
  · subst hpid
    exact .inr ⟨rfl, Function.update_self _ _ _⟩
  · exact .inl ⟨Function.update_of_ne hpid _ _, hpid⟩

theorem Inv.grown (h : Inv env m) {up down : Nat} (hp : m.process pid = some p) :
    Inv env { m with process := Function.update m.process pid (some (p.grow up down)) } where
  entry := by
    intro id cur hcur
    obtain ⟨p', hp', hrest⟩ := h.entry hcur
    rcases grow_cases hp up down cur.proc with ⟨heq, -⟩ | ⟨hpid, heq⟩
    · exact ⟨p', heq.trans hp', hrest⟩
    · rw [hpid, hp] at hp'
      obtain rfl := Option.some.inj hp'
      exact ⟨_, heq, hrest⟩
  fresh := by
    intro pid' hpid'
    rcases grow_cases hp up down pid' with ⟨heq, -⟩ | ⟨rfl, -⟩
    · exact heq.trans (h.fresh hpid')
    · rw [h.fresh hpid'] at hp
      cases hp
  owned := by
    intro pid' p' hp' hrunning
    rcases grow_cases hp up down pid' with ⟨heq, -⟩ | ⟨rfl, heq⟩
    · exact h.owned (heq.symm.trans hp') hrunning
    · obtain rfl := Option.some.inj (heq.symm.trans hp')
      obtain ⟨cur, hcur⟩ := h.owned hp hrunning
      exact ⟨cur, hcur⟩

theorem Kept.grown (h : Kept env w) {up down : Nat} (hp : w.manager.process pid = some p) :
    Kept env { w with manager.process := Function.update w.manager.process pid (some (p.grow up down)) } := by
  refine h.carried (h.inv.grown hp) (fun pid' p' hp' => ?_) (fun pid' p' hp' => ?_) fun id cur hcur => .inl ⟨cur, hcur, rfl⟩
  · rcases grow_cases hp up down pid' with ⟨heq, -⟩ | ⟨rfl, heq⟩
    · exact ⟨p', heq.trans hp', rfl, le_rfl, le_rfl⟩
    · obtain rfl := Option.some.inj (hp.symm.trans hp')
      refine ⟨_, heq, rfl, ?_, ?_⟩
      · simp only [Process.grow]
        omega
      · simp only [Process.grow]
        omega
  · rcases grow_cases hp up down pid' with ⟨heq, -⟩ | ⟨rfl, heq⟩
    · exact h.counters (heq.symm.trans hp')
    · obtain rfl := Option.some.inj (heq.symm.trans hp')
      obtain ⟨hup, hdown⟩ := h.counters hp
      simp only [Process.grow]
      omega

theorem mem_snapshot (h : s ∈ m.snapshot) :
    ∃ cur, m.procs.lookup s.id = some cur ∧ s = cur.snap s.id := by
  obtain ⟨e, he, hsnap⟩ := mem_filterMap.mp h
  split at hsnap
  · obtain rfl := Option.some.inj hsnap
    exact ⟨e.2, AList.mem_lookup_iff.mpr he, rfl⟩
  · cases hsnap

theorem snapshot_nodup (h : Inv env m) : (m.snapshot.map (·.proc)).Nodup := by
  rw [List.Nodup, pairwise_map, Manager.snapshot, pairwise_filterMap]
  refine (nodupKeys_iff_pairwise.mp m.procs.nodupKeys).imp_of_mem fun {e e'} he he' hne => ?_
  intro s hs s' hs' hproc
  split at hs
  · split at hs'
    · obtain rfl := Option.some.inj hs
      obtain rfl := Option.some.inj hs'
      exact h.apart (AList.mem_lookup_iff.mpr he) (AList.mem_lookup_iff.mpr he') hne hproc
    · cases hs'
  · cases hs

theorem alone_split {c : Collect} {pre post : List Collect} (h : w.collects = [] ∨ ∃ c, w.collects = [c] ∧
      InFlight w.manager w.seen c) (hsplit : w.collects = pre ++ c :: post) :
    pre = [] ∧ post = [] ∧ InFlight w.manager w.seen c := by
  rcases h with hnone | ⟨c', hone, hflight⟩
  · rw [hnone] at hsplit
    exact absurd hsplit.symm (append_ne_nil_of_right_ne_nil pre (cons_ne_nil c post))
  · rw [hone] at hsplit
    rcases singleton_eq_append_iff.mp hsplit with ⟨rfl, hc⟩ | ⟨-, hc⟩
    · obtain ⟨rfl, rfl⟩ := List.cons.inj hc
      exact ⟨rfl, rfl, hflight⟩
    · cases hc

theorem Kept.collected (h : Kept env w) {snaps : List Snap} (hidle : w.collects = [])
    (hsnaps : snaps.Perm w.manager.snapshot) : Kept env { w with collects := { todo := snaps } :: w.collects } := by
  have hbased {id : Int} {cur : Managed} (hcur : w.manager.procs.lookup id = some cur) :
      Based w.seen (cur.snap id) := by
    rcases h.based hcur with ⟨c, hc, -⟩ | hbased
    · rw [hidle] at hc
      cases hc
    · exact hbased
  refine { h with alone := .inr ⟨_, by rw [hidle], ?_, fun s hs => ?_, fun hsc => ?_⟩, based := fun hcur => .inr (hbased hcur) }
  · exact (hsnaps.map _).nodup_iff.mpr (snapshot_nodup h.inv)
  · obtain ⟨cur, hcur, hs⟩ := mem_snapshot (hsnaps.mem_iff.mp hs)
    obtain ⟨p, hp, hid, -⟩ := h.inv.entry hcur
    rw [hs]
    exact ⟨⟨p, hp, hid⟩, h.nonneg hcur, hbased hcur⟩
  · cases hsc

theorem settled_based (h : Kept env w) {todo : List Snap} (hone : w.collects = [{ todo := todo }])
    (hcur : w.manager.procs.lookup id = some cur) : Based w.seen (cur.snap id) := by
  rcases h.based hcur with ⟨c, hc, sc, hsc, -⟩ | hbased
  · rw [hone] at hc
    rw [mem_singleton.mp hc] at hsc
    cases hsc
  · exact hbased

theorem counted_snoc (log : List Scrape) (sc : Scrape) (pid : Nat) (side : Side) :
    counted (log ++ [sc]) pid side = counted log pid side + if sc.pid = pid then side.of sc.reported else 0 := by
  rw [counted, filter_append, map_append, sum_append, counted]
  congr 1
  by_cases hpid : sc.pid = pid
  · rw [if_pos hpid, filter_cons_of_pos (by simpa using hpid)]
    simp
  · rw [if_neg hpid, filter_cons_of_neg (by simpa using hpid)]
    rfl

theorem Kept.scraped (h : Kept env w) {rest : List Snap} (hone : w.collects = [{ todo := s :: rest }])
    (hp : w.manager.process s.proc = some p) (hrunning : p.running = true)
    (htag : (w.manager.procs.lookup s.id).map (·.tag) = some s.tag) :
    Kept env { w with
      collects := [{ todo := rest, scraped := some (w.scrape s s.proc p) }]
      seen := Function.update w.seen s.proc (some (p.up, p.down))
      log := w.log ++ [w.scrape s s.proc p] } := by
  obtain ⟨-, -, hflight⟩ := @alone_split w { todo := s :: rest } [] [] h.alone hone
  have hlive := hflight.live s mem_cons_self
  have hcounters := h.counters hp
  obtain ⟨hout, hnodup⟩ := nodup_cons.mp hflight.nodup
  have hid : p.inst.id = s.id := by
    obtain ⟨p', hp', hid⟩ := hlive.owner
    obtain rfl := Option.some.inj (hp.symm.trans hp')
    exact hid
  have hnext {b : Int × Int} (hb : w.seen s.proc = some b) :
      (w.scrape s s.proc p).reported = (p.up - b.1, p.down - b.2) := by
    obtain ⟨p', hp', ⟨-, hup⟩, -, hdown⟩ := h.seen hb
    obtain rfl := Option.some.inj (hp.symm.trans hp')
    exact delta_next (hlive.based b hb) ⟨hup, hdown⟩
  have hself : Function.update w.seen s.proc (some (p.up, p.down)) s.proc = some (p.up, p.down) :=
    Function.update_self _ _ _
  have hsame (pid : Nat) (hpid : pid ≠ s.proc) :
      Function.update w.seen s.proc (some (p.up, p.down)) pid = w.seen pid := Function.update_of_ne hpid _ _
  generalize Function.update w.seen s.proc (some (p.up, p.down)) = seen at hself hsame
  refine ⟨h.inv, h.counters, fun {pid b} (hb : seen pid = some b) => ?seen, ?alone, h.nonneg, ?based, ?log, ?counted⟩
  case seen =>
    by_cases hpid : pid = s.proc
    · subst hpid
      obtain rfl := Option.some.inj (hself.symm.trans hb)
      exact ⟨p, hp, ⟨hcounters.1, le_rfl⟩, hcounters.2, le_rfl⟩
    · exact h.seen ((hsame pid hpid).symm.trans hb)
  case alone =>
    refine .inr ⟨_, rfl, hnodup, fun s' hs' => ?_, fun {sc} hsc => ?_⟩
    · have hlive' := hflight.live s' (mem_cons_of_mem _ hs')
      have hne : s'.proc ≠ s.proc := by
        intro heq
        exact hout (mem_map.mpr ⟨s', hs', heq⟩)
      exact ⟨hlive'.owner, hlive'.nonneg, fun b hb => hlive'.based b ((hsame _ hne).symm.trans hb)⟩
    · obtain rfl := Option.some.inj hsc
      refine ⟨hlive.owner, hcounters, hself, fun {cur} hcur => .inl ?_⟩
      obtain ⟨cur', hcur', hproc⟩ := h.inv.owned hp hrunning
      rw [hid] at hcur'
      obtain rfl := Option.some.inj (hcur.symm.trans hcur')
      exact hproc
  case based =>
    intro id cur hcur
    by_cases hpid : cur.proc = s.proc
    · exact .inl ⟨_, mem_singleton_self _, _, rfl, hpid.symm⟩
    · exact .inr fun b hb => settled_based h hone hcur b ((hsame _ hpid).symm.trans hb)
  case log =>
    refine forall_mem_append.mpr ⟨h.log, forall_mem_singleton.mpr ?_⟩
    exact ⟨hlive.owner, htag, fun b hb => hnext hb⟩
  case counted =>
    intro pid side
    have hold := h.counted pid side
    rw [counted_snoc]
    change _ ≤ side.of ((seen pid).getD (0, 0))
    by_cases hpid : s.proc = pid
    · subst hpid
      rw [if_pos (show (w.scrape s s.proc p).pid = s.proc from rfl), hself, Option.getD_some]
      cases hb : w.seen s.proc with
      | none =>
        rw [hb] at hold
        have hfirst := @delta_first (w.scrape s s.proc p) side hlive.nonneg hcounters
        have hzero : side.of ((none : Option (Int × Int)).getD (0, 0)) = 0 := by
          cases side <;> rfl
        rw [hzero] at hold
        exact (add_le_add hold hfirst).trans_eq (zero_add _)
      | some b =>
        rw [hb, Option.getD_some] at hold
        rw [hnext hb]
        cases side
        · exact (add_le_add_left hold _).trans_eq (add_sub_cancel _ _)
        · exact (add_le_add_left hold _).trans_eq (add_sub_cancel _ _)
    · rw [if_neg (show (w.scrape s s.proc p).pid ≠ pid from hpid), add_zero, hsame pid (Ne.symm hpid)]
      exact hold

theorem persist_cases (m : Manager) (sc : Scrape) : m.procs.lookup sc.snap.id = none ∧ m.persist sc = m ∨
    ∃ cur, m.procs.lookup sc.snap.id = some cur ∧
      m.persist sc = { m with procs := m.procs.insert sc.snap.id (cur.rebase sc) } := by
  rw [Manager.persist]
  cases hcur : m.procs.lookup sc.snap.id with
  | none => exact .inl ⟨rfl, rfl⟩
  | some cur => exact .inr ⟨cur, rfl, rfl⟩

theorem Kept.advanced (h : Kept env w) {c c' : Collect} (hone : w.collects = [c]) (hscraped : c'.scraped = none)
    (htodo : c'.todo.Sublist c.todo) (hquiet : ∀ id cur, w.manager.procs.lookup id = some cur → Based w.seen (cur.snap id)) :
    Kept env { w with collects := [c'] } := by
  obtain ⟨-, -, hflight⟩ := @alone_split w c [] [] h.alone hone
  refine { h with alone := .inr ⟨c', rfl, ?_, ?_, ?_⟩, based := fun hcur => .inr (hquiet _ _ hcur) }
  · exact (htodo.map _).nodup hflight.nodup
  · exact fun s hs => hflight.live s (htodo.subset hs)
  · intro sc hsc
    rw [hscraped] at hsc
    cases hsc

theorem Kept.persisted (h : Kept env w) {rest : List Snap} (hone : w.collects = [{ todo := rest, scraped := some sc }]) :
    Kept env { w with manager := w.manager.persist sc, collects := [{ todo := rest }] } := by
  obtain ⟨-, -, hflight⟩ := @alone_split w { todo := rest, scraped := some sc } [] [] h.alone hone
  have hpending := hflight.pending rfl
  have hother {id : Int} {cur : Managed} (hcur : w.manager.procs.lookup id = some cur) (hid : id ≠ sc.snap.id) :
      Based w.seen (cur.snap id) := by
    rcases h.based hcur with ⟨c, hc, sc', hsc', hpid⟩ | hbased
    · rw [hone] at hc
      rw [mem_singleton.mp hc] at hsc'
      obtain rfl := Option.some.inj hsc'
      obtain ⟨p, hp, hid', -⟩ := h.inv.entry hcur
      obtain ⟨p', hp', hid''⟩ := hpending.owner
      rw [hpid, hp] at hp'
      obtain rfl := Option.some.inj hp'
      exact absurd (hid'.symm.trans hid'') hid
    · exact hbased
  rcases persist_cases w.manager sc with ⟨hnone, heq⟩ | ⟨cur₀, hcur₀, heq⟩
  · rw [heq]
    refine h.advanced hone rfl (.refl rest) fun id cur hcur => hother hcur ?_
    rintro rfl
    rw [hnone] at hcur
    cases hcur
  · rw [heq]
    have hlookup {id : Int} {cur : Managed}
        (hcur : (w.manager.procs.insert sc.snap.id (cur₀.rebase sc)).lookup id = some cur) :
        id = sc.snap.id ∧ cur = cur₀.rebase sc ∨ id ≠ sc.snap.id ∧ w.manager.procs.lookup id = some cur := by
      by_cases hid : id = sc.snap.id
      · subst hid
        exact .inl ⟨rfl, (Option.some.inj ((AList.lookup_insert _).symm.trans hcur)).symm⟩
      · exact .inr ⟨hid, (AList.lookup_insert_ne hid).symm.trans hcur⟩
    have hinv : Inv env { w.manager with procs := w.manager.procs.insert sc.snap.id (cur₀.rebase sc) } := by
      refine ⟨fun {id cur} hcur => ?_, h.inv.fresh, fun {pid p} hp hrunning => ?_⟩
      · rcases hlookup hcur with ⟨rfl, rfl⟩ | ⟨-, hcur⟩
        · obtain ⟨p, hp⟩ := h.inv.entry hcur₀
          exact ⟨p, hp⟩
        · exact h.inv.entry hcur
      · obtain ⟨cur, hcur, hproc⟩ := h.inv.owned hp hrunning
        by_cases hid : p.inst.id = sc.snap.id
        · rw [hid, hcur₀] at hcur
          refine ⟨_, by rw [hid]; exact AList.lookup_insert _, ?_⟩
          rw [← Option.some.inj hcur] at hproc
          exact hproc
        · exact ⟨cur, (AList.lookup_insert_ne hid).trans hcur, hproc⟩
    refine ⟨hinv, h.counters, h.seen, ?alone, ?nonneg, ?based, h.log, h.counted⟩
    case alone => exact .inr ⟨_, rfl, hflight.nodup, hflight.live, nofun⟩
    case nonneg =>
      intro id cur hcur
      rcases hlookup hcur with ⟨-, rfl⟩ | ⟨-, hcur⟩
      · exact hpending.nonneg
      · exact h.nonneg hcur
    case based =>
      intro id cur hcur
      refine .inr ?_
      rcases hlookup hcur with ⟨-, rfl⟩ | ⟨hid, hcur⟩
      · intro b hb
        rcases hpending.current hcur₀ with hproc | hnone
        · have hb : w.seen cur₀.proc = some b := hb
          rw [hproc] at hb
          exact ⟨rfl, Option.some.inj (hpending.noted.symm.trans hb)⟩
        · exact absurd (hnone.symm.trans hb) nofun
      · exact hother hcur hid

theorem start_kept : Kept env start where
  inv := boot_inv
  counters := nofun
  seen := nofun
  alone := .inl rfl
  nonneg := nofun
  based := nofun
  log := nofun
  counted _ side := by
    cases side <;> exact le_rfl

theorem step_kept (h : Kept env w) (hgood : Orderly w e) (hstep : Step env w e w') : Kept env w' := by
  cases hstep with
  | manage => exact h.managed _
  | grow hp _ => exact h.grown hp
  | collect hsnaps => exact h.collected hgood hsnaps
  | scrape pre post hsplit hp hrunning _ =>
    obtain ⟨rfl, rfl, -⟩ := alone_split h.alone hsplit
    obtain ⟨rfl, htag⟩ := hgood
    exact h.scraped hsplit hp hrunning htag
  | miss pre post hsplit =>
    obtain ⟨rfl, rfl, -⟩ := alone_split h.alone hsplit
    exact h.advanced hsplit rfl (sublist_cons_self _ _) fun id cur hcur => settled_based h hsplit hcur
  | persist pre post hsplit =>
    obtain ⟨rfl, rfl, -⟩ := alone_split h.alone hsplit
    exact h.persisted hsplit
  | finish pre post hsplit =>
    obtain ⟨rfl, rfl, -⟩ := alone_split h.alone hsplit
    have hquiet {id : Int} {cur : Managed} (hcur : w.manager.procs.lookup id = some cur) :
        Based w.seen (cur.snap id) := settled_based h hsplit hcur
    exact { h with alone := .inl rfl, based := fun hcur => .inr (hquiet hcur) }

end invariant

section results

theorem traffic_sound (env : Env) {events : List Event} {w : World}
    (hrun : Run (fun w e w' => Orderly w e ∧ Step env w e w') start events w) : Sound w :=
  Kept.sound (Run.guarded (G := Orderly) (I := Kept env) (fun _ _ _ => step_kept) hrun start_kept)

def anyPort : Env := ⟨fun _ => false, fun n => .started n⟩

def tagged (tag : String) : Instance where
  id := 1
  tag := tag
  listen := ""
  port := 443
  secret := "ee00"
  debug := false
  proxyProtocolListener := false
  preferIP := ""
  frontingIP := ""
  frontingPort := 0
  frontingProxyProtocol := false
  routeThroughXray := false
  xrayRoutePort := 0

def firstSnap : Snap := ⟨1, 0, 0, "inbound-443", false, 0, 0⟩

def nextSnap : Snap := ⟨1, 0, 0, "inbound-443", true, 0, 0⟩

def firstScrape : List Event :=
  [.manage (.ensure (tagged "inbound-443")), .collect, .scrape firstSnap 0, .persist, .finish, .grow 0 100 0]

theorem second_scrape_sound : ∃ w, Run (fun w e w' => Orderly w e ∧ Step anyPort w e w') start
    (firstScrape ++ [.collect, .scrape nextSnap 0]) w ∧ w.returned 1 .up = 100 ∧ Sound w := by
  have hrun : Run (fun w e w' => Orderly w e ∧ Step anyPort w e w') start
      (firstScrape ++ [.collect, .scrape nextSnap 0]) _ :=
    .cons ⟨trivial, .manage⟩ <|
    .cons ⟨rfl, .collect (List.Perm.refl [firstSnap])⟩ <|
    .cons ⟨⟨rfl, rfl⟩, .scrape [] [] rfl rfl rfl rfl⟩ <|
    .cons ⟨trivial, .persist [] [] rfl⟩ <|
    .cons ⟨trivial, .finish [] [] rfl⟩ <|
    .cons ⟨trivial, .grow rfl rfl⟩ <|
    .cons ⟨rfl, .collect (List.Perm.refl [nextSnap])⟩ <|
    .cons ⟨⟨rfl, rfl⟩, .scrape [] [] rfl rfl rfl rfl⟩ <| .nil _
  exact ⟨_, hrun, rfl, traffic_sound anyPort hrun⟩

theorem overlap_counts_twice :
    (∃ w, Run (Step anyPort) start
        (firstScrape ++ [.collect, .collect, .scrape nextSnap 0, .scrape nextSnap 0]) w ∧ ¬ Sound w) ∧
      ∃ w, Run (Step anyPort) start
        (firstScrape ++ [.collect, .manage (.ensure (tagged "renamed")), .scrape nextSnap 0]) w ∧ ¬ Sound w := by
  constructor
  · have hrun : Run (Step anyPort) start
        (firstScrape ++ [.collect, .collect, .scrape nextSnap 0, .scrape nextSnap 0]) _ :=
      .cons .manage <| .cons (.collect (List.Perm.refl [firstSnap])) <|
      .cons (.scrape [] [] rfl rfl rfl rfl) <| .cons (.persist [] [] rfl) <| .cons (.finish [] [] rfl) <|
      .cons (.grow rfl rfl) <| .cons (.collect (List.Perm.refl [nextSnap])) <|
      .cons (.collect (List.Perm.refl [nextSnap])) <| .cons (.scrape [] _ rfl rfl rfl rfl) <|
      .cons (.scrape [_] [] rfl rfl rfl rfl) <| .nil _
    refine ⟨_, hrun, fun h => ?_⟩
    have hbounded : (200 : Int) ≤ 100 := h.bounded 1 .up
    exact absurd hbounded (by decide)
  · have hrun : Run (Step anyPort) start
        (firstScrape ++ [.collect, .manage (.ensure (tagged "renamed")), .scrape nextSnap 0]) _ :=
      .cons .manage <| .cons (.collect (List.Perm.refl [firstSnap])) <|
      .cons (.scrape [] [] rfl rfl rfl rfl) <| .cons (.persist [] [] rfl) <| .cons (.finish [] [] rfl) <|
      .cons (.grow rfl rfl) <| .cons (.collect (List.Perm.refl [nextSnap])) <| .cons .manage <|
      .cons (.scrape [] [] rfl rfl rfl rfl) <| .nil _
    refine ⟨_, hrun, fun h => ?_⟩
    have htag : some "renamed" = some "inbound-443" :=
      h.tagged _ (mem_append_right _ (mem_singleton_self _)) ⟨"inbound-443", 100, 0⟩ rfl
    exact absurd htag (by decide)

end results

end Mtproto

end QuiPanel
