import QuiPanel.Library.Labelled
import Mathlib

namespace QuiPanel

namespace TrafficWriter

open Labelled

section model

def trafficWriterQueueSize : Nat := 256

inductive Phase (ι : Type)
  | selecting
  | applying (c : ι) (draining : Bool)
  | draining
  | done
  deriving DecidableEq

structure Writer (ι : Type) where
  queue : List ι := []
  cancelled : Bool := false
  phase : Phase ι := .selecting

inductive Answer (ε : Type)
  | own (err : ε)
  | queueFull
  | stoppedBeforeCompleted
  deriving DecidableEq

-- found is the cancelled writer an inline call came upon, none where there was no writer
inductive Caller (ε : Type)
  | idle
  | enqueueing (g : Nat)
  | waiting (g : Nat)
  | sawDone (g : Nat)
  | inline (found : Option Nat)
  | returned (a : Answer ε)
  deriving DecidableEq

inductive Stopper
  | idle
  | waiting (g : Nat)
  | returned
  deriving DecidableEq

-- twQueue, twCtx, twCancel and twDone are set and cleared together and belong to one writer
structure World (ι κ ε : Type) where
  current : Option Nat := none
  next : Nat := 0
  writer : Nat → Writer ι := fun _ => {}
  holder : Option ι := none
  caller : ι → Caller ε := fun _ => .idle
  reply : ι → Option ε := fun _ => none
  stopper : κ → Stopper := fun _ => .idle
  runs : ι → Nat := fun _ => 0
  results : ι → List ε := fun _ => []

variable {ι κ ε : Type} [DecidableEq ι] [DecidableEq κ]

def World.setCaller (w : World ι κ ε) (c : ι) (pc : Caller ε) : World ι κ ε :=
  { w with caller := Function.update w.caller c pc }

def World.setWriter (w : World ι κ ε) (g : Nat) (writer : Writer ι) : World ι κ ε :=
  { w with writer := Function.update w.writer g writer }

def World.setStopper (w : World ι κ ε) (k : κ) (pc : Stopper) : World ι κ ε :=
  { w with stopper := Function.update w.stopper k pc }

def World.begin (w : World ι κ ε) (c : ι) : World ι κ ε :=
  { w with runs := Function.update w.runs c (w.runs c + 1) }

def World.finish (w : World ι κ ε) (c : ι) (err : ε) : World ι κ ε :=
  { w with results := Function.update w.results c (w.results c ++ [err]) }

def World.clearTrafficWriterState (w : World ι κ ε) : World ι κ ε := { w with current := none }

def World.spawn (w : World ι κ ε) : World ι κ ε :=
  { w.setWriter w.next {} with current := some w.next, next := w.next + 1 }

def World.startTrafficWriter (w : World ι κ ε) : World ι κ ε :=
  match w.current with
  | none => w.spawn
  | some g => if (w.writer g).phase = .done then w.clearTrafficWriterState.spawn else w

def World.submitTrafficWrite (w : World ι κ ε) (c : ι) : World ι κ ε :=
  match w.current with
  | none => (w.begin c).setCaller c (.inline none)
  | some g =>
    if (w.writer g).cancelled then (w.begin c).setCaller c (.inline (some g))
    else { w.setCaller c (.enqueueing g) with holder := some c }

def World.enqueue (w : World ι κ ε) (c : ι) (g : Nat) : World ι κ ε :=
  { (w.setWriter g { w.writer g with queue := (w.writer g).queue ++ [c] }).setCaller c (.waiting g) with
    holder := none }

def World.timeout (w : World ι κ ε) (c : ι) : World ι κ ε :=
  { w.setCaller c (.returned .queueFull) with holder := none }

def World.receive (w : World ι κ ε) (c : ι) (err : ε) : World ι κ ε :=
  { w.setCaller c (.returned (.own err)) with reply := Function.update w.reply c none }

def World.settle (w : World ι κ ε) (c : ι) : World ι κ ε :=
  match w.reply c with
  | some err => w.receive c err
  | none => w.setCaller c (.returned .stoppedBeforeCompleted)

def World.take (w : World ι κ ε) (g : Nat) (c : ι) (rest : List ι) (draining : Bool) : World ι κ ε :=
  (w.begin c).setWriter g { w.writer g with queue := rest, phase := .applying c draining }

def World.applied (w : World ι κ ε) (g : Nat) (c : ι) (draining : Bool) (err : ε) : World ι κ ε :=
  { (w.finish c err).setWriter g { w.writer g with phase := if draining then .draining else .selecting } with
    reply := Function.update w.reply c (some err) }

def World.setPhase (w : World ι κ ε) (g : Nat) (phase : Phase ι) : World ι κ ε :=
  w.setWriter g { w.writer g with phase := phase }

def World.stopTrafficWriter (w : World ι κ ε) (k : κ) : World ι κ ε :=
  match w.current with
  | none => w.setStopper k .returned
  | some g => (w.setWriter g { w.writer g with cancelled := true }).setStopper k (.waiting g)

def World.stopped (w : World ι κ ε) (k : κ) (g : Nat) : World ι κ ε :=
  (if w.current = some g then w.clearTrafficWriterState else w).setStopper k .returned

inductive Act (ι κ ε : Type)
  | start
  | submit (c : ι)
  | enqueue (c : ι)
  | timeout (c : ι)
  | receive (c : ι)
  | seeDone (c : ι)
  | settle (c : ι)
  | inlineReturns (c : ι) (err : ε)
  | take (g : Nat)
  | applied (g : Nat) (err : ε)
  | seeCancelled (g : Nat)
  | exit (g : Nat)
  | stop (k : κ)
  | stopped (k : κ)

-- a call in its enqueue select keeps twMu, so nothing that locks it runs meanwhile
inductive Step : World ι κ ε → Act ι κ ε → World ι κ ε → Prop
  | start {w} : w.holder = none → Step w .start w.startTrafficWriter
  | submit {w c} : w.holder = none → w.caller c = .idle → Step w (.submit c) (w.submitTrafficWrite c)
  | enqueue {w c g} : w.caller c = .enqueueing g → (w.writer g).queue.length < trafficWriterQueueSize →
      Step w (.enqueue c) (w.enqueue c g)
  | timeout {w c g} : w.caller c = .enqueueing g → Step w (.timeout c) (w.timeout c)
  | receive {w c g err} : w.caller c = .waiting g → w.reply c = some err → Step w (.receive c) (w.receive c err)
  | seeDone {w c g} : w.caller c = .waiting g → (w.writer g).phase = .done →
      Step w (.seeDone c) (w.setCaller c (.sawDone g))
  | settle {w c g} : w.caller c = .sawDone g → Step w (.settle c) (w.settle c)
  | inlineReturns {w c found err} : w.caller c = .inline found →
      Step w (.inlineReturns c err) ((w.finish c err).setCaller c (.returned (.own err)))
  | take {w g c rest} : g < w.next → (w.writer g).phase = .selecting → (w.writer g).queue = c :: rest →
      Step w (.take g) (w.take g c rest false)
  | drain {w g c rest} : (w.writer g).phase = .draining → (w.writer g).queue = c :: rest →
      Step w (.take g) (w.take g c rest true)
  | applied {w g c draining err} : (w.writer g).phase = .applying c draining →
      Step w (.applied g err) (w.applied g c draining err)
  | seeCancelled {w g} : g < w.next → (w.writer g).phase = .selecting → (w.writer g).cancelled = true →
      Step w (.seeCancelled g) (w.setPhase g .draining)
  | exit {w g} : (w.writer g).phase = .draining → (w.writer g).queue = [] → Step w (.exit g) (w.setPhase g .done)
  | stop {w k} : w.holder = none → w.stopper k = .idle → Step w (.stop k) (w.stopTrafficWriter k)
  | stopped {w k g} : w.stopper k = .waiting g → (w.writer g).phase = .done → w.holder = none →
      Step w (.stopped k) (w.stopped k g)

end model

section invariant

variable {ι κ ε : Type} {w w' : World ι κ ε} {c c₀ : ι} {g : Nat} {a : Act ι κ ε}

structure Sane (w : World ι κ ε) : Prop where
  fresh : ∀ g, w.next ≤ g → w.writer g = {}
  nodup : ∀ g, (w.writer g).queue.Nodup
  current : ∀ g, w.current = some g → g < w.next
  alive : ∀ g, g < w.next → (w.writer g).phase ≠ .done → w.current = some g
  drained : ∀ g, (w.writer g).phase = .done → (w.writer g).queue = []
  cancelled : ∀ g, (w.writer g).phase = .draining ∨ (w.writer g).phase = .done ∨
    (∃ c, (w.writer g).phase = .applying c true) → (w.writer g).cancelled = true
  held : ∀ c g, w.caller c = .enqueueing g → w.holder = some c ∧ w.current = some g ∧ (w.writer g).cancelled = false

structure Kept (w : World ι κ ε) (c : ι) : Prop where
  queued : ∀ g, c ∈ (w.writer g).queue →
    w.caller c = .waiting g ∧ w.runs c = 0 ∧ w.results c = [] ∧ w.reply c = none
  applied : ∀ g d, (w.writer g).phase = .applying c d →
    w.caller c = .waiting g ∧ w.runs c = 1 ∧ w.results c = [] ∧ w.reply c = none
  replied : ∀ err, w.reply c = some err → w.runs c = 1 ∧ w.results c = [err]
  unanswered : w.reply c ≠ none → ∃ g, w.caller c = .waiting g ∨ w.caller c = .sawDone g
  waiting : ∀ g, w.caller c = .waiting g → g < w.next ∧
    (c ∈ (w.writer g).queue ∨ (∃ d, (w.writer g).phase = .applying c d) ∨ w.reply c ≠ none)
  sawDone : ∀ g, w.caller c = .sawDone g → w.reply c ≠ none
  inline : ∀ found, w.caller c = .inline found →
    w.runs c = 1 ∧ w.results c = [] ∧ ∀ g, found = some g → (w.writer g).cancelled = true
  own : ∀ err, w.caller c = .returned (.own err) → w.runs c = 1 ∧ w.results c = [err]
  unrun : (w.caller c = .idle ∨ (∃ g, w.caller c = .enqueueing g) ∨ w.caller c = .returned .queueFull) →
    w.runs c = 0 ∧ w.results c = []
  completed : w.caller c ≠ .returned .stoppedBeforeCompleted

theorem sane_init : Sane ({} : World ι κ ε) where
  fresh _ _ := rfl
  nodup _ := List.nodup_nil
  current _ h := nomatch h
  alive _ h := absurd h (Nat.not_lt_zero _)
  drained _ h := nomatch h
  cancelled _ h := by rcases h with h | h | ⟨c, h⟩ <;> cases h
  held _ _ h := nomatch h

theorem kept_init (c : ι) : Kept ({} : World ι κ ε) c where
  queued _ h := nomatch h
  applied _ _ h := nomatch h
  replied _ h := nomatch h
  unanswered h := absurd rfl h
  waiting _ h := nomatch h
  sawDone _ h := nomatch h
  inline _ h := nomatch h
  own _ h := nomatch h
  unrun _ := ⟨rfl, rfl⟩
  completed h := nomatch h

theorem Sane.spawn (h : Sane w) (hdone : ∀ g, g < w.next → (w.writer g).phase = .done) :
    Sane w.spawn := by
  cases h
  constructor <;> simp only [World.spawn, World.setWriter, Function.update_apply] <;> grind

theorem Kept.spawn (hk : Kept w c) (h : Sane w) (hdone : ∀ g, g < w.next → (w.writer g).phase = .done) :
    Kept w.spawn c := by
  cases h
  cases hk
  constructor <;> simp only [World.spawn, World.setWriter, Function.update_apply] <;> grind

theorem Sane.seeCancelled (h : Sane w) (hg : g < w.next) (hphase : (w.writer g).phase = .selecting)
    (hcancelled : (w.writer g).cancelled = true) :
    Sane (w.setPhase g .draining) := by
  cases h
  constructor <;> simp only [World.setPhase, World.setWriter, Function.update_apply] <;> grind

theorem Kept.seeCancelled (hk : Kept w c) (h : Sane w) (hg : g < w.next)
    (hphase : (w.writer g).phase = .selecting) (hcancelled : (w.writer g).cancelled = true) :
    Kept (w.setPhase g .draining) c := by
  cases h
  cases hk
  constructor <;> simp only [World.setPhase, World.setWriter, Function.update_apply] <;> grind

theorem Sane.exit (h : Sane w) (hphase : (w.writer g).phase = .draining) (hqueue : (w.writer g).queue = []) :
    Sane (w.setPhase g .done) := by
  cases h
  constructor <;> simp only [World.setPhase, World.setWriter, Function.update_apply] <;> grind

theorem Kept.exit (hk : Kept w c) (h : Sane w) (hphase : (w.writer g).phase = .draining)
    (hqueue : (w.writer g).queue = []) :
    Kept (w.setPhase g .done) c := by
  cases h
  cases hk
  constructor <;> simp only [World.setPhase, World.setWriter, Function.update_apply] <;> grind

theorem Sane.cancel (h : Sane w) (hfree : w.holder = none) (hcurrent : w.current = some g) :
    Sane (w.setWriter g { w.writer g with cancelled := true }) := by
  cases h
  constructor <;> simp only [World.setWriter, Function.update_apply] <;> grind

theorem Kept.cancel (hk : Kept w c) (h : Sane w) (hcurrent : w.current = some g) :
    Kept (w.setWriter g { w.writer g with cancelled := true }) c := by
  cases h
  cases hk
  constructor <;> simp only [World.setWriter, Function.update_apply] <;> grind

theorem Sane.clear (h : Sane w) (hfree : w.holder = none)
    (hdone : ∀ g, w.current = some g → (w.writer g).phase = .done) :
    Sane w.clearTrafficWriterState := by
  cases h
  constructor <;> simp only [World.clearTrafficWriterState] <;> grind

theorem Kept.clear (hk : Kept w c) (h : Sane w) (hdone : ∀ g, w.current = some g → (w.writer g).phase = .done) :
    Kept w.clearTrafficWriterState c := by
  cases h
  cases hk
  constructor <;> simp only [World.clearTrafficWriterState] <;> grind

section stoppers

variable [DecidableEq κ]

theorem Sane.stopper (h : Sane w) (k : κ) (pc : Stopper) :
    Sane (w.setStopper k pc) := by
  cases h
  constructor <;> simp only [World.setStopper] <;> grind

theorem Kept.stopper (hk : Kept w c) (h : Sane w) (k : κ) (pc : Stopper) :
    Kept (w.setStopper k pc) c := by
  cases h
  cases hk
  constructor <;> simp only [World.setStopper] <;> grind

end stoppers

section callers

variable [DecidableEq ι]

theorem Sane.inlined (h : Sane w) (c₀ : ι) (found : Option Nat) :
    Sane ((w.begin c₀).setCaller c₀ (.inline found)) := by
  cases h
  constructor <;> simp only [World.begin, World.setCaller, Function.update_apply] <;> grind

theorem Kept.inlined (hk : Kept w c) (h : Sane w) (hpc : w.caller c₀ = .idle) (found : Option Nat)
    (hfound : ∀ g, found = some g → (w.writer g).cancelled = true) :
    Kept ((w.begin c₀).setCaller c₀ (.inline found)) c := by
  cases h
  cases hk
  constructor <;> simp only [World.begin, World.setCaller, Function.update_apply] <;> grind

theorem Sane.locked (h : Sane w) (hfree : w.holder = none) (hcurrent : w.current = some g)
    (hlive : (w.writer g).cancelled = false) :
    Sane { w.setCaller c₀ (.enqueueing g) with holder := some c₀ } := by
  cases h
  constructor <;> simp only [World.setCaller, Function.update_apply] <;> grind

theorem Kept.locked (hk : Kept w c) (h : Sane w) (hfree : w.holder = none) (hpc : w.caller c₀ = .idle)
    (hcurrent : w.current = some g) :
    Kept { w.setCaller c₀ (.enqueueing g) with holder := some c₀ } c := by
  cases h
  cases hk
  constructor <;> simp only [World.setCaller, Function.update_apply] <;> grind

theorem Sane.enqueue (h : Sane w) (hk₀ : Kept w c₀) (hpc : w.caller c₀ = .enqueueing g) :
    Sane (w.enqueue c₀ g) := by
  have hqueued := hk₀.queued
  cases h
  constructor <;> simp only [World.enqueue, World.setCaller, World.setWriter, Function.update_apply] <;> grind

theorem Kept.enqueue (hk : Kept w c) (h : Sane w) (hpc : w.caller c₀ = .enqueueing g) :
    Kept (w.enqueue c₀ g) c := by
  cases h
  cases hk
  constructor <;> simp only [World.enqueue, World.setCaller, World.setWriter, Function.update_apply] <;> grind

theorem Sane.timeout (h : Sane w) (hpc : w.caller c₀ = .enqueueing g) :
    Sane (w.timeout c₀) := by
  cases h
  constructor <;> simp only [World.timeout, World.setCaller, Function.update_apply] <;> grind

theorem Kept.timeout (hk : Kept w c) (h : Sane w) (hpc : w.caller c₀ = .enqueueing g) :
    Kept (w.timeout c₀) c := by
  cases h
  cases hk
  constructor <;> simp only [World.timeout, World.setCaller, Function.update_apply] <;> grind

theorem Sane.receive (h : Sane w) (c₀ : ι) (err : ε) :
    Sane (w.receive c₀ err) := by
  cases h
  constructor <;> simp only [World.receive, World.setCaller, Function.update_apply] <;> grind

theorem Kept.receive (hk : Kept w c) (h : Sane w) {err : ε} (hreply : w.reply c₀ = some err) :
    Kept (w.receive c₀ err) c := by
  cases h
  cases hk
  constructor <;> simp only [World.receive, World.setCaller, Function.update_apply] <;> grind

theorem Sane.seeDone (h : Sane w) (c₀ : ι) (g : Nat) :
    Sane (w.setCaller c₀ (.sawDone g)) := by
  cases h
  constructor <;> simp only [World.setCaller, Function.update_apply] <;> grind

theorem Kept.seeDone (hk : Kept w c) (h : Sane w) (hpc : w.caller c₀ = .waiting g)
    (hdone : (w.writer g).phase = .done) :
    Kept (w.setCaller c₀ (.sawDone g)) c := by
  cases h
  cases hk
  constructor <;> simp only [World.setCaller, Function.update_apply] <;> grind

theorem Sane.inlineReturns (h : Sane w) (c₀ : ι) (err : ε) :
    Sane ((w.finish c₀ err).setCaller c₀ (.returned (.own err))) := by
  cases h
  constructor <;> simp only [World.finish, World.setCaller, Function.update_apply] <;> grind

theorem Kept.inlineReturns (hk : Kept w c) (h : Sane w) {found : Option Nat} (hpc : w.caller c₀ = .inline found)
    (err : ε) :
    Kept ((w.finish c₀ err).setCaller c₀ (.returned (.own err))) c := by
  cases h
  cases hk
  constructor <;> simp only [World.finish, World.setCaller, Function.update_apply] <;> grind

variable {draining : Bool}

theorem Sane.take (h : Sane w) {rest : List ι} (hg : g < w.next)
    (hphase : (w.writer g).phase = if draining then .draining else .selecting)
    (hqueue : (w.writer g).queue = c₀ :: rest) :
    Sane (w.take g c₀ rest draining) := by
  cases h
  constructor <;> simp only [World.take, World.begin, World.setWriter, Function.update_apply] <;> grind

theorem Kept.take (hk : Kept w c) (h : Sane w) {rest : List ι} (hg : g < w.next)
    (hphase : (w.writer g).phase = if draining then .draining else .selecting)
    (hqueue : (w.writer g).queue = c₀ :: rest) :
    Kept (w.take g c₀ rest draining) c := by
  cases h
  cases hk
  constructor <;> simp only [World.take, World.begin, World.setWriter, Function.update_apply] <;> grind

theorem Sane.finished (h : Sane w) (hphase : (w.writer g).phase = .applying c₀ draining) (err : ε) :
    Sane (w.applied g c₀ draining err) := by
  cases h
  constructor <;> simp only [World.applied, World.finish, World.setWriter, Function.update_apply] <;> grind

theorem Kept.finished (hk : Kept w c) (h : Sane w)
    (hphase : (w.writer g).phase = .applying c₀ draining) (err : ε) :
    Kept (w.applied g c₀ draining err) c := by
  cases h
  cases hk
  constructor <;> simp only [World.applied, World.finish, World.setWriter, Function.update_apply] <;> grind

end callers

end invariant

section soundness

variable {ι κ ε : Type}

def Running (w : World ι κ ε) (c : ι) : Prop :=
  (∃ found, w.caller c = .inline found) ∨ ∃ g draining, (w.writer g).phase = .applying c draining

def Bypassing (w : World ι κ ε) (c : ι) : Prop :=
  w.caller c = .inline none ∨ ∃ g, w.caller c = .inline (some g) ∧ (w.writer g).cancelled = true

structure ExactlyOnce (w : World ι κ ε) : Prop where
  once : ∀ c, w.runs c ≤ 1
  own : ∀ c err, w.caller c = .returned (.own err) → w.runs c = 1 ∧ w.results c = [err]
  queueFull : ∀ c, w.caller c = .returned .queueFull → w.runs c = 0
  completed : ∀ c, w.caller c ≠ .returned .stoppedBeforeCompleted
  serial : ∀ c c', c ≠ c' → Running w c → Running w c' → Bypassing w c ∨ Bypassing w c'

def Serial (w : World ι κ ε) : Prop :=
  (∃ g, g < w.next ∧ (w.writer g).phase ≠ .done) → ∀ c c', Running w c → Running w c' → c = c'

variable {w w' : World ι κ ε} {a : Act ι κ ε} {acts : List (Act ι κ ε)} {c : ι}

theorem Kept.once (hk : Kept w c) : w.runs c = 0 ∨ w.runs c = 1 := by
  cases hcaller : w.caller c with
  | idle => exact .inl (hk.unrun (.inl hcaller)).1
  | enqueueing g => exact .inl (hk.unrun (.inr (.inl ⟨g, hcaller⟩))).1
  | waiting g =>
    rcases (hk.waiting g hcaller).2 with hqueue | ⟨draining, hphase⟩ | hreply
    · exact .inl (hk.queued g hqueue).2.1
    · exact .inr (hk.applied g draining hphase).2.1
    · obtain ⟨err, herr⟩ := Option.ne_none_iff_exists'.mp hreply
      exact .inr (hk.replied err herr).1
  | sawDone g =>
    obtain ⟨err, herr⟩ := Option.ne_none_iff_exists'.mp (hk.sawDone g hcaller)
    exact .inr (hk.replied err herr).1
  | inline found => exact .inr (hk.inline found hcaller).1
  | returned answer =>
    cases answer with
    | own err => exact .inr (hk.own err hcaller).1
    | queueFull => exact .inl (hk.unrun (.inr (.inr hcaller))).1
    | stoppedBeforeCompleted => exact absurd hcaller hk.completed

theorem Kept.bypassing (hk : Kept w c) {found : Option Nat} (h : w.caller c = .inline found) : Bypassing w c := by
  cases found with
  | none => exact .inl h
  | some g => exact .inr ⟨g, h, (hk.inline (some g) h).2.2 g rfl⟩

theorem Sane.applying_unique (h : Sane w) {g g' : Nat} {c c' : ι} {d d' : Bool}
    (hphase : (w.writer g).phase = .applying c d) (hphase' : (w.writer g').phase = .applying c' d') : c = c' := by
  have hspawned : ∀ g c d, (w.writer g).phase = .applying c d → w.current = some g := by
    intro g c d hphase
    refine h.alive g ?_ (by rw [hphase]; exact nofun)
    by_contra hle
    rw [h.fresh g (Nat.le_of_not_lt hle)] at hphase
    cases hphase
  have hg := (hspawned g c d hphase).symm.trans (hspawned g' c' d' hphase')
  obtain rfl := Option.some.inj hg
  rw [hphase] at hphase'
  cases hphase'
  rfl

theorem exactlyOnce_of_kept (h : Sane w) (hk : ∀ c, Kept w c) : ExactlyOnce w where
  once c := by
    rcases (hk c).once with hnone | hone
    · rw [hnone]
      exact Nat.zero_le 1
    · exact Nat.le_of_eq hone
  own c err := (hk c).own err
  queueFull c hfull := ((hk c).unrun (.inr (.inr hfull))).1
  completed c := (hk c).completed
  serial c c' hne hrun hrun' := by
    rcases hrun with ⟨found, hinline⟩ | ⟨g, d, hphase⟩
    · exact .inl ((hk c).bypassing hinline)
    · rcases hrun' with ⟨found, hinline⟩ | ⟨g', d', hphase'⟩
      · exact .inr ((hk c').bypassing hinline)
      · exact absurd (h.applying_unique hphase hphase') hne

variable [DecidableEq ι] [DecidableEq κ]

theorem step_kept (h : Sane w ∧ ∀ c, Kept w c) (hstep : Step w a w') : Sane w' ∧ ∀ c, Kept w' c := by
  obtain ⟨h, hk⟩ := h
  cases hstep with
  | start hfree =>
    rw [World.startTrafficWriter]
    split
    case h_1 hcurrent =>
      have hdone : ∀ g, g < w.next → (w.writer g).phase = .done := by
        intro g hg
        by_contra hlive
        rw [h.alive g hg hlive] at hcurrent
        cases hcurrent
      exact ⟨h.spawn hdone, fun c => (hk c).spawn h hdone⟩
    case h_2 g hcurrent =>
      split
      case isFalse => exact ⟨h, hk⟩
      case isTrue hphase =>
        have hcleared : ∀ g, w.current = some g → (w.writer g).phase = .done := by
          intro g' hg'
          rw [Option.some.inj (hg'.symm.trans hcurrent)]
          exact hphase
        have h' := h.clear hfree hcleared
        have hk' := fun c => (hk c).clear h hcleared
        have hdone : ∀ g, g < w.next → (w.writer g).phase = .done := by
          intro g hg
          by_contra hlive
          cases h'.alive g hg hlive
        exact ⟨h'.spawn hdone, fun c => (hk' c).spawn h' hdone⟩
  | submit hfree hidle =>
    rw [World.submitTrafficWrite]
    split
    case h_1 => exact ⟨h.inlined _ none, fun c => (hk c).inlined h hidle none fun _ h => by cases h⟩
    case h_2 g hcurrent =>
      split
      case isTrue hcancelled =>
        have hfound : ∀ g', some g = some g' → (w.writer g').cancelled = true :=
          fun g' hg => Option.some.inj hg ▸ hcancelled
        exact ⟨h.inlined _ (some g), fun c => (hk c).inlined h hidle (some g) hfound⟩
      case isFalse hlive =>
        have hlive := Bool.eq_false_iff.mpr hlive
        exact ⟨h.locked hfree hcurrent hlive, fun c => (hk c).locked h hfree hidle hcurrent⟩
  | enqueue hpc hroom => exact ⟨h.enqueue (hk _) hpc, fun c => (hk c).enqueue h hpc⟩
  | timeout hpc => exact ⟨h.timeout hpc, fun c => (hk c).timeout h hpc⟩
  | receive hpc hreply => exact ⟨h.receive _ _, fun c => (hk c).receive h hreply⟩
  | seeDone hpc hdone => exact ⟨h.seeDone _ _, fun c => (hk c).seeDone h hpc hdone⟩
  | settle hpc =>
    -- the writer answers every request it was given before it closes its done channel
    obtain ⟨err, hreply⟩ := Option.ne_none_iff_exists'.mp ((hk _).sawDone _ hpc)
    rw [World.settle, hreply]
    exact ⟨h.receive _ _, fun c => (hk c).receive h hreply⟩
  | inlineReturns hpc => exact ⟨h.inlineReturns _ _, fun c => (hk c).inlineReturns h hpc _⟩
  | take hg hphase hqueue => exact ⟨h.take hg hphase hqueue, fun c => (hk c).take h hg hphase hqueue⟩
  | @drain g c rest hphase hqueue =>
    have hg : g < w.next := by
      by_contra hle
      rw [h.fresh g (Nat.le_of_not_lt hle)] at hphase
      cases hphase
    exact ⟨h.take hg hphase hqueue, fun c => (hk c).take h hg hphase hqueue⟩
  | applied hphase => exact ⟨h.finished hphase _, fun c => (hk c).finished h hphase _⟩
  | seeCancelled hg hphase hcancelled =>
    exact ⟨h.seeCancelled hg hphase hcancelled, fun c => (hk c).seeCancelled h hg hphase hcancelled⟩
  | exit hphase hqueue => exact ⟨h.exit hphase hqueue, fun c => (hk c).exit h hphase hqueue⟩
  | stop hfree hidle =>
    rw [World.stopTrafficWriter]
    split
    case h_1 => exact ⟨h.stopper _ _, fun c => (hk c).stopper h _ _⟩
    case h_2 g hcurrent =>
      have h' := h.cancel hfree hcurrent
      exact ⟨h'.stopper _ _, fun c => ((hk c).cancel h hcurrent).stopper h' _ _⟩
  | @stopped k g hpc hdone hfree =>
    rw [World.stopped]
    split
    case isTrue hcurrent =>
      have hcleared : ∀ g, w.current = some g → (w.writer g).phase = .done := by
        intro g' hg'
        rw [Option.some.inj (hg'.symm.trans hcurrent)]
        exact hdone
      have h' := h.clear hfree hcleared
      exact ⟨h'.stopper _ _, fun c => ((hk c).clear h hcleared).stopper h' _ _⟩
    case isFalse => exact ⟨h.stopper _ _, fun c => (hk c).stopper h _ _⟩

theorem traffic_written_once (h : Run Step ({} : World ι κ ε) acts w) : ExactlyOnce w := by
  obtain ⟨hsane, hkept⟩ := h.invariant (fun _ _ _ hs hstep => step_kept hs hstep) ⟨sane_init, kept_init⟩
  exact exactlyOnce_of_kept hsane hkept

def oneWrite : List (Act Nat Nat String) := [.start, .submit 7, .enqueue 7, .take 0, .applied 0 "ok", .receive 7]

theorem traffic_written_once_sample : ∃ w, Run Step ({} : World Nat Nat String) oneWrite w ∧
    w.caller 7 = .returned (.own "ok") ∧ ExactlyOnce w := by
  have hrun : ∃ w, Run Step ({} : World Nat Nat String) oneWrite w ∧ w.caller 7 = .returned (.own "ok") := by
    refine ⟨_, .cons (.start rfl) (.cons (.submit rfl rfl) (.cons (@Step.enqueue Nat Nat String _ _ _ 7 0 rfl ?_)
      (.cons (@Step.take Nat Nat String _ _ _ 0 7 [] ?_ rfl rfl) (.cons (.applied rfl)
        (.cons (@Step.receive Nat Nat String _ _ _ 7 0 "ok" rfl rfl) (.nil _)))))), rfl⟩
    · exact (by decide : 0 < trafficWriterQueueSize)
    · exact Nat.zero_lt_one
  obtain ⟨w, hrun, hreturned⟩ := hrun
  exact ⟨w, hrun, hreturned, traffic_written_once hrun⟩

theorem inline_beside_writer : ¬∀ (acts : List (Act Nat Nat String)) (w : World Nat Nat String),
    Run Step {} acts w → Serial w := by
  intro h
  have hrun : ∃ acts w, Run Step ({} : World Nat Nat String) acts w ∧ (w.writer 0).phase = .applying 7 false ∧
      w.caller 8 = .inline (some 0) ∧ w.next = 1 := by
    refine ⟨[.start, .submit 7, .enqueue 7, .take 0, .stop 1, .submit 8], _, .cons (.start rfl)
      (.cons (.submit rfl rfl) (.cons (@Step.enqueue Nat Nat String _ _ _ 7 0 rfl ?_)
      (.cons (@Step.take Nat Nat String _ _ _ 0 7 [] ?_ rfl rfl) (.cons (.stop rfl rfl)
        (.cons (.submit rfl rfl) (.nil _)))))), rfl, rfl, rfl⟩
    · exact (by decide : 0 < trafficWriterQueueSize)
    · exact Nat.zero_lt_one
  obtain ⟨acts, w, hrun, hphase, hinline, hnext⟩ := hrun
  have hsame := h acts w hrun ⟨0, by rw [hnext]; exact Nat.zero_lt_one, by rw [hphase]; exact nofun⟩ 7 8
    (.inr ⟨0, false, hphase⟩) (.inl ⟨some 0, hinline⟩)
  exact absurd hsame (by decide)

end soundness

section drain

variable {ι κ ε : Type} {w w' : World ι κ ε} {c : ι} {g : Nat} {a : Act ι κ ε}

def Act.inner : Act ι κ ε → Prop
  | .start | .submit _ | .stop _ => False
  | _ => True

def Caller.rank : Caller ε → Nat
  | .idle | .returned _ => 0
  | .sawDone _ | .inline _ => 1
  | .waiting _ => 2
  | .enqueueing _ => 5

def Phase.rank : Phase ι → Nat
  | .done => 0
  | .draining => 1
  | .selecting => 2
  | .applying _ fromDrain => if fromDrain then 2 else 3

def Writer.rank (writer : Writer ι) : Nat := 2 * writer.queue.length + writer.phase.rank

def Stopper.rank : Stopper → Nat
  | .waiting _ => 1
  | .idle | .returned => 0

structure Halting (w : World ι κ ε) : Prop where
  held : ∀ c, w.holder = some c → (w.caller c).rank = 5
  stopping : ∀ k g, w.stopper k = .waiting g → g < w.next ∧ (w.writer g).cancelled = true

structure Returned (w : World ι κ ε) : Prop where
  callers : ∀ c, w.caller c = .idle ∨ ∃ answer, w.caller c = .returned answer
  stoppers : ∀ k, w.stopper k = .idle ∨ w.stopper k = .returned

theorem Sane.lt (h : Sane w) (hphase : (w.writer g).phase ≠ .selecting) : g < w.next := by
  by_contra hle
  exact hphase (by rw [h.fresh g (Nat.le_of_not_lt hle)])

structure Good (w : World ι κ ε) : Prop where
  sane : Sane w
  kept : ∀ c, Kept w c
  halting : Halting w

section steps

variable [DecidableEq ι] [DecidableEq κ]

theorem step_halting (h : Sane w) (hh : Halting w) (hstep : Step w a w') : Halting w' := by
  obtain ⟨hheld, hstopping⟩ := hh
  have hcurrent := h.current
  cases hstep
  case' start => rw [World.startTrafficWriter]
  case' submit => rw [World.submitTrafficWrite]
  case' settle => rw [World.settle]
  case' stop => rw [World.stopTrafficWriter]
  case' stopped => rw [World.stopped]
  all_goals
    repeat' split
    all_goals
      constructor <;>
        (try simp only [World.spawn, World.clearTrafficWriterState, World.begin, World.finish, World.enqueue,
          World.timeout, World.receive, World.take, World.applied, World.setPhase, World.setCaller, World.setWriter,
          World.setStopper, Function.update_apply]) <;>
        grind [Caller.rank]

def Stuck (w : World ι κ ε) : Prop := ∀ a w', Step w a w' → ¬a.inner

theorem Stuck.phase [Inhabited ε] (hstuck : Stuck w) (g : Nat) :
    (w.writer g).phase = .selecting ∨ (w.writer g).phase = .done := by
  cases hphase : (w.writer g).phase with
  | selecting => exact .inl rfl
  | applying c draining => exact (hstuck (.applied g default) _ (.applied hphase) trivial).elim
  | draining =>
    cases hqueue : (w.writer g).queue with
    | nil => exact (hstuck _ _ (.exit hphase hqueue) trivial).elim
    | cons c rest => exact (hstuck _ _ (.drain hphase hqueue) trivial).elim
  | done => exact .inr rfl

theorem stuck_done [Inhabited ε] (hstuck : Stuck w) (hcancelled : (w.writer g).cancelled = true)
    (hg : g < w.next) : (w.writer g).phase = .done := by
  rcases hstuck.phase g with hselecting | hdone
  · exact (hstuck _ _ (.seeCancelled hg hselecting hcancelled) trivial).elim
  · exact hdone

theorem stuck_answered [Inhabited ε] (h : Sane w) (hk : Kept w c) (hstuck : Stuck w) :
    w.caller c = .idle ∨ ∃ answer, w.caller c = .returned answer := by
  cases hpc : w.caller c with
  | idle => exact .inl rfl
  | returned answer => exact .inr ⟨answer, rfl⟩
  | enqueueing g => exact (hstuck _ _ (.timeout hpc) trivial).elim
  | sawDone g => exact (hstuck _ _ (.settle hpc) trivial).elim
  | inline found => exact (hstuck (.inlineReturns c default) _ (.inlineReturns hpc) trivial).elim
  | waiting g =>
    obtain ⟨hg, hqueued | ⟨draining, happlying⟩ | hreplied⟩ := hk.waiting g hpc
    · obtain ⟨c', rest, hqueue⟩ := List.exists_cons_of_ne_nil (List.ne_nil_of_mem hqueued)
      rcases hstuck.phase g with hselecting | hdone
      · exact (hstuck _ _ (.take hg hselecting hqueue) trivial).elim
      · exact absurd (h.drained g hdone) (List.ne_nil_of_mem hqueued)
    · exact absurd (hstuck.phase g) (by simp [happlying])
    · obtain ⟨err, hreply⟩ := Option.ne_none_iff_exists'.mp hreplied
      exact (hstuck _ _ (.receive hpc hreply) trivial).elim

theorem stuck_returned [Inhabited ε] (h : Sane w) (hk : ∀ c, Kept w c) (hh : Halting w) (hstuck : Stuck w) :
    Returned w := by
  refine ⟨fun c => stuck_answered h (hk c) hstuck, fun k => ?_⟩
  cases hpc : w.stopper k with
  | idle => exact .inl rfl
  | returned => exact .inr rfl
  | waiting g =>
    obtain ⟨hg, hcancelled⟩ := hh.stopping k g hpc
    have hfree : w.holder = none := by
      by_contra hholder
      obtain ⟨c, hc⟩ := Option.ne_none_iff_exists'.mp hholder
      have hrank := hh.held c hc
      rcases stuck_answered h (hk c) hstuck with hidle | ⟨answer, hreturned⟩ <;> simp [*, Caller.rank] at hrank
    exact (hstuck _ _ (.stopped hpc (stuck_done hstuck hcancelled hg) hfree) trivial).elim

theorem Good.step (h : Good w) (hstep : Step w a w') : Good w' := by
  obtain ⟨hsane, hkept⟩ := step_kept ⟨h.sane, h.kept⟩ hstep
  exact ⟨hsane, hkept, step_halting h.sane h.halting hstep⟩

theorem good_run {acts : List (Act ι κ ε)} (h : Run Step {} acts w) : Good w :=
  h.invariant (fun _ _ _ hs hstep => hs.step hstep)
    ⟨sane_init, kept_init, ⟨fun _ h => (by cases h), fun _ _ h => by cases h⟩⟩

end steps

theorem sum_update {A B : Type} [DecidableEq A] {s : Finset A} {i : A} (r : B → Nat) (m : A → B) (v : B)
    (hi : i ∈ s) :
    ∑ x ∈ s, r (Function.update m i v x) + r (m i) = ∑ x ∈ s, r (m x) + r v := by
  have hrest : ∀ x ∈ s.erase i, r (Function.update m i v x) = r (m x) := by
    intro x hx
    rw [Function.update_of_ne (Finset.ne_of_mem_erase hx)]
  rw [← Finset.add_sum_erase s _ hi, ← Finset.add_sum_erase s (fun x => r (m x)) hi, Finset.sum_congr rfl hrest,
    Function.update_self]
  omega

variable [Fintype ι] [Fintype κ]

def World.rank (w : World ι κ ε) : Nat :=
  ∑ c, (w.caller c).rank + ∑ g ∈ Finset.range w.next, (w.writer g).rank + ∑ k, (w.stopper k).rank

theorem rank_setWriter (hg : g < w.next) (writer : Writer ι) :
    (w.setWriter g writer).rank + (w.writer g).rank = w.rank + writer.rank := by
  have hsum := sum_update Writer.rank w.writer writer (Finset.mem_range.mpr hg)
  simp only [World.rank, World.setWriter]
  omega

theorem setWriter_lt {writer : Writer ι} (hg : g < w.next) (hlt : writer.rank < (w.writer g).rank) :
    (w.setWriter g writer).rank < w.rank := by
  have hwriter := rank_setWriter hg writer
  omega

theorem rank_setStopper [DecidableEq κ] (k : κ) (pc : Stopper) :
    (w.setStopper k pc).rank + (w.stopper k).rank = w.rank + pc.rank := by
  have hsum := sum_update Stopper.rank w.stopper pc (Finset.mem_univ k)
  simp only [World.rank, World.setStopper]
  omega

variable [DecidableEq ι]

theorem rank_setCaller (pc : Caller ε) : (w.setCaller c pc).rank + (w.caller c).rank = w.rank + pc.rank := by
  have hsum := sum_update Caller.rank w.caller pc (Finset.mem_univ c)
  simp only [World.rank, World.setCaller]
  omega

theorem setCaller_lt {pc : Caller ε} (pc' : Caller ε) (hpc : w.caller c = pc) (hlt : pc'.rank < pc.rank) :
    (w.setCaller c pc').rank < w.rank := by
  have hcaller := rank_setCaller (w := w) (c := c) pc'
  rw [hpc] at hcaller
  omega

variable [DecidableEq κ]

theorem rank_lt (h : Sane w) (hinner : a.inner) (hstep : Step w a w') : w'.rank < w.rank := by
  cases hstep with
  | start => cases hinner
  | submit => cases hinner
  | stop => cases hinner
  | @enqueue c g hpc hroom =>
    let queued : Writer ι := ⟨(w.writer g).queue ++ [c], (w.writer g).cancelled, (w.writer g).phase⟩
    have hwriter := rank_setWriter (h.current g (h.held c g hpc).2.1) queued
    have hcaller := rank_setCaller (w := w.setWriter g queued) (c := c) (.waiting g)
    change ((w.setWriter g queued).setCaller c (.waiting g)).rank < w.rank
    rw [show (w.setWriter g queued).caller c = .enqueueing g from hpc] at hcaller
    simp only [queued, Writer.rank, Caller.rank, List.length_append, List.length_singleton] at hwriter hcaller ⊢
    omega
  | timeout hpc => exact setCaller_lt (.returned .queueFull) hpc (by simp [Caller.rank])
  | @receive c g err hpc => exact setCaller_lt (.returned (.own err)) hpc (by simp [Caller.rank])
  | seeDone hpc => exact setCaller_lt _ hpc (by simp [Caller.rank])
  | settle hpc =>
    rw [World.settle]
    split
    case h_1 err hreply => exact setCaller_lt (.returned (.own err)) hpc (by simp [Caller.rank])
    case h_2 => exact setCaller_lt _ hpc (by simp [Caller.rank])
  | @inlineReturns c found err hpc => exact setCaller_lt (.returned (.own err)) hpc (by simp [Caller.rank])
  | take hg hphase hqueue => exact setWriter_lt (w := w) hg (by simp [Writer.rank, Phase.rank, hphase, hqueue]; omega)
  | drain hphase hqueue =>
    exact setWriter_lt (w := w) (h.lt (by simp [hphase])) (by simp [Writer.rank, Phase.rank, hphase, hqueue]; omega)
  | @applied g c draining err hphase =>
    refine setWriter_lt (w := w) (h.lt (by simp [hphase])) ?_
    cases draining <;> simp [Writer.rank, Phase.rank, hphase]
  | seeCancelled hg hphase => exact setWriter_lt hg (by simp [Writer.rank, Phase.rank, hphase])
  | exit hphase => exact setWriter_lt (h.lt (by simp [hphase])) (by simp [Writer.rank, Phase.rank, hphase])
  | @stopped k g hpc =>
    have hstopper := rank_setStopper (w := w) k .returned
    rw [hpc, Stopper.rank, Stopper.rank] at hstopper
    rw [World.stopped]
    split
    all_goals
      change (w.setStopper k .returned).rank < w.rank
      omega

theorem every_call_returns [Inhabited ε] {acts acts' : List (Act ι κ ε)} (h : Run Step {} acts w)
    (hinner : Run (fun w a w' => a.inner ∧ Step w a w') w acts' w') :
    acts'.length ≤ w.rank ∧ (Stuck w' → Returned w') := by
  obtain ⟨hlength, hgood⟩ := hinner.bounded World.rank (fun _ _ _ hs hstep =>
    ⟨hs.step hstep.2, rank_lt hs.sane hstep.1 hstep.2⟩) (good_run h)
  exact ⟨le_of_add_le_left hlength, fun hstuck => stuck_returned hgood.sane hgood.kept hgood.halting hstuck⟩

theorem submitted_call_returns : ∃ w w' : World Unit Unit Unit, w.caller () = .enqueueing 0 ∧
    ([.enqueue (), .take 0, .applied 0 (), .receive ()] : List (Act Unit Unit Unit)).length ≤ w.rank ∧
      (Stuck w' → Returned w') :=
  ⟨_, _, rfl, every_call_returns (.cons (.start rfl) (.cons (.submit (c := ()) rfl rfl) (.nil _)))
    (.cons ⟨trivial, .enqueue (c := ()) (g := 0) rfl (by decide)⟩
      (.cons ⟨trivial, .take (g := 0) (c := ()) (by decide) rfl rfl⟩
        (.cons ⟨trivial, .applied rfl⟩ (.cons ⟨trivial, .receive (c := ()) (g := 0) rfl rfl⟩ (.nil _)))))⟩

end drain
end TrafficWriter

end QuiPanel
