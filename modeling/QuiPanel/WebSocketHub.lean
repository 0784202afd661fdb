import QuiPanel.Library.Labelled
import Mathlib.Logic.Function.Basic
import Mathlib.Data.List.Nodup
import Mathlib.Data.List.Sublists

namespace QuiPanel

namespace WebSocketHub

open Labelled List

section model

inductive MessageType
  | status
  | traffic
  | inbounds
  | outbounds
  | nodes
  | notification
  | notificationsChanged
  | xrayState
  | clientStats
  | clients
  | invalidate
  deriving DecidableEq

def maxMessageSize : Nat := 10 * 1024 * 1024

def clientSendQueue : Nat := 512

def hubBroadcastQueue : Nat := 2048

def hubOpsQueue : Nat := 128

def minBroadcastInterval : Int := 250

def throttledMessageTypes : List MessageType := [.inbounds, .outbounds, .traffic, .clientStats]

inductive ClientOp (κ : Type)
  | register (c : κ)
  | unregister (c : κ)
  deriving DecidableEq

structure Client (μ : Type) where
  send : List μ := []
  received : List μ := []
  once : Bool := false
  closes : Nat := 0

structure Hub (κ μ : Type) where
  clients : List κ := []
  broadcast : List μ := []
  ops : List (ClientOp κ) := []
  stopped : Bool := false
  lastBroadcast : MessageType → Option Int := fun _ => none

structure Env (π μ : Type) where
  marshal : MessageType → π → Int → Option μ
  invalidate : MessageType → Int → Option μ
  size : μ → Nat

inductive Call (π μ : Type)
  | counted (type : MessageType) (payload : π)
  | ready (data : μ)

inductive Phase (κ μ : Type)
  | waiting
  | sending (msg : μ) (targets dead : List κ)
  | ended

structure World (κ π μ : Type) where
  hub : Hub κ μ := {}
  client : κ → Client μ := fun _ => {}
  calls : List (Call π μ) := []
  phase : Phase κ μ := .waiting
  taken : List μ := []
  since : κ → Option Nat := fun _ => none
  left : κ → Option (List μ) := fun _ => none

variable {κ π μ : Type} [DecidableEq κ]

def Client.sent (c : Client μ) : List μ := c.received ++ c.send

def Client.close (c : Client μ) : Client μ := if c.once then c else { c with once := true, closes := c.closes + 1 }

def trySend (c : Client μ) (msg : μ) : Client μ × Bool :=
  if c.once then (c, false)
  else if c.send.length < clientSendQueue then ({ c with send := c.send ++ [msg] }, true)
  else (c, false)

def Client.receive (c : Client μ) : Client μ :=
  match c.send with
  | [] => c
  | msg :: rest => { c with send := rest, received := c.received ++ [msg] }

def Hub.shouldThrottle (h : Hub κ μ) (type : MessageType) (now : Int) : Bool × Hub κ μ :=
  if type ∉ throttledMessageTypes then (false, h)
  else
    match h.lastBroadcast type with
    | some last =>
      if now - last < minBroadcastInterval then (true, h)
      else (false, { h with lastBroadcast := Function.update h.lastBroadcast type (some now) })
    | none => (false, { h with lastBroadcast := Function.update h.lastBroadcast type (some now) })

def Env.encode (env : Env π μ) (type : MessageType) (payload : π) (stamp : Int) : Option μ :=
  match env.marshal type payload stamp with
  | none => none
  | some data => if maxMessageSize < env.size data then env.invalidate type stamp else some data

def World.made (w : World κ π μ) : List μ := w.taken ++ w.hub.broadcast

def World.close (w : World κ π μ) (c : κ) : World κ π μ :=
  { w with client := Function.update w.client c (w.client c).close }

def World.removeClient (w : World κ π μ) (c : κ) : World κ π μ :=
  if c ∈ w.hub.clients then ({ w with hub.clients := w.hub.clients.erase c }).close c else w

def World.shutdown (w : World κ π μ) : World κ π μ :=
  let w := w.hub.clients.foldl World.close w
  { w with hub.clients := [], phase := .ended }

def World.request (w : World κ π μ) (c : κ) : World κ π μ :=
  { w with since := Function.update w.since c (some ((w.since c).getD w.made.length)) }

def World.queue (w : World κ π μ) (op : ClientOp κ) : World κ π μ := { w with hub.ops := w.hub.ops ++ [op] }

def World.process (w : World κ π μ) : ClientOp κ → World κ π μ
  | .register c => { w with hub.clients := if c ∈ w.hub.clients then w.hub.clients else c :: w.hub.clients }
  | .unregister c =>
    let w := w.removeClient c
    { w with left := Function.update w.left c (some ((w.left c).getD (w.client c).sent)) }

inductive Act (κ π : Type)
  | register (c : κ)
  | registerDropped (c : κ)
  | unregister (c : κ)
  | unregisterDropped
  | broadcast (type : MessageType) (payload : π)
  | prepare (type : MessageType) (payload : π) (now stamp : Int)
  | enqueue
  | enqueueDropped
  | stop
  | receive (c : κ)
  | take (op : ClientOp κ)
  | fanout
  | trySend
  | evict
  | shutdown

variable (env : Env π μ)

inductive Step : World κ π μ → Act κ π → World κ π μ → Prop
  | register {w c} : w.hub.ops.length < hubOpsQueue → Step w (.register c) ((w.request c).queue (.register c))
  | registerDropped {w c} : w.hub.stopped = true → Step w (.registerDropped c) (w.request c)
  | unregister {w c} : w.hub.ops.length < hubOpsQueue → Step w (.unregister c) (w.queue (.unregister c))
  | unregisterDropped {w} : Step w .unregisterDropped w
  | broadcast {w type payload} : w.hub.clients ≠ [] →
      Step w (.broadcast type payload) { w with calls := .counted type payload :: w.calls }
  | prepare {w type payload now stamp} (pre post) : w.calls = pre ++ .counted type payload :: post →
      Step w (.prepare type payload now stamp)
        (let throttled := w.hub.shouldThrottle type now
        let data := if throttled.1 then none else env.encode type payload stamp
        { w with hub := throttled.2, calls := pre ++ (data.map Call.ready).toList ++ post })
  | enqueue {w data} (pre post) : w.calls = pre ++ .ready data :: post → w.hub.broadcast.length < hubBroadcastQueue →
      Step w .enqueue { w with hub.broadcast := w.hub.broadcast ++ [data], calls := pre ++ post }
  | enqueueDropped {w data} (pre post) : w.calls = pre ++ .ready data :: post →
      Step w .enqueueDropped { w with calls := pre ++ post }
  | stop {w} : Step w .stop { w with hub.stopped := true }
  | receive {w c} : Step w (.receive c) { w with client := Function.update w.client c (w.client c).receive }
  | take {w op ops} : w.phase = .waiting → w.hub.ops = op :: ops →
      Step w (.take op) (({ w with hub.ops := ops }).process op)
  | fanout {w msg rest targets} : w.phase = .waiting → w.hub.broadcast = msg :: rest → targets.Perm w.hub.clients →
      Step w .fanout
        { w with hub.broadcast := rest, taken := w.taken ++ [msg], phase := .sending msg targets [] }
  | trySend {w msg c targets dead} : w.phase = .sending msg (c :: targets) dead →
      Step w .trySend
        (let sent := trySend (w.client c) msg
        { w with client := Function.update w.client c sent.1,
                 phase := .sending msg targets (if sent.2 then dead else dead ++ [c]) })
  | evict {w msg dead} : w.phase = .sending msg [] dead →
      Step w .evict { dead.foldl World.removeClient w with phase := .waiting }
  | shutdown {w} : w.phase = .waiting → w.hub.stopped = true → Step w .shutdown w.shutdown

end model

section specification

variable {κ π μ : Type} [DecidableEq κ]

structure Sound (w : World κ π μ) : Prop where
  once (c : κ) : (w.client c).closes ≤ 1
  heard (c : κ) : (w.client c).sent = [] ∨ ∃ k, w.since c = some k ∧ (w.client c).sent.Sublist (w.made.drop k)
  silent (c : κ) (l : List μ) : w.left c = some l → (w.client c).sent = l
  drained : w.phase = .ended → ∀ c, w.since c ≠ none → (w.client c).closes = 1

def Admits (w : World κ π μ) (c : κ) : Prop :=
  w.left c = none ∧ ∀ k, w.since c = some k → k ≤ w.taken.length

def Orderly (w : World κ π μ) : Act κ π → Prop
  | .register c => w.phase = .ended → w.since c ≠ none
  | .registerDropped c => w.since c ≠ none
  | .take (.register c) => (w.client c).once = true ∨ Admits w c
  | .shutdown => ∀ c, .register c ∈ w.hub.ops → c ∈ w.hub.clients ∨ (w.client c).once = true
  | _ => True

end specification

section clients

variable {κ π μ : Type} {w : World κ π μ} {c c₀ : κ} {l : List κ}

@[simp] theorem Client.close_once (c : Client μ) : c.close.once = true := by
  rw [Client.close]
  split <;> simp_all

@[simp] theorem Client.close_sent (c : Client μ) : c.close.sent = c.sent := by
  rw [Client.close]
  split <;> rfl

@[simp] theorem Client.close_close (c : Client μ) : c.close.close = c.close := by
  rw [Client.close, if_pos c.close_once]

theorem Client.close_closes {c : Client μ} (h : c.closes = if c.once then 1 else 0) : c.close.closes = 1 := by
  rw [Client.close]
  split
  case isTrue honce => rw [h, if_pos honce]
  case isFalse honce =>
    simp only [h, honce]
    rfl

@[simp] theorem Client.receive_sent (c : Client μ) : c.receive.sent = c.sent := by
  obtain ⟨send, received, once, closes⟩ := c
  cases send with
  | nil => rfl
  | cons msg rest => simp [Client.receive, Client.sent]

@[simp] theorem Client.receive_once (c : Client μ) : c.receive.once = c.once := by
  rw [Client.receive]
  split <;> rfl

@[simp] theorem Client.receive_closes (c : Client μ) : c.receive.closes = c.closes := by
  rw [Client.receive]
  split <;> rfl

theorem trySend_cases (c : Client μ) (msg : μ) : (trySend c msg).1 = c ∨
    c.once = false ∧ (trySend c msg).1 = { c with send := c.send ++ [msg] } := by
  rw [trySend]
  split
  · exact .inl rfl
  case isFalse honce =>
    split
    · exact .inr ⟨Bool.eq_false_iff.mpr honce, rfl⟩
    · exact .inl rfl

theorem shouldThrottle_hub (h : Hub κ μ) (type : MessageType) (now : Int) :
    (h.shouldThrottle type now).2.clients = h.clients ∧ (h.shouldThrottle type now).2.ops = h.ops := by
  rw [Hub.shouldThrottle]
  split
  · exact ⟨rfl, rfl⟩
  · split
    · split <;> exact ⟨rfl, rfl⟩
    · exact ⟨rfl, rfl⟩

variable [DecidableEq κ]

theorem closeAll_eq (l : List κ) (w : World κ π μ) : l.foldl World.close w =
    { w with client := fun c => if c ∈ l then (w.client c).close else w.client c } := by
  induction l generalizing w with
  | nil => rfl
  | cons c₀ l ih =>
    rw [foldl_cons, ih]
    have hclient (c : κ) : (if c ∈ l then ((w.close c₀).client c).close else (w.close c₀).client c) =
        if c ∈ c₀ :: l then (w.client c).close else w.client c := by
      by_cases hc : c = c₀
      · subst hc
        simp [World.close]
      · simp [World.close, hc]
    simp only [hclient]
    rfl

theorem removeClient_eq (w : World κ π μ) (c₀ : κ) : w.removeClient c₀ =
    { w with hub.clients := w.hub.clients.erase c₀, client :=
      if c₀ ∈ w.hub.clients then Function.update w.client c₀ (w.client c₀).close else w.client } := by
  rw [World.removeClient]
  split
  · rfl
  case isFalse hc => rw [erase_of_not_mem hc]

end clients

section invariant

variable {κ π μ : Type} {w w' : World κ π μ} {c c₀ : κ} {env : Env π μ} {a : Act κ π}

def Follows (w : World κ π μ) (c : κ) (l : List μ) : Prop :=
  ∃ k, w.since c = some k ∧ k ≤ l.length ∧ (w.client c).sent.Sublist (l.drop k)

structure Kept (w : World κ π μ) (c : κ) : Prop where
  counted : (w.client c).closes = if (w.client c).once then 1 else 0
  heard : (w.client c).sent = [] ∨ ∃ k, w.since c = some k ∧ (w.client c).sent.Sublist (w.taken.drop k)
  live : c ∈ w.hub.clients → (w.client c).once = false → Follows w c w.taken
  silent : ∀ l, w.left c = some l → (w.client c).sent = l ∧ (c ∈ w.hub.clients → (w.client c).once = true)
  known : w.since c ≠ none → (w.client c).once = true ∨
    w.phase ≠ .ended ∧ (c ∈ w.hub.clients ∨ .register c ∈ w.hub.ops)
  asked : .register c ∈ w.hub.ops → w.since c ≠ none
  distinct : w.hub.clients.Nodup
  due : ∀ msg targets dead, w.phase = .sending msg targets dead → targets.Nodup ∧ ∃ before,
    w.taken = before ++ [msg] ∧ (c ∈ targets → c ∈ w.hub.clients ∧ ((w.client c).once = false → Follows w c before))

theorem kept_init (c : κ) : Kept ({} : World κ π μ) c where
  counted := rfl
  heard := .inl rfl
  live := nofun
  silent := nofun
  known h := absurd rfl h
  asked := nofun
  distinct := nodup_nil
  due := nofun

theorem Kept.sound (h : ∀ c, Kept w c) : Sound w where
  once c := by
    rw [(h c).counted]
    split <;> decide
  heard c := by
    rcases (h c).heard with hnone | ⟨k, hk, hsub⟩
    · exact .inl hnone
    · exact .inr ⟨k, hk, hsub.trans ((sublist_append_left _ _).drop k)⟩
  silent c l hl := ((h c).silent l hl).1
  drained hended c hc := by
    rcases (h c).known hc with honce | ⟨hphase, -⟩
    · rw [(h c).counted, if_pos honce]
    · exact absurd hended hphase

theorem Kept.frame (h : Kept w c) (hsent : (w'.client c).sent = (w.client c).sent)
    (honce : (w'.client c).once = (w.client c).once) (hcloses : (w'.client c).closes = (w.client c).closes)
    (hsince : w'.since c = w.since c) (hleft : w'.left c = w.left c) (hclients : w'.hub.clients = w.hub.clients)
    (hop : .register c ∈ w'.hub.ops ↔ .register c ∈ w.hub.ops) (htaken : w'.taken = w.taken)
    (hphase : w'.phase = w.phase) : Kept w' c where
  counted := by simpa only [honce, hcloses] using h.counted
  heard := by simpa only [hsent, hsince, htaken] using h.heard
  live := by simpa only [hclients, honce, Follows, hsince, hsent, htaken] using h.live
  silent := by simpa only [hleft, hsent, hclients, honce] using h.silent
  known := by simpa only [hsince, honce, hphase, hclients, hop] using h.known
  asked := by simpa only [hsince, hop] using h.asked
  distinct := by simpa only [hclients] using h.distinct
  due := by simpa only [hphase, htaken, hclients, honce, Follows, hsince, hsent] using h.due

theorem Kept.waiting (h : Kept w c) : Kept { w with phase := .waiting } c :=
  { h with known := fun hc => (h.known hc).imp_right fun hk => ⟨nofun, hk.2⟩, due := nofun }

theorem Kept.queued {op : ClientOp κ} (h : Kept w c) (hop : op = .register c → w.since c ≠ none) :
    Kept (w.queue op) c := by
  have hqueue : .register c ∈ (w.queue op).hub.ops ↔ .register c ∈ w.hub.ops ∨ op = .register c := by
    simp only [World.queue, mem_append, mem_singleton, eq_comm]
  have hknown := h.known
  refine { h with known := fun hc => ?_, asked := fun hin => ?_ }
  · exact (hknown hc).imp_right fun hk => ⟨hk.1, hk.2.imp_right fun hin => hqueue.mpr (.inl hin)⟩
  · exact (hqueue.mp hin).elim h.asked hop

theorem Kept.fanned {msg : μ} {rest : List μ} {targets : List κ} (h : Kept w c) (htargets : targets.Perm w.hub.clients) :
    Kept { w with hub.broadcast := rest, taken := w.taken ++ [msg], phase := .sending msg targets [] } c := by
  have hgrow (k : Nat) : (w.taken.drop k).Sublist ((w.taken ++ [msg]).drop k) :=
    (sublist_append_left _ _).drop k
  refine { h with heard := ?heard, live := ?live, known := ?known, due := ?due }
  case heard =>
    rcases h.heard with hnone | ⟨k, hk, hsub⟩
    · exact .inl hnone
    · exact .inr ⟨k, hk, hsub.trans (hgrow k)⟩
  case live =>
    intro hin honce
    obtain ⟨k, hk, hle, hsub⟩ := h.live hin honce
    refine ⟨k, hk, ?_, hsub.trans (hgrow k)⟩
    rw [length_append]
    omega
  case known => exact fun hc => (h.known hc).imp_right fun hk => ⟨nofun, hk.2⟩
  case due =>
    intro msg' targets' dead hsending
    obtain ⟨rfl, rfl, -⟩ := Phase.sending.inj hsending
    refine ⟨htargets.nodup_iff.mpr h.distinct, w.taken, rfl, fun hin => ?_⟩
    have hclient := htargets.mem_iff.mp hin
    exact ⟨hclient, h.live hclient⟩

variable [DecidableEq κ]

theorem Kept.erased (h : Kept w c) (hidle : ∀ msg targets dead, w.phase = .sending msg targets dead → targets = []) :
    Kept (w.removeClient c₀) c := by
  rw [removeClient_eq]
  have hcases : (c ∈ w.hub.clients.erase c₀ ↔ c ∈ w.hub.clients) ∧ (if c₀ ∈ w.hub.clients then
        Function.update w.client c₀ (w.client c₀).close else w.client) c = w.client c ∨
      c ∉ w.hub.clients.erase c₀ ∧ (if c₀ ∈ w.hub.clients then
        Function.update w.client c₀ (w.client c₀).close else w.client) c = (w.client c).close := by
    by_cases hc : c = c₀
    · subst hc
      by_cases hin : c ∈ w.hub.clients
      · rw [if_pos hin, Function.update_self]
        exact .inr ⟨h.distinct.not_mem_erase, rfl⟩
      · rw [if_neg hin, erase_of_not_mem hin]
        exact .inl ⟨.rfl, rfl⟩
    · refine .inl ⟨mem_erase_of_ne hc, ?_⟩
      split
      · exact Function.update_of_ne hc _ _
      · rfl
  generalize (if c₀ ∈ w.hub.clients then Function.update w.client c₀ (w.client c₀).close else w.client) = client
    at hcases
  have hdue (msg targets dead) (hphase : w.phase = .sending msg targets dead) :
      targets.Nodup ∧ ∃ before, w.taken = before ++ [msg] ∧ c ∉ targets := by
    obtain ⟨-, before, htaken, -⟩ := h.due msg targets dead hphase
    obtain rfl := hidle msg targets dead hphase
    exact ⟨nodup_nil, before, htaken, not_mem_nil⟩
  rcases hcases with ⟨hmem, hclient⟩ | ⟨hmem, hclient⟩
  · constructor
    case counted => simpa only [hclient] using h.counted
    case heard => simpa only [hclient] using h.heard
    case live => simpa only [hclient, hmem, Follows] using h.live
    case silent => simpa only [hclient, hmem] using h.silent
    case known => simpa only [hclient, hmem] using h.known
    case asked => exact h.asked
    case distinct => exact h.distinct.erase _
    case due =>
      intro msg targets dead hphase
      obtain ⟨hnodup, before, htaken, hno⟩ := hdue msg targets dead hphase
      exact ⟨hnodup, before, htaken, fun hc => absurd hc hno⟩
  · constructor
    case counted => simp only [hclient, Client.close_once, Client.close_closes h.counted, if_true]
    case heard => simpa only [hclient, Client.close_sent] using h.heard
    case live => exact fun hc => absurd hc hmem
    case silent =>
      intro l hl
      simp only [hclient, Client.close_sent]
      exact ⟨(h.silent l hl).1, fun hc => absurd hc hmem⟩
    case known => exact fun _ => .inl (by simp only [hclient, Client.close_once])
    case asked => exact h.asked
    case distinct => exact h.distinct.erase _
    case due =>
      intro msg targets dead hphase
      obtain ⟨hnodup, before, htaken, hno⟩ := hdue msg targets dead hphase
      exact ⟨hnodup, before, htaken, fun hc => absurd hc hno⟩

theorem removeClient_phase : (w.removeClient c₀).phase = w.phase := by
  rw [removeClient_eq]

theorem Kept.evicted (l : List κ) (h : Kept w c)
    (hidle : ∀ msg targets dead, w.phase = .sending msg targets dead → targets = []) :
    Kept (l.foldl World.removeClient w) c := by
  induction l generalizing w with
  | nil => exact h
  | cons c₀ l ih => exact ih (h.erased hidle) (by rwa [removeClient_phase])

theorem Kept.closed (h : Kept w c)
    (hqueued : .register c ∈ w.hub.ops → c ∈ w.hub.clients ∨ (w.client c).once = true) : Kept w.shutdown c := by
  have hclient : w.shutdown.client c = if c ∈ w.hub.clients then (w.client c).close else w.client c := by
    rw [World.shutdown, closeAll_eq]
  have hrest : w.shutdown = { w with hub.clients := [], phase := .ended, client := w.shutdown.client } := by
    rw [World.shutdown, closeAll_eq]
  rw [hrest]
  generalize w.shutdown.client = client at hclient
  have hsent : (client c).sent = (w.client c).sent := by
    rw [hclient]
    split
    · exact Client.close_sent _
    · rfl
  constructor
  case counted =>
    simp only [hclient]
    split
    · simp only [Client.close_once, Client.close_closes h.counted, if_true]
    · exact h.counted
  case heard => simpa only [hsent] using h.heard
  case live => nofun
  case silent =>
    intro l hl
    exact ⟨hsent.trans (h.silent l hl).1, nofun⟩
  case known =>
    intro hc
    refine .inl ?_
    simp only [hclient]
    split
    · exact Client.close_once _
    case isFalse hnot =>
      rcases h.known hc with honce | ⟨-, hin | hop⟩
      · exact honce
      · exact absurd hin hnot
      · exact (hqueued hop).resolve_left hnot
  case asked => exact h.asked
  case distinct => exact nodup_nil
  case due => nofun

theorem request_since (h : w.since c₀ ≠ none) : w.request c₀ = w := by
  obtain ⟨k, hk⟩ := Option.ne_none_iff_exists'.mp h
  rw [World.request, hk, Option.getD_some, ← hk, Function.update_eq_self]

theorem Kept.registered (h : Kept w c) (hphase : w.phase = .ended → w.since c₀ ≠ none) :
    Kept ((w.request c₀).queue (.register c₀)) c := by
  by_cases hsince : w.since c₀ = none
  · by_cases hc : c = c₀
    · subst hc
      have hfollows {l : List μ} : ¬ Follows w c l := by
        rintro ⟨k, hk, -⟩
        rw [hsince] at hk
        cases hk
      have hnew : ((w.request c).queue (.register c)).since c ≠ none := by
        simp [World.request, World.queue]
      have hqueue : .register c ∈ ((w.request c).queue (.register c)).hub.ops := by
        simp [World.request, World.queue]
      refine { h with heard := ?heard, live := ?live, known := ?known, asked := fun _ => hnew, due := ?due }
      case heard =>
        rcases h.heard with hnone | ⟨k, hk, -⟩
        · exact .inl hnone
        · rw [hsince] at hk
          cases hk
      case live => exact fun hin honce => absurd (h.live hin honce) hfollows
      case known => exact fun _ => .inr ⟨fun hended => hphase hended hsince, .inr hqueue⟩
      case due =>
        intro msg targets dead hsending
        obtain ⟨hnodup, before, htaken, hdue⟩ := h.due msg targets dead hsending
        exact ⟨hnodup, before, htaken, fun hin => ⟨(hdue hin).1, fun honce => absurd ((hdue hin).2 honce) hfollows⟩⟩
    · have hsame : (w.request c₀).since c = w.since c := Function.update_of_ne hc _ _
      have hother : Kept (w.request c₀) c :=
        h.frame rfl rfl rfl hsame rfl rfl .rfl rfl rfl
      exact hother.queued fun hop => absurd (ClientOp.register.inj hop).symm hc
  · rw [request_since hsince]
    refine h.queued fun hop => ?_
    obtain rfl := ClientOp.register.inj hop
    exact hsince

theorem Kept.admitted {ops : List (ClientOp κ)} (h : Kept w c) (hphase : w.phase = .waiting)
    (hops : w.hub.ops = .register c₀ :: ops) (hopened : (w.client c₀).once = true ∨ Admits w c₀) :
    Kept (({ w with hub.ops := ops }).process (.register c₀)) c := by
  have hmem : c ∈ (if c₀ ∈ w.hub.clients then w.hub.clients else c₀ :: w.hub.clients) ↔
      c = c₀ ∨ c ∈ w.hub.clients := by
    split
    case isTrue hin =>
      refine ⟨.inr, ?_⟩
      rintro (rfl | hc)
      · exact hin
      · exact hc
    · exact mem_cons
  have hopen (hc : c = c₀) (honce : (w.client c).once = false) : Admits w c := by
    subst hc
    exact hopened.resolve_left (by rw [honce]; decide)
  have hasked (hc : c = c₀) : w.since c ≠ none := h.asked (by rw [hops, hc]; exact mem_cons_self)
  have hidle (msg targets dead) : w.phase ≠ .sending msg targets dead := by
    rw [hphase]
    exact nofun
  constructor
  case counted => exact h.counted
  case heard => exact h.heard
  case live =>
    intro hin honce
    rcases hmem.mp hin with hc | hin
    · obtain ⟨k, hk⟩ := Option.ne_none_iff_exists'.mp (hasked hc)
      refine ⟨k, hk, (hopen hc honce).2 k hk, ?_⟩
      rcases h.heard with hnone | ⟨k', hk', hsub⟩
      · exact hnone ▸ nil_sublist _
      · obtain rfl := Option.some.inj (hk.symm.trans hk')
        exact hsub
    · exact h.live hin honce
  case silent =>
    intro l hl
    refine ⟨(h.silent l hl).1, fun hin => ?_⟩
    rcases hmem.mp hin with hc | hin
    · refine Bool.not_eq_false _ |>.mp fun honce => ?_
      exact absurd ((hopen hc honce).1.symm.trans hl) nofun
    · exact (h.silent l hl).2 hin
  case known =>
    intro hc
    rcases h.known hc with honce | ⟨hphase, hin | hop⟩
    · exact .inl honce
    · exact .inr ⟨hphase, .inl (hmem.mpr (.inr hin))⟩
    · rw [hops] at hop
      rcases mem_cons.mp hop with heq | hop
      · exact .inr ⟨hphase, .inl (hmem.mpr (.inl (ClientOp.register.inj heq)))⟩
      · exact .inr ⟨hphase, .inr hop⟩
  case asked => exact fun hop => h.asked (by rw [hops]; exact mem_cons_of_mem _ hop)
  case distinct =>
    simp only [World.process]
    split
    · exact h.distinct
    · exact h.distinct.cons ‹_›
  case due => exact fun msg targets dead hsending => absurd hsending (hidle msg targets dead)

theorem Kept.departed {ops : List (ClientOp κ)} (h : Kept w c) (hphase : w.phase = .waiting)
    (hops : w.hub.ops = .unregister c₀ :: ops) : Kept (({ w with hub.ops := ops }).process (.unregister c₀)) c := by
  have hop : .register c ∈ ops ↔ .register c ∈ w.hub.ops := by
    simp [hops]
  have hpopped : Kept { w with hub.ops := ops } c := h.frame rfl rfl rfl rfl rfl rfl hop rfl rfl
  have hidle (msg targets dead) (hsending : w.phase = .sending msg targets dead) : targets = [] := by
    rw [hphase] at hsending
    cases hsending
  have herased : Kept (({ w with hub.ops := ops }).removeClient c₀) c := hpopped.erased hidle
  by_cases hc : c = c₀
  · subst hc
    have hout : c ∉ (({ w with hub.ops := ops }).removeClient c).hub.clients := by
      rw [removeClient_eq]
      exact h.distinct.not_mem_erase
    refine { herased with silent := fun l hl => ⟨?_, fun hin => absurd hin hout⟩ }
    simp only [World.process, Function.update_self] at hl
    cases hleft : (({ w with hub.ops := ops }).removeClient c).left c with
    | none =>
      rw [hleft] at hl
      exact Option.some.inj hl
    | some l' =>
      rw [hleft] at hl
      rw [← Option.some.inj hl]
      exact (herased.silent l' hleft).1
  · refine herased.frame rfl rfl rfl rfl ?_ rfl .rfl rfl rfl
    exact Function.update_of_ne hc _ _

theorem Kept.tried {msg : μ} {targets dead dead' : List κ} (h : Kept w c)
    (hphase : w.phase = .sending msg (c₀ :: targets) dead) :
    Kept { w with client := Function.update w.client c₀ (trySend (w.client c₀) msg).1,
                  phase := .sending msg targets dead' } c := by
  obtain ⟨hnodup, before, htaken, hdue⟩ := h.due _ _ _ hphase
  have hrest : Kept { w with phase := .sending msg targets dead' } c := by
    refine { h with known := ?known, due := ?due }
    case known => exact fun hc => (h.known hc).imp_right fun hk => ⟨nofun, hk.2⟩
    case due =>
      intro msg' targets' dead'' hsending
      obtain ⟨rfl, rfl, -⟩ := Phase.sending.inj hsending
      exact ⟨hnodup.of_cons, before, htaken, fun hin => hdue (mem_cons_of_mem _ hin)⟩
  by_cases hc : c = c₀
  · subst hc
    have hout : c ∉ targets := (nodup_cons.mp hnodup).1
    rcases trySend_cases (w.client c) msg with hsame | ⟨honce, hsent⟩
    · rw [hsame, Function.update_eq_self]
      exact hrest
    · obtain ⟨hclient, hopen⟩ := hdue mem_cons_self
      obtain ⟨k, hk, hle, hsub⟩ := hopen honce
      have hlonger : ((Function.update w.client c (trySend (w.client c) msg).1) c).sent =
          (w.client c).sent ++ [msg] := by
        rw [Function.update_self, hsent]
        exact (append_assoc _ _ _).symm
      have hstill : ((w.client c).sent ++ [msg]).Sublist (w.taken.drop k) := by
        rw [htaken, drop_append_of_le_length hle]
        exact hsub.append (.refl _)
      have hkeeps : ((Function.update w.client c (trySend (w.client c) msg).1) c).once = (w.client c).once ∧
          ((Function.update w.client c (trySend (w.client c) msg).1) c).closes = (w.client c).closes := by
        rw [Function.update_self, hsent]
        exact ⟨rfl, rfl⟩
      generalize Function.update w.client c (trySend (w.client c) msg).1 = client at hlonger hkeeps
      constructor
      case counted => simpa only [hkeeps] using h.counted
      case heard => exact .inr ⟨k, hk, by simpa only [hlonger] using hstill⟩
      case live =>
        refine fun _ _ => ⟨k, hk, ?_, by simpa only [hlonger] using hstill⟩
        simp only [htaken, length_append]
        omega
      case silent =>
        intro l hl
        have hclosed := (h.silent l hl).2 hclient
        rw [honce] at hclosed
        cases hclosed
      case known => simpa only [hkeeps] using hrest.known
      case asked => exact h.asked
      case distinct => exact h.distinct
      case due =>
        intro msg' targets' dead'' hsending
        obtain ⟨rfl, rfl, -⟩ := Phase.sending.inj hsending
        exact ⟨hnodup.of_cons, before, htaken, fun hin => absurd hin hout⟩
  · have hother : Function.update w.client c₀ (trySend (w.client c₀) msg).1 c = w.client c :=
      Function.update_of_ne hc _ _
    exact hrest.frame (by simp only [hother]) (by simp only [hother]) (by simp only [hother]) rfl rfl rfl .rfl rfl rfl

theorem step_kept (h : Kept w c) (hgood : Orderly w a) (hstep : Step env w a w') : Kept w' c := by
  cases hstep with
  | register _ => exact h.registered hgood
  | registerDropped _ =>
    rw [request_since hgood]
    exact h
  | unregister _ => exact h.queued nofun
  | unregisterDropped => exact h
  | broadcast _ => exact h.frame rfl rfl rfl rfl rfl rfl .rfl rfl rfl
  | prepare _ _ _ =>
    obtain ⟨hclients, hops⟩ := shouldThrottle_hub w.hub _ _
    exact h.frame rfl rfl rfl rfl rfl hclients (by rw [hops]) rfl rfl
  | enqueue _ _ _ _ => exact h.frame rfl rfl rfl rfl rfl rfl .rfl rfl rfl
  | enqueueDropped _ _ _ => exact h.frame rfl rfl rfl rfl rfl rfl .rfl rfl rfl
  | stop => exact h.frame rfl rfl rfl rfl rfl rfl .rfl rfl rfl
  | @receive c₀ =>
    by_cases hc : c = c₀
    · subst hc
      exact h.frame (by simp) (by simp) (by simp) rfl rfl rfl .rfl rfl rfl
    · have hother : Function.update w.client c₀ (w.client c₀).receive c = w.client c :=
        Function.update_of_ne hc _ _
      exact h.frame (by simp only [hother]) (by simp only [hother]) (by simp only [hother]) rfl rfl rfl .rfl rfl rfl
  | @take op _ hphase hops =>
    cases op with
    | register c₀ => exact h.admitted hphase hops hgood
    | unregister c₀ => exact h.departed hphase hops
  | fanout _ _ htargets => exact h.fanned htargets
  | trySend hphase => exact h.tried hphase
  | evict hphase =>
    refine (h.evicted _ fun msg targets dead hsending => ?_).waiting
    obtain ⟨-, rfl, -⟩ := Phase.sending.inj (hphase.symm.trans hsending)
    rfl
  | shutdown _ _ => exact h.closed (hgood c)

end invariant

section results

variable {κ π μ : Type} [DecidableEq κ]

theorem hub_sound (env : Env π μ) {acts : List (Act κ π)} {w : World κ π μ}
    (hrun : Run (fun w a w' => Orderly w a ∧ Step env w a w') {} acts w) : Sound w := by
  refine Kept.sound fun c => ?_
  exact Run.guarded (G := Orderly) (I := fun w => Kept w c) (fun _ _ _ => step_kept) hrun (kept_init c)

def plainEnv : Env String String := ⟨fun _ payload _ => some payload, fun _ _ => some "invalidate", String.length⟩

def oneConnection : List (Act Nat String) :=
  [.register 0, .take (.register 0), .broadcast .status "up", .prepare .status "up" 0 0, .enqueue, .fanout, .trySend,
    .evict, .receive 0, .unregister 0, .take (.unregister 0), .stop, .shutdown]

theorem one_connection_sound : ∃ w, Run (fun w a w' => Orderly w a ∧ Step plainEnv w a w') {} oneConnection w ∧
    w.phase = .ended ∧ (w.client 0).received = ["up"] ∧ Sound w := by
  have hrun : Run (fun w a w' => Orderly w a ∧ Step plainEnv w a w') {} oneConnection _ :=
    .cons ⟨nofun, .register (by decide)⟩ <|
    .cons ⟨.inr ⟨rfl, fun k hk => Option.some.inj hk ▸ Nat.le_refl 0⟩, .take rfl rfl⟩ <|
    .cons ⟨trivial, .broadcast (by decide)⟩ <|
    .cons ⟨trivial, .prepare [] [] rfl⟩ <|
    .cons ⟨trivial, .enqueue [] [] rfl (by decide)⟩ <|
    .cons ⟨trivial, .fanout rfl rfl (List.Perm.refl _)⟩ <|
    .cons ⟨trivial, .trySend rfl⟩ <|
    .cons ⟨trivial, .evict rfl⟩ <|
    .cons ⟨trivial, .receive⟩ <|
    .cons ⟨trivial, .unregister (by decide)⟩ <|
    .cons ⟨trivial, .take rfl rfl⟩ <|
    .cons ⟨trivial, .stop⟩ <|
    .cons ⟨nofun, .shutdown rfl rfl⟩ <| .nil _
  exact ⟨_, hrun, rfl, rfl, hub_sound plainEnv hrun⟩

theorem late_register_leaks : (¬ ∀ (acts : List (Act Nat String)) (w : World Nat String String),
      Run (Step plainEnv) {} acts w → w.phase = .ended → Sound w) ∧
    ¬ ∀ (acts : List (Act Nat String)) (w : World Nat String String),
      Run (Step plainEnv) {} acts w → w.hub.stopped = false → Sound w := by
  constructor
  · intro h
    have hrun : Run (Step plainEnv) ({} : World Nat String String) [.stop, .register 0, .shutdown] _ :=
      .cons .stop (.cons (.register (by decide)) (.cons (.shutdown rfl rfl) (.nil _)))
    have hclosed := (h _ _ hrun rfl).drained rfl 0 (by decide)
    exact absurd hclosed (by decide)
  · intro h
    have hrun : Run (Step plainEnv) ({} : World Nat String String)
        [.register 0, .take (.register 0), .broadcast .status "old", .prepare .status "old" 0 0, .enqueue,
          .register 1, .take (.register 1), .fanout, .trySend] _ :=
      .cons (.register (by decide)) <| .cons (.take rfl rfl) <| .cons (.broadcast (by decide)) <|
      .cons (.prepare [] [] rfl) <| .cons (.enqueue [] [] rfl (by decide)) <|
      .cons (.register (by decide)) <| .cons (.take rfl rfl) <| .cons (.fanout rfl rfl (List.Perm.refl _)) <|
      .cons (.trySend rfl) <| .nil _
    rcases (h _ _ hrun rfl).heard 1 with hnone | ⟨k, hk, hsub⟩
    · exact absurd hnone (by decide)
    · obtain rfl : 1 = k := Option.some.inj hk
      exact absurd hsub (by decide)

end results

end WebSocketHub

end QuiPanel
