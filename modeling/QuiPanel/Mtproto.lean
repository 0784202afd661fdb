import QuiPanel.Library.GoQuote
import Mathlib.Data.List.AList

namespace QuiPanel

namespace Mtproto

structure Instance where
  id : Int
  tag : String
  listen : String
  port : Int
  secret : String
  debug : Bool
  proxyProtocolListener : Bool
  preferIP : String
  frontingIP : String
  frontingPort : Int
  frontingProxyProtocol : Bool
  routeThroughXray : Bool
  xrayRoutePort : Int
  deriving DecidableEq

def formatBool (b : Bool) : String := if b then "true" else "false"

def Instance.address (inst : Instance) : String := if inst.listen = "" then "0.0.0.0" else inst.listen

def Instance.bindTo (inst : Instance) : String := inst.address ++ ":" ++ toString inst.port

def Instance.fingerprint (inst : Instance) : String :=
  "|".intercalate [inst.bindTo, inst.secret, formatBool inst.debug, formatBool inst.proxyProtocolListener,
    inst.preferIP, inst.frontingIP, toString inst.frontingPort, formatBool inst.frontingProxyProtocol,
    formatBool inst.routeThroughXray, toString inst.xrayRoutePort]

inductive Launch
  | noPort
  | noFile (metricsPort : Nat)
  | noStart (metricsPort : Nat)
  | started (metricsPort : Nat)

structure Env where
  isPrint : Char → Bool
  launch : Nat → Launch

structure Managed where
  proc : Nat
  tag : String
  fingerprint : String
  metricsPort : Nat
  lastUp : Int := 0
  lastDown : Int := 0
  haveLast : Bool := false

structure Process where
  inst : Instance
  config : String
  metricsPort : Nat
  running : Bool := true
  up : Int := 0
  down : Int := 0

structure Manager where
  procs : AList fun _ : Int => Managed
  files : Int → Option String
  process : Nat → Option Process
  next : Nat

section config

variable (isPrint : Char → Bool)

def quoted (s : String) : String := String.ofList (GoQuote.quote isPrint s.toList)

def whenText (b : Bool) (s : String) : String := if b then s else ""

def domainFronting (inst : Instance) : String :=
  whenText (inst.frontingIP ≠ "" || 0 < inst.frontingPort || inst.frontingProxyProtocol)
    ("\n[domain-fronting]\n" ++
      whenText (inst.frontingIP ≠ "") ("ip = " ++ quoted isPrint inst.frontingIP ++ "\n") ++
      whenText (0 < inst.frontingPort) ("port = " ++ toString inst.frontingPort ++ "\n") ++
      whenText inst.frontingProxyProtocol "proxy-protocol = true\n")

def renderConfig (inst : Instance) (metricsPort : Nat) : String :=
  ("secret = " ++ quoted isPrint inst.secret ++ "\n") ++
  ("bind-to = " ++ quoted isPrint inst.bindTo ++ "\n") ++
  whenText inst.debug "debug = true\n" ++
  whenText inst.proxyProtocolListener "proxy-protocol-listener = true\n" ++
  whenText (inst.preferIP ≠ "") ("prefer-ip = " ++ quoted isPrint inst.preferIP ++ "\n") ++
  domainFronting isPrint inst ++
  whenText (inst.routeThroughXray && 0 < inst.xrayRoutePort)
    ("\n[network]\nproxies = [\"socks5://127.0.0.1:" ++ toString inst.xrayRoutePort ++ "\"]\n") ++
  ("\n[stats.prometheus]\nenabled = true\nbind-to = \"127.0.0.1:" ++ toString metricsPort ++
    "\"\nhttp-path = \"/metrics\"\nmetric-prefix = \"mtg\"\n")

end config

section manager

variable (env : Env)

def Manager.running (m : Manager) (pid : Nat) : Bool := ((m.process pid).map (·.running)).getD false

def Manager.stop (m : Manager) (pid : Nat) : Manager :=
  { m with process := Function.update m.process pid ((m.process pid).map fun p => { p with running := false }) }

def Manager.forget (m : Manager) (id : Int) (pid : Nat) : Manager :=
  { m.stop pid with procs := m.procs.erase id }

def Manager.writeConfig (m : Manager) (inst : Instance) (metricsPort : Nat) : Manager :=
  { m with files := Function.update m.files inst.id (some (renderConfig env.isPrint inst metricsPort)) }

def Manager.removeConfig (m : Manager) (id : Int) : Manager := { m with files := Function.update m.files id none }

def Manager.start (m : Manager) (inst : Instance) (metricsPort : Nat) : Manager :=
  { m with
    process := Function.update m.process m.next
      ((m.files inst.id).map fun config => { inst := inst, config := config, metricsPort := metricsPort })
    procs := m.procs.insert inst.id
      { proc := m.next, tag := inst.tag, fingerprint := inst.fingerprint, metricsPort := metricsPort } }

def Manager.launch (m : Manager) (inst : Instance) : Manager × Bool :=
  let attempt := env.launch m.next
  let done (m : Manager) : Manager := { m with next := m.next + 1 }
  match attempt with
  | .noPort => (done m, false)
  | .noFile _ => (done m, false)
  | .noStart metricsPort => (done (m.writeConfig env inst metricsPort), false)
  | .started metricsPort => (done ((m.writeConfig env inst metricsPort).start inst metricsPort), true)

def Manager.ensure (m : Manager) (inst : Instance) : Manager × Bool :=
  match m.procs.lookup inst.id with
  | some cur =>
    if cur.fingerprint = inst.fingerprint ∧ m.running cur.proc = true then
      ({ m with procs := m.procs.insert inst.id { cur with tag := inst.tag } }, true)
    else (m.forget inst.id cur.proc).launch env inst
  | none => m.launch env inst

def Manager.remove (m : Manager) (id : Int) : Manager :=
  match m.procs.lookup id with
  | some cur => (m.forget id cur.proc).removeConfig id
  | none => m

def Manager.sweep (m : Manager) (want : List Int) : Manager :=
  m.procs.keys.foldl (fun m id => if id ∈ want then m else m.remove id) m

def Manager.reconcile (m : Manager) (desired : List Instance) : Manager :=
  desired.foldl (fun m inst => (m.ensure env inst).1) (m.sweep (desired.map (·.id)))

def Manager.stopAll (m : Manager) : Manager := m.procs.keys.foldl Manager.remove m

end manager

end Mtproto

end QuiPanel
