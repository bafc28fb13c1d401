import CanaTune.Lib.Scalar
import CanaTune.Lib.Solo

/-! The processes of one job: the GPU agents, both node steps and the proxy are started in this order, watched, and shut
    down in dependency order. A signal may come between any two uses of what its handler shares. `events` and `exit` tell
    what happened, for the theorems; no function reads them. -/

namespace CanaTune
variable {K : Type}

inductive Service
  | agent (name : String)
  | prefill
  | decode
  | proxy
  deriving DecidableEq

def Service.isAgent : Service → Bool
  | .agent _ => true
  | _ => false

/-- The services whose health is waited for together. -/
inductive Readiness
  | agents
  | endpoints
  | proxy
  deriving DecidableEq

/-- The signals that ask the job to stop. -/
inductive StopSignal
  | int
  | term

def StopSignal.number : StopSignal → ℤ
  | .int => 2
  | .term => 15

inductive Deadly
  | term
  | kill
  deriving DecidableEq

inductive Crash
  /-- `ServiceExited`. -/
  | exited (s : Service) (returncode : ℤ)
  /-- `StartupError`. -/
  | startup
  /-- An `OSError` of a new process. -/
  | os
  /-- `ProcessLookupError`. -/
  | noProcess
  /-- `PermissionError`. -/
  | notPermitted
  /-- `TimeoutExpired`. -/
  | timedOut
  /-- `ValueError`: a second start, or one after shutdown. -/
  | cannotStart (s : Service)
  /-- `ValueError`: a sleep of negative length. -/
  | negativeSleep
  /-- Anything else a health check raises. -/
  | unchecked
  /-- Anything a reset over HTTP raises. -/
  | http
  deriving DecidableEq

/-- `_exit_status`. -/
def exitStatus (returncode : ℤ) : ℤ := if returncode < 0 then 128 - returncode else if returncode ≠ 0 then returncode else 1

inductive ServiceEvent
  | started (s : Service)
  | healthy (r : Readiness)
  /-- SIGTERM goes to its process group. -/
  | asked (s : Service)
  /-- No process of its group is left. -/
  | gone (s : Service)
  /-- SIGKILL goes to its process group. -/
  | killed (s : Service)
  /-- The clocks of a GPU are reset over HTTP. -/
  | reset (url : String) (gpu : ℕ)
  deriving DecidableEq

structure ProcessSettings (K : Type) [Scalar K] where
  shutdownGraceS : K
  pollIntervalS : K
  /-- The agents whose clocks are reset before they stop, by `before_agents_stop` if it is set. -/
  resetUrls : Option (List String)
  grace_pos : 0 < shutdownGraceS
  poll_pos : 0 < pollIntervalS

/-- What is started, and what is waited for. `polls`: the rounds of each waiting loop of one run. -/
structure JobPlan (K : Type) where
  agents : List String
  agentHealthUrls : List String
  endpointUrls : List String
  proxyHealthUrl : String
  agentTimeoutS : K
  endpointTimeoutS : K
  proxyTimeoutS : K
  polls : ℕ
  distinct : agents.Nodup

section
variable [Scalar K]

structure ProcessController (K : Type) [Scalar K] where
  settings : ProcessSettings K
  now : K
  processes : List Service
  stopSignal : Option StopSignal
  stopEvent : Bool
  stopped : Bool
  events : List ServiceEvent
  exit : Option (Except Crash ℤ)

inductive ProcessOp (K : Type)
  | look
  | popen (s : Service)
  | poll (s : Service)
  | killpg (s : Service) (signal : Option Deadly)
  | sendSignal (s : Service) (signal : Deadly)
  | wait (s : Service)
  | health (url : String)
  | eventWait
  | sleep (seconds : K)
  | gpus (url : String)
  | postReset (url : String) (gpu : ℕ)
  /-- More rounds than a run has. -/
  | beyond

abbrev ProcessOp.Ans : ProcessOp K → Type
  | .poll _ => Option ℤ
  | .health _ => Bool
  | .gpus _ => List ℕ
  | .beyond => Empty
  | _ => Unit

abbrev Supervising (K : Type) [Scalar K] := Co (World (JobPlan K) (ProcessController K)) (ProcessOp K) ProcessOp.Ans Crash

namespace Supervising

def get : Supervising K (ProcessController K) := do
  let w ← Co.read
  return w.state

def modify (f : ProcessController K → ProcessController K) : Supervising K Unit := Co.update fun w => w.map f

def tell (e : ServiceEvent) : Supervising K Unit := modify fun s => { s with events := s.events ++ [e] }

def look : Supervising K Unit := Co.call ProcessOp.look

def popen (s : Service) : Supervising K Unit := Co.call (ProcessOp.popen s)

def poll (s : Service) : Supervising K (Option ℤ) := Co.call (ProcessOp.poll s)

def killpg (s : Service) (signal : Option Deadly) : Supervising K Unit := Co.call (ProcessOp.killpg s signal)

def sendSignal (s : Service) (signal : Deadly) : Supervising K Unit := Co.call (ProcessOp.sendSignal s signal)

def wait (s : Service) : Supervising K Unit := Co.call (ProcessOp.wait s)

def health (url : String) : Supervising K Bool := Co.call (ProcessOp.health url)

def eventWait : Supervising K Unit := Co.call ProcessOp.eventWait

def sleep (seconds : K) : Supervising K Unit := Co.call (ProcessOp.sleep seconds)

def gpus (url : String) : Supervising K (List ℕ) := Co.call (ProcessOp.gpus url)

def postReset (url : String) (gpu : ℕ) : Supervising K Unit := Co.call (ProcessOp.postReset url gpu)

def beyond : Supervising K Empty := Co.call ProcessOp.beyond

/-- `self._stop_event.is_set()`. -/
def stopRequested : Supervising K Bool := do
  look
  let s ← get
  return s.stopEvent

/-- `time.monotonic()`. -/
def monotonic : Supervising K K := do
  look
  let s ← get
  return s.now

/-! ### Starting and watching -/

def start (s : Service) : Supervising K Unit := do
  let c ← get
  if s ∈ c.processes ∨ c.stopped = true then Co.raise (.cannotStart s)
  else do
    popen s
    modify fun c => { c with processes := c.processes ++ [s], events := c.events ++ [.started s] }

/-- `_exited_service`, raised. -/
def raiseExited : List Service → Supervising K Unit
  | [] => pure ()
  | s :: services => do
    match ← poll s with
    | some returncode => Co.raise (.exited s returncode)
    | none => raiseExited services

def allHealthy : List String → Supervising K Bool
  | [] => pure true
  | url :: urls => do if ← health url then allHealthy urls else return false

/-- `_wait_for_health`, up to a deadline. -/
def waitForHealth (r : Readiness) (urls : List String) (deadline : K) : ℕ → Supervising K Unit
  | 0 => do
    let never ← beyond
    never.elim
  | polls + 1 => do
    if ← stopRequested then return ()
    else do
      let c ← get
      raiseExited c.processes
      if ← allHealthy urls then tell (.healthy r)
      else do
        let now ← monotonic
        if deadline ≤ now then Co.raise .startup
        else do
          eventWait
          waitForHealth r urls deadline polls

def awaitHealth (r : Readiness) (urls : List String) (timeoutS : K) (polls : ℕ) : Supervising K Unit := do
  let now ← monotonic
  waitForHealth r urls (now + timeoutS) polls

/-- Supervises until the job is asked to stop. -/
def supervise : ℕ → Supervising K Unit
  | 0 => do
    let never ← beyond
    never.elim
  | polls + 1 => do
    if ← stopRequested then return ()
    else do
      let c ← get
      raiseExited c.processes
      eventWait
      supervise polls

/-! ### Shutdown -/

def signalled (s : Service) : Deadly → ServiceEvent
  | .term => .asked s
  | .kill => .killed s

/-- `_signal_group`. -/
def signalGroup (s : Service) (signal : Deadly) : Supervising K Unit := do
  tell (signalled s signal)
  Co.handle (killpg s (some signal)) fun e =>
    if e = .noProcess then return ()
    else if e = .notPermitted then do
      let returncode ← poll s
      if returncode = none then sendSignal s signal else return ()
    else Co.raise e

/-- `_group_exists`. -/
def groupExists (s : Service) : Supervising K Bool :=
  Co.handle
    (do
      killpg s none
      return true)
    fun e =>
      if e = .noProcess then return false
      else if e = .notPermitted then do
        let returncode ← poll s
        return returncode.isNone
      else Co.raise e

def anyExists : List Service → Supervising K Bool
  | [] => pure false
  | s :: services => do if ← groupExists s then return true else anyExists services

/-- Until no group is left, or the grace is over. The clock goes on between the two readings of it. -/
def awaitGone (services : List Service) (deadline : K) : ℕ → Supervising K Unit
  | 0 => do
    let never ← beyond
    never.elim
  | polls + 1 => do
    Co.each services fun s => do
      let _ ← poll s
    if ← anyExists services then do
      let now ← monotonic
      if deadline ≤ now then return ()
      else do
        let now ← monotonic
        let c ← get
        sleep (min c.settings.pollIntervalS (deadline - now))
        awaitGone services deadline polls
    else return ()

/-- SIGKILL where the group is still there. -/
def endGroup (s : Service) : Supervising K Unit := do
  if ← groupExists s then signalGroup s .kill else tell (.gone s)

/-- The process is reaped if it goes in time. -/
def reap (s : Service) : Supervising K Unit := do
  let returncode ← poll s
  if returncode = none then (wait s).handle fun e => if e = .timedOut then return () else Co.raise e
  else return ()

def finishOff (s : Service) : Supervising K Unit := do
  endGroup s
  reap s

/-- `_wait_then_kill`, with the services that were started. -/
def waitThenKill (services : List Service) (polls : ℕ) : Supervising K Unit := do
  Co.each services fun s => signalGroup s .term
  let now ← monotonic
  let c ← get
  awaitGone services (now + c.settings.shutdownGraceS) polls
  Co.each services finishOff

/-- `reset_agent_clocks`: a failed reset is told and the next one goes on. -/
def resetAgentClocks (urls : List String) : Supervising K Unit :=
  Co.each urls fun url => do
    let indices ← gpus url
    Co.each indices fun gpu => do
      tell (.reset url gpu)
      (postReset url gpu).handle fun _ => return ()

/-- `before_agents_stop`, if it is set; what it raises is told and no more. -/
def beforeAgentsStop : Option (List String) → Supervising K Unit
  | some urls => (resetAgentClocks urls).handle fun _ => return ()
  | none => pure ()

/-- The proxy first, then both node steps, then the GPU agents. -/
def stop (polls : ℕ) : Supervising K Unit := do
  let c ← get
  if c.stopped = true then return ()
  else do
    modify fun c => { c with stopped := true }
    waitThenKill ([Service.proxy].filter fun s => s ∈ c.processes) polls
    waitThenKill ([Service.prefill, .decode].filter fun s => s ∈ c.processes) polls
    beforeAgentsStop c.settings.resetUrls
    waitThenKill (c.processes.filter Service.isAgent) polls

/-! ### The job -/

/-- `128 + (self._stop_signal or signal.SIGTERM)`. -/
def stopStatus : Supervising K ℤ := do
  look
  let c ← get
  return 128 + (c.stopSignal.getD .term).number

/-- The GPU agents are up before the Controller locks any clock. `false`: the job is asked to stop. -/
def startAgents (plan : JobPlan K) : Supervising K Bool := do
  Co.each plan.agents fun name => start (.agent name)
  if plan.agentHealthUrls = [] then return true
  else do
    awaitHealth .agents plan.agentHealthUrls plan.agentTimeoutS plan.polls
    let stopping ← stopRequested
    return !stopping

def startEndpoints (plan : JobPlan K) : Supervising K Bool := do
  start .prefill
  start .decode
  awaitHealth .endpoints plan.endpointUrls plan.endpointTimeoutS plan.polls
  let stopping ← stopRequested
  return !stopping

def serveJob (plan : JobPlan K) : Supervising K ℤ := do
  if ← startAgents plan then
    if ← startEndpoints plan then do
      start .proxy
      awaitHealth .proxy [plan.proxyHealthUrl] plan.proxyTimeoutS plan.polls
      supervise plan.polls
      stopStatus
    else stopStatus
  else stopStatus

/-- The status of what `run` catches. -/
def caught : Crash → Supervising K ℤ
  | .exited _ returncode => return exitStatus returncode
  | .startup => return 1
  | .os => return 1
  | .noProcess => return 1
  | .notPermitted => return 1
  | e => Co.raise e

/-- `ProcessController.run`. -/
def run (plan : JobPlan K) : Supervising K ℤ := ((serveJob plan).handle caught).ensure (stop plan.polls)

end Supervising

/-! ### Runs -/

inductive ProcessEvent (K : Type)
  | clock (now : K)
  | signal (s : StopSignal)

namespace ProcessController

def fresh (settings : ProcessSettings K) (now : K) : ProcessController K :=
  ⟨settings, now, [], none, false, false, [], none⟩

/-- `_handle_signal`. -/
def handleSignal (c : ProcessController K) (s : StopSignal) : ProcessController K :=
  { c with stopSignal := some s, stopEvent := true }

def code (_ : ℕ) (plan : JobPlan K) : Supervising K Unit := do
  let result ← (Supervising.run plan).attempt
  Supervising.modify fun c => { c with exit := some result }

def outside : ProcessEvent K → World (JobPlan K) (ProcessController K) → Option (World (JobPlan K) (ProcessController K))
  | .clock now, w => if w.state.now ≤ now then some (w.map fun c => { c with now }) else none
  | .signal s, w => some (w.map fun c => c.handleSignal s)

/-- What each call may answer or raise; of the processes nothing else is known. -/
def answers (_ : World (JobPlan K) (ProcessController K)) : (op : ProcessOp K) → Except Crash op.Ans → Bool
  | .popen _, .error e => decide (e = .os)
  | .killpg _ _, .error e => decide (e = .noProcess ∨ e = .notPermitted)
  | .sendSignal _ _, .error e => decide (e = .notPermitted)
  | .wait _, .error e => decide (e = .timedOut)
  | .health _, .error e => decide (e = .unchecked)
  | .gpus _, .error e => decide (e = .http)
  | .postReset _ _, .error e => decide (e = .http)
  | .sleep seconds, .ok _ => decide (0 ≤ seconds)
  | .sleep seconds, .error e => decide (seconds < 0 ∧ e = .negativeSleep)
  | _, .ok _ => true
  | _, .error _ => false

end ProcessController

/-- The Controller of the processes; its task is never cancelled. -/
def job : Loop (JobPlan K) (ProcessController K) (ProcessOp K) ProcessOp.Ans Crash (ProcessEvent K) where
  code := ProcessController.code
  outside := ProcessController.outside
  answers := ProcessController.answers
  stopped := .http

/-- A job before its first step. -/
def ProcessController.boot (settings : ProcessSettings K) (now : K) (plan : JobPlan K) :
    Pool (JobPlan K) (ProcessController K) (ProcessOp K) ProcessOp.Ans Crash :=
  ⟨⟨.fresh settings now, ⟨[plan], [0], [], []⟩⟩, fun _ => none⟩

end
end CanaTune
