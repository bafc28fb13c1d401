import CanaTune.Lib.Exclusive
import CanaTune.Lib.Scalar
import Mathlib.Data.Finset.Basic

/-! The GPU agent of a node: clock changes, each a thread of its own, one at a time per GPU and confirmed by a read-back.
    A thread may be stopped between any two uses of what the threads share. -/

namespace CanaTune
variable {K : Type}

/-! ### The GPUs -/

/-- What `nvidia-smi` is asked to do with one GPU. -/
inductive SmiCommand
  | lockMemory (mhz : ℕ)
  | lockSm (mhz : ℕ)
  | resetSm
  | resetMemory
  deriving DecidableEq

def SmiCommand.args : SmiCommand → List String
  | .lockMemory mhz => ["-lmc", s!"{mhz},{mhz}"]
  | .lockSm mhz => ["-lgc", s!"{mhz},{mhz}"]
  | .resetSm => ["-rgc"]
  | .resetMemory => ["-rmc"]

def SmiCommand.cmd (c : SmiCommand) (gpu : ℕ) : List String := ["sudo", "-n", "nvidia-smi", "-i", toString gpu] ++ c.args

/-- A session is there for the SM clock. -/
def SmiCommand.serves : SmiCommand → Bool
  | .lockSm _ => true
  | .resetSm => true
  | _ => false

/-- The clocks a GPU is locked at. -/
structure GpuClocks where
  sm : Option ℕ
  memory : Option ℕ
  deriving DecidableEq

def GpuClocks.after (c : GpuClocks) : SmiCommand → GpuClocks
  | .lockMemory mhz => { c with memory := some mhz }
  | .lockSm mhz => { c with sm := some mhz }
  | .resetSm => { c with sm := none }
  | .resetMemory => { c with memory := none }

/-- One run of `nvidia-smi`: its status, whether it says "All done", and the end of its output, or that it did not end in
    time; and whether the GPU did as it was asked. -/
structure SmiRun where
  ended : Option (ℤ × Bool × String)
  applied : Bool

/-- It has returned non-zero after a successful change: its own confirmation text is authoritative. -/
def SmiRun.done (r : SmiRun) : Bool := r.ended.any fun e => decide (e.1 = 0) || e.2.1

inductive AgentError
  | notManaged (gpu : ℕ)
  | notAllowed (mhz : ℕ)
  /-- `output`: the end of what it printed. -/
  | failed (gpu : ℕ) (command : SmiCommand) (returncode : ℤ) (output : String)
  | timedOut (gpu : ℕ) (command : SmiCommand)
  | nvml (text : String)
  deriving DecidableEq

/-- A list of strings as Python prints it. -/
def printed (words : List String) : String :=
  let quote := String.singleton (Char.ofNat 39)
  "[" ++ ", ".intercalate (words.map fun w => quote ++ w ++ quote) ++ "]"

def AgentError.message : AgentError → String
  | .notManaged gpu => s!"GPU {gpu} is not managed by this agent"
  | .notAllowed mhz => s!"{mhz} MHz is not an allowed clock"
  | .failed gpu command returncode output =>
    " ".intercalate (command.cmd gpu) ++ s!" failed: rc={returncode} " ++ output
  | .timedOut gpu command =>
    let quote := String.singleton (Char.ofNat 39)
    "Command " ++ quote ++ printed (command.cmd gpu) ++ quote ++ " timed out after 30 seconds"
  | .nvml text => text

/-- The HTTP status of a request that raised. -/
def AgentError.status : AgentError → ℕ
  | .notManaged _ => 404
  | .notAllowed _ => 400
  | _ => 500

/-! ### The service -/

structure LockResult (K : Type) where
  ok : Bool
  gpu : ℕ
  targetMhz : ℕ
  cmdMs : K
  reachMs : Option K
  smMhz : ℤ
  error : Option String

structure AgentSettings (K : Type) where
  gpus : Finset ℕ
  allowedMhz : Option (Finset ℕ)
  minMhz : ℕ
  memoryMhz : Option ℕ
  confirmTimeoutS : K
  toleranceMhz : ℤ
  /-- The SM clocks each GPU supports. -/
  supported : ℕ → List ℕ

/-- Supported clocks from `minMhz` up, and in the explicit list if one is set. -/
def AgentSettings.allowed (s : AgentSettings K) (gpu : ℕ) : List ℕ :=
  (s.supported gpu).filter fun f => decide (s.minMhz ≤ f) && s.allowedMhz.all fun list => decide (f ∈ list)

/-- What a thread holds a GPU's lock for. -/
inductive AgentTask
  | lock (mhz : ℕ)
  | reset
  deriving DecidableEq

/-- A thread in possession of a GPU: whether the GPU has done what the thread is there for. -/
structure Session where
  thread : ℕ
  task : AgentTask
  applied : Bool

/-- A session that is over, with its result or exception; a reset has no result of its own. -/
structure Served (K : Type) where
  gpu : ℕ
  task : AgentTask
  applied : Bool
  outcome : Except AgentError (Option (LockResult K))

structure Agent (K : Type) where
  settings : AgentSettings K
  now : K
  /-- The locks of the GPUs. -/
  session : ℕ → Option Session
  memoryLocked : Finset ℕ
  clocks : ℕ → GpuClocks
  /-- GPUs whose memory clock a reset gave up although it said that it failed. -/
  memoryLost : Finset ℕ
  served : List (Served K)

inductive AgentLabel
  /-- `polls`: the read-backs of one run. -/
  | lock (gpu mhz polls : ℕ)
  | reset (gpu : ℕ)

inductive AgentOp
  | preempt
  | acquire (gpu : ℕ)
  | supported (gpu : ℕ)
  | smi (gpu : ℕ) (command : SmiCommand)
  | smMhz (gpu : ℕ)
  | sleep
  /-- More read-backs than a run has. -/
  | beyond

abbrev AgentOp.Ans : AgentOp → Type
  | .preempt => Unit
  | .acquire _ => Unit
  | .supported _ => List ℕ
  | .smi _ _ => SmiRun
  | .smMhz _ => ℤ
  | .sleep => Unit
  | .beyond => Empty

abbrev AgentThread (K : Type) := Co (World AgentLabel (Agent K)) AgentOp AgentOp.Ans AgentError

namespace Agent

def fresh (settings : AgentSettings K) (now : K) : Agent K :=
  ⟨settings, now, fun _ => none, ∅, fun _ => ⟨none, none⟩, ∅, []⟩

/-- The lock of a GPU is taken. -/
def take (a : Agent K) (thread gpu : ℕ) (task : AgentTask) : Agent K :=
  { a with session := Function.update a.session gpu (some ⟨thread, task, false⟩) }

/-- It is given back. -/
def leave (a : Agent K) (gpu : ℕ) (outcome : Except AgentError (Option (LockResult K))) : Agent K :=
  { a with
    session := Function.update a.session gpu none
    served := a.served ++ ((a.session gpu).map fun s => ⟨gpu, s.task, s.applied, outcome⟩).toList }

/-- What a run of `nvidia-smi` did. -/
def ran (a : Agent K) (gpu : ℕ) (command : SmiCommand) (r : SmiRun) : Agent K :=
  if r.applied then
    { a with
      clocks := Function.update a.clocks gpu ((a.clocks gpu).after command)
      session := if command.serves then
          Function.update a.session gpu ((a.session gpu).map fun s => { s with applied := true })
        else a.session
      memoryLost := if command = .resetMemory ∧ !r.done then insert gpu a.memoryLost else a.memoryLost }
  else a

def setMemoryLocked (a : Agent K) (gpu : ℕ) (locked : Bool) : Agent K :=
  { a with memoryLocked := if locked then insert gpu a.memoryLocked else a.memoryLocked.erase gpu }

end Agent

namespace AgentThread

def get : AgentThread K (Agent K) := do
  let w ← Co.read
  return w.state

def modify (f : Agent K → Agent K) : AgentThread K Unit := Co.update fun w => w.map f

def preempt : AgentThread K Unit := Co.call AgentOp.preempt

def acquire (gpu : ℕ) : AgentThread K Unit := Co.call (AgentOp.acquire gpu)

def supportedClocks (gpu : ℕ) : AgentThread K (List ℕ) := Co.call (AgentOp.supported gpu)

def nvidiaSmi (gpu : ℕ) (command : SmiCommand) : AgentThread K SmiRun := Co.call (AgentOp.smi gpu command)

def smMhz (gpu : ℕ) : AgentThread K ℤ := Co.call (AgentOp.smMhz gpu)

def sleep : AgentThread K Unit := Co.call AgentOp.sleep

def beyond : AgentThread K Empty := Co.call AgentOp.beyond

/-- `GpuBackend._smi`. -/
def smi (gpu : ℕ) (command : SmiCommand) : AgentThread K Unit := do
  let r ← nvidiaSmi gpu command
  modify fun a => a.ran gpu command r
  match r.ended with
  | none => Co.raise (.timedOut gpu command)
  | some (returncode, _, output) => if r.done then pure () else Co.raise (.failed gpu command returncode output)

/-- The memory clock is locked once, before the first SM lock. -/
def lockMemory (gpu : ℕ) : AgentThread K Unit := do
  let a ← get
  match a.settings.memoryMhz with
  | none => pure ()
  | some memory =>
    if gpu ∈ a.memoryLocked then pure ()
    else do
      smi gpu (.lockMemory memory)
      preempt
      modify fun a => a.setMemoryLocked gpu true

/-- `GpuBackend.lock`. -/
def backendLock (gpu mhz : ℕ) : AgentThread K Unit := do
  lockMemory gpu
  smi gpu (.lockSm mhz)

def resetMemory (gpu : ℕ) : AgentThread K Unit := do
  let a ← get
  if gpu ∈ a.memoryLocked then do
    smi gpu .resetMemory
    preempt
    modify fun a => a.setMemoryLocked gpu false
  else pure ()

/-- `GpuBackend.reset`. -/
def backendReset (gpu : ℕ) : AgentThread K Unit := do
  smi gpu .resetSm
  preempt
  resetMemory gpu

/-- `with self._locks[gpu]`. -/
def exclusively (thread gpu : ℕ) (task : AgentTask) (body : AgentThread K (Option (LockResult K))) :
    AgentThread K (Option (LockResult K)) := do
  acquire gpu
  modify fun a => a.take thread gpu task
  let outcome ← body.attempt
  modify fun a => a.leave gpu outcome
  Co.ofExcept outcome

def checkGpu (gpu : ℕ) : AgentThread K Unit := do
  let a ← get
  if gpu ∈ a.settings.gpus then pure () else Co.raise (.notManaged gpu)

section
variable [Scalar K]

/-- The clock is read back until it is there. Power and thermal limits can hold it below its target: the lock itself
    succeeded, so it is unconfirmed, not failed. -/
def confirm (gpu mhz : ℕ) (t0 cmdMs : K) : ℕ → AgentThread K (LockResult K)
  | 0 => do
    let never ← beyond
    never.elim
  | polls + 1 => do
    let current ← smMhz gpu
    let a ← get
    if |current - mhz| ≤ a.settings.toleranceMhz then
      return ⟨true, gpu, mhz, cmdMs, some ((a.now - t0) * 1000), current, none⟩
    else if a.settings.confirmTimeoutS < a.now - t0 then
      return ⟨true, gpu, mhz, cmdMs, none, current, some "clock not confirmed within timeout"⟩
    else do
      sleep
      confirm gpu mhz t0 cmdMs polls

/-- A lock that fails is reported, never a crash of the agent. -/
def lockClock (gpu mhz polls : ℕ) : AgentThread K (Option (LockResult K)) := do
  let a ← get
  let t0 := a.now
  let locked ← (backendLock gpu mhz).attempt
  let a ← get
  match locked with
  | .error e => do
    let current ← smMhz gpu
    return some ⟨false, gpu, mhz, (a.now - t0) * 1000, none, current, some e.message⟩
  | .ok _ => do
    let result ← confirm gpu mhz t0 ((a.now - t0) * 1000) polls
    return some result

/-- `ClockService.lock`. -/
def lock (thread gpu mhz polls : ℕ) : AgentThread K (Option (LockResult K)) := do
  checkGpu gpu
  let supported ← supportedClocks gpu
  let a ← get
  if mhz ∈ { a.settings with supported := fun _ => supported }.allowed gpu then
    exclusively thread gpu (.lock mhz) (lockClock gpu mhz polls)
  else Co.raise (.notAllowed mhz)

def resetClock (gpu : ℕ) : AgentThread K (Option (LockResult K)) := do
  backendReset gpu
  return none

/-- `ClockService.reset`. -/
def reset (thread gpu : ℕ) : AgentThread K (Option (LockResult K)) := do
  checkGpu gpu
  exclusively thread gpu .reset (resetClock gpu)

end
end AgentThread

/-! ### Runs -/

inductive AgentEvent (K : Type)
  | clock (now : K)
  /-- A request comes in; it runs in a thread of its own. -/
  | request (label : AgentLabel)

section
variable [Scalar K]

namespace Agent

def code (thread : ℕ) : AgentLabel → AgentThread K Unit
  | .lock gpu mhz polls => do
    let _ ← AgentThread.lock thread gpu mhz polls
  | .reset gpu => do
    let _ ← AgentThread.reset thread gpu

def outside : AgentEvent K → World AgentLabel (Agent K) → Option (World AgentLabel (Agent K))
  | .clock now, w => if w.state.now ≤ now then some (w.map fun a => { a with now }) else none
  | .request label, w => some (w.spawn label)

/-- A lock is acquired while nobody holds it; a run of `nvidia-smi` that confirms a change has made it; anything that
    asks the driver may fail. -/
def answers (w : World AgentLabel (Agent K)) : (op : AgentOp) → Except AgentError op.Ans → Bool
  | .preempt, .ok _ => true
  | .acquire gpu, .ok _ => (w.state.session gpu).isNone
  | .supported gpu, .ok clocks => decide (clocks = w.state.settings.supported gpu)
  | .supported _, .error (.nvml _) => true
  | .smi _ _, .ok r => !r.done || r.applied
  | .smMhz _, .ok _ => true
  | .smMhz _, .error (.nvml _) => true
  | .sleep, .ok _ => true
  | _, _ => false

end Agent

/-- The agent's threads; none is cancelled. -/
def agent : Loop AgentLabel (Agent K) AgentOp AgentOp.Ans AgentError (AgentEvent K) where
  code := Agent.code
  outside := Agent.outside
  answers := Agent.answers
  stopped := .nvml ""

end

/-- An agent before its first request. -/
def Agent.boot (settings : AgentSettings K) (now : K) : Pool AgentLabel (Agent K) AgentOp AgentOp.Ans AgentError :=
  ⟨⟨.fresh settings now, ⟨[], [], [], []⟩⟩, fun _ => none⟩

end CanaTune
