import CanaTune.Lib.Dict
import CanaTune.Proxy.Stream

/-! Probe requests on the Canary pair. They run on one event loop: a request acts alone from one await to the next, and
    at each await any other request may act, the awaited call may return or raise, or the request may be cancelled. -/

namespace CanaTune
variable {K : Type} [Scalar K]

/-- `kv_transfer.connector`. -/
inductive Connector
  | nixl
  | p2pNccl
  deriving DecidableEq

/-- An exception that `except Exception` catches. -/
inductive ProbeError
  | http (message : String)
  | runtime (message : String)
  | python (e : PyError)
  | other (name : String)
  deriving DecidableEq

/-- What a call raises. -/
inductive Raised
  | error (e : ProbeError)
  | cancelled
  deriving DecidableEq

/-- D's half of a request: `NixlConnector` needs the `kv_transfer_params` of P's answer. -/
def decodeRequest (connector : Connector) (answer : Except PyError (Json K)) : Except ProbeError Unit :=
  if connector ≠ .nixl then .ok ()
  else
    let params : Except PyError (Option (List (String × Json K))) :=
      match answer with
      | .error e => if e = .value ∨ e = .attribute then .ok none else .error e
      | .ok body => .ok ((body.fields?.map fun fields => getField fields "kv_transfer_params").bind Json.fields?)
    match params with
    | .error e => .error (.python e)
    | .ok params =>
      if params.any fun params => (getField params "do_remote_prefill").bool? == some true then .ok ()
      else .error (.runtime "prefill returned no kv_transfer_params")

/-! ### Requests -/

structure ProbeOutcome (K : Type) where
  /-- `none`: "ok". -/
  status : Option ProbeError
  promptTokens : ℤ
  outputTokens : ℕ
  prefillMs : Option K
  ttftMs : Option K
  tpotMs : Option K
  nAwaitAtSend : ℤ
  dBusyAtSend : Bool
  atPrefill : List ℤ
  inflightTokens : ℤ
  decodingAtSend : ℤ
  firstTokenAt : Option K
  lastTokenAt : Option K

inductive ProbeStage
  | prefill
  | transfer
  | decode
  deriving DecidableEq

/-- What a request that has been sent holds in its local variables. -/
structure ProbeRequest (K : Type) where
  probeId : ℕ
  promptTokens : ℤ
  sent : K
  nAwait : ℤ
  dBusy : Bool
  atPrefill : List ℤ
  inflight : ℤ
  decodingNow : ℤ
  stage : ProbeStage
  prefillMs : Option K
  ttftMs : Option K
  timer : StreamTimer K

/-- Where a request awaits, or how it is over. -/
inductive ProbePoint (K : Type)
  /-- The model's name: nothing is counted yet. -/
  | naming (promptTokens : ℤ)
  /-- P's answer. -/
  | prefilling (q : ProbeRequest K)
  /-- The head of D's answer. -/
  | opening (q : ProbeRequest K)
  /-- The next chunk. -/
  | reading (q : ProbeRequest K)
  /-- The end of D's response, with the exception that left its block. -/
  | closing (q : ProbeRequest K) (pending : Option Raised)
  | returned (outcome : ProbeOutcome K)
  | raised (r : Raised)

/-- How an await ends. -/
inductive ProbeAnswer (K : Type)
  | name (model : String)
  | prefill (status : ℤ) (body : Except PyError (Json K))
  | head (status : ℤ)
  | chunk (clock : ℕ → K) (bytes : Bytes)
  | ended
  | closed
  | raised (r : Raised)

structure CanaryProbe where
  connector : Connector
  vocabLow : ℤ
  vocabHigh : ℤ
  model : Option String
  nAwait : ℤ
  decoding : ℤ
  /-- Probe id to prompt tokens, the newest first. -/
  atPrefill : Dict ℕ ℤ
  inflightTokens : ℤ
  ids : ℕ

namespace CanaryProbe

def fresh (connector : Connector) (vocabLow vocabHigh : ℤ) : CanaryProbe :=
  ⟨connector, vocabLow, vocabHigh, none, 0, 0, ∅, 0, 0⟩

/-- The `finally` block. -/
def undo (p : CanaryProbe) (q : ProbeRequest K) : CanaryProbe :=
  if q.stage = .decode then { p with decoding := p.decoding - 1 }
  else
    { p with
      nAwait := p.nAwait - 1
      inflightTokens := if q.stage = .transfer then p.inflightTokens - q.promptTokens else p.inflightTokens
      atPrefill := p.atPrefill.erase q.probeId }

def outcome (q : ProbeRequest K) (status : Option ProbeError) (tpotMs : Option K) : ProbeOutcome K where
  status
  promptTokens := q.promptTokens
  outputTokens := q.timer.tokenTimes.length
  prefillMs := q.prefillMs
  ttftMs := q.ttftMs
  tpotMs
  nAwaitAtSend := q.nAwait
  dBusyAtSend := q.dBusy
  atPrefill := q.atPrefill
  inflightTokens := q.inflight
  decodingAtSend := q.decodingNow
  firstTokenAt := q.timer.tokenTimes.head?
  lastTokenAt := q.timer.tokenTimes.getLast?

/-- The `try` block is over: a failed probe is data, a cancelled one is not. -/
def leave (p : CanaryProbe) (q : ProbeRequest K) : Except Raised (Option K) → CanaryProbe × ProbePoint K
  | .ok tpotMs => (p.undo q, .returned (outcome q none tpotMs))
  | .error (.error e) => (p.undo q, .returned (outcome q (some e) none))
  | .error .cancelled => (p.undo q, .raised .cancelled)

/-- From the model's name to the call of P. -/
def send (p : CanaryProbe) (promptTokens : ℤ) (now : K) : CanaryProbe × ProbePoint K :=
  ({ p with
      ids := p.ids + 1
      nAwait := p.nAwait + 1
      atPrefill := p.atPrefill.insert (p.ids + 1) promptTokens },
   .prefilling
    { probeId := p.ids + 1
      promptTokens
      sent := now
      nAwait := p.nAwait
      dBusy := decide (0 < p.decoding)
      atPrefill := (p.atPrefill.items.map (·.2)).reverse
      inflight := p.inflightTokens
      decodingNow := p.decoding
      stage := .prefill
      prefillMs := none
      ttftMs := none
      timer := .fresh })

/-- Up to the first await; the model's name is asked for once. A prompt cannot be drawn from no words. -/
def request (p : CanaryProbe) (promptTokens : ℤ) (now : K) : CanaryProbe × ProbePoint K :=
  if 0 < promptTokens ∧ p.vocabHigh ≤ p.vocabLow then (p, .raised (.error (.python .value)))
  else
    match p.model with
    | none => (p, .naming promptTokens)
    | some _ => p.send promptTokens now

/-- P has answered. -/
def prefilled (p : CanaryProbe) (q : ProbeRequest K) (now : K) (status : ℤ) (body : Except PyError (Json K)) :
    CanaryProbe × ProbePoint K :=
  let p := { p with
    atPrefill := p.atPrefill.erase q.probeId
    inflightTokens := p.inflightTokens + q.promptTokens }
  let q := { q with prefillMs := some ((now - q.sent) * 1000), stage := .transfer }
  if status ≠ 200 then p.leave q (.error (.error (.http s!"prefill HTTP {status}")))
  else
    match decodeRequest p.connector body with
    | .error e => p.leave q (.error (.error e))
    | .ok () => (p, .opening q)

/-- A chunk of D's stream. A feed that counts a token event has recorded its time. -/
def read (p : CanaryProbe) (d : Decoder K) (q : ProbeRequest K) (clock : ℕ → K) (bytes : Bytes) :
    CanaryProbe × ProbePoint K :=
  match q.timer.feed d clock bytes with
  | .error e => (p, .closing { q with timer := q.timer.feedUpTo d clock bytes } (some (.error (.python e))))
  | .ok (new, timer) =>
    if new ≠ 0 ∧ q.ttftMs.isNone then
      ({ p with
          nAwait := p.nAwait - 1
          inflightTokens := p.inflightTokens - q.promptTokens
          decoding := p.decoding + 1 },
       .reading { q with timer, ttftMs := some ((timer.tokenTimes.headD 0 - q.sent) * 1000), stage := .decode })
    else (p, .reading { q with timer })

/-- D's response is closed. -/
def streamed (p : CanaryProbe) (q : ProbeRequest K) : Option Raised → CanaryProbe × ProbePoint K
  | some r => p.leave q (.error r)
  | none =>
    match q.timer.error with
    | some e => p.leave q (.error (.error (.runtime s!"decode: {e}")))
    | none => p.leave q (.ok q.timer.tpotMs)

/-- A request goes on from its await. -/
def resume (p : CanaryProbe) (d : Decoder K) (now : K) : ProbePoint K → ProbeAnswer K → Option (CanaryProbe × ProbePoint K)
  | .naming n, .name model => some ({ p with model := some model }.send n now)
  | .naming _, .raised r => some (p, .raised r)
  | .prefilling q, .prefill status body => some (p.prefilled q now status body)
  | .prefilling q, .raised r => some (p.leave q (.error r))
  | .opening q, .head status =>
    some (p, if status = 200 then .reading q else .closing q (some (.error (.http s!"decode HTTP {status}"))))
  | .opening q, .raised r => some (p.leave q (.error r))
  | .reading q, .chunk clock bytes => some (p.read d q clock bytes)
  | .reading q, .ended => some (p, .closing q none)
  | .reading q, .raised r => some (p, .closing q (some r))
  | .closing q pending, .closed => some (p.streamed q pending)
  | .closing q _, .raised r => some (p.leave q (.error r))
  | _, _ => none

end CanaryProbe

/-! ### Runs -/

/-- A probe with all its requests, the oldest first. -/
structure ProbePool (K : Type) where
  probe : CanaryProbe
  requests : List (ProbePoint K)

inductive ProbeEvent (K : Type)
  | request (promptTokens : ℤ) (now : K)
  | resume (i : ℕ) (now : K) (answer : ProbeAnswer K)

namespace ProbePool

def step (d : Decoder K) (s : ProbePool K) : ProbeEvent K → Option (ProbePool K)
  | .request promptTokens now =>
    let (p, point) := s.probe.request promptTokens now
    some ⟨p, s.requests ++ [point]⟩
  | .resume i now answer => do
    let point ← s.requests[i]?
    let (p, point) ← s.probe.resume d now point answer
    return ⟨p, s.requests.set i point⟩

/-- A list of events, one after the other. -/
def run (d : Decoder K) (s : ProbePool K) : List (ProbeEvent K) → Option (ProbePool K)
  | [] => some s
  | e :: es => (s.step d e).bind fun s => run d s es

end ProbePool
end CanaTune
