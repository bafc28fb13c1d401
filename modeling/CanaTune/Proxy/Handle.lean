import CanaTune.Lib.Coroutine
import CanaTune.Proxy.Stream
import CanaTune.Router.Lifecycle

/-! One admitted request in the proxy: P, then D, then the answer or the stream. `effects` and `lost` tell what
    happened, for the theorems; no function reads them. -/

namespace CanaTune
variable {K : Type} [Scalar K] {n : ℕ}

/-- How a request ended. -/
inductive Status
  | ok
  | badRequest
  | prefillError
  | decodeError
  | clientDisconnected
  deriving DecidableEq

/-- What a request can be left by. `closed`: its stream is closed. -/
inductive Broken
  | http
  | handoff
  | cancelled
  | closed
  | other
  deriving DecidableEq

/-- A request with its ticket. -/
structure ProxyRequest (K : Type) where
  ticket : ℕ
  arrived : K
  requestId : Option String
  nixl : Bool
  stream : Bool

structure PrefillResponse (K : Type) where
  status : ℕ
  json : Except PyError (Json K)

/-- D's answer, and the chunks it has to send. -/
structure DecodeResponse where
  status : ℕ
  contentType : Option String
  chunks : List Bytes

inductive Reply
  | plain (status : ℕ)
  | stream (chunks : List Bytes)

/-- What the proxy awaits. -/
inductive Await
  /-- A new client, for P or for D. -/
  | client
  | prefill
  | closePrefill
  | send
  | closeResponse
  /-- `last`: as the request is left. -/
  | closeClient (last : Bool)
  | read
  /-- The server takes the first step of the stream. -/
  | start
  | chunk
  | ended
  | yield

def Await.Ans (K : Type) : Await → Type
  | .prefill => PrefillResponse K
  | .send => DecodeResponse
  | .chunk => ℕ → K -- the times of the token events to come
  | _ => Unit

/-- The Router and the proxy's own variables of the request. -/
structure Handling (K : Type) [Scalar K] (n : ℕ) where
  router : Router K n
  finished : Bool
  handedOff : Bool
  /-- D's client is there, and closed. -/
  client : Bool
  closed : Bool
  timer : StreamTimer K
  /-- The finishes that took effect. -/
  effects : List Status
  /-- An exception came before the first step of the stream, or as the client was closed in the end. -/
  lost : Bool

/-- 1-256 letters, digits, dots, underscores or hyphens; without an id the proxy draws one. -/
def acceptsId (value : Option String) : Bool :=
  value.all fun id => decide (id.length ≤ 256) && !id.toList.isEmpty &&
    id.toList.all fun c => c.isAlphanum || c == '.' || c == '_' || c == '-'

/-- NixlConnector needs P's `kv_transfer_params`. -/
def Handling.decodeRequest (nixl : Bool) (json : Except PyError (Json K)) : Except Broken Unit :=
  if !nixl then .ok ()
  else
    match json with
    | .error e => if e = .value ∨ e = .attribute then .error .handoff else .error .other
    | .ok body =>
      match (body.fields?.map fun fields => getField fields "kv_transfer_params").bind Json.fields? with
      | none => .error .handoff
      | some params => if (getField params "do_remote_prefill").bool? = some true then .ok () else .error .handoff

/-- A stream of server-sent events. -/
def DecodeResponse.isEventStream (r : DecodeResponse) : Bool :=
  decide ("text/event-stream".toList <:+: (r.contentType.getD "application/json").toList.map Char.toLower)

namespace Handling

def fresh (r : Router K n) : Handling K n := ⟨r, false, false, false, false, .fresh, [], false⟩

/-- The ticket still holds its reservation. -/
def reserved (h : Handling K n) (i : ℕ) : Bool := h.router.tickets[i]?.any fun t => !t.finished

def release (h : Handling K n) (q : ProxyRequest K) (status : Status) (ttftMs tpotMs : Option K) (outputTokens : ℕ) :
    Handling K n :=
  { h with
    router := h.router.finish q.ticket (status = .ok) ttftMs tpotMs outputTokens
    effects := if h.reserved q.ticket then h.effects ++ [status] else h.effects }

/-- The request ends, once. -/
def finish (h : Handling K n) (q : ProxyRequest K) (status : Status) (timer : Option (StreamTimer K)) : Handling K n :=
  if h.finished then h
  else
    let times := (timer.map (·.tokenTimes)).getD []
    { h with finished := true }.release q status (times.head?.map fun t => (t - q.arrived) * 1000) (timer.bind (·.tpotMs))
      times.length

/-- The spacing of the newest token events. -/
def recentTpot (times : List K) (new : ℕ) : Option K :=
  if new < times.length then
    some (((times.getLast?.getD 0) - times.getD (times.length - new - 1) 0) * 1000 / new)
  else none

/-- A chunk's token events reach the Router. -/
def noteTokens (h : Handling K n) (q : ProxyRequest K) (new : ℕ) : Handling K n :=
  if new = 0 then h
  else { h with router :=
    (h.router.firstToken q.ticket).tokenProgress q.ticket (recentTpot h.timer.tokenTimes new) }

/-- The timer reads a chunk; `false`: it raises. -/
def feed (h : Handling K n) (d : Decoder K) (q : ProxyRequest K) (clock : ℕ → K) (chunk : Bytes) : Bool × Handling K n :=
  match h.timer.feed d clock chunk with
  | .error _ => (false, { h with timer := h.timer.feedUpTo d clock chunk })
  | .ok (new, timer) => (true, { h with timer }.noteTokens q new)

end Handling

/-! ### The stages -/

abbrev Serving (K : Type) [Scalar K] (n : ℕ) := Co (Handling K n) Await (Await.Ans K) Broken

namespace Serving
variable (q : ProxyRequest K)

def modify (f : Handling K n → Handling K n) : Serving K n Unit := Co.update f

def call (op : Await) : Serving K n (Await.Ans K op) := Co.call op

/-- A client is closed before it awaits its connections. -/
def closeClient (last : Bool) : Serving K n Unit := do
  modify fun h => { h with closed := true }
  call (.closeClient last)

/-- An exception here leaves the reservation behind. -/
def watched {α : Type} (p : Serving K n α) : Serving K n α :=
  p.handle fun e => do
    modify fun h => { h with lost := true }
    Co.raise e

def finish (status : Status) (timer : Option (StreamTimer K)) : Serving K n Unit := modify fun h => h.finish q status timer

/-- P's half; `false`: the request is answered with an error. -/
def prefillStage : Serving K n Bool :=
  Co.handle
    (do
      call .client
      let (answer : PrefillResponse K) ← (call .prefill).ensure (call .closePrefill)
      if answer.status ≠ 200 then do
        finish q .prefillError none
        return false
      else do
        modify fun h => { h with router := h.router.prefillDone q.ticket }
        Co.ofExcept (Handling.decodeRequest q.nixl answer.json)
        return true)
    fun e =>
      if e = .handoff ∨ e = .http then do
        finish q .prefillError none
        return false
      else Co.raise e

/-- D's answer is not what was asked for. -/
def refuse : Serving K n Reply := do
  call .closeResponse
  closeClient false
  finish q .decodeError none
  return .plain 502

def decodeStage : Serving K n Reply := do
  call .client
  modify fun h => { h with client := true }
  Co.handle
    (do
      let (answer : DecodeResponse) ← call .send
      if answer.status ≠ 200 then refuse q
      else if q.stream then
        if !answer.isEventStream then refuse q
        else do
          -- The stream finishes the request from here on.
          modify fun h => { h with handedOff := true }
          return .stream answer.chunks
      else do
        call .read
        call .closeResponse
        closeClient false
        finish q .ok none
        return .plain 200)
    fun e =>
      if e = .http then do
        closeClient false
        finish q .decodeError none
        return .plain 502
      else Co.raise e

/-- Admitted but not streaming: the reservation is released here. -/
def leave : Serving K n Unit := do
  let h ← Co.read
  if h.handedOff then return ()
  else do
    if h.client && !h.closed then watched (closeClient true)
    finish q .clientDisconnected none

def handle : Serving K n Reply :=
  if acceptsId q.requestId then
    Co.ensure (do if ← prefillStage q then decodeStage q else return .plain 502) (leave q)
  else do
    modify fun h => h.release q .badRequest none none 0
    return .plain 400

/-! ### The stream -/

variable (d : Decoder K)

def forward : List Bytes → Serving K n Unit
  | [] => call .ended
  | chunk :: chunks => do
    let (clock : ℕ → K) ← call .chunk
    if ← Co.atomic fun h => h.feed d q clock chunk then do
      call .yield
      forward chunks
    else Co.raise .other

/-- The status of a stream that D or the client did not break off. -/
def streamStatus (chunks : List Bytes) : Serving K n Status :=
  Co.handle
    (do
      forward q d chunks
      let h ← Co.read
      return if h.timer.error.isNone then .ok else .decodeError)
    fun e => if e = .http then return .decodeError else Co.raise e

def stream (chunks : List Bytes) : Serving K n Unit := do
  let result ← (streamStatus q d chunks).attempt
  let status := match result with
    | .ok status => status
    | .error _ => .clientDisconnected
  modify fun h => h.finish q status (some h.timer)
  call .closeResponse
  closeClient false
  Co.ofExcept (result.map fun _ => ())

/-- The server iterates a stream, or leaves it before its first step. -/
def serve : Serving K n Unit := do
  match ← handle q with
  | .plain _ => return ()
  | .stream chunks => do
    watched (call .start)
    stream q d chunks

end Serving
end CanaTune
