import CanaTune.Lib.Bytes
import CanaTune.Lib.Json

/-! Token events of a vLLM stream of server-sent events, split across arbitrary chunks. -/

namespace CanaTune
variable {K : Type} [Scalar K]

/-- What the reader uses of `json` and `str`: the decoder, and the text of a value that is no string. -/
structure Decoder (K : Type) where
  loads : Bytes → Except PyError (Json K)
  repr : Json K → String

def Decoder.str (d : Decoder K) : Json K → String
  | .str s => s
  | v => d.repr v

/-- One choice chunk is one generated token, even if its text is empty; a chat chunk that only announces the role or
    the finish is none. -/
def isTokenChunk (choice : Json K) : Except PyError Bool :=
  match choice.fields? with
  | none => .error .attribute
  | some fields =>
    if !(getField fields "text").isNull then .ok true
    else
      match (getField fields "delta").fields? with
      | none => .ok false
      | some delta =>
        let produced := ["content", "reasoning_content", "tool_calls"].map (getField delta)
        if (delta.lookup "role").isSome && !produced.any Json.truthy then .ok false
        else .ok (produced.any fun v => !v.isNull)

/-- `choices[0]` of a truthy value, judged as a token chunk. -/
def firstChoice : Json K → Except PyError Bool
  | .arr (choice :: _) => isTokenChunk choice
  | .str _ => .error .attribute
  | .obj _ => .error .key
  | _ => .error .type

/-- What one line of an event says. -/
inductive LineEvent
  | token
  | failed (message : String)

/-- `data:` -/
def dataPrefix : Bytes := [100, 97, 116, 97, 58]

/-- `[DONE]` -/
def donePayload : Bytes := [91, 68, 79, 78, 69, 93]

def isSpace (c : UInt8) : Bool := c == 32 || (9 ≤ c && c ≤ 13)

/-- `bytes.strip`. -/
def strip (b : Bytes) : Bytes := ((b.dropWhile isSpace).reverse.dropWhile isSpace).reverse

/-- The body of a payload: a broken one is passed over, and so is one that is no object. -/
def eventBody (d : Decoder K) (payload : Bytes) : Except PyError (Option (List (String × Json K))) :=
  match d.loads payload with
  | .error e => if e = .value ∨ e = .attribute then .ok none else .error e
  | .ok body => .ok body.fields?

def lineEvent (d : Decoder K) (line : Bytes) : Except PyError (Option LineEvent) :=
  if !dataPrefix.isPrefixOf line then .ok none
  else
    let payload := strip (line.drop 5)
    if payload = donePayload then .ok none
    else do
      match ← eventBody d payload with
      | none => return none
      | some fields =>
        let error := getField fields "error"
        if !error.isNull then
          let message := match error.fields? with
            | some fields => getField fields "message"
            | none => error
          return some (.failed (String.ofList ((d.str message).toList.take 200)))
        else
          let choices := getField fields "choices"
          if choices.truthy then
            if ← firstChoice choices then return some .token else return none
          else return none

/-- What a timer has seen: the times of the token events, and the error the stream ended with. -/
structure Tally (K : Type) where
  tokenTimes : List K
  error : Option String

structure StreamTimer (K : Type) extends Tally K where
  buffer : Bytes

def StreamTimer.fresh : StreamTimer K := ⟨⟨[], none⟩, []⟩

/-- CR LF CR LF before LF LF. -/
def separators : List Bytes := [[13, 10, 13, 10], [10, 10]]

/-- The first event of the buffer and what follows its separator. -/
def nextEvent (buffer : Bytes) : Option (Bytes × Bytes) :=
  separators.findSome? fun separator =>
    (Bytes.find separator buffer).map fun i => (buffer.take i, buffer.drop (i + separator.length))

theorem nextEvent_length {buffer event rest : Bytes} (h : nextEvent buffer = some (event, rest)) :
    rest.length < buffer.length := by
  obtain ⟨separator, hmem, h⟩ := List.exists_of_findSome?_eq_some h
  obtain ⟨i, hi, he⟩ := Option.map_eq_some_iff.mp h
  obtain ⟨hocc, hle, -⟩ := Bytes.find_eq_some.mp hi
  have hpos : 0 < separator.length := by
    simp only [separators, List.mem_cons, List.not_mem_nil, or_false] at hmem
    rcases hmem with rfl | rfl <;> decide
  have hlen := hocc.length_le hle
  rw [← (Prod.mk.inj he).2, List.length_drop]
  omega

namespace Tally

/-- One line; `clock` gives the time of each token event in turn. -/
def readLine (d : Decoder K) (clock : ℕ → K) (t : Tally K) (line : Bytes) : Except PyError (ℕ × Tally K) := do
  match ← lineEvent d line with
  | none => return (0, t)
  | some .token => return (1, { t with tokenTimes := t.tokenTimes ++ [clock t.tokenTimes.length] })
  | some (.failed message) => return (0, { t with error := some message })

def readLines (d : Decoder K) (clock : ℕ → K) : List Bytes → Tally K → Except PyError (ℕ × Tally K)
  | [], t => .ok (0, t)
  | line :: lines, t => do
    let (m, t) ← t.readLine d clock line
    let (k, t) ← readLines d clock lines t
    return (m + k, t)

/-- The complete events of the buffer, one after the other. -/
def drain (d : Decoder K) (clock : ℕ → K) (buffer : Bytes) (t : Tally K) : Except PyError (ℕ × StreamTimer K) :=
  match _h : nextEvent buffer with
  | none => .ok (0, { t with buffer })
  | some (event, rest) => do
    let (m, t) ← readLines d clock (Bytes.splitlines event) t
    let (k, t) ← drain d clock rest t
    return (m + k, t)
termination_by buffer.length
decreasing_by exact nextEvent_length _h

/-- The lines before the first one that raises. -/
def readUpTo (d : Decoder K) (clock : ℕ → K) : List Bytes → Tally K → Tally K
  | [], t => t
  | line :: lines, t =>
    match t.readLine d clock line with
    | .error _ => t
    | .ok (_, t) => readUpTo d clock lines t

/-- What a drain leaves, also when it raises: the event it raised in is off the buffer. -/
def drainUpTo (d : Decoder K) (clock : ℕ → K) (buffer : Bytes) (t : Tally K) : StreamTimer K :=
  match _h : nextEvent buffer with
  | none => { t with buffer }
  | some (event, rest) =>
    match readLines d clock (Bytes.splitlines event) t with
    | .error _ => { readUpTo d clock (Bytes.splitlines event) t with buffer := rest }
    | .ok (_, t) => drainUpTo d clock rest t
termination_by buffer.length
decreasing_by exact nextEvent_length _h

end Tally

namespace StreamTimer

/-- New token events of the buffer with one more chunk. -/
def feed (d : Decoder K) (clock : ℕ → K) (t : StreamTimer K) (chunk : Bytes) : Except PyError (ℕ × StreamTimer K) :=
  t.toTally.drain d clock (t.buffer ++ chunk)

/-- The timer when `feed` is left, by a return or by an exception. -/
def feedUpTo (d : Decoder K) (clock : ℕ → K) (t : StreamTimer K) (chunk : Bytes) : StreamTimer K :=
  t.toTally.drainUpTo d clock (t.buffer ++ chunk)

/-- The mean spacing of the token events. -/
def tpotMs (t : StreamTimer K) : Option K :=
  match t.tokenTimes.head?, t.tokenTimes.getLast? with
  | some first, some last =>
    if t.tokenTimes.length < 2 then none else some ((last - first) * 1000 / (t.tokenTimes.length - 1 : ℕ))
  | _, _ => none

/-- The chunks of a stream in order, and the sum of the counts. -/
def feedAll (d : Decoder K) (clock : ℕ → K) (t : StreamTimer K) : List Bytes → Except PyError (ℕ × StreamTimer K)
  | [] => .ok (0, t)
  | chunk :: chunks => do
    let (m, t) ← t.feed d clock chunk
    let (k, t) ← t.feedAll d clock chunks
    return (m + k, t)

/-- The loop of the proxy's `stream()` over the chunks D sends: what it yields, and the exception that breaks it off.
    Each chunk is fed before it is yielded, and no exception of the timer is caught. -/
def forward (d : Decoder K) (clock : ℕ → K) (t : StreamTimer K) : List Bytes → List Bytes × Option PyError
  | [] => ([], none)
  | chunk :: chunks =>
    match t.feed d clock chunk with
    | .error e => ([], some e)
    | .ok (_, t) =>
      let (sent, broken) := t.forward d clock chunks
      (chunk :: sent, broken)

end StreamTimer
end CanaTune
