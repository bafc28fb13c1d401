import CanaTune.Domain.Groups
import CanaTune.Lib.PyValue

/-! The published tier table as it is stored, and how its readers take it apart. -/

namespace CanaTune
variable {K : Type} [Scalar K]

namespace ClockPoint

def key (p : ClockPoint) : String := p.prefillMhz.repr ++ "/" ++ p.decodeMhz.repr

/-- `prefill, decode = key.split("/")`. -/
def fromKey (key : String) : Except PyError ClockPoint :=
  match (key.toList.splitOn '/').map String.ofList with
  | [prefill, decode] => do
    let prefillMhz ← (Key.str prefill).toNat
    let decodeMhz ← (Key.str decode).toNat
    return ⟨prefillMhz, decodeMhz⟩
  | _ => .error .value

end ClockPoint

/-! ### Cluster model -/

/-- The cluster model as the dataclass holds it. -/
structure StoredModel (K : Type) where
  prefill : Dict ℤ (Dict ℤ K)
  residence : Dict ℤ K
  decode : Dict ℤ (List K)
  powerPrefill : Dict ℤ (List K)
  powerDecode : Dict ℤ (List K)
  parkPowerW : K
  rhoPrefill : K
  ttftSloMs : K
  tpotSloMs : K
  kvBytesPerToken : K
  kvGateBytes : Option K
  kvCapacityTokens : Option ℤ
  bStar : Dict ℤ ℤ
  promptLimit : Option ℤ
  caps : Dict String K
  predictorCoef : Option (List K)
  slackCounts : Option (Dict String (List ℤ))
  theta : K

namespace PyValue

/-- `{str(k): f(v) for k, v in d.items()}`. -/
def ofInts {α : Type} (f : α → PyValue K) (d : Dict ℤ α) : PyValue K :=
  .dict (d.items.map fun e => (.str e.1.repr, f e.2))

def ofNames {α : Type} (f : α → PyValue K) (d : Dict String α) : PyValue K :=
  .dict (d.items.map fun e => (.str e.1, f e.2))

def ofList {α : Type} (f : α → PyValue K) (l : List α) : PyValue K := .list (l.map f)

def ofOption {α : Type} (f : α → PyValue K) (o : Option α) : PyValue K := o.elim .none f

end PyValue

namespace StoredModel
open PyValue

def entries (m : StoredModel K) : List (Key × PyValue K) :=
  [(.str "prefill", ofInts (ofInts float) m.prefill), (.str "residence", ofInts float m.residence),
    (.str "decode", ofInts (ofList float) m.decode), (.str "power_prefill", ofInts (ofList float) m.powerPrefill),
    (.str "power_decode", ofInts (ofList float) m.powerDecode), (.str "park_power_w", float m.parkPowerW),
    (.str "rho_prefill", float m.rhoPrefill), (.str "ttft_slo_ms", float m.ttftSloMs),
    (.str "tpot_slo_ms", float m.tpotSloMs), (.str "kv_bytes_per_token", float m.kvBytesPerToken),
    (.str "kv_gate_bytes", ofOption float m.kvGateBytes), (.str "kv_capacity_tokens", ofOption int m.kvCapacityTokens),
    (.str "b_star", ofInts int m.bStar), (.str "prompt_limit", ofOption int m.promptLimit),
    (.str "caps", ofNames float m.caps), (.str "predictor_coef", ofOption (ofList float) m.predictorCoef),
    (.str "slack_counts", ofOption (ofNames (ofList int)) m.slackCounts), (.str "theta", float m.theta)]

def toJson (m : StoredModel K) : PyValue K := .dict m.entries

/-- `ints(d)` with the values as they are. -/
def ints {α : Type} (f : PyValue K → Except PyError α) (v : PyValue K) : Except PyError (Dict ℤ α) :=
  readDict Key.toInt f v.orEmpty

/-- `theta` has a default; the other keys that may be missing are read with `get`. -/
def readTheta (raw : PyValue K) : Except PyError K := do
  let entries ← raw.items
  (entries.lookup (.str "theta")).elim (.ok (1 / 10)) toFloat

def fromJson (raw : PyValue K) : Except PyError (StoredModel K) := do
  let prefill ← readDict Key.toInt (ints asFloat) (← raw.getItem "prefill")
  let residence ← ints asFloat (← raw.getItem "residence")
  let decode ← ints (readList asFloat) (← raw.getItem "decode")
  let powerPrefill ← ints (readList asFloat) (← raw.getItem "power_prefill")
  let powerDecode ← ints (readList asFloat) (← raw.getItem "power_decode")
  let parkPowerW ← (← raw.getItem "park_power_w").toFloat
  let rhoPrefill ← (← raw.getItem "rho_prefill").toFloat
  let ttftSloMs ← (← raw.getItem "ttft_slo_ms").toFloat
  let tpotSloMs ← (← raw.getItem "tpot_slo_ms").toFloat
  let kvBytesPerToken ← (← raw.getItem "kv_bytes_per_token").toFloat
  let kvGateBytes ← readOption asFloat (← raw.get "kv_gate_bytes")
  let kvCapacityTokens ← readOption asInt (← raw.get "kv_capacity_tokens")
  let bStar ← ints asInt (← raw.get "b_star")
  let promptLimit ← readOption asInt (← raw.get "prompt_limit")
  let caps ← readDict Key.toStr asFloat (← raw.get "caps").orEmpty
  let predictorCoef ← readOption (readList asFloat) (← raw.get "predictor_coef")
  let slackCounts ← readOption (readDict Key.toStr (readList asInt)) (← raw.get "slack_counts")
  let theta ← readTheta raw
  return { prefill, residence, decode, powerPrefill, powerDecode, parkPowerW, rhoPrefill, ttftSloMs, tpotSloMs,
           kvBytesPerToken, kvGateBytes, kvCapacityTokens, bStar, promptLimit, caps, predictorCoef, slackCounts, theta }

/-- A dictionary of clocks, lengths or buckets. -/
def natKeys {α β : Type} (f : α → β) (d : Dict ℤ α) : Dict ℕ β := Dict.ofList (d.items.map fun e => (e.1.toNat, f e.2))

def line (l : List K) : Line K := ⟨l.getD 0 0, l.getD 1 0⟩

/-- A point's cap is looked up under its key, so no other spelling of a point counts. -/
def capsByPoint (caps : Dict String K) : Dict ClockPoint K :=
  Dict.ofList (caps.items.filterMap fun e =>
    ((ClockPoint.fromKey e.1).toOption.filter fun p => p.key = e.1).map fun p => (p, e.2))

/-- The model as the solver reads it. -/
def cluster (m : StoredModel K) : ClusterModel K where
  prefill := natKeys (natKeys fun x => x) m.prefill
  residence := natKeys (fun x => x) m.residence
  decode := natKeys line m.decode
  powerPrefill := natKeys line m.powerPrefill
  powerDecode := natKeys line m.powerDecode
  parkPowerW := m.parkPowerW
  rhoPrefill := m.rhoPrefill
  ttftSloMs := m.ttftSloMs
  tpotSloMs := m.tpotSloMs
  kvBytesPerToken := m.kvBytesPerToken
  kvGateBytes := m.kvGateBytes
  kvCapacityTokens := m.kvCapacityTokens.map Int.toNat
  bStar := natKeys Int.toNat m.bStar
  caps := capsByPoint m.caps
  predictorCoef := m.predictorCoef
  slackCounts := m.slackCounts.map fun counts => Dict.ofList (counts.items.filterMap fun e =>
    (Key.str e.1).toNat.toOption.map fun b => (b, ((e.2.getD 0 0).toNat, (e.2.getD 1 0).toNat)))
  theta := m.theta

end StoredModel

/-! ### Evidence -/

namespace Evidence
open PyValue

/-- `[int(c[0]), int(c[1])]`. -/
def readCell (v : PyValue K) : Except PyError (ℕ × ℕ) :=
  match v with
  | list (a :: b :: _) => do
    let n ← a.toInt
    let k ← b.toInt
    return (n.toNat, k.toNat)
  | list _ => .error .key
  | _ => .error .type

def readCounts (v : PyValue K) : Except PyError (Dict ℕ (ℕ × ℕ)) := readDict Key.toNat readCell v.orEmpty

/-- What the Router reads of `evidence["admission"]`. -/
def readAdmission (v : PyValue K) : Except PyError (AdmissionCalibration K) := do
  let predictorCoef ← readList toFloat (← v.getItem "predictor_coef")
  let slackCounts ← readCounts (← v.get "slack_counts")
  let kvGateFraction ← readTruthy toFloat (← v.get "kv_gate_fraction")
  let pSlotCap ← readOption toInt (← v.get "p_slot_cap")
  let kvGateBins ← readCounts (← v.get "kv_gate_bins")
  let pSlotBins ← readCounts (← v.get "p_slot_bins")
  return { predictorCoef, slackCounts, kvGateFraction, pSlotCap, kvGateBins, pSlotBins }

/-- The MAX table of older tier tables, where there is no other. -/
def readOld (tables : Dict ℕ (Dict ℕ K)) (old : PyValue K) : Except PyError (Dict ℕ K) :=
  if tables.items = [] then readDict Key.toNat toFloat old.orEmpty else .ok ∅

/-- The evidence as the Router, the solver and the Canary read it. -/
def read (v : PyValue K) : Except PyError (Evidence K) := do
  let prefillMsByClock ← readDict Key.toNat (readDict Key.toNat toFloat) (← v.get "prefill_ms_by_clock").orEmpty
  let old ← (← v.get "alpha_fit").orEmpty.get "prefill_ms_by_length"
  let prefillMsByLength ← readOld prefillMsByClock old
  let idleTtftMs ← readDict Key.toNat toFloat (← v.get "idle_ttft_ms").orEmpty
  let admission ← readTruthy readAdmission (← v.get "admission")
  let model ← readOption StoredModel.fromJson (← v.get "model")
  let capacityRps ← readOption asFloat (← v.get "capacity_rps")
  return { prefillMsByClock, prefillMsByLength, idleTtftMs, admission, model := model.map StoredModel.cluster, capacityRps }

end Evidence

/-! ### Tier table -/

/-- The tier table as the dataclass holds it: apart from its clock points no field is converted. -/
structure StoredTable (K : Type) where
  park : ClockPoint
  h : ClockPoint
  capacityH : PyValue K
  alphaTokens : PyValue K
  l : Option ClockPoint
  capacityL : PyValue K
  tauUp : PyValue K
  tauDown : PyValue K
  decodeMaxRunning : PyValue K
  decodeKvLimit : PyValue K
  decodeWall : PyValue K
  decodeLength : PyValue K
  decodeKvTokens : PyValue K
  publishedAt : PyValue K
  evidence : PyValue K

namespace StoredTable
open PyValue

def entries (t : StoredTable K) : List (Key × PyValue K) :=
  [(.str "park", .str t.park.key), (.str "h", .str t.h.key), (.str "capacity_h", t.capacityH),
    (.str "alpha_tokens", t.alphaTokens), (.str "l", ofOption (fun p => .str p.key) t.l), (.str "capacity_l", t.capacityL),
    (.str "tau_up", t.tauUp), (.str "tau_down", t.tauDown), (.str "decode_max_running", t.decodeMaxRunning),
    (.str "decode_kv_limit", t.decodeKvLimit), (.str "decode_wall", t.decodeWall), (.str "decode_length", t.decodeLength),
    (.str "decode_kv_tokens", t.decodeKvTokens), (.str "published_at", t.publishedAt), (.str "evidence", t.evidence)]

def toJson (t : StoredTable K) : PyValue K := .dict t.entries

def fieldNames : List String :=
  ["park", "h", "capacity_h", "alpha_tokens", "l", "capacity_l", "tau_up", "tau_down", "decode_max_running",
    "decode_kv_limit", "decode_wall", "decode_length", "decode_kv_tokens", "published_at", "evidence"]

/-- A clock point that may be missing. -/
def readPoint (v : PyValue K) : Except PyError (Option ClockPoint) :=
  match v with
  | .none => .ok Option.none
  | .str key => some <$> ClockPoint.fromKey key
  | _ => .error .attribute

/-- A keyword argument of the constructor. -/
def argument (raw : PyValue K) (name : String) (default : Option (PyValue K)) : Except PyError (PyValue K) := do
  let entries ← raw.items
  match entries.lookup (.str name), default with
  | some v, _ => .ok v
  | Option.none, some v => .ok v
  | Option.none, Option.none => .error .type

/-- `cls(**values)`: no other key may be there, and `park` and `h` are needed. -/
def checkArguments (raw : PyValue K) (park h : Option ClockPoint) : Except PyError (ClockPoint × ClockPoint) := do
  let entries ← raw.items
  match park, h with
  | some park, some h =>
    if entries.all fun e => fieldNames.any fun name => e.1 = .str name then .ok (park, h) else .error .type
  | _, _ => .error .type

def fromJson (raw : PyValue K) : Except PyError (StoredTable K) := do
  let park ← readPoint (← raw.get "park")
  let h ← readPoint (← raw.get "h")
  let l ← readPoint (← raw.get "l")
  let (park, h) ← checkArguments raw park h
  let capacityH ← argument raw "capacity_h" Option.none
  let alphaTokens ← argument raw "alpha_tokens" Option.none
  let capacityL ← argument raw "capacity_l" (some .none)
  let tauUp ← argument raw "tau_up" (some .none)
  let tauDown ← argument raw "tau_down" (some .none)
  let decodeMaxRunning ← argument raw "decode_max_running" (some .none)
  let decodeKvLimit ← argument raw "decode_kv_limit" (some .none)
  let decodeWall ← argument raw "decode_wall" (some (.bool true))
  let decodeLength ← argument raw "decode_length" (some .none)
  let decodeKvTokens ← argument raw "decode_kv_tokens" (some .none)
  let publishedAt ← argument raw "published_at" (some (.float 0))
  let evidence ← argument raw "evidence" (some (.dict []))
  return { park, h, capacityH, alphaTokens, l, capacityL, tauUp, tauDown, decodeMaxRunning, decodeKvLimit, decodeWall,
           decodeLength, decodeKvTokens, publishedAt, evidence }

/-- `decode_coef(table.decode_length, mhz)`: the keys are read as integers and looked up as strings. -/
def decodeCoef (t : StoredTable K) (mhz : ℕ) : Except PyError (Option (List K)) :=
  if !t.decodeLength.truthy then .ok Option.none
  else do
    let entries ← t.decodeLength.items
    let clocks ← entries.mapM fun e => e.1.toInt
    let clock := (((clocks.filter (· ≤ (mhz : ℤ))).max?).or clocks.min?).getD 0
    let coef ← t.decodeLength.getItem clock.repr
    some <$> readList toFloat coef

/-- Coefficients of the length model. -/
def readCoef (v : PyValue K) : Except PyError (DecodeCoef K) := do
  match ← readList toFloat v with
  | [alpha, beta, gamma, r95] => return { alpha, beta, gamma, r95 }
  | _ => .error .value

/-- The table as the Router and the Controller read it. -/
def read (t : StoredTable K) : Except PyError (TierTable K) := do
  let capacityH ← t.capacityH.toFloat
  let alphaTokens ← t.alphaTokens.toFloat
  let decodeMaxRunning ← readOption asInt t.decodeMaxRunning
  let decodeKvLimit ← readOption asFloat t.decodeKvLimit
  let decodeLength ← readOption (readDict Key.toNat readCoef) t.decodeLength
  let decodeKvTokens ← readOption asInt t.decodeKvTokens
  let publishedAt ← t.publishedAt.toFloat
  let evidence ← Evidence.read t.evidence
  return { park := t.park, h := t.h, capacityH, alphaTokens, l := t.l, decodeMaxRunning, decodeKvLimit, decodeLength,
           decodeKvTokens := decodeKvTokens.map Int.toNat, publishedAt, evidence }

end StoredTable
end CanaTune
