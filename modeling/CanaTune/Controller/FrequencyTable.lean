import CanaTune.Lib.Json

/-! The table of the best frequency decision of every workload, kept in memory and in one JSON file. -/

namespace CanaTune
variable {K : Type} [Scalar K]

inductive Workload
  | smallLight
  | prefillMedium
  | prefillHeavy
  | decodeMedium
  | decodeHeavy
  | balancedMedium
  | bothHeavy
  deriving DecidableEq

namespace Workload

def id : Workload → String
  | smallLight => "small_light"
  | prefillMedium => "prefill_medium"
  | prefillHeavy => "prefill_heavy"
  | decodeMedium => "decode_medium"
  | decodeHeavy => "decode_heavy"
  | balancedMedium => "balanced_medium"
  | bothHeavy => "both_heavy"

def all : List Workload :=
  [smallLight, prefillMedium, prefillHeavy, decodeMedium, decodeHeavy, balancedMedium, bothHeavy]

def ofId (key : String) : Option Workload := all.find? fun w => w.id = key

/-- One entry for every workload, built in table order; the first failure ends the loop. -/
def forEach {ε α : Type} (f : Workload → Except ε α) : Except ε (Workload → α) := do
  let a ← f smallLight
  let b ← f prefillMedium
  let c ← f prefillHeavy
  let d ← f decodeMedium
  let e ← f decodeHeavy
  let g ← f balancedMedium
  let h ← f bothHeavy
  return fun
    | smallLight => a
    | prefillMedium => b
    | prefillHeavy => c
    | decodeMedium => d
    | decodeHeavy => e
    | balancedMedium => g
    | bothHeavy => h

end Workload

/-- The steps that write the file; any of them may raise. -/
inductive PersistStep
  | mkdir
  | create
  | dump
  | newline
  | flush
  | fsync
  | close
  | replace
  deriving DecidableEq

inductive TableError
  | invalid (message : String)
  | conflict (message : String)
  | key (workloadId : String)
  | type
  | persist (step : PersistStep)
  deriving DecidableEq

/-- `FALLBACK_SOURCES`. -/
def fallbackSources : List String := ["safe_high_after_slo_exhausted", "safe_high_after_measurement_exhausted"]

/-- `_VALUE_FIELDS`. -/
def valueFields : List String :=
  ["prefill_frequency_mhz", "decode_frequency_mhz", "measured_power_w", "measured_energy_j", "ttft_ms", "tpot_ms",
    "prefill_endpoint_id", "decode_endpoint_id", "sample_count", "updated_unix_s", "source", "slo_met", "fallback_reason"]

/-- `set(fields) == set(names)`. -/
def keysAre (fields : List (String × Json K)) (names : List String) : Bool :=
  (fields.all fun e => names.contains e.1) && names.all fun name => (fields.lookup name).isSome

/-- The whitespace of `str.strip`. -/
def isPySpace (c : Char) : Bool :=
  let n := c.toNat
  (9 ≤ n && n ≤ 13) || (28 ≤ n && n ≤ 32) || n == 0x85 || n == 0xa0 || n == 0x1680 || (0x2000 ≤ n && n ≤ 0x200a) ||
    n == 0x2028 || n == 0x2029 || n == 0x202f || n == 0x205f || n == 0x3000

/-- `not text.strip()`. -/
def isBlank (text : String) : Bool := text.toList.all isPySpace

/-- The smallest integer whose conversion to a float overflows. -/
def floatOverflow : ℕ := 2 ^ 1024 - 2 ^ 970

def integer (value : Json K) (name : String) (minimum : ℤ) : Except TableError ℤ :=
  match value with
  | .int z => if z < minimum then .error (.invalid s!"{name} must be an integer >= {minimum}") else .ok z
  | _ => .error (.invalid s!"{name} must be an integer >= {minimum}")

/-- The bound of a finite number. -/
def bounded (x : K) (name : String) (minimum : ℤ) (strict : Bool) : Except TableError K :=
  if (if strict then x ≤ minimum else x < minimum) then
    .error (.invalid (name ++ " must be finite and " ++ (if strict then ">" else ">=") ++ s!" {minimum}"))
  else .ok x

def number (value : Json K) (name : String) (minimum : ℤ) (strict : Bool) : Except TableError K :=
  match value with
  | .int z =>
    if floatOverflow ≤ z.natAbs then .error (.invalid s!"{name} must be a finite number")
    else bounded (z : K) name minimum strict
  | .float x => bounded x name minimum strict
  | .special _ => .error (.invalid (name ++ " must be finite and " ++ (if strict then ">" else ">=") ++ s!" {minimum}"))
  | _ => .error (.invalid s!"{name} must be a finite number")

def optionalNumber (value : Json K) (name : String) (minimum : ℤ) (strict : Bool) : Except TableError (Option K) :=
  if value.isNull then .ok none else some <$> number value name minimum strict

/-- One confirmed measurement, or a fallback marked as safe and high. -/
structure FrequencyDecision (K : Type) where
  prefillFrequencyMhz : ℤ
  decodeFrequencyMhz : ℤ
  measuredPowerW : Option K
  measuredEnergyJ : Option K
  ttftMs : Option K
  tpotMs : Option K
  prefillEndpointId : String
  decodeEndpointId : String
  sampleCount : ℤ
  updatedUnixS : K
  source : String
  sloMet : Bool
  fallbackReason : Option String
  deriving DecidableEq

namespace FrequencyDecision

def ttftSloMs : K := 500

def tpotSloMs : K := 200

def metrics (d : FrequencyDecision K) : List (Option K) := [d.measuredPowerW, d.measuredEnergyJ, d.ttftMs, d.tpotMs]

/-- What the two kinds of a decision ask of the fields together. -/
def validateKind (d : FrequencyDecision K) : Except TableError Unit :=
  if d.sloMet then
    if fallbackSources.contains d.source then .error (.invalid "a measured decision cannot use a fallback source")
    else if d.sampleCount = 0 ∨ d.metrics.any Option.isNone then
      .error (.invalid "a measured decision requires samples and all metrics")
    else if d.fallbackReason.isSome then .error (.invalid "a measured decision must not have a fallback reason")
    else if (d.ttftMs.any fun x => ttftSloMs ≤ x) ∨ (d.tpotMs.any fun x => tpotSloMs < x) then
      .error (.invalid "measured decision exceeds the TTFT or TPOT SLO")
    else .ok ()
  else if !fallbackSources.contains d.source ∨ d.sampleCount ≠ 0 ∨ d.metrics.any Option.isSome ∨
      d.fallbackReason.all isBlank then
    .error (.invalid "invalid safe-high fallback decision")
  else .ok ()

end FrequencyDecision

/-- The record as a caller may build it: every field as given, whatever its type. -/
structure RawDecision (K : Type) where
  prefillFrequencyMhz : Json K
  decodeFrequencyMhz : Json K
  measuredPowerW : Json K
  measuredEnergyJ : Json K
  ttftMs : Json K
  tpotMs : Json K
  prefillEndpointId : Json K
  decodeEndpointId : Json K
  sampleCount : Json K
  updatedUnixS : Json K
  source : Json K
  sloMet : Json K
  fallbackReason : Json K

namespace RawDecision

/-- The fields of `dataclasses.asdict`. -/
def fields (d : RawDecision K) : List (String × Json K) :=
  [("prefill_frequency_mhz", d.prefillFrequencyMhz), ("decode_frequency_mhz", d.decodeFrequencyMhz),
    ("measured_power_w", d.measuredPowerW), ("measured_energy_j", d.measuredEnergyJ), ("ttft_ms", d.ttftMs),
    ("tpot_ms", d.tpotMs), ("prefill_endpoint_id", d.prefillEndpointId), ("decode_endpoint_id", d.decodeEndpointId),
    ("sample_count", d.sampleCount), ("updated_unix_s", d.updatedUnixS), ("source", d.source), ("slo_met", d.sloMet),
    ("fallback_reason", d.fallbackReason)]

def asdict (d : RawDecision K) : Json K := .obj d.fields

def validEndpoints (d : RawDecision K) : Except TableError (String × String) :=
  match d.prefillEndpointId.str?, d.decodeEndpointId.str? with
  | some "P0", some "D0" => .ok ("P0", "D0")
  | _, _ => .error (.invalid "v1 evidence must come from Canary pair P0-D0")

def validSource (d : RawDecision K) : Except TableError String :=
  match d.source.str? with
  | some source => if isBlank source then .error (.invalid "source must be a nonempty string") else .ok source
  | none => .error (.invalid "source must be a nonempty string")

def validSloMet (d : RawDecision K) : Except TableError Bool :=
  match d.sloMet.bool? with
  | some sloMet => .ok sloMet
  | none => .error (.invalid "slo_met must be a boolean")

def validFallbackReason (d : RawDecision K) : Except TableError (Option String) :=
  if d.fallbackReason.isNull then .ok none
  else
    match d.fallbackReason.str? with
    | some reason => .ok (some reason)
    | none => .error (.invalid "fallback_reason must be a string or null")

/-- The record with every field of its type, when it passes. -/
def validate (d : RawDecision K) : Except TableError (FrequencyDecision K) := do
  let prefillFrequencyMhz ← integer d.prefillFrequencyMhz "prefill_frequency_mhz" 1
  let decodeFrequencyMhz ← integer d.decodeFrequencyMhz "decode_frequency_mhz" 1
  let sampleCount ← integer d.sampleCount "sample_count" 0
  let updatedUnixS ← number d.updatedUnixS "updated_unix_s" 0 true
  let (prefillEndpointId, decodeEndpointId) ← d.validEndpoints
  let source ← d.validSource
  let sloMet ← d.validSloMet
  let fallbackReason ← d.validFallbackReason
  let measuredPowerW ← optionalNumber d.measuredPowerW "measured_power_w" 0 true
  let measuredEnergyJ ← optionalNumber d.measuredEnergyJ "measured_energy_j" 0 true
  let ttftMs ← optionalNumber d.ttftMs "ttft_ms" 0 false
  let tpotMs ← optionalNumber d.tpotMs "tpot_ms" 0 false
  let value : FrequencyDecision K :=
    { prefillFrequencyMhz, decodeFrequencyMhz, measuredPowerW, measuredEnergyJ, ttftMs, tpotMs, prefillEndpointId,
      decodeEndpointId, sampleCount, updatedUnixS, source, sloMet, fallbackReason }
  value.validateKind
  return value

end RawDecision

namespace FrequencyDecision

/-- The record of a decision. -/
def raw (d : FrequencyDecision K) : RawDecision K where
  prefillFrequencyMhz := .int d.prefillFrequencyMhz
  decodeFrequencyMhz := .int d.decodeFrequencyMhz
  measuredPowerW := d.measuredPowerW.elim .null .float
  measuredEnergyJ := d.measuredEnergyJ.elim .null .float
  ttftMs := d.ttftMs.elim .null .float
  tpotMs := d.tpotMs.elim .null .float
  prefillEndpointId := .str d.prefillEndpointId
  decodeEndpointId := .str d.decodeEndpointId
  sampleCount := .int d.sampleCount
  updatedUnixS := .float d.updatedUnixS
  source := .str d.source
  sloMet := .bool d.sloMet
  fallbackReason := d.fallbackReason.elim .null .str

/-- The numbers are read in the order of the fields; the other fields are taken as they are and left to `validate`. -/
def fromMapping (raw : Json K) : Except TableError (FrequencyDecision K) :=
  match raw.fields? with
  | none => .error (.invalid "decision must contain exactly the v1 decision fields")
  | some fields =>
    if !keysAre fields valueFields then .error (.invalid "decision must contain exactly the v1 decision fields")
    else do
      let prefillFrequencyMhz ← integer (getField fields "prefill_frequency_mhz") "prefill_frequency_mhz" 1
      let decodeFrequencyMhz ← integer (getField fields "decode_frequency_mhz") "decode_frequency_mhz" 1
      let measuredPowerW ← optionalNumber (getField fields "measured_power_w") "measured_power_w" 0 true
      let measuredEnergyJ ← optionalNumber (getField fields "measured_energy_j") "measured_energy_j" 0 true
      let ttftMs ← optionalNumber (getField fields "ttft_ms") "ttft_ms" 0 false
      let tpotMs ← optionalNumber (getField fields "tpot_ms") "tpot_ms" 0 false
      let sampleCount ← integer (getField fields "sample_count") "sample_count" 0
      let updatedUnixS ← number (getField fields "updated_unix_s") "updated_unix_s" 0 true
      let value : RawDecision K :=
        { prefillFrequencyMhz := .int prefillFrequencyMhz
          decodeFrequencyMhz := .int decodeFrequencyMhz
          measuredPowerW := measuredPowerW.elim .null .float
          measuredEnergyJ := measuredEnergyJ.elim .null .float
          ttftMs := ttftMs.elim .null .float
          tpotMs := tpotMs.elim .null .float
          prefillEndpointId := getField fields "prefill_endpoint_id"
          decodeEndpointId := getField fields "decode_endpoint_id"
          sampleCount := .int sampleCount
          updatedUnixS := .float updatedUnixS
          source := getField fields "source"
          sloMet := getField fields "slo_met"
          fallbackReason := getField fields "fallback_reason" }
      value.validate

end FrequencyDecision

structure FrequencyTableEntry (K : Type) where
  workloadId : String
  revision : ℕ
  value : Option (FrequencyDecision K)
  deriving DecidableEq

namespace FrequencyTableEntry

def fields (e : FrequencyTableEntry K) : List (String × Json K) :=
  [("workload_id", .str e.workloadId), ("revision", .int e.revision),
    ("value", e.value.elim .null fun value => value.raw.asdict)]

def asDict (e : FrequencyTableEntry K) : Json K := .obj e.fields

end FrequencyTableEntry

/-- The entries of the seven workloads. -/
abbrev Entries (K : Type) := Workload → FrequencyTableEntry K

def schemaVersion : ℤ := 1

/-- The entries of a document, in table order. -/
def entryFields (entries : Entries K) : List (String × Json K) := Workload.all.map fun w => (w.id, (entries w).asDict)

def documentLocked (entries : Entries K) : Json K :=
  .obj [("schema_version", .int schemaVersion), ("entries", .obj (entryFields entries))]

/-- What a file holds: a JSON document, or text that cannot be read as one. -/
inductive Content (K : Type)
  | broken
  | document (doc : Json K)

/-- The directory of the table: the file at its path, and the temporary file of a write that is under way. -/
structure Disk (K : Type) where
  file : Option (Content K)
  temporary : Option (Content K)

/-- One entry of a document. -/
def loadEntry (raws : List (String × Json K)) (w : Workload) : Except TableError (FrequencyTableEntry K) :=
  match (getField raws w.id).fields? with
  | none => .error (.invalid s!"invalid entry for {w.id}")
  | some raw =>
    if !keysAre raw ["workload_id", "revision", "value"] then .error (.invalid s!"invalid entry for {w.id}")
    else if (getField raw "workload_id").str? ≠ some w.id then
      .error (.invalid s!"entry workload_id mismatch for {w.id}")
    else do
      let revision ← integer (getField raw "revision") (w.id ++ ".revision") 0
      let rawValue := getField raw "value"
      if ¬(revision = 0 ↔ rawValue.isNull = true) then
        .error (.invalid s!"entry revision/value mismatch for {w.id}")
      else if rawValue.isNull then .ok ⟨w.id, revision.toNat, none⟩
      else do
        let value ← FrequencyDecision.fromMapping rawValue
        return ⟨w.id, revision.toNat, some value⟩

def load (path : String) (content : Content K) : Except TableError (Entries K) :=
  match content with
  | .broken => .error (.invalid s!"cannot load frequency table: {path}")
  | .document doc =>
    match doc.fields? with
    | none => .error (.invalid "invalid frequency table document")
    | some document =>
      if !keysAre document ["schema_version", "entries"] then
        .error (.invalid "invalid frequency table document")
      else
        match getField document "schema_version" with
        | .int version =>
          if version ≠ schemaVersion then .error (.invalid "unsupported frequency table schema version")
          else
            match (getField document "entries").fields? with
            | none => .error (.invalid "frequency table must contain the seven v1 workloads")
            | some raws =>
              if !keysAre raws (Workload.all.map Workload.id) then
                .error (.invalid "frequency table must contain the seven v1 workloads")
              else Workload.forEach (loadEntry raws)
        | _ => .error (.invalid "unsupported frequency table schema version")

namespace PersistStep

/-- The steps in the order of `_persist_locked`. -/
def all : List PersistStep := [mkdir, create, dump, newline, flush, fsync, close, replace]

/-- What a step leaves on the disk; the text is complete once it is flushed. -/
def apply (doc : Json K) (disk : Disk K) : PersistStep → Disk K
  | mkdir => disk
  | create => { disk with temporary := some .broken }
  | dump => { disk with temporary := some .broken }
  | newline => { disk with temporary := some .broken }
  | flush => { disk with temporary := some (.document doc) }
  | fsync => disk
  | close => disk
  | replace => { file := disk.temporary, temporary := none }

/-- The steps up to the one that raises, if any does. -/
def run (doc : Json K) (fault : Option PersistStep) : List PersistStep → Disk K → Option PersistStep × Disk K
  | [], disk => (none, disk)
  | step :: rest, disk => if fault = some step then (some step, disk) else run doc fault rest (step.apply doc disk)

end PersistStep

/-- `_persist_locked` with the step that raises; whatever happens, the temporary file is removed. -/
def persistLocked (doc : Json K) (fault : Option PersistStep) (disk : Disk K) : Option PersistStep × Disk K :=
  let (raised, disk) := PersistStep.run doc fault PersistStep.all disk
  (raised, { disk with temporary := none })

/-- The table object and the disk it owns. -/
structure WorkloadFrequencyTable (K : Type) where
  path : String
  entries : Entries K
  disk : Disk K

/-- The value of a write: a decision record, or any mapping. -/
inductive Update (K : Type)
  | decision (record : RawDecision K)
  | mapping (raw : Json K)

def Update.rawValue : Update K → Json K
  | .decision record => record.asdict
  | .mapping raw => raw

/-- One call of `write`, with the step of its persist that raises, if any does. -/
structure WriteCall (K : Type) where
  workloadId : String
  value : Update K
  expectedRevision : Json K
  fault : Option PersistStep

/-- The checks before the lock: the candidate, and the revision the call expects. -/
def WriteCall.check (c : WriteCall K) : Except TableError (FrequencyDecision K × Option ℤ) := do
  let candidate ← FrequencyDecision.fromMapping c.value.rawValue
  if c.expectedRevision.isNull then .ok (candidate, none)
  else do
    let expected ← integer c.expectedRevision "expected_revision" 0
    return (candidate, some expected)

/-- A measured value yields to a measured candidate of strictly lower energy only. -/
def FrequencyDecision.yields (current candidate : FrequencyDecision K) : Except TableError Bool :=
  if current.sloMet then
    if !candidate.sloMet then .ok false
    else
      match candidate.measuredEnergyJ, current.measuredEnergyJ with
      | some a, some b => .ok (a < b)
      | _, _ => .error .type
  else .ok true

namespace WorkloadFrequencyTable

/-- A new table at a path: an existing file is loaded, a missing one is written. -/
def «open» (path : String) (disk : Disk K) (fault : Option PersistStep) : Except TableError (WorkloadFrequencyTable K) :=
  match disk.file with
  | some content => do
    let entries ← load path content
    return ⟨path, entries, disk⟩
  | none =>
    let entries : Entries K := fun w => ⟨w.id, 0, none⟩
    match persistLocked (documentLocked entries) fault disk with
    | (some step, _) => .error (.persist step)
    | (none, disk) => .ok ⟨path, entries, disk⟩

/-- The critical section of `write`. -/
def publish (t : WorkloadFrequencyTable K) (c : WriteCall K) (candidate : FrequencyDecision K) (expected : Option ℤ) :
    Except TableError (FrequencyTableEntry K) × WorkloadFrequencyTable K :=
  match Workload.ofId c.workloadId with
  | none => (.error (.key c.workloadId), t)
  | some w =>
    let current := t.entries w
    if expected.any fun revision => decide ((current.revision : ℤ) ≠ revision) then
      (.error (.conflict (s!"revision conflict for {c.workloadId}: " ++
        s!"expected {expected.getD 0}, actual {current.revision}")), t)
    else if current.value = some candidate then (.ok current, t)
    else
      match current.value.elim (.ok true) fun value => value.yields candidate with
      | .error e => (.error e, t)
      | .ok false => (.ok current, t)
      | .ok true =>
        let updated : FrequencyTableEntry K := ⟨c.workloadId, current.revision + 1, some candidate⟩
        let entries := Function.update t.entries w updated
        match persistLocked (documentLocked entries) c.fault t.disk with
        | (some step, disk) => (.error (.persist step), { t with entries := Function.update entries w current, disk })
        | (none, disk) => (.ok updated, { t with entries, disk })

/-- Validate and publish a decision; nothing happens when it cannot improve the existing one. -/
def write (t : WorkloadFrequencyTable K) (c : WriteCall K) :
    Except TableError (FrequencyTableEntry K) × WorkloadFrequencyTable K :=
  match c.check with
  | .error e => (.error e, t)
  | .ok (candidate, expected) => t.publish c candidate expected

/-- The table after a sequence of calls, in the order in which they took the lock. -/
def run (t : WorkloadFrequencyTable K) (calls : List (WriteCall K)) : WorkloadFrequencyTable K :=
  calls.foldl (fun t c => (t.write c).2) t

end WorkloadFrequencyTable
end CanaTune
