import CanaTune.Controller.FrequencyTable

/-! What the frequency table writes it reads back: decisions, entries and the whole document. -/

namespace CanaTune
variable {K : Type} [Scalar K]

/-! ### Fields -/

omit [Scalar K] in
theorem integer_ok {v : Json K} {name : String} {minimum z : ℤ} :
    integer v name minimum = .ok z ↔ v = .int z ∧ minimum ≤ z := by
  cases v with
  | int y =>
    simp only [integer, Json.int.injEq]
    split
    · simp only [reduceCtorEq, false_iff]
      rintro ⟨rfl, h⟩
      omega
    · simp only [Except.ok.injEq]
      constructor
      · rintro rfl
        exact ⟨rfl, by omega⟩
      · exact fun h => h.1
  | _ => simp [integer]

theorem bounded_ok {x y : K} {name : String} {minimum : ℤ} {strict : Bool} (h : bounded x name minimum strict = .ok y) :
    y = x := by
  unfold bounded at h
  by_cases hx : if strict then x ≤ minimum else x < minimum
  · rw [if_pos hx] at h
    cases h
  · rw [if_neg hx] at h
    exact (Except.ok.inj h).symm

/-- A number that was read reads back from the float it became. -/
theorem number_ok {v : Json K} {name : String} {minimum : ℤ} {strict : Bool} {x : K}
    (h : number v name minimum strict = .ok x) : v.Same (.float x) ∧ number (.float x) name minimum strict = .ok x := by
  cases v with
  | int z =>
    simp only [number] at h
    split at h
    · cases h
    · obtain rfl := bounded_ok h
      exact ⟨.number z, h⟩
  | float y =>
    simp only [number] at h
    obtain rfl := bounded_ok h
    exact ⟨.refl _, h⟩
  | _ => simp [number] at h

theorem optionalNumber_ok {v : Json K} {name : String} {minimum : ℤ} {strict : Bool} {o : Option K}
    (h : optionalNumber v name minimum strict = .ok o) :
    v.Same (o.elim .null .float) ∧ optionalNumber (o.elim .null .float) name minimum strict = .ok o := by
  unfold optionalNumber at h
  split at h
  case isTrue hnull =>
    obtain rfl := (Except.ok.inj h).symm
    cases v with
    | null => exact ⟨.refl _, rfl⟩
    | _ => cases hnull
  case isFalse =>
    cases hx : number v name minimum strict with
    | error e => simp [hx] at h
    | ok x =>
      rw [hx] at h
      obtain rfl := (Except.ok.inj h).symm
      obtain ⟨hsame, hback⟩ := number_ok hx
      refine ⟨hsame, ?_⟩
      simp [optionalNumber, Json.isNull, hback]

omit [Scalar K] in
theorem keysAre_iff {fields : List (String × Json K)} {names : List String} :
    keysAre fields names = true ↔ ∀ key, (fields.lookup key).isSome = true ↔ key ∈ names := by
  have hmem : ∀ key, (fields.lookup key).isSome = true ↔ ∃ e ∈ fields, e.1 = key := by
    intro key
    rw [← Option.ne_none_iff_isSome, Ne, List.lookup_eq_none_iff]
    simp only [not_forall, bne_iff_ne, ne_eq, not_not, exists_prop]
    constructor <;> rintro ⟨e, he, h⟩ <;> exact ⟨e, he, h.symm⟩
  simp only [keysAre, Bool.and_eq_true, List.all_eq_true, List.contains_iff_mem]
  constructor
  · rintro ⟨hin, hall⟩ key
    refine ⟨fun h => ?_, hall key⟩
    obtain ⟨e, he, rfl⟩ := (hmem key).mp h
    exact hin e he
  · intro h
    exact ⟨fun e he => (h e.1).mp ((hmem e.1).mpr ⟨e, he, rfl⟩), fun name => (h name).mpr⟩

/-- Two objects with the same keys are the same when their fields are. -/
theorem same_obj {fs gs : List (String × Json K)} {names : List String} (hf : keysAre fs names = true)
    (hg : keysAre gs names = true) (h : ∀ name ∈ names, (getField fs name).Same (getField gs name)) :
    (Json.obj fs).Same (.obj gs) := by
  rw [keysAre_iff] at hf hg
  refine .obj (fun key => ?_) fun key v w hv hw => ?_
  · rw [Bool.eq_iff_iff, hf, hg]
  · have := h key ((hf key).mp (by rw [hv]; rfl))
    rwa [getField, getField, hv, hw] at this

/-- Every field of a record, read on its own; the fields together pass for their kind. -/
structure RawDecision.Reads (d : RawDecision K) (value : FrequencyDecision K) : Prop where
  prefillFrequencyMhz : integer d.prefillFrequencyMhz "prefill_frequency_mhz" 1 = .ok value.prefillFrequencyMhz
  decodeFrequencyMhz : integer d.decodeFrequencyMhz "decode_frequency_mhz" 1 = .ok value.decodeFrequencyMhz
  sampleCount : integer d.sampleCount "sample_count" 0 = .ok value.sampleCount
  updatedUnixS : number d.updatedUnixS "updated_unix_s" 0 true = .ok value.updatedUnixS
  endpoints : d.validEndpoints = .ok (value.prefillEndpointId, value.decodeEndpointId)
  source : d.validSource = .ok value.source
  sloMet : d.validSloMet = .ok value.sloMet
  fallbackReason : d.validFallbackReason = .ok value.fallbackReason
  measuredPowerW : optionalNumber d.measuredPowerW "measured_power_w" 0 true = .ok value.measuredPowerW
  measuredEnergyJ : optionalNumber d.measuredEnergyJ "measured_energy_j" 0 true = .ok value.measuredEnergyJ
  ttftMs : optionalNumber d.ttftMs "ttft_ms" 0 false = .ok value.ttftMs
  tpotMs : optionalNumber d.tpotMs "tpot_ms" 0 false = .ok value.tpotMs
  kind : value.validateKind = .ok ()

namespace RawDecision
variable {d : RawDecision K} {value : FrequencyDecision K}

theorem reads_of_validate (h : d.validate = .ok value) : d.Reads value := by
  simp only [validate, bind_eq_ok] at h
  obtain ⟨p, hp, f, hf, n, hn, u, hu, ⟨a, b⟩, he, s, hs, m, hm, r, hr, w, hw, j, hj, t, ht, o, ho, ⟨⟩, hk, h⟩ := h
  obtain rfl := Except.ok.inj h
  exact ⟨hp, hf, hn, hu, he, hs, hm, hr, hw, hj, ht, ho, hk⟩

theorem Reads.validate (h : d.Reads value) : d.validate = .ok value := by
  simp only [RawDecision.validate, h.prefillFrequencyMhz, h.decodeFrequencyMhz, h.sampleCount, h.updatedUnixS, h.endpoints,
    h.source, h.sloMet, h.fallbackReason, h.measuredPowerW, h.measuredEnergyJ, h.ttftMs, h.tpotMs, bind, Except.bind]
  rw [h.kind]
  rfl

omit [Scalar K] in
theorem validEndpoints_ok {a b : String} (h : d.validEndpoints = .ok (a, b)) :
    d.prefillEndpointId = .str a ∧ d.decodeEndpointId = .str b ∧ a = "P0" ∧ b = "D0" := by
  unfold validEndpoints at h
  split at h
  case h_1 hp hd =>
    obtain ⟨rfl, rfl⟩ := Prod.mk.inj (Except.ok.inj h)
    refine ⟨?_, ?_, rfl, rfl⟩
    · cases hv : d.prefillEndpointId <;> simp [hv, Json.str?] at hp
      rw [hp]
    · cases hv : d.decodeEndpointId <;> simp [hv, Json.str?] at hd
      rw [hd]
  case h_2 => cases h

omit [Scalar K] in
theorem validSource_ok {source : String} (h : d.validSource = .ok source) :
    d.source = .str source ∧ isBlank source = false := by
  unfold validSource at h
  cases hv : d.source with
  | str s =>
    simp only [hv, Json.str?] at h
    split at h
    · cases h
    · obtain rfl := Except.ok.inj h
      simp_all
  | _ => simp [hv, Json.str?] at h

omit [Scalar K] in
theorem validSloMet_ok {sloMet : Bool} (h : d.validSloMet = .ok sloMet) : d.sloMet = .bool sloMet := by
  unfold validSloMet at h
  cases hv : d.sloMet with
  | bool b =>
    simp only [hv, Json.bool?] at h
    rw [Except.ok.inj h]
  | _ => simp [hv, Json.bool?] at h

omit [Scalar K] in
theorem validFallbackReason_ok {reason : Option String} (h : d.validFallbackReason = .ok reason) :
    d.fallbackReason = reason.elim .null .str := by
  unfold validFallbackReason at h
  cases hv : d.fallbackReason with
  | null =>
    simp only [hv, Json.isNull, if_true] at h
    obtain rfl := Except.ok.inj h
    rfl
  | str s =>
    simp only [hv, Json.isNull, Json.str?] at h
    obtain rfl := Except.ok.inj h
    rfl
  | _ => simp [hv, Json.isNull, Json.str?] at h

/-- What passes once passes again as the record of the decision. -/
theorem Reads.raw (h : d.Reads value) : value.raw.Reads value where
  prefillFrequencyMhz := integer_ok.mpr ⟨rfl, (integer_ok.mp h.prefillFrequencyMhz).2⟩
  decodeFrequencyMhz := integer_ok.mpr ⟨rfl, (integer_ok.mp h.decodeFrequencyMhz).2⟩
  sampleCount := integer_ok.mpr ⟨rfl, (integer_ok.mp h.sampleCount).2⟩
  updatedUnixS := (number_ok h.updatedUnixS).2
  endpoints := by
    obtain ⟨-, -, ha, hb⟩ := validEndpoints_ok h.endpoints
    simp [validEndpoints, FrequencyDecision.raw, Json.str?, ha, hb]
  source := by
    obtain ⟨-, hs⟩ := validSource_ok h.source
    simp [validSource, FrequencyDecision.raw, Json.str?, hs]
  sloMet := rfl
  fallbackReason := by
    cases hr : value.fallbackReason <;> simp [validFallbackReason, FrequencyDecision.raw, hr, Json.isNull, Json.str?]
  measuredPowerW := (optionalNumber_ok h.measuredPowerW).2
  measuredEnergyJ := (optionalNumber_ok h.measuredEnergyJ).2
  ttftMs := (optionalNumber_ok h.ttftMs).2
  tpotMs := (optionalNumber_ok h.tpotMs).2
  kind := h.kind

omit [Scalar K] in
theorem keysAre_fields (d : RawDecision K) : keysAre d.fields valueFields = true := by
  simp [keysAre, fields, valueFields]

end RawDecision

namespace FrequencyDecision
variable {value : FrequencyDecision K}

/-- A mapping that is read as a decision holds the same fields as the decision. -/
theorem fromMapping_ok {raw : Json K} (h : fromMapping raw = .ok value) :
    value.raw.Reads value ∧ raw.Same value.raw.asdict := by
  unfold fromMapping at h
  cases hraw : raw with
  | obj fields =>
    simp only [hraw, Json.fields?] at h
    split at h
    case isTrue => cases h
    case isFalse hkeys =>
      simp only [bind_eq_ok] at h
      obtain ⟨p, hp, f, hf, w, hw, j, hj, t, ht, o, ho, n, hn, u, hu, h⟩ := h
      have hreads := RawDecision.reads_of_validate h
      refine ⟨hreads.raw, same_obj (by simpa using hkeys) value.raw.keysAre_fields ?_⟩
      have same_of_eq : ∀ {v w : Json K}, v = w → v.Same w := fun h => h ▸ .refl _
      have same_int : ∀ {v : Json K} {name m a b}, integer v name m = .ok a →
          integer (Json.int a : Json K) name m = .ok b → v.Same (.int b) := by
        intro v name m a b ha hb
        rw [(integer_ok.mp ha).1, (integer_ok.mp hb).1]
        exact .refl _
      have same_optional : ∀ {v : Json K} {name m s} {a b : Option K}, optionalNumber v name m s = .ok a →
          optionalNumber (a.elim .null .float) name m s = .ok b → v.Same (b.elim .null .float) := by
        intro v name m s a b ha hb
        obtain ⟨hsame, hback⟩ := optionalNumber_ok ha
        obtain rfl := Except.ok.inj (hback.symm.trans hb)
        exact hsame
      simp only [valueFields, List.forall_mem_cons, List.not_mem_nil, false_imp_iff, implies_true, and_true]
      refine ⟨same_int hp hreads.prefillFrequencyMhz, same_int hf hreads.decodeFrequencyMhz,
        same_optional hw hreads.measuredPowerW, same_optional hj hreads.measuredEnergyJ, same_optional ht hreads.ttftMs,
        same_optional ho hreads.tpotMs, ?_, ?_, same_int hn hreads.sampleCount, ?_, ?_, ?_, ?_⟩
      · exact same_of_eq (RawDecision.validEndpoints_ok hreads.endpoints).1
      · exact same_of_eq (RawDecision.validEndpoints_ok hreads.endpoints).2.1
      · obtain ⟨hsame, hback⟩ := number_ok hu
        obtain rfl : u = value.updatedUnixS := Except.ok.inj (hback.symm.trans hreads.updatedUnixS)
        exact hsame
      · exact same_of_eq (RawDecision.validSource_ok hreads.source).1
      · exact same_of_eq (RawDecision.validSloMet_ok hreads.sloMet)
      · exact same_of_eq (RawDecision.validFallbackReason_ok hreads.fallbackReason)
  | _ => simp [hraw, Json.fields?] at h

theorem fromMapping_asdict (h : value.raw.Reads value) : fromMapping value.raw.asdict = .ok value := by
  unfold fromMapping
  simp only [RawDecision.asdict, Json.fields?, value.raw.keysAre_fields, Bool.not_true, Bool.false_eq_true, if_false,
    bind_eq_ok]
  exact ⟨_, h.prefillFrequencyMhz, _, h.decodeFrequencyMhz, _, h.measuredPowerW, _, h.measuredEnergyJ, _, h.ttftMs, _,
    h.tpotMs, _, h.sampleCount, _, h.updatedUnixS, h.validate⟩

end FrequencyDecision

/-! ### Entries -/

/-- An entry of a workload: named after it, empty exactly at revision 0, with a value that passes its validation. -/
structure FrequencyTableEntry.Valid (e : FrequencyTableEntry K) (w : Workload) : Prop where
  named : e.workloadId = w.id
  empty : e.revision = 0 ↔ e.value = none
  stored : ∀ value, e.value = some value → value.raw.validate = .ok value

namespace Workload

theorem id_injective : Function.Injective id := by
  intro v w h
  cases v <;> cases w <;> first | rfl | simp [id] at h

theorem ofId_eq_some {key : String} {w : Workload} : ofId key = some w ↔ key = w.id := by
  constructor
  · intro h
    exact (by simpa using List.find?_some h : w.id = key).symm
  · rintro rfl
    cases w <;> decide +kernel

theorem forEach_ok {ε α : Type} {f : Workload → Except ε α} {g : Workload → α} :
    forEach f = .ok g ↔ ∀ w, f w = .ok (g w) := by
  simp only [forEach, bind_eq_ok]
  constructor
  · rintro ⟨a, ha, b, hb, c, hc, d, hd, e, he, i, hi, j, hj, h⟩ w
    obtain rfl := Except.ok.inj h
    cases w <;> assumption
  · intro h
    refine ⟨_, h _, _, h _, _, h _, _, h _, _, h _, _, h _, _, h _, congrArg Except.ok (funext fun w => ?_)⟩
    cases w <;> rfl

end Workload

omit [Scalar K] in
theorem keysAre_entryFields (entries : Entries K) :
    keysAre (entryFields entries) (Workload.all.map Workload.id) = true := by
  simp [keysAre, entryFields, Workload.all, Workload.id]

omit [Scalar K] in
theorem getField_entryFields (entries : Entries K) (w : Workload) :
    getField (entryFields entries) w.id = (entries w).asDict := by
  cases w <;> simp [getField, entryFields, Workload.all, Workload.id, List.lookup]

omit [Scalar K] in
theorem FrequencyTableEntry.keysAre_fields (e : FrequencyTableEntry K) :
    keysAre e.fields ["workload_id", "revision", "value"] = true := by
  simp [keysAre, fields]

theorem loadEntry_ok {raws : List (String × Json K)} {w : Workload} {e : FrequencyTableEntry K}
    (h : loadEntry raws w = .ok e) : e.Valid w ∧ (getField raws w.id).Same e.asDict := by
  unfold loadEntry at h
  cases hraw : getField raws w.id with
  | obj raw =>
    simp only [hraw, Json.fields?] at h
    split at h
    case isTrue => cases h
    case isFalse hkeys =>
    split at h
    case isTrue => cases h
    case isFalse hid =>
    simp only [bind_eq_ok] at h
    obtain ⟨revision, hrevision, h⟩ := h
    obtain ⟨hint, hpos⟩ := integer_ok.mp hrevision
    split at h
    case isTrue => cases h
    case isFalse hempty =>
    rw [not_not] at hempty
    have hstr : getField raw "workload_id" = .str w.id := by
      cases hv : getField raw "workload_id" <;> simp_all [Json.str?]
    -- What is left to compare is the value: the other two fields are the ones of the entry.
    have same : ∀ e : FrequencyTableEntry K, e.workloadId = w.id → e.revision = revision.toNat →
        (getField raw "value").Same (e.value.elim .null fun value => value.raw.asdict) → (Json.obj raw).Same e.asDict := by
      intro e hw hr hs
      refine same_obj (by simpa using hkeys) e.keysAre_fields ?_
      simp only [List.forall_mem_cons, List.not_mem_nil, false_imp_iff, implies_true, and_true]
      refine ⟨?_, ?_, hs⟩
      · rw [hstr, ← hw]
        exact .refl _
      · rw [hint, ← Int.toNat_of_nonneg hpos, ← hr]
        exact .refl _
    split at h
    case isTrue hnull =>
      obtain rfl := Except.ok.inj h
      have hzero := hempty.mpr hnull
      refine ⟨⟨rfl, by simp [hzero], fun value hv => by cases hv⟩, same _ rfl rfl ?_⟩
      cases hv : getField raw "value" <;> simp_all [Json.isNull]
      exact .refl _
    case isFalse hnull =>
      rw [bind_eq_ok] at h
      obtain ⟨value, hvalue, h⟩ := h
      obtain rfl := Except.ok.inj h
      obtain ⟨hreads, hs⟩ := FrequencyDecision.fromMapping_ok hvalue
      have hne : revision ≠ 0 := fun h => hnull (hempty.mp h)
      refine ⟨⟨rfl, by simp; omega, ?_⟩, same _ rfl rfl hs⟩
      rintro _ ⟨⟩
      exact hreads.validate
  | _ => simp [hraw, Json.fields?] at h

theorem loadEntry_asDict {raws : List (String × Json K)} {w : Workload} {e : FrequencyTableEntry K} (hv : e.Valid w)
    (h : getField raws w.id = e.asDict) : loadEntry raws w = .ok e := by
  obtain ⟨workloadId, revision, value⟩ := e
  obtain ⟨hnamed, hempty, hstored⟩ := hv
  dsimp only at hnamed hempty hstored
  subst hnamed
  unfold loadEntry
  rw [h]
  simp only [FrequencyTableEntry.asDict, Json.fields?, FrequencyTableEntry.keysAre_fields, Bool.not_true,
    Bool.false_eq_true, if_false]
  rw [if_neg (by simp [getField, FrequencyTableEntry.fields, Json.str?]), bind_eq_ok]
  refine ⟨revision, integer_ok.mpr ⟨rfl, by omega⟩, ?_⟩
  cases value with
  | none =>
    obtain rfl : revision = 0 := hempty.mpr rfl
    rfl
  | some value =>
    have hne : revision ≠ 0 := fun h0 => by simpa using hempty.mp h0
    have hval := FrequencyDecision.fromMapping_asdict (RawDecision.reads_of_validate (hstored value rfl))
    have hget : getField (FrequencyTableEntry.fields ⟨w.id, revision, some value⟩) "value" = value.raw.asdict := rfl
    rw [hget, if_neg (by simp [RawDecision.asdict, Json.isNull, hne]), if_neg (by simp [RawDecision.asdict, Json.isNull]),
      bind_eq_ok]
    exact ⟨value, hval, rfl⟩

/-- A document that loads holds the document of its entries. -/
theorem load_ok {path : String} {content : Content K} {entries : Entries K} (h : load path content = .ok entries) :
    (∀ w, (entries w).Valid w) ∧ ∃ doc, content = .document doc ∧ doc.Same (documentLocked entries) := by
  cases hcontent : content with
  | broken => simp [hcontent, load] at h
  | document doc =>
    cases hdoc : doc with
    | obj document =>
      simp only [hcontent, hdoc, load, Json.fields?] at h
      split at h
      case isTrue => cases h
      case isFalse hkeys =>
      split at h
      case h_2 => cases h
      case h_1 version hversion =>
      split at h
      case isTrue => cases h
      case isFalse hone =>
      rw [not_not] at hone
      split at h
      case h_1 => cases h
      case h_2 raws hraws =>
      split at h
      case isTrue => cases h
      case isFalse hids =>
      have hentries := fun w => loadEntry_ok (Workload.forEach_ok.mp h w)
      refine ⟨fun w => (hentries w).1, _, rfl, same_obj (by simpa using hkeys) (by simp [keysAre]) ?_⟩
      simp only [List.forall_mem_cons, List.not_mem_nil, false_imp_iff, implies_true, and_true]
      refine ⟨?_, ?_⟩
      · rw [hversion, hone]
        exact .refl _
      · obtain ⟨fields, hfields⟩ : ∃ fields, getField document "entries" = .obj fields := by
          cases hv : getField document "entries" <;> simp_all
        rw [hfields] at hraws ⊢
        obtain rfl := Option.some.inj hraws
        refine same_obj (by simpa using hids) (keysAre_entryFields entries) fun name hname => ?_
        obtain ⟨w, -, rfl⟩ := List.mem_map.mp hname
        rw [getField_entryFields]
        exact (hentries w).2
    | _ => simp [hcontent, hdoc, load, Json.fields?] at h

theorem load_document {path : String} {entries : Entries K} (hv : ∀ w, (entries w).Valid w) :
    load path (.document (documentLocked entries)) = .ok entries := by
  have hkeys : keysAre [("schema_version", Json.int schemaVersion), ("entries", Json.obj (entryFields entries))]
      ["schema_version", "entries"] = true := by simp [keysAre]
  have hentries : getField [("schema_version", Json.int schemaVersion), ("entries", Json.obj (entryFields entries))]
      "entries" = .obj (entryFields entries) := rfl
  simp only [load, documentLocked, Json.fields?, hkeys, hentries, keysAre_entryFields, Bool.not_true, Bool.false_eq_true,
    if_false]
  exact Workload.forEach_ok.mpr fun w => loadEntry_asDict (hv w) (getField_entryFields entries w)

end CanaTune
