import CanaTune.Domain.Stored
import CanaTune.Router.State
import CanaTune.Theorems.PrefillCost

/-! A restart from the stored table behaves like the table that was published. -/

namespace CanaTune
variable {K : Type} [Scalar K]
open PyValue

/-! ### Cluster model -/

/-- The same model as Python compares it: dictionaries by key. -/
structure StoredModel.Same (m m' : StoredModel K) : Prop where
  prefill : m.prefill.Rel (Dict.Rel Eq) m'.prefill
  residence : m.residence.Rel Eq m'.residence
  decode : m.decode.Rel Eq m'.decode
  powerPrefill : m.powerPrefill.Rel Eq m'.powerPrefill
  powerDecode : m.powerDecode.Rel Eq m'.powerDecode
  parkPowerW : m.parkPowerW = m'.parkPowerW
  rhoPrefill : m.rhoPrefill = m'.rhoPrefill
  ttftSloMs : m.ttftSloMs = m'.ttftSloMs
  tpotSloMs : m.tpotSloMs = m'.tpotSloMs
  kvBytesPerToken : m.kvBytesPerToken = m'.kvBytesPerToken
  kvGateBytes : m.kvGateBytes = m'.kvGateBytes
  kvCapacityTokens : m.kvCapacityTokens = m'.kvCapacityTokens
  bStar : m.bStar.Rel Eq m'.bStar
  promptLimit : m.promptLimit = m'.promptLimit
  caps : m.caps.Rel Eq m'.caps
  predictorCoef : m.predictorCoef = m'.predictorCoef
  slackCounts : Option.Rel (Dict.Rel Eq) m.slackCounts m'.slackCounts
  theta : m.theta = m'.theta

namespace StoredModel

section
variable {α : Type} {f : PyValue K → Except PyError α} {g : α → PyValue K} {R : α → α → Prop}

omit [Scalar K] in
/-- A dictionary that is written under the names of its keys and read back. -/
theorem dict_restore {κ : Type} [DecidableEq κ] (name : κ → String) {key : Key → Except PyError κ}
    (hkey : ∀ k, key (.str (name k)) = .ok k) (h : ∀ x, ∃ y, f (g x).restore = .ok y ∧ R x y) (d : Dict κ α) :
    ∃ d', readDict key f (restore (.dict (d.items.map fun e => (.str (name e.1), g e.2)))) = .ok d' ∧ d.Rel R d' := by
  have hall : List.Forall₂ (fun e p => key (.str e.1.text) = .ok p.1 ∧ ∃ y, f e.2.restore = .ok y ∧ R p.2 y)
      (d.items.map fun e => (Key.str (name e.1), g e.2)) d.items := by
    rw [List.forall₂_map_left_iff, List.forall₂_same]
    exact fun e _ => ⟨hkey e.1, h e.2⟩
  obtain ⟨d', hd', hrel⟩ := readDict_restore d.nodup_items hall
  refine ⟨d', hd', fun k => ?_⟩
  rw [← Dict.lookup_ofList_items d k]
  exact hrel k

omit [Scalar K] in
theorem ints_restore (h : ∀ x, ∃ y, f (g x).restore = .ok y ∧ R x y) (d : Dict ℤ α) :
    ∃ d', readDict Key.toInt f (ofInts g d).restore = .ok d' ∧ d.Rel R d' :=
  dict_restore Int.repr (fun k => by rw [Key.toInt, parseInt_repr]; rfl) h d

theorem ints_or_restore (h : ∀ x, ∃ y, f (g x).restore = .ok y ∧ R x y) (d : Dict ℤ α) :
    ∃ d', ints f (ofInts g d).restore = .ok d' ∧ d.Rel R d' := by
  rw [ints, restore_orEmpty, ofInts, orEmpty_dict]
  exact ints_restore h d

omit [Scalar K] in
theorem names_restore (h : ∀ x, ∃ y, f (g x).restore = .ok y ∧ R x y) (d : Dict String α) :
    ∃ d', readDict Key.toStr f (ofNames g d).restore = .ok d' ∧ d.Rel R d' :=
  dict_restore (fun s => s) (fun _ => rfl) h d

omit [Scalar K] in
theorem list_restore (h : ∀ x, f (g x).restore = .ok x) (l : List α) :
    ∃ l', readList f (ofList g l).restore = .ok l' ∧ l = l' := by
  refine ⟨l, ?_, rfl⟩
  simp only [ofList, restore, restoreItems_eq, readList, elems, bind_eq_ok]
  refine ⟨_, rfl, mapM_ok_iff.mpr ?_⟩
  rw [List.map_map, List.forall₂_map_left_iff, List.forall₂_same]
  exact fun x _ => h x

omit [Scalar K] in
theorem option_restore (h : ∀ x, ∃ y, f (g x).restore = .ok y ∧ R x y) (hn : ∀ x, (g x).restore.isNone = false)
    (o : Option α) : ∃ o', readOption f (ofOption g o).restore = .ok o' ∧ Option.Rel R o o' := by
  cases o with
  | none => exact ⟨none, rfl, .none⟩
  | some x =>
    obtain ⟨y, hy, hR⟩ := h x
    refine ⟨some y, ?_, .some hR⟩
    rw [ofOption, Option.elim_some, readOption, hn x, hy]
    rfl

end

omit [Scalar K] in
theorem sortable_ofDict {κ α : Type} (name : κ → String) {g : α → PyValue K} (h : ∀ x, (g x).sortable = true)
    (l : List (κ × α)) : (PyValue.dict (l.map fun e => (.str (name e.1), g e.2))).sortable = true := by
  simp [sortable, sortableEntries_eq, Key.isInt, h]

omit [Scalar K] in
theorem sortable_toJson (m : StoredModel K) : m.toJson.sortable = true := by
  have hlist : ∀ l : List K, (ofList (PyValue.float) l).sortable = true := fun l => by
    simp [ofList, sortable, sortableItems_eq]
  have hints : ∀ l : List ℤ, (ofList (PyValue.int (K := K)) l).sortable = true := fun l => by
    simp [ofList, sortable, sortableItems_eq]
  have hfloats : ∀ d : Dict ℤ K, (ofInts PyValue.float d).sortable = true := fun d =>
    sortable_ofDict Int.repr (fun _ => rfl) _
  have hlines : ∀ d : Dict ℤ (List K), (ofInts (ofList PyValue.float) d).sortable = true := fun d =>
    sortable_ofDict Int.repr hlist _
  have hprefill : (ofInts (ofInts PyValue.float) m.prefill).sortable = true := sortable_ofDict Int.repr hfloats _
  have hcaps : (ofNames PyValue.float m.caps).sortable = true := sortable_ofDict (fun s => s) (fun _ => rfl) _
  have hb : (ofInts (PyValue.int (K := K)) m.bStar).sortable = true := sortable_ofDict Int.repr (fun _ => rfl) _
  have hcounts : ∀ d : Dict String (List ℤ), (ofNames (ofList (PyValue.int (K := K))) d).sortable = true := fun d =>
    sortable_ofDict (fun s => s) hints _
  have hoption : ∀ {α : Type} {g : α → PyValue K}, (∀ x, (g x).sortable = true) → ∀ o, (ofOption g o).sortable = true :=
    fun hg o => by cases o <;> simp [ofOption, hg, sortable]
  have hfloat : ∀ o : Option K, (ofOption PyValue.float o).sortable = true := hoption fun _ => rfl
  have hint : ∀ o : Option ℤ, (ofOption (PyValue.int (K := K)) o).sortable = true := hoption fun _ => rfl
  simp [toJson, entries, sortable, sortableEntries_eq, Key.isInt, hprefill, hfloats, hlines, hcaps, hb, hoption hcounts,
    hoption hlist, hfloat, hint]

/-- What `from_json` reads into every field. -/
structure ReadFrom (raw : PyValue K) (m : StoredModel K) : Prop where
  prefill : raw.getItem "prefill" >>= readDict Key.toInt (ints asFloat) = .ok m.prefill
  residence : raw.getItem "residence" >>= ints asFloat = .ok m.residence
  decode : raw.getItem "decode" >>= ints (readList asFloat) = .ok m.decode
  powerPrefill : raw.getItem "power_prefill" >>= ints (readList asFloat) = .ok m.powerPrefill
  powerDecode : raw.getItem "power_decode" >>= ints (readList asFloat) = .ok m.powerDecode
  parkPowerW : raw.getItem "park_power_w" >>= toFloat = .ok m.parkPowerW
  rhoPrefill : raw.getItem "rho_prefill" >>= toFloat = .ok m.rhoPrefill
  ttftSloMs : raw.getItem "ttft_slo_ms" >>= toFloat = .ok m.ttftSloMs
  tpotSloMs : raw.getItem "tpot_slo_ms" >>= toFloat = .ok m.tpotSloMs
  kvBytesPerToken : raw.getItem "kv_bytes_per_token" >>= toFloat = .ok m.kvBytesPerToken
  kvGateBytes : raw.get "kv_gate_bytes" >>= readOption asFloat = .ok m.kvGateBytes
  kvCapacityTokens : raw.get "kv_capacity_tokens" >>= readOption asInt = .ok m.kvCapacityTokens
  bStar : raw.get "b_star" >>= ints asInt = .ok m.bStar
  promptLimit : raw.get "prompt_limit" >>= readOption asInt = .ok m.promptLimit
  caps : (raw.get "caps" >>= fun v => readDict Key.toStr asFloat v.orEmpty) = .ok m.caps
  predictorCoef : raw.get "predictor_coef" >>= readOption (readList asFloat) = .ok m.predictorCoef
  slackCounts : raw.get "slack_counts" >>= readOption (readDict Key.toStr (readList asInt)) = .ok m.slackCounts
  theta : readTheta raw = .ok m.theta

theorem fromJson_eq_ok {raw : PyValue K} {m : StoredModel K} : fromJson raw = .ok m ↔ ReadFrom raw m := by
  constructor
  · intro h
    unfold fromJson at h
    obtain ⟨prefill, hprefill, h⟩ := field_eq_ok.mp h
    obtain ⟨residence, hresidence, h⟩ := field_eq_ok.mp h
    obtain ⟨decode, hdecode, h⟩ := field_eq_ok.mp h
    obtain ⟨powerPrefill, hpowerPrefill, h⟩ := field_eq_ok.mp h
    obtain ⟨powerDecode, hpowerDecode, h⟩ := field_eq_ok.mp h
    obtain ⟨parkPowerW, hparkPowerW, h⟩ := field_eq_ok.mp h
    obtain ⟨rhoPrefill, hrhoPrefill, h⟩ := field_eq_ok.mp h
    obtain ⟨ttftSloMs, httftSloMs, h⟩ := field_eq_ok.mp h
    obtain ⟨tpotSloMs, htpotSloMs, h⟩ := field_eq_ok.mp h
    obtain ⟨kvBytesPerToken, hkvBytesPerToken, h⟩ := field_eq_ok.mp h
    obtain ⟨kvGateBytes, hkvGateBytes, h⟩ := field_eq_ok.mp h
    obtain ⟨kvCapacityTokens, hkvCapacityTokens, h⟩ := field_eq_ok.mp h
    obtain ⟨bStar, hbStar, h⟩ := field_eq_ok.mp h
    obtain ⟨promptLimit, hpromptLimit, h⟩ := field_eq_ok.mp h
    obtain ⟨caps, hcaps, h⟩ := field_eq_ok.mp h
    obtain ⟨predictorCoef, hpredictorCoef, h⟩ := field_eq_ok.mp h
    obtain ⟨slackCounts, hslackCounts, h⟩ := field_eq_ok.mp h
    obtain ⟨theta, htheta, h⟩ := bind_eq_ok.mp h
    obtain rfl := Except.ok.inj h
    exact ⟨hprefill, hresidence, hdecode, hpowerPrefill, hpowerDecode, hparkPowerW, hrhoPrefill, httftSloMs, htpotSloMs,
      hkvBytesPerToken, hkvGateBytes, hkvCapacityTokens, hbStar, hpromptLimit, hcaps, hpredictorCoef, hslackCounts, htheta⟩
  · intro h
    refine field_eq_ok.mpr ⟨_, h.prefill, ?_⟩
    refine field_eq_ok.mpr ⟨_, h.residence, ?_⟩
    refine field_eq_ok.mpr ⟨_, h.decode, ?_⟩
    refine field_eq_ok.mpr ⟨_, h.powerPrefill, ?_⟩
    refine field_eq_ok.mpr ⟨_, h.powerDecode, ?_⟩
    refine field_eq_ok.mpr ⟨_, h.parkPowerW, ?_⟩
    refine field_eq_ok.mpr ⟨_, h.rhoPrefill, ?_⟩
    refine field_eq_ok.mpr ⟨_, h.ttftSloMs, ?_⟩
    refine field_eq_ok.mpr ⟨_, h.tpotSloMs, ?_⟩
    refine field_eq_ok.mpr ⟨_, h.kvBytesPerToken, ?_⟩
    refine field_eq_ok.mpr ⟨_, h.kvGateBytes, ?_⟩
    refine field_eq_ok.mpr ⟨_, h.kvCapacityTokens, ?_⟩
    refine field_eq_ok.mpr ⟨_, h.bStar, ?_⟩
    refine field_eq_ok.mpr ⟨_, h.promptLimit, ?_⟩
    refine field_eq_ok.mpr ⟨_, h.caps, ?_⟩
    refine field_eq_ok.mpr ⟨_, h.predictorCoef, ?_⟩
    refine field_eq_ok.mpr ⟨_, h.slackCounts, ?_⟩
    exact bind_eq_ok.mpr ⟨_, h.theta, rfl⟩

def fieldNames : List String :=
  ["prefill", "residence", "decode", "power_prefill", "power_decode", "park_power_w", "rho_prefill", "ttft_slo_ms",
    "tpot_slo_ms", "kv_bytes_per_token", "kv_gate_bytes", "kv_capacity_tokens", "b_star", "prompt_limit", "caps",
    "predictor_coef", "slack_counts", "theta"]

theorem tidyKeys_fields : TidyKeys (fieldNames.map Key.str) := tidyKeys_names (by decide +kernel) (by decide +kernel)

/-- `from_json(to_json(m))`, through the text, is the model again. -/
theorem fromJson_toJson (m : StoredModel K) : ∃ m', m.toJson.reload >>= fromJson = .ok m' ∧ m.Same m' := by
  have hfloat : ∀ x : K, ∃ y, asFloat (PyValue.float x).restore = .ok y ∧ x = y := fun x => ⟨x, rfl, rfl⟩
  have hint : ∀ z : ℤ, ∃ y, asInt (PyValue.int z : PyValue K).restore = .ok y ∧ z = y := fun z => ⟨z, rfl, rfl⟩
  have hline : ∀ l : List K, ∃ l', readList asFloat (ofList PyValue.float l).restore = .ok l' ∧ l = l' :=
    list_restore fun _ => rfl
  obtain ⟨prefill, hprefill, hp⟩ := ints_restore (ints_or_restore hfloat) m.prefill
  obtain ⟨residence, hresidence, hr⟩ := ints_or_restore hfloat m.residence
  obtain ⟨decode, hdecode, hd⟩ := ints_or_restore hline m.decode
  obtain ⟨powerPrefill, hpp, hpr⟩ := ints_or_restore hline m.powerPrefill
  obtain ⟨powerDecode, hpd, hdr⟩ := ints_or_restore hline m.powerDecode
  obtain ⟨gate, hgate, hg⟩ := option_restore hfloat (fun _ => rfl) m.kvGateBytes
  obtain ⟨tokens, htokens, ht⟩ := option_restore hint (fun _ => rfl) m.kvCapacityTokens
  obtain ⟨bStar, hbStar, hb⟩ := ints_or_restore hint m.bStar
  obtain ⟨limit, hlimit, hl⟩ := option_restore hint (fun _ => rfl) m.promptLimit
  obtain ⟨caps, hcaps, hc⟩ := names_restore hfloat m.caps
  obtain ⟨coef, hcoef, hco⟩ := option_restore hline (fun _ => rfl) m.predictorCoef
  have hcell : ∀ l : List ℤ, ∃ l', readList asInt (ofList (PyValue.int (K := K)) l).restore = .ok l' ∧ l = l' :=
    list_restore fun _ => rfl
  obtain ⟨counts, hcounts, hs⟩ := option_restore (names_restore hcell) (fun _ => rfl) m.slackCounts
  let m' : StoredModel K := { m with
    prefill, residence, decode, powerPrefill, powerDecode, kvGateBytes := gate, kvCapacityTokens := tokens, bStar,
    promptLimit := limit, caps, predictorCoef := coef, slackCounts := counts }
  have hkeys : TidyKeys (m.entries.map (·.1)) := tidyKeys_fields
  have hitem : ∀ {α : Type} {f : PyValue K → Except PyError α} {name x a}, m.entries.lookup (.str name) = some x →
      f x.restore = .ok a → m.toJson.restore.getItem name >>= f = .ok a :=
    fun hx ha => bind_eq_ok.mpr ⟨_, (get_entry hkeys hx).1, ha⟩
  have hget : ∀ {α : Type} {f : PyValue K → Except PyError α} {name x a}, m.entries.lookup (.str name) = some x →
      f x.restore = .ok a → m.toJson.restore.get name >>= f = .ok a :=
    fun hx ha => bind_eq_ok.mpr ⟨_, (get_entry hkeys hx).2, ha⟩
  have hcaps' : readDict Key.toStr asFloat (ofNames float m.caps).restore.orEmpty = .ok caps := by
    rw [restore_orEmpty, ofNames, orEmpty_dict]
    exact hcaps
  have htheta : readTheta m.toJson.restore = .ok m.theta := by
    obtain ⟨entries', he, -⟩ := restore_dict_perm m.entries
    have hentry : m.entries.lookup (.str "theta") = some (.float m.theta) := rfl
    have htheta : entries'.lookup (.str "theta") = some (.float m.theta) := entry_restore hkeys he hentry
    rw [readTheta, toJson, he]
    simp [items, bind, Except.bind, htheta, toFloat]
  have hread : ReadFrom m.toJson.restore m' := {
    prefill := hitem rfl hprefill
    residence := hitem rfl hresidence
    decode := hitem rfl hdecode
    powerPrefill := hitem rfl hpp
    powerDecode := hitem rfl hpd
    parkPowerW := hitem rfl rfl
    rhoPrefill := hitem rfl rfl
    ttftSloMs := hitem rfl rfl
    tpotSloMs := hitem rfl rfl
    kvBytesPerToken := hitem rfl rfl
    kvGateBytes := hget rfl hgate
    kvCapacityTokens := hget rfl htokens
    bStar := hget rfl hbStar
    promptLimit := hget rfl hlimit
    caps := hget rfl hcaps'
    predictorCoef := hget rfl hcoef
    slackCounts := hget rfl hcounts
    theta := htheta }
  have hsame : m.Same m' := {
    prefill := hp
    residence := hr
    decode := hd
    powerPrefill := hpr
    powerDecode := hdr
    parkPowerW := rfl
    rhoPrefill := rfl
    ttftSloMs := rfl
    tpotSloMs := rfl
    kvBytesPerToken := rfl
    kvGateBytes := rel_eq_iff.mp hg
    kvCapacityTokens := rel_eq_iff.mp ht
    bStar := hb
    promptLimit := rel_eq_iff.mp hl
    caps := hc
    predictorCoef := rel_eq_iff.mp hco
    slackCounts := hs
    theta := rfl }
  have hreload : m.toJson.reload = .ok m.toJson.restore := by rw [reload, sortable_toJson, if_pos rfl]
  exact ⟨m', bind_eq_ok.mpr ⟨_, hreload, fromJson_eq_ok.mpr hread⟩, hsame⟩

theorem agrees_ints {α : Type} {f : PyValue K → Except PyError α} {R : α → α → Prop} (hf : Agrees f R) :
    Agrees (ints f) (Dict.Rel R) := agrees_orEmpty (agrees_readDict keyReader_toInt hf)

theorem agrees_lines : Agrees (ints (readList (asFloat (K := K)))) (Dict.Rel Eq) :=
  agrees_ints (agrees_readList agrees_asFloat)

theorem agrees_readTheta : Agrees (readTheta (K := K)) Eq := by
  intro v hv x h
  cases hv with
  | dict keys hvalues =>
    rename_i entries
    obtain ⟨entries', he, -⟩ := restore_dict_perm entries
    have hlookup := lookup_restore keys he (show IsName "theta" by decide +kernel)
    simp only [readTheta, items, bind, Except.bind] at h
    simp only [he, readTheta, items, bind, Except.bind, hlookup]
    cases hx : entries.lookup (.str "theta") with
    | none =>
      rw [hx] at h
      exact ⟨x, h, rfl⟩
    | some w =>
      rw [hx] at h
      exact agrees_toFloat w (hvalues _ ((Dict.lookup_eq_some keys.nodup).mp hx)) x h
  | _ => cases h

/-- A model that is read from the evidence is read the same after the text. -/
theorem agrees_fromJson : Agrees (fromJson (K := K)) Same := by
  intro v hv m h
  have h := fromJson_eq_ok.mp h
  have hfloat : Agrees (readOption (asFloat (K := K))) (Option.Rel Eq) := agrees_readOption agrees_asFloat
  have hint : Agrees (readOption (asInt (K := K))) (Option.Rel Eq) := agrees_readOption agrees_asInt
  have hcounts : Agrees (readOption (readDict Key.toStr (readList (asInt (K := K))))) (Option.Rel (Dict.Rel Eq)) :=
    agrees_readOption (agrees_readDict keyReader_toStr (agrees_readList agrees_asInt))
  obtain ⟨prefill, rprefill, eprefill⟩ := (agrees_readDict keyReader_toInt (agrees_ints agrees_asFloat)).item hv h.prefill
  obtain ⟨residence, rresidence, eresidence⟩ := (agrees_ints agrees_asFloat).item hv h.residence
  obtain ⟨decode, rdecode, edecode⟩ := agrees_lines.item hv h.decode
  obtain ⟨powerPrefill, rpowerPrefill, epowerPrefill⟩ := agrees_lines.item hv h.powerPrefill
  obtain ⟨powerDecode, rpowerDecode, epowerDecode⟩ := agrees_lines.item hv h.powerDecode
  obtain ⟨parkPowerW, rparkPowerW, eparkPowerW⟩ := agrees_toFloat.item hv h.parkPowerW
  obtain ⟨rhoPrefill, rrhoPrefill, erhoPrefill⟩ := agrees_toFloat.item hv h.rhoPrefill
  obtain ⟨ttftSloMs, rttftSloMs, ettftSloMs⟩ := agrees_toFloat.item hv h.ttftSloMs
  obtain ⟨tpotSloMs, rtpotSloMs, etpotSloMs⟩ := agrees_toFloat.item hv h.tpotSloMs
  obtain ⟨kvBytesPerToken, rkvBytesPerToken, ekvBytesPerToken⟩ := agrees_toFloat.item hv h.kvBytesPerToken
  obtain ⟨kvGateBytes, rkvGateBytes, ekvGateBytes⟩ := hfloat.entry hv (by decide +kernel) h.kvGateBytes
  obtain ⟨kvCapacityTokens, rkvCapacityTokens, ekvCapacityTokens⟩ := hint.entry hv (by decide +kernel) h.kvCapacityTokens
  obtain ⟨bStar, rbStar, ebStar⟩ := (agrees_ints agrees_asInt).entry hv (by decide +kernel) h.bStar
  obtain ⟨promptLimit, rpromptLimit, epromptLimit⟩ := hint.entry hv (by decide +kernel) h.promptLimit
  obtain ⟨caps, rcaps, ecaps⟩ :=
    (agrees_orEmpty (agrees_readDict keyReader_toStr agrees_asFloat)).entry hv (by decide +kernel) h.caps
  obtain ⟨predictorCoef, rpredictorCoef, epredictorCoef⟩ :=
    (agrees_readOption (agrees_readList agrees_asFloat)).entry hv (by decide +kernel) h.predictorCoef
  obtain ⟨slackCounts, rslackCounts, eslackCounts⟩ := hcounts.entry hv (by decide +kernel) h.slackCounts
  obtain ⟨theta, rtheta, etheta⟩ := agrees_readTheta v hv _ h.theta
  let m' : StoredModel K := {
    prefill, residence, decode, powerPrefill, powerDecode, parkPowerW, rhoPrefill, ttftSloMs, tpotSloMs, kvBytesPerToken,
    kvGateBytes, kvCapacityTokens, bStar, promptLimit, caps, predictorCoef, slackCounts, theta }
  have hread : ReadFrom v.restore m' := {
    prefill := rprefill
    residence := rresidence
    decode := rdecode
    powerPrefill := rpowerPrefill
    powerDecode := rpowerDecode
    parkPowerW := rparkPowerW
    rhoPrefill := rrhoPrefill
    ttftSloMs := rttftSloMs
    tpotSloMs := rtpotSloMs
    kvBytesPerToken := rkvBytesPerToken
    kvGateBytes := rkvGateBytes
    kvCapacityTokens := rkvCapacityTokens
    bStar := rbStar
    promptLimit := rpromptLimit
    caps := rcaps
    predictorCoef := rpredictorCoef
    slackCounts := rslackCounts
    theta := rtheta }
  have hsame : m.Same m' := {
    prefill := eprefill
    residence := eresidence
    decode := edecode
    powerPrefill := epowerPrefill
    powerDecode := epowerDecode
    parkPowerW := eparkPowerW
    rhoPrefill := erhoPrefill
    ttftSloMs := ettftSloMs
    tpotSloMs := etpotSloMs
    kvBytesPerToken := ekvBytesPerToken
    kvGateBytes := rel_eq_iff.mp ekvGateBytes
    kvCapacityTokens := rel_eq_iff.mp ekvCapacityTokens
    bStar := ebStar
    promptLimit := rel_eq_iff.mp epromptLimit
    caps := ecaps
    predictorCoef := rel_eq_iff.mp epredictorCoef
    slackCounts := eslackCounts
    theta := etheta }
  exact ⟨m', fromJson_eq_ok.mpr hread, hsame⟩

end StoredModel

/-! ### Caps -/

theorem toNat_repr (n : ℕ) : (Key.str n.repr).toNat = .ok n := by
  have h : parseInt n.repr = some (n : ℤ) := parseInt_repr n
  simp [Key.toNat, Key.toInt, h, bind, Except.bind]

theorem ClockPoint.fromKey_key (p : ClockPoint) : fromKey p.key = .ok p := by
  have hdigits : ∀ n : ℕ, '/' ∉ n.repr.toList := by
    intro n h
    rw [Nat.toList_repr] at h
    have hdigit := Nat.isDigit_of_mem_toDigits (by omega) (by omega) h
    cases hdigit
  have hsplit : ∀ a b : String, '/' ∉ a.toList → '/' ∉ b.toList →
      ((a ++ "/" ++ b).toList.splitOn '/').map String.ofList = [a, b] := by
    intro a b ha hb
    have hlist : (a ++ "/" ++ b).toList = ['/'].intercalate [a.toList, b.toList] := by simp [List.intercalate]
    rw [hlist, List.splitOn_intercalate '/' (by simp [ha, hb]) (by simp)]
    simp
  rw [fromKey, key, hsplit _ _ (hdigits _) (hdigits _)]
  simp [toNat_repr, bind, Except.bind, pure, Except.pure]

namespace StoredModel

omit [Scalar K] in
/-- The solver finds the cap of a point where the stored model has it. -/
theorem lookup_capsByPoint (caps : Dict String K) (p : ClockPoint) : (capsByPoint caps).lookup p = caps.lookup p.key := by
  have hmem : ∀ {q : ClockPoint} {c : K}, (q, c) ∈ (caps.items.filterMap fun e =>
      ((ClockPoint.fromKey e.1).toOption.filter fun p => p.key = e.1).map fun p => (p, e.2)) ↔ (q.key, c) ∈ caps.items := by
    intro q c
    rw [List.mem_filterMap]
    constructor
    · rintro ⟨⟨key, c'⟩, he, h⟩
      obtain ⟨p, hp, h⟩ := Option.map_eq_some_iff.mp h
      obtain ⟨rfl, rfl⟩ := Prod.mk.inj h
      have hkey : p.key = key := by simpa using (Option.filter_eq_some_iff.mp hp).2
      rwa [hkey]
    · intro h
      refine ⟨_, h, Option.map_eq_some_iff.mpr ⟨q, ?_, rfl⟩⟩
      rw [ClockPoint.fromKey_key]
      simp [Except.toOption]
  have hkey : ∀ {e : String × K} {q : ClockPoint}, (((ClockPoint.fromKey e.1).toOption.filter fun p => p.key = e.1).map
      fun p => (p, e.2)).map (·.1) = some q → q.key = e.1 := by
    intro e q h
    rw [Option.map_map] at h
    obtain ⟨p, hp, rfl⟩ := Option.map_eq_some_iff.mp h
    simpa using (Option.filter_eq_some_iff.mp hp).2
  have hnodup : ((caps.items.filterMap fun e =>
      ((ClockPoint.fromKey e.1).toOption.filter fun p => p.key = e.1).map fun p => (p, e.2)).map (·.1)).Nodup := by
    have hkeys := Dict.nodup_items caps
    rw [List.nodup_iff_pairwise_ne, List.pairwise_map] at hkeys
    rw [List.map_filterMap, List.nodup_iff_pairwise_ne, List.pairwise_filterMap]
    refine hkeys.imp fun hne q hq q' hq' heq => hne ?_
    rw [← hkey hq, ← hkey hq', heq]
  ext c
  rw [capsByPoint, Dict.lookup_ofList hnodup, hmem, Dict.mem_items]

end StoredModel

/-! ### Evidence -/

structure AdmissionCalibration.Same (a b : AdmissionCalibration K) : Prop where
  predictorCoef : a.predictorCoef = b.predictorCoef
  slackCounts : a.slackCounts.Rel Eq b.slackCounts
  kvGateFraction : a.kvGateFraction = b.kvGateFraction
  pSlotCap : a.pSlotCap = b.pSlotCap
  kvGateBins : a.kvGateBins.Rel Eq b.kvGateBins
  pSlotBins : a.pSlotBins.Rel Eq b.pSlotBins

/-- Two readings of the evidence that the Router cannot tell apart: the same numbers under the same keys. -/
structure Evidence.Same (e e' : Evidence K) : Prop where
  prefillMsByClock : e.prefillMsByClock.Rel (Dict.Rel Eq) e'.prefillMsByClock
  prefillMsByLength : e.prefillMsByLength.Rel Eq e'.prefillMsByLength
  idleTtftMs : e.idleTtftMs.Rel Eq e'.idleTtftMs
  admission : Option.Rel AdmissionCalibration.Same e.admission e'.admission
  caps : Option.Rel (fun m m' => m.caps.Rel Eq m'.caps) e.model e'.model

namespace Evidence

theorem agrees_readCell : Agrees (readCell (K := K)) Eq := by
  intro v hv c h
  unfold readCell at h
  split at h
  case h_1 a b rest =>
    cases hv with
    | list hvalues =>
    simp only [bind_eq_ok] at h
    obtain ⟨x, hx, y, hy, h⟩ := h
    obtain ⟨_, hx', rfl⟩ := agrees_toInt a (hvalues _ (by simp)) x hx
    obtain ⟨_, hy', rfl⟩ := agrees_toInt b (hvalues _ (by simp)) y hy
    refine ⟨c, ?_, rfl⟩
    simp only [restore, restoreItems_eq, List.map_cons, readCell, bind_eq_ok]
    exact ⟨x, hx', y, hy', h⟩
  case h_2 => cases h
  case h_3 => cases h

theorem agrees_readCounts : Agrees (readCounts (K := K)) (Dict.Rel Eq) :=
  agrees_orEmpty (agrees_readDict keyReader_toNat agrees_readCell)

theorem agrees_readAdmission : Agrees (readAdmission (K := K)) AdmissionCalibration.Same := by
  intro v hv a h
  simp only [readAdmission, bind_eq_ok] at h
  obtain ⟨v₁, h₁, coef, hcoef, v₂, h₂, slack, hslack, v₃, h₃, gate, hgate, v₄, h₄, cap, hcap, v₅, h₅, kv, hkv, v₆, h₆,
    slot, hslot, h⟩ := h
  obtain rfl := Except.ok.inj h
  obtain ⟨t₁, r₁⟩ := getItem_restore hv h₁
  obtain ⟨t₂, r₂⟩ := get_restore hv (by decide +kernel) h₂
  obtain ⟨t₃, r₃⟩ := get_restore hv (by decide +kernel) h₃
  obtain ⟨t₄, r₄⟩ := get_restore hv (by decide +kernel) h₄
  obtain ⟨t₅, r₅⟩ := get_restore hv (by decide +kernel) h₅
  obtain ⟨t₆, r₆⟩ := get_restore hv (by decide +kernel) h₆
  obtain ⟨_, hcoef', rfl⟩ := agrees_readList agrees_toFloat _ t₁ coef hcoef
  obtain ⟨slack', hslack', hs⟩ := agrees_readCounts _ t₂ slack hslack
  obtain ⟨gate', hgate', hg⟩ := agrees_readTruthy agrees_toFloat (fun _ _ => by simp [toFloat]) _ t₃ gate hgate
  obtain ⟨cap', hcap', hc⟩ := agrees_readOption agrees_toInt _ t₄ cap hcap
  obtain ⟨kv', hkv', hk⟩ := agrees_readCounts _ t₅ kv hkv
  obtain ⟨slot', hslot', hl⟩ := agrees_readCounts _ t₆ slot hslot
  refine ⟨⟨coef, slack', gate', cap', kv', slot'⟩, ?_, ⟨rfl, hs, rel_eq_iff.mp hg, rel_eq_iff.mp hc, hk, hl⟩⟩
  simp only [readAdmission, bind_eq_ok]
  exact ⟨_, r₁, coef, hcoef', _, r₂, slack', hslack', _, r₃, gate', hgate', _, r₄, cap', hcap', _, r₅, kv', hkv', _, r₆,
    slot', hslot', rfl⟩

theorem agrees_tables : Agrees (readDict Key.toNat (readDict Key.toNat (toFloat (K := K)))) (Dict.Rel (Dict.Rel Eq)) :=
  agrees_readDict keyReader_toNat (agrees_readDict keyReader_toNat agrees_toFloat)

theorem agrees_readOld {tables tables' : Dict ℕ (Dict ℕ K)} (h : tables.Rel (Dict.Rel Eq) tables') {v : PyValue K}
    (hv : v.Tidy) {d : Dict ℕ K} (hd : readOld tables v = .ok d) :
    ∃ d', readOld tables' v.restore = .ok d' ∧ d.Rel Eq d' := by
  unfold readOld at hd ⊢
  split at hd
  case isTrue hnil =>
    rw [if_pos ((Dict.items_eq_nil_of_rel h).mp hnil)]
    exact agrees_orEmpty (agrees_readDict keyReader_toNat agrees_toFloat) v hv d hd
  case isFalse hne =>
    rw [if_neg fun hnil => hne ((Dict.items_eq_nil_of_rel h).mpr hnil)]
    exact ⟨d, hd, Dict.rel_eq.mpr fun _ => rfl⟩

/-- What is read into every field of the evidence. -/
structure ReadFrom (v : PyValue K) (e : Evidence K) : Prop where
  prefillMsByClock : (v.get "prefill_ms_by_clock" >>= fun x => readDict Key.toNat (readDict Key.toNat toFloat) x.orEmpty) =
    .ok e.prefillMsByClock
  prefillMsByLength : ∃ fit old, v.get "alpha_fit" = .ok fit ∧ fit.orEmpty.get "prefill_ms_by_length" = .ok old ∧
    readOld e.prefillMsByClock old = .ok e.prefillMsByLength
  idleTtftMs : (v.get "idle_ttft_ms" >>= fun x => readDict Key.toNat toFloat x.orEmpty) = .ok e.idleTtftMs
  admission : v.get "admission" >>= readTruthy readAdmission = .ok e.admission
  model : ∃ m, v.get "model" >>= readOption StoredModel.fromJson = .ok m ∧ e.model = m.map StoredModel.cluster
  capacityRps : v.get "capacity_rps" >>= readOption asFloat = .ok e.capacityRps

theorem read_eq_ok {v : PyValue K} {e : Evidence K} : read v = .ok e ↔ ReadFrom v e := by
  constructor
  · intro h
    unfold read at h
    obtain ⟨tables, htables, h⟩ := field_eq_ok.mp h
    obtain ⟨fit, hfit, h⟩ := bind_eq_ok.mp h
    obtain ⟨old, hold, h⟩ := bind_eq_ok.mp h
    obtain ⟨byLength, hlength, h⟩ := bind_eq_ok.mp h
    obtain ⟨idle, hidle, h⟩ := field_eq_ok.mp h
    obtain ⟨admission, hadmission, h⟩ := field_eq_ok.mp h
    obtain ⟨model, hmodel, h⟩ := field_eq_ok.mp h
    obtain ⟨capacity, hcapacity, h⟩ := field_eq_ok.mp h
    obtain rfl := Except.ok.inj h
    exact ⟨htables, ⟨fit, old, hfit, hold, hlength⟩, hidle, hadmission, ⟨model, hmodel, rfl⟩, hcapacity⟩
  · intro h
    obtain ⟨fit, old, hfit, hold, hlength⟩ := h.prefillMsByLength
    obtain ⟨model, hmodel, hcluster⟩ := h.model
    refine field_eq_ok.mpr ⟨_, h.prefillMsByClock, ?_⟩
    refine bind_eq_ok.mpr ⟨_, hfit, bind_eq_ok.mpr ⟨_, hold, bind_eq_ok.mpr ⟨_, hlength, ?_⟩⟩⟩
    refine field_eq_ok.mpr ⟨_, h.idleTtftMs, ?_⟩
    refine field_eq_ok.mpr ⟨_, h.admission, ?_⟩
    refine field_eq_ok.mpr ⟨_, hmodel, ?_⟩
    refine field_eq_ok.mpr ⟨_, h.capacityRps, ?_⟩
    rw [← hcluster]
    rfl

theorem agrees_read : Agrees (read (K := K)) Same := by
  intro v hv e h
  have h := read_eq_ok.mp h
  obtain ⟨prefillMsByClock, rtables, etables⟩ :=
    (agrees_orEmpty agrees_tables).entry hv (by decide +kernel) h.prefillMsByClock
  obtain ⟨fit, old, hfit, hold, hlength⟩ := h.prefillMsByLength
  obtain ⟨tfit, rfit⟩ := get_restore hv (by decide +kernel) hfit
  obtain ⟨told, rold⟩ := get_restore tfit.orEmpty (by decide +kernel) hold
  rw [← restore_orEmpty] at rold
  obtain ⟨prefillMsByLength, rlength, elength⟩ := agrees_readOld etables told hlength
  obtain ⟨idleTtftMs, ridle, eidle⟩ :=
    (agrees_orEmpty (agrees_readDict keyReader_toNat agrees_toFloat)).entry hv (by decide +kernel) h.idleTtftMs
  obtain ⟨admission, radmission, eadmission⟩ :=
    (agrees_readTruthy agrees_readAdmission fun fields a h => by cases h).entry hv (by decide +kernel) h.admission
  obtain ⟨model, hmodel, hcluster⟩ := h.model
  obtain ⟨model', rmodel, emodel⟩ := (agrees_readOption StoredModel.agrees_fromJson).entry hv (by decide +kernel) hmodel
  obtain ⟨capacityRps, rcapacity, -⟩ := (agrees_readOption agrees_asFloat).entry hv (by decide +kernel) h.capacityRps
  have hcaps : Option.Rel (fun m m' => m.caps.Rel Eq m'.caps) e.model (model'.map StoredModel.cluster) := by
    rw [hcluster]
    cases emodel with
    | none => exact .none
    | some hsame =>
      refine .some (Dict.rel_eq.mpr fun p => ?_)
      rw [StoredModel.cluster, StoredModel.cluster, StoredModel.lookup_capsByPoint, StoredModel.lookup_capsByPoint]
      exact Dict.rel_eq.mp hsame.caps p.key
  refine ⟨{ prefillMsByClock, prefillMsByLength, idleTtftMs, admission, capacityRps,
            model := model'.map StoredModel.cluster }, read_eq_ok.mpr ?_,
    ⟨etables, elength, eidle, eadmission, hcaps⟩⟩
  exact {
    prefillMsByClock := rtables
    prefillMsByLength := ⟨fit.restore, old.restore, rfit, rold, rlength⟩
    idleTtftMs := ridle
    admission := radmission
    model := ⟨model', rmodel, rfl⟩
    capacityRps := rcapacity }

end Evidence

/-! ### What the Router makes of it -/

namespace CostBook

theorem nearest_congr {l l' : List ℕ} (h : ∀ k, k ∈ l ↔ k ∈ l') (mhz : Option ℕ) : nearest l mhz = nearest l' mhz := by
  have hmax : ∀ {l l' : List ℕ}, (∀ k, k ∈ l ↔ k ∈ l') → l.max? = l'.max? := by
    intro l l' h
    ext k
    simp only [List.max?_eq_some_iff, h]
  have hmin : l.min? = l'.min? := by
    ext k
    simp only [List.min?_eq_some_iff, h]
  cases mhz with
  | none => exact hmax h
  | some f =>
    have hbelow : (l.filter (· ≤ f)).max? = (l'.filter (· ≤ f)).max? := hmax fun k => by
      rw [List.mem_filter, List.mem_filter, h]
    rw [nearest, nearest, hbelow, hmin]

omit [Scalar K] in
theorem forClock_ofTables {d d' : Dict ℕ (Dict ℕ K)} (h : d.Rel (Dict.Rel Eq) d') (mhz : Option ℕ) :
    (ofTables d).forClock mhz = (ofTables d').forClock mhz := by
  have hcosts : (ofTables d).costs.Rel Eq (ofTables d').costs := by
    refine Dict.rel_eq.mpr fun k => ?_
    rw [lookup_ofTables, lookup_ofTables]
    have hk := h k
    generalize d.lookup k = a, d'.lookup k = b at hk ⊢
    cases hk with
    | none => rfl
    | some ht =>
      rw [Option.filter_some, Option.filter_some, (Dict.perm_of_rel ht).length_eq]
      split
      · rw [Option.map_some, Option.map_some, PrefillCost.ofTable, PrefillCost.ofTable, Dict.sorted_eq_of_rel ht]
      · rfl
  have hkeys := nearest_congr (fun k => ((Dict.perm_of_rel hcosts).map (·.1)).mem_iff) mhz
  rw [forClock, forClock, hkeys]
  congr 2
  funext k
  exact Dict.rel_eq.mp hcosts k

end CostBook

/-- Two Routers after `_apply_table` whose costs, times and thresholds are the same; dictionaries are compared by key. -/
structure Router.SameApplied {n : ℕ} (r r' : Router K n) : Prop where
  costs : ∀ mhz length, (r.applied.costs.forClock mhz).cost length = (r'.applied.costs.forClock mhz).cost length
  idleTtft : r.applied.idleTtft.Rel Eq r'.applied.idleTtft
  predictor : r.learned.predictor = r'.learned.predictor
  slackSeed : r.learned.slack.seed.Rel Eq r'.learned.slack.seed
  kvFraction : r.learned.kvFraction = r'.learned.kvFraction
  pSlotCap : r.learned.pSlotCap = r'.learned.pSlotCap
  kvKnee : Option.Rel (fun a b => a.counts = b.counts) r.learned.kvKnee r'.learned.kvKnee
  slotKnee : Option.Rel (fun a b => a.counts = b.counts) r.learned.slotKnee r'.learned.slotKnee

namespace Router
variable {n : ℕ}

theorem nonemptyBins_rel {bins bins' : Dict ℕ (ℕ × ℕ)} (h : bins.Rel Eq bins') :
    Option.Rel (fun a b => a.counts = b.counts) (nonemptyBins bins) (nonemptyBins bins') := by
  unfold nonemptyBins
  split
  case isTrue hnil =>
    rw [if_pos ((Dict.items_eq_nil_of_rel h).mp hnil)]
    exact .none
  case isFalse hne =>
    rw [if_neg fun hnil => hne ((Dict.items_eq_nil_of_rel h).mpr hnil)]
    refine .some ?_
    have hsorted := Dict.sorted_eq_of_rel h
    simp [KneeCounts.counts, KneeCounts.ofSeed, Dict.items, hsorted]

omit [Scalar K] in
theorem costBook_same (r : Router K n) {e e' : Evidence K} (h : e.Same e') (mhz : Option ℕ) :
    (r.costBook (some e)).forClock mhz = (r.costBook (some e')).forClock mhz := by
  have hnil := Dict.items_eq_nil_of_rel h.prefillMsByClock
  have hold := not_congr (Dict.items_eq_nil_of_rel h.prefillMsByLength)
  by_cases hc : e.prefillMsByClock.items = [] ∧ e.prefillMsByLength.items ≠ []
  · rw [costBook, costBook, if_pos hc, if_pos (⟨hnil.mp hc.1, hold.mp hc.2⟩)]
    refine CostBook.forClock_ofTables (fun k => ?_) mhz
    by_cases hk : k = r.tiers.maxPoint.prefillMhz
    · subst hk
      rw [AList.lookup_insert, AList.lookup_insert]
      exact .some h.prefillMsByLength
    · rw [AList.lookup_insert_ne hk, AList.lookup_insert_ne hk]
      exact .none
  · rw [costBook, costBook, if_neg hc, if_neg fun hc' => hc ⟨hnil.mpr hc'.1, hold.mpr hc'.2⟩]
    exact CostBook.forClock_ofTables h.prefillMsByClock mhz

/-- A table and its stored copy leave the Router in the same state. -/
theorem applyTable_same (r : Router K n) {t t' : TierTable K} (hkey : t.publishedAt = t'.publishedAt)
    (h : t.evidence.Same t'.evidence) :
    SameApplied { r with tiers := { r.tiers with table := some t } }.applyTable
      { r with tiers := { r.tiers with table := some t' } }.applyTable := by
  have hrefl : ∀ {ν : Type} (d : Dict ℕ ν), d.Rel Eq d := fun d => Dict.rel_eq.mpr fun _ => rfl
  have hknee : ∀ k : Option KneeCounts, Option.Rel (fun a b => a.counts = b.counts) k k := fun k => by
    cases k with
    | none => exact .none
    | some k => exact .some rfl
  unfold applyTable
  dsimp only [Option.map_some, Option.bind_some, Option.getD_some]
  rw [← hkey]
  by_cases hk : some t.publishedAt = r.applied.key
  · rw [if_pos hk, if_pos hk]
    exact ⟨fun _ _ => rfl, hrefl _, rfl, hrefl _, rfl, rfl, hknee _, hknee _⟩
  · rw [if_neg hk, if_neg hk]
    have hadmission := h.admission
    generalize t.evidence.admission = a, t'.evidence.admission = a' at hadmission
    have hcosts := fun mhz length => congrArg (fun c : PrefillCost K => c.cost length) (costBook_same r h mhz)
    cases hadmission with
    | none => exact ⟨hcosts, h.idleTtftMs, rfl, hrefl _, rfl, rfl, hknee _, hknee _⟩
    | some hs =>
      refine ⟨hcosts, h.idleTtftMs, ?_, hs.slackCounts, ?_, hs.pSlotCap, ?_, nonemptyBins_rel hs.pSlotBins⟩
      · simp [applyCalibration, hs.predictorCoef]
      · simp [applyCalibration, hs.kvGateFraction]
      · simp only [applyCalibration]
        split
        · split
          · exact .none
          · exact nonemptyBins_rel hs.kvGateBins
        · exact .none

end Router

/-! ### The table -/

namespace StoredTable

/-- Everything in the table is tidy: its evidence, and what the scalar fields hold. -/
def Tidy (t : StoredTable K) : Prop := ∀ e ∈ t.entries, e.2.Tidy

/-- The table that comes back: its clock points, and every other field as the text gives it. -/
def restored (t : StoredTable K) : StoredTable K where
  park := t.park
  h := t.h
  capacityH := t.capacityH.restore
  alphaTokens := t.alphaTokens.restore
  l := t.l
  capacityL := t.capacityL.restore
  tauUp := t.tauUp.restore
  tauDown := t.tauDown.restore
  decodeMaxRunning := t.decodeMaxRunning.restore
  decodeKvLimit := t.decodeKvLimit.restore
  decodeWall := t.decodeWall.restore
  decodeLength := t.decodeLength.restore
  decodeKvTokens := t.decodeKvTokens.restore
  publishedAt := t.publishedAt.restore
  evidence := t.evidence.restore

theorem tidyKeys_fields : TidyKeys (fieldNames.map Key.str) := tidyKeys_names (by decide +kernel) (by decide +kernel)

theorem fromJson_toJson {t : StoredTable K} (h : t.Tidy) : t.toJson.reload >>= fromJson = .ok t.restored := by
  have hkeys : TidyKeys (t.entries.map (·.1)) := tidyKeys_fields
  rw [bind_eq_ok]
  refine ⟨t.toJson.restore, reload_of_tidy (.dict hkeys h), ?_⟩
  obtain ⟨entries', he, hperm⟩ := restore_dict_perm t.entries
  have hitems : t.toJson.restore.items = .ok entries' := by rw [toJson, he]; rfl
  have hpoint : ∀ {name x}, t.entries.lookup (.str name) = some x → t.toJson.restore.get name = .ok x.restore :=
    fun hx => (get_entry hkeys hx).2
  have hargument : ∀ {name x} (default : Option (PyValue K)), t.entries.lookup (.str name) = some x →
      argument t.toJson.restore name default = .ok x.restore := by
    intro name x default hx
    rw [argument, hitems]
    simp only [bind, Except.bind, entry_restore hkeys he hx]
  have hcheck : checkArguments t.toJson.restore (some t.park) (some t.h) = .ok (t.park, t.h) := by
    rw [checkArguments, hitems]
    simp only [bind, Except.bind]
    rw [if_pos]
    rw [List.all_eq_true]
    intro e he'
    obtain ⟨e', hmem, rfl⟩ := List.mem_map.mp (hperm.mem_iff.mpr he')
    have hname : e'.1 ∈ fieldNames.map Key.str := List.mem_map_of_mem hmem
    obtain ⟨name, hn, hname⟩ := List.mem_map.mp hname
    exact List.any_eq_true.mpr ⟨name, hn, by simp [← hname, Key.text]⟩
  have hkey : ∀ p : ClockPoint, readPoint (PyValue.str p.key : PyValue K) = .ok (some p) := fun p => by
    rw [readPoint, ClockPoint.fromKey_key]
    rfl
  simp only [fromJson, bind_eq_ok]
  refine ⟨_, hpoint rfl, some t.park, hkey _, _, hpoint rfl, some t.h, hkey _, _, hpoint rfl, t.l, ?_, _, hcheck, _,
    hargument _ rfl, _, hargument _ rfl, _, hargument _ rfl, _, hargument _ rfl, _, hargument _ rfl, _, hargument _ rfl,
    _, hargument _ rfl, _, hargument _ rfl, _, hargument _ rfl, _, hargument _ rfl, _, hargument _ rfl, _,
    hargument _ rfl, rfl⟩
  cases hl : t.l with
  | none => rfl
  | some p => exact hkey p

omit [Scalar K] in
theorem mapM_toInt_restore {entries entries' : List (Key × PyValue K)}
    (h : (entries.map fun e => (Key.str e.1.text, e.2.restore)).Perm entries') {clocks : List ℤ}
    (hc : (entries.mapM fun e => e.1.toInt) = .ok clocks) :
    ∃ clocks', (entries'.mapM fun e => e.1.toInt) = .ok clocks' ∧ clocks.Perm clocks' := by
  refine mapM_perm h (mapM_ok_iff.mpr ?_)
  rw [List.forall₂_map_left_iff]
  exact (mapM_ok_iff.mp hc).imp fun e z hz => keyReader_toInt.text e.1 z hz

theorem max?_congr {l l' : List ℤ} (h : ∀ k, k ∈ l ↔ k ∈ l') : l.max? = l'.max? := by
  ext k
  simp only [List.max?_eq_some_iff, h]

theorem min?_congr {l l' : List ℤ} (h : ∀ k, k ∈ l ↔ k ∈ l') : l.min? = l'.min? := by
  ext k
  simp only [List.min?_eq_some_iff, h]

theorem decodeCoef_restored {t : StoredTable K} (h : t.decodeLength.Tidy) {mhz : ℕ} {coef : Option (List K)}
    (hc : t.decodeCoef mhz = .ok coef) : t.restored.decodeCoef mhz = .ok coef := by
  unfold decodeCoef at hc ⊢
  by_cases hr : ∃ fields, t.decodeLength = PyValue.record fields
  · obtain ⟨fields, hfields⟩ := hr
    simp [hfields, truthy, items, bind, Except.bind] at hc
  have htruthy : t.restored.decodeLength.truthy = t.decodeLength.truthy := truthy_restore (not_exists.mp hr)
  have hlength : t.restored.decodeLength = t.decodeLength.restore := rfl
  rw [htruthy]
  split at hc
  case isTrue hnone => rwa [if_pos hnone]
  case isFalse hsome =>
  rw [if_neg hsome, hlength]
  generalize t.decodeLength = v at h hc
  obtain ⟨entries, hitems, hc⟩ := bind_eq_ok.mp hc
  cases h with
  | @dict raw keys hvalues =>
    obtain rfl : raw = entries := Except.ok.inj hitems
    obtain ⟨entries', he, hperm⟩ := restore_dict_perm raw
    obtain ⟨clocks, hclocks, hc⟩ := bind_eq_ok.mp hc
    obtain ⟨clocks', hclocks', hmem⟩ := mapM_toInt_restore hperm hclocks
    -- The clock that is picked depends on which clocks there are, not on their order.
    have hmax : (clocks'.filter (· ≤ (mhz : ℤ))).max? = (clocks.filter (· ≤ (mhz : ℤ))).max? :=
      max?_congr fun k => by rw [List.mem_filter, List.mem_filter, hmem.mem_iff]
    have hmin : clocks'.min? = clocks.min? := min?_congr fun k => hmem.mem_iff.symm
    obtain ⟨v, hget, hc⟩ := bind_eq_ok.mp hc
    obtain ⟨hv, hget'⟩ := getItem_restore (.dict keys hvalues) hget
    simp only [bind_eq_ok]
    refine ⟨entries', by rw [he]; rfl, clocks', hclocks', v.restore, ?_, ?_⟩
    · rw [hmax, hmin]
      exact hget'
    · cases hl : readList toFloat v with
      | error e => simp [hl] at hc
      | ok l =>
        obtain ⟨_, hl', rfl⟩ := agrees_readList agrees_toFloat v hv l hl
        rw [hl']
        rwa [hl] at hc
  | _ => cases hitems

theorem agrees_readCoef : Agrees (readCoef (K := K)) Eq := by
  intro v hv coef h
  obtain ⟨l, hl, h⟩ := bind_eq_ok.mp h
  obtain ⟨_, hl', rfl⟩ := agrees_readList agrees_toFloat v hv l hl
  exact ⟨coef, bind_eq_ok.mpr ⟨l, hl', h⟩, rfl⟩

/-- What the Router and the Controller read of the restored table. -/
theorem read_restored {t : StoredTable K} (h : t.Tidy) {table : TierTable K} (hr : t.read = .ok table) :
    ∃ table', t.restored.read = .ok table' ∧ table.publishedAt = table'.publishedAt ∧
      table.evidence.Same table'.evidence := by
  have htidy : ∀ name {v}, (Key.str name, v) ∈ t.entries → v.Tidy := fun _ _ hv => h _ hv
  unfold read at hr
  obtain ⟨capacityH, h₁, hr⟩ := bind_eq_ok.mp hr
  obtain ⟨alphaTokens, h₂, hr⟩ := bind_eq_ok.mp hr
  obtain ⟨running, h₃, hr⟩ := bind_eq_ok.mp hr
  obtain ⟨limit, h₄, hr⟩ := bind_eq_ok.mp hr
  obtain ⟨length, h₅, hr⟩ := bind_eq_ok.mp hr
  obtain ⟨tokens, h₆, hr⟩ := bind_eq_ok.mp hr
  obtain ⟨publishedAt, h₇, hr⟩ := bind_eq_ok.mp hr
  obtain ⟨evidence, h₈, hr⟩ := bind_eq_ok.mp hr
  obtain rfl := Except.ok.inj hr
  obtain ⟨_, s₁, rfl⟩ := agrees_toFloat _ (htidy "capacity_h" (by simp [entries])) _ h₁
  obtain ⟨_, s₂, rfl⟩ := agrees_toFloat _ (htidy "alpha_tokens" (by simp [entries])) _ h₂
  obtain ⟨running', s₃, -⟩ := agrees_readOption agrees_asInt _ (htidy "decode_max_running" (by simp [entries])) _ h₃
  obtain ⟨limit', s₄, -⟩ := agrees_readOption agrees_asFloat _ (htidy "decode_kv_limit" (by simp [entries])) _ h₄
  obtain ⟨length', s₅, -⟩ := agrees_readOption (agrees_readDict keyReader_toNat agrees_readCoef) _
    (htidy "decode_length" (by simp [entries])) _ h₅
  obtain ⟨tokens', s₆, -⟩ := agrees_readOption agrees_asInt _ (htidy "decode_kv_tokens" (by simp [entries])) _ h₆
  obtain ⟨_, s₇, rfl⟩ := agrees_toFloat _ (htidy "published_at" (by simp [entries])) _ h₇
  obtain ⟨evidence', s₈, hsame⟩ := Evidence.agrees_read _ (htidy "evidence" (by simp [entries])) _ h₈
  refine ⟨⟨t.park, t.h, capacityH, alphaTokens, t.l, running', limit', length', tokens'.map Int.toNat, publishedAt,
    evidence'⟩, ?_, rfl, hsame⟩
  simp only [read, bind_eq_ok]
  exact ⟨_, s₁, _, s₂, _, s₃, _, s₄, _, s₅, _, s₆, _, s₇, _, s₈, rfl⟩

/-- The fields that hold one number, truth value or nothing. -/
def scalarFields : List (StoredTable K → PyValue K) :=
  [capacityH, alphaTokens, capacityL, tauUp, tauDown, decodeMaxRunning, decodeKvLimit, decodeWall, decodeKvTokens,
    publishedAt]

omit [Scalar K] in
theorem scalar_restored (t : StoredTable K) {f : StoredTable K → PyValue K} (hf : f ∈ scalarFields)
    (hs : (f t).IsScalar) : f t.restored = f t := by
  have hrestore : f t.restored = (f t).restore := by
    simp only [scalarFields, List.mem_cons, List.not_mem_nil, or_false] at hf
    rcases hf with rfl | rfl | rfl | rfl | rfl | rfl | rfl | rfl | rfl | rfl <;> rfl
  rw [hrestore, restore_scalar hs]

/-- A restart from the stored table: every clock point and scalar field is back, and whatever the length model, the
    cluster model and the Router made of the published table they make of the stored one. -/
theorem restart (t : StoredTable K) (ht : t.Tidy) : ∃ t', t.toJson.reload >>= fromJson = .ok t' ∧
    (t'.park = t.park ∧ t'.h = t.h ∧ t'.l = t.l ∧ ∀ f ∈ scalarFields, (f t).IsScalar → f t' = f t) ∧
    (∀ mhz coef, t.decodeCoef mhz = .ok coef → t'.decodeCoef mhz = .ok coef) ∧
    (∀ m, t.evidence.get "model" >>= StoredModel.fromJson = .ok m →
      ∃ m', t'.evidence.get "model" >>= StoredModel.fromJson = .ok m' ∧ m.Same m') ∧
    (∀ table, t.read = .ok table → ∃ table', t'.read = .ok table' ∧ ∀ {n : ℕ} (r : Router K n),
      Router.SameApplied { r with tiers := { r.tiers with table := some table } }.applyTable
        { r with tiers := { r.tiers with table := some table' } }.applyTable) ∧
    ∀ m : StoredModel K, ∃ m', m.toJson.reload >>= StoredModel.fromJson = .ok m' ∧ m.Same m' := by
  have hlength : t.decodeLength.Tidy := ht (.str "decode_length", t.decodeLength) (by simp [entries])
  have hevidence : t.evidence.Tidy := ht (.str "evidence", t.evidence) (by simp [entries])
  refine ⟨t.restored, fromJson_toJson ht, ⟨rfl, rfl, rfl, fun f => t.scalar_restored⟩, fun mhz coef =>
    decodeCoef_restored hlength, fun m hm => ?_, fun table hr => ?_, StoredModel.fromJson_toJson⟩
  · exact StoredModel.agrees_fromJson.entry hevidence (by decide +kernel) hm
  · obtain ⟨table', hr', hkey, hsame⟩ := read_restored ht hr
    exact ⟨table', hr', fun r => r.applyTable_same hkey hsame⟩

/-- A model of one P and one D clock. -/
def sampleModel : StoredModel ℚ where
  prefill := Dict.ofList [(1410, Dict.ofList [(512, 60), (1024, 110)])]
  residence := Dict.ofList [(1410, 900)]
  decode := Dict.ofList [(1410, [10, 1 / 10])]
  powerPrefill := Dict.ofList [(1410, [60, 150])]
  powerDecode := Dict.ofList [(1410, [55, 2])]
  parkPowerW := 40
  rhoPrefill := 7 / 10
  ttftSloMs := 1000
  tpotSloMs := 50
  kvBytesPerToken := 131072
  kvGateBytes := some 500000000
  kvCapacityTokens := none
  bStar := Dict.ofList [(1410, 64)]
  promptLimit := some 4096
  caps := Dict.ofList [("1410/1410", 4)]
  predictorCoef := some [1, 0, 1]
  slackCounts := some (Dict.ofList [("3", [40, 1])])
  theta := 1 / 10

/-- A table with a length model, evidence for the Router and a cluster model; one clock point is left as a record. -/
def sampleTable : StoredTable ℚ where
  park := ⟨345, 345⟩
  h := ⟨1410, 1410⟩
  capacityH := .float 4
  alphaTokens := .float 8192
  l := some ⟨1410, 1005⟩
  capacityL := .none
  tauUp := .none
  tauDown := .none
  decodeMaxRunning := .int 64
  decodeKvLimit := .none
  decodeWall := .bool true
  decodeLength := .dict [(.str "1005", .list [.float 2, .float 3, .float 1, .float 9]),
    (.str "1410", .list [.float 1, .float 2, .float 1, .float 7])]
  decodeKvTokens := .none
  publishedAt := .float 5
  evidence := .dict [(.str "prefill_ms_by_clock",
    .dict [(.int 1410, .dict [(.int 512, .float 60), (.int 1024, .float 110)])]),
    (.str "point", .record [("prefill_mhz", .int 1410), ("decode_mhz", .int 1410)]),
    (.str "admission", .dict [(.str "predictor_coef", .list [.float 1, .float 0, .float 1, .float 0, .float 0]),
      (.str "slack_counts", .dict [(.int 3, .list [.int 40, .int 1])]), (.str "kv_gate_fraction", .float (1 / 2))]),
    (.str "model", sampleModel.toJson)]

theorem sampleTable_tidy : sampleTable.Tidy := fun e he =>
  tidy_of_isTidy e.2 (List.all_eq_true.mp (by decide +kernel : sampleTable.entries.all fun e => e.2.isTidy) e he)

/-- The table restarts: its points are back, and its length model, its cluster model and what the Router takes from its
    evidence are the same. -/
theorem restart_sample : ∃ t', sampleTable.toJson.reload >>= fromJson = .ok t' ∧ t'.h = sampleTable.h ∧
    t'.decodeCoef 1200 = .ok (some [2, 3, 1, 9]) ∧
    (∃ m', t'.evidence.get "model" >>= StoredModel.fromJson = .ok m' ∧ m'.predictorCoef = some [1, 0, 1]) ∧
    ∃ table table', sampleTable.read = .ok table ∧ table.evidence.admission.isSome = true ∧ t'.read = .ok table' ∧
      Router.SameApplied { smallServing 1 with tiers := { (smallServing 1).tiers with table := some table } }.applyTable
        { smallServing 1 with tiers := { (smallServing 1).tiers with table := some table' } }.applyTable := by
  obtain ⟨t', ht', ⟨-, hh, -⟩, hcoef, hmodel, happlied, -⟩ := restart sampleTable sampleTable_tidy
  have hstored : ((sampleTable.evidence.get "model" >>= StoredModel.fromJson).toOption.any fun m =>
      decide (m.predictorCoef = some [1, 0, 1])) = true := by decide +kernel
  have hread : (sampleTable.read.toOption.any fun table => table.evidence.admission.isSome) = true := by decide +kernel
  obtain ⟨m, hm, hpredictor⟩ := exists_ok_of_any hstored
  obtain ⟨table, htable, hadmission⟩ := exists_ok_of_any hread
  obtain ⟨m', hm', hsame⟩ := hmodel m hm
  obtain ⟨table', htable', hrouter⟩ := happlied table htable
  exact ⟨t', ht', hh, hcoef 1200 _ (by decide +kernel),
    ⟨m', hm', hsame.predictorCoef.symm.trans (of_decide_eq_true hpredictor)⟩,
    table, table', htable, hadmission, htable', hrouter (smallServing 1)⟩

end StoredTable
end CanaTune
