import CanaTune.Controller.Calibrate
import CanaTune.Lib.Tally
import CanaTune.Theorems.Knee
import CanaTune.Theorems.Ridge

/-! What the calibration hands to the Router: each clean sample counts once in the slack seed, under a slack that the
    other half's fit predicted, and a gate or a cap lies between samples that were sent. -/

namespace CanaTune
variable {K : Type} [Scalar K]

/-! ### The two halves -/

section
variable {α β : Type}

theorem everyOther_cons (x : α) (l : List α) : everyOther (x :: l) = x :: everyOther l.tail := by
  cases l with
  | nil => rfl
  | cons y l => rfl

theorem everyOther_map (f : α → β) (l : List α) : everyOther (l.map f) = (everyOther l).map f := by
  fun_induction everyOther l with
  | case1 => rfl
  | case2 a => rfl
  | case3 a b rest ih => rw [List.map_cons, List.map_cons, everyOther, ih, List.map_cons]

theorem halfOf_map (f : α → β) (odd : Bool) (l : List α) : halfOf odd (l.map f) = (halfOf odd l).map f := by
  cases odd with
  | false => exact everyOther_map f l
  | true => rw [halfOf, if_pos rfl, halfOf, if_pos rfl, ← everyOther_map, List.map_tail]

/-- Each element is in one of the halves. -/
theorem halves_perm : ∀ l : List α, (halfOf false l ++ halfOf true l).Perm l
  | [] => .nil
  | x :: l => by
    have hfirst : halfOf false (x :: l) = x :: halfOf true l := everyOther_cons x l
    have hsecond : halfOf true (x :: l) = halfOf false l := rfl
    rw [hfirst, hsecond, List.cons_append]
    exact (List.perm_append_comm.trans (halves_perm l)).cons x

end

/-! ### The slack seed -/

theorem SlackRisk.edges_fresh (edges : List K) (minSamples : ℕ) : (SlackRisk.fresh edges minSamples).edges.Perm edges :=
  List.perm_insertionSort _ _

theorem SlackRisk.foldl_record {β : Type} (slack : β → K) (violated : β → Bool) (l : List β) : ∀ s : SlackRisk K,
    l.foldl (fun s e => s.record (slack e) (violated e)) s
      = { s with counts := (l.map fun e => (s.bucket (slack e), violated e)).foldl Dict.tallied s.counts } := by
  induction l with
  | nil => exact fun s => rfl
  | cons e l ih => exact fun s => by rw [List.foldl_cons, ih]; rfl

namespace AdmissionAsk
variable (a : AdmissionAsk K) (costs : CostBook K)

/-- The fit that predicts a half: of the near samples of the other half. -/
def foldFor (clean : List (ProbeSample K)) (odd : Bool) : List K :=
  a.base.fit (((halfOf (!odd) clean).map (a.row costs)).filter a.isNear)

/-- The bucket of the slack that the other half's fit predicts for a sample. -/
def heldOutBucket (clean : List (ProbeSample K)) (odd : Bool) (s : ProbeSample K) : ℕ :=
  (slackEdges a.ttftSloMs).countP
    (· ≤ a.ttftSloMs - fitted (a.foldFor costs clean odd) (sampleFeatures costs a.kvBytesPerToken s))

def heldOut (clean : List (ProbeSample K)) (odd : Bool) : List (ℕ × Bool) :=
  (halfOf odd clean).map fun s => (a.heldOutBucket costs clean odd s, s.violated.getD false)

variable {a costs} {clean : List (ProbeSample K)}

theorem recordHalf_eq (odd : Bool) {s : SlackRisk K} (hedges : s.edges.Perm (slackEdges a.ttftSloMs)) :
    a.recordHalf costs clean s odd = { s with counts := (a.heldOut costs clean odd).foldl Dict.tallied s.counts } := by
  have hrows : (halfOf odd (clean.map (a.row costs))).zip (halfOf odd clean)
      = (halfOf odd clean).map fun x => (a.row costs x, x) := by
    rw [halfOf_map, ← List.map_prod_right_eq_zip]
  unfold recordHalf
  rw [hrows, SlackRisk.foldl_record, List.map_map, halfOf_map, heldOut]
  congr 2
  exact List.map_congr_left fun x _ => Prod.ext (hedges.countP_eq _) rfl

theorem recordHalf_counts (odd : Bool) {s : SlackRisk K} (hedges : s.edges.Perm (slackEdges a.ttftSloMs)) :
    (a.recordHalf costs clean s odd).counts = (a.heldOut costs clean odd).foldl Dict.tallied s.counts := by
  rw [recordHalf_eq odd hedges]

theorem recordHalf_edges (odd : Bool) {s : SlackRisk K} (hedges : s.edges.Perm (slackEdges a.ttftSloMs)) :
    (a.recordHalf costs clean s odd).edges.Perm (slackEdges a.ttftSloMs) := by
  rw [recordHalf_eq odd hedges]
  exact hedges

/-- What both halves count. -/
theorem foldl_recordHalf {s : SlackRisk K} (hedges : s.edges.Perm (slackEdges a.ttftSloMs)) :
    ([false, true].foldl (a.recordHalf costs clean) s).counts
      = (a.heldOut costs clean false ++ a.heldOut costs clean true).foldl Dict.tallied s.counts := by
  rw [List.foldl_append, ← recordHalf_counts false hedges]
  exact recordHalf_counts true (recordHalf_edges false hedges)

theorem slack_counts :
    ([false, true].foldl (a.recordHalf costs clean) (.fresh (slackEdges a.ttftSloMs) a.minSamples)).counts
    = Dict.tally (a.heldOut costs clean false ++ a.heldOut costs clean true) := by
  rw [foldl_recordHalf (SlackRisk.edges_fresh _ _)]
  rfl

theorem length_heldOut : (a.heldOut costs clean false ++ a.heldOut costs clean true).length = clean.length := by
  rw [heldOut, heldOut, List.length_append, List.length_map, List.length_map, ← List.length_append,
    (halves_perm clean).length_eq]

theorem countP_heldOut : (a.heldOut costs clean false ++ a.heldOut costs clean true).countP (·.2)
    = clean.countP fun s => s.violated = some true := by
  rw [← (halves_perm clean).countP_eq, heldOut, heldOut, List.countP_append, List.countP_append, List.countP_map,
    List.countP_map]
  have hviolated : ∀ v : Option Bool, v.getD false = true ↔ decide (v = some true) = true := by decide
  congr 1 <;> exact List.countP_congr fun s _ => hviolated s.violated

def nearRows (a : AdmissionAsk K) (costs : CostBook K) (samples : List (ProbeSample K)) : List (List K × K) :=
  ((cleanSamples samples).map (a.row costs)).filter a.isNear

/-- What the evidence consists of. -/
structure Calibrated (a : AdmissionAsk K) (costs : CostBook K) (samples : List (ProbeSample K)) (r : AdmissionEvidence K) :
    Prop where
  enough : 2 * a.minSamples ≤ (a.nearRows costs samples).length
  total : r.samples = (cleanSamples samples).length
  fitSamples : r.fitSamples = (a.nearRows costs samples).length
  violations : r.violations = (cleanSamples samples).countP fun s => s.violated = some true
  coef : r.predictorCoef = (a.base.fit (a.nearRows costs samples)).map (Scalar.roundTo 4)
  slackCounts : r.slackCounts = Dict.sorted (Dict.tally
    (a.heldOut costs (cleanSamples samples) false ++ a.heldOut costs (cleanSamples samples) true))
  gate : (r.kvGateFraction, r.kvGateSource, r.kvGateBins) = kvGateFraction
    (atOrAbove (cleanSamples samples) a.prefillMhz a.minSamples) a.kvBytesPerToken a.bufferBytes a.theta a.minSamples
  slot : (r.pSlotCap, r.pSlotSource, r.pSlotBins) = pSlotCap
    (atOrAbove (cleanSamples samples) a.prefillMhz a.minSamples) a.theta a.minSamples
  kneeSamples : r.kneeSamples = (atOrAbove (cleanSamples samples) a.prefillMhz a.minSamples).length

theorem calibrated {samples : List (ProbeSample K)} {r : AdmissionEvidence K}
    (h : a.calibrateAdmission costs samples = some r) :
    Calibrated a costs samples r := by
  unfold calibrateAdmission at h
  simp only at h
  split_ifs at h with hclean hnear
  obtain rfl := Option.some.inj h
  exact ⟨not_lt.mp hnear, rfl, rfl, rfl, rfl, congrArg Dict.sorted slack_counts, rfl, rfl, rfl⟩

/-- Each clean sample counts once, in the bucket of the slack that the other half's fit predicted for it. -/
theorem slack_seed {samples : List (ProbeSample K)} {r : AdmissionEvidence K}
    (h : a.calibrateAdmission costs samples = some r) :
    r.samples = (cleanSamples samples).length ∧ 2 * a.minSamples ≤ r.fitSamples ∧ r.fitSamples ≤ r.samples ∧
    (∀ b n k, (b, n, k) ∈ r.slackCounts ↔ 0 < n ∧
      n = ([false, true].map fun odd => (a.heldOut costs (cleanSamples samples) odd).countP (·.1 = b)).sum ∧
      k = ([false, true].map fun odd => (a.heldOut costs (cleanSamples samples) odd).countP fun e => e.1 = b ∧
        e.2 = true).sum) ∧
    (r.slackCounts.map (·.2.1)).sum = r.samples ∧ (r.slackCounts.map (·.2.2)).sum = r.violations := by
  have hr := calibrated h
  refine ⟨hr.total, hr.fitSamples ▸ hr.enough, ?_, fun b n k => ?_, ?_, ?_⟩
  · rw [hr.fitSamples, hr.total]
    exact (List.length_filter_le _ _).trans_eq (List.length_map _)
  · rw [hr.slackCounts, Dict.mem_sorted, Dict.mem_items, Dict.lookup_tally, List.countP_append, List.countP_append]
    simp only [List.map_cons, List.map_nil, List.sum_cons, List.sum_nil, add_zero]
    split_ifs with hzero
    · refine ⟨fun h => (by cases h), fun ⟨hpos, hn, _⟩ => ?_⟩
      omega
    · rw [Option.some.injEq, Prod.mk.injEq]
      exact ⟨fun ⟨hn, hk⟩ => ⟨hn ▸ Nat.pos_of_ne_zero hzero, hn.symm, hk.symm⟩, fun ⟨_, hn, hk⟩ => ⟨hn.symm, hk.symm⟩⟩
  · rw [hr.slackCounts, hr.total, Dict.sum_sorted (fun v : ℕ × ℕ => v.1), (Dict.sum_tally _).1, length_heldOut]
  · rw [hr.slackCounts, hr.violations, Dict.sum_sorted (fun v : ℕ × ℕ => v.2), (Dict.sum_tally _).2, countP_heldOut]

/-- Two requests on an idle pair, and two sent while more than half of the buffer was in flight. -/
def smallCanary : List (ProbeSample ℚ) :=
  [⟨1815, 1050, 128, [], 0, 0, some 100, some false⟩, ⟨1815, 1050, 512, [], 0, 1, some 200, some false⟩,
    ⟨1815, 1050, 128, [512], 5000, 2, some 1200, some true⟩, ⟨1815, 1050, 512, [512], 5000, 2, some 1400, some true⟩]

def smallCosts : CostBook ℚ := .ofTables (Dict.ofList [(1815, Dict.ofList [(128, 20), (512, 60)])])

theorem small_prior : ∀ c ∈ (none : Option (List ℚ)), c.length = featureCount := fun _ hc => nomatch hc

def smallAdmission : AdmissionAsk ℚ where
  prior := none
  priorLength := small_prior
  ttftSloMs := 1000
  theta := 1 / 100
  kvBytesPerToken := 131072
  bufferBytes := some (10 ^ 9)
  minSamples := 1
  prefillMhz := some 1500

theorem small_calibrated : ∃ r, smallAdmission.calibrateAdmission smallCosts smallCanary = some r :=
  Option.isSome_iff_exists.mp (by decide +kernel)

theorem slack_seed_small : ∃ r, smallAdmission.calibrateAdmission smallCosts smallCanary = some r ∧ r.samples = 4 ∧
    (r.slackCounts.map (·.2.1)).sum = r.samples := by
  obtain ⟨r, hr⟩ := small_calibrated
  obtain ⟨hsamples, -, -, -, htotal, -⟩ := slack_seed hr
  exact ⟨r, hr, hsamples.trans (by decide +kernel), htotal⟩

end AdmissionAsk

/-! ### The knees -/

section
variable {bin : ProbeSample K → ℕ} {samples : List (ProbeSample K)}

/-- The bins of the samples whose outcome is known. -/
def outcomesOf (bin : ProbeSample K → ℕ) (samples : List (ProbeSample K)) : List (ℕ × Bool) :=
  samples.filterMap fun s => s.violated.map fun v => (bin s, v)

omit [Scalar K] in
theorem kneeCounts_eq (bin : ProbeSample K → ℕ) (samples : List (ProbeSample K)) :
    kneeCounts bin samples = ⟨∅, Dict.tally (outcomesOf bin samples)⟩ := by
  have hfold : ∀ c : KneeCounts, samples.foldl (fun c s => s.violated.elim c fun v => c.record (bin s) v) c
      = ⟨c.seed, (outcomesOf bin samples).foldl Dict.tallied c.live⟩ := by
    unfold outcomesOf
    induction samples with
    | nil => exact fun c => rfl
    | cons s samples ih =>
      intro c
      rw [List.foldl_cons, ih]
      cases hv : s.violated with
      | none => rw [List.filterMap_cons_none (by rw [hv]; rfl), Option.elim_none]
      | some v => rw [List.filterMap_cons_some (by rw [hv]; rfl), Option.elim_some, List.foldl_cons]; rfl
  exact hfold _

omit [Scalar K] in
/-- Every sample is in one bin. -/
theorem requests_kneeCounts (hknown : ∀ s ∈ samples, s.violated.isSome) :
    BinCount.requests (kneeCounts bin samples).counts = samples.length := by
  obtain ⟨all, hall, hlookup⟩ := (kneeCounts bin samples).counts_eq
  have hlive : all.Rel Eq (Dict.tally (outcomesOf bin samples)) := Dict.rel_eq.mpr fun b => by
    rw [hlookup, kneeCounts_eq]
    cases (Dict.tally (outcomesOf bin samples)).lookup b with
    | none => rfl
    | some v => simp
  have hlength : (outcomesOf bin samples).length = samples.length := by
    rw [outcomesOf, List.length_filterMap_eq_countP, List.countP_eq_length]
    exact fun s hs => by rw [Option.isSome_map]; exact hknown s hs
  rw [hall, BinCount.requests, List.map_map, ← hlength, ← (Dict.sum_tally _).1, Dict.sorted_eq_of_rel hlive]
  exact Dict.sum_sorted (fun v : ℕ × ℕ => v.1) _

/-- A knee is a bin in which a sample was sent, above a bin in which one was sent. -/
theorem knee_observed {theta : K} {m b : ℕ} (h : (kneeCounts bin samples).knee theta m = some b) :
    0 < b ∧ (∃ s ∈ samples, bin s = b) ∧ ∃ s ∈ samples, bin s < b := by
  have hbinned : (kneeCounts bin samples).Binned {b | ∃ s ∈ samples, bin s = b} := by
    rw [kneeCounts_eq]
    refine ⟨fun b hb => (by cases hb), fun b hb => ?_⟩
    rw [Dict.lookup_tally] at hb
    split_ifs at hb with hzero
    · cases hb
    · obtain ⟨e, he, hbin⟩ := List.countP_pos_iff.mp (Nat.pos_of_ne_zero hzero)
      obtain ⟨s, hs, hse⟩ := List.mem_filterMap.mp he
      obtain ⟨v, -, rfl⟩ := Option.map_eq_some_iff.mp hse
      exact ⟨s, hs, of_decide_eq_true hbin⟩
  obtain ⟨x, hx, e, he, rfl, hlt⟩ := KneeCounts.knee_above h
  obtain ⟨s, hs, hbin⟩ := hbinned.counts hx
  exact ⟨(Nat.zero_le _).trans_lt hlt, hbinned.counts he, s, hs, hbin ▸ hlt⟩

end

namespace AdmissionAsk
variable {a : AdmissionAsk K} {costs : CostBook K}

omit [Scalar K] in
theorem atOrAbove_sub {samples : List (ProbeSample K)} {f : Option ℕ} {m : ℕ} {s : ProbeSample K}
    (h : s ∈ atOrAbove samples f m) : s ∈ samples := by
  unfold atOrAbove at h
  split at h
  · exact h
  · simp only at h
    split_ifs at h
    · exact List.mem_of_mem_filter h
    · exact h

section
variable {knees : List (ProbeSample K)} {theta kvBytesPerToken : K} {m : ℕ} {source : KneeSource} {bins : List BinCount}

theorem pSlotCap_observed {cap : Option ℕ} (hknown : ∀ s ∈ knees, s.violated.isSome)
    (h : (cap, source, bins) = CanaTune.pSlotCap knees theta m) :
    (∀ c ∈ cap, 1 ≤ c ∧ c ≤ 31 ∧ (∃ s ∈ knees, c ≤ s.atPrefill.length) ∧ ∃ s ∈ knees, s.atPrefill.length < c) ∧
      BinCount.requests bins = knees.length := by
  dsimp only [CanaTune.pSlotCap] at h
  split at h
  · cases h
    exact ⟨fun c hc => (by cases hc), requests_kneeCounts hknown⟩
  case h_2 b hb =>
    cases h
    obtain ⟨hpos, ⟨s, hs, hat⟩, s', hs', hbelow⟩ := knee_observed hb
    have htop : b ≤ 31 := hat ▸ KneeCounts.pSlotBin_le _
    have hreach : ∀ n : ℕ, b ≤ pSlotBin n ↔ b ≤ n := fun n => by
      rw [pSlotBin, KneeCounts.le_toNat_clamp hpos (by rw [pSlotBins]; omega), Nat.cast_le]
    refine ⟨fun c hc => ?_, requests_kneeCounts hknown⟩
    obtain rfl : b = c := (max_eq_right hpos).symm.trans (Option.some.inj hc)
    exact ⟨hpos, htop, ⟨s, hs, (hreach _).mp hat.ge⟩, s', hs', not_le.mp fun hle => hbelow.not_ge ((hreach _).mpr hle)⟩

theorem gateOfBin_mem {b : ℕ} (h : b ≤ 9) : (1 / 10 : K) ≤ gateOfBin b ∧ (gateOfBin b : K) ≤ 1 := by
  have hb : (b : K) ≤ 10 := by exact_mod_cast h.trans (by norm_num)
  rw [gateOfBin, kvGateBins]
  refine ⟨(le_max_left _ _).trans' (by norm_num), max_le (by norm_num) ?_⟩
  rw [div_le_one (by norm_num)]
  exact hb.trans_eq (by norm_num)

theorem kvGateFraction_observed {fraction bufferBytes : Option K} (hknown : ∀ s ∈ knees, s.violated.isSome)
    (h : (fraction, source, bins) = CanaTune.kvGateFraction knees kvBytesPerToken bufferBytes theta m) :
    (bufferBytes = none → fraction = none) ∧
    ∀ buffer ∈ bufferBytes, 0 < buffer → BinCount.requests bins = knees.length ∧ ∃ g, fraction = some g ∧
      1 / 10 ≤ g ∧ g ≤ 1 ∧ (source = .buffer ∧ g = 1 ∨ source = .measured ∧
        (∃ s ∈ knees, g * buffer ≤ s.inflightTokens * kvBytesPerToken) ∧
        ∃ s ∈ knees, s.inflightTokens * kvBytesPerToken < g * buffer) := by
  cases bufferBytes with
  | none =>
    cases h
    exact ⟨fun _ => rfl, fun buffer hsome => by cases hsome⟩
  | some buffer =>
    refine ⟨fun hnone => (by cases hnone), fun buffer' hsome hbuffer => ?_⟩
    obtain rfl : buffer = buffer' := Option.some.inj hsome
    dsimp only [CanaTune.kvGateFraction] at h
    split at h
    · cases h
      exact ⟨requests_kneeCounts hknown, 1, rfl, by norm_num, le_rfl, .inl ⟨rfl, rfl⟩⟩
    -- The gate is the lower edge of the knee's bin: a sample of the bin reaches it, one below does not.
    case h_2 b hb =>
      cases h
      obtain ⟨hpos, ⟨s, hs, hat⟩, s', hs', hbelow⟩ := knee_observed hb
      have htop : b ≤ 9 := hat ▸ KneeCounts.kvGateBin_le _ _
      have hreach := fun x : K => KneeCounts.le_kvGateBin hpos htop (x := x) hbuffer
      obtain ⟨hlow, hhigh⟩ := gateOfBin_mem (K := K) htop
      exact ⟨requests_kneeCounts hknown, gateOfBin b, rfl, hlow, hhigh,
        .inr ⟨rfl, ⟨s, hs, (hreach _).mp hat.ge⟩, s', hs', not_le.mp fun hle => hbelow.not_ge ((hreach _).mpr hle)⟩⟩

end

/-- The KV gate and the slot cap count the same samples; a measured one lies between what was in flight, or at P, when two
    of them were sent. -/
theorem gates_observed {samples : List (ProbeSample K)} {r : AdmissionEvidence K}
    (h : a.calibrateAdmission costs samples = some r) (hbuffer : ∀ x ∈ a.bufferBytes, 0 < x) :
    ∃ knees : List (ProbeSample K), knees = atOrAbove (cleanSamples samples) a.prefillMhz a.minSamples ∧
      r.kneeSamples = knees.length ∧ BinCount.requests r.pSlotBins = r.kneeSamples ∧
      (∀ c ∈ r.pSlotCap, 1 ≤ c ∧ c ≤ 31 ∧ (∃ s ∈ knees, c ≤ s.atPrefill.length) ∧ ∃ s ∈ knees, s.atPrefill.length < c) ∧
      (a.bufferBytes = none → r.kvGateFraction = none) ∧
      ∀ buffer ∈ a.bufferBytes, BinCount.requests r.kvGateBins = r.kneeSamples ∧ ∃ g, r.kvGateFraction = some g ∧
        1 / 10 ≤ g ∧ g ≤ 1 ∧ (r.kvGateSource = .buffer ∧ g = 1 ∨ r.kvGateSource = .measured ∧
          (∃ s ∈ knees, g * buffer ≤ s.inflightTokens * a.kvBytesPerToken) ∧
          ∃ s ∈ knees, s.inflightTokens * a.kvBytesPerToken < g * buffer) := by
  have hr := calibrated h
  have hknown : ∀ s ∈ atOrAbove (cleanSamples samples) a.prefillMhz a.minSamples, s.violated.isSome := fun s hs =>
    ((Bool.and_eq_true _ _).mp (List.mem_filter.mp (atOrAbove_sub hs)).2).2
  obtain ⟨hcap, hslots⟩ := pSlotCap_observed hknown hr.slot
  obtain ⟨hnone, hgate⟩ := kvGateFraction_observed hknown hr.gate
  refine ⟨_, rfl, hr.kneeSamples, hslots.trans hr.kneeSamples.symm, hcap, hnone, fun buffer hsome => ?_⟩
  obtain ⟨hbins, hfraction⟩ := hgate buffer hsome (hbuffer buffer hsome)
  exact ⟨hbins.trans hr.kneeSamples.symm, hfraction⟩

theorem gates_observed_small : ∃ r, smallAdmission.calibrateAdmission smallCosts smallCanary = some r ∧
    BinCount.requests r.pSlotBins = r.kneeSamples ∧ ∃ g, r.kvGateFraction = some g ∧ 1 / 10 ≤ g ∧ g ≤ 1 := by
  obtain ⟨r, hr⟩ := small_calibrated
  have hbuffer : ∀ x ∈ smallAdmission.bufferBytes, 0 < x := fun x hx => by
    obtain rfl : 10 ^ 9 = x := Option.some.inj hx
    norm_num
  obtain ⟨knees, -, -, hslots, -, -, hgate⟩ := gates_observed hr hbuffer
  obtain ⟨-, g, hg, hlow, hhigh, -⟩ := hgate (10 ^ 9) rfl
  exact ⟨r, hr, hslots, g, hg, hlow, hhigh⟩

/-! ### The fit -/

omit [Scalar K] in
theorem near_ne_nil {α : Type} {l : List α} {m : ℕ} (h : 2 * m ≤ l.length) (hm : 1 ≤ m) : l ≠ [] := by
  rintro rfl
  rw [List.length_nil] at h
  omega

theorem clipMs_base : a.base.clipMs = some (2 * a.ttftSloMs) := by
  unfold base TtftPredictor.withPrior
  cases a.prior <;> rfl

theorem coef_probe (l : List (List K × K)) : (a.base.probe l).coef = a.prior.getD (List.replicate featureCount 0) := by
  unfold TtftPredictor.probe base TtftPredictor.withPrior
  cases a.prior <;> rfl

theorem ridge_probe (l : List (List K × K)) : 0 < (a.base.probe l).ridge := by
  unfold TtftPredictor.probe
  dsimp only
  split_ifs
  · norm_num
  · exact div_pos one_pos (pow_pos (by norm_num) 6)

/-- A near sample is below the clip. -/
theorem samples_probe (l : List (List K × K)) : (a.base.probe (l.filter a.isNear)).samples = l.filter a.isNear := by
  have hsame : ∀ e ∈ l.filter a.isNear, (e.1, a.base.clipped e.2) = e := fun e he => by
    have hnear : e.2 ≤ 2 * a.ttftSloMs := of_decide_eq_true (List.mem_filter.mp he).2
    rw [TtftPredictor.clipped, clipMs_base]
    exact Prod.ext rfl (min_eq_left hnear)
  exact (List.map_congr_left hsame).trans (List.map_id _)

/-- The coefficients are the unique minimiser of the near samples' squared errors and the ridge, to four decimals; a system
    without a pivot leaves the prior, or zeros. -/
theorem coef_least {samples : List (ProbeSample K)} {r : AdmissionEvidence K}
    (h : a.calibrateAdmission costs samples = some r)
    (hm : 1 ≤ a.minSamples) : ∃ near, near = a.nearRows costs samples ∧
      r.fitSamples = near.length ∧ (a.base.probe near).samples = near ∧
      (r.predictorCoef = (a.prior.getD (List.replicate featureCount 0)).map (Scalar.roundTo 4) ∧
        (∃ col < featureCount, ∃ left, eliminated featureCount col
          (system (a.base.probe near).normalMatrix (a.base.probe near).normalVector) = some left ∧
            NoPivot featureCount left col) ∨
      ∃ c : Fin featureCount → K, r.predictorCoef = (List.ofFn c).map (Scalar.roundTo 4) ∧
        (∀ c', (a.base.probe near).objective c ≤ (a.base.probe near).objective c') ∧
        (∀ c', (a.base.probe near).objective c' ≤ (a.base.probe near).objective c → c' = c)) := by
  have hr := calibrated h
  have hne := near_ne_nil hr.enough hm
  have hsamples : (a.base.probe (a.nearRows costs samples)).samples = a.nearRows costs samples := samples_probe _
  refine ⟨_, rfl, hr.fitSamples, hsamples, ?_⟩
  rw [hr.coef, TtftPredictor.fit, if_neg hne]
  rcases TtftPredictor.refit_ridge _ (hsamples ▸ hne) (ridge_probe _) with ⟨hkept, hpivot⟩ | ⟨c, hc, hmin, hunique, -⟩
  · exact .inl ⟨by rw [hkept, coef_probe], hpivot⟩
  · exact .inr ⟨c, by rw [hc], hmin, hunique⟩

theorem coef_least_small : ∃ r, smallAdmission.calibrateAdmission smallCosts smallCanary = some r ∧ r.fitSamples = 4 := by
  obtain ⟨r, hr⟩ := small_calibrated
  obtain ⟨near, hnear, hfit, -⟩ := coef_least hr le_rfl
  have hfour : (smallAdmission.nearRows smallCosts smallCanary).length = 4 := by decide +kernel
  exact ⟨r, hr, hfit.trans (hnear ▸ hfour)⟩

end AdmissionAsk
end CanaTune
