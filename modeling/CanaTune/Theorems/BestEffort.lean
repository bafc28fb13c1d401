import CanaTune.Theorems.Fifo

/-! In best effort a prediction never holds a request back. The head of the queue is dispatched exactly when
    some route's D is within the hard limits, so nothing that was predicted or learned decides. -/

namespace CanaTune
variable {K : Type} [Scalar K] {n : ℕ}

/-! ### The length model -/

theorem lookup_isSome_of_mem_keys {ν : Type} {d : Dict ℕ ν} {k : ℕ} (h : k ∈ d.items.map (·.1)) : (d.lookup k).isSome := by
  rw [AList.lookup_isSome, AList.mem_keys]
  simpa [Dict.items, AList.keys, List.keys] using h

omit [Scalar K] in
/-- A length model with a clock has coefficients for every clock. -/
theorem decodeCoef_isSome {model : Dict ℕ (DecodeCoef K)} (h : model.items ≠ []) (mhz : ℕ) :
    (decodeCoef model mhz).isSome := by
  have hkeys : model.items.map (·.1) ≠ [] := by simpa using h
  obtain ⟨k, hk⟩ : ∃ k, CostBook.nearest (model.items.map (·.1)) (some mhz) = some k := by
    unfold CostBook.nearest
    dsimp only
    split
    · exact ⟨_, rfl⟩
    · exact Option.isSome_iff_exists.mp (List.isSome_min?_of_ne_nil hkeys)
  have hmem : k ∈ model.items.map (·.1) := by
    unfold CostBook.nearest at hk
    dsimp only at hk
    split at hk
    case h_1 hmax => exact Option.some.inj hk ▸ List.mem_of_mem_filter (List.max?_mem hmax)
    case h_2 => exact List.min?_mem hk
  rw [decodeCoef, hk, Option.bind_some]
  exact lookup_isSome_of_mem_keys hmem

namespace Router

/-- The KV that D would hold passes the wall of the table in force. -/
def projectedOver (r : Router K n) (tokens : ℕ) (d : Fin n) : Bool :=
  r.tiers.table.any fun table => (r.kvProjectedOver d tokens table (r.freshSnapshot d)).1

/-- D is within the hard limits: neither blocked nor, with slack admission, KV-blocked, and with the hard
    projection and a length model its projected KV does not pass the wall. -/
structure Takes (r : Router K n) (tokens : ℕ) (d : Fin n) : Prop where
  state : (r.decodeState d).2 = none
  gate : r.settings.admission = .slack → r.kvBlocked d tokens = false
  projection : r.settings.kvProjectionHard = true → r.lengthModel.isSome → r.projectedOver tokens d = false

/-- Without a reading of D's KV nothing is projected. -/
theorem kvProjectedOver_of_kvUsage (r : Router K n) (group : Fin n) (tokens : ℕ) (table : TierTable K)
    {snapshot : Option (EndpointSnapshot K)} (h : snapshot.bind (·.kvUsage) = none) :
    (r.kvProjectedOver group tokens table snapshot).1 = false := by
  unfold kvProjectedOver
  dsimp only
  split
  case h_1 _ s' _ =>
    rw [Option.bind_some] at h
    rw [h]
  case h_2 => rfl

/-- The length model warns of the KV exactly when the projection passes the wall. -/
theorem decodeRisk_decodeKv (r : Router K n) (group : Fin n) (tokens : ℕ) (table : TierTable K)
    {model : Dict ℕ (DecodeCoef K)} (hmodel : model.items ≠ []) :
    (r.decodeRisk group tokens table model).1 = some .decodeKv ↔
      (r.kvProjectedOver group tokens table (r.freshSnapshot group)).1 = true := by
  obtain ⟨coef, hcoef⟩ := Option.isSome_iff_exists.mp (decodeCoef_isSome hmodel (r.groups group).clock.decodeMhz)
  rw [(decodeRisk_spec r group tokens table model).2, hcoef]
  cases hsnap : r.freshSnapshot group with
  | none =>
    have hno := kvProjectedOver_of_kvUsage r group tokens table
      (show (none : Option (EndpointSnapshot K)).bind (·.kvUsage) = none from rfl)
    simp [hno]
  | some snapshot =>
    cases hkv : snapshot.kvUsage with
    | none =>
      have hno := kvProjectedOver_of_kvUsage r group tokens table (show (some snapshot).bind (·.kvUsage) = none from hkv)
      simp [hkv, hno]
    | some kvUsage =>
      simp only [hkv, Option.bind_some]
      split_ifs <;> simp_all

omit [Scalar K] in
theorem lengthModel_items {r : Router K n} {model : Dict ℕ (DecodeCoef K)} (h : r.lengthModel = some model) :
    model.items ≠ [] := by
  unfold lengthModel TierTable.lengthModel at h
  obtain ⟨table, -, h⟩ := Option.bind_eq_some_iff.mp h
  simpa using (Option.filter_eq_some_iff.mp h).2

theorem eligible_iff {r : Router K n} (hbest : r.settings.overload = .bestEffort) (hopen : r.openAdmission = false)
    (tokens : ℕ) (d : Fin n) : r.eligible tokens d = true ↔ r.Takes tokens d := by
  obtain ⟨table, htable⟩ : ∃ table, r.tiers.table = some table := by
    rw [openAdmission] at hopen
    exact Option.isSome_iff_exists.mp (by simpa using hopen)
  have hgate : (r.kvBlocked d tokens && r.settings.admission == .slack) = false ↔
      (r.settings.admission = .slack → r.kvBlocked d tokens = false) := by
    cases r.kvBlocked d tokens <;> cases r.settings.admission <;> simp
  -- The three conditions in the order the check reads them.
  have htakes : r.Takes tokens d ↔ (r.decodeState d).2 = none ∧
      (r.kvBlocked d tokens && r.settings.admission == .slack) = false ∧
      (r.settings.kvProjectionHard = true → r.lengthModel.isSome →
        (r.kvProjectedOver d tokens table (r.freshSnapshot d)).1 = false) := by
    rw [hgate]
    constructor
    · intro h
      exact ⟨h.state, h.gate, by simpa [projectedOver, htable] using h.projection⟩
    · intro h
      exact ⟨h.1, h.2.1, by simpa [projectedOver, htable] using h.2.2⟩
  rw [htakes]
  unfold Router.eligible withinHardLimits Router.checkD
  generalize (r.kvBlocked d tokens && r.settings.admission == .slack) = kv
  cases hstate : (r.decodeState d).2 with
  | some b => simp [hstate, hbest, htable]
  | none =>
    cases hmodel : r.lengthModel with
    | none => simp [hstate, hbest, htable]
    | some model =>
      have hrisk := decodeRisk_decodeKv r d tokens table (lengthModel_items hmodel)
      have hrisk := (not_congr hrisk).trans (by rw [Bool.not_eq_true])
      simp only [hstate, hbest, htable]
      cases hard : r.settings.kvProjectionHard <;> cases kv <;> simp [hrisk]

/-! ### What decides -/

/-- Two states agree on what the hard limits read: groups, telemetry, settings but theta, the KV gate, the
    projection and the table in force but B* and the evidence. What they learned may differ. -/
structure SameInputs (r s : Router K n) : Prop where
  groups : s.groups = r.groups
  now : s.now = r.now
  telemetry : s.telemetry = r.telemetry
  settings : s.settings = { r.settings with theta := s.settings.theta }
  table : ∃ t b e, r.tiers.table = some t ∧ s.tiers.table = some { t with decodeMaxRunning := b, evidence := e }
  outputMean : s.outputMean = r.outputMean
  kvFraction : s.applyTable.learned.kvFraction = r.applyTable.learned.kvFraction

theorem outputMean_applyTable (r : Router K n) : r.applyTable.outputMean = r.outputMean := by
  unfold applyTable
  dsimp only
  split_ifs <;> rfl

section SameInputs
variable {r s : Router K n} (h : SameInputs r s)
include h

theorem SameInputs.freshSnapshot (d : Fin n) : s.freshSnapshot d = r.freshSnapshot d := by
  have hset := congrArg RouterSettings.snapshotMaxAgeS h.settings
  dsimp only at hset
  simp only [Router.freshSnapshot, h.telemetry, hset, h.now]

theorem SameInputs.routes : s.routes = r.routes := by
  have hset := congrArg RouterSettings.pairing h.settings
  dsimp only at hset
  simp only [Router.routes, h.groups, hset]

theorem SameInputs.decodeState (hbest : r.settings.overload = .bestEffort) (d : Fin n) :
    (s.decodeState d).2 = (r.decodeState d).2 := by
  obtain ⟨t, b, e, hr, hs⟩ := h.table
  have hset := congrArg RouterSettings.overload h.settings
  dsimp only at hset
  unfold Router.decodeState
  simp only [h.freshSnapshot, h.telemetry, hr, hs, hset, hbest, ne_eq, not_true_eq_false, false_and, if_false]
  split_ifs <;> rfl

theorem SameInputs.kvBlocked (d : Fin n) (tokens : ℕ) :
    s.applyTable.kvBlocked d tokens = r.applyTable.kvBlocked d tokens := by
  have hs := untouched_applyTable s
  have hr := untouched_applyTable r
  have hbuf := congrArg RouterSettings.kvBufferBytes h.settings
  have hper := congrArg RouterSettings.kvBytesPerToken h.settings
  dsimp only at hbuf hper
  simp only [Router.kvBlocked, hs.settings, hr.settings, hs.groups, hr.groups, h.groups, hbuf, hper, h.kvFraction]

theorem SameInputs.projectedOver (d : Fin n) (tokens : ℕ) : s.projectedOver tokens d = r.projectedOver tokens d := by
  obtain ⟨t, b, e, hr, hs⟩ := h.table
  have hlimit := congrArg RouterSettings.kvProjectionLimit h.settings
  have hhard := congrArg RouterSettings.kvProjectionHard h.settings
  have hgrowth := congrArg RouterSettings.kvGrowth h.settings
  dsimp only at hlimit hhard hgrowth
  simp only [Router.projectedOver, hr, hs, Option.any_some, h.freshSnapshot]
  unfold Router.kvProjectedOver
  simp only [h.groups, h.outputMean, hlimit, hhard, hgrowth]
  split
  · split
    · rfl
    · split_ifs <;> rfl
  · rfl

end SameInputs

theorem SameInputs.of_untouched {r s : Router K n} (h : Untouched r s) (hopen : r.openAdmission = false)
    (hmean : s.outputMean = r.outputMean) (hkv : s.applyTable.learned.kvFraction = r.applyTable.learned.kvFraction) :
    SameInputs r s where
  groups := h.groups
  now := h.now
  telemetry := h.telemetry
  settings := by rw [h.settings]
  table := by
    obtain ⟨t, ht⟩ := Option.isSome_iff_exists.mp (show r.tiers.table.isSome by
      rw [openAdmission] at hopen
      simpa using hopen)
    exact ⟨t, t.decodeMaxRunning, t.evidence, ht, by rw [h.tiers, ht]⟩
  outputMean := hmean
  kvFraction := hkv

/-- The hard limits under the table in force, read off the state before it is applied. -/
theorem takes_applyTable {r : Router K n} (hbest : r.settings.overload = .bestEffort) (hopen : r.openAdmission = false)
    (tokens : ℕ) (d : Fin n) : r.applyTable.Takes tokens d ↔
    (r.decodeState d).2 = none ∧ (r.settings.admission = .slack → r.applyTable.kvBlocked d tokens = false) ∧
      (r.settings.kvProjectionHard = true → r.lengthModel.isSome → r.projectedOver tokens d = false) := by
  have hu := untouched_applyTable r
  have h := SameInputs.of_untouched hu hopen (outputMean_applyTable r) (by rw [applyTable_applyTable])
  have hmodel : r.applyTable.lengthModel = r.lengthModel := by simp only [lengthModel, hu.tiers]
  rw [← h.decodeState hbest, ← h.projectedOver, ← hmodel, ← hu.settings]
  constructor
  · intro ht
    exact ⟨ht.state, ht.gate, ht.projection⟩
  · rintro ⟨hstate, hgate, hprojection⟩
    exact ⟨hstate, hgate, hprojection⟩

theorem SameInputs.takes {r s : Router K n} (h : SameInputs r s) (hbest : r.settings.overload = .bestEffort)
    (tokens : ℕ) (d : Fin n) : s.applyTable.Takes tokens d ↔ r.applyTable.Takes tokens d := by
  obtain ⟨t, b, e, hr, hs⟩ := h.table
  have hover := congrArg RouterSettings.overload h.settings
  have hadm := congrArg RouterSettings.admission h.settings
  have hhard := congrArg RouterSettings.kvProjectionHard h.settings
  dsimp only at hover hadm hhard
  have hmodel : s.lengthModel = r.lengthModel := by simp only [lengthModel, hr, hs, Option.bind_some, TierTable.lengthModel]
  rw [takes_applyTable hbest (by simp [openAdmission, hr]),
    takes_applyTable (hover.trans hbest) (by simp [openAdmission, hs]),
    h.decodeState hbest, h.kvBlocked, h.projectedOver, hmodel, hadm, hhard]

/-! ### The head of the queue -/

/-- The attempt comes from the head of the queue, within its service time and outside baseline mode. -/
structure AtHead (r : Router K n) (waiter : ℕ) (waitedMs : K) : Prop where
  head : (Fifo.join r.books.queue waiter).head? = some waiter
  time : waitedMs < r.settings.holdMaxMs
  normal : r.baselineMode = false

theorem SameInputs.trans {r s u : Router K n} (h₁ : SameInputs r s) (h₂ : SameInputs s u) : SameInputs r u where
  groups := h₂.groups.trans h₁.groups
  now := h₂.now.trans h₁.now
  telemetry := h₂.telemetry.trans h₁.telemetry
  settings := by rw [h₂.settings, h₁.settings]
  table := by
    obtain ⟨t, b, e, hr, hs⟩ := h₁.table
    obtain ⟨t', b', e', hs', hu⟩ := h₂.table
    obtain rfl := Option.some.inj (hs.symm.trans hs')
    exact ⟨t, b', e', hr, hu⟩
  outputMean := h₂.outputMean.trans h₁.outputMean
  kvFraction := h₂.kvFraction.trans h₁.kvFraction

/-- The books and the production evidence decide nothing. -/
theorem sameInputs_books (r : Router K n) (hopen : r.openAdmission = false) (books : WaiterBooks K)
    (production : Production K n) : SameInputs r { r with books, production } where
  groups := rfl
  now := rfl
  telemetry := rfl
  settings := rfl
  table := by
    obtain ⟨t, ht⟩ := Option.isSome_iff_exists.mp (show r.tiers.table.isSome by
      rw [openAdmission] at hopen
      simpa using hopen)
    exact ⟨t, t.decodeMaxRunning, t.evidence, ht, ht⟩
  outputMean := rfl
  kvFraction := by
    unfold applyTable
    dsimp only
    split_ifs <;> rfl

/-- The state in which the head of the queue looks for its route. -/
theorem step_atHead {r : Router K n} (hbest : r.settings.overload = .bestEffort) (hopen : r.openAdmission = false)
    {waiter : ℕ} {waitedMs : K} (h : r.AtHead waiter waitedMs) (tokens : ℕ) (exact : Bool) :
    ∃ r', SameInputs r r' ∧ r'.settings = r.settings ∧ r'.openAdmission = false ∧
      r'.books.queue.head? = some waiter ∧
      r.step waiter tokens exact waitedMs = r'.atHead waiter (r'.tryAdmit tokens exact waitedMs false false true) := by
  obtain ⟨b₁, henqueue, hqueue⟩ : ∃ b, r.enqueue waiter waitedMs = { r with books := b } ∧
      b.queue = Fifo.join r.books.queue waiter := by
    refine ⟨(r.enqueue waiter waitedMs).books, ?_, enqueue_queue r waiter waitedMs⟩
    unfold enqueue
    split_ifs <;> rfl
  -- A waiter at the head is within its time, so nothing but the look for a route is left.
  have hstep : r.step waiter tokens exact waitedMs =
      (({ r with books := b₁ } : Router K n).scanFor waiter tokens waitedMs).atHead waiter
        ((({ r with books := b₁ } : Router K n).scanFor waiter tokens waitedMs).tryAdmit tokens exact waitedMs
          false false true) := by
    rw [Router.step, if_pos hbest, stepBestEffort, if_neg (not_le.mpr h.time), henqueue]
    dsimp only
    rw [if_neg (by simp [h.normal])]
  obtain ⟨r₂, b₂, p₂, hu, hs, hb₂, -, hscan⟩ := scanFor_spec ({ r with books := b₁ } : Router K n) waiter tokens waitedMs
  rw [hscan] at hstep
  have hopen₂ : r₂.openAdmission = false := by
    rw [openAdmission, hu.tiers]
    exact hopen
  have hmean : r₂.outputMean = ({ r with books := b₁ } : Router K n).outputMean := by
    rw [← outputMean_applyTable r₂, hs.outputMean, outputMean_applyTable]
  have h₁ := sameInputs_books r hopen b₁ r.production
  have h₂ := SameInputs.of_untouched hu hopen hmean hs.kvFraction
  refine ⟨_, h₁.trans (h₂.trans (sameInputs_books r₂ hopen₂ b₂ p₂)), hu.settings, hopen₂, ?_, hstep⟩
  show b₂.queue.head? = some waiter
  rw [hb₂, hqueue, h.head]

omit [Scalar K] in
theorem atHead_dispatches {r : Router K n} {waiter : ℕ} (hhead : r.books.queue.head? = some waiter)
    {a : Option (Ticket K n) × Router K n} :
    (∃ t s, r.atHead waiter (.ok a) = .ok (.ticket t, s)) ↔ a.1.isSome := by
  obtain ⟨rest, hq⟩ := List.head?_eq_some_iff.mp hhead
  obtain ⟨_ | t, s⟩ := a
  · simp [atHead, queueHead, hq, bind, Except.bind, pure, Except.pure, leaveWith]
  · simp [atHead, queueHead, hq, bind, Except.bind, pure, Except.pure, leaveWith]

theorem dispatches_iff_takes {r : Router K n} (hbest : r.settings.overload = .bestEffort)
    (hopen : r.openAdmission = false) {waiter : ℕ} {waitedMs : K} (h : r.AtHead waiter waitedMs) (tokens : ℕ)
    (exact : Bool) : r.dispatches waiter tokens exact waitedMs = true ↔
      ∃ route ∈ r.routes, r.applyTable.Takes tokens route.d := by
  obtain ⟨r', hsame, hset, hopen', hhead, hstep⟩ := step_atHead hbest hopen h tokens exact
  obtain ⟨a, hadmit, ha⟩ := tryAdmit_bestEffort hopen' tokens exact waitedMs false false
  have hu := untouched_applyTable r'
  have hroutes : r'.applyTable.routes = r'.routes := hu.routes
  rw [dispatches_iff, hstep, hadmit, atHead_dispatches hhead, ha, hroutes, hsame.routes]
  refine exists_congr fun route => and_congr_right fun _ => ?_
  rw [eligible_iff (by rw [hu.settings, hset, hbest]) (by rw [openAdmission_applyTable, hopen']), hsame.takes hbest]

/-- The head of the queue is dispatched exactly when some route's D is within the hard limits, and in two
    states that agree on what the limits read, in both or in neither. -/
theorem dispatches_iff_exists_takes {r : Router K n} (hbest : r.settings.overload = .bestEffort)
    (hopen : r.openAdmission = false) {waiter : ℕ} {waitedMs : K} (h : r.AtHead waiter waitedMs) (tokens : ℕ)
    (exact : Bool) :
    (r.dispatches waiter tokens exact waitedMs = true ↔ ∃ route ∈ r.routes, r.applyTable.Takes tokens route.d) ∧
    ∀ s : Router K n, SameInputs r s → s.AtHead waiter waitedMs →
      s.dispatches waiter tokens exact waitedMs = r.dispatches waiter tokens exact waitedMs := by
  refine ⟨dispatches_iff_takes hbest hopen h tokens exact, fun s hsame hs => ?_⟩
  have hover := congrArg RouterSettings.overload hsame.settings
  obtain ⟨t, b, e, -, htable⟩ := hsame.table
  rw [Bool.eq_iff_iff, dispatches_iff_takes hbest hopen h,
    dispatches_iff_takes (hover.trans hbest) (by simp [openAdmission, htable]) hs, hsame.routes]
  exact exists_congr fun route => and_congr_right fun _ => hsame.takes hbest tokens route.d

theorem dispatches_iff_exists_takes_smallServing :
    ((smallServing 2).dispatches 1 512 true 0 = true ↔
      ∃ route ∈ (smallServing 2).routes, (smallServing 2).applyTable.Takes 512 route.d) ∧
    ∀ s : Router ℚ 2, SameInputs (smallServing 2) s → s.AtHead 1 0 →
      s.dispatches 1 512 true 0 = (smallServing 2).dispatches 1 512 true 0 :=
  dispatches_iff_exists_takes rfl rfl ⟨rfl, by decide +kernel, rfl⟩ 512 true

end Router
end CanaTune
