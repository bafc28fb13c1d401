import CanaTune.Theorems.Attempt

/-! The hard guards of an admission. Whatever the policy, a ticket outside baseline mode is issued only on a
    route within the guards. Baseline mode reads the KV gate before it applies a newly published table, so
    there the guards hold exactly when the new gate does not block the pair whose turn it is. -/

namespace CanaTune
variable {K : Type} [Scalar K] {n : ℕ}
namespace Router

/-! ### The guards -/

/-- D's snapshot is recent and shows no more KV than the table allows. -/
structure InWall (s : Router K n) (snapshot : EndpointSnapshot K) : Prop where
  recent : s.now - snapshot.takenAt ≤ s.settings.snapshotMaxAgeS
  wall : ∀ table limit kv, s.tiers.table = some table → table.decodeKvLimit = some limit →
    snapshot.kvUsage = some kv → kv ≤ limit

/-- The KV in flight to D is below the gate, and the request fits under it or is alone. -/
structure UnderGate (s : Router K n) (tokens : ℕ) (d : Fin n) (buffer : K) : Prop where
  below : (s.groups d).inflightBytes < s.learned.kvFraction * buffer
  fits : (s.groups d).inflightBytes = 0 ∨
    (s.groups d).inflightBytes + tokens * s.settings.kvBytesPerToken ≤ s.learned.kvFraction * buffer

/-- The guards of a route. `gated`: the KV gate applies. -/
structure Guarded (s : Router K n) (tokens : ℕ) (route : Route n) (gated : Prop) : Prop where
  p : (s.groups route.p).routable = true
  d : (s.groups route.d).routable = true
  snapshot : ∀ telemetry, s.telemetry = some telemetry →
    ∃ snapshot, telemetry.latest route.d = some snapshot ∧ s.InWall snapshot
  gate : gated → ∀ buffer, s.settings.kvBufferBytes = some buffer → s.UnderGate tokens route.d buffer

theorem underGate_iff {r : Router K n} (tokens : ℕ) {d : Fin n} (hnn : 0 ≤ (r.groups d).inflightBytes) :
    (∀ buffer, r.settings.kvBufferBytes = some buffer → r.UnderGate tokens d buffer) ↔ r.kvBlocked d tokens = false := by
  unfold kvBlocked
  cases hb : r.settings.kvBufferBytes with
  | none => simp
  | some buffer =>
    simp only [Option.some.injEq, forall_eq', Bool.or_eq_false_iff, Bool.and_eq_false_iff, decide_eq_false_iff_not, not_le,
      not_lt]
    refine ⟨fun h => ⟨h.below, h.fits.imp (·.le) id⟩, fun ⟨hlt, hfits⟩ => ⟨hlt, hfits.imp (fun h => le_antisymm h hnn) id⟩⟩

/-- D that is not blocked has its snapshot within the wall. -/
theorem snapshot_of_decodeState {r : Router K n} {d : Fin n} (h : (r.decodeState d).2 = none) :
    ∀ telemetry, r.telemetry = some telemetry →
      ∃ snapshot, telemetry.latest d = some snapshot ∧ r.InWall snapshot := by
  intro telemetry ht
  unfold decodeState at h
  dsimp only at h
  cases hf : r.freshSnapshot d with
  | none => simp [hf, ht] at h
  | some snapshot =>
    have hlatest : telemetry.latest d = some snapshot ∧ r.now - snapshot.takenAt ≤ r.settings.snapshotMaxAgeS := by
      rw [freshSnapshot, ht, Option.bind_some, Telemetry.fresh] at hf
      split at hf
      · exact absurd hf (by simp)
      case h_2 hl =>
        split_ifs at hf with hstale
        obtain rfl := Option.some.inj hf
        simp only [Bool.or_eq_true, decide_eq_true_eq, not_or, not_lt] at hstale
        exact ⟨hl, hstale.2⟩
    refine ⟨snapshot, hlatest.1, hlatest.2, fun table limit kv htable hlimit hkv => ?_⟩
    simp only [hf, ht, htable, Option.isSome_some, Option.isNone_some, Bool.false_eq_true, and_false, if_false,
      Option.bind_some, hlimit, hkv, Option.mem_def, Option.some.injEq, exists_eq_left'] at h
    split_ifs at h with _ hover
    exact not_lt.mp hover

/-! ### The ticket's route at the moment of issue -/

/-- The guards hold at the ticket exactly when they hold under the table in force before it. -/
theorem Admits.guarded_iff {r s : Router K n} {tokens : ℕ} {route : Route n} {t : Ticket K n}
    (h : r.Admits tokens route t s) (gated : Prop) :
    s.Guarded tokens ⟨t.group, t.dgroup⟩ gated ↔ r.applyTable.Guarded tokens route gated := by
  obtain ⟨r₁, c, exact, waitedMs, kind, hs, rfl, hissue⟩ := h
  have hi := issued_issue r₁ c tokens exact waitedMs kind
  obtain ⟨hnow, htel, htiers, hlearned⟩ := issue_context r₁ c tokens exact waitedMs kind
  rw [hissue] at hi hnow htel htiers hlearned
  have hu := untouched_applyTable r₁
  have hroute : (⟨t.group, t.dgroup⟩ : Route n) = c.route := by rw [hi.group, hi.dgroup]
  have hgroups : r₁.groups = r.applyTable.groups := hu.groups.symm.trans hs.groups
  -- The issue writes nothing that a guard reads.
  have hroutable (g : Fin n) : (s.groups g).routable = (r.applyTable.groups g).routable := by
    have hc := hi.control g
    simp only [Group.control, Prod.mk.injEq] at hc
    rw [Group.routable, hc.2.1, hc.2.2.2, hgroups, Group.routable]
  have hbytes (g : Fin n) : (s.groups g).inflightBytes = (r.applyTable.groups g).inflightBytes := by
    rw [hi.bytes, hgroups]
  have hsettings : s.settings = r.applyTable.settings := hi.settings.trans (hu.settings.symm.trans hs.settings)
  have htables : s.tiers = r.applyTable.tiers := htiers.trans (hu.tiers.symm.trans hs.tiers)
  have hclock : s.now = r.applyTable.now := hnow.trans (hu.now.symm.trans hs.now)
  have htelemetry : s.telemetry = r.applyTable.telemetry := htel.trans (hu.telemetry.symm.trans hs.telemetry)
  have hfraction : s.learned.kvFraction = r.applyTable.learned.kvFraction := by rw [hlearned, hs.kvFraction]
  have hwall (snapshot : EndpointSnapshot K) : s.InWall snapshot ↔ r.applyTable.InWall snapshot := by
    constructor <;> intro h
    · exact ⟨hclock ▸ hsettings ▸ h.recent, htables ▸ h.wall⟩
    · exact ⟨hclock ▸ hsettings ▸ h.recent, htables ▸ h.wall⟩
  have hgate (d : Fin n) (buffer : K) : s.UnderGate tokens d buffer ↔ r.applyTable.UnderGate tokens d buffer := by
    constructor <;> intro h
    · exact ⟨hbytes d ▸ hfraction ▸ h.below, hbytes d ▸ hfraction ▸ hsettings ▸ h.fits⟩
    · exact ⟨hbytes d ▸ hfraction ▸ h.below, hbytes d ▸ hfraction ▸ hsettings ▸ h.fits⟩
  rw [hroute]
  constructor <;> intro h
  · refine ⟨hroutable _ ▸ h.p, hroutable _ ▸ h.d, ?_, ?_⟩
    · simpa only [htelemetry, hwall] using h.snapshot
    · simpa only [hsettings, hgate] using h.gate
  · refine ⟨hroutable _ ▸ h.p, hroutable _ ▸ h.d, ?_, ?_⟩
    · simpa only [htelemetry, hwall] using h.snapshot
    · simpa only [hsettings, hgate] using h.gate

/-! ### Outside baseline mode -/

/-- An eligible route is within every guard. -/
theorem guarded_of_eligible {r : Router K n} (hslack : r.settings.admission = .slack)
    (hnn : ∀ g, 0 ≤ (r.groups g).inflightBytes) {tokens : ℕ} {route : Route n} (hroute : route ∈ r.routes)
    (h : r.eligible tokens route.d = true) (gated : Prop) : r.Guarded tokens route gated := by
  obtain ⟨hp, hd⟩ := routable_of_mem_routes hroute
  obtain ⟨hblocked, hkv⟩ := checkD_spec r tokens route.d
  rw [eligible, withinHardLimits, hblocked, hkv, hslack] at h
  simp only [Bool.and_eq_true, Option.isNone_iff_eq_none, beq_self_eq_true, Bool.and_true, Bool.not_eq_true'] at h
  exact ⟨hp, hd, snapshot_of_decodeState h.1.1, fun _ => (underGate_iff tokens (hnn route.d)).mpr h.2⟩

/-- Looking for a route under a published table never bypasses a guard. -/
theorem guarded_of_tryAdmit {r s : Router K n} {t : Ticket K n} {tokens : ℕ} {exact : Bool} {waitedMs : K}
    {rescue backfill bestEffort : Bool} (hopen : r.openAdmission = false) (hslack : r.settings.admission = .slack)
    (hnn : ∀ g, 0 ≤ (r.groups g).inflightBytes)
    (h : r.tryAdmit tokens exact waitedMs rescue backfill bestEffort = .ok (some t, s)) (gated : Prop) :
    s.Guarded tokens ⟨t.group, t.dgroup⟩ gated := by
  have hu := untouched_applyTable r
  obtain ⟨route, hoffer, hadmits⟩ := tryAdmit_spec h
  rw [hadmits.guarded_iff]
  exact guarded_of_eligible (hu.settings ▸ hslack) (hu.groups ▸ hnn) hoffer.1
    (hoffer.2 (by rw [openAdmission_applyTable, hopen])) gated

/-! ### Baseline mode -/

/-- The first pair in turn within the limits as they are before the table is applied. -/
def firstInTurn (r : Router K n) (tokens : ℕ) : Option (Fin n) := r.inTurn.find? (r.baselineOk tokens false)

/-- Round robin in baseline mode comes to a pair that the gate of the table in force blocks. -/
def StaleTurn (r : Router K n) (tokens : ℕ) : Prop :=
  r.settings.overload = .bestEffort ∧ r.baselineMode = true ∧ r.settings.groupChoice ≠ .fill ∧
    ∃ g ∈ r.firstInTurn tokens, r.applyTable.kvBlocked g tokens = true

theorem guarded_of_admitBaseline {r s : Router K n} {t : Ticket K n} {tokens : ℕ} {exact : Bool} {waitedMs : K}
    (hnn : ∀ g, 0 ≤ (r.groups g).inflightBytes) (h : r.admitBaseline tokens exact waitedMs = .ok (some t, s)) :
    s.Guarded tokens ⟨t.group, t.dgroup⟩ (r.settings.groupChoice ≠ .fill) ↔
      ¬(r.settings.groupChoice ≠ .fill ∧ ∃ g ∈ r.firstInTurn tokens, r.applyTable.kvBlocked g tokens = true) := by
  have hu := untouched_applyTable r
  obtain ⟨⟨p, d⟩, ⟨hpd, hok, hfind⟩, hadmits⟩ := admitBaseline_spec h
  obtain rfl : d = p := hpd
  rw [hadmits.guarded_iff]
  have hlimits : (r.groups d).routable = true ∧ (r.decodeState d).2 = none := by
    simp only [baselineOk, Bool.and_eq_true, Option.isNone_iff_eq_none] at hok
    exact hok.1.1
  have hstate : (r.applyTable.decodeState d).2 = none := by rw [hu.decodeState, hlimits.2]
  have hgate := underGate_iff tokens (show 0 ≤ (r.applyTable.groups d).inflightBytes from hu.groups ▸ hnn d)
  have hguards : r.applyTable.Guarded tokens ⟨d, d⟩ (r.settings.groupChoice ≠ .fill) ↔
      (r.settings.groupChoice ≠ .fill → r.applyTable.kvBlocked d tokens = false) := by
    constructor
    · exact fun h hfill => hgate.mp (h.gate hfill)
    · exact fun h => ⟨hu.groups ▸ hlimits.1, hu.groups ▸ hlimits.1, snapshot_of_decodeState hstate,
        fun hfill => hgate.mpr (h hfill)⟩
  rw [hguards]
  by_cases hfill : r.settings.groupChoice = .fill
  · simp [hfill]
  · have hfirst : r.firstInTurn tokens = some d := by
      have hno : (r.settings.groupChoice == .fill) = false := by simpa using hfill
      rw [firstInTurn]
      rw [hno] at hfind
      exact hfind rfl
    simp [hfill, hfirst]

/-! ### Every path -/

/-- The books decide nothing about the limits. -/
theorem baselineOk_books (r : Router K n) (books : WaiterBooks K) (tokens : ℕ) (fill : Bool) :
    ({ r with books } : Router K n).baselineOk tokens fill = r.baselineOk tokens fill := by
  funext g
  have hprojected (table : TierTable K) (snapshot : Option (EndpointSnapshot K)) :
      (({ r with books } : Router K n).kvProjectedOver g tokens table snapshot).1 =
        (r.kvProjectedOver g tokens table snapshot).1 := by
    unfold kvProjectedOver
    dsimp only [outputMean]
    split
    · split
      · rfl
      · split_ifs <;> rfl
    · rfl
  unfold baselineOk
  simp only [hprojected]
  rfl

theorem kvBlocked_books (r : Router K n) (books : WaiterBooks K) (g : Fin n) (tokens : ℕ) :
    ({ r with books } : Router K n).applyTable.kvBlocked g tokens = r.applyTable.kvBlocked g tokens := by
  unfold applyTable
  dsimp only
  split_ifs <;> rfl

theorem guarded_books {s : Router K n} {books : WaiterBooks K} {rejections tokens : ℕ} {route : Route n} {gated : Prop} :
    ({ s with books, rejections } : Router K n).Guarded tokens route gated ↔ s.Guarded tokens route gated := by
  constructor <;> intro h <;> refine ⟨h.p, h.d, fun telemetry ht => ?_, fun hg buffer hb => ?_⟩
  · obtain ⟨snapshot, hlatest, hwall⟩ := h.snapshot telemetry ht
    exact ⟨snapshot, hlatest, hwall.recent, hwall.wall⟩
  · exact ⟨(h.gate hg buffer hb).below, (h.gate hg buffer hb).fits⟩
  · obtain ⟨snapshot, hlatest, hwall⟩ := h.snapshot telemetry ht
    exact ⟨snapshot, hlatest, hwall.recent, hwall.wall⟩
  · exact ⟨(h.gate hg buffer hb).below, (h.gate hg buffer hb).fits⟩

/-- The guards of the ticket that an attempt returns. -/
theorem guarded_of_step {r s : Router K n} {waiter tokens : ℕ} {exact : Bool} {waitedMs : K} {t : Ticket K n}
    (hopen : r.openAdmission = false) (hslack : r.settings.admission = .slack)
    (hnn : ∀ g, 0 ≤ (r.groups g).inflightBytes) (h : r.step waiter tokens exact waitedMs = .ok (.ticket t, s)) :
    s.Guarded tokens ⟨t.group, t.dgroup⟩ (¬(r.baselineMode = true ∧ r.settings.groupChoice = .fill)) ↔
      ¬r.StaleTurn tokens := by
  obtain ⟨⟨_, s'⟩, hlooks, rfl, books, rejections, rfl⟩ := step_looks h
  rw [guarded_books]
  cases hlooks with
  | scan rescue backfill bestEffort prepared normal found =>
    have hu := prepared.untouched
    have hguard := guarded_of_tryAdmit (hu.openAdmission.trans hopen) (hu.settings ▸ hslack) (hu.groups ▸ hnn) found
    refine iff_of_true (hguard _) fun hstale => ?_
    rcases normal with hlegacy | hnormal
    · exact hlegacy hstale.1
    · rw [hstale.2.1] at hnormal
      exact Bool.noConfusion hnormal
  | turn books best baseline found =>
    have hguard := guarded_of_admitBaseline (r := { r with books }) hnn found
    have hfirst : ({ r with books } : Router K n).firstInTurn tokens = r.firstInTurn tokens := by
      rw [firstInTurn, baselineOk_books]
      rfl
    simp only [hfirst, kvBlocked_books] at hguard
    simpa [StaleTurn, best, baseline] using hguard

/-- A call that looks for a route returns a ticket within every guard; an attempt does so exactly when it is
    not a turn of baseline mode that the gate of the table in force blocks. -/
theorem guarded_iff_not_staleTurn {r : Router K n} (hopen : r.openAdmission = false)
    (hslack : r.settings.admission = .slack) (hnn : ∀ g, 0 ≤ (r.groups g).inflightBytes) (tokens : ℕ) (exact : Bool)
    (waitedMs : K) :
    (∀ rescue backfill bestEffort t s, r.tryAdmit tokens exact waitedMs rescue backfill bestEffort = .ok (some t, s) →
      s.Guarded tokens ⟨t.group, t.dgroup⟩ True) ∧
    (∀ waiter t s, r.step waiter tokens exact waitedMs = .ok (.ticket t, s) →
      (s.Guarded tokens ⟨t.group, t.dgroup⟩ (¬(r.baselineMode = true ∧ r.settings.groupChoice = .fill)) ↔
        ¬r.StaleTurn tokens)) :=
  ⟨fun _ _ _ _ _ h => guarded_of_tryAdmit hopen hslack hnn h True,
    fun _ _ _ h => guarded_of_step hopen hslack hnn h⟩

theorem guarded_iff_not_staleTurn_smallServing :
    (∀ rescue backfill bestEffort t s, (smallServing 2).tryAdmit 512 true 0 rescue backfill bestEffort = .ok (some t, s) →
      s.Guarded 512 ⟨t.group, t.dgroup⟩ True) ∧
    (∀ waiter t s, (smallServing 2).step waiter 512 true 0 = .ok (.ticket t, s) →
      (s.Guarded 512 ⟨t.group, t.dgroup⟩
        (¬((smallServing 2).baselineMode = true ∧ (smallServing 2).settings.groupChoice = .fill)) ↔
          ¬(smallServing 2).StaleTurn 512)) :=
  guarded_iff_not_staleTurn rfl rfl (fun _ => le_rfl) 512 true 0

/-- Baseline mode before the first table: one request of 4096 tokens is on its way to D. Then the table is
    published, whose gate is half the buffer. -/
def staleGate : Router ℚ 1 :=
  { (((({ smallCold 1 with baselineMode := true } : Router ℚ 1).issueTurn 0 false 4096 true 0).2).prefillDone 0) with
    tiers := ⟨smallMax, some (smallPublished 1 (1 / 2)), none⟩ }

/-- The next request gets a ticket past the gate. -/
theorem staleGate_passed : ∃ t s, staleGate.step 1 512 true 0 = .ok (.ticket t, s) ∧
    ¬s.Guarded 512 ⟨t.group, t.dgroup⟩ (¬(staleGate.baselineMode = true ∧ staleGate.settings.groupChoice = .fill)) := by
  have hserved : staleGate.dispatches 1 512 true 0 = true := by decide +kernel
  obtain ⟨t, s, hstep⟩ := dispatches_iff.mp hserved
  have hnn (g : Fin 1) : 0 ≤ (staleGate.groups g).inflightBytes := by
    rw [Subsingleton.elim g 0]
    decide +kernel
  refine ⟨t, s, hstep, ?_⟩
  rw [guarded_of_step rfl rfl hnn hstep, not_not]
  exact ⟨rfl, rfl, by decide, 0, by decide +kernel, by decide +kernel⟩

end Router
end CanaTune
