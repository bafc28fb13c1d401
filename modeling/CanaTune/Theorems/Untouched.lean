import CanaTune.Router.Lifecycle

/-! What the Router's reads leave alone. A scan applies the table in force, remembers what it measured on
    the way and fills its side tables; the requests, the groups and the settings it reads stay as they are. -/

namespace CanaTune
variable {K : Type} [Scalar K] {n : ℕ}
namespace Router

/-- The requests, the groups, the queue and the settings of `s` are those of `r`. -/
structure Untouched (r s : Router K n) : Prop where
  settings : s.settings = r.settings
  now : s.now = r.now
  groups : s.groups = r.groups
  tiers : s.tiers = r.tiers
  telemetry : s.telemetry = r.telemetry
  lengths : s.lengths = r.lengths
  clockEpochs : s.clockEpochs = r.clockEpochs
  tickets : s.tickets = r.tickets
  books : s.books = r.books
  controlMode : s.controlMode = r.controlMode
  baselineMode : s.baselineMode = r.baselineMode
  fullEffort : s.fullEffort = r.fullEffort
  live : s.production.live = r.production.live

namespace Untouched
variable {r s u : Router K n}

omit [Scalar K] in
theorem refl (r : Router K n) : Untouched r r := ⟨rfl, rfl, rfl, rfl, rfl, rfl, rfl, rfl, rfl, rfl, rfl, rfl, rfl⟩

omit [Scalar K] in
theorem symm (h : Untouched r s) : Untouched s r where
  settings := h.settings.symm
  now := h.now.symm
  groups := h.groups.symm
  tiers := h.tiers.symm
  telemetry := h.telemetry.symm
  lengths := h.lengths.symm
  clockEpochs := h.clockEpochs.symm
  tickets := h.tickets.symm
  books := h.books.symm
  controlMode := h.controlMode.symm
  baselineMode := h.baselineMode.symm
  fullEffort := h.fullEffort.symm
  live := h.live.symm

omit [Scalar K] in
theorem trans (h₁ : Untouched r s) (h₂ : Untouched s u) : Untouched r u where
  settings := h₂.settings.trans h₁.settings
  now := h₂.now.trans h₁.now
  groups := h₂.groups.trans h₁.groups
  tiers := h₂.tiers.trans h₁.tiers
  telemetry := h₂.telemetry.trans h₁.telemetry
  lengths := h₂.lengths.trans h₁.lengths
  clockEpochs := h₂.clockEpochs.trans h₁.clockEpochs
  tickets := h₂.tickets.trans h₁.tickets
  books := h₂.books.trans h₁.books
  controlMode := h₂.controlMode.trans h₁.controlMode
  baselineMode := h₂.baselineMode.trans h₁.baselineMode
  fullEffort := h₂.fullEffort.trans h₁.fullEffort
  live := h₂.live.trans h₁.live

end Untouched

/-! ### Reads -/

theorem untouched_applyTable (r : Router K n) : Untouched r r.applyTable := by
  unfold applyTable
  dsimp only
  split_ifs
  · exact .refl r
  · exact ⟨rfl, rfl, rfl, rfl, rfl, rfl, rfl, rfl, rfl, rfl, rfl, rfl, rfl⟩

omit [Scalar K] in
theorem untouched_noteSlack (r : Router K n) (route : Route n) (entry : SlackEntry K) :
    Untouched r (r.noteSlack route entry) := ⟨rfl, rfl, rfl, rfl, rfl, rfl, rfl, rfl, rfl, rfl, rfl, rfl, rfl⟩

omit [Scalar K] in
theorem untouched_noteWithin (r : Router K n) (w : WithinLimits n) (dUnsafe : Bool) :
    Untouched r (r.noteWithin w dUnsafe) := ⟨rfl, rfl, rfl, rfl, rfl, rfl, rfl, rfl, rfl, rfl, rfl, rfl, rfl⟩

/-! ### The table in force -/

/-- The table in force has been applied. -/
def Current (r : Router K n) : Prop := r.tiers.table.map (·.publishedAt) = r.applied.key

theorem Current.applyTable {r : Router K n} (h : r.Current) : r.applyTable = r := if_pos h

theorem current_applyTable (r : Router K n) : r.applyTable.Current := by
  by_cases h : r.Current
  · rwa [h.applyTable]
  · unfold Current at h
    rw [Router.applyTable, if_neg h]
    rfl

theorem applyTable_applyTable (r : Router K n) : r.applyTable.applyTable = r.applyTable :=
  r.current_applyTable.applyTable

/-! ### What a scan changes -/

/-- Besides the side tables, a scan only remembers the mean output and counts lookups of the risk table. -/
structure Scanned (r s : Router K n) : Prop extends Untouched r s where
  applied : s.applied = r.applied
  learned : s.learned = { r.learned with table := s.learned.table }
  outputMean : s.outputMean = r.outputMean

namespace Scanned
variable {r s u : Router K n}

theorem refl (r : Router K n) : Scanned r r := ⟨.refl r, rfl, rfl, rfl⟩

theorem trans (h₁ : Scanned r s) (h₂ : Scanned s u) : Scanned r u where
  toUntouched := h₁.toUntouched.trans h₂.toUntouched
  applied := h₂.applied.trans h₁.applied
  learned := by rw [h₂.learned, h₁.learned]
  outputMean := h₂.outputMean.trans h₁.outputMean

theorem kvFraction (h : Scanned r s) : s.learned.kvFraction = r.learned.kvFraction := by rw [h.learned]

theorem current (h : Scanned r s) (hc : r.Current) : s.Current := by
  rw [Current, h.tiers, h.applied]
  exact hc

/-- Applying the table does not depend on what a scan changes. -/
theorem applyTable (h : Scanned r s) : Scanned r.applyTable s.applyTable := by
  by_cases hc : r.Current
  · rw [hc.applyTable, (h.current hc).applyTable]
    exact h
  · have hc' : ¬s.Current := by rwa [Current, h.tiers, h.applied]
    have hr := untouched_applyTable r
    have hs := untouched_applyTable s
    refine ⟨?_, ?_, ?_, ?_⟩
    · exact hr.symm.trans (h.toUntouched.trans hs)
    all_goals
      unfold Current at hc hc'
      unfold Router.applyTable
      rw [if_neg hc, if_neg hc']
      dsimp only
    · simp only [costBook, h.tiers]
    · rw [h.tiers]
      cases (r.tiers.table.map (·.evidence)).bind (·.admission) with
      | none => exact h.learned
      | some a =>
        dsimp only
        rw [h.settings, h.learned]
        rfl
    · exact h.outputMean

end Scanned

theorem scanned_noteSlack (r : Router K n) (route : Route n) (entry : SlackEntry K) :
    Scanned r (r.noteSlack route entry) := ⟨untouched_noteSlack r route entry, rfl, rfl, rfl⟩

theorem scanned_noteWithin (r : Router K n) (w : WithinLimits n) (dUnsafe : Bool) :
    Scanned r (r.noteWithin w dUnsafe) := ⟨untouched_noteWithin r w dUnsafe, rfl, rfl, rfl⟩

theorem scanned_keepTable (r : Router K n) (table : RiskTable) : Scanned r (r.keepTable table) :=
  ⟨⟨rfl, rfl, rfl, rfl, rfl, rfl, rfl, rfl, rfl, rfl, rfl, rfl, rfl⟩, rfl, rfl, rfl⟩

theorem scanned_setScan (r : Router K n) (scan : Scan K n) : Scanned r { r with scan } :=
  ⟨⟨rfl, rfl, rfl, rfl, rfl, rfl, rfl, rfl, rfl, rfl, rfl, rfl, rfl⟩, rfl, rfl, rfl⟩

/-- A check of D also keeps the routes found and their slack entries. -/
structure Measured (r s : Router K n) : Prop extends Scanned r s where
  slackByGroup : s.scan.slackByGroup = r.scan.slackByGroup
  withinLimits : s.scan.withinLimits = r.scan.withinLimits
  dUnsafe : s.scan.dUnsafe = r.scan.dUnsafe

namespace Measured
variable {r s u : Router K n}

theorem refl (r : Router K n) : Measured r r := ⟨.refl r, rfl, rfl, rfl⟩

theorem trans (h₁ : Measured r s) (h₂ : Measured s u) : Measured r u where
  toScanned := h₁.toScanned.trans h₂.toScanned
  slackByGroup := h₂.slackByGroup.trans h₁.slackByGroup
  withinLimits := h₂.withinLimits.trans h₁.withinLimits
  dUnsafe := h₂.dUnsafe.trans h₁.dUnsafe

end Measured

theorem measured_noteTpot (r : Router K n) (group : Fin n) (tpot : K) : Measured r (r.noteTpot group tpot) :=
  ⟨⟨⟨rfl, rfl, rfl, rfl, rfl, rfl, rfl, rfl, rfl, rfl, rfl, rfl, rfl⟩, rfl, rfl, rfl⟩, rfl, rfl, rfl⟩

/-- Within one call the remembered mean is the mean. -/
theorem outputMean_refreshOutputMean (r : Router K n) : r.refreshOutputMean.outputMean = r.outputMean := by
  unfold refreshOutputMean
  split
  · rfl
  · split_ifs with h
    · simp_all [outputMean]
    · rfl

theorem measured_refreshOutputMean (r : Router K n) : Measured r r.refreshOutputMean := by
  have hcases : r.refreshOutputMean = r ∨
      ∃ m, r.refreshOutputMean = { r with outputMeanCached := m, outputMeanAt := some r.now } := by
    unfold refreshOutputMean
    split
    · exact .inl rfl
    · split_ifs
      · exact .inr ⟨_, rfl⟩
      · exact .inl rfl
  have hmean := outputMean_refreshOutputMean r
  rcases hcases with h | ⟨m, h⟩ <;> rw [h] at hmean ⊢
  · exact .refl r
  · exact ⟨⟨⟨rfl, rfl, rfl, rfl, rfl, rfl, rfl, rfl, rfl, rfl, rfl, rfl, rfl⟩, rfl, rfl, hmean⟩, rfl, rfl, rfl⟩

theorem measured_kvProjectedOver (r : Router K n) (group : Fin n) (tokens : ℕ) (table : TierTable K)
    (snapshot : Option (EndpointSnapshot K)) : Measured r (r.kvProjectedOver group tokens table snapshot).2 := by
  have hrefl := Measured.refl r
  have hmean := measured_refreshOutputMean r
  unfold kvProjectedOver
  dsimp only
  split
  · split
    · exact hrefl
    · split_ifs <;> assumption
  · exact hrefl

end Router
end CanaTune
