import CanaTune.Theorems.Attempt
import CanaTune.Controller.Runtime

/-! What the Controller and the scheduler leave alone. A look keeps evidence and caches; most of what they
    write down is their own, and touches no group, no request, no clock and no claim on the Canary. -/

namespace CanaTune
variable {K : Type} [Scalar K] {n : ℕ}

namespace Router

/-- Only the queue, the evidence and what was learned of `s` may differ from those of `r`. -/
structure Quiet (r s : Router K n) : Prop where
  settings : s.settings = r.settings
  now : s.now = r.now
  groups : s.groups = r.groups
  tiers : s.tiers = r.tiers
  clockEpochs : s.clockEpochs = r.clockEpochs
  tickets : s.tickets = r.tickets
  fullEffort : s.fullEffort = r.fullEffort
  controlMode : s.controlMode = r.controlMode
  baselineMode : s.baselineMode = r.baselineMode

namespace Quiet
variable {r s u : Router K n}

omit [Scalar K] in
theorem refl (r : Router K n) : Quiet r r := ⟨rfl, rfl, rfl, rfl, rfl, rfl, rfl, rfl, rfl⟩

omit [Scalar K] in
theorem trans (h₁ : Quiet r s) (h₂ : Quiet s u) : Quiet r u where
  settings := h₂.settings.trans h₁.settings
  now := h₂.now.trans h₁.now
  groups := h₂.groups.trans h₁.groups
  tiers := h₂.tiers.trans h₁.tiers
  clockEpochs := h₂.clockEpochs.trans h₁.clockEpochs
  tickets := h₂.tickets.trans h₁.tickets
  fullEffort := h₂.fullEffort.trans h₁.fullEffort
  controlMode := h₂.controlMode.trans h₁.controlMode
  baselineMode := h₂.baselineMode.trans h₁.baselineMode

end Quiet

theorem quiet_applyTable (r : Router K n) : Quiet r r.applyTable := by
  unfold applyTable
  dsimp only
  split_ifs
  · exact .refl r
  · exact ⟨rfl, rfl, rfl, rfl, rfl, rfl, rfl, rfl, rfl⟩

theorem quiet_offered (r : Router K n) (now windowS bucketS : K) : Quiet r (r.offered now windowS bucketS).2 := by
  unfold offered
  dsimp only
  split_ifs <;> exact ⟨rfl, rfl, rfl, rfl, rfl, rfl, rfl, rfl, rfl⟩

theorem quiet_dExhaustedCount (r : Router K n) (now windowS : K) : Quiet r (r.dExhaustedCount now windowS).2 :=
  ⟨rfl, rfl, rfl, rfl, rfl, rfl, rfl, rfl, rfl⟩

theorem quiet_cool (r : Router K n) (group : Fin n) (until_ : K) : Quiet r (r.cool group until_) :=
  ⟨rfl, rfl, rfl, rfl, rfl, rfl, rfl, rfl, rfl⟩

theorem quiet_ttftRatio (r : Router K n) (t : Ticket K n) (ttftMs : K) : Quiet r (r.ttftRatio t ttftMs).2 := by
  unfold ttftRatio
  dsimp only
  split_ifs <;> exact quiet_applyTable r

theorem quiet_noteLive (admittedSince : WithBot K) (acc : LiveEvidence K n × Router K n) (t : Ticket K n) :
    Quiet acc.2 (noteLive admittedSince acc t).2 := by
  obtain ⟨e, r⟩ := acc
  have hratio := quiet_ttftRatio r t ((r.now - t.admittedAt) * 1000 + t.waitMs)
  unfold noteLive
  dsimp only
  split
  · exact .refl r
  · split
    · split
      · exact .refl r
      · exact hratio
    · cases r.settings.tpotFeedback <;> exact .refl r
    · exact .refl r

theorem quiet_liveEvidence (admittedSince : WithBot K) (tickets : List (Ticket K n)) (acc : LiveEvidence K n × Router K n) :
    Quiet acc.2 (tickets.foldl (noteLive admittedSince) acc).2 := by
  induction tickets generalizing acc with
  | nil => exact .refl _
  | cons t rest ih => exact (quiet_noteLive admittedSince acc t).trans (ih _)

theorem quiet_productionFeedback (r : Router K n) (windowS : K) (minSamples : ℕ) (near : K)
    (since admittedSince : WithBot K) :
    Quiet r (r.productionFeedback windowS minSamples near since admittedSince).2 := by
  have hprune : Quiet r (r.pruneSamples windowS) := ⟨rfl, rfl, rfl, rfl, rfl, rfl, rfl, rfl, rfl⟩
  have hlive := hprune.trans (quiet_liveEvidence admittedSince (r.pruneSamples windowS).liveTickets
    (⟨0, 0, ∅⟩, r.pruneSamples windowS))
  unfold productionFeedback
  dsimp only
  generalize (r.pruneSamples windowS).liveTickets.foldl (noteLive admittedSince)
    (⟨0, 0, ∅⟩, r.pruneSamples windowS) = e at hlive
  obtain ⟨live, s⟩ := e
  dsimp only
  cases s.settings.tpotFeedback with
  | gap => exact hlive
  | window => exact hlive.trans ⟨rfl, rfl, rfl, rfl, rfl, rfl, rfl, rfl, rfl⟩

end Router

namespace System

/-- A look: the Router is as quiet as can be, and the Controller only rebuilds its solver. -/
structure Reads (s s' : System K n) : Prop where
  router : s.router.Quiet s'.router
  controller : s'.controller = { s.controller with solverKey := s'.controller.solverKey, solver := s'.controller.solver }
  canary : s'.canary = s.canary
  pairs : s'.pairs = s.pairs
  trace : s'.trace = s.trace

namespace Reads
variable {s s' u : System K n}

theorem refl (s : System K n) : Reads s s := ⟨.refl _, rfl, rfl, rfl, rfl⟩

theorem trans (h₁ : Reads s s') (h₂ : Reads s' u) : Reads s u where
  router := h₁.router.trans h₂.router
  controller := by rw [h₂.controller, h₁.controller]
  canary := h₂.canary.trans h₁.canary
  pairs := h₂.pairs.trans h₁.pairs
  trace := h₂.trace.trans h₁.trace

theorem group (h : Reads s s') (g : Fin n) : s'.group g = s.group g := by
  rw [System.group, h.router.groups, System.group]

theorem settings (h : Reads s s') : s'.controller.settings = s.controller.settings := by rw [h.controller]

end Reads

/-- The Router looks. -/
theorem reads_router {s : System K n} {router : Router K n} (h : s.router.Quiet router) : Reads s { s with router } :=
  ⟨h, rfl, rfl, rfl, rfl⟩

theorem reads_offered (s : System K n) (now windowS bucketS : K) : Reads s (s.offered now windowS bucketS).2 :=
  reads_router (Router.quiet_offered _ _ _ _)

theorem reads_solver (s : System K n) : Reads s s.solver.2 := by
  have hmodel : Reads s s.solverModel.2 := by
    have htable := reads_router (Router.quiet_applyTable s.router)
    unfold solverModel
    split
    · split
      · exact .refl s
      · split
        · exact .refl s
        · exact htable
    · exact .refl s
  unfold solver
  generalize s.solverModel = e at hmodel ⊢
  obtain ⟨model, s'⟩ := e
  dsimp only at hmodel ⊢
  split_ifs
  · exact hmodel
  · exact hmodel.trans ⟨.refl _, rfl, rfl, rfl, rfl⟩

theorem reads_demand (s : System K n) (now : K) : Reads s (s.demand now).2 := by
  have h₁ := reads_offered s now s.controller.settings.loadWindowS s.controller.settings.burstBucketS
  unfold demand
  dsimp only
  generalize s.offered now s.controller.settings.loadWindowS s.controller.settings.burstBucketS = e at h₁ ⊢
  obtain ⟨⟨rate, burst⟩, s'⟩ := e
  dsimp only at h₁ ⊢
  split_ifs
  · exact (h₁.trans (reads_offered _ _ _ _)).trans (reads_offered _ _ _ _)
  · exact h₁.trans (reads_offered _ _ _ _)

theorem reads_canCarry (s : System K n) (groups : ℕ) (now : K) : Reads s (s.canCarry groups now).2 := by
  have hsolver := reads_solver s
  unfold canCarry
  generalize System.solver s = e at hsolver ⊢
  obtain ⟨solver, s'⟩ := e
  dsimp only at hsolver ⊢
  cases solver with
  | none => exact hsolver
  | some solver =>
    have hdemand := reads_demand s' now
    dsimp only
    generalize s'.demand now = e at hdemand ⊢
    obtain ⟨⟨rate, lengths⟩, u⟩ := e
    dsimp only at hdemand ⊢
    split_ifs
    · exact hsolver
    all_goals exact hsolver.trans hdemand

theorem reads_unverified (s : System K n) : Reads s s.unverified.2 := by
  unfold unverified
  split
  · exact .refl s
  · have hdemand := reads_demand s s.now
    generalize s.demand s.now = e at hdemand ⊢
    obtain ⟨⟨rate, lengths⟩, u⟩ := e
    dsimp only at hdemand ⊢
    split_ifs
    · exact .refl s
    all_goals exact hdemand

theorem reads_trigger (s : System K n) : Reads s s.trigger.2 := by
  have h := reads_unverified s
  unfold trigger
  dsimp only
  generalize s.unverified = e at h ⊢
  obtain ⟨point, u⟩ := e
  dsimp only at h ⊢
  split_ifs
  all_goals first | exact .refl s | exact h

theorem reads_mayStart (s : System K n) : Reads s s.mayStart.2 := by
  have hsolver := reads_solver s
  unfold mayStart
  dsimp only
  generalize System.solver s = e at hsolver ⊢
  obtain ⟨solver, u⟩ := e
  dsimp only at hsolver ⊢
  -- Every condition but the last is read off the state.
  repeat (split; · exact .refl s)
  split
  · exact hsolver
  · exact hsolver.trans (reads_canCarry _ _ _)

theorem reads_verifyTarget (s : System K n) : Reads s s.verifyTarget.2 := by
  have h := reads_unverified s
  unfold verifyTarget
  generalize s.unverified = e at h ⊢
  obtain ⟨target, u⟩ := e
  cases target with
  | some target => exact h
  | none =>
    dsimp only at h ⊢
    cases u.controller.plan with
    | none => exact h
    | some plan => exact h.trans (reads_demand _ _)

theorem reads_expansion (s : System K n) (now : K) : Reads s (s.expansion now).2 := by
  have hdemand := reads_demand s now
  unfold expansion
  dsimp only
  generalize s.demand now = e at hdemand ⊢
  obtain ⟨⟨rate, mix⟩, u⟩ := e
  exact hdemand.trans (reads_solver u)

theorem reads_productionFeedback (s : System K n) : Reads s s.productionFeedback.2 :=
  reads_router (Router.quiet_productionFeedback s.router s.controller.settings.feedbackWindowS
    s.controller.settings.feedbackMinSamples s.controller.settings.feedbackNearSlo s.since.1 s.since.2)

theorem reads_mayLeave (s : System K n) (now : K) (f : Feedback K n) : Reads s (s.mayLeave now f).2 := by
  have h := reads_offered s now s.controller.settings.loadWindowS s.controller.settings.burstBucketS
  unfold mayLeave
  dsimp only
  generalize s.offered now s.controller.settings.loadWindowS s.controller.settings.burstBucketS = e at h ⊢
  obtain ⟨⟨rate, burst⟩, u⟩ := e
  dsimp only at h ⊢
  split_ifs
  all_goals first | exact .refl s | exact h

end System
end CanaTune
