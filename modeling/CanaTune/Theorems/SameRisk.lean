import CanaTune.Controller.Runtime
import CanaTune.Theorems.Capacity

/-! The solver's risk measure and the Router's. The solver is built over the Router's own counts, merged, but its
    slack risk keeps the default threshold of 20 samples a bucket. -/

namespace CanaTune
variable {K : Type} [Scalar K] {n : ℕ}

namespace SlackRisk

omit [Scalar K] in
theorem mem_bucketsDown {s : SlackRisk K} {b : ℕ} :
    b ∈ s.bucketsDown ↔ (s.counts.lookup b).isSome ∨ (s.seed.lookup b).isSome := by
  rw [bucketsDown, (List.perm_insertionSort _ _).mem_iff, List.mem_dedup, List.mem_append, Dict.mem_keys_items,
    Dict.mem_keys_items]

omit [Scalar K] in
/-- The buckets are listed by which of them have counts. -/
theorem bucketsDown_congr {s t : SlackRisk K} (h : ∀ b, b ∈ s.bucketsDown ↔ b ∈ t.bucketsDown) :
    s.bucketsDown = t.bucketsDown := by
  have hnodup : ∀ u : SlackRisk K, u.bucketsDown.Nodup := fun u =>
    (List.perm_insertionSort _ _).nodup_iff.mpr (List.nodup_dedup _)
  have hsorted : ∀ u : SlackRisk K, u.bucketsDown.Pairwise (· ≥ ·) := fun u => List.pairwise_insertionSort _ _
  exact ((List.perm_ext_iff_of_nodup (hnodup s) (hnodup t)).mpr h).eq_of_pairwise (fun _ _ _ _ h h' => le_antisymm h' h)
    (hsorted s) (hsorted t)

omit [Scalar K] in
/-- Where no count up to a bucket lies between two thresholds, the same record decides the bucket under both. -/
theorem deciding_congr (s : SlackRisk K) {m m' b : ℕ} (h : ∀ c ≤ b, m ≤ (s.cell c).1 ↔ m' ≤ (s.cell c).1) :
    s.deciding m b = s.deciding m' b := by
  unfold deciding
  rw [List.find?_congr fun c hc => decide_eq_decide.mpr (h c (of_decide_eq_true (List.mem_filter.mp hc).2).le)]
  exact if_congr (h b le_rfl) rfl rfl

end SlackRisk

/-! ### The merge -/

namespace System

omit [Scalar K] in
theorem lookup_mergedCounts (slack : SlackRisk K) (b : ℕ) :
    (mergedCounts slack).lookup b = match slack.counts.lookup b with
      | none => slack.seed.lookup b
      | some c => some (((slack.seed.lookup b).getD (0, 0)).1 + c.1, ((slack.seed.lookup b).getD (0, 0)).2 + c.2) := by
  have h := Dict.lookup_foldl_sorted (g := fun (c : ℕ × ℕ) old => ((old.getD (0, 0)).1 + c.1, (old.getD (0, 0)).2 + c.2))
    (u := fun (d : Dict ℕ (ℕ × ℕ)) e => d.insert e.1 (((d.lookup e.1).getD (0, 0)).1 + e.2.1,
      ((d.lookup e.1).getD (0, 0)).2 + e.2.2))
    (fun d e k => by
      split_ifs with hk
      · rw [hk, AList.lookup_insert]
      · rw [AList.lookup_insert_ne hk]) b slack.counts (Dict.ofList slack.seed.sorted)
  rw [Dict.lookup_ofList_sorted] at h
  refine Eq.trans h ?_
  cases slack.counts.lookup b <;> rfl

/-- The solver's own slack risk, over the merged counts. -/
def solverSlack (slack : SlackRisk K) : SlackRisk K :=
  { slack with minSamples := 20, counts := ∅, seed := mergedCounts slack }

omit [Scalar K] in
theorem cell_solverSlack (slack : SlackRisk K) (b : ℕ) : (solverSlack slack).cell b = slack.cell b := by
  simp only [SlackRisk.cell, solverSlack, lookup_mergedCounts]
  cases slack.counts.lookup b <;> cases slack.seed.lookup b <;> simp [Nat.add_comm]

omit [Scalar K] in
theorem bucketsDown_solverSlack (slack : SlackRisk K) : (solverSlack slack).bucketsDown = slack.bucketsDown := by
  refine SlackRisk.bucketsDown_congr fun b => ?_
  simp only [SlackRisk.mem_bucketsDown, solverSlack, lookup_mergedCounts]
  cases slack.counts.lookup b <;> simp

omit [Scalar K] in
theorem deciding_solverSlack (slack : SlackRisk K) (m b : ℕ) : (solverSlack slack).deciding m b = slack.deciding m b := by
  simp only [SlackRisk.deciding, cell_solverSlack, bucketsDown_solverSlack]

theorem bound_solverSlack (slack : SlackRisk K) (b : Option ℕ) : (solverSlack slack).bound b = slack.bound b := by
  cases b <;> simp only [SlackRisk.bound, SlackRisk.ownBound, cell_solverSlack]

/-- A calibration is published: its model with the predictor, measured against the Router's SLO, and its counts,
    which are never empty. -/
structure Published (s : System K n) (m : ClusterModel K) : Prop where
  solver : s.controller.settings.solver = true
  model : s.router.tiers.modelJson = some m
  predictor : m.predictorCoef.isSome
  slo : m.ttftSloMs = s.router.settings.ttftSloMs
  edges : s.router.learned.slack.edges = (slackEdges s.router.settings.ttftSloMs).insertionSort (· ≤ ·)
  seed : s.router.applyTable.learned.slack.seed.items ≠ []

/-- What the solver is built from has changed since it was built last. -/
def Rebuilds (s : System K n) : Prop := s.solverModel.1.map s.solverModel.2.solverKey ≠ s.controller.solverKey

/-- The solver built now and the Router see the same violation risk at every predicted slack. -/
def SameRisk (s : System K n) : Prop := ∀ x, ∃ σ slack, s.solver.1 = some σ ∧ σ.slack = some slack ∧
  (slack.estimate x).risk = (s.solver.2.router.learned.slack.estimate x).risk

theorem edges_applyTable (r : Router K n) : r.applyTable.learned.slack.edges = r.learned.slack.edges := by
  unfold Router.applyTable
  dsimp only
  split_ifs
  · rfl
  · dsimp only
    split <;> rfl

omit [Scalar K] in
theorem mergedCounts_ne_nil {slack : SlackRisk K} (h : slack.seed.items ≠ []) : (mergedCounts slack).items ≠ [] := by
  obtain ⟨⟨b, c⟩, hb⟩ := List.exists_mem_of_ne_nil _ h
  have hkey : b ∈ (mergedCounts slack).items.map (·.1) := by
    rw [Dict.mem_keys_items, lookup_mergedCounts]
    cases slack.counts.lookup b with
    | none => simp [Dict.mem_items.mp hb]
    | some _ => rfl
  intro hnil
  simp [hnil] at hkey

variable {s : System K n} {m : ClusterModel K}

/-- The solver that is built has the Router's counts, under its own threshold. -/
theorem Published.solver_eq (h : s.Published m) (hnew : s.Rebuilds) :
    ∃ σ, s.solver.1 = some σ ∧ σ.slack = some (solverSlack s.router.applyTable.learned.slack) ∧
      s.solver.2.router = s.router.applyTable := by
  obtain ⟨coef, hcoef⟩ := Option.isSome_iff_exists.mp h.predictor
  have hmodel : s.solverModel =
      (some { m with
        predictorCoef := some s.router.applyTable.learned.predictor.coef
        slackCounts := some (mergedCounts s.router.applyTable.learned.slack) },
      { s with router := s.router.applyTable }) := by
    simp only [solverModel, h.solver, if_true, h.model, hcoef]
  unfold Rebuilds at hnew
  unfold System.solver
  rw [hmodel] at hnew ⊢
  dsimp only at hnew ⊢
  -- The key is new, so the solver is built from this model.
  rw [if_neg hnew]
  refine ⟨_, rfl, ?_, rfl⟩
  simp only [Solver.build]
  rw [if_neg (mergedCounts_ne_nil h.seed), h.slo]
  simp only [SlackRisk.fresh, SlackRisk.setSeed, solverSlack, edges_applyTable, h.edges]

/-- The two risks agree exactly where every bucket's risk is bounded by records of the same bound under the
    threshold of 20 samples, which the solver's own slack risk has, and under the configured one. -/
theorem sameRisk_iff (h : s.Published m) (hnew : s.Rebuilds) : s.SameRisk ↔
    ∀ b, (∃ x, s.router.applyTable.learned.slack.bucket x = b) →
      s.router.applyTable.learned.slack.bound (s.router.applyTable.learned.slack.deciding 20 b) =
        s.router.applyTable.learned.slack.bound
          (s.router.applyTable.learned.slack.deciding s.router.applyTable.learned.slack.minSamples b) := by
  obtain ⟨σ, hσ, hslack, hrouter⟩ := h.solver_eq hnew
  have hrisk : ∀ x, ((solverSlack s.router.applyTable.learned.slack).estimate x).risk =
      s.router.applyTable.learned.slack.bound
        (s.router.applyTable.learned.slack.deciding 20 (s.router.applyTable.learned.slack.bucket x)) := by
    intro x
    rw [SlackRisk.estimate_risk, SlackRisk.riskAt, deciding_solverSlack, bound_solverSlack]
    rfl
  constructor
  · rintro hsame b ⟨x, rfl⟩
    obtain ⟨σ', slack, hσ', hslack', heq⟩ := hsame x
    obtain rfl := Option.some.inj (hσ.symm.trans hσ')
    obtain rfl := Option.some.inj (hslack.symm.trans hslack')
    rw [hrisk, hrouter, SlackRisk.estimate_risk] at heq
    exact heq
  · intro hall x
    refine ⟨σ, _, hσ, hslack, ?_⟩
    rw [hrisk, hrouter, SlackRisk.estimate_risk]
    exact hall _ ⟨x, rfl⟩

/-- No difference where no bucket's merged count lies between the two thresholds. -/
theorem sameRisk_of_counts (h : s.Published m) (hnew : s.Rebuilds)
    (hcounts : ∀ b ≤ s.router.applyTable.learned.slack.edges.length, 20 ≤ (s.router.applyTable.learned.slack.cell b).1 ↔
      s.router.applyTable.learned.slack.minSamples ≤ (s.router.applyTable.learned.slack.cell b).1) : s.SameRisk := by
  refine (sameRisk_iff h hnew).mpr fun b hb => ?_
  obtain ⟨x, rfl⟩ := hb
  rw [SlackRisk.deciding_congr _ fun c hc => hcounts c (hc.trans (SlackRisk.bucket_le _ x))]

/-! ### A threshold of 5 -/

theorem five_pos : 0 < 5 := by decide

def sparseTable : RiskTable := .fresh smallTable.buckets 5 five_pos

/-- A calibration with these counts is published. -/
def counted (counts : Dict ℕ (ℕ × ℕ)) : System ℚ 1 :=
  let evidence : Evidence ℚ := ⟨∅, ∅, ∅, some ⟨[0, 1, 1, 0, 0], counts, none, none, ∅, ∅⟩,
    some { Solver.noisyModel with slackCounts := some counts }, none⟩
  let tiers : TierState ℚ := ⟨smallMax, some { smallPublished 1 1 with evidence }, none⟩
  smallSystem { smallCold 1 with
    tiers, learned := { (smallCold 1).learned with slack := .fresh (slackEdges 1000) 5, table := sparseTable } }

theorem published_counted {counts : Dict ℕ (ℕ × ℕ)} (h : (counted counts).router.applyTable.learned.slack.seed.items ≠ []) :
    (counted counts).Published { Solver.noisyModel with slackCounts := some counts } where
  solver := rfl
  model := rfl
  predictor := rfl
  slo := rfl
  edges := rfl
  seed := h

/-- The calibration counted 10 requests in the top bucket: enough for the Router, too few for the solver. -/
def sparseCounts : Dict ℕ (ℕ × ℕ) := Dict.ofList [(13, (10, 0))]

theorem published_sparse : (counted sparseCounts).Published { Solver.noisyModel with slackCounts := some sparseCounts } :=
  published_counted (by decide +kernel)

theorem rebuilds_sparse : (counted sparseCounts).Rebuilds := by
  unfold Rebuilds
  decide +kernel

theorem not_sameRisk_sparse : (counted sparseCounts).Published { Solver.noisyModel with slackCounts := some sparseCounts } ∧
    (counted sparseCounts).Rebuilds ∧ ¬(counted sparseCounts).SameRisk := by
  refine ⟨published_sparse, rebuilds_sparse, fun hsame => ?_⟩
  obtain ⟨σ, hσ, hslack, hrouter⟩ := published_sparse.solver_eq rebuilds_sparse
  obtain ⟨σ', slack, hσ', hslack', heq⟩ := hsame 1000
  obtain rfl := Option.some.inj (hσ.symm.trans hσ')
  obtain rfl := Option.some.inj (hslack.symm.trans hslack')
  rw [hrouter] at heq
  exact absurd heq (by decide +kernel)

/-- Four requests are too few for both, thirty are enough for both. -/
def clearCounts : Dict ℕ (ℕ × ℕ) := Dict.ofList [(9, (4, 1)), (13, (30, 0))]

theorem sameRisk_of_counts_clear : (counted clearCounts).SameRisk := by
  have hcells : ∀ b ≤ 13, 20 ≤ ((counted clearCounts).router.applyTable.learned.slack.cell b).1 ↔
      (counted clearCounts).router.applyTable.learned.slack.minSamples ≤
        ((counted clearCounts).router.applyTable.learned.slack.cell b).1 := by decide +kernel
  have hedges : (counted clearCounts).router.applyTable.learned.slack.edges.length = 13 := by decide +kernel
  have hnew : (counted clearCounts).Rebuilds := by
    unfold Rebuilds
    decide +kernel
  exact sameRisk_of_counts (published_counted (by decide +kernel)) hnew fun b hb => hcells b (hedges ▸ hb)

end System
end CanaTune
