import CanaTune.Theorems.Bisection
import CanaTune.Theorems.Reads
import CanaTune.Theorems.Stored

/-! Failed verifications stay binding. The Canary writes the cap of a failed point into the published model; the solver
    is rebuilt when the caps it was built from are no longer the model's, and its caps are strict. -/

namespace CanaTune
variable {K : Type} [Scalar K] {n : ℕ}

/-! ### A strict cap -/

namespace Solver
variable {s : Solver K} {lengths : List (ℕ × ℕ)} {point : ClockPoint} {r c : K} {e : Evaluation K}

theorem lt_cap (hcap : s.model.caps.lookup point = some c) (h : s.isFeasible r lengths point = .ok true) :
    0 < c ∧ r < c := by
  have hl : lengths ≠ [] := by
    rintro rfl
    cases h
  obtain ⟨b, hb, hiff⟩ := isFeasible_eq hl point r
  rw [hb] at h
  obtain ⟨hpos, hlt⟩ := (hiff.mp (Except.ok.inj h)).2.cap c hcap
  exact ⟨hpos, (div_lt_one hpos).mp hlt⟩

theorem capacity_cases (h : s.capacity lengths point = .ok c) : c = 0 ∨ s.isFeasible c lengths point = .ok true := by
  unfold capacity at h
  obtain ⟨b, hb, h⟩ := bind_eq_ok.mp h
  cases b with
  | false => exact .inl (Except.ok.inj h).symm
  | true =>
    obtain ⟨hi, -, h⟩ := bind_eq_ok.mp h
    exact .inr (bisect_eq_ok (by exact hb) h).1

/-- Every group of a feasible evaluation is feasible on its own. -/
theorem isFeasible_of_evaluate {groups : ℕ} (h : s.evaluate r lengths groups point = .ok e) (hf : e.feasible = true) :
    ∀ x ∈ e.rates, s.isFeasible x lengths point = .ok true := by
  unfold evaluate at h
  split at h
  · cases h
  obtain ⟨capacity, -, h⟩ := bind_eq_ok.mp h
  obtain ⟨evaluations, hm, h⟩ := bind_eq_ok.mp h
  obtain rfl := Except.ok.inj h
  intro x hx
  obtain ⟨a, ha, hxa⟩ := forall_of_mapM_ok hm hx
  exact isFeasible_true.mpr ⟨a, hxa, List.all_eq_true.mp hf a ha⟩

theorem evaluate_point {groups : ℕ} (h : s.evaluate r lengths groups point = .ok e) : e.point = point := by
  unfold evaluate at h
  split at h
  · cases h
  obtain ⟨capacity, -, h⟩ := bind_eq_ok.mp h
  obtain ⟨evaluations, -, h⟩ := bind_eq_ok.mp h
  obtain rfl := Except.ok.inj h
  rfl

/-- What the solver chooses it has evaluated. -/
theorem evaluate_of_solve {lo hi : ℕ} (h : s.solve r lengths lo hi = .ok e) :
    ∃ groups, s.evaluate r lengths groups e.point = .ok e := by
  unfold solve at h
  obtain ⟨evals, hm, h⟩ := bind_eq_ok.mp h
  have hfound : ∀ a ∈ evals, ∃ groups, s.evaluate r lengths groups a.point = .ok a := by
    intro a ha
    obtain ⟨⟨groups, point⟩, -, ha⟩ := exists_of_mapM_ok hm ha
    rw [evaluate_point ha]
    exact ⟨groups, ha⟩
  split at h
  case h_1 a ha =>
    obtain rfl := Except.ok.inj h
    exact hfound a (List.mem_filter.mp (List.argmin_mem ha)).1
  case h_2 =>
    split at h
    case h_1 a ha =>
      obtain rfl := Except.ok.inj h
      exact hfound a (List.argmin_mem ha)
    case h_2 => cases h

end Solver

/-! ### The solver in use -/

omit [Scalar K] in
theorem Dict.lookup_of_items {κ ν : Type} [DecidableEq κ] {d d' : Dict κ ν} (h : d.items = d'.items) (k : κ) :
    d.lookup k = d'.lookup k := by
  ext v
  rw [← mem_items, ← mem_items, h]

namespace System
variable {s t : System K n}

/-- The solver in use has the caps it was built from. -/
def Memoised (s : System K n) : Prop :=
  Option.Rel (fun key σ => σ.model.caps.items = key.caps) s.controller.solverKey s.controller.solver

/-- The model that a solver is built from is the published one, apart from the Router's predictor and counts. -/
theorem solverModel_caps : s.solverModel.2.controller = s.controller ∧ s.solverModel.2.router.tiers = s.router.tiers ∧
    ∀ m, s.solverModel.1 = some m → ∃ m', s.router.tiers.modelJson = some m' ∧ m.caps = m'.caps := by
  unfold solverModel
  split
  · split
    case h_1 hnone => exact ⟨rfl, rfl, fun m h => by cases h⟩
    case h_2 m hm =>
      split
      · refine ⟨rfl, rfl, fun m' h => ?_⟩
        obtain rfl := Option.some.inj h
        exact ⟨m, hm, rfl⟩
      · refine ⟨rfl, (Router.quiet_applyTable s.router).tiers, fun m' h => ?_⟩
        obtain rfl := Option.some.inj h
        exact ⟨m, hm, rfl⟩
  · exact ⟨rfl, rfl, fun m h => by cases h⟩

/-- Whether it is built now or was built before, the solver has the caps of the published model. -/
theorem solver_caps (h : s.Memoised) : s.solver.2.Memoised ∧ s.solver.2.router.tiers = s.router.tiers ∧
    ∀ σ, s.solver.1 = some σ → ∃ m, s.router.tiers.modelJson = some m ∧ ∀ p, σ.model.caps.lookup p = m.caps.lookup p := by
  obtain ⟨hcontroller, htiers, hmodel⟩ := solverModel_caps (s := s)
  unfold solver
  generalize s.solverModel = e at hcontroller htiers hmodel ⊢
  obtain ⟨model, u⟩ := e
  dsimp only at hcontroller htiers hmodel ⊢
  -- The memo is read only under the key of the model it was built from.
  split_ifs with hkey
  · refine ⟨?_, htiers, fun σ hσ => ?_⟩
    · show Option.Rel _ u.controller.solverKey u.controller.solver
      rw [hcontroller]
      exact h
    · have hsolver : u.controller.solver = some σ := hσ
      unfold Memoised at h
      rw [← hcontroller, ← hkey, hsolver] at h
      cases model with
      | none => cases h
      | some m =>
        cases h with
        | some hitems =>
          obtain ⟨m', hm', hcaps⟩ := hmodel m rfl
          exact ⟨m', hm', fun p => by rw [Dict.lookup_of_items hitems, hcaps]⟩
  · refine ⟨?_, htiers, fun σ hσ => ?_⟩
    · show Option.Rel _ (model.map u.solverKey) (model.map fun m => Solver.build m n)
      cases model with
      | none => exact .none
      | some m => exact .some rfl
    · obtain ⟨m, rfl, rfl⟩ := Option.map_eq_some_iff.mp hσ
      obtain ⟨m', hm', hcaps⟩ := hmodel m rfl
      exact ⟨m', hm', fun p => by rw [← hcaps]; rfl⟩

/-! ### Runs -/

/-- A table that was saved and is read again. -/
def Reloaded (table table' : TierTable K) : Prop :=
  ∃ t t' : StoredTable K, t.Tidy ∧ t.read = .ok table ∧ t.toJson.reload >>= StoredTable.fromJson = .ok t' ∧
    t'.read = .ok table'

def setTable (s : System K n) (table : Option (TierTable K)) : System K n :=
  { s with router := { s.router with tiers := { s.router.tiers with table } } }

/-- What may happen between two publications, next to the rates at which a point failed so far. -/
inductive CapStep : System K n → List (ClockPoint × K) → System K n → List (ClockPoint × K) → Prop
  | passed {s : System K n} {failed : List (ClockPoint × K)} (point : ClockPoint) (rate : K) (positive : 0 < rate) :
      CapStep s failed (s.confirmPoint point rate) failed
  | failed {s : System K n} {failed : List (ClockPoint × K)} (point : ClockPoint) (rate : K) (positive : 0 < rate) :
      CapStep s failed (s.capPoint point rate) ((point, rate) :: failed)
  | solver {s : System K n} {failed : List (ClockPoint × K)} : CapStep s failed s.solver.2 failed
  | reload {s : System K n} {failed : List (ClockPoint × K)} (table table' : TierTable K)
      (saved : s.router.tiers.table = some table) (reloaded : Reloaded table table') :
      CapStep s failed (s.setTable (some table')) failed
  /-- A new process reads the saved table, and has no solver yet. -/
  | restart {s t : System K n} {failed : List (ClockPoint × K)} (table table' : TierTable K)
      (saved : s.router.tiers.table = some table) (reloaded : Reloaded table table')
      (read : t.router.tiers.table = some table')
      (key : t.controller.solverKey = none) (solver : t.controller.solver = none) : CapStep s failed t failed
  /-- Plans, production and everything else that does not touch the table and the solver in use. -/
  | elsewhere {s t : System K n} {failed : List (ClockPoint × K)} (table : t.router.tiers.table = s.router.tiers.table)
      (key : t.controller.solverKey = s.controller.solverKey) (solver : t.controller.solver = s.controller.solver) :
      CapStep s failed t failed

/-- A run from the publication of a table. -/
inductive CapRun (s₀ : System K n) : System K n → List (ClockPoint × K) → Prop
  | refl : CapRun s₀ s₀ []
  | step {s t : System K n} {failed failed' : List (ClockPoint × K)} (run : CapRun s₀ s failed)
      (next : CapStep s failed t failed') : CapRun s₀ t failed'

/-- Every failed rate has a cap on it. -/
structure Capped (s : System K n) (failed : List (ClockPoint × K)) : Prop where
  positive : ∀ f ∈ failed, 0 < f.2
  caps : ∀ m, s.router.tiers.modelJson = some m → ∀ f ∈ failed, ∃ c, m.caps.lookup f.1 = some c ∧ c ≤ f.2
  memoised : s.Memoised

theorem modelJson_capPoint (s : System K n) (point : ClockPoint) (rate : K) :
    (s.capPoint point rate).router.tiers.modelJson = s.router.tiers.modelJson.map fun m =>
      { m with caps := m.caps.insert point (min ((m.caps.lookup point).getD rate) rate) } := by
  show Option.bind (s.router.tiers.table.map fun t => capModel t point rate) _ = _
  cases htable : s.router.tiers.table with
  | none => rw [TierState.modelJson, htable]; rfl
  | some table => rw [TierState.modelJson, htable]; rfl

theorem caps_of_reloaded {table table' : TierTable K} (h : Reloaded table table') :
    Option.Rel (fun m m' => ∀ p, m.caps.lookup p = m'.caps.lookup p) table.evidence.model table'.evidence.model := by
  obtain ⟨t, t', htidy, hread, hreload, hread'⟩ := h
  rw [StoredTable.fromJson_toJson htidy] at hreload
  obtain rfl := Except.ok.inj hreload
  obtain ⟨table'', hr, -, hsame⟩ := StoredTable.read_restored htidy hread
  obtain rfl := Except.ok.inj (hr.symm.trans hread')
  have hcaps := hsame.caps
  generalize table.evidence.model = m, table''.evidence.model = m' at hcaps
  cases hcaps with
  | none => exact .none
  | some h => exact .some fun p => Dict.rel_eq.mp h p

/-- The caps are those of the table that is read again. -/
theorem Capped.reloaded {failed : List (ClockPoint × K)} (h : s.Capped failed) {table table' : TierTable K}
    (saved : s.router.tiers.table = some table) (hreloaded : Reloaded table table') :
    ∀ m, table'.evidence.model = some m → ∀ f ∈ failed, ∃ c, m.caps.lookup f.1 = some c ∧ c ≤ f.2 := by
  intro m hm f hf
  have hcaps := caps_of_reloaded hreloaded
  rw [hm] at hcaps
  generalize hmodel : table.evidence.model = model at hcaps
  cases hcaps with
  | some hsame =>
    obtain ⟨c, hc, hle⟩ := h.caps _ (by rw [TierState.modelJson, saved]; exact hmodel) f hf
    exact ⟨c, by rw [← hsame, hc], hle⟩

theorem Capped.step {failed failed' : List (ClockPoint × K)} (h : s.Capped failed) (hs : CapStep s failed t failed') :
    t.Capped failed' := by
  cases hs with
  | passed point rate positive => exact ⟨h.positive, h.caps, h.memoised⟩
  | failed point rate positive =>
    refine ⟨?_, ?_, h.memoised⟩
    · intro f hf
      rcases List.mem_cons.mp hf with rfl | hf
      · exact positive
      · exact h.positive f hf
    · intro m hm f hf
      rw [modelJson_capPoint] at hm
      obtain ⟨m₀, hm₀, rfl⟩ := Option.map_eq_some_iff.mp hm
      by_cases hpoint : f.1 = point
      · refine ⟨_, by rw [hpoint]; exact AList.lookup_insert _, ?_⟩
        rcases List.mem_cons.mp hf with rfl | hf
        · exact min_le_right _ _
        · -- The cap of an earlier failure only goes down.
          obtain ⟨c, hc, hle⟩ := h.caps m₀ hm₀ f hf
          rw [hpoint] at hc
          rw [hc]
          exact (min_le_left _ _).trans hle
      · rcases List.mem_cons.mp hf with rfl | hf
        · exact absurd rfl hpoint
        · obtain ⟨c, hc, hle⟩ := h.caps m₀ hm₀ f hf
          exact ⟨c, by rw [← hc]; exact AList.lookup_insert_ne hpoint, hle⟩
  | solver =>
    obtain ⟨hmemo, htiers, -⟩ := solver_caps h.memoised
    refine ⟨h.positive, fun m hm => ?_, hmemo⟩
    rw [htiers] at hm
    exact h.caps m hm
  | reload table table' saved reloaded => exact ⟨h.positive, h.reloaded saved reloaded, h.memoised⟩
  | restart table table' saved reloaded read key solver =>
    refine ⟨h.positive, fun m hm => ?_, ?_⟩
    · rw [TierState.modelJson, read] at hm
      exact h.reloaded saved reloaded m hm
    · unfold Memoised
      rw [key, solver]
      exact .none
  | elsewhere table key solver =>
    refine ⟨h.positive, fun m hm => ?_, ?_⟩
    · rw [TierState.modelJson, table] at hm
      exact h.caps m hm
    · unfold Memoised
      rw [key, solver]
      exact h.memoised

theorem Capped.run {s₀ : System K n} {failed : List (ClockPoint × K)} (h : s₀.Memoised) (hrun : CapRun s₀ s failed) :
    s.Capped failed := by
  induction hrun with
  | refl => exact ⟨fun _ hf => absurd hf List.not_mem_nil, fun _ _ _ hf => absurd hf List.not_mem_nil, h⟩
  | step _ hs ih => exact ih.step hs

/-- No feasible evaluation and no capacity of a solver reaches the rate. -/
structure Below (σ : Solver K) (point : ClockPoint) (rate : K) : Prop where
  evaluate : ∀ r lengths groups e, σ.evaluate r lengths groups point = .ok e → e.feasible = true → ∀ x ∈ e.rates, x < rate
  solve : ∀ r lengths lo hi e, σ.solve r lengths lo hi = .ok e → e.feasible = true → e.point = point →
    ∀ x ∈ e.rates, x < rate
  capacity : ∀ lengths c, σ.capacity lengths point = .ok c → c < rate

/-- In every run from a publication, the solver in use keeps every point strictly below every rate it failed at. -/
theorem failed_binding (s₀ : System K n) (h₀ : s₀.Memoised) {failed : List (ClockPoint × K)} (hrun : CapRun s₀ s failed)
    (σ : Solver K) (hσ : s.solver.1 = some σ) : ∀ f ∈ failed, Below σ f.1 f.2 := by
  have h := Capped.run h₀ hrun
  intro f hf
  obtain ⟨m, hm, hcaps⟩ := (solver_caps h.memoised).2.2 σ hσ
  obtain ⟨c, hc, hle⟩ := h.caps m hm f hf
  rw [← hcaps] at hc
  have hevaluate : ∀ r lengths groups e, σ.evaluate r lengths groups f.1 = .ok e → e.feasible = true →
      ∀ x ∈ e.rates, x < f.2 :=
    fun r lengths groups e he hfeasible x hx =>
      (Solver.lt_cap hc (Solver.isFeasible_of_evaluate he hfeasible x hx)).2.trans_le hle
  refine ⟨hevaluate, fun r lengths lo hi e he hfeasible hpoint => ?_, fun lengths c' hc' => ?_⟩
  · obtain ⟨groups, heval⟩ := Solver.evaluate_of_solve he
    rw [hpoint] at heval
    exact hevaluate r lengths groups e heval hfeasible
  · rcases Solver.capacity_cases hc' with rfl | hfeasible
    · exact h.positive f hf
    · exact (Solver.lt_cap hc hfeasible).2.trans_le hle

/-- A published model of busy shares. -/
def busySystem : System ℚ 2 :=
  smallSystem { smallCold 2 with
    tiers := ⟨smallMax, some { smallPublished 1 1 with evidence := ⟨∅, ∅, ∅, none, some Solver.busyModel, none⟩ }, none⟩ }

/-- Its solver is built, and then the point fails at 3 of the 5 requests a second that the model gives it. -/
theorem failed_binding_busySystem : ∃ σ, (busySystem.solver.2.capPoint ⟨1400, 1000⟩ 3).solver.1 = some σ ∧
    Below σ ⟨1400, 1000⟩ 3 := by
  have hsome : (busySystem.solver.2.capPoint ⟨1400, 1000⟩ 3).solver.1.isSome = true := by decide +kernel
  obtain ⟨σ, hσ⟩ := Option.isSome_iff_exists.mp hsome
  have hrun : CapRun busySystem (busySystem.solver.2.capPoint ⟨1400, 1000⟩ 3) [(⟨1400, 1000⟩, 3)] :=
    (CapRun.refl.step .solver).step (.failed ⟨1400, 1000⟩ 3 (by norm_num))
  exact ⟨σ, hσ, failed_binding busySystem .none hrun σ hσ _ List.mem_cons_self⟩

end System
end CanaTune
