import CanaTune.Theorems.Gate
import CanaTune.Theorems.HardGuards

/-! The hard KV projection. Baseline mode projects for every pair it tries; the normal mode projects inside the check
    of the length model, so without a length model it never does. -/

namespace CanaTune
variable {K : Type} [Scalar K] {n : ℕ}
namespace Router

theorem Admits.dgroup {r s : Router K n} {tokens : ℕ} {route : Route n} {t : Ticket K n}
    (h : Admits r tokens route t s) : t.dgroup = route.d := by
  obtain ⟨r₁, c, exact, waitedMs, kind, -, rfl, hissue⟩ := h
  have hi := issued_issue r₁ c tokens exact waitedMs kind
  rw [hissue] at hi
  exact hi.dgroup

/-- The D of a ticket passed the checks of its path: those of a scan, or those of a turn of baseline mode. -/
theorem step_checked {r s : Router K n} {waiter tokens : ℕ} {exact : Bool} {waitedMs : K} {t : Ticket K n}
    (hbest : r.settings.overload = .bestEffort) (hopen : r.openAdmission = false)
    (h : r.step waiter tokens exact waitedMs = .ok (.ticket t, s)) :
    (r.baselineMode = false ∧ ∃ route ∈ r.routes, r.applyTable.Takes tokens route.d ∧ t.dgroup = route.d) ∨
      r.baselineMode = true ∧ r.baselineOk tokens (r.settings.groupChoice == .fill) t.dgroup = true := by
  obtain ⟨⟨ticket, s'⟩, hlooks, ho, -⟩ := step_looks h
  cases hlooks with
  | idle => cases ho
  | scan rescue backfill bestEffort prepared normal found =>
    obtain rfl : some t = ticket := ho
    obtain ⟨route, hroute, hadmits⟩ := tryAdmit_spec found
    obtain ⟨hmem, htakes⟩ := takes_of_offers hbest hopen prepared hroute
    exact .inl ⟨normal.resolve_left fun hno => hno hbest, route, hmem, htakes, hadmits.dgroup⟩
  | turn books best baseline found =>
    obtain rfl : some t = ticket := ho
    obtain ⟨route, ⟨hpair, hok, -⟩, hadmits⟩ := admitBaseline_spec found
    rw [← hpair, ← hadmits.dgroup, baselineOk_books] at hok
    exact .inr ⟨baseline, hok⟩

theorem projectedOver_of_baselineOk {r : Router K n} {tokens : ℕ} {fill : Bool} {g : Fin n}
    (hhard : r.settings.kvProjectionHard = true) (htelemetry : r.telemetry.isSome = true)
    (h : r.baselineOk tokens fill g = true) : r.projectedOver tokens g = false := by
  unfold baselineOk at h
  rw [Bool.and_eq_true] at h
  have hprojected := h.2
  unfold projectedOver
  cases htable : r.tiers.table with
  | none => rfl
  | some table =>
    rw [htable] at hprojected
    simpa [hhard, htelemetry] using hprojected

/-! ### The setting, and where it holds -/

/-- Best effort with the hard projection over configured telemetry; `table` is published and baseline mode is as given. -/
structure Projecting (r : Router K n) (table : TierTable K) (baseline : Bool) : Prop where
  best : r.settings.overload = .bestEffort
  hard : r.settings.kvProjectionHard = true
  telemetry : r.telemetry.isSome = true
  table : r.tiers.table = some table
  mode : r.baselineMode = baseline

/-- No ticket is issued to a D whose projected KV passes the wall. -/
def RespectsWall (r : Router K n) (tokens : ℕ) : Prop :=
  ∀ (waiter : ℕ) (exact : Bool) (waitedMs : K) (t : Ticket K n) (s : Router K n),
    r.step waiter tokens exact waitedMs = .ok (.ticket t, s) → r.projectedOver tokens t.dgroup = false

section Projecting
variable {r : Router K n} {table : TierTable K} {baseline : Bool} (h : r.Projecting table baseline)
include h

omit [Scalar K] in
theorem Projecting.openAdmission : r.openAdmission = false := by rw [Router.openAdmission, h.table, Option.isNone_some]

/-- Baseline mode and the length model project; otherwise it takes luck. -/
theorem Projecting.walled {tokens : ℕ} (hwall : baseline = true ∨ table.lengthModel.isSome = true ∨
    ∀ route ∈ r.routes, r.applyTable.Takes tokens route.d → r.projectedOver tokens route.d = false) :
    r.RespectsWall tokens := by
  intro waiter exact waitedMs t s hstep
  rcases step_checked h.best h.openAdmission hstep with ⟨hnormal, route, hroute, htakes, hd⟩ | ⟨-, hok⟩
  · rw [hd]
    rcases hwall with hbase | hmodel | hclear
    · rw [h.mode, hbase] at hnormal
      exact Bool.noConfusion hnormal
    · have hlength : r.lengthModel.isSome = true := by rwa [lengthModel, h.table, Option.bind_some]
      exact ((takes_applyTable h.best h.openAdmission tokens route.d).mp htakes).2.2 h.hard hlength
    · exact hclear route hroute htakes
  · exact projectedOver_of_baselineOk h.hard h.telemetry hok

/-- Without a length model the normal mode dispatches the head of the queue to a D over the wall, when every D it may
    use is. -/
theorem Projecting.not_walled {tokens waiter : ℕ} {waitedMs : K} (hhead : r.AtHead waiter waitedMs)
    (hover : ∀ route ∈ r.routes, r.projectedOver tokens route.d = true)
    (htakes : ∃ route ∈ r.routes, r.applyTable.Takes tokens route.d) : ¬r.RespectsWall tokens := by
  intro hwalled
  have hserved := (dispatches_iff_takes h.best h.openAdmission hhead tokens true).mpr htakes
  obtain ⟨t, s, hstep⟩ := dispatches_iff.mp hserved
  have hclear := hwalled waiter true waitedMs t s hstep
  rcases step_checked h.best h.openAdmission hstep with ⟨-, route, hroute, -, hd⟩ | ⟨hbase, -⟩
  · rw [hd, hover route hroute] at hclear
    exact Bool.noConfusion hclear
  · rw [hhead.normal] at hbase
    exact Bool.noConfusion hbase

end Projecting

/-! ### A table without a length model -/

/-- Every D has one request running, at the KV limit of the table; the KV is projected against its full size. -/
def oneRunning (n : ℕ) (table : TierTable K) : Router K n :=
  .fresh { RouterSettings.defaults (1 / 10) 1000 50 100 20 1 1 10 with
      kvBufferBytes := none, kvProjectionHard := true, kvProjectionLimit := some 1 }
    smallTable 0 (fun _ => { Group.fresh false with effective := some smallMax }) ⟨smallMax, some table, none⟩
    (some ⟨fun _ => some ⟨0, some 1, some 0, some (table.decodeKvLimit.getD 0), true⟩⟩) none smallSampler

theorem projecting_oneRunning (table : TierTable K) : (oneRunning n table).Projecting table false :=
  ⟨rfl, rfl, rfl, rfl, rfl⟩

theorem atHead_oneRunning (table : TierTable K) : (oneRunning n table).AtHead 1 0 :=
  ⟨rfl, show (0 : K) < 30000 by norm_num, rfl⟩

theorem freshSnapshot_oneRunning (table : TierTable K) (d : Fin n) : (oneRunning n table).freshSnapshot d =
    some ⟨0, some 1, some 0, some (table.decodeKvLimit.getD 0), true⟩ := by
  simp [freshSnapshot, oneRunning, Router.fresh, Telemetry.fresh, RouterSettings.defaults]

/-- The D's own limit is not passed, and nothing is in flight. -/
theorem takes_oneRunning {table : TierTable K} (hmodel : table.lengthModel = none) (tokens : ℕ) (d : Fin n) :
    (oneRunning n table).applyTable.Takes tokens d := by
  have h := projecting_oneRunning (n := n) table
  rw [takes_applyTable h.best h.openAdmission]
  refine ⟨?_, fun _ => ?_, fun _ hlength => ?_⟩
  · unfold decodeState
    simp only [freshSnapshot_oneRunning, h.table, h.best]
    cases table.decodeKvLimit <;> simp
  · have hbuffer : (oneRunning n table).applyTable.settings.kvBufferBytes = none := by
      rw [(untouched_applyTable _).settings]
      rfl
    simp [kvBlocked, hbuffer]
  · rw [lengthModel, h.table, Option.bind_some, hmodel] at hlength
    exact Bool.noConfusion hlength

/-- A prompt that is longer than what the wall leaves. -/
theorem projectedOver_oneRunning {table : TierTable K} {kvTokens tokens : ℕ} (hkv : table.decodeKvTokens = some kvTokens)
    (hpos : kvTokens ≠ 0) (htokens : (kvTokens : K) - table.decodeKvLimit.getD 0 * kvTokens < tokens) (d : Fin n) :
    (oneRunning n table).projectedOver tokens d = true := by
  have h := projecting_oneRunning (n := n) table
  have hgroup : (oneRunning n table).groups d = { Group.fresh false with effective := some smallMax } := rfl
  have hlimit : (oneRunning n table).settings.kvProjectionLimit = some 1 := rfl
  have hmean : (oneRunning n table).outputMean = 0 := rfl
  rw [projectedOver, h.table, Option.any_some, freshSnapshot_oneRunning]
  unfold kvProjectedOver
  simp only [hkv, hlimit, hmean, hgroup, Group.fresh, hpos, h.hard, one_ne_zero, if_false, Option.getD_some, add_zero,
    false_and, decide_eq_true_eq, mul_zero, zero_div, ite_self, Int.cast_zero]
  linarith

/-- The claim of the setting, over every state and request, for a table and a mode: baseline mode keeps it, the normal
    mode exactly with a length model; a state where no D in reach is over the wall keeps it anyway. -/
theorem walled_iff (hn : 0 < n) {table : TierTable K} {kvTokens : ℕ} (hkv : table.decodeKvTokens = some kvTokens)
    (hpos : kvTokens ≠ 0) (baseline : Bool) :
    ((∀ r : Router K n, r.Projecting table baseline → ∀ tokens, r.RespectsWall tokens) ↔
      baseline = true ∨ table.lengthModel.isSome = true) ∧
    ∀ (r : Router K n) (tokens : ℕ), r.Projecting table baseline →
      (∀ route ∈ r.routes, r.applyTable.Takes tokens route.d → r.projectedOver tokens route.d = false) →
      r.RespectsWall tokens := by
  refine ⟨⟨fun hall => ?_, fun hwall r h tokens => h.walled (hwall.imp_right .inl)⟩, fun r tokens h hclear =>
    h.walled (.inr (.inr hclear))⟩
  -- Without a length model the projection is off: one D, and a prompt longer than what is left of its KV.
  by_contra hno
  rw [not_or, Bool.not_eq_true, Bool.not_eq_true, Option.isSome_eq_false_iff, Option.isNone_iff_eq_none] at hno
  obtain ⟨rfl, hmodel⟩ := hno
  obtain ⟨tokens, htokens⟩ := exists_nat_gt ((kvTokens : K) - table.decodeKvLimit.getD 0 * kvTokens)
  have h := projecting_oneRunning (n := n) table
  have hroute : (⟨⟨0, hn⟩, ⟨0, hn⟩⟩ : Route n) ∈ (oneRunning n table).routes := by
    have hactive : (⟨0, hn⟩ : Fin n) ∈ (List.finRange n).filter fun i => ((oneRunning n table).groups i).routable :=
      List.mem_filter.mpr ⟨List.mem_finRange _, rfl⟩
    exact List.mem_map.mpr ⟨_, hactive, rfl⟩
  exact h.not_walled (atHead_oneRunning table) (fun route _ => projectedOver_oneRunning hkv hpos htokens route.d)
    ⟨_, hroute, takes_oneRunning hmodel tokens _⟩ (hall _ h tokens)

/-- A D of 1000 tokens of KV, used up to nine tenths, and no length model. -/
def smallSized : TierTable ℚ :=
  { smallPublished 1 (1 / 2) with decodeKvTokens := some 1000, decodeKvLimit := some (9 / 10) }

theorem walled_iff_smallSized :
    ((∀ r : Router ℚ 1, r.Projecting smallSized false → ∀ tokens, r.RespectsWall tokens) ↔
      false = true ∨ smallSized.lengthModel.isSome = true) ∧
    ∀ (r : Router ℚ 1) (tokens : ℕ), r.Projecting smallSized false →
      (∀ route ∈ r.routes, r.applyTable.Takes tokens route.d → r.projectedOver tokens route.d = false) →
      r.RespectsWall tokens :=
  walled_iff (by decide) rfl (by decide) false

/-- 800 tokens go to a D that holds 900 of 1000. -/
theorem not_walled_smallSized : ¬ ∀ (r : Router ℚ 1) (table : TierTable ℚ) (baseline : Bool),
    r.Projecting table baseline → table.decodeKvTokens.isSome = true → ∀ tokens, r.RespectsWall tokens := by
  intro hall
  have hover (route : Route 1) : (oneRunning 1 smallSized).projectedOver 800 route.d = true :=
    projectedOver_oneRunning rfl (by decide) (by norm_num [smallSized]) route.d
  have htakes : ∃ route ∈ (oneRunning 1 smallSized).routes, (oneRunning 1 smallSized).applyTable.Takes 800 route.d :=
    ⟨⟨0, 0⟩, by decide +kernel, takes_oneRunning rfl 800 0⟩
  have h := projecting_oneRunning (n := 1) smallSized
  exact h.not_walled (atHead_oneRunning smallSized) (fun route _ => hover route) htakes (hall _ _ _ h rfl 800)

end Router
end CanaTune
