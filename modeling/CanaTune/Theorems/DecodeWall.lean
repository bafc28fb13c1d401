import CanaTune.Theorems.Accounting
import CanaTune.Theorems.Attempt

/-! The calibrated concurrency of a D under the legacy policies. Only an admission adds to the requests a D
    serves or will serve, one at a time, and the check it passed was made on the counters it is booked on. -/

namespace CanaTune
variable {K : Type} [Scalar K] {n : ℕ}

/-- Requests a D serves or will serve, of the counts of its group. -/
def Counts.load (c : Counts) : ℤ := c.2.1 + c.2.2.2.1

theorem Counts.load_add (a b : Counts) : (a + b).load = a.load + b.load := by
  simp only [Counts.load, Prod.fst_add, Prod.snd_add]
  ring

theorem Counts.load_sub (a b : Counts) : (a - b).load = a.load - b.load := by
  simp only [Counts.load, Prod.fst_sub, Prod.snd_sub]
  ring

omit [Scalar K] in
theorem Ticket.load_countsIn {t : Ticket K n} (g : Fin n) :
    (t.countsIn g .prefill).load = if g = t.dgroup then 1 else 0 := by
  simp only [Ticket.countsIn, Counts.load_add, awaitCounts, stageCounts, routeCounts]
  split_ifs <;> rfl

omit [Scalar K] in
theorem Ticket.load_stageCounts_nonneg (t : Ticket K n) (g : Fin n) (s : Stage) : 0 ≤ (t.stageCounts g s).load := by
  cases s <;> simp only [stageCounts]
  · split_ifs <;> decide
  · decide
  · split_ifs <;> decide
  · decide

omit [Scalar K] in
theorem Ticket.load_stageCounts_decode (t : Ticket K n) (g : Fin n) :
    (t.stageCounts g .decode).load = if g = t.dgroup then 1 else 0 := by
  unfold stageCounts
  dsimp only
  split_ifs <;> rfl

omit [Scalar K] in
theorem Ticket.load_awaitCounts (t : Ticket K n) (g : Fin n) :
    (t.awaitCounts g).load = if g = t.dgroup then 1 else 0 := by
  unfold awaitCounts
  split_ifs <;> rfl

namespace Router

omit [Scalar K] in
theorem dLoad_eq (r : Router K n) (g : Fin n) : r.dLoad g = ((r.groups g).counts).load := rfl

/-- No D serves more requests in `s` than in `r`. -/
def NoMore (r s : Router K n) : Prop := ∀ g, s.dLoad g ≤ r.dLoad g

/-! ### The operations on a ticket -/

theorem noMore_prefillDone (r : Router K n) (i : ℕ) : NoMore r (r.prefillDone i) := by
  intro g
  unfold prefillDone
  split
  · exact le_rfl
  case h_2 t ht =>
    split_ifs with hskip
    · exact le_rfl
    have hstage := t.load_stageCounts_nonneg g t.stage
    rw [dLoad_eq, read_setGroup_same _ _ _ Group.counts (fun _ => by rfl), setTicket_groups, leaveStage_counts,
      Counts.load_sub]
    exact sub_le_self _ hstage

/-- The request that D awaited decodes on it now. -/
theorem noMore_firstToken (r : Router K n) (i : ℕ) : NoMore r (r.firstToken i) := by
  intro g
  unfold firstToken
  split
  · exact le_rfl
  case h_2 t ht =>
    split_ifs with hskip
    · exact le_rfl
    have hstage := t.load_stageCounts_nonneg g t.stage
    have hdecode : (if g = t.dgroup then (0, 0, 0, 1, 0) else 0 : Counts) = t.stageCounts g .decode := rfl
    rw [dLoad_eq, read_setGroup _ _ _ Group.counts (0, 0, 0, 1, 0) (by simp [Group.counts]), setTicket_groups,
      leaveStage_counts, leaveAwait_counts, hdecode, Counts.load_add, Counts.load_sub, Counts.load_sub,
      t.load_awaitCounts, t.load_stageCounts_decode, dLoad_eq]
    omega

theorem noMore_giveBack (r : Router K n) (i : ℕ) (t : Ticket K n) : NoMore r (r.giveBack i t) := by
  intro g
  have hstage := t.load_stageCounts_nonneg g t.stage
  have hawait := t.load_awaitCounts g
  have hroute (s : Router K n) : (s.leaveRoute t).dLoad g = s.dLoad g :=
    leaveRoute_same s t g (fun x => x.nAwait + x.nDecoding) fun _ => rfl
  have hleave (s : Router K n) : (s.leaveStage t).dLoad g ≤ s.dLoad g := by
    rw [dLoad_eq, leaveStage_counts, Counts.load_sub]
    exact sub_le_self _ hstage
  unfold giveBack
  dsimp only
  show ((Router.leaveStage _ t).leaveRoute t).dLoad g ≤ _
  rw [hroute]
  refine (hleave _).trans ?_
  split_ifs
  · rw [dLoad_eq, leaveAwait_counts, Counts.load_sub, hawait]
    refine sub_le_self _ ?_
    split_ifs <;> decide
  · exact le_rfl

theorem noMore_finish (r : Router K n) (i : ℕ) (ok : Bool) (ttftMs tpotMs : Option K) (outputTokens : ℕ) :
    NoMore r (r.finish i ok ttftMs tpotMs outputTokens) := by
  intro g
  unfold finish
  split
  · exact le_rfl
  case h_2 t ht =>
    by_cases hskip : t.finished = true
    · rw [if_pos hskip]
    rw [if_neg hskip]
    have hu := untouched_closeEvidence (r.giveBack i t) t ok ttftMs tpotMs
    have hgroups : (((r.giveBack i t).closeEvidence t ok ttftMs tpotMs).dLoad g) = (r.giveBack i t).dLoad g := by
      rw [dLoad, hu.groups, dLoad]
    dsimp only
    refine le_trans (le_of_eq ?_) (noMore_giveBack r i t g)
    rw [← hgroups]
    split <;> rfl

/-! ### The admission -/

/-- The legacy policies keep a D that is not blocked below its calibrated concurrency. -/
theorem dLoad_lt_of_decodeState {r : Router K n} {d : Fin n} {table : TierTable K} {b : ℤ}
    (hlegacy : r.settings.overload ≠ .bestEffort) (htable : r.tiers.table = some table)
    (hb : table.decodeMaxRunning = some b) (h : (r.decodeState d).2 = none) : r.dLoad d + 1 ≤ b := by
  unfold decodeState at h
  dsimp only at h
  split_ifs at h with hstale
  simp only [htable, hb] at h
  split_ifs at h with hwall
  simp only [not_and, Option.mem_def, Option.some.injEq, exists_eq_left', not_lt] at hwall
  have hle := (add_le_add_left (le_max_right _ _) 1).trans (hwall hlegacy)
  rw [dLoad]
  exact_mod_cast hle

/-- An attempt that issues a ticket under a legacy policy leaves its D within the calibrated concurrency. -/
theorem dLoad_le_of_step {r s : Router K n} {waiter tokens : ℕ} {exact : Bool} {waitedMs : K} {o : Outcome K n}
    {table : TierTable K} {b : ℤ} (hlegacy : r.settings.overload ≠ .bestEffort) (htable : r.tiers.table = some table)
    (hb : table.decodeMaxRunning = some b) (hle : ∀ g, r.dLoad g ≤ b)
    (h : r.step waiter tokens exact waitedMs = .ok (o, s)) (g : Fin n) : s.dLoad g ≤ b := by
  rcases step_requests h with ⟨-, hu⟩ | ⟨t, route, -, hi, -, -, hoffers⟩
  · rw [dLoad, hu.groups]
    exact hle g
  · obtain ⟨r', hprepared, hroute⟩ := hoffers (.inl hlegacy)
    have hu : Untouched { r with books := r'.books } r'.applyTable := hprepared.untouched.trans (untouched_applyTable r')
    have hopen : r'.applyTable.openAdmission = false := by
      rw [hu.openAdmission, openAdmission, htable]
      rfl
    have helig := hroute.2 hopen
    -- Admission is closed under a table, so the D of the route has passed the check of its load.
    have hfree : (r'.applyTable.decodeState route.d).2 = none := by
      rw [eligible, withinHardLimits, (checkD_spec _ tokens route.d).1] at helig
      simp only [Bool.and_eq_true, Option.isNone_iff_eq_none] at helig
      exact helig.1.1
    have hroom := dLoad_lt_of_decodeState (hu.settings ▸ hlegacy) (hu.tiers.symm ▸ htable) hb hfree
    have hload : s.dLoad g = r.dLoad g + if g = route.d then 1 else 0 := by
      rw [dLoad_eq, hi.counts, Counts.load_add, Ticket.load_countsIn, hi.dgroup, dLoad_eq]
    have hroom' : r.dLoad route.d + 1 ≤ b := by
      rw [dLoad, hu.groups] at hroom
      exact hroom
    rw [hload]
    split_ifs with hg
    · exact hg ▸ hroom'
    · exact (add_zero (r.dLoad g)).trans_le (hle g)

/-! ### Runs -/

/-- One call of a run under a legacy policy, or any activity that leaves the groups' counters alone. -/
inductive LegacyStep : Router K n → Router K n → Prop
  | step {r s : Router K n} {waiter tokens : ℕ} {exact : Bool} {waitedMs : K} {o : Outcome K n}
      (answer : r.step waiter tokens exact waitedMs = .ok (o, s)) : LegacyStep r s
  | prefillDone (r : Router K n) (i : ℕ) : LegacyStep r (r.prefillDone i)
  | firstToken (r : Router K n) (i : ℕ) : LegacyStep r (r.firstToken i)
  | finish (r : Router K n) (i : ℕ) (served : Bool) (ttftMs tpotMs : Option K) (outputTokens : ℕ) :
      LegacyStep r (r.finish i served ttftMs tpotMs outputTokens)
  | release (r : Router K n) (waiter : ℕ) : LegacyStep r (r.release waiter)
  | elsewhere {r s : Router K n} (same : ∀ g, (s.groups g).counts = (r.groups g).counts) : LegacyStep r s

/-- A legacy policy, and a published table that calibrated B* = `b`. -/
structure Walled (b : ℤ) (r : Router K n) : Prop where
  legacy : r.settings.overload ≠ .bestEffort
  wall : r.tiers.table.bind (·.decodeMaxRunning) = some b

abbrev LegacyRun (b : ℤ) : Router K n → Router K n → Prop :=
  Relation.ReflTransGen fun r s => LegacyStep r s ∧ Walled b s

theorem dLoad_le_step {b : ℤ} {r s : Router K n} (hwalled : Walled b r) (hle : ∀ g, r.dLoad g ≤ b) (h : LegacyStep r s)
    (g : Fin n) : s.dLoad g ≤ b := by
  cases h with
  | step answer =>
    obtain ⟨table, htable, hb⟩ := Option.bind_eq_some_iff.mp hwalled.wall
    exact dLoad_le_of_step hwalled.legacy htable hb hle answer g
  | prefillDone i => exact (noMore_prefillDone r i g).trans (hle g)
  | firstToken i => exact (noMore_firstToken r i g).trans (hle g)
  | finish i served ttftMs tpotMs outputTokens =>
    exact (noMore_finish r i served ttftMs tpotMs outputTokens g).trans (hle g)
  | release waiter => exact hle g
  | elsewhere same =>
    rw [dLoad_eq, same, ← dLoad_eq]
    exact hle g

/-- Under the legacy policies no D ever serves more requests than its calibrated concurrency. -/
theorem dLoad_le_of_run {b : ℤ} {r₀ r : Router K n} (hrun : LegacyRun b r₀ r) (hwalled : Walled b r₀)
    (hle : ∀ g, r₀.dLoad g ≤ b) (g : Fin n) : r.dLoad g ≤ b := by
  have hinv : Walled b r ∧ ∀ g, r.dLoad g ≤ b := by
    clear g
    induction hrun with
    | refl => exact ⟨hwalled, hle⟩
    | tail _ hstep ih => exact ⟨hstep.2, dLoad_le_step ih.1 ih.2 hstep.1⟩
  exact hinv.2 g

section Small

/-- One pair that serves one request at a time. -/
def smallWalled : Router ℚ 1 :=
  { smallCold 1 with
    settings := { smallSettings with overload := .serve }
    tiers := ⟨smallMax, some { smallPublished 1 1 with decodeMaxRunning := some 1 }, none⟩ }

/-- It is full with the first request. -/
theorem dLoad_le_of_run_smallWalled : (smallWalled.after 1 512 true 99).dLoad 0 ≤ 1 := by
  obtain ⟨t, hstep⟩ := step_of_dispatches (show smallWalled.dispatches 1 512 true 99 = true by decide +kernel)
  have hrun : LegacyRun 1 smallWalled (smallWalled.after 1 512 true 99) :=
    .single ⟨.step hstep, by decide +kernel, by decide +kernel⟩
  exact dLoad_le_of_run hrun ⟨by decide, rfl⟩ (fun g => by rw [Subsingleton.elim g 0]; decide +kernel) 0

end Small

end Router
end CanaTune
