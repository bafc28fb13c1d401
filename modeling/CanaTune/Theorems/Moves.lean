import CanaTune.Lib.Ledger
import CanaTune.Theorems.Untouched

/-! The counters of a group as a ledger of the issued tickets. What an operation does to the two groups of a
    ticket is the difference between what the ticket held in its stage and what it holds in the next. -/

namespace CanaTune
variable {K : Type} [Scalar K] {n : ℕ}

/-! ### What a ticket holds -/

/-- Requests at P, awaiting a first token, their prompt tokens, decoding, in flight. -/
abbrev Counts : Type := ℤ × ℤ × ℤ × ℤ × ℤ

namespace Ticket

/-- Unfinished, in stage prefill at the P of `g`. -/
def atP (t : Ticket K n) (g : Fin n) : Bool := !t.finished && g == t.group && t.stage == .prefill

/-- Unfinished, without a first token from the D of `g`. -/
def awaitsAt (t : Ticket K n) (g : Fin n) : Bool := !t.finished && g == t.dgroup && t.firstTokenAt.isNone

/-- In stage transfer to the D of `g`. -/
def travelsTo (t : Ticket K n) (g : Fin n) : Bool := g == t.dgroup && t.stage == .transfer

/-- In stage decode on the D of `g`. -/
def decodesAt (t : Ticket K n) (g : Fin n) : Bool := g == t.dgroup && t.stage == .decode

/-- Unfinished, with its P or its D in `g`. -/
def uses (t : Ticket K n) (g : Fin n) : Bool := !t.finished && (g == t.group || g == t.dgroup)

def counts (t : Ticket K n) (g : Fin n) : Counts :=
  (if t.atP g then 1 else 0, if t.awaitsAt g then 1 else 0, if t.awaitsAt g then (t.promptTokens : ℤ) else 0,
    if t.decodesAt g then 1 else 0, if t.uses g then 1 else 0)

def pending (t : Ticket K n) (g : Fin n) : K := if t.atP g then t.sOwnMs else 0

def bytes (kvBytesPerToken : K) (t : Ticket K n) (g : Fin n) : K :=
  if t.travelsTo g then t.promptTokens * kvBytesPerToken else 0

/-! ### What a stage holds -/

/-- Stage and marks agree, and a D group is written down only when it is not P's. -/
structure Sound (t : Ticket K n) : Prop where
  done : t.finished = true ↔ t.stage = .done
  first : t.stage ≠ .done → (t.firstTokenAt.isSome = true ↔ t.stage = .decode)
  other : t.decodeGroup ≠ some t.group

def awaitCounts (t : Ticket K n) (g : Fin n) : Counts := if g = t.dgroup then (0, 1, t.promptTokens, 0, 0) else 0

def stageCounts (t : Ticket K n) (g : Fin n) : Stage → Counts
  | .prefill => if g = t.group then (1, 0, 0, 0, 0) else 0
  | .decode => if g = t.dgroup then (0, 0, 0, 1, 0) else 0
  | .transfer | .done => 0

def routeCounts (t : Ticket K n) (g : Fin n) : Counts := if g = t.group ∨ g = t.dgroup then (0, 0, 0, 0, 1) else 0

def countsIn (t : Ticket K n) (g : Fin n) : Stage → Counts
  | .prefill => t.awaitCounts g + t.stageCounts g .prefill + t.routeCounts g
  | .transfer => t.awaitCounts g + t.stageCounts g .transfer + t.routeCounts g
  | .decode => t.stageCounts g .decode + t.routeCounts g
  | .done => 0

def pendingIn (t : Ticket K n) (g : Fin n) : Stage → K
  | .prefill => if g = t.group then t.sOwnMs else 0
  | .transfer | .decode | .done => 0

def bytesIn (kvBytesPerToken : K) (t : Ticket K n) (g : Fin n) : Stage → K
  | .transfer => if g = t.dgroup then t.promptTokens * kvBytesPerToken else 0
  | .prefill | .decode | .done => 0

omit [Scalar K] in
theorem Sound.counts {t : Ticket K n} (h : t.Sound) (g : Fin n) : t.counts g = t.countsIn g t.stage := by
  have hdone := h.done
  have hfirst := h.first
  rcases Classical.propComplete (g = t.group) with hg | hg <;>
    rcases Classical.propComplete (g = t.dgroup) with hd | hd <;>
    cases hs : t.stage <;> cases hf : t.finished <;> cases h1 : t.firstTokenAt <;>
    simp_all [Ticket.counts, countsIn, awaitCounts, stageCounts, routeCounts, atP, awaitsAt, decodesAt, uses]

theorem Sound.pending {t : Ticket K n} (h : t.Sound) (g : Fin n) : t.pending g = t.pendingIn g t.stage := by
  have hdone := h.done
  cases hs : t.stage <;> cases hf : t.finished <;> simp_all [Ticket.pending, pendingIn, atP]

theorem bytes_eq (kvBytesPerToken : K) (t : Ticket K n) (g : Fin n) :
    t.bytes kvBytesPerToken g = t.bytesIn kvBytesPerToken g t.stage := by
  cases hs : t.stage <;> simp [bytes, bytesIn, travelsTo, hs]

/-- The same request on the same route. -/
structure Same (t u : Ticket K n) : Prop where
  group : u.group = t.group
  decodeGroup : u.decodeGroup = t.decodeGroup
  promptTokens : u.promptTokens = t.promptTokens
  sOwnMs : u.sOwnMs = t.sOwnMs
  clockEpoch : u.clockEpoch = t.clockEpoch
  decodeEpoch : u.decodeEpoch = t.decodeEpoch

section Same
omit [Scalar K]
variable {t u : Ticket K n} (h : Same t u) (g : Fin n) (s : Stage)
include h

theorem Same.dgroup : u.dgroup = t.dgroup := by
  rw [Ticket.dgroup, h.decodeGroup, h.group, Ticket.dgroup]

theorem Same.countsIn : u.countsIn g s = t.countsIn g s := by
  cases s <;> simp only [Ticket.countsIn, awaitCounts, stageCounts, routeCounts, h.group, h.dgroup, h.promptTokens]

end Same

theorem Same.pendingIn {t u : Ticket K n} (h : Same t u) (g : Fin n) (s : Stage) :
    u.pendingIn g s = t.pendingIn g s := by
  cases s <;> simp only [Ticket.pendingIn, h.group, h.sOwnMs]

theorem Same.bytesIn {t u : Ticket K n} (h : Same t u) (kvBytesPerToken : K) (g : Fin n) (s : Stage) :
    u.bytesIn kvBytesPerToken g s = t.bytesIn kvBytesPerToken g s := by
  cases s <;> simp only [Ticket.bytesIn, h.dgroup, h.promptTokens]

end Ticket

def Group.counts (g : Group K) : Counts := (g.nAtP, g.nAwait, g.tAwait, g.nDecoding, g.nInflight)

/-- What the Controller and the Canary write. -/
def Group.control (g : Group K) : Bool × GroupState × Tier × Option ClockPoint := (g.canary, g.state, g.tier, g.effective)

namespace Router

/-! ### The ledgers -/

/-- The counters that no clamp touches. -/
structure Counted (r : Router K n) : Prop where
  sound : ∀ t ∈ r.tickets, t.Sound
  counts : Ledger.Balanced Ticket.counts r.tickets fun g => (r.groups g).counts

/-- The pending work of each P. -/
structure Pending (r : Router K n) : Prop where
  own : ∀ t ∈ r.tickets, 0 ≤ t.sOwnMs
  pending : Ledger.Balanced Ticket.pending r.tickets fun g => (r.groups g).pendingMs

/-- The KV in flight to each D. -/
structure Flying (r : Router K n) : Prop where
  perToken : 0 ≤ r.settings.kvBytesPerToken
  bytes : Ledger.Balanced (Ticket.bytes r.settings.kvBytesPerToken) r.tickets fun g => (r.groups g).inflightBytes

theorem Pending.covers {r : Router K n} (hp : r.Pending) (hc : r.Counted) {t : Ticket K n} (hm : t ∈ r.tickets)
    (hs : t.stage = .prefill) :
    t.sOwnMs ≤ (r.groups t.group).pendingMs := by
  have hle := Ledger.share_le_held (p := t.group) Ticket.pending (fun x hx => by
    unfold Ticket.pending
    split_ifs
    exacts [hp.own x hx, le_rfl]) hm
  rw [← hp.pending t.group, (hc.sound t hm).pending, hs] at hle
  simpa [Ticket.pendingIn] using hle

theorem Flying.covers {r : Router K n} (hf : r.Flying) {t : Ticket K n} (hm : t ∈ r.tickets) (hs : t.stage = .transfer) :
    r.kvBytes t ≤ (r.groups t.dgroup).inflightBytes := by
  have hle := Ledger.share_le_held (p := t.dgroup) (Ticket.bytes r.settings.kvBytesPerToken) (fun x _ => by
    unfold Ticket.bytes
    split_ifs
    exacts [mul_nonneg (Nat.cast_nonneg _) hf.perToken, le_rfl]) hm
  rw [← hf.bytes t.dgroup, Ticket.bytes_eq, hs] at hle
  simpa [Ticket.bytesIn, kvBytes] using hle

/-- What the Controller steers by is no request's to write. -/
structure SameControl (r s : Router K n) : Prop where
  settings : s.settings = r.settings
  now : s.now = r.now
  tiers : s.tiers = r.tiers
  clockEpochs : s.clockEpochs = r.clockEpochs
  fullEffort : s.fullEffort = r.fullEffort
  controlMode : s.controlMode = r.controlMode
  baselineMode : s.baselineMode = r.baselineMode

omit [Scalar K] in
theorem SameControl.trans {r s u : Router K n} (h₁ : SameControl r s) (h₂ : SameControl s u) : SameControl r u where
  settings := h₂.settings.trans h₁.settings
  now := h₂.now.trans h₁.now
  tiers := h₂.tiers.trans h₁.tiers
  clockEpochs := h₂.clockEpochs.trans h₁.clockEpochs
  fullEffort := h₂.fullEffort.trans h₁.fullEffort
  controlMode := h₂.controlMode.trans h₁.controlMode
  baselineMode := h₂.baselineMode.trans h₁.baselineMode

omit [Scalar K] in
theorem sameControl_setGroup (r : Router K n) (g : Fin n) (f : Group K → Group K) : SameControl r (r.setGroup g f) :=
  ⟨rfl, rfl, rfl, rfl, rfl, rfl, rfl⟩

omit [Scalar K] in
theorem Untouched.sameControl {r s : Router K n} (h : Untouched r s) : SameControl r s :=
  ⟨h.settings, h.now, h.tiers, h.clockEpochs, h.fullEffort, h.controlMode, h.baselineMode⟩

/-- A ticket goes to another stage: what it held before leaves the counters, what it holds now enters. The
    sums are clamped at zero, so they follow where they cover the ticket. -/
structure Moves (r s : Router K n) (i : ℕ) (t u : Ticket K n) : Prop where
  at_ : r.tickets[i]? = some t
  unfinished : t.finished = false
  same : Ticket.Same t u
  onward : u.stage ≠ .prefill ∧ (u.stage = .transfer → t.stage = .prefill)
  sound : t.Sound → u.Sound
  tickets : s.tickets = r.tickets.set i u
  settings : s.settings = r.settings
  control : ∀ g, (s.groups g).control = (r.groups g).control
  counts : t.Sound → ∀ g,
    (s.groups g).counts = (r.groups g).counts - t.countsIn g t.stage + t.countsIn g u.stage
  pending : (t.stage = .prefill → t.sOwnMs ≤ (r.groups t.group).pendingMs) → ∀ g,
    (s.groups g).pendingMs = (r.groups g).pendingMs - t.pendingIn g t.stage + t.pendingIn g u.stage
  bytes : (t.stage = .transfer → r.kvBytes t ≤ (r.groups t.dgroup).inflightBytes) → ∀ g,
    (s.groups g).inflightBytes = (r.groups g).inflightBytes - t.bytesIn r.settings.kvBytesPerToken g t.stage +
      t.bytesIn r.settings.kvBytesPerToken g u.stage
  kept : SameControl r s

section Moves
variable {r s : Router K n} {i : ℕ} {t u : Ticket K n} (h : Moves r s i t u)
include h

theorem Moves.mem : t ∈ r.tickets := List.mem_of_getElem? h.at_

theorem Moves.of_mem {x : Ticket K n} (hx : x ∈ s.tickets) : x ∈ r.tickets ∨ x = u :=
  List.mem_or_eq_of_mem_set (h.tickets ▸ hx)

theorem Counted.moves (hc : r.Counted) : s.Counted := by
  have ht := hc.sound t h.mem
  refine ⟨fun x hx => ?_, ?_⟩
  · rcases h.of_mem hx with hx | rfl
    · exact hc.sound x hx
    · exact h.sound ht
  · rw [h.tickets]
    refine hc.counts.replace h.at_ fun g => ?_
    rw [h.counts ht, ht.counts, (h.sound ht).counts, h.same.countsIn]

theorem Pending.moves (hp : r.Pending) (hc : r.Counted) : s.Pending := by
  have ht := hc.sound t h.mem
  refine ⟨fun x hx => ?_, ?_⟩
  · rcases h.of_mem hx with hx | rfl
    · exact hp.own x hx
    · rw [h.same.sOwnMs]
      exact hp.own t h.mem
  · rw [h.tickets]
    refine hp.pending.replace h.at_ fun g => ?_
    rw [h.pending (hp.covers hc h.mem), ht.pending, (h.sound ht).pending, h.same.pendingIn]

theorem Flying.moves (hf : r.Flying) : s.Flying := by
  refine ⟨h.settings ▸ hf.perToken, ?_⟩
  rw [h.tickets, h.settings]
  refine hf.bytes.replace h.at_ fun g => ?_
  rw [h.bytes (hf.covers h.mem), Ticket.bytes_eq, Ticket.bytes_eq, h.same.bytesIn]

end Moves
/-! ### What each update adds -/

section Updates
variable (r : Router K n) (t : Ticket K n) (g : Fin n)

@[simp] theorem leaveStage_tickets : (r.leaveStage t).tickets = r.tickets := by
  unfold leaveStage
  cases t.stage <;> rfl

theorem sameControl_leaveStage : SameControl r (r.leaveStage t) := by
  unfold leaveStage
  cases t.stage <;> exact ⟨rfl, rfl, rfl, rfl, rfl, rfl, rfl⟩

@[simp] theorem leaveStage_settings : (r.leaveStage t).settings = r.settings := by
  unfold leaveStage
  cases t.stage <;> rfl

theorem leaveStage_control : ((r.leaveStage t).groups g).control = (r.groups g).control := by
  unfold leaveStage
  cases t.stage
  case done => rfl
  all_goals exact read_setGroup_same _ _ _ Group.control (fun _ => by rfl) g

theorem leaveStage_counts :
    ((r.leaveStage t).groups g).counts = (r.groups g).counts - t.stageCounts g t.stage := by
  unfold leaveStage
  cases t.stage with
  | prefill =>
    rw [read_setGroup r t.group _ Group.counts (-1, 0, 0, 0, 0) (by simp [Group.counts, sub_eq_add_neg]),
      Ticket.stageCounts, sub_eq_add_neg]
    split_ifs <;> simp
  | transfer => rw [Ticket.stageCounts, sub_zero]; exact read_setGroup_same r _ _ Group.counts (fun _ => by rfl) g
  | decode =>
    rw [read_setGroup r t.dgroup _ Group.counts (0, 0, 0, -1, 0) (by simp [Group.counts, sub_eq_add_neg]),
      Ticket.stageCounts, sub_eq_add_neg]
    split_ifs <;> simp
  | done => rw [Ticket.stageCounts, sub_zero]

/-- The clamp of the pending work does not act where the work covers the ticket. -/
theorem leaveStage_pending (h : t.stage = .prefill → t.sOwnMs ≤ (r.groups t.group).pendingMs) :
    ((r.leaveStage t).groups g).pendingMs = (r.groups g).pendingMs - t.pendingIn g t.stage := by
  unfold leaveStage
  cases hs : t.stage with
  | prefill =>
    have hcov := max_eq_right (sub_nonneg.mpr (h hs))
    rw [read_setGroup r t.group _ Group.pendingMs (-t.sOwnMs)
      (hcov.trans (sub_eq_add_neg _ _)) g, Ticket.pendingIn]
    split_ifs <;> ring
  | transfer => rw [Ticket.pendingIn, sub_zero]; exact read_setGroup_same r _ _ Group.pendingMs (fun _ => by rfl) g
  | decode => rw [Ticket.pendingIn, sub_zero]; exact read_setGroup_same r _ _ Group.pendingMs (fun _ => by rfl) g
  | done => rw [Ticket.pendingIn, sub_zero]

/-- The clamp of the bytes in flight does not act where they cover the ticket. -/
theorem leaveStage_bytes (h : t.stage = .transfer → r.kvBytes t ≤ (r.groups t.dgroup).inflightBytes) :
    ((r.leaveStage t).groups g).inflightBytes =
      (r.groups g).inflightBytes - t.bytesIn r.settings.kvBytesPerToken g t.stage := by
  unfold leaveStage
  cases hs : t.stage with
  | prefill => rw [Ticket.bytesIn, sub_zero]; exact read_setGroup_same r _ _ Group.inflightBytes (fun _ => by rfl) g
  | transfer =>
    have hcov := max_eq_right (sub_nonneg.mpr (h hs))
    rw [read_setGroup r t.dgroup _ Group.inflightBytes (-r.kvBytes t)
      (hcov.trans (sub_eq_add_neg _ _)) g,
      Ticket.bytesIn, kvBytes]
    split_ifs <;> ring
  | decode => rw [Ticket.bytesIn, sub_zero]; exact read_setGroup_same r _ _ Group.inflightBytes (fun _ => by rfl) g
  | done => rw [Ticket.bytesIn, sub_zero]

omit [Scalar K] in
theorem leaveAwait_counts : ((r.leaveAwait t).groups g).counts = (r.groups g).counts - t.awaitCounts g := by
  rw [leaveAwait, read_setGroup r t.dgroup _ Group.counts (0, -1, -(t.promptTokens : ℤ), 0, 0)
    (by simp [Group.counts, sub_eq_add_neg]), Ticket.awaitCounts, sub_eq_add_neg]
  split_ifs <;> simp

omit [Scalar K] in
theorem leaveRoute_counts (h : t.Sound) :
    ((r.leaveRoute t).groups g).counts = (r.groups g).counts - t.routeCounts g := by
  have hone (r : Router K n) (d : Fin n) :
      ((r.setGroup d fun g => { g with nInflight := g.nInflight - 1 }).groups g).counts =
        (r.groups g).counts - if g = d then (0, 0, 0, 0, 1) else 0 := by
    rw [read_setGroup r d _ Group.counts (0, 0, 0, 0, -1) (by simp [Group.counts, sub_eq_add_neg]),
      sub_eq_add_neg]
    split_ifs <;> simp
  unfold leaveRoute
  cases hd : t.decodeGroup with
  | none => simp only [hone, Ticket.routeCounts, Ticket.dgroup, hd, Option.getD_none, or_self]
  | some d =>
    have hne : t.group ≠ d := fun he => h.other (he ▸ hd)
    simp only [hone, Ticket.routeCounts, Ticket.dgroup, hd, Option.getD_some]
    rcases Classical.propComplete (g = t.group) with hg | hg <;> rcases Classical.propComplete (g = d) with hd | hd
    · exact absurd ((of_eq_true hg).symm.trans (of_eq_true hd)) hne
    all_goals simp [hg, hd]

omit [Scalar K] in
theorem leaveRoute_same {M : Type} (read : Group K → M)
    (hf : ∀ g : Group K, read { g with nInflight := g.nInflight - 1 } = read g) :
    read ((r.leaveRoute t).groups g) = read (r.groups g) := by
  unfold leaveRoute
  cases t.decodeGroup with
  | none => exact read_setGroup_same _ _ _ read hf g
  | some d => exact (read_setGroup_same _ _ _ read hf g).trans (read_setGroup_same _ _ _ read hf g)

omit [Scalar K] in
@[simp] theorem leaveRoute_tickets : (r.leaveRoute t).tickets = r.tickets := by
  unfold leaveRoute
  cases t.decodeGroup <;> rfl

omit [Scalar K] in
theorem sameControl_leaveRoute : SameControl r (r.leaveRoute t) := by
  unfold leaveRoute
  cases t.decodeGroup <;> exact ⟨rfl, rfl, rfl, rfl, rfl, rfl, rfl⟩

omit [Scalar K] in
@[simp] theorem leaveRoute_settings : (r.leaveRoute t).settings = r.settings := by
  unfold leaveRoute
  cases t.decodeGroup <;> rfl

end Updates

/-! ### The operations -/

theorem moves_prefillDone {r : Router K n} {i : ℕ} {t : Ticket K n} (ht : r.tickets[i]? = some t)
    (hf : t.finished = false) (hs : t.stage = .prefill) :
    Moves r (r.prefillDone i) i t { t with stage := .transfer } := by
  have hop : r.prefillDone i = ((r.leaveStage t).setTicket i { t with stage := .transfer }).setGroup t.dgroup
      fun g => { g with inflightBytes := g.inflightBytes + r.kvBytes t } := by
    simp [prefillDone, ht, hf, hs]
  have hsound (h : t.Sound) : ({ t with stage := .transfer } : Ticket K n).Sound := {
    done := by simp [hf]
    first := by simpa [hs] using h.first
    other := h.other }
  rw [hop]
  exact {
    at_ := ht
    unfinished := hf
    same := ⟨rfl, rfl, rfl, rfl, rfl, rfl⟩
    onward := ⟨by simp, fun _ => hs⟩
    sound := hsound
    tickets := by simp
    settings := by simp
    control g := by
      rw [read_setGroup_same _ _ _ Group.control (fun _ => by rfl), setTicket_groups, leaveStage_control]
    counts _ g := by
      rw [read_setGroup_same _ _ _ Group.counts (fun _ => by rfl), setTicket_groups, leaveStage_counts, hs]
      simp only [Ticket.countsIn, Ticket.stageCounts]
      abel
    pending hcov g := by
      rw [read_setGroup_same _ _ _ Group.pendingMs (fun _ => by rfl), setTicket_groups, leaveStage_pending _ _ _ hcov]
      simp [Ticket.pendingIn]
    bytes _ g := by
      -- The prompt is not in flight yet, so nothing is taken from D before it is added.
      rw [read_setGroup _ _ _ Group.inflightBytes _ rfl, setTicket_groups, leaveStage_bytes _ _ _ (by simp [hs])]
      simp [Ticket.bytesIn, kvBytes]
    kept := (sameControl_leaveStage r t).trans ⟨rfl, rfl, rfl, rfl, rfl, rfl, rfl⟩ }

theorem moves_firstToken {r : Router K n} {i : ℕ} {t : Ticket K n} (ht : r.tickets[i]? = some t)
    (hf : t.finished = false) (hfirst : t.firstTokenAt = none) :
    Moves r (r.firstToken i) i t { t with firstTokenAt := some r.now, lastTokenAt := some r.now, stage := .decode } := by
  have hop : r.firstToken i = (((r.leaveAwait t).leaveStage t).setTicket i
      { t with firstTokenAt := some r.now, lastTokenAt := some r.now, stage := .decode }).setGroup t.dgroup
      fun g => { g with nDecoding := g.nDecoding + 1 } := by
    simp [firstToken, ht, hf, hfirst]
  have hawait : (r.leaveAwait t).settings = r.settings := rfl
  have hsound (h : t.Sound) :
      ({ t with firstTokenAt := some r.now, lastTokenAt := some r.now, stage := .decode } : Ticket K n).Sound := {
    done := by simp [hf]
    first := by simp
    other := h.other }
  have hcounts (h : t.Sound) (g : Fin n) : (((r.leaveAwait t).leaveStage t).groups g).counts + t.stageCounts g .decode =
      (r.groups g).counts - t.countsIn g t.stage + t.countsIn g .decode := by
    -- Without a first token the ticket is at P or on its way.
    have hstage : t.stage = .prefill ∨ t.stage = .transfer := by
      have hdone := h.done
      have hmark := h.first
      cases hs : t.stage <;> simp_all
    rw [leaveStage_counts, leaveAwait_counts]
    rcases hstage with hs | hs <;> simp only [hs, Ticket.countsIn] <;> abel
  have hp (g : Fin n) : ((r.leaveAwait t).groups g).pendingMs = (r.groups g).pendingMs :=
    read_setGroup_same _ _ _ Group.pendingMs (fun _ => by rfl) g
  have hb (g : Fin n) : ((r.leaveAwait t).groups g).inflightBytes = (r.groups g).inflightBytes :=
    read_setGroup_same _ _ _ Group.inflightBytes (fun _ => by rfl) g
  rw [hop]
  exact {
    at_ := ht
    unfinished := hf
    same := ⟨rfl, rfl, rfl, rfl, rfl, rfl⟩
    onward := ⟨by simp, by simp⟩
    sound := hsound
    tickets := by simp [leaveAwait]
    settings := by simp [leaveAwait]
    control g := by
      rw [read_setGroup_same _ _ _ Group.control (fun _ => by rfl), setTicket_groups, leaveStage_control]
      exact read_setGroup_same _ _ _ Group.control (fun _ => by rfl) g
    counts h g := by
      have hdecode : (if g = t.dgroup then (0, 0, 0, 1, 0) else 0 : Counts) = t.stageCounts g .decode := rfl
      rw [read_setGroup _ _ _ Group.counts (0, 0, 0, 1, 0) (by simp [Group.counts]), setTicket_groups, hdecode]
      exact hcounts h g
    pending hcov g := by
      rw [read_setGroup_same _ _ _ Group.pendingMs (fun _ => by rfl), setTicket_groups,
        leaveStage_pending _ _ _ (by rwa [hp]), hp]
      simp [Ticket.pendingIn]
    bytes hcov g := by
      rw [read_setGroup_same _ _ _ Group.inflightBytes (fun _ => by rfl), setTicket_groups,
        leaveStage_bytes _ _ _ (by rwa [hb]), hb, hawait]
      simp [Ticket.bytesIn]
    kept :=
      ((sameControl_setGroup r _ _).trans (sameControl_leaveStage (r.leaveAwait t) t)).trans
        ⟨rfl, rfl, rfl, rfl, rfl, rfl, rfl⟩ }

/-! ### Finish -/

theorem untouched_observeLatency (r : Router K n) (t : Ticket K n) (ttftMs tpotMs : Option K) :
    Untouched r (r.observeLatency t ttftMs tpotMs) := by
  have hratio (ms : K) : Untouched r (r.ttftRatio t ms).2 := by
    unfold ttftRatio
    dsimp only
    split_ifs <;> exact untouched_applyTable r
  have hset (s : Router K n) (p : Production K n) (h : p.live = s.production.live) :
      Untouched s { s with production := p } := ⟨rfl, rfl, rfl, rfl, rfl, rfl, rfl, rfl, rfl, rfl, rfl, rfl, h⟩
  unfold observeLatency
  split_ifs
  · exact .refl r
  · cases ttftMs with
    | none => exact hset r _ rfl
    | some ms => exact (hratio ms).trans (hset _ _ rfl)

theorem untouched_closeEvidence (r : Router K n) (t : Ticket K n) (ok : Bool) (ttftMs tpotMs : Option K) :
    Untouched r (r.closeEvidence t ok ttftMs tpotMs) := by
  unfold closeEvidence
  split_ifs
  · exact untouched_observeLatency r t _ _
  · exact ⟨rfl, rfl, rfl, rfl, rfl, rfl, rfl, rfl, rfl, rfl, rfl, rfl, rfl⟩

theorem moves_giveBack {r : Router K n} {i : ℕ} {t : Ticket K n} (ht : r.tickets[i]? = some t)
    (hf : t.finished = false) : Moves r (r.giveBack i t) i t { t with stage := .done, finished := true } := by
  -- `r'`: D no longer waits for the ticket
  generalize hr' : (if t.firstTokenAt.isNone then r.leaveAwait t else r) = r'
  have hop : r.giveBack i t =
      { ((r'.leaveStage t).leaveRoute t).setTicket i { t with stage := .done, finished := true } with
        production := { ((r'.leaveStage t).leaveRoute t).production with
          live := ((r'.leaveStage t).leaveRoute t).production.live.erase t.id } } := by
    rw [← hr']
    rfl
  have hsettings : r'.settings = r.settings := by rw [← hr']; split_ifs <;> rfl
  have htickets : r'.tickets = r.tickets := by rw [← hr']; split_ifs <;> rfl
  have hread {M : Type} (read : Group K → M) (h : ∀ (g : Group K) a b, read { g with nAwait := a, tAwait := b } = read g)
      (g : Fin n) : read (r'.groups g) = read (r.groups g) := by
    rw [← hr']
    split_ifs
    · exact read_setGroup_same _ _ _ read (fun x => h x _ _) g
    · rfl
  have hkept : SameControl r ((r'.leaveStage t).leaveRoute t) := by
    have hr : SameControl r r' := by
      rw [← hr']
      split_ifs <;> exact ⟨rfl, rfl, rfl, rfl, rfl, rfl, rfl⟩
    exact (hr.trans (sameControl_leaveStage r' t)).trans (sameControl_leaveRoute _ t)
  have hp := hread Group.pendingMs (fun _ _ _ => rfl)
  have hb := hread Group.inflightBytes (fun _ _ _ => rfl)
  have hsound (h : t.Sound) : ({ t with stage := .done, finished := true } : Ticket K n).Sound := {
    done := by simp
    first := by simp
    other := h.other }
  -- Whatever the stage, D's part of the counts is gone where it still waited for the ticket.
  have hawait (h : t.Sound) (g : Fin n) : (r'.groups g).counts =
      (r.groups g).counts - t.countsIn g t.stage + t.stageCounts g t.stage + t.routeCounts g := by
    have hdone := h.done
    have hfirst := h.first
    rw [← hr']
    cases hfta : t.firstTokenAt with
    | none =>
      simp only [Option.isNone_none, if_true, leaveAwait_counts]
      cases hs : t.stage <;> simp_all [Ticket.countsIn] <;> abel
    | some at_ =>
      simp only [Option.isNone_some, Bool.false_eq_true, if_false]
      cases hs : t.stage <;> simp_all [Ticket.countsIn]
      abel
  rw [hop]
  exact {
    at_ := ht
    unfinished := hf
    same := ⟨rfl, rfl, rfl, rfl, rfl, rfl⟩
    onward := ⟨by simp, by simp⟩
    sound := hsound
    tickets := by simp [htickets]
    settings := by simp [hsettings]
    control g := by
      dsimp only [setTicket_groups]
      rw [leaveRoute_same _ _ _ Group.control (fun _ => rfl), leaveStage_control, hread Group.control (fun _ _ _ => rfl)]
    counts h g := by
      dsimp only [setTicket_groups]
      rw [leaveRoute_counts _ _ _ h, leaveStage_counts, hawait h, Ticket.countsIn]
      abel
    pending hcov g := by
      dsimp only [setTicket_groups]
      rw [leaveRoute_same _ _ _ Group.pendingMs (fun _ => rfl), leaveStage_pending _ _ _ (by rwa [hp]), hp]
      simp [Ticket.pendingIn]
    bytes hcov g := by
      dsimp only [setTicket_groups]
      rw [leaveRoute_same _ _ _ Group.inflightBytes (fun _ => rfl),
        leaveStage_bytes _ _ _ (by rwa [hb, kvBytes, hsettings]), hb, hsettings]
      simp [Ticket.bytesIn]
    kept := hkept.trans ⟨rfl, rfl, rfl, rfl, rfl, rfl, rfl⟩ }

/-! ### Issue -/

/-- The price of a request at the P of a route: S(L) of the table in force. -/
def ownMs (r : Router K n) (route : Route n) (tokens : ℕ) : K :=
  (r.prefillCost ((r.groups route.p).effective.map (·.prefillMhz))).1.cost tokens

/-- A ticket in stage prefill joins, and its groups hold it. -/
structure Issued (r s : Router K n) (route : Route n) (tokens : ℕ) (t : Ticket K n) : Prop where
  tickets : s.tickets = r.tickets ++ [t]
  group : t.group = route.p
  dgroup : t.dgroup = route.d
  promptTokens : t.promptTokens = tokens
  sOwnMs : t.sOwnMs = r.ownMs route tokens
  stage : t.stage = .prefill
  sound : t.Sound
  settings : s.settings = r.settings
  control : ∀ g, (s.groups g).control = (r.groups g).control
  counts : ∀ g, (s.groups g).counts = (r.groups g).counts + t.countsIn g .prefill
  pending : ∀ g, (s.groups g).pendingMs = (r.groups g).pendingMs + t.pendingIn g .prefill
  bytes : ∀ g, (s.groups g).inflightBytes = (r.groups g).inflightBytes
  epochs : t.clockEpoch = r.clockEpochs route.p ∧ t.decodeEpoch = r.clockEpochs route.d
  kept : SameControl r s

omit [Scalar K] in
theorem joinRoute_read {M : Type} [AddCommMonoid M] (read : Group K → M) {flight : M}
    (hflight : ∀ g : Group K, read { g with nInflight := g.nInflight + 1 } = read g + flight) (r : Router K n)
    (route : Route n) (g : Fin n) : read ((r.joinRoute route).groups g) =
      read (r.groups g) + if g = route.p ∨ g = route.d then flight else 0 := by
  unfold joinRoute
  dsimp only
  by_cases hpd : route.d = route.p
  · rw [if_pos hpd, read_setGroup _ _ _ read _ (hflight _)]
    simp only [hpd, or_self]
  · rw [if_neg hpd, read_setGroup _ _ _ read _ (hflight _), read_setGroup _ _ _ read _ (hflight _)]
    rcases Classical.propComplete (g = route.p) with hp | hp <;>
      rcases Classical.propComplete (g = route.d) with hd | hd
    · exact absurd ((of_eq_true hd).symm.trans (of_eq_true hp)) hpd
    all_goals simp [hp, hd]

/-- A reading of the groups grows by what it reads of P's, of D's and of the route's counters. -/
theorem reserve_read {M : Type} [AddCommMonoid M] (read : Group K → M) (atP await flight : M) (r : Router K n)
    (route : Route n) (sOwn : K) (tokens : ℕ)
    (hatP : ∀ g : Group K, read { g with nAtP := g.nAtP + 1, pendingMs := g.pendingMs + sOwn } = read g + atP)
    (hawait : ∀ g : Group K, read { g with nAwait := g.nAwait + 1, tAwait := g.tAwait + tokens } = read g + await)
    (hflight : ∀ g : Group K, read { g with nInflight := g.nInflight + 1 } = read g + flight)
    (hadm : ∀ (g : Group K) now tokens windowS, read (g.recordAdmission now tokens windowS) = read g) (g : Fin n) :
    read ((r.reserve route sOwn tokens).groups g) = read (r.groups g) +
      (if g = route.p then atP else 0) + (if g = route.d then await else 0) +
        (if g = route.p ∨ g = route.d then flight else 0) := by
  unfold reserve
  dsimp only
  rw [read_setGroup_same _ _ _ read (fun x => hadm x _ _ _), joinRoute_read read hflight,
    read_setGroup _ _ _ read _ (hawait _), read_setGroup _ _ _ read _ (hatP _)]

theorem reserve_same {M : Type} (read : Group K → M) (r : Router K n) (route : Route n) (sOwn : K) (tokens : ℕ)
    (hcount : ∀ (g : Group K) a b c d e,
      read { g with nAtP := a, pendingMs := b, nAwait := c, tAwait := d, nInflight := e } = read g)
    (hadm : ∀ (g : Group K) now tokens windowS, read (g.recordAdmission now tokens windowS) = read g) (g : Fin n) :
    read ((r.reserve route sOwn tokens).groups g) = read (r.groups g) := by
  have hjoin (r : Router K n) : read ((r.joinRoute route).groups g) = read (r.groups g) := by
    unfold joinRoute
    dsimp only
    split_ifs
    · exact read_setGroup_same _ _ _ read (fun x => hcount x _ _ _ _ _) g
    · exact (read_setGroup_same _ _ _ read (fun x => hcount x _ _ _ _ _) g).trans
        (read_setGroup_same _ _ _ read (fun x => hcount x _ _ _ _ _) g)
  unfold reserve
  dsimp only
  rw [read_setGroup_same _ _ _ read (fun x => hadm x _ _ _), hjoin,
    read_setGroup_same _ _ _ read (fun x => hcount x _ _ _ _ _),
    read_setGroup_same _ _ _ read (fun x => hcount x _ _ _ _ _)]

omit [Scalar K] in
theorem sameControl_joinRoute (r : Router K n) (route : Route n) : SameControl r (r.joinRoute route) := by
  unfold joinRoute
  dsimp only
  split_ifs <;> exact ⟨rfl, rfl, rfl, rfl, rfl, rfl, rfl⟩

theorem sameControl_reserve (r : Router K n) (route : Route n) (sOwn : K) (tokens : ℕ) :
    SameControl r (r.reserve route sOwn tokens) := by
  unfold reserve
  dsimp only
  exact (((sameControl_setGroup r _ _).trans (sameControl_setGroup _ _ _)).trans (sameControl_joinRoute _ route)).trans
    (sameControl_setGroup _ _ _)

theorem issued_issue (r : Router K n) (c : Candidate K n) (tokens : ℕ) (exact : Bool) (waitedMs : K)
    (kind : Option Overflow) :
    Issued r (r.issue c tokens exact waitedMs kind).2 c.route tokens (r.issue c tokens exact waitedMs kind).1 := by
  generalize hr' : { r.applyTable with overflows := countOverflow r.applyTable.overflows kind } = r'
  have hu : Untouched r r' := by
    rw [← hr']
    exact (untouched_applyTable r).trans ⟨rfl, rfl, rfl, rfl, rfl, rfl, rfl, rfl, rfl, rfl, rfl, rfl, rfl⟩
  generalize ht : (r.issue c tokens exact waitedMs kind).1 = t
  -- The issue is the reservation on the applied table, with the ticket appended.
  have hparts : (r.issue c tokens exact waitedMs kind).2.groups =
      (r'.reserve c.route (r.ownMs c.route tokens) tokens).groups ∧
      (r.issue c tokens exact waitedMs kind).2.tickets =
        (r'.reserve c.route (r.ownMs c.route tokens) tokens).tickets ++ [t] ∧
      (r.issue c tokens exact waitedMs kind).2.settings = (r'.reserve c.route (r.ownMs c.route tokens) tokens).settings ∧
      SameControl r (r.issue c tokens exact waitedMs kind).2 := by
    have hreserve := hu.sameControl.trans (sameControl_reserve r' c.route (r.ownMs c.route tokens) tokens)
    rw [← hr'] at hreserve
    have hkept : SameControl r (r.issue c tokens exact waitedMs kind).2 :=
      hreserve.trans ⟨rfl, rfl, rfl, rfl, rfl, rfl, rfl⟩
    rw [← hr', ← ht]
    exact ⟨rfl, rfl, rfl, hkept⟩
  obtain ⟨hgroups, htickets, hsettings, hkept⟩ := hparts
  have hticket : t.group = c.route.p ∧ t.decodeGroup = (if c.route.d = c.route.p then none else some c.route.d) ∧
      t.promptTokens = tokens ∧ t.sOwnMs = r.ownMs c.route tokens ∧ t.stage = .prefill ∧ t.finished = false ∧
      t.firstTokenAt = none ∧ t.clockEpoch = r.applyTable.clockEpochs c.route.p ∧
      t.decodeEpoch = r.applyTable.clockEpochs c.route.d := by
    rw [← ht]
    exact ⟨rfl, rfl, rfl, rfl, rfl, rfl, rfl, rfl, rfl⟩
  obtain ⟨hgroup, hdec, htokens, hown, hstage, hfin, hfirst, hepoch, hdepoch⟩ := hticket
  have hd : t.dgroup = c.route.d := by
    rw [Ticket.dgroup, hdec, hgroup]
    split_ifs with h
    · exact h.symm
    · rfl
  have hother : t.decodeGroup ≠ some t.group := by
    rw [hdec, hgroup]
    split_ifs with h <;> simp [h]
  exact {
    tickets := by rw [htickets, reserve_tickets, hu.tickets]
    group := hgroup
    dgroup := hd
    promptTokens := htokens
    sOwnMs := hown
    stage := hstage
    sound := ⟨by simp [hfin, hstage], by simp [hfirst, hstage], hother⟩
    settings := by rw [hsettings, reserve_settings, hu.settings]
    control g := by
      rw [hgroups, reserve_same Group.control _ _ _ _ (fun _ _ _ _ _ _ => rfl) (fun _ _ _ _ => rfl), hu.groups]
    counts g := by
      rw [hgroups, reserve_read Group.counts (1, 0, 0, 0, 0) (0, 1, (tokens : ℤ), 0, 0)
        (0, 0, 0, 0, 1) _ _ _ _ (fun _ => by simp [Group.counts]) (fun _ => by simp [Group.counts])
        (fun _ => by simp [Group.counts]) (fun _ _ _ _ => rfl), hu.groups]
      simp only [Ticket.countsIn, Ticket.awaitCounts, Ticket.stageCounts, Ticket.routeCounts, hgroup, hd, htokens]
      abel
    pending g := by
      rw [hgroups, reserve_read Group.pendingMs (r.ownMs c.route tokens) 0 0 _ _ _ _
        (fun _ => rfl) (fun _ => by simp) (fun _ => by simp) (fun _ _ _ _ => rfl), hu.groups]
      simp [Ticket.pendingIn, hgroup, hown]
    bytes g := by
      rw [hgroups, reserve_read Group.inflightBytes 0 0 0 _ _ _ _ (fun _ => by simp)
        (fun _ => by simp) (fun _ => by simp) (fun _ _ _ _ => rfl), hu.groups]
      simp
    epochs := by
      rw [hepoch, hdepoch, (untouched_applyTable r).clockEpochs]
      exact ⟨rfl, rfl⟩
    kept := hkept }

/-- The books decide nothing about a ticket. -/
theorem Issued.congr {r r' s s' : Router K n} {route : Route n} {tokens : ℕ} {t : Ticket K n}
    (h : Issued r s route tokens t) (hr : Untouched { r' with books := r.books } r)
    (hown : r.ownMs route tokens = r'.ownMs route tokens)
    (ht : s'.tickets = s.tickets) (hs : s'.settings = s.settings) (hg : s'.groups = s.groups) (hk : SameControl s s') :
    Issued r' s' route tokens t where
  tickets := by rw [ht, h.tickets, hr.tickets]
  group := h.group
  dgroup := h.dgroup
  promptTokens := h.promptTokens
  sOwnMs := h.sOwnMs.trans hown
  stage := h.stage
  sound := h.sound
  settings := by rw [hs, h.settings, hr.settings]
  control g := by rw [hg, h.control, hr.groups]
  counts g := by rw [hg, h.counts, hr.groups]
  pending g := by rw [hg, h.pending, hr.groups]
  bytes g := by rw [hg, h.bytes, hr.groups]
  epochs := by rw [h.epochs.1, h.epochs.2, hr.clockEpochs]; exact ⟨rfl, rfl⟩
  kept :=
    have hbooks : SameControl r' { r' with books := r.books } := ⟨rfl, rfl, rfl, rfl, rfl, rfl, rfl⟩
    ((hbooks.trans hr.sameControl).trans h.kept).trans hk

/-! ### The ledgers along a run -/

section Issued
variable {r s : Router K n} {route : Route n} {tokens : ℕ} {t : Ticket K n} (h : Issued r s route tokens t)
include h

theorem Counted.issued (hc : r.Counted) : s.Counted := by
  refine ⟨fun x hx => ?_, ?_⟩
  · rw [h.tickets] at hx
    rcases List.mem_append.mp hx with hx | hx
    · exact hc.sound x hx
    · exact List.mem_singleton.mp hx ▸ h.sound
  · rw [h.tickets]
    exact hc.counts.append fun g => by rw [h.counts, h.sound.counts, h.stage]

theorem Pending.issued (hp : r.Pending) (hown : 0 ≤ r.ownMs route tokens) : s.Pending := by
  refine ⟨fun x hx => ?_, ?_⟩
  · rw [h.tickets] at hx
    rcases List.mem_append.mp hx with hx | hx
    · exact hp.own x hx
    · rw [List.mem_singleton.mp hx, h.sOwnMs]
      exact hown
  · rw [h.tickets]
    exact hp.pending.append fun g => by rw [h.pending, h.sound.pending, h.stage]

theorem Flying.issued (hf : r.Flying) : s.Flying := by
  refine ⟨h.settings ▸ hf.perToken, ?_⟩
  rw [h.tickets, h.settings]
  exact hf.bytes.append fun g => by rw [h.bytes, Ticket.bytes_eq, h.stage, Ticket.bytesIn, add_zero]

end Issued

/-- The tickets, the counters and the settings of `s` are those of `r`. -/
structure SameCounters (r s : Router K n) : Prop where
  tickets : s.tickets = r.tickets
  settings : s.settings = r.settings
  counts : ∀ g, (s.groups g).counts = (r.groups g).counts
  pending : ∀ g, (s.groups g).pendingMs = (r.groups g).pendingMs
  bytes : ∀ g, (s.groups g).inflightBytes = (r.groups g).inflightBytes

/-- What an operation on one ticket does: nothing, or a move. -/
def Operated (r s : Router K n) (i : ℕ) : Prop := s = r ∨ ∃ t u, Moves r s i t u

theorem operated_prefillDone (r : Router K n) (i : ℕ) : Operated r (r.prefillDone i) i := by
  cases ht : r.tickets[i]? with
  | none => exact .inl (by simp [prefillDone, ht])
  | some t =>
    by_cases h : t.finished ∨ t.stage ≠ .prefill
    · exact .inl (by simp only [prefillDone, ht, if_pos h])
    · simp only [not_or, Bool.not_eq_true, not_not] at h
      exact .inr ⟨t, _, moves_prefillDone ht h.1 h.2⟩

theorem operated_firstToken (r : Router K n) (i : ℕ) : Operated r (r.firstToken i) i := by
  cases ht : r.tickets[i]? with
  | none => exact .inl (by simp [firstToken, ht])
  | some t =>
    by_cases h : t.firstTokenAt.isSome ∨ t.finished
    · exact .inl (by simp only [firstToken, ht, if_pos h])
    · simp only [not_or, Bool.not_eq_true, Option.isSome_eq_false_iff, Option.isNone_iff_eq_none] at h
      exact .inr ⟨t, _, moves_firstToken ht h.2 h.1⟩

theorem Moves.congr {r s s' : Router K n} {i : ℕ} {t u : Ticket K n} (h : Moves r s i t u) (ht : s'.tickets = s.tickets)
    (hs : s'.settings = s.settings) (hg : s'.groups = s.groups) (hk : SameControl s s') : Moves r s' i t u where
  at_ := h.at_
  unfinished := h.unfinished
  same := h.same
  onward := h.onward
  sound := h.sound
  tickets := ht.trans h.tickets
  settings := hs.trans h.settings
  control := hg ▸ h.control
  counts := hg ▸ h.counts
  pending := hg ▸ h.pending
  bytes := hg ▸ h.bytes
  kept := h.kept.trans hk

theorem moves_finish {r : Router K n} {i : ℕ} {t : Ticket K n} (ht : r.tickets[i]? = some t) (hf : t.finished = false)
    (ok : Bool) (ttftMs tpotMs : Option K) (outputTokens : ℕ) :
    Moves r (r.finish i ok ttftMs tpotMs outputTokens) i t { t with stage := .done, finished := true } := by
  have hu := untouched_closeEvidence (r.giveBack i t) t ok ttftMs tpotMs
  have hm := (moves_giveBack ht hf).congr hu.tickets hu.settings hu.groups hu.sameControl
  unfold finish
  simp only [ht, hf, Bool.false_eq_true, if_false]
  split <;> exact hm.congr rfl rfl rfl ⟨rfl, rfl, rfl, rfl, rfl, rfl, rfl⟩

theorem operated_finish (r : Router K n) (i : ℕ) (ok : Bool) (ttftMs tpotMs : Option K) (outputTokens : ℕ) :
    Operated r (r.finish i ok ttftMs tpotMs outputTokens) i := by
  cases ht : r.tickets[i]? with
  | none => exact .inl (by simp [finish, ht])
  | some t =>
    cases hf : t.finished with
    | true => exact .inl (by simp [finish, ht, hf])
    | false => exact .inr ⟨t, _, moves_finish ht hf ok ttftMs tpotMs outputTokens⟩

end Router
end CanaTune
