import CanaTune.Theorems.Runs
import CanaTune.Theorems.Accounting

/-! A parked group holds no request. A ticket is issued between routable groups only, and a group parks, or goes
    to the park point, only while no request is in flight on it. -/

namespace CanaTune
variable {K : Type} [Scalar K] {n : ℕ}

/-- No request holds anything of the group. -/
structure Group.Unused (g : Group K) : Prop where
  nInflight : g.nInflight = 0
  nAtP : g.nAtP = 0
  nAwait : g.nAwait = 0
  tAwait : g.tAwait = 0
  nDecoding : g.nDecoding = 0
  inflightBytes : g.inflightBytes = 0

namespace Router

/-- A group without a request in flight is held by none of them in any stage. -/
theorem unused_of_nInflight {r : Router K n} (hc : r.Counted) (hf : r.Flying) {g : Fin n} (h : (r.groups g).nInflight = 0) :
    (r.groups g).Unused := by
  have hnone : ∀ t ∈ r.tickets, t.uses g = false := by
    have hcount := (hc.nInflight g).symm.trans h
    simpa [List.countP_eq_zero] using hcount
  have hshare (t) (ht : t ∈ r.tickets) : t.stage = .done ∨ g ≠ t.group ∧ g ≠ t.dgroup := by
    have huses := hnone t ht
    rw [Ticket.uses, Bool.and_eq_false_iff, Bool.not_eq_false', Bool.or_eq_false_iff] at huses
    exact huses.imp (hc.sound t ht).done.mp fun h => by simpa using h
  have hcounts : (r.groups g).counts = 0 := (hc.counts g).trans (Ledger.held_eq_zero fun t ht => by
    rw [(hc.sound t ht).counts]
    rcases hshare t ht with hdone | ⟨hp, hd⟩
    · rw [hdone, Ticket.countsIn]
    · cases t.stage <;> simp [Ticket.countsIn, Ticket.awaitCounts, Ticket.stageCounts, Ticket.routeCounts, hp, hd])
  have hbytes : (r.groups g).inflightBytes = 0 := (hf.bytes g).trans (Ledger.held_eq_zero fun t ht => by
    rw [Ticket.bytes_eq]
    rcases hshare t ht with hdone | ⟨hp, hd⟩
    · rw [hdone, Ticket.bytesIn]
    · cases t.stage <;> simp [Ticket.bytesIn, hd])
  simp only [Group.counts, Prod.mk_eq_zero] at hcounts
  obtain ⟨hatP, hawait, htokens, hdecoding, hflight⟩ := hcounts
  exact ⟨hflight, hatP, hawait, htokens, hdecoding, hbytes⟩

/-! ### What the Router does to a group at rest -/

/-- The state or the clocks of a group keep requests away. -/
def AtRest (g : Group K) : Prop := g.state = .park ∨ g.tier = .park

/-- The accounts are in order, and a group at rest has no request in flight and no clocks to serve one. -/
structure Resting (r : Router K n) : Prop where
  counted : r.Counted
  flying : r.Flying
  idle : ∀ g, AtRest (r.groups g) → (r.groups g).nInflight = 0
  unclocked : ∀ g, (r.groups g).tier = .park → (r.groups g).effective = none

theorem Resting.same {r s : Router K n} (h : r.Resting) (hgroups : s.groups = r.groups) (htickets : s.tickets = r.tickets)
    (hsettings : s.settings = r.settings) : s.Resting := by
  refine ⟨⟨?_, ?_⟩, ⟨?_, ?_⟩, ?_, ?_⟩
  · rw [htickets]
    exact h.counted.sound
  · rw [htickets, hgroups]
    exact h.counted.counts
  · rw [hsettings]
    exact h.flying.perToken
  · rw [htickets, hgroups, hsettings]
    exact h.flying.bytes
  · rw [hgroups]
    exact h.idle
  · rw [hgroups]
    exact h.unclocked

theorem Resting.not_routable {r : Router K n} (h : r.Resting) {g : Fin n} (hrest : AtRest (r.groups g)) :
    (r.groups g).routable = false := by
  rcases hrest with hpark | htier
  · simp [Group.routable, hpark]
  · simp [Group.routable, h.unclocked g htier]

omit [Scalar K] in
theorem atRest_congr {a b : Group K} (h : a.control = b.control) : AtRest a ↔ AtRest b := by
  simp only [Group.control, Prod.mk.injEq] at h
  rw [AtRest, h.2.1, h.2.2.1, AtRest]

/-- The ticket that moves does not use a group without a request in flight, so it does not after. -/
theorem Counted.nInflight_moves {r s : Router K n} {i : ℕ} {t u : Ticket K n} (h : r.Counted)
    (hm : Moves r s i t u) {g : Fin n} (h0 : (r.groups g).nInflight = 0) : (s.groups g).nInflight = 0 := by
  have hcount : r.tickets.countP (·.uses g) = 0 := by exact_mod_cast (h.nInflight g).symm.trans h0
  have hnone : t.uses g = false := by simpa using List.countP_eq_zero.mp hcount t hm.mem
  have huses : ∀ x ∈ s.tickets, x.uses g = false := fun x hx => by
    rcases hm.of_mem hx with hx | rfl
    · simpa using List.countP_eq_zero.mp hcount x hx
    · rw [Ticket.uses, hm.unfinished] at hnone
      rw [Ticket.uses, hm.same.group, hm.same.dgroup]
      simp only [Bool.not_false, Bool.true_and] at hnone
      rw [hnone, Bool.and_false]
  rw [(h.moves hm).nInflight g]
  exact_mod_cast List.countP_eq_zero.mpr fun x hx => by rw [huses x hx]; exact Bool.false_ne_true

theorem Counted.nInflight_operated {r s : Router K n} {i : ℕ} (h : r.Counted) (ho : Operated r s i) {g : Fin n}
    (h0 : (r.groups g).nInflight = 0) : (s.groups g).nInflight = 0 := by
  rcases ho with rfl | ⟨t, u, hm⟩
  · exact h0
  · exact h.nInflight_moves hm h0

/-- A ticket never joins a group that is not routable. -/
theorem Issued.nInflight {r s : Router K n} {route : Route n} {tokens : ℕ} {t : Ticket K n} (hi : Issued r s route tokens t)
    (hp : (r.groups route.p).routable = true) (hd : (r.groups route.d).routable = true) {g : Fin n}
    (hno : (r.groups g).routable = false) : (s.groups g).nInflight = (r.groups g).nInflight := by
  have hgp : g ≠ t.group := by
    rintro rfl
    rw [hi.group, hp] at hno
    exact absurd hno (by decide)
  have hgd : g ≠ t.dgroup := by
    rintro rfl
    rw [hi.dgroup, hd] at hno
    exact absurd hno (by decide)
  have hcounts := hi.counts g
  simp only [Ticket.countsIn, Ticket.awaitCounts, Ticket.stageCounts, Ticket.routeCounts, hgp, hgd,
    or_self, if_false, add_zero] at hcounts
  simp only [Group.counts, Prod.mk.injEq] at hcounts
  exact hcounts.2.2.2.2

theorem Resting.operated {r s : Router K n} {i : ℕ} (h : r.Resting) (ho : Operated r s i) : s.Resting := by
  rcases ho with rfl | ⟨t, u, hm⟩
  · exact h
  refine ⟨h.counted.moves hm, h.flying.moves hm, fun g hrest => ?_, fun g htier => ?_⟩
  · rw [atRest_congr (hm.control g)] at hrest
    exact h.counted.nInflight_moves hm (h.idle g hrest)
  · have hcontrol := hm.control g
    simp only [Group.control, Prod.mk.injEq] at hcontrol
    rw [hcontrol.2.2.2]
    exact h.unclocked g (hcontrol.2.2.1 ▸ htier)

theorem Resting.issued {r s : Router K n} {route : Route n} {tokens : ℕ} {t : Ticket K n} (h : r.Resting)
    (hi : Issued r s route tokens t) (hp : (r.groups route.p).routable = true) (hd : (r.groups route.d).routable = true) :
    s.Resting := by
  refine ⟨h.counted.issued hi, h.flying.issued hi, fun g hrest => ?_, fun g htier => ?_⟩
  · rw [atRest_congr (hi.control g)] at hrest
    exact (hi.nInflight hp hd (h.not_routable hrest)).trans (h.idle g hrest)
  · have hcontrol := hi.control g
    simp only [Group.control, Prod.mk.injEq] at hcontrol
    rw [hcontrol.2.2.2]
    exact h.unclocked g (hcontrol.2.2.1 ▸ htier)

/-- A token is seen: the ticket holds what it held. -/
theorem Resting.tokenProgress {r : Router K n} (h : r.Resting) (i : ℕ) (tpotMs : Option K) :
    (r.tokenProgress i tpotMs).Resting := by
  unfold Router.tokenProgress
  split
  · exact h
  case h_2 t ht =>
    -- Only the time of the last token is written to the ticket.
    have hset : (r.setTicket i { t with lastTokenAt := some r.now }).Resting := by
      have hmem := List.mem_of_getElem? ht
      have hsound := h.counted.sound t hmem
      refine ⟨⟨fun x hx => ?_, ?_⟩, ⟨h.flying.perToken, ?_⟩, h.idle, h.unclocked⟩
      · rcases List.mem_or_eq_of_mem_set hx with hx | rfl
        · exact h.counted.sound x hx
        · exact ⟨hsound.done, hsound.first, hsound.other⟩
      · refine h.counted.counts.replace ht fun g => ?_
        show (r.groups g).counts = (r.groups g).counts - t.counts g + t.counts g
        abel
      · refine h.flying.bytes.replace ht fun g => ?_
        show (r.groups g).inflightBytes =
          (r.groups g).inflightBytes - t.bytes r.settings.kvBytesPerToken g + t.bytes r.settings.kvBytesPerToken g
        abel
    have hobserve (s : Router K n) (hs : s.Resting) (t : Ticket K n) (a b : Option K) :
        (s.observeLatency t a b).Resting := by
      have hu := untouched_observeLatency s t a b
      exact hs.same hu.groups hu.tickets hu.settings
    dsimp only
    split
    · exact hobserve _ hset _ _ _
    · refine hobserve _ ?_ _ _ _
      split
      · exact hset
      · exact hset.same rfl rfl rfl

/-- Whatever a request, its proxy or the telemetry does. -/
theorem Resting.acts {r s : Router K n} {e : Outside K n} (h : r.Resting) (ha : routerActs r e = some s) : s.Resting := by
  cases acted ha with
  | clock => exact h.same rfl rfl rfl
  | apart control groups tickets => exact h.same groups tickets control.settings
  | issued hi hp hd => exact h.issued hi hp hd
  | operated ho => exact h.operated ho
  | progress i tpotMs => exact h.tokenProgress i tpotMs

end Router

/-! ### What the Controller and the scheduler do -/

namespace System

/-- A group's state or clocks change: it comes to rest only without a request in flight. -/
theorem resting_setGroup {s : System K n} (h : s.router.Resting) {g : Fin n} {f : Group K → Group K}
    (hcounts : ∀ x, (f x).counts = x.counts) (hbytes : ∀ x, (f x).inflightBytes = x.inflightBytes)
    (hidle : Router.AtRest (f (s.group g)) → (s.group g).nInflight = 0)
    (hclocks : (f (s.group g)).tier = .park → (f (s.group g)).effective = none) : (s.setGroup g f).router.Resting := by
  have hc := Router.read_setGroup_same s.router g f Group.counts hcounts
  have hb := Router.read_setGroup_same s.router g f Group.inflightBytes hbytes
  have hflight (i : Fin n) : ((s.router.setGroup g f).groups i).nInflight = (s.router.groups i).nInflight :=
    congrArg (fun c : Counts => c.2.2.2.2) (hc i)
  refine ⟨⟨h.counted.sound, ?_⟩, ⟨h.flying.perToken, ?_⟩, fun i hrest => ?_, fun i htier => ?_⟩
  · exact fun i => (hc i).trans (h.counted.counts i)
  · exact fun i => (hb i).trans (h.flying.bytes i)
  · refine (hflight i).trans ?_
    by_cases hi : i = g
    · subst hi
      refine hidle ?_
      rwa [System.setGroup, Router.setGroup_groups, if_pos rfl] at hrest
    · refine h.idle i ?_
      rwa [System.setGroup, Router.setGroup_groups, if_neg hi] at hrest
  · by_cases hi : i = g
    · subst hi
      rw [System.setGroup, Router.setGroup_groups, if_pos rfl] at htier ⊢
      exact hclocks htier
    · rw [System.setGroup, Router.setGroup_groups, if_neg hi] at htier ⊢
      exact h.unclocked i htier

theorem resting_setState {s : System K n} (h : s.router.Resting) (g : Fin n) {state : GroupState}
    (hidle : state = .park → (s.group g).nInflight = 0) : (s.setState g state).router.Resting :=
  resting_setGroup h (fun _ => rfl) (fun _ => rfl)
    (fun hrest => hrest.elim hidle fun htier => h.idle g (.inr htier)) (h.unclocked g)

theorem resting_beginTier {s : System K n} (h : s.router.Resting) {g : Fin n} {tier : Tier} (target : ClockPoint)
    (hidle : tier = .park → (s.group g).tier = .park ∨ (s.group g).nInflight = 0) :
    (s.beginTier g tier target).2.router.Resting := by
  have hbump : (s.bumpEpoch g).router.Resting := h.same rfl rfl rfl
  show ((s.bumpEpoch g).setGroup g fun x => { x with
    tier, effective := if tier = .park then none else (s.group g).effective.map fun o => slower o target }).router.Resting
  refine resting_setGroup hbump (fun _ => rfl) (fun _ => rfl) (fun hrest => ?_) fun htier => if_pos htier
  rcases hrest with hpark | htier
  · exact h.idle g (.inl hpark)
  · exact (hidle htier).elim (fun htier => h.idle g (.inr htier)) id

theorem resting_settleTier {s : System K n} (h : s.router.Resting) (g : Fin n) (tier : Tier) (call : Call) (ok : Bool) :
    (s.settleTier g tier call ok).router.Resting := by
  -- The clocks of a group at the park point stay unknown.
  have hclocks (u : System K n) (hu : u.router.Resting) (hne : tier ≠ .park ∧ (u.group g).tier = tier)
      (point : ClockPoint) :
      (u.setGroup g fun x => { x with effective := some point }).router.Resting :=
    resting_setGroup hu (fun _ => rfl) (fun _ => rfl) (fun hrest => hu.idle g hrest)
      fun htier => absurd (hne.2.symm.trans htier) hne.1
  have hretry (u : System K n) (hu : u.router.Resting) (retry : Option (K × K)) : (u.setRetry g retry).router.Resting :=
    hu.same rfl rfl rfl
  unfold settleTier
  generalize hv : (if (s.group g).tier = tier then s.setRetry g _ else s) = v
  have hrest : v.router.Resting := by
    rw [← hv]
    split
    · exact hretry s h _
    · exact h
  dsimp only
  refine Router.Resting.same (r := (ite _ _ _ : System K n).router) ?_ rfl rfl rfl
  split
  case isTrue hne =>
    split
    · exact hclocks v hrest hne _
    · split
      · exact hclocks v hrest hne _
      · exact hrest
  case isFalse => exact hrest

theorem resting_act {s s' : System K n} (h : s.router.Resting) (ha : Act s s') : s'.router.Resting := by
  cases ha with
  | apart same => exact h.same same.groups same.tickets same.settings
  | activate g => exact resting_setState h g (by simp)
  | drain g => exact resting_setState h g (by simp)
  | take g state serving =>
    exact resting_setState (s := s.tell _) h g fun hp => by
      subst hp
      rcases serving with hs | hs <;> cases hs
  | release g =>
    exact resting_setGroup h (fun _ => rfl) (fun _ => rfl)
      (fun hrest => hrest.elim (fun hpark => absurd hpark (by simp)) fun htier => h.idle g (.inr htier)) fun _ => rfl
  | park g draining idle => exact resting_setState h g fun _ => idle
  | clock change =>
    cases change with
    | beginTier g tier target idle => exact resting_beginTier h target idle
    | settleTier g tier call ok => exact resting_settleTier h g tier call ok
  | note | pend | noteDrain | setRetry | lockControl => exact h.same rfl rfl rfl

end System

/-! ### Every run -/

theorem resting_invariant : Invariant fun _ (s : System K n) => s.router.Resting where
  act h ha := System.resting_act h ha
  move h ha _ := h.same ha.groups ha.tickets ha.settings
  steady h := h
  experiment {_ _ g _ _} h _ _ _ := (System.resting_setState h g (by simp)).same rfl rfl rfl
  start {_ _ g _} h _ hstate := System.resting_setState h g fun hp => by
    subst hp
    rcases hstate with hs | hs <;> cases hs
  serve {_ _ g} h _ := System.resting_setState h g (by simp)
  router h hr := h.acts hr
  pairs _ h := h

theorem resting_built {s : System K n} (h : Built s) (hkv : 0 ≤ s.router.settings.kvBytesPerToken) : s.router.Resting := by
  have hgroup (g : Fin n) : s.router.groups g = { Group.fresh (decide (g.val = 0)) with state := .park, tier := .park } :=
    h.groups g
  refine ⟨⟨by simp [h.tickets], ?_⟩, ⟨hkv, ?_⟩, fun g _ => ?_, fun g _ => ?_⟩
  · rw [h.tickets]
    exact .nil fun g => by rw [hgroup]; rfl
  · rw [h.tickets]
    exact .nil fun g => by rw [hgroup]; rfl
  · rw [hgroup]
    rfl
  · rw [hgroup]
    rfl

/-- In every run of the runtime a group that is parked, or has been sent to the park point, holds no request. -/
theorem unused_of_park {s : System K n} (hbuilt : Built s) (hkv : 0 ≤ s.router.settings.kvBytesPerToken) {ticks steps : ℕ}
    {p : Pool (Label n) (System K n) (Op n) (Op.Ans K) Exn} (hrun : runtime.Run (boot s (.runtime ticks steps)) p)
    (g : Fin n) :
    ((p.world.state.group g).state = .park → (p.world.state.group g).Unused) ∧
    ((p.world.state.group g).tier = .park → (p.world.state.group g).Unused) := by
  have h : p.world.state.router.Resting := resting_invariant.run hbuilt (resting_built hbuilt hkv) hrun
  have hunused (hrest : Router.AtRest (p.world.state.group g)) :=
    Router.unused_of_nInflight h.counted h.flying (h.idle g hrest)
  exact ⟨fun hpark => hunused (.inl hpark), fun htier => hunused (.inr htier)⟩

section Small

/-- The pairs as they are built, all parked; the first is the Canary. -/
def smallBuilt (n : ℕ) : System ℚ n :=
  smallSystem { smallCold n with
    groups := fun g => { Group.fresh (decide (g.val = 0)) with state := .park, tier := .park } }

theorem built_smallBuilt (n : ℕ) : Built (smallBuilt n) :=
  ⟨fun _ => rfl, rfl, rfl, rfl, rfl, rfl, rfl⟩

/-- The same pairs with a stored table. -/
def storedBuilt : System ℚ 2 :=
  { smallBuilt 2 with router := { (smallBuilt 2).router with tiers := (smallServing 2).tiers } }

theorem built_storedBuilt : Built storedBuilt :=
  ⟨fun _ => rfl, rfl, rfl, rfl, rfl, rfl, rfl⟩

/-- A long prompt closes the gate of the production pair, so the next request is the Canary's, and a verification claims
    the Canary; a tick finds it draining. -/
def untilDraining : List (Choice (Op 2) (Op.Ans ℚ) Exn (Outside ℚ 2)) :=
  [.begin 0, .outside (.prefillGpu 1 true true), .outside (.decodeGpu 1 true true), .resume 0 obliging,
    .outside (.prefillGpu 0 true true), .outside (.decodeGpu 0 true true), .resume 0 obliging,
    .outside .newWaiter, .outside (.attempt 0 4096 true 0), .outside (.prefillDone 0),
    .outside .newWaiter, .outside (.attempt 1 512 true 0), .outside (.request .verify), .begin 1, .resume 1 obliging]

/-- The Canary's request ends, and the next tick parks the Canary. -/
def untilParked : List (Choice (Op 2) (Op.Ans ℚ) Exn (Outside ℚ 2)) :=
  [.outside (.prefillDone 1), .outside (.firstToken 1), .outside (.finish 1 true (some 500) (some 20) 8),
    .outside (.clock 1), .resume 1 obliging]

/-- The Canary serves, drains with its request in flight, and parks when the request is over. -/
theorem unused_of_park_drained : ∃ p q, runtime.Run (boot storedBuilt (.runtime 2 0)) p ∧ runtime.Run p q ∧
    (p.world.state.group 0).state = .draining ∧ (p.world.state.group 0).nInflight = 1 ∧
    (q.world.state.group 0).state = .park ∧ (q.world.state.group 0).Unused := by
  have hexec : ((runtime.exec (boot storedBuilt (.runtime 2 0)) untilDraining).any fun p =>
      (runtime.exec p untilParked).any fun q =>
        decide ((p.world.state.group 0).state = .draining ∧ (p.world.state.group 0).nInflight = 1 ∧
          (q.world.state.group 0).state = .park)) = true := by decide +kernel
  obtain ⟨p, hp, hexec⟩ := (Option.any_eq_true _ _).mp hexec
  obtain ⟨q, hq, hstates⟩ := (Option.any_eq_true _ _).mp hexec
  obtain ⟨hdraining, hone, hpark⟩ := of_decide_eq_true hstates
  have hrun : runtime.Run (boot storedBuilt (.runtime 2 0)) p := Loop.Run.refl.exec hp
  exact ⟨p, q, hrun, Loop.Run.refl.exec hq, hdraining, hone, hpark,
    (unused_of_park built_storedBuilt (by decide +kernel) (hrun.exec hq) 0).1 hpark⟩

end Small
end CanaTune
