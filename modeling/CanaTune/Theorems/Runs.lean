import CanaTune.Theorems.Ticks
import CanaTune.Theorems.HardGuards

/-! Every run of the runtime. An invariant that every act, every move of the signs and everything around the tasks
    keeps holds in every state reached: the Controller is one task, the others only help it. -/

namespace CanaTune
variable {K : Type} [Scalar K] {n : ℕ}

/-! ### The Canary stays the Canary -/

namespace System

theorem canaryGroup_congr {s t : System K n} (h : ∀ g, (t.group g).canary = (s.group g).canary) :
    t.canaryGroup = s.canaryGroup := by
  unfold canaryGroup
  simp only [h]

/-- A group's record changes, its role stays. -/
theorem canary_setGroup (s : System K n) (g : Fin n) {f : Group K → Group K} (hf : ∀ x, (f x).canary = x.canary)
    (i : Fin n) :
    ((s.setGroup g f).group i).canary = (s.group i).canary :=
  Router.read_setGroup_same s.router g f (·.canary) hf i

/-- A clock change writes a group's tier and clocks only. -/
theorem ClockAct.read {β : Type} {f : Group K → β} (hf : ∀ x tier effective, f { x with tier, effective } = f x)
    {s s' : System K n} (h : ClockAct s s') (i : Fin n) : f (s'.group i) = f (s.group i) := by
  have hset (u : System K n) (g : Fin n) (point : ClockPoint) :
      f ((u.setGroup g fun x => { x with effective := some point }).group i) = f (u.group i) :=
    Router.read_setGroup_same u.router g (fun x => { x with effective := some point }) f (fun x => hf x x.tier _) i
  cases h with
  | beginTier g tier target =>
    exact Router.read_setGroup_same (s.bumpEpoch g).router g
      (fun x => { x with
        tier, effective := if tier = .park then none else (s.group g).effective.map fun o => slower o target })
      f (fun x => hf x _ _) i
  | settleTier g tier call ok =>
    unfold System.settleTier
    generalize hv : (if (s.group g).tier = tier then s.setRetry g _ else s) = v
    have hgroup : v.group i = s.group i := by
      rw [← hv]
      split <;> rfl
    rw [← hgroup]
    dsimp only
    show f ((ite _ _ _ : System K n).group i) = _
    split
    · split
      · exact hset v g _
      · split
        · exact hset v g _
        · rfl
    · rfl

theorem Act.canary {s s' : System K n} (h : Act s s') (i : Fin n) : (s'.group i).canary = (s.group i).canary := by
  cases h with
  | apart same => rw [same.group]
  | activate g => exact canary_setGroup s g (fun _ => by rfl) i
  | drain g => exact canary_setGroup s g (fun _ => by rfl) i
  | take g state => exact canary_setGroup (s.tell _) g (fun _ => by rfl) i
  | release g => exact canary_setGroup s g (fun _ => by rfl) i
  | park g => exact canary_setGroup s g (fun _ => by rfl) i
  | clock change => exact change.read (f := (·.canary)) (fun _ _ _ => rfl) i
  | note | pend | noteDrain | setRetry | lockControl => rfl

theorem canaryGroup_actions {s s' : System K n} (h : Actions s s') : s'.canaryGroup = s.canaryGroup := by
  induction h with
  | refl => rfl
  | tail _ ha ih => exact (canaryGroup_congr fun g => ha.canary g).trans ih

end System

theorem Router.tokenProgress_groups (r : Router K n) (i : ℕ) (tpotMs : Option K) :
    (r.tokenProgress i tpotMs).groups = r.groups := by
  unfold Router.tokenProgress
  split
  · rfl
  · dsimp only
    split
    · exact (untouched_observeLatency _ _ _ _).groups
    · refine (untouched_observeLatency _ _ _ _).groups.trans ?_
      split <;> rfl

theorem Router.sameControl_tokenProgress (r : Router K n) (i : ℕ) (tpotMs : Option K) :
    SameControl r (r.tokenProgress i tpotMs) := by
  have hobserve {u : Router K n} (hu : SameControl r u) (t : Ticket K n) (a b : Option K) :
      SameControl r (u.observeLatency t a b) :=
    hu.trans (untouched_observeLatency u t a b).sameControl
  unfold Router.tokenProgress
  split
  · exact ⟨rfl, rfl, rfl, rfl, rfl, rfl, rfl⟩
  · dsimp only
    split
    · refine hobserve ?_ _ _ _
      exact ⟨rfl, rfl, rfl, rfl, rfl, rfl, rfl⟩
    · refine hobserve ?_ _ _ _
      split <;> exact ⟨rfl, rfl, rfl, rfl, rfl, rfl, rfl⟩

/-- What a request, its proxy or the telemetry can do to the Router: time goes on, a ticket is issued or operated on, or
    neither a group nor a ticket changes. -/
inductive Router.Acted (r : Router K n) : Outside K n → Router K n → Prop
  | clock (now : K) (later : r.now ≤ now) : Acted r (.clock now) { r with now }
  | apart {e : Outside K n} {s : Router K n} (control : SameControl r s) (groups : s.groups = r.groups)
      (tickets : s.tickets = r.tickets) : Acted r e s
  | issued {e : Outside K n} {s : Router K n} {route : Route n} {tokens : ℕ} {t : Ticket K n}
      (issued : Issued r s route tokens t)
      (prefill : (r.groups route.p).routable = true) (decode : (r.groups route.d).routable = true) : Acted r e s
  | operated {e : Outside K n} {s : Router K n} {i : ℕ} (operated : Operated r s i)
      (about : e = .prefillDone i ∨ e = .firstToken i ∨
        ∃ ok ttftMs tpotMs outputTokens, e = .finish i ok ttftMs tpotMs outputTokens) : Acted r e s
  | progress (i : ℕ) (tpotMs : Option K) : Acted r (.tokenProgress i tpotMs) (r.tokenProgress i tpotMs)

theorem Router.acted {r s : Router K n} {e : Outside K n} (h : routerActs r e = some s) : r.Acted e s := by
  unfold routerActs at h
  split at h
  · split at h
    case isTrue hle =>
      cases h
      exact .clock _ hle
    case isFalse => cases h
  · obtain ⟨_, -, rfl⟩ := Option.map_eq_some_iff.mp h
    exact .apart ⟨rfl, rfl, rfl, rfl, rfl, rfl, rfl⟩ rfl rfl
  · cases h
    exact .apart ⟨rfl, rfl, rfl, rfl, rfl, rfl, rfl⟩ rfl rfl
  · split at h <;> cases h
    case h_1 hstep =>
      rcases step_requests hstep with ⟨-, hu⟩ | ⟨t, route, -, hi, -, ⟨hp, hd⟩, -⟩
      · have hbooks : SameControl r { r with books := s.books } := ⟨rfl, rfl, rfl, rfl, rfl, rfl, rfl⟩
        exact .apart (hbooks.trans hu.sameControl) hu.groups hu.tickets
      · exact .issued hi hp hd
  · cases h
    exact .apart ⟨rfl, rfl, rfl, rfl, rfl, rfl, rfl⟩ rfl rfl
  · cases h
    exact .operated (operated_prefillDone r _) (.inl rfl)
  · cases h
    exact .operated (operated_firstToken r _) (.inr (.inl rfl))
  · cases h
    exact .progress _ _
  · cases h
    exact .operated (operated_finish r _ _ _ _ _) (.inr (.inr ⟨_, _, _, _, rfl⟩))
  · cases h

/-- Requests, their proxies and the telemetry leave what the Controller steers by alone, and time goes on. -/
theorem Router.sameControl_acts {r s : Router K n} {e : Outside K n} (h : routerActs r e = some s) :
    SameControl { r with now := s.now } s ∧ r.now ≤ s.now := by
  have hsame (hs : SameControl r s) : SameControl { r with now := s.now } s ∧ r.now ≤ s.now :=
    ⟨⟨hs.settings, rfl, hs.tiers, hs.clockEpochs, hs.fullEffort, hs.controlMode, hs.baselineMode⟩, hs.now.ge⟩
  cases Router.acted h with
  | clock now later => exact ⟨⟨rfl, rfl, rfl, rfl, rfl, rfl, rfl⟩, later⟩
  | apart control => exact hsame control
  | issued hi => exact hsame hi.kept
  | operated ho =>
    rcases ho with rfl | ⟨t, t', hm⟩
    · exact hsame ⟨rfl, rfl, rfl, rfl, rfl, rfl, rfl⟩
    · exact hsame hm.kept
  | progress i tpotMs => exact hsame (sameControl_tokenProgress r i tpotMs)

/-- Requests, their proxies and the telemetry leave states and clocks alone. -/
theorem Router.control_acts {r s : Router K n} {e : Outside K n} (h : routerActs r e = some s) (g : Fin n) :
    (s.groups g).control = (r.groups g).control := by
  cases Router.acted h with
  | clock => rfl
  | apart _ groups => rw [groups]
  | issued hi => exact hi.control g
  | operated ho =>
    rcases ho with rfl | ⟨t, t', hm⟩
    · rfl
    · exact hm.control g
  | progress i tpotMs => rw [Router.tokenProgress_groups]

/-! ### Invariants -/

/-- What every act, every move and everything around the tasks keeps. -/
structure Invariant (J : Phase → System K n → Prop) : Prop extends Phased J where
  /-- A claim of the same step has drained a Canary that served. -/
  experiment : ∀ {ph s g task earlier}, J ph s → s.canaryGroup = some g →
    ((s.group g).state = .draining → (s.group g).nInflight = 0) → (earlier = false → (s.group g).state ≠ .active) →
    J ph (s.beginExperiment g task earlier)
  /-- A parked group starts. -/
  start : ∀ {ph s g state}, J ph s → (s.group g).state = .park → state = .active ∨ state = .exploring →
    J ph (s.setState g state)
  /-- The Canary serves where there is no locator. -/
  serve : ∀ {ph s g}, J ph s → s.canary.locator = false → J ph (s.setState g .active)
  router : ∀ {ph s e r}, J ph s → routerActs s.router e = some r → J ph { s with router := r }
  pairs : ∀ {ph s} pairs, J ph s → J ph { s with pairs }

section Tasks
variable {J : Phase → System K n → Prop} {c : Co.Conduct (Runtime K n) (Op n) (Op.Ans K) Exn} {canary : Option (Fin n)}

/-- What a task other than the Controller keeps of a tick, whatever phase it is in. -/
def Passes (J : Phase → System K n → Prop) (w w' : Runtime K n) : Prop := ∀ ph, J ph w.state → J ph w'.state

/-! ### The scheduler -/

/-- A conduct that allows the scheduler its acts. -/
structure Schedules (c : Co.Conduct (Runtime K n) (Op n) (Op.Ans K) Exn) (J : Phase → System K n → Prop)
    (canary : Option (Fin n)) : Prop where
  kept : Invariant J
  resume : ∀ {w w'}, w.state.canaryGroup = canary → c.rely w w' → c.guar w' (c.resume w')
  rely : ∀ {w w'}, w.state.canaryGroup = canary → c.rely w w' → (c.resume w').state.canaryGroup = canary
  passes : ∀ {w₀ w w'}, c.guar w₀ w → w.state.canaryGroup = canary → Passes J w w' → w'.state.canaryGroup = canary →
    Grows Label.helps w.tasks w'.tasks → c.guar w₀ w'

theorem Phased.passes (h : Phased J) {w w' : Runtime K n} (hm : Moved w w') : Passes J w w' := fun _ hs => h.acts hs hm.1

namespace Schedules

abbrev Canary (canary : Option (Fin n)) (w : Runtime K n) : Prop := w.state.canaryGroup = canary

theorem acts_steps (h : Schedules c J canary) {α : Type} {p : Prog K n α} (hp : ActsOnly p) :
    Co.Triple c (Canary canary) p (fun _ => Canary canary) fun _ => Canary canary :=
  hp.triple (X := Canary canary)
    (fun {_ _ _} hw hX hm => h.passes hw hX (h.kept.passes hm) ((System.canaryGroup_actions hm.1).trans hX) hm.2)
    h.resume (fun hX hm => (System.canaryGroup_actions hm.1).trans hX) h.rely

end Schedules

@[simp] theorem System.group_setState (s : System K n) (g : Fin n) (state : GroupState) :
    (s.setState g state).group g = { s.group g with state } := by
  rw [System.group, System.setState, System.setGroup, Router.setGroup_groups, if_pos rfl]
  rfl

theorem System.claim_own {s : System K n} {kind : Kind} {reason : Trigger} {g : Fin n} (hnone : s.canary.pending = none)
    (hg : (s.claim kind reason).canaryGroup = some g) (hpending : (s.claim kind reason).canary.pending.isSome) :
    ((s.claim kind reason).group g).state ≠ .active := by
  have hcanary := System.canaryGroup_actions (System.actions_claim s kind reason)
  unfold System.claim at hg hpending hcanary ⊢
  cases hc : s.canaryGroup with
  | none => simp [hc, hnone] at hpending
  | some i =>
    simp only [hc] at hg hpending hcanary ⊢
    cases hl : s.canary.locator with
    | false => simp [hl, hnone] at hpending
    | true =>
      simp only [hl, Bool.not_true, Bool.false_eq_true, if_false] at hg hcanary ⊢
      have hi : g = i := Option.some.inj (hg.symm.trans hcanary)
      subst hi
      split
      · show ((System.setState _ g .draining).group g).state ≠ .active
        rw [System.group_setState]
        exact GroupState.noConfusion
      case isFalse h => exact h

/-- A claim made in this step finds the Canary draining, or not serving. -/
theorem System.claimStep_own {s u : System K n} {g : Fin n} (h : s.claimStep = (.ok (some false), u))
    (hg : u.canaryGroup = some g) (hpending : u.canary.pending.isSome) : (u.group g).state ≠ .active := by
  have htrigger := System.reads_trigger s
  unfold System.claimStep at h
  split at h
  · cases h
  case isFalse hnone =>
    generalize s.trigger = e at h htrigger
    obtain ⟨found, v⟩ := e
    cases found with
    | none => cases h
    | some found =>
      have hstart := htrigger.trans (System.reads_mayStart v)
      dsimp only at h hstart
      generalize v.mayStart = e at h hstart
      obtain ⟨answer, t⟩ := e
      match answer, h with
      | .ok true, h =>
        cases h
        refine System.claim_own ?_ hg hpending
        rw [hstart.canary]
        exact Option.not_isSome_iff_eq_none.mp hnone

/-- A step that starts an experiment keeps to its claim. -/
theorem Schedules.startExperiment (h : Schedules c J canary) (g : Fin n) (earlier : Bool) :
    Co.Triple c (fun w => canary = some g ∧ Canary canary w ∧
        (earlier = false → w.state.canary.pending.isSome → (w.state.group g).state ≠ .active))
      (Co.atomic fun w => startExperiment w g earlier) (fun _ => Canary canary) fun _ => Canary canary := by
  refine Co.Triple.atomic fun w₀ w hw ⟨hg, hp⟩ => ?_
  unfold CanaTune.startExperiment
  split
  case isTrue hbusy =>
    have hm : Moved w (w.map fun s => s.giveUp g) := moved_map (System.actions_giveUp _ hbusy.1)
    have hX := (System.canaryGroup_actions hm.1).trans hp.1
    exact ⟨h.passes hw hp.1 (h.kept.passes hm) hX hm.2, hX⟩
  case isFalse hidle =>
    split
    · exact ⟨hw, hp.1⟩
    case h_2 kind reason hpending =>
      have hdrained : (w.state.group g).state = .draining → (w.state.group g).nInflight = 0 := fun hd =>
        not_not.mp fun hne => hidle ⟨hd, hne⟩
      have hown : earlier = false → (w.state.group g).state ≠ .active := fun he => hp.2 he (by rw [hpending]; rfl)
      have hX : (w.state.beginExperiment g w.tasks.labels.length earlier).canaryGroup = canary :=
        (System.canaryGroup_congr (t := w.state.setState g .exploring) fun i => System.canary_setGroup w.state g
          (fun _ => by rfl) i).trans hp.1
      refine ⟨h.passes hw hp.1 (fun ph hs => ?_) hX
        (.spawn (w.map fun s => s.beginExperiment g w.tasks.labels.length earlier) trivial), hX⟩
      exact h.kept.experiment hs (hp.1.trans hg) hdrained hown

theorem Schedules.schedulerStep (h : Schedules c J canary) :
    Co.Triple c (Canary canary) schedulerStep (fun _ => Canary canary) fun _ => Canary canary := by
  refine (h.acts_steps (acts_modify fun s => (System.apart_noteRejections s).actions)).bind fun _ => ?_
  refine Co.Triple.bind (R := fun v w => v.state.canaryGroup = canary ∧ Canary canary w)
    (Co.Triple.read fun w hp => ⟨hp, hp⟩) fun v => ?_
  cases hg : v.state.canaryGroup with
  | none => exact Co.Triple.pure fun _ hp => hp.2
  | some g =>
    dsimp only
    split
    · exact Co.Triple.pure fun _ hp => hp.2
    · refine Co.Triple.bind (R := fun _ w => canary = some g ∧ Canary canary w) ?_ fun _ => ?_
      · intro w₀ w hw hp
        have hcanary : canary = some g := hp.1.symm
        refine Co.wp_mono (h.acts_steps (acts_retryDrain g) w₀ w hw hp.2) fun w₀ w r hr => ?_
        cases r with
        | ok a => exact ⟨hr.1, hcanary, hr.2⟩
        | error e => exact hr
      refine Co.Triple.bind (R := fun claim w => canary = some g ∧ Canary canary w ∧ (claim = .ok (some false) →
        w.state.canary.pending.isSome → (w.state.group g).state ≠ .active)) (fun w₀ w hw hp => ?_) fun claim => ?_
      · have hm : Moved w (w.map fun s => s.claimStep.2) := moved_map (System.actions_claimStep _)
        have hX := (System.canaryGroup_actions hm.1).trans hp.2
        refine ⟨h.passes hw hp.2 (h.kept.passes hm) hX hm.2, hp.1, hX, fun hclaim => ?_⟩
        exact System.claimStep_own (Prod.ext hclaim rfl) (hX.trans hp.1)
      · match claim with
        | .error _ => exact Co.Triple.raise fun _ hp => hp.2.1
        | .ok none => exact Co.Triple.pure fun _ hp => hp.2.1
        | .ok (some earlier) =>
          have hstart := (h.startExperiment g earlier).conseq (A := fun w => canary = some g ∧ Canary canary w ∧
              ((.ok (some earlier) : Except ModelError (Option Bool)) = .ok (some false) →
                w.state.canary.pending.isSome → (w.state.group g).state ≠ .active))
            (fun w hp => ⟨hp.1, hp.2.1, fun he => hp.2.2 (by rw [he])⟩) (fun _ _ hp => hp) fun _ _ hp => hp
          exact hstart.bind fun result => Co.Triple.ofExcept (fun _ _ _ hp => hp) fun _ _ _ hp => hp

theorem Schedules.schedulerLoop (h : Schedules c J canary) (steps : ℕ) :
    Co.Triple c (Canary canary) (schedulerLoop steps) (fun _ => Canary canary) fun _ => Canary canary := by
  induction steps with
  | zero => exact Co.Triple.pure fun _ hp => hp
  | succ steps ih =>
    refine Co.Triple.bind (h.schedulerStep.handle fun e => ?_) fun _ => (h.acts_steps (Acts.call _)).bind fun _ => ih
    split
    · exact Co.Triple.pure fun _ hp => hp
    · exact Co.Triple.raise fun _ hp => hp

/-! ### Around the tasks -/

theorem outside_tasks {e : Outside K n} {w w' : Runtime K n} (h : outside e w = some w') :
    w'.tasks.labels = w.tasks.labels ∧ w'.tasks.fresh = w.tasks.fresh := by
  have hstop (u : Runtime K n) (id : ℕ) : (u.stop id).tasks.labels = u.tasks.labels ∧
      (u.stop id).tasks.fresh = u.tasks.fresh := by
    unfold World.stop
    split_ifs <;> exact ⟨rfl, rfl⟩
  unfold outside at h
  split at h
  · obtain ⟨_, -, rfl⟩ := Option.map_eq_some_iff.mp h
    exact ⟨rfl, rfl⟩
  · obtain ⟨_, -, rfl⟩ := Option.map_eq_some_iff.mp h
    exact ⟨rfl, rfl⟩
  · cases h
    exact ⟨rfl, rfl⟩
  · cases h
    unfold request
    split
    · exact ⟨rfl, rfl⟩
    · split <;> exact ⟨rfl, rfl⟩
  · cases h
    unfold CanaTune.abort
    split
    · exact ⟨rfl, rfl⟩
    · have hs : (stopExperiment w).2.tasks.labels = w.tasks.labels ∧ (stopExperiment w).2.tasks.fresh = w.tasks.fresh := by
        unfold stopExperiment
        split
        · split
          · exact ⟨rfl, rfl⟩
          · exact hstop w _
        · exact ⟨rfl, rfl⟩
      dsimp only
      split <;> exact hs
  · obtain ⟨_, -, rfl⟩ := Option.map_eq_some_iff.mp h
    exact ⟨rfl, rfl⟩

/-- What happens around the tasks is an act, an answer of the agents or a step of the Router. -/
theorem outside_cases {e : Outside K n} {w w' : Runtime K n} (h : outside e w = some w') :
    System.Actions w.state w'.state ∨ (∃ pairs, w'.state = { w.state with pairs }) ∨
      ∃ e' router, routerActs w.state.router e' = some router ∧ w'.state = { w.state with router } := by
  have hgpu {g : Fin n} {prefill applied acked : Bool} {state : System K n}
      (hg : w.state.gpuActs g prefill applied acked = some state) : ∃ pairs, state = { w.state with pairs } := by
    obtain ⟨pair, -, rfl⟩ := Option.map_eq_some_iff.mp hg
    exact ⟨_, rfl⟩
  unfold outside at h
  split at h
  · obtain ⟨state, hg, rfl⟩ := Option.map_eq_some_iff.mp h
    exact .inr (.inl (hgpu hg))
  · obtain ⟨state, hg, rfl⟩ := Option.map_eq_some_iff.mp h
    exact .inr (.inl (hgpu hg))
  · cases h
    exact .inl (System.apart_noteSwitch _ _).actions
  · cases h
    exact .inl (moved_request w _).1
  · cases h
    exact .inl (moved_abort w).1
  · obtain ⟨router, ha, rfl⟩ := Option.map_eq_some_iff.mp h
    exact .inr (.inr ⟨_, router, ha, rfl⟩)

theorem outside_canaryGroup {e : Outside K n} {w w' : Runtime K n} (h : outside e w = some w') :
    w'.state.canaryGroup = w.state.canaryGroup := by
  rcases outside_cases h with ha | ⟨pairs, hs⟩ | ⟨e', router, hr, hs⟩
  · exact System.canaryGroup_actions ha
  · rw [hs]
    rfl
  · rw [hs]
    refine System.canaryGroup_congr fun g => ?_
    have hcontrol := Router.control_acts hr g
    simp only [Group.control, Prod.mk.injEq] at hcontrol
    exact hcontrol.1

theorem System.state_setState (s : System K n) (g i : Fin n) (state : GroupState) :
    ((s.setState g state).group i).state = if i = g then state else (s.group i).state := by
  rw [System.group, System.setState, System.setGroup, Router.setGroup_groups]
  split_ifs <;> rfl

/-- A claim drains only a Canary that serves, and only a draining one is given up. -/
theorem System.park_claim {s : System K n} {kind : Kind} {reason : Trigger} {g : Fin n} (h : (s.group g).state = .park) :
    ((s.claim kind reason).group g).state = .park := by
  unfold System.claim
  split
  · exact h
  · split
    · exact h
    · dsimp only
      split
      case isTrue i _ _ hactive =>
        show ((System.setState _ i .draining).group g).state = .park
        rw [System.state_setState, if_neg]
        · exact h
        · rintro rfl
          exact GroupState.noConfusion (h.symm.trans hactive)
      · exact h

theorem System.park_unclaim {s : System K n} {g : Fin n} (h : (s.group g).state = .park) :
    (s.unclaim.group g).state = .park := by
  unfold System.unclaim
  dsimp only
  split
  · split
    case isTrue i _ hdraining =>
      rw [System.state_setState, if_neg]
      · exact h
      · rintro rfl
        exact GroupState.noConfusion (h.symm.trans hdraining)
    · exact h
  · exact h

/-- What the agents, a measured switch, a look, a claim, its end and the Router keep, all that happens around the tasks
    keeps. -/
theorem outside_keeps {R : System K n → System K n → Prop} (htrans : ∀ {s s' u}, R s s' → R s' u → R s u)
    (hpairs : ∀ s pairs, R s { s with pairs }) (hswitch : ∀ s seconds, R s (s.noteSwitch seconds))
    (hreads : ∀ {s s'}, System.Reads s s' → R s s') (hclaim : ∀ s kind reason, R s (s.claim kind reason))
    (hunclaim : ∀ s, R s s.unclaim) (hrouter : ∀ {s e r}, routerActs s.router e = some r → R s { s with router := r })
    {e : Outside K n} {w w' : Runtime K n} (h : outside e w = some w') : R w.state w'.state := by
  have hgpu {g : Fin n} {prefill applied acked : Bool} {state : System K n}
      (hg : w.state.gpuActs g prefill applied acked = some state) : R w.state state := by
    obtain ⟨pair, -, rfl⟩ := Option.map_eq_some_iff.mp hg
    exact hpairs _ _
  have hrefl : R w.state w.state := hreads (.refl w.state)
  unfold outside at h
  split at h
  · obtain ⟨state, hg, rfl⟩ := Option.map_eq_some_iff.mp h
    exact hgpu hg
  · obtain ⟨state, hg, rfl⟩ := Option.map_eq_some_iff.mp h
    exact hgpu hg
  · cases h
    exact hswitch _ _
  · cases h
    have hstart := hreads (System.reads_mayStart w.state)
    unfold request
    split
    · exact hrefl
    · generalize w.state.mayStart = e at hstart ⊢
      obtain ⟨answer, s⟩ := e
      cases answer with
      | error e => exact hstart
      | ok may =>
        cases may with
        | false => exact hstart
        | true => exact htrans hstart (hclaim s _ _)
  · cases h
    have hstop : (stopExperiment w).2.state = w.state := by
      unfold stopExperiment
      split
      · split
        · rfl
        · exact World.stop_state w _
      · rfl
    unfold CanaTune.abort
    split
    · exact hrefl
    · dsimp only
      split
      · rw [hstop]
        exact hrefl
      · show R w.state ((stopExperiment w).2.state).unclaim
        rw [hstop]
        exact hunclaim _
  · obtain ⟨router, ha, rfl⟩ := Option.map_eq_some_iff.mp h
    exact hrouter ha

theorem outside_park {e : Outside K n} {w w' : Runtime K n} {g : Fin n} (h : outside e w = some w')
    (hp : (w.state.group g).state = .park) :
    (w'.state.group g).state = .park := by
  refine outside_keeps (R := fun s s' => (s.group g).state = .park → (s'.group g).state = .park)
    (fun h₁ h₂ hs => h₂ (h₁ hs))
    (fun _ _ hs => hs) (fun _ _ hs => hs) (fun hr hs => ?_) (fun _ _ _ => System.park_claim) (fun _ => System.park_unclaim)
    (fun {s e r} ha hs => ?_) h hp
  · rw [hr.group, hs]
  · have hcontrol := Router.control_acts ha g
    simp only [Group.control, Prod.mk.injEq] at hcontrol
    exact hcontrol.2.1.trans hs

theorem Invariant.outside (h : Invariant J) {e : Outside K n} {w w' : Runtime K n} (ho : CanaTune.outside e w = some w') :
    Passes J w w' := by
  intro ph hs
  rcases outside_cases ho with ha | ⟨pairs, hw⟩ | ⟨e', router, hr, hw⟩
  · exact h.acts hs ha
  · exact hw ▸ h.pairs pairs hs
  · exact hw ▸ h.router hs hr

/-! ### The roles of the tasks -/

/-- One Controller at most, and the task that starts it comes first. -/
structure Roles (t : Tasks (Label n)) : Prop where
  controller : ∀ {i j a b : ℕ}, t.labels[i]? = some (.controller a) → t.labels[j]? = some (.controller b) → i = j
  main : ∀ {i a b : ℕ}, t.labels[i]? = some (.runtime a b) → i = 0 ∧ (0 ∈ t.fresh → t.labels.length = 1)

theorem Roles.same {t u : Tasks (Label n)} (h : Roles t) (hl : u.labels = t.labels) (hf : 0 ∈ u.fresh → 0 ∈ t.fresh) :
    Roles u where
  controller := by
    rw [hl]
    exact h.controller
  main hi := by
    rw [hl] at hi ⊢
    exact ⟨(h.main hi).1, fun h0 => (h.main hi).2 (hf h0)⟩

/-- Where another task acts, the first one has begun. -/
theorem Roles.begun {t : Tasks (Label n)} (h : Roles t) {id a b : ℕ} {l : Label n} (hl : t.labels[id]? = some l)
    (hother : ∀ a b, l ≠ .runtime a b) (hmain : t.labels[0]? = some (.runtime a b)) : 0 ∉ t.fresh := fun h0 => by
  have hlt := (List.getElem?_eq_some_iff.mp hl).1
  have hid : id = 0 := by
    rw [(h.main hmain).2 h0] at hlt
    omega
  subst hid
  exact hother a b (Option.some.inj (hl.symm.trans hmain))

/-- A task other than the first adds helpers only. -/
theorem Roles.grows {t u : Tasks (Label n)} (h : Roles t) (hg : Grows Label.helps t u) {id : ℕ} {l : Label n}
    (hl : t.labels[id]? = some l) (hother : ∀ a b, l ≠ .runtime a b) :
    Roles u ∧ ∀ a b, u.labels[0]? = some (.runtime a b) → 0 ∉ u.fresh := by
  have hlt := (List.getElem?_eq_some_iff.mp hl).1
  have hbegun {a b : ℕ} (hmain : u.labels[0]? = some (.runtime a b)) : 0 ∉ u.fresh := fun h0 => by
    rcases hg.label hmain with hmain | hmain
    · rcases hg.fresh 0 h0 with h0 | h0
      · exact h.begun hl hother hmain h0
      · omega
    · exact hmain.elim
  refine ⟨⟨fun hi hj => ?_, fun hi => ?_⟩, fun a b => hbegun⟩
  · rcases hg.label hi with hi | hi
    · rcases hg.label hj with hj | hj
      · exact h.controller hi hj
      · exact hj.elim
    · exact hi.elim
  · rcases hg.label hi with hi' | hi'
    · have hzero := (h.main hi').1
      subst hzero
      exact ⟨rfl, fun h0 => absurd h0 (hbegun hi)⟩
    · exact hi'.elim

/-- Only the first task is there, and has begun. -/
structure Alone (t : Tasks (Label n)) : Prop where
  labels : t.labels.length = 1
  begun : 0 ∉ t.fresh

/-- Nothing starts before the first task does. -/
def Unstarted (w : Runtime K n) : Prop :=
  ∀ a b, w.tasks.labels[0]? = some (.runtime a b) → 0 ∈ w.tasks.fresh → ∀ g, (w.state.group g).state = .park

variable (J canary) in
/-- The Controller relies on the others for its phase, the first task on being alone. -/
def contract : Loop.Contract (runtime (K := K) (n := n)) where
  inv w := J .steady w.state ∧ w.state.canaryGroup = canary ∧ Roles w.tasks ∧ Unstarted w
  rely _ l w w' := match l with
    | .controller _ => Passes J w w'
    | .runtime _ _ => Alone w.tasks → Alone w'.tasks ∧ ∀ g, (w.state.group g).state = .park →
      (w'.state.group g).state = .park
    | _ => True
  guar id l w w' := (J .steady w'.state ∧ w'.state.canaryGroup = canary ∧ Roles w'.tasks ∧ Unstarted w') ∧
    w'.tasks.labels[id]? = some l ∧ w.tasks.labels <+: w'.tasks.labels ∧ ((∀ a, l ≠ .controller a) → Passes J w w')

section Conducts
variable {id : ℕ} {l : Label n}

/-- The loop's own bookkeeping as it answers. -/
theorem contract_resume {w w' : Runtime K n} (hr : ((contract J canary).conduct id l).rely w w') :
    ((contract J canary).conduct id l).guar w' (((contract J canary).conduct id l).resume w') :=
  ⟨⟨hr.1.1, hr.1.2.1, hr.1.2.2.1.same rfl fun h => h, hr.1.2.2.2⟩, hr.2.1, List.prefix_rfl, fun _ _ h => h⟩

theorem contract_passes {w₀ w w' : Runtime K n} (hother : ∀ a b, l ≠ .runtime a b)
    (hw : ((contract J canary).conduct id l).guar w₀ w)
    (hp : Passes J w w') (hc : w'.state.canaryGroup = canary) (hg : Grows Label.helps w.tasks w'.tasks) :
    ((contract J canary).conduct id l).guar w₀ w' := by
  obtain ⟨⟨hJ, -, hroles, -⟩, hl, hpre, hpass⟩ := hw
  obtain ⟨hroles, hbegun⟩ := hroles.grows hg hl hother
  refine ⟨⟨hp _ hJ, hc, hroles, fun a b hmain h0 => absurd h0 (hbegun a b hmain)⟩,
    Loop.label_of_prefix hg.prefix_labels hl, hpre.trans hg.prefix_labels, fun hne ph hs => ?_⟩
  exact hp ph (hpass hne ph hs)

theorem schedules_contract (h : Invariant J) (hother : ∀ a b, l ≠ .runtime a b) :
    Schedules ((contract J canary).conduct id l) J canary where
  kept := h
  resume _ hr := contract_resume hr
  rely _ hr := hr.1.2.1
  passes hw _ hp hc hg := contract_passes hother hw hp hc hg

theorem governed_contract (h : Invariant J) (ticks : ℕ) :
    Governed ((contract J canary).conduct id (.controller ticks)) J where
  kept := h.toPhased
  resume _ hr := contract_resume hr
  rely hJ hr := hr.2.2 _ hJ
  acts {ph w₀ w w'} hw hJ hm :=
    contract_passes (fun _ _ h => by cases h) hw (h.passes hm) ((System.canaryGroup_actions hm.1).trans hw.1.2.1) hm.2
  moves {ph ph' w₀ w s'} hw _ hs hs' :=
    ⟨⟨h.steady hs', hs.canaryGroup.trans hw.1.2.1, hw.1.2.2.1, fun _ _ hmain h0 =>
      absurd h0 (hw.1.2.2.1.begun hw.2.1 (fun _ _ h => by cases h) hmain)⟩, hw.2.1, hw.2.2.1,
      fun hne => absurd rfl (hne ticks)⟩

/-! ### The first task -/

/-- A clock change, as the first task sees it. -/
def Clocked (s s' : System K n) : Prop := System.Actions s s' ∧ ∀ i, (s'.group i).state = (s.group i).state

instance : IsPreorder (System K n) Clocked where
  refl _ := ⟨.refl, fun _ => rfl⟩
  trans _ _ _ h₁ h₂ := ⟨h₁.1.trans h₂.1, fun i => (h₂.2 i).trans (h₁.2 i)⟩

/-- The groups that are yet to start are parked. -/
structure Rest (groups : List (Fin n)) (w : Runtime K n) : Prop where
  alone : Alone w.tasks
  nodup : groups.Nodup
  parked : ∀ g ∈ groups, (w.state.group g).state = .park

theorem main_passes {a b : ℕ} {w₀ w w' : Runtime K n} (hw : ((contract J canary).conduct id (.runtime a b)).guar w₀ w)
    (ha : Alone w.tasks) (hp : Passes J w w') (hc : w'.state.canaryGroup = w.state.canaryGroup)
    (hl : w'.tasks.labels = w.tasks.labels) (hf : 0 ∈ w'.tasks.fresh → 0 ∈ w.tasks.fresh) :
    ((contract J canary).conduct id (.runtime a b)).guar w₀ w' := by
  obtain ⟨⟨hJ, hcanary, hroles, -⟩, hlabel, hpre, hpass⟩ := hw
  refine ⟨⟨hp _ hJ, hc.trans hcanary, hroles.same hl hf, fun _ _ _ h0 => absurd (hf h0) ha.begun⟩, ?_, ?_,
    fun hne ph hs => hp ph (hpass hne ph hs)⟩
  · rw [hl]
    exact hlabel
  · rw [hl]
    exact hpre

/-- A clock change of the first task leaves the groups that are yet to start parked. -/
theorem setTier_rest (h : Invariant J) {a b : ℕ} (groups : List (Fin n)) (g : Fin n) {tier : Tier} (htier : tier ≠ .park) :
    Co.Triple ((contract J canary).conduct id (.runtime a b)) (Rest groups) (setTier g tier)
    (fun _ => Rest groups) fun _ => Rest groups := by
  have hacts : Acts (Keeps (fun _ => False) Clocked) (setTier g tier : Prog K n Unit) := fun w₀ w hw =>
    wp_setTier (fun hact => ⟨.single (.clock hact), hact.read (f := (·.state)) fun _ _ _ => rfl⟩) hw fun hp =>
      absurd hp htier
  have hsame {w w' : Runtime K n} (hg : Grows (fun _ => False) w.tasks w'.tasks) : w'.tasks.labels = w.tasks.labels := by
    obtain ⟨added, hadded, hnone⟩ := hg.labels
    rw [hadded, List.eq_nil_iff_forall_not_mem.mpr hnone, List.append_nil]
  have hfresh {w w' : Runtime K n} (hw : Alone w.tasks) (hg : Grows (fun _ => False) w.tasks w'.tasks) :
      0 ∈ w'.tasks.fresh → 0 ∈ w.tasks.fresh := fun h0 =>
    (hg.fresh 0 h0).resolve_right (by rw [hw.labels]; decide)
  refine hacts.triple (fun hw hX hm => ?_) (fun _ hr => contract_resume hr) (fun {w w'} hX hm => ?_) fun {w w'} hX hr => ?_
  · exact main_passes hw hX.alone (fun ph hs => h.acts hs hm.1.1) (System.canaryGroup_actions hm.1.1) (hsame hm.2)
      (hfresh hX.alone hm.2)
  · refine ⟨⟨?_, fun h0 => hX.alone.begun (hfresh hX.alone hm.2 h0)⟩, hX.nodup,
      fun i hi => (hm.1.2 i).trans (hX.parked i hi)⟩
    rw [hsame hm.2]
    exact hX.alone.labels
  · obtain ⟨halone, hpark⟩ := hr.2.2 hX.alone
    exact ⟨⟨halone.labels, halone.begun⟩, hX.nodup, fun i hi => hpark i (hX.parked i hi)⟩

theorem start_rest (h : Invariant J) {a b : ℕ} : Co.Triple ((contract J canary).conduct id (.runtime a b))
    (fun w => Alone w.tasks ∧ ∀ g, (w.state.group g).state = .park) start (fun _ => Rest []) fun _ w => Alone w.tasks := by
  refine triple_get fun s => ?_
  have hnodup : (s.productionFirst (List.finRange n)).Nodup := by
    refine List.Nodup.append ((List.nodup_finRange n).filter _) ((List.nodup_finRange n).filter _) fun i h₁ h₂ => ?_
    simp only [List.mem_filter] at h₁ h₂
    simp [h₂.2] at h₁
  refine (Co.Triple.each (P := Rest) (fun g groups => ?_) _).conseq (fun w hp => ⟨hp.1.1, hnodup, fun g _ => hp.1.2 g⟩)
    (fun _ _ hp => hp) fun _ _ hp => hp
  have hset (state : GroupState) (hstate : state = .active ∨ state = .exploring) :
      Co.Triple ((contract J canary).conduct id (.runtime a b)) (Rest (g :: groups))
        (Prog.modify fun s : System K n => s.setState g state)
        (fun _ => Rest groups) fun _ w => Alone w.tasks := by
    refine Co.Triple.update fun w₀ w hw hp => ?_
    have hnodup := List.nodup_cons.mp hp.nodup
    refine ⟨main_passes hw hp.alone (fun ph hs => h.start hs (hp.parked g List.mem_cons_self) hstate)
      (System.canaryGroup_congr (t := w.state.setState g state) fun i => System.canary_setGroup w.state g
        (fun _ => by rfl) i) rfl (fun h => h),
      hp.alone, hnodup.2, fun i hi => ?_⟩
    show ((w.state.setState g state).group i).state = .park
    rw [System.state_setState, if_neg]
    · exact hp.parked i (List.mem_cons_of_mem _ hi)
    · rintro rfl
      exact hnodup.1 hi
  split
  · exact hset .exploring (.inr rfl)
  · refine (hset .active (.inl rfl)).bind fun _ => ?_
    exact (setTier_rest h groups g (by split <;> decide)).conseq (fun _ hp => hp) (fun _ _ hp => hp) fun _ _ hp => hp.alone

theorem serveCanary_alone (h : Invariant J) {a b : ℕ} : Co.Triple ((contract J canary).conduct id (.runtime a b))
    (Rest []) serveCanary (fun _ => Rest []) fun _ w => Alone w.tasks := by
  refine triple_get fun s => ?_
  cases s.canaryGroup with
  | none => exact Co.Triple.pure fun _ hp => hp.1
  | some g =>
    dsimp only
    split
    case isTrue hserve =>
      refine Co.Triple.bind (R := fun _ => Rest []) (Co.Triple.update fun w₀ w hw hp => ?_) fun _ =>
        (setTier_rest h [] g (by decide)).conseq (fun _ hp => hp) (fun _ _ hp => hp) fun _ _ hp => hp.alone
      have hlocator : w.state.canary.locator = false := by
        rw [hp.2]
        simpa using hserve.1
      exact ⟨main_passes hw hp.1.alone (fun ph hs => h.serve hs hlocator)
        (System.canaryGroup_congr (t := w.state.setState g .active) fun i => System.canary_setGroup w.state g
          (fun _ => by rfl) i)
        rfl (fun h => h), hp.1.alone, .nil, by simp⟩
    case isFalse => exact Co.Triple.pure fun _ hp => hp.1

/-- The first task starts the Controller and the scheduler. -/
theorem runtimeMain_guar (h : Invariant J) {a b ticks steps : ℕ} : Co.Triple ((contract J canary).conduct id (.runtime a b))
    (fun w => Alone w.tasks ∧ ∀ g, (w.state.group g).state = .park) (runtimeMain ticks steps)
    (fun _ _ => True) fun _ _ => True := by
  have hspawns : Co.Triple ((contract J canary).conduct id (.runtime a b)) (Rest [])
      (Prog.spawn (.controller ticks) >>= fun _ => Prog.spawn (.scheduler steps) >>= fun _ => pure () : Prog K n Unit)
      (fun _ _ => True) fun _ _ => True := by
    intro w₀ w hw hp
    obtain ⟨⟨hJ, hcanary, hroles, -⟩, hlabel, hpre, hpass⟩ := hw
    obtain ⟨l, hl⟩ : ∃ l, w.tasks.labels = [l] := List.length_eq_one_iff.mp hp.alone.labels
    have hzero : id = 0 := (hroles.main hlabel).1
    subst hzero
    obtain rfl : l = .runtime a b := by simpa [hl] using hlabel
    -- Both tasks are spawned in the segment that serves the Canary: the labels are these three.
    have hspawned : (((w.spawn (.controller ticks)).spawn (.scheduler steps)).tasks.labels =
        [.runtime a b, .controller ticks, .scheduler steps]) := by
      simp [World.spawn, hl]
    have hsecond {i x : ℕ}
        (hi : [Label.runtime (n := n) a b, .controller ticks, .scheduler steps][i]? = some (.controller x)) :
        i = 1 := by
      rcases i with _ | _ | _ | i
      case succ.zero => rfl
      all_goals cases hi
    have hbegun : 0 ∉ ((w.spawn (.controller ticks)).spawn (.scheduler steps)).tasks.fresh := by
      simp [World.spawn, hl, hp.alone.begun]
    refine ⟨⟨⟨hJ, hcanary, ⟨fun {i j x y} hi hj => ?_, fun {i x y} hi => ?_⟩, fun _ _ _ h0 => absurd h0 hbegun⟩,
      ?_, ?_, hpass⟩, trivial⟩
    · change ((w.spawn (.controller ticks)).spawn (.scheduler steps)).tasks.labels[i]? = _ at hi
      change ((w.spawn (.controller ticks)).spawn (.scheduler steps)).tasks.labels[j]? = _ at hj
      rw [hspawned] at hi hj
      exact (hsecond hi).trans (hsecond hj).symm
    · change ((w.spawn (.controller ticks)).spawn (.scheduler steps)).tasks.labels[i]? = _ at hi
      rw [hspawned] at hi
      rcases i with _ | _ | _ | i
      · exact ⟨rfl, fun h0 => absurd h0 hbegun⟩
      all_goals cases hi
    · show ((w.spawn (.controller ticks)).spawn (.scheduler steps)).tasks.labels[0]? = _
      rw [hspawned]
      rfl
    · refine hpre.trans ?_
      show _ <+: ((w.spawn (.controller ticks)).spawn (.scheduler steps)).tasks.labels
      rw [hspawned, hl]
      exact ⟨_, rfl⟩
  have hstart : Co.Triple ((contract J canary).conduct id (.runtime a b))
      (fun w => Alone w.tasks ∧ ∀ g, (w.state.group g).state = .park) start (fun _ => Rest []) fun _ _ => True :=
    (start_rest h).conseq (fun _ hp => hp) (fun _ _ hp => hp) fun _ _ _ => trivial
  have hserve : Co.Triple ((contract J canary).conduct id (.runtime a b)) (Rest []) serveCanary (fun _ => Rest [])
      fun _ _ => True := (serveCanary_alone h).conseq (fun _ hp => hp) (fun _ _ hp => hp) fun _ _ _ => trivial
  exact hstart.bind fun _ => hserve.bind fun _ => hspawns

theorem contract_begun {w : Runtime K n} (hinv : (contract J canary).inv w) (hl : w.tasks.labels[id]? = some l) :
    (contract J canary).guar id l w (w.begun id) := by
  have hfresh : 0 ∈ (w.begun id).tasks.fresh → 0 ∈ w.tasks.fresh := fun h0 => (List.mem_filter.mp h0).1
  exact ⟨⟨hinv.1, hinv.2.1, hinv.2.2.1.same rfl hfresh, fun a b hmain h0 => hinv.2.2.2 a b hmain (hfresh h0)⟩, hl,
    List.prefix_rfl,
    fun _ _ h => h⟩

theorem contract_finished {w₀ w : Runtime K n} (hw : (contract J canary).guar id l w₀ w) :
    (contract J canary).guar id l w₀ (w.finished id) :=
  ⟨⟨hw.1.1, hw.1.2.1, hw.1.2.2.1.same rfl fun h => h, hw.1.2.2.2⟩, hw.2⟩

/-- A body under a triple keeps to the contract from its begin to its end. -/
theorem contract_code {w : Runtime K n} {p : Prog K n Unit} {P : Runtime K n → Prop} {Q : Unit → Runtime K n → Prop}
    {E : Exn → Runtime K n → Prop} (h : Co.Triple ((contract J canary).conduct id l) P p Q E)
    (hinv : (contract J canary).inv w) (hl : w.tasks.labels[id]? = some l) (hP : P (w.begun id)) :
    p.wp ((contract J canary).conduct id l)
    (fun w₀ w _ => (contract J canary).guar id l w₀ (w.finished id)) w (w.begun id) :=
  Co.wp_mono (h w (w.begun id) (contract_begun hinv hl) hP) fun _ _ _ hr => contract_finished hr.1

end Conducts

theorem contract_sound (h : Invariant J) : (contract J canary).Sound where
  refl _ l w := by
    cases l with
    | controller => exact fun _ hs => hs
    | runtime => exact fun ha => ⟨ha, fun _ hg => hg⟩
    | _ => trivial
  trans {_ l w w' w''} h₁ h₂ := by
    cases l with
    | controller => exact fun ph hs => h₂ ph (h₁ ph hs)
    | runtime => exact fun ha => ⟨(h₂ (h₁ ha).1).1, fun g hg => (h₂ (h₁ ha).1).2 g ((h₁ ha).2 g hg)⟩
    | _ => trivial
  code {id l w} hinv hl hfresh := by
    cases l with
    | controller ticks => exact contract_code ((governed_contract h ticks).controllerLoop ticks) hinv hl hinv.1
    | scheduler steps =>
      exact contract_code ((schedules_contract h fun _ _ h => by cases h).schedulerLoop steps) hinv hl hinv.2.1
    | change g =>
      exact contract_code ((schedules_contract h fun _ _ h => by cases h).acts_steps
        (acts_setTier g (by decide))) hinv hl hinv.2.1
    | experiment kind reason =>
      exact contract_code ((schedules_contract h fun _ _ h => by cases h).acts_steps
        (acts_experiment id kind)) hinv hl hinv.2.1
    | runtime ticks steps =>
      -- The first task begins alone: its own label is the only one before it spawns the others.
      obtain ⟨hzero, hlone⟩ := hinv.2.2.1.main hl
      subst hzero
      refine contract_code (runtimeMain_guar h) hinv hl ⟨⟨hlone hfresh, ?_⟩, hinv.2.2.2 ticks steps hl hfresh⟩
      simp [World.begun]
  skip {id l w} hinv hl := contract_finished (contract_begun hinv hl)
  guar {id l w w'} hinv hl hg := by
    refine ⟨hg.1, hg.2.2.1, fun {id' l'} hne hl' => ?_⟩
    cases l' with
    | controller ticks =>
      -- There is one controller, so it is another task that moved.
      refine hg.2.2.2 fun a ha => hne ?_
      subst ha
      exact hinv.2.2.1.controller hl' hl
    | runtime =>
      intro ha
      have hid := (List.getElem?_eq_some_iff.mp hl).1
      have hid' := (List.getElem?_eq_some_iff.mp hl').1
      rw [ha.labels] at hid hid'
      omega
    | _ => trivial
  outside {e w w'} hinv ho := by
    obtain ⟨hlabels, hfresh⟩ := outside_tasks ho
    have hpass := h.outside ho
    refine ⟨⟨hpass _ hinv.1, (outside_canaryGroup ho).trans hinv.2.1, hinv.2.2.1.same hlabels fun h0 => hfresh ▸ h0, ?_⟩,
      ?_, ?_⟩
    · intro a b hmain h0 g
      rw [hlabels] at hmain
      rw [hfresh] at h0
      exact outside_park ho (hinv.2.2.2 a b hmain h0 g)
    · rw [hlabels]
    · intro id l hl
      cases l with
      | controller => exact hpass
      | runtime =>
        refine fun ha => ⟨⟨?_, ?_⟩, fun g => outside_park ho⟩
        · rw [hlabels]
          exact ha.labels
        · rw [hfresh]
          exact ha.begun
      | _ => trivial

/-- What every act and move keeps from the built state on, every run of the runtime keeps. -/
theorem Invariant.run (h : Invariant J) {s : System K n} (hbuilt : Built s) (hs : J .steady s) {ticks steps : ℕ}
    {p : Pool (Label n) (System K n) (Op n) (Op.Ans K) Exn} (hrun : runtime.Run (boot s (.runtime ticks steps)) p) :
    J .steady p.world.state := by
  have hholds : (contract J s.canaryGroup).Holds (boot s (.runtime ticks steps)) := by
    refine ⟨⟨hs, rfl, ⟨fun {i j a b} hi hj => ?_, fun {i a b} hi => ?_⟩, fun _ _ _ _ g => ?_⟩, fun id k hk => by cases hk⟩
    · rcases i with _ | i <;> cases hi
    · rcases i with _ | i
      · exact ⟨rfl, fun _ => rfl⟩
      · cases hi
    · show (s.group g).state = .park
      rw [hbuilt.groups g]
  exact ((contract_sound h).run hholds hrun).inv.1

end Tasks
end CanaTune
