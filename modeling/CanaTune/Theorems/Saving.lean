import CanaTune.Theorems.Bisection
import CanaTune.Theorems.Plan
import CanaTune.Theorems.Ticks

/-! Saving energy is deliberate. A tick looks at production, a call of the plan weighs a target; in between other
    coroutines may do anything, but for what a plan remembers they can only clear it. A target that has been remembered
    for `tDownS` is the only one weighed since, and pressure that is as old was the last one seen. -/

namespace CanaTune
variable {K : Type} [Scalar K] {n : ℕ} {α : Type}

/-! ### One call, alone -/

namespace System

/-- While a call awaits its locks and no other coroutine runs: time passes, the agents act, a switch is measured. -/
def Idle (s s' : System K n) : Prop :=
  ∃ (now switchS : K) (pairs : Fin n → GpuPair),
    s' = { s with router := { s.router with now }, controller := { s.controller with switchS }, pairs }

/-- What following a plan keeps until a group drains. -/
structure Followed (s s' : System K n) : Prop where
  settings : s'.controller.settings = s.controller.settings
  router : s'.router.settings = s.router.settings
  target : s'.controller.target = s.controller.target
  targetSince : s'.controller.targetSince = s.controller.targetSince
  pressureAt : s'.controller.pressureAt = s.controller.pressureAt
  routable : ∀ g, (s.group g).routable = true → (s'.group g).routable = true

namespace Followed
variable {s s' u : System K n} {g : Fin n}

theorem refl (s : System K n) : Followed s s := ⟨rfl, rfl, rfl, rfl, rfl, fun _ h => h⟩

theorem trans (h₁ : Followed s s') (h₂ : Followed s' u) : Followed s u where
  settings := h₂.settings.trans h₁.settings
  router := h₂.router.trans h₁.router
  target := h₂.target.trans h₁.target
  targetSince := h₂.targetSince.trans h₁.targetSince
  pressureAt := h₂.pressureAt.trans h₁.pressureAt
  routable g h := h₂.routable g (h₁.routable g h)

theorem idle (h : Idle s s') : Followed s s' := by
  obtain ⟨now, switchS, pairs, rfl⟩ := h
  exact ⟨rfl, rfl, rfl, rfl, rfl, fun _ h => h⟩

/-- A group's record changes, and it stays routable. -/
theorem setGroup {f : Group K → Group K} (hf : (s.group g).routable = true → (f (s.group g)).routable = true) :
    Followed s (s.setGroup g f) := by
  refine ⟨rfl, rfl, rfl, rfl, rfl, fun i hi => ?_⟩
  show ((s.router.setGroup g f).groups i).routable = true
  rw [Router.setGroup_groups]
  split_ifs with h
  · subst h
    exact hf hi
  · exact hi

theorem bumpEpoch (s : System K n) (g : Fin n) : Followed s (s.bumpEpoch g) := ⟨rfl, rfl, rfl, rfl, rfl, fun _ h => h⟩

theorem setRetry (s : System K n) (g : Fin n) (retry : Option (K × K)) : Followed s (s.setRetry g retry) :=
  ⟨rfl, rfl, rfl, rfl, rfl, fun _ h => h⟩

/-- Only the park point takes the confirmed clocks away. -/
theorem beginTier {tier : Tier} (htier : tier ≠ .park) (point : ClockPoint) : Followed s (s.beginTier g tier point).2 := by
  have hgroup : Followed (s.bumpEpoch g) ((s.bumpEpoch g).setGroup g fun x =>
      { x with tier, effective := if tier = .park then none else (s.group g).effective.map fun o => slower o point }) := by
    refine setGroup fun hr => ?_
    have hr : (s.group g).routable = true := hr
    simp only [Group.routable, Bool.and_eq_true, Option.isSome_map, if_neg htier] at hr ⊢
    exact hr
  obtain ⟨hsettings, hrouter, htarget, hsince, hpressure, hroutable⟩ := (bumpEpoch s g).trans hgroup
  exact ⟨hsettings, hrouter, htarget, hsince, hpressure, hroutable⟩

theorem settleTier {tier : Tier} {call : Call} {ok : Bool} : Followed s (s.settleTier g tier call ok) := by
  have hretry : Followed s
      (if (s.group g).tier = tier then s.setRetry g (if ok then none else some (s.backOff g)) else s) := by
    split_ifs
    · exact setRetry s g _
    · exact setRetry s g _
    · exact .refl s
  have hconfirm (u : System K n) (point : ClockPoint) :
      Followed u (u.setGroup g fun x => { x with effective := some point }) := by
    refine setGroup fun hr => ?_
    simp only [Group.routable, Bool.and_eq_true] at hr ⊢
    exact ⟨hr.1, rfl⟩
  unfold System.settleTier
  dsimp only
  generalize (if (s.group g).tier = tier then s.setRetry g (if ok then none else some (s.backOff g)) else s) = u at hretry ⊢
  split_ifs
  · exact (hretry.trans (hconfirm u _)).trans (bumpEpoch _ g)
  · cases call.old with
    | none => exact hretry.trans (bumpEpoch _ g)
    | some old => exact (hretry.trans (hconfirm u _)).trans (bumpEpoch _ g)
  · exact hretry.trans (bumpEpoch _ g)

end Followed
end System

/-- The conduct of a call during which no other coroutine runs; a lock may succeed, fail or be cancelled. -/
def aloneConduct : Co.Conduct (Runtime K n) (Op n) (Op.Ans K) Exn where
  rely w w' := w.state.Idle w'.state
  guar _ _ := True
  answers _ _ _ := True
  resume w := w

namespace Followed
variable {s₀ : System K n} {P : System K n → Prop}

/-- A part of a call that keeps what a plan counts on, from any system on, however its locks end. -/
def Keeps (p : Prog K n α) : Prop :=
  ∀ s₀ : System K n, Co.Triple aloneConduct (fun w => System.Followed s₀ w.state) p (fun _ w => System.Followed s₀ w.state)
    fun _ w => System.Followed s₀ w.state

theorem keeps_setTier (g : Fin n) {tier : Tier} (htier : tier ≠ .park) : Keeps (setTier g tier : Prog K n Unit) := by
  intro s₀
  refine triple_get fun s => ?_
  cases s.target tier with
  | none => exact Co.Triple.raise fun w hw => hw.1
  | some point =>
    have hbegin : Co.Triple aloneConduct (fun w => System.Followed s₀ w.state ∧ w.state = s)
        (Prog.step fun s => s.beginTier g tier point)
        (fun _ w => System.Followed s₀ w.state) fun _ w => System.Followed s₀ w.state := fun w₀ w hw hp =>
      ⟨trivial, hp.1.trans (.beginTier htier point)⟩
    refine hbegin.bind fun call => Co.Triple.bind (R := fun _ w => System.Followed s₀ w.state) ?_ fun ok => ?_
    · refine Co.Triple.call (fun _ _ _ _ => trivial) (fun w w' _ hw hidle _ => ?_) fun w w' _ hw hidle _ => ?_
      · exact hw.trans (.idle hidle)
      · exact hw.trans (.idle hidle)
    · exact Co.Triple.update fun _ w _ hw => ⟨trivial, hw.trans .settleTier⟩

theorem keeps_followPoint (point : ClockPoint) (g : Fin n) : Keeps (followPoint point g : Prog K n Unit) := by
  intro s₀
  refine triple_get fun s => ?_
  split
  · exact (keeps_setTier g (by decide) s₀).conseq (fun w hw => hw.1) (fun _ _ hw => hw) fun _ _ hw => hw
  · exact Co.Triple.pure fun w hw => hw.1

end Followed

namespace System

/-- What following the step of `v` leaves: a group drains where more than enough are routable. -/
def Carried (v : PlanView K n) (now : K) (s' : System K n) : Prop :=
  ∃ u, Followed (v.moved now) u ∧
    (s' = u ∨ ∃ g, max v.target.n v.seen.controller.settings.minActiveGroups < v.seen.clockedGroups.length ∧
      s' = u.take g .draining)

/-- What a whole call leaves. -/
inductive Called (s : System K n) (now : K) : System K n → Prop
  | early {s' : System K n} (none : s.planView now = none) (same : SamePlan s s') : Called s now s'
  | stays {s' : System K n} (v : PlanView K n) (weighed : s.planView now = some v)
      (same : SamePlan (v.seen.setPlan now v.target) s') :
      Called s now s'
  | follows {s' : System K n} (v : PlanView K n) (weighed : s.planView now = some v) (saves : v.Saves now)
      (carried : Carried v now s') :
      Called s now s'

end System

/-- Nothing is woken where enough groups are routable. -/
theorem wakeUp_of_le {target fuel : ℕ} {active routable : List (Fin n)} (h : target ≤ routable.length) :
    (wakeUp target fuel active routable : Prog K n _) = pure (active, routable) := by
  cases fuel with
  | zero => rfl
  | succ fuel => simp only [wakeUp, if_pos h]

theorem follow_carried {v : System.PlanView K n} {now : K} (hv : v.target.n ≤ v.seen.clockedGroups.length) :
    Co.Triple aloneConduct (fun w => w.state = v.moved now) (follow v.step : Prog K n Unit)
    (fun _ w => System.Carried v now w.state)
      fun _ w => System.Carried v now w.state := by
  have hclocks : Co.Triple aloneConduct (fun w : Runtime K n => w.state = v.moved now)
      (Co.each v.step.active (followPoint v.step.point) : Prog K n Unit) (fun _ w => System.Followed (v.moved now) w.state)
      fun _ w => System.Carried v now w.state :=
    (Co.Triple.each (P := fun _ w => System.Followed (v.moved now) w.state)
      (fun g _ => Followed.keeps_followPoint v.step.point g _) v.step.active).conseq
      (fun w hw => hw ▸ .refl _) (fun _ _ hw => hw) fun _ w hw => ⟨w.state, hw, .inl rfl⟩
  have hdrain : Co.Triple aloneConduct (fun w : Runtime K n => System.Followed (v.moved now) w.state)
      (if max v.step.target v.step.minimum < v.step.routable.length then
        Prog.modify fun s => (s.victim v.step.active).elim s fun g => s.take g .draining else pure () : Prog K n Unit)
      (fun _ w => System.Carried v now w.state) fun _ w => System.Carried v now w.state := by
    split
    case isTrue hmore =>
      refine Co.Triple.update fun _ w _ hw => ⟨trivial, ?_⟩
      show System.Carried v now ((w.state.victim v.step.active).elim w.state fun g => w.state.take g .draining)
      cases w.state.victim v.step.active with
      | none => exact ⟨w.state, hw, .inl rfl⟩
      | some g => exact ⟨w.state, hw, .inr ⟨g, hmore, rfl⟩⟩
    case isFalse => exact Co.Triple.pure fun w hw => ⟨w.state, hw, .inl rfl⟩
  unfold follow
  rw [wakeUp_of_le (show v.step.target ≤ v.step.routable.length from hv)]
  dsimp only
  split
  · exact hclocks.bind fun _ => hdrain
  · exact hdrain.conseq (fun w hw => hw ▸ .refl _) (fun _ _ hw => hw) fun _ _ hw => hw

theorem plan_called {s : System K n} {now : K} (hbest : s.router.settings.overload = .bestEffort) :
    Co.Triple aloneConduct (fun w => w.state = s) (plan now : Prog K n Unit) (fun _ w => s.Called now w.state)
      fun _ w => s.Called now w.state := by
  have hweighs := s.choosePlan_weighs now
  have hchoose : Co.Triple aloneConduct (fun w : Runtime K n => w.state = s) (Prog.step fun s => s.choosePlan now)
      (fun result w => result = (s.choosePlan now).1 ∧ w.state = (s.choosePlan now).2) fun _ w => s.Called now w.state :=
    fun w₀ w hw hp => ⟨trivial, by rw [hp], by show (w.state.choosePlan now).2 = _; rw [hp]⟩
  refine hchoose.bind fun result => ?_
  cases hv : s.planView now with
  -- The call has nothing to weigh, or raises before it does.
  | none =>
    rw [hv] at hweighs
    obtain ⟨hnot, hsame⟩ := hweighs
    generalize s.choosePlan now = e at hnot hsame
    obtain ⟨answer, s'⟩ := e
    rcases answer with error | p
    · rintro w₀ w hw ⟨rfl, hstate⟩
      exact ⟨trivial, .early hv (hstate ▸ hsame)⟩
    · rcases p with - | p
      · rintro w₀ w hw ⟨rfl, hstate⟩
        exact ⟨trivial, .early hv (hstate ▸ hsame)⟩
      · exact absurd rfl (hnot p)
  | some v =>
    rw [hv] at hweighs
    obtain ⟨hseen, hweighed⟩ := hweighs
    generalize s.choosePlan now = e at hweighed
    cases hweighed with
    | stays same =>
      rintro w₀ w hw ⟨rfl, hstate⟩
      exact ⟨trivial, .stays v hv (hstate ▸ same)⟩
    | switches saves =>
      have hsaves := saves (hseen.router ▸ hbest)
      have hfollow : Co.Triple aloneConduct (fun w => w.state = v.moved now) (follow v.step : Prog K n Unit)
          (fun _ w => s.Called now w.state) fun _ w => s.Called now w.state :=
        (follow_carried hsaves.groups).conseq (fun _ hw => hw) (fun _ w hw => .follows v hv hsaves hw)
          fun _ w hw => .follows v hv hsaves hw
      rintro w₀ w hw ⟨rfl, hstate⟩
      exact hfollow w₀ w hw hstate

/-! ### Runs -/

/-- The tasks' world, every look so far with whether it saw pressure or an exhausted D, and every call of the plan so far
    with the target it computed. -/
structure Planning (K : Type) [Scalar K] (n : ℕ) where
  world : Runtime K n
  looks : List (K × Bool)
  calls : List (K × Option (ℕ × ClockPoint))

namespace System

/-- A mode change, a published table and full effort clear the target. -/
structure Clears (s s' : System K n) : Prop where
  settings : s'.controller.settings = s.controller.settings
  router : s'.router.settings = s.router.settings
  target : (s'.controller.target = s.controller.target ∧ s'.controller.targetSince = s.controller.targetSince) ∨
    (s'.controller.target = none ∧ s'.controller.targetSince = none)

/-- Whatever happens between the looks and the calls. -/
structure Elsewhere (s s' : System K n) : Prop extends Clears s s' where
  pressureAt : s'.controller.pressureAt = s.controller.pressureAt

/-- The working point moves, or a group begins to drain. -/
def Saved (s s' : System K n) : Prop :=
  s'.workingPoint ≠ s.workingPoint ∨ ∃ g, (s.group g).state ≠ .draining ∧ (s'.group g).state = .draining

def routableGroups (s : System K n) : List (Fin n) := (List.finRange n).filter fun g => (s.group g).routable

end System

namespace Planning
variable {p q p₀ : Planning K n} {now : K}

def state (p : Planning K n) : System K n := p.world.state

/-- No look and no call is later. -/
def Until (p : Planning K n) (now : K) : Prop := (∀ l ∈ p.looks, l.1 ≤ now) ∧ ∀ c ∈ p.calls, c.1 ≤ now

instance : Decidable (p.Until now) := inferInstanceAs (Decidable (_ ∧ _))

inductive Step : Planning K n → Planning K n → Prop
  | look (p : Planning K n) (now : K) (later : p.Until now) :
      Step p { p with
        world := { p.world with state := (p.state.observe now).2 }
        looks := p.looks ++ [(now, (p.state.observe now).1.feedback.pressure || (p.state.observe now).1.dExhausted)] }
  | plan (p : Planning K n) (now : K) (later : p.Until now) {r : Except Exn Unit} {w : Runtime K n}
      (ends : Co.Ends aloneConduct (CanaTune.plan now) p.world r w) :
      Step p { p with world := w, calls := p.calls ++ [(now, (p.state.planView now).map (·.key))] }
  | elsewhere (p : Planning K n) (w : Runtime K n) (between : p.state.Elsewhere w.state) : Step p { p with world := w }

/-- A run from a system that looked and planned nothing yet. -/
structure Run (p₀ p : Planning K n) : Prop where
  looks : p₀.looks = []
  calls : p₀.calls = []
  best : p₀.state.router.settings.overload = .bestEffort
  steps : Relation.ReflTransGen Step p₀ p

/-- A call at `now` that left `w` had every reason to save. -/
structure Deliberate (p : Planning K n) (now : K) (w : Runtime K n) (v : System.PlanView K n) : Prop where
  targets : ∀ c ∈ p.calls, now - p.state.controller.settings.tDownS < c.1 → ∀ key ∈ c.2, key = v.key
  calm : ∀ l ∈ p.looks, now - p.state.controller.settings.tDownS < l.1 → l.2 = false
  current : v.current.feasible = true
  feasible : v.target.feasible = true
  groups : v.target.n ≤ p.state.routableGroups.length
  prefillMhz : v.target.point.prefillMhz ≤ p.state.workingPoint.prefillMhz
  decodeMhz : v.target.point.decodeMhz ≤ p.state.workingPoint.decodeMhz
  gain : p.state.controller.settings.switchGain * v.current.powerW < v.current.powerW - v.target.powerW
  serving : max v.target.n p.state.controller.settings.minActiveGroups ≤ p.state.routableGroups.length →
    max v.target.n p.state.controller.settings.minActiveGroups ≤ w.state.routableGroups.length

end Planning

namespace System
variable {s s' u : System K n}

/-! ### What clears the target -/

namespace Clears

theorem refl (s : System K n) : Clears s s := ⟨rfl, rfl, .inl ⟨rfl, rfl⟩⟩

theorem trans (h₁ : Clears s s') (h₂ : Clears s' u) : Clears s u where
  settings := h₂.settings.trans h₁.settings
  router := h₂.router.trans h₁.router
  target := by
    rcases h₂.target with ⟨htarget, hsince⟩ | hnone
    · rw [htarget, hsince]
      exact h₁.target
    · exact .inr hnone

end Clears

theorem Clears.setMode (h : Clears s u) (mode : Mode) : Clears s (u.setMode mode) := by
  refine h.trans ?_
  unfold System.setMode
  split_ifs
  · exact .refl u
  · exact ⟨rfl, rfl, .inr ⟨rfl, rfl⟩⟩
  · exact ⟨rfl, rfl, .inl ⟨rfl, rfl⟩⟩

@[simp] theorem setMode_pressureAt (s : System K n) (mode : Mode) :
    (s.setMode mode).controller.pressureAt = s.controller.pressureAt := by
  unfold setMode
  split_ifs <;> rfl

theorem Reads.clears (h : Reads s s') : Clears s s' :=
  ⟨h.settings, h.router.settings, .inl ⟨by rw [h.controller], by rw [h.controller]⟩⟩

theorem noteWarning_dates (s : System K n) (now : K) :
    Clears s (s.noteWarning now) ∧ (s.noteWarning now).controller.pressureAt = s.controller.pressureAt := by
  unfold noteWarning
  dsimp only
  split_ifs
  · refine ⟨Clears.setMode ?_ _, setMode_pressureAt _ _⟩
    exact ⟨rfl, rfl, .inl ⟨rfl, rfl⟩⟩
  · exact ⟨⟨rfl, rfl, .inl ⟨rfl, rfl⟩⟩, rfl⟩
  · exact ⟨⟨rfl, rfl, .inl ⟨rfl, rfl⟩⟩, rfl⟩

theorem remember_dates (s : System K n) (now : K) (f : Feedback K n) : Clears s (s.remember now f) ∧
    (s.remember now f).controller.pressureAt = if f.pressure then (now : WithBot K) else s.controller.pressureAt := by
  unfold remember
  dsimp only
  split
  · refine ⟨Clears.setMode ?_ _, setMode_pressureAt _ _⟩
    exact ⟨rfl, rfl, .inl ⟨rfl, rfl⟩⟩
  · exact ⟨⟨rfl, rfl, .inl ⟨rfl, rfl⟩⟩, rfl⟩

theorem dExhausted_dates (s : System K n) (now : K) : Clears s (s.dExhausted now).2 ∧
    (s.dExhausted now).2.controller.pressureAt =
      if (s.dExhausted now).1 then (now : WithBot K) else s.controller.pressureAt := by
  unfold dExhausted
  dsimp only
  split_ifs <;> exact ⟨⟨rfl, rfl, .inl ⟨rfl, rfl⟩⟩, rfl⟩

theorem dated_twice {β : Type} (pressure exhausted : Bool) (now before : β) :
    (if exhausted then now else if pressure then now else before) = if pressure || exhausted then now else before := by
  cases pressure <;> cases exhausted <;> rfl

/-- A look dates the pressure it sees. -/
theorem observe_dates (s : System K n) (now : K) : Clears s (s.observe now).2 ∧
    (s.observe now).2.controller.pressureAt =
      if (s.observe now).1.feedback.pressure || (s.observe now).1.dExhausted then (now : WithBot K)
      else s.controller.pressureAt := by
  have hwarning := s.noteWarning_dates now
  have hfeedback := reads_productionFeedback (s.noteWarning now)
  have hremember := (s.noteWarning now).productionFeedback.2.remember_dates now (s.noteWarning now).productionFeedback.1
  have hexhausted :=
    ((s.noteWarning now).productionFeedback.2.remember now (s.noteWarning now).productionFeedback.1).dExhausted_dates now
  have hkept : (s.noteWarning now).productionFeedback.2.controller.pressureAt = s.controller.pressureAt := by
    rw [hfeedback.controller, hwarning.2]
  rw [hremember.2, hkept, dated_twice] at hexhausted
  exact ⟨(((hwarning.1.trans hfeedback.clears).trans hremember.1).trans hexhausted.1).trans ⟨rfl, rfl, .inl ⟨rfl, rfl⟩⟩,
    hexhausted.2⟩

/-! ### What happens in between -/

namespace Elsewhere

theorem refl (s : System K n) : Elsewhere s s := ⟨.refl s, rfl⟩

theorem trans (h₁ : Elsewhere s s') (h₂ : Elsewhere s' u) : Elsewhere s u :=
  ⟨h₁.toClears.trans h₂.toClears, h₂.pressureAt.trans h₁.pressureAt⟩

end Elsewhere

theorem Reads.elsewhere (h : Reads s s') : Elsewhere s s' := ⟨h.clears, by rw [h.controller]⟩

theorem elsewhere_setMode (s : System K n) (mode : Mode) : Elsewhere s (s.setMode mode) :=
  ⟨(Clears.refl s).setMode mode, setMode_pressureAt s mode⟩

theorem elsewhere_adopt (s : System K n) (table : TierTable K) : Elsewhere s (s.adopt table) :=
  ⟨⟨rfl, rfl, .inr ⟨rfl, rfl⟩⟩, rfl⟩

theorem elsewhere_redirect (s : System K n) (now : K) (f : Feedback K n) : Elsewhere s (s.redirect now f).2 := by
  unfold redirect
  dsimp only
  split
  · exact .refl s
  · split
    · exact .refl s
    · generalize hcool : ({ s with router := _ } : System K n) = u
      have hu : Elsewhere s u := hcool ▸ (reads_cool s _ _).elsewhere
      split
      · exact hu
      · exact (hu.trans (elsewhere_setMode u .expanding)).trans ⟨⟨rfl, rfl, .inl ⟨rfl, rfl⟩⟩, rfl⟩

theorem elsewhere_calmDown (s : System K n) (now : K) (f : Feedback K n) : Elsewhere s (s.calmDown now f) := by
  have hcalm : Elsewhere s ({ s with controller := { s.controller with
      expandedAt := none, redirectedAt := none } }.setMode .energy) := by
    refine Elsewhere.trans ?_ (elsewhere_setMode _ _)
    exact ⟨⟨rfl, rfl, .inl ⟨rfl, rfl⟩⟩, rfl⟩
  have hrefl := Elsewhere.refl s
  unfold calmDown
  dsimp only
  split_ifs <;> assumption

/-- The answer to a look. -/
theorem elsewhere_decision {now : K} {v : Verdict K n} {d : Decision} (h : s.decision now v = .ok (d, s')) :
    Elsewhere s s' := by
  obtain rfl | rfl | rfl | rfl := decision_leaves h
  · exact .refl s'
  · exact elsewhere_redirect s now v.feedback
  · exact elsewhere_calmDown s now v.feedback
  · exact (elsewhere_setMode s .expanding).trans ⟨⟨rfl, rfl, .inl ⟨rfl, rfl⟩⟩, rfl⟩

theorem elsewhere_beginFullEffort (s : System K n) (reason : EffortReason) : Elsewhere s (s.beginFullEffort reason) := by
  unfold beginFullEffort
  dsimp only
  generalize hflags : ({ s with controller := _, router := _ } : System K n) = u
  have hu : Elsewhere s u := by
    subst hflags
    exact ⟨⟨rfl, rfl, .inr ⟨rfl, rfl⟩⟩, rfl⟩
  have hoffered := (reads_offered u s.now s.controller.settings.loadWindowS s.controller.settings.burstBucketS).elsewhere
  generalize u.offered s.now s.controller.settings.loadWindowS s.controller.settings.burstBucketS = e at hoffered ⊢
  obtain ⟨⟨rate, burst⟩, v⟩ := e
  exact (hu.trans hoffered).trans ⟨⟨rfl, rfl, .inl ⟨rfl, rfl⟩⟩, rfl⟩

theorem elsewhere_raise (s : System K n) (reason : EffortReason) : Elsewhere s (s.raise reason) := by
  have hmode : Elsewhere s { s.setMode .fullEffort with
      controller := { (s.setMode .fullEffort).controller with redirectedAt := none } } :=
    (elsewhere_setMode s .fullEffort).trans ⟨⟨rfl, rfl, .inl ⟨rfl, rfl⟩⟩, rfl⟩
  unfold raise
  dsimp only
  split
  · exact hmode
  · exact hmode.trans (elsewhere_beginFullEffort _ reason)

theorem elsewhere_endFullEffort (s : System K n) : Elsewhere s s.endFullEffort := ⟨⟨rfl, rfl, .inl ⟨rfl, rfl⟩⟩, rfl⟩

/-! ### What a plan remembers -/

theorem setPlan_remembers (s : System K n) (now : K) (target : Evaluation K) :
    (s.setPlan now target).controller.target = some (target.n, target.point) ∧
      (s.setPlan now target).controller.targetSince =
        if s.controller.target = some (target.n, target.point) then s.controller.targetSince else some now := by
  unfold setPlan
  dsimp only
  by_cases hkey : some (target.n, target.point) = s.controller.target
  · rw [if_pos hkey, if_pos hkey.symm]
    exact ⟨hkey.symm, rfl⟩
  · rw [if_neg hkey, if_neg (Ne.symm hkey)]
    exact ⟨rfl, rfl⟩

theorem planView_seen {now : K} {v : PlanView K n} (h : s.planView now = some v) : SamePlan s v.seen := by
  have hweighs := s.choosePlan_weighs now
  rw [h] at hweighs
  exact hweighs.1

/-- What a call leaves remembered: nothing new without a target, and else the target with its date. -/
structure Remembered (s : System K n) (now : K) (key : Option (ℕ × ClockPoint)) (s' : System K n) : Prop where
  router : s'.router.settings = s.router.settings
  pressureAt : s'.controller.pressureAt = s.controller.pressureAt
  target : s'.controller.target = key.or s.controller.target
  targetSince : s'.controller.targetSince =
    if key.or s.controller.target = s.controller.target then s.controller.targetSince else some now

theorem Called.remembered {now : K} (h : Called s now s') : Remembered s now ((s.planView now).map (·.key)) s' := by
  -- A target that differs from the last one is dated now, and the same one keeps its date.
  have hset {v : PlanView K n} (hv : s.planView now = some v) :
      Remembered s now ((s.planView now).map (·.key)) (v.seen.setPlan now v.target) := by
    have hseen := planView_seen hv
    obtain ⟨htarget, hsince⟩ := setPlan_remembers v.seen now v.target
    rw [hv]
    refine ⟨hseen.router, (setPlan_pressureAt v.seen now v.target).trans hseen.pressureAt, htarget, hsince.trans ?_⟩
    rw [hseen.target, hseen.targetSince]
    exact if_congr eq_comm rfl rfl
  cases h with
  | early hnone same =>
    rw [hnone]
    exact ⟨same.router, same.pressureAt, same.target, same.targetSince.trans (if_pos rfl).symm⟩
  | stays v hv same =>
    obtain ⟨hrouter, hpressure, htarget, hsince⟩ := hset hv
    exact ⟨same.router.trans hrouter, same.pressureAt.trans hpressure, same.target.trans htarget,
      same.targetSince.trans hsince⟩
  | follows v hv saves carried =>
    obtain ⟨hrouter, hpressure, htarget, hsince⟩ := hset hv
    have hmoved : Remembered s now ((s.planView now).map (·.key)) (v.moved now) := by
      unfold PlanView.moved
      dsimp only
      split
      · exact ⟨hrouter, hpressure, htarget, hsince⟩
      · exact ⟨hrouter, hpressure, htarget, hsince⟩
    obtain ⟨u, hu, rfl | ⟨g, hmore, rfl⟩⟩ := carried
    · exact ⟨hu.router.trans hmoved.router, hu.pressureAt.trans hmoved.pressureAt, hu.target.trans hmoved.target,
        hu.targetSince.trans hmoved.targetSince⟩
    · exact ⟨hu.router.trans hmoved.router, hu.pressureAt.trans hmoved.pressureAt, hu.target.trans hmoved.target,
        hu.targetSince.trans hmoved.targetSince⟩

end System

/-! ### The invariant of a run -/

namespace Planning
variable {p q p₀ : Planning K n} {now : K}

/-- Pressure is dated no earlier than it was seen, and since the target is dated no other one was computed. -/
structure Settled (p : Planning K n) : Prop where
  best : p.state.router.settings.overload = .bestEffort
  pressed : ∀ l ∈ p.looks, l.2 = true → (l.1 : WithBot K) ≤ p.state.controller.pressureAt
  targeted : ∀ t, p.state.controller.targetSince = some t → ∀ c ∈ p.calls, t < c.1 → ∀ key ∈ c.2,
    p.state.controller.target = some key

/-- Where the target stays or is cleared, no computed target contradicts it. -/
theorem Settled.targeted_of_clears (h : p.Settled) {s' : System K n} (hs : p.state.Clears s') :
    ∀ t, s'.controller.targetSince = some t → ∀ c ∈ p.calls, t < c.1 → ∀ key ∈ c.2, s'.controller.target = some key := by
  intro t ht c hc hlater key hkey
  rcases hs.target with ⟨htarget, hsince⟩ | ⟨-, hsince⟩
  · rw [htarget]
    exact h.targeted t (hsince.symm.trans ht) c hc hlater key hkey
  · rw [hsince] at ht
    cases ht

theorem Settled.look (h : p.Settled) (hlater : p.Until now) : Settled { p with
    world := { p.world with state := (p.state.observe now).2 }
    looks := p.looks ++ [(now, (p.state.observe now).1.feedback.pressure || (p.state.observe now).1.dExhausted)] } := by
  obtain ⟨hclears, hdated⟩ := p.state.observe_dates now
  refine ⟨?_, fun l hl hpressed => ?_, h.targeted_of_clears hclears⟩
  · exact (congrArg RouterSettings.overload hclears.router).trans h.best
  · show _ ≤ (p.state.observe now).2.controller.pressureAt
    rw [hdated]
    rcases List.mem_append.mp hl with hold | hnew
    · split
      · exact WithBot.coe_le_coe.mpr (hlater.1 l hold)
      · exact h.pressed l hold hpressed
    · obtain rfl := List.mem_singleton.mp hnew
      rw [if_pos hpressed]

theorem Settled.plan (h : p.Settled) (hlater : p.Until now) {w : Runtime K n} (hcalled : p.state.Called now w.state) :
    Settled { p with world := w, calls := p.calls ++ [(now, (p.state.planView now).map (·.key))] } := by
  have hleft := hcalled.remembered
  refine ⟨(congrArg RouterSettings.overload hleft.router).trans h.best, fun l hl hpressed => ?_,
    fun t ht c hc hafter key hkey => ?_⟩
  · exact (h.pressed l hl hpressed).trans_eq hleft.pressureAt.symm
  · replace ht := hleft.targetSince.symm.trans ht
    refine hleft.target.trans ?_
    rcases List.mem_append.mp hc with hold | hnew
    · split_ifs at ht with hsame
      · rw [hsame]
        exact h.targeted t ht c hold hafter key hkey
      · -- The target is dated now, and no earlier call is later.
        cases ht
        exact absurd (hlater.2 c hold) (not_le.mpr hafter)
    · obtain rfl := List.mem_singleton.mp hnew
      replace hkey : (p.state.planView now).map (·.key) = some key := hkey
      rw [hkey]
      rfl

theorem Settled.elsewhere (h : p.Settled) {w : Runtime K n} (hw : p.state.Elsewhere w.state) :
    Settled { p with world := w } where
  best := (congrArg RouterSettings.overload hw.router).trans h.best
  pressed l hl hpressed := (h.pressed l hl hpressed).trans_eq hw.pressureAt.symm
  targeted := h.targeted_of_clears hw.toClears

theorem Settled.called (h : p.Settled) {r : Except Exn Unit} {w : Runtime K n}
    (hends : Co.Ends aloneConduct (CanaTune.plan now) p.world r w) : p.state.Called now w.state := by
  obtain ⟨w₁, -, hleft⟩ := hends.reaches (plan_called h.best p.world p.world trivial rfl)
  cases r with
  | ok _ => exact hleft
  | error _ => exact hleft

theorem Settled.step (h : p.Settled) (hstep : p.Step q) : q.Settled := by
  cases hstep with
  | look now later => exact h.look later
  | plan now later ends => exact h.plan later (h.called ends)
  | elsewhere w between => exact h.elsewhere between

theorem Run.settled (hrun : p₀.Run p) : p.Settled := by
  have hstart : p₀.Settled :=
    ⟨hrun.best, fun l hl => absurd hl (hrun.looks ▸ List.not_mem_nil),
      fun _ _ c hc => absurd hc (hrun.calls ▸ List.not_mem_nil)⟩
  have hsteps := hrun.steps
  induction hsteps with
  | refl => exact hstart
  | tail steps hstep ih => exact (ih ⟨hrun.looks, hrun.calls, hrun.best, steps⟩).step hstep

end Planning

/-! ### Routable groups -/

namespace System
variable {s s' : System K n} {g : Fin n}

theorem mem_routableGroups : g ∈ s.routableGroups ↔ (s.group g).routable = true := by
  unfold routableGroups
  rw [List.mem_filter]
  exact and_iff_right (List.mem_finRange g)

theorem nodup_routableGroups (s : System K n) : s.routableGroups.Nodup := (List.nodup_finRange n).filter _

theorem clockedGroups_eq_routableGroups (s : System K n) : s.clockedGroups = s.routableGroups := by
  unfold clockedGroups activeGroups routableGroups
  rw [List.filter_filter]
  refine List.filter_congr fun g _ => ?_
  rw [Bool.and_comm]
  rfl

theorem routableGroups_congr (h : s'.router.groups = s.router.groups) : s'.routableGroups = s.routableGroups := by
  unfold routableGroups System.group
  rw [h]

/-- Where every routable group stays routable, there are as many. -/
theorem routableGroups_le (h : ∀ g, (s.group g).routable = true → (s'.group g).routable = true) :
    s.routableGroups.length ≤ s'.routableGroups.length :=
  ((nodup_routableGroups s).subperm fun g hg => mem_routableGroups.mpr (h g (mem_routableGroups.mp hg))).length_le

/-- One group that begins to drain is at most one group fewer. -/
theorem routableGroups_take (s : System K n) (g : Fin n) (state : GroupState) :
    s.routableGroups.length ≤ (s.take g state).routableGroups.length + 1 := by
  have hothers : (s.routableGroups.erase g).length ≤ (s.take g state).routableGroups.length := by
    refine (((nodup_routableGroups s).erase g).subperm fun i hi => ?_).length_le
    obtain ⟨hne, hmem⟩ := (nodup_routableGroups s).mem_erase_iff.mp hi
    refine mem_routableGroups.mpr ?_
    show ((s.router.setGroup g fun x => { x with state }).groups i).routable = true
    rw [Router.setGroup_groups, if_neg hne]
    exact mem_routableGroups.mp hmem
  have hone : s.routableGroups.length - 1 ≤ (s.routableGroups.erase g).length := List.le_length_erase
  omega

theorem PlanView.moved_groups (v : PlanView K n) (now : K) : (v.moved now).router.groups = v.seen.router.groups := by
  unfold PlanView.moved
  dsimp only
  split_ifs <;> rfl

theorem not_saved (hpoint : s'.workingPoint = s.workingPoint) (hgroups : s'.router.groups = s.router.groups) :
    ¬s.Saved s' := by
  rintro (hmoved | ⟨g, hbefore, hafter⟩)
  · exact hmoved hpoint
  · exact hbefore (congrArg Group.state (congrFun hgroups g) ▸ hafter)

end System

namespace Planning
variable {p p₀ : Planning K n} {now : K} {v : System.PlanView K n} {r : Except Exn Unit} {w : Runtime K n}

/-! ### A call that saves -/

/-- The target was remembered long enough to have been the only one. -/
theorem Settled.targets (h : p.Settled) (hlater : p.Until now) (hseen : p.state.SamePlan v.seen) (hsaves : v.Saves now)
    {c : K × Option (ℕ × ClockPoint)} (hc : c ∈ p.calls) (hrecent : now - p.state.controller.settings.tDownS < c.1)
    {key : ℕ × ClockPoint} (hkey : key ∈ c.2) : key = v.key := by
  have hheld := hsaves.held
  obtain ⟨htarget, hsince⟩ := System.setPlan_remembers v.seen now v.target
  rw [hsince, hseen.target, hseen.targetSince, hseen.settings] at hheld
  -- A target dated now is held only for a span that has not begun.
  have hnow : ¬p.state.controller.settings.tDownS ≤ now - now := fun hle => by
    have hbefore := hlater.2 c hc
    linarith
  split_ifs at hheld with hsame
  · cases ht : p.state.controller.targetSince with
    | none =>
      rw [ht] at hheld
      exact absurd hheld hnow
    | some t =>
      rw [ht] at hheld
      replace hheld : p.state.controller.settings.tDownS ≤ now - t := hheld
      have hafter : t < c.1 := by linarith
      exact Option.some.inj ((h.targeted t ht c hc hafter key hkey).symm.trans hsame)
  · exact absurd hheld hnow

theorem Settled.calm (h : p.Settled) (hseen : p.state.SamePlan v.seen) (hsaves : v.Saves now) {l : K × Bool}
    (hl : l ∈ p.looks) (hrecent : now - p.state.controller.settings.tDownS < l.1) : l.2 = false := by
  have hcalm := hsaves.calm
  rw [hseen.settings, hseen.pressureAt] at hcalm
  refine Bool.eq_false_of_not_eq_true fun hpressed => ?_
  exact absurd (WithBot.coe_le_coe.mp ((h.pressed l hl hpressed).trans hcalm)) (not_le.mpr hrecent)

theorem routable_of_carried (hseen : p.state.SamePlan v.seen) (hcarried : System.Carried v now w.state)
    (henough : max v.target.n p.state.controller.settings.minActiveGroups ≤ p.state.routableGroups.length) :
    max v.target.n p.state.controller.settings.minActiveGroups ≤ w.state.routableGroups.length := by
  have hsame : v.seen.routableGroups = p.state.routableGroups := System.routableGroups_congr hseen.groups
  obtain ⟨u, hu, hleft⟩ := hcarried
  have hkept : p.state.routableGroups.length ≤ u.routableGroups.length := by
    rw [← hsame, ← System.routableGroups_congr (v.moved_groups now)]
    exact System.routableGroups_le hu.routable
  rcases hleft with hw | ⟨g, hmore, hw⟩
  · rw [hw]
    exact henough.trans hkept
  · rw [System.clockedGroups_eq_routableGroups, hsame, hseen.settings] at hmore
    have hone := u.routableGroups_take g .draining
    rw [hw]
    omega

/-- A call that moves the working point, or lets a group drain, saves deliberately. -/
theorem saving_deliberate (hrun : p₀.Run p) (hlater : p.Until now) (hends : Co.Ends aloneConduct (plan now) p.world r w)
    (hsaved : p.state.Saved w.state) : ∃ v, p.state.planView now = some v ∧ p.Deliberate now w v := by
  have hsettled := hrun.settled
  cases hsettled.called hends with
  | early _ same => exact absurd hsaved (System.not_saved same.workingPoint same.groups)
  | stays v hv same =>
    have hseen := System.planView_seen hv
    exact absurd hsaved (System.not_saved (same.workingPoint.trans hseen.workingPoint) (same.groups.trans hseen.groups))
  | follows v hv saves carried =>
    have hseen := System.planView_seen hv
    have hgroups := saves.groups
    have hprefill := saves.prefillMhz
    have hdecode := saves.decodeMhz
    have hgain := saves.gain
    rw [System.clockedGroups_eq_routableGroups, System.routableGroups_congr hseen.groups] at hgroups
    rw [hseen.workingPoint] at hprefill hdecode
    rw [hseen.settings] at hgain
    exact ⟨v, hv, fun c hc hrecent key hkey => hsettled.targets hlater hseen saves hc hrecent hkey,
      fun l hl hrecent => hsettled.calm hseen saves hl hrecent,
      saves.current, saves.feasible, hgroups, hprefill, hdecode, hgain, routable_of_carried hseen carried⟩

section Small

/-- Two P clocks carry the demand, and the lower one at less power. -/
def twoClocks : ClusterModel ℚ := { Solver.busyModel with
  prefill := Dict.ofList [(900, Dict.ofList [(100, 100)]), (1200, Dict.ofList [(100, 100)])]
  decode := Dict.ofList [(1100, ⟨10, 1 / 10⟩)]
  powerPrefill := Dict.ofList [(900, ⟨50, 0⟩), (1200, ⟨100, 0⟩)]
  powerDecode := Dict.ofList [(1100, ⟨100, 0⟩)] }

theorem hundred_pos : ∀ e ∈ [(100, 10)], 1 ≤ e.1 ∧ 1 ≤ e.2 := by decide

/-- One pair at the higher clock, and nothing remembered. -/
def smallPlanning : Planning ℚ 1 :=
  let table : TierTable ℚ := { smallPublished 1 1 with evidence := ⟨∅, ∅, ∅, none, some twoClocks, none⟩ }
  let router : Router ℚ 1 := { smallCold 1 with
    tiers := ⟨smallMax, some table, none⟩
    lengths := some ⟨[(100, 10)], List.cons_ne_nil _ _, hundred_pos, 1, 1, []⟩ }
  ⟨⟨smallSystem router, ⟨[], [], [], []⟩⟩, [], []⟩

/-- A call whose locks are acknowledged. -/
def planned (p : Planning ℚ 1) (now : ℚ) : Planning ℚ 1 :=
  { p with
    world := ((plan now).play obliging id p.world).2
    calls := p.calls ++ [(now, (p.state.planView now).map (·.key))] }

theorem ends_planned (p : Planning ℚ 1) (now : ℚ) :
    Co.Ends aloneConduct (plan now) p.world ((plan now).play obliging id p.world).1 (planned p now).world :=
  Co.ends_play (c := aloneConduct) (fun w => ⟨w.state.now, w.state.controller.switchS, w.state.pairs, rfl⟩)
    (fun _ _ => trivial) (fun _ => rfl) _ _

/-- A look at `now`, and the decision that answers it. -/
def decided (p : Planning ℚ 1) (now : ℚ) : Planning ℚ 1 :=
  let verdict := (p.state.observe now).1
  let seen := (p.state.observe now).2
  { p with
    world := { p.world with state := (seen.decision now verdict).toOption.elim seen Prod.snd }
    looks := p.looks ++ [(now, verdict.feedback.pressure || verdict.dExhausted)] }

theorem steps_decided {p : Planning ℚ 1} {now : ℚ} (hlater : p.Until now) :
    Relation.ReflTransGen Step p (decided p now) := by
  refine .tail (.single (.look p now hlater)) (.elsewhere _ ⟨_, p.world.tasks⟩ ?_)
  show System.Elsewhere (p.state.observe now).2 _
  cases hdecision : (p.state.observe now).2.decision now (p.state.observe now).1 with
  | ok answer => exact System.elsewhere_decision hdecision
  | error _ => exact .refl _

/-- A tick looks, decides and plans. -/
def ticked (p : Planning ℚ 1) (now : ℚ) : Planning ℚ 1 := planned (decided p now) now

theorem steps_ticked {p : Planning ℚ 1} {now : ℚ} (hlater : p.Until now) : Relation.ReflTransGen Step p (ticked p now) := by
  refine .tail (steps_decided hlater) (.plan (decided p now) now ⟨fun l hl => ?_, hlater.2⟩ (ends_planned _ now))
  rcases List.mem_append.mp hl with hold | hnew
  · exact hlater.1 l hold
  · obtain rfl := List.mem_singleton.mp hnew
    exact le_rfl

/-- The call at 30, `tDownS` after the first, lowers the clock: a tick in between saw no pressure and planned the same. -/
theorem saving_deliberate_twoClocks :
    let p := ticked (planned smallPlanning 0) 20
    ∃ v, p.state.planView 30 = some v ∧ p.Deliberate 30 (planned p 30).world v := by
  have hfirst : (planned smallPlanning 0).Until 20 := by decide +kernel
  have hrun : smallPlanning.Run (ticked (planned smallPlanning 0) 20) :=
    ⟨rfl, rfl, rfl, .head (.plan smallPlanning 0 ⟨nofun, nofun⟩ (ends_planned smallPlanning 0)) (steps_ticked hfirst)⟩
  exact saving_deliberate hrun (by decide +kernel) (ends_planned _ 30) (.inl (by decide +kernel))

end Small

end Planning
end CanaTune
