import CanaTune.Theorems.Reads

/-! What a call of the plan weighs, and what it remembers. A call that has a target stays where it is, or switches; in
    best effort it switches only to what needs no more and saves enough, after a hold and a calm of `tDownS`. -/

namespace CanaTune
variable {K : Type} [Scalar K] {n : ℕ}

namespace System

/-- The groups in state active, and those of them that confirmed their clocks. -/
def activeGroups (s : System K n) : List (Fin n) := (List.finRange n).filter fun g => (s.group g).state = .active

def clockedGroups (s : System K n) : List (Fin n) := s.activeGroups.filter fun g => (s.group g).effective.isSome

/-- Active and parked groups: the most a plan may count on. -/
def servingGroups (s : System K n) : List (Fin n) :=
  (List.finRange n).filter fun g => (s.group g).state = .active ∨ (s.group g).state = .park

/-- What a call of the plan weighs: the current configuration under the present demand, and the target. -/
structure PlanView (K : Type) [Scalar K] (n : ℕ) where
  current : Evaluation K
  target : Evaluation K
  /-- The system as the target is known. -/
  seen : System K n

/-- What a call of the plan weighs; `none` where it returns, or raises, before it has a target. -/
def planView (s : System K n) (now : K) : Option (PlanView K n) :=
  match s.solver with
  | (none, _) => none
  | (some solver, s) =>
    let ((rate, lengths), s) := s.demand now
    if lengths = [] then none
    else
      let s := s.noteDemand now rate
      match solver.evaluate rate lengths (max s.clockedGroups.length 1) s.workingPoint with
      | .error _ => none
      | .ok current =>
        match solver.solve (((s.controller.demand.map (·.2)).max?).getD rate) lengths s.controller.settings.minActiveGroups
            s.servingGroups.length with
        | .error _ => none
        | .ok target => some ⟨current, target, s⟩

/-- The target as a plan remembers it. -/
def PlanView.key (v : PlanView K n) : ℕ × ClockPoint := (v.target.n, v.target.point)

/-- What a plan remembers, and the groups and clocks it counts on, stay. -/
structure SamePlan (s s' : System K n) : Prop where
  settings : s'.controller.settings = s.controller.settings
  router : s'.router.settings = s.router.settings
  target : s'.controller.target = s.controller.target
  targetSince : s'.controller.targetSince = s.controller.targetSince
  pressureAt : s'.controller.pressureAt = s.controller.pressureAt
  tiers : s'.router.tiers = s.router.tiers
  groups : s'.router.groups = s.router.groups

namespace SamePlan
variable {s s' u : System K n}

theorem refl (s : System K n) : SamePlan s s := ⟨rfl, rfl, rfl, rfl, rfl, rfl, rfl⟩

theorem trans (h₁ : SamePlan s s') (h₂ : SamePlan s' u) : SamePlan s u where
  settings := h₂.settings.trans h₁.settings
  router := h₂.router.trans h₁.router
  target := h₂.target.trans h₁.target
  targetSince := h₂.targetSince.trans h₁.targetSince
  pressureAt := h₂.pressureAt.trans h₁.pressureAt
  tiers := h₂.tiers.trans h₁.tiers
  groups := h₂.groups.trans h₁.groups

theorem workingPoint (h : SamePlan s s') : s'.workingPoint = s.workingPoint := by
  unfold System.workingPoint
  rw [h.tiers]

end SamePlan

theorem Reads.samePlan {s s' : System K n} (h : Reads s s') : SamePlan s s' where
  settings := h.settings
  router := h.router.settings
  target := by rw [h.controller]
  targetSince := by rw [h.controller]
  pressureAt := by rw [h.controller]
  tiers := h.router.tiers
  groups := h.router.groups

theorem samePlan_noteDemand (s : System K n) (now rate : K) : SamePlan s (s.noteDemand now rate) :=
  ⟨rfl, rfl, rfl, rfl, rfl, rfl, rfl⟩

/-- A warning changes the mode where no other resources come into play. -/
theorem samePlan_warnCapacity (s : System K n) (now : K) : SamePlan s (s.warnCapacity now) := by
  unfold warnCapacity
  split
  case isTrue hmode =>
    unfold setMode
    simp only [hmode]
    exact ⟨rfl, rfl, rfl, rfl, rfl, rfl, rfl⟩
  case isFalse => exact .refl s

/-- The step of a plan that is carried out. -/
def PlanView.step (v : PlanView K n) : PlanStep n where
  target := v.target.n
  point := v.target.point
  active := v.seen.activeGroups
  routable := v.seen.clockedGroups
  minimum := v.seen.controller.settings.minActiveGroups
  moved := decide (v.target.point ≠ v.seen.workingPoint)

/-- The target is remembered, and becomes the working point. -/
def PlanView.moved (v : PlanView K n) (now : K) : System K n :=
  let s := v.seen.setPlan now v.target
  if v.target.point = v.seen.workingPoint then s
  else { s with router := { s.router with tiers := { s.router.tiers with working := some v.target.point } } }

/-- The target needs no more and saves enough, for long enough. -/
structure PlanView.Saves (v : PlanView K n) (now : K) : Prop where
  current : v.current.feasible = true
  feasible : v.target.feasible = true
  groups : v.target.n ≤ v.seen.clockedGroups.length
  prefillMhz : v.target.point.prefillMhz ≤ v.seen.workingPoint.prefillMhz
  decodeMhz : v.target.point.decodeMhz ≤ v.seen.workingPoint.decodeMhz
  held : v.seen.controller.settings.tDownS ≤ now - (v.seen.setPlan now v.target).controller.targetSince.getD now
  calm : v.seen.controller.pressureAt ≤ ((now - v.seen.controller.settings.tDownS : K) : WithBot K)
  gain : v.seen.controller.settings.switchGain * v.current.powerW < v.current.powerW - v.target.powerW

/-- What a call with a target answers, and the system it leaves. -/
inductive Weighed (v : PlanView K n) (now : K) : Except ModelError (Option (PlanStep n)) × System K n → Prop
  | stays {s' : System K n} (same : SamePlan (v.seen.setPlan now v.target) s') : Weighed v now (.ok none, s')
  | switches (saves : v.seen.router.settings.overload = .bestEffort → v.Saves now) :
      Weighed v now (.ok (some v.step), v.moved now)

theorem setPlan_pressureAt (s : System K n) (now : K) (target : Evaluation K) :
    (s.setPlan now target).controller.pressureAt = s.controller.pressureAt := by
  unfold setPlan
  dsimp only
  split_ifs <;> rfl

/-- The end of a call, once it has a target. -/
theorem weighed_of_target (v : PlanView K n) (now : K) :
    let s := v.seen.setPlan now v.target
    let point := v.seen.workingPoint
    let c := v.seen.controller.settings
    let saved := v.current.powerW - v.target.powerW
    Weighed v now (
      if s.router.settings.overload = .bestEffort ∧ (!v.target.feasible ∨ !v.current.feasible ∨
          v.seen.clockedGroups.length < v.target.n ∨ point.prefillMhz < v.target.point.prefillMhz ∨
          point.decodeMhz < v.target.point.decodeMhz) then
        (.ok none, s.warnCapacity now)
      else if (v.target.n, v.target.point) = (v.seen.clockedGroups.length, point) then (.ok none, s)
      else if !v.current.feasible ∨ (decide (c.tDownS ≤ now - s.controller.targetSince.getD now) ∧
          decide (s.controller.pressureAt ≤ ((now - c.tDownS : K) : WithBot K)) ∧
          (decide (c.switchGain * v.current.powerW < saved) &&
            decide (2 * s.controller.switchS * max v.current.powerW v.target.powerW < saved * c.tDownS))) then
        (.ok (some v.step), v.moved now)
      else (.ok none, s)) := by
  intro s point c saved
  split
  · exact .stays (samePlan_warnCapacity s now)
  case isFalse hbelow =>
    split
    · exact .stays (.refl s)
    · split
      case isTrue hswitch =>
        refine .switches fun hbest => ?_
        have hnot : ¬(!v.target.feasible ∨ !v.current.feasible ∨ v.seen.clockedGroups.length < v.target.n ∨
            point.prefillMhz < v.target.point.prefillMhz ∨ point.decodeMhz < v.target.point.decodeMhz) :=
          fun h => hbelow ⟨hbest, h⟩
        simp only [not_or, Bool.not_eq_true', Bool.not_eq_false, not_lt] at hnot
        obtain ⟨hfeasible, hcurrent, hgroups, hprefill, hdecode⟩ := hnot
        simp only [hcurrent, Bool.not_true, Bool.false_eq_true, false_or, Bool.and_eq_true, decide_eq_true_eq] at hswitch
        obtain ⟨hheld, hcalm, hgain, -⟩ := hswitch
        exact ⟨hcurrent, hfeasible, hgroups, hprefill, hdecode, hheld,
          setPlan_pressureAt v.seen now v.target ▸ hcalm, hgain⟩
      case isFalse => exact .stays (.refl s)

/-- The whole of a call. -/
theorem choosePlan_weighs (s : System K n) (now : K) : (s.planView now).elim
    ((∀ p, (s.choosePlan now).1 ≠ .ok (some p)) ∧ SamePlan s (s.choosePlan now).2)
    fun v => SamePlan s v.seen ∧ Weighed v now (s.choosePlan now) := by
  have hnothing (p : PlanStep n) : (.ok none : Except ModelError (Option (PlanStep n))) ≠ .ok (some p) := by
    intro h
    cases h
  have hraised (e : ModelError) (p : PlanStep n) : (.error e : Except ModelError (Option (PlanStep n))) ≠ .ok (some p) := by
    intro h
    cases h
  have hsolver := (reads_solver s).samePlan
  unfold planView choosePlan
  generalize System.solver s = e at hsolver ⊢
  obtain ⟨solver, s'⟩ := e
  cases solver with
  | none => exact ⟨hnothing, hsolver⟩
  | some solver =>
    have hdemand := hsolver.trans (reads_demand s' now).samePlan
    have hsettings := (reads_demand s' now).settings
    dsimp only at hdemand ⊢
    generalize s'.demand now = e at hdemand hsettings ⊢
    obtain ⟨⟨rate, lengths⟩, t⟩ := e
    dsimp only at hdemand hsettings ⊢
    by_cases hlengths : lengths = []
    · simp only [hlengths, if_true]
      exact ⟨hnothing, hdemand⟩
    simp only [hlengths, if_false]
    -- From here on the call only reads the state it has reached.
    have hseen := hdemand.trans (samePlan_noteDemand t now rate)
    have hgroup : ∀ g, t.group g = (t.noteDemand now rate).group g := fun _ => rfl
    replace hsettings : s'.controller.settings = (t.noteDemand now rate).controller.settings := hsettings.symm
    rw [hsettings]
    simp only [hgroup]
    generalize t.noteDemand now rate = u at hseen ⊢
    have hclocked : (List.filter (fun g => (u.group g).effective.isSome)
        (List.filter (fun g => decide ((u.group g).state = .active)) (List.finRange n))) = u.clockedGroups := rfl
    rw [hclocked]
    cases hcurrent : solver.evaluate rate lengths (max u.clockedGroups.length 1) u.workingPoint with
    | error e => exact ⟨hraised e, hseen⟩
    | ok current =>
      dsimp only
      have hserving : (List.filter (fun g => decide ((u.group g).state = .active ∨ (u.group g).state = .park))
          (List.finRange n)) = u.servingGroups := rfl
      rw [hserving]
      cases htarget : solver.solve (((u.controller.demand.map (·.2)).max?).getD rate) lengths
          u.controller.settings.minActiveGroups u.servingGroups.length with
      | error e => exact ⟨hraised e, hseen⟩
      | ok target => exact ⟨hseen, weighed_of_target ⟨current, target, u⟩ now⟩

end System
end CanaTune
