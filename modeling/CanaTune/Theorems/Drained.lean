import CanaTune.Theorems.Parked

/-! An experiment starts on a drained Canary, unless the Controller makes the claimed Canary serve again first. A start
    looks at the requests in flight only where the Canary drains; a parked or exploring Canary holds none. -/

namespace CanaTune
variable {K : Type} [Scalar K] {n : ℕ}

/-- The start of an experiment: by an earlier claim or not, the Canary's state, and its requests in flight. -/
def Event.start? : Event K n → Option (Bool × GroupState × ℤ)
  | .experiment earlier state nInflight => some (earlier, state, nInflight)
  | _ => none

namespace System

def starts (s : System K n) : List (Bool × GroupState × ℤ) := s.trace.filterMap (·.start?)

theorem mem_starts {s : System K n} {earlier : Bool} {state : GroupState} {k : ℤ} :
    (earlier, state, k) ∈ s.starts ↔ .experiment earlier state k ∈ s.trace := by
  unfold starts
  rw [List.mem_filterMap]
  constructor
  · rintro ⟨e, he, hstart⟩
    cases e
    case experiment =>
      cases hstart
      exact he
    all_goals cases hstart
  · exact fun h => ⟨_, h, rfl⟩

theorem starts_tell (s : System K n) (e : Event K n) : (s.tell e).starts = s.starts ++ e.start?.toList := by
  show (s.trace ++ [e]).filterMap _ = _
  rw [List.filterMap_append]
  cases e <;> rfl

/-- The Controller's own events start nothing. -/
theorem starts_of_others {s s' : System K n}
    (h : s'.trace.filter (!·.isControl) = s.trace.filter (!·.isControl)) : s'.starts = s.starts := by
  have hothers (l : List (Event K n)) : l.filterMap (·.start?) = (l.filter (!·.isControl)).filterMap (·.start?) := by
    rw [List.filterMap_filter]
    refine List.filterMap_congr fun e _ => ?_
    cases e <;> rfl
  rw [starts, starts, hothers, hothers s.trace, h]

/-- No act starts an experiment. -/
theorem Act.starts {s s' : System K n} (h : Act s s') : s'.starts = s.starts := by
  have htell (e : Event K n) (he : e.start? = none) : (s.tell e).starts = s.starts := by
    rw [starts_tell, he]
    exact List.append_nil _
  cases h with
  | apart same => exact starts_of_others same.others
  | note e canary =>
    refine htell e ?_
    rcases canary with rfl | rfl | ⟨tier, rfl⟩ <;> rfl
  | take g state => exact htell (.taken (s.group g).state) rfl
  | clock change =>
    cases change with
    | beginTier => rfl
    | settleTier g tier call ok =>
      unfold System.settleTier
      dsimp only
      split_ifs <;> (try split) <;> rfl
  | activate | drain | release | park | pend | noteDrain | setRetry | lockControl => rfl

/-- Every experiment so far started on an idle Canary, and an exploring group holds no request. -/
structure Drained (s : System K n) : Prop where
  idle : ∀ g, (s.group g).state = .exploring → (s.group g).nInflight = 0
  starts : ∀ x ∈ s.starts, x.2.2 = 0

/-- No experiment started on an earlier claim while the Canary served again. -/
def Kept (s : System K n) : Prop := ∀ k, (true, .active, k) ∉ s.starts

namespace Drained
variable {s s' : System K n} {g : Fin n}

/-- A group changes its state: it explores only without a request in flight. -/
theorem setGroup (h : Drained s) {f : Group K → Group K} (hcount : ∀ x, (f x).nInflight = x.nInflight)
    (hidle : (f (s.group g)).state = .exploring → (s.group g).nInflight = 0) : Drained (s.setGroup g f) where
  idle i hi := by
    have hi : ((s.router.setGroup g f).groups i).state = .exploring := hi
    show ((s.router.setGroup g f).groups i).nInflight = 0
    rw [Router.setGroup_groups] at hi ⊢
    split_ifs at hi ⊢ with heq
    · exact (hcount _).trans (hidle hi)
    · exact h.idle i hi
  starts := h.starts

theorem setState (h : Drained s) {state : GroupState} (hidle : state = .exploring → (s.group g).nInflight = 0) :
    Drained (s.setState g state) := h.setGroup (fun _ => rfl) hidle

theorem act (h : Drained s) (ha : Act s s') : Drained s' := by
  refine ⟨?_, ha.starts ▸ h.starts⟩
  cases ha with
  | apart same =>
    intro g hg
    have hgroup : s'.group g = s.group g := congrFun same.groups g
    rw [hgroup] at hg ⊢
    exact h.idle g hg
  | activate g => exact (h.setState (by simp)).idle
  | drain g => exact (h.setState (by simp)).idle
  | take g state serving =>
    have hserves : state = .exploring → (s.group g).nInflight = 0 := by
      rintro rfl
      rcases serving with hs | hs <;> cases hs
    exact (h.setState hserves).idle
  | release g =>
    exact (h.setGroup (g := g) (f := fun x => { x with state := .active, effective := none }) (fun _ => rfl) (by simp)).idle
  | park g => exact (h.setState (by simp)).idle
  | clock change =>
    intro g hg
    rw [change.read (f := (·.state)) (fun _ _ _ => rfl)] at hg
    rw [change.read (f := (·.nInflight)) (fun _ _ _ => rfl)]
    exact h.idle g hg
  | note | pend | noteDrain | setRetry | lockControl => exact h.idle

/-- A ticket joins routable groups only. -/
theorem router (h : Drained s) (hrest : s.router.Resting) {e : Outside K n} {r : Router K n}
    (ha : routerActs s.router e = some r) :
    Drained { s with router := r } where
  idle g hg := by
    have hcontrol := Router.control_acts ha g
    simp only [Group.control, Prod.mk.injEq] at hcontrol
    have hbefore : (s.router.groups g).state = .exploring := hcontrol.2.1.symm.trans hg
    have hidle : (s.router.groups g).nInflight = 0 := h.idle g hbefore
    show (r.groups g).nInflight = 0
    cases Router.acted ha with
    | clock => exact hidle
    | apart _ groups =>
      rw [groups]
      exact hidle
    | issued hi hp hd => exact (hi.nInflight hp hd (by simp [Group.routable, hbefore])).trans hidle
    | operated ho => exact hrest.counted.nInflight_operated ho hidle
    | progress i tpotMs =>
      rw [Router.tokenProgress_groups]
      exact hidle
  starts := h.starts

/-- A start finds the Canary drained, parked or exploring already. -/
theorem beginExperiment (h : Drained s) (hrest : s.router.Resting) {task : ℕ} {earlier : Bool}
    (hdrained : (s.group g).state = .draining → (s.group g).nInflight = 0) (hown : (s.group g).state ≠ .active) :
    Drained (s.beginExperiment g task earlier) := by
  have hidle : (s.group g).nInflight = 0 := by
    cases hstate : (s.group g).state with
    | active => exact absurd hstate hown
    | draining => exact hdrained hstate
    | park => exact hrest.idle g (.inl hstate)
    | exploring => exact h.idle g hstate
  have hset : Drained (s.setState g .exploring) := h.setState fun _ => hidle
  refine ⟨hset.idle, ?_⟩
  unfold System.beginExperiment
  rw [starts_tell]
  intro x hx
  rcases List.mem_append.mp hx with hx | hx
  · exact h.starts x hx
  · obtain rfl := List.mem_singleton.mp hx
    exact hidle

end Drained
end System

/-! ### Every run -/

theorem starts_beginExperiment (s : System K n) (g : Fin n) (task : ℕ) (earlier : Bool) :
    (s.beginExperiment g task earlier).starts = s.starts ++ [(earlier, (s.group g).state, (s.group g).nInflight)] :=
  System.starts_tell _ _

/-- What is known where no experiment started too early. -/
def Watched (s : System K n) : Prop := s.router.Resting ∧ (s.Kept → s.Drained)

namespace Watched
variable {s s' : System K n}

/-- Nothing starts. -/
theorem step (h : Watched s) (hrest : s'.router.Resting) (hstarts : s'.starts = s.starts)
    (hdrained : s.Drained → s'.Drained) :
    Watched s' :=
  ⟨hrest, fun hkept => hdrained (h.2 fun k hk => hkept k (hstarts ▸ hk))⟩

end Watched

theorem watched_invariant : Invariant fun _ (s : System K n) => Watched s where
  act h ha := h.step (System.resting_act h.1 ha) ha.starts fun hd => hd.act ha
  move {_ _ s s'} h ha _ := by
    refine h.step (h.1.same ha.groups ha.tickets ha.settings) (System.starts_of_others ha.others) fun hd =>
      ⟨fun g hg => ?_, ?_⟩
    · have hgroup : s'.group g = s.group g := congrFun ha.groups g
      rw [hgroup] at hg ⊢
      exact hd.idle g hg
    · rw [System.starts_of_others ha.others]
      exact hd.starts
  steady h := h
  experiment {_ s g task earlier} h _ hdrained hown := by
    have hstarts := starts_beginExperiment s g task earlier
    refine ⟨(System.resting_setState h.1 g (by simp)).same rfl rfl rfl, fun hkept => ?_⟩
    -- The starts told before this one are among those that hold the condition.
    have hbefore : s.Kept := fun k hk => hkept k (hstarts ▸ List.mem_append_left _ hk)
    refine (h.2 hbefore).beginExperiment h.1 hdrained fun hactive => ?_
    cases earlier with
    | false => exact hown rfl hactive
    | true =>
      refine hkept (s.group g).nInflight ?_
      rw [hstarts, hactive]
      exact List.mem_append_right _ (List.mem_singleton_self _)
  start {_ s g state} h hpark hstate := by
    refine h.step (System.resting_setState h.1 g fun hp => ?_) rfl fun hd => hd.setState fun _ => h.1.idle g (.inl hpark)
    subst hp
    rcases hstate with hs | hs <;> cases hs
  serve {_ s g} h _ := h.step (System.resting_setState h.1 g (by simp)) rfl fun hd => hd.setState (by simp)
  router h hr := h.step (h.1.acts hr) rfl fun hd => hd.router h.1 hr
  pairs _ h := h.step h.1 rfl fun hd => ⟨hd.idle, hd.starts⟩

theorem watched_built {s : System K n} (h : Built s) (hkv : 0 ≤ s.router.settings.kvBytesPerToken) : Watched s := by
  refine ⟨resting_built h hkv, fun _ => ⟨fun g hg => ?_, ?_⟩⟩
  · rw [h.groups g]
    rfl
  · unfold System.starts
    rw [h.trace]
    simp

/-- In every run in which no experiment starts on an earlier claim while the Canary serves again, every experiment starts
    on a Canary without a request in flight. -/
theorem experiments_drained {s : System K n} (hbuilt : Built s) (hkv : 0 ≤ s.router.settings.kvBytesPerToken)
    {ticks steps : ℕ}
    {p : Pool (Label n) (System K n) (Op n) (Op.Ans K) Exn} (hrun : runtime.Run (boot s (.runtime ticks steps)) p)
    (hkept : ∀ k, .experiment true .active k ∉ p.world.state.trace) (earlier : Bool) (state : GroupState) (k : ℤ)
    (hstart : .experiment earlier state k ∈ p.world.state.trace) : k = 0 := by
  have h : Watched p.world.state := watched_invariant.run hbuilt (watched_built hbuilt hkv) hrun
  have hdrained := h.2 fun i hi => hkept i (System.mem_starts.mp hi)
  exact hdrained.starts _ (System.mem_starts.mpr hstart)

section Small

/-- The pool has a published profile, and its requests alternate between the groups. -/
def roundRobinBuilt : System ℚ 2 :=
  { smallBuilt 2 with router := { (smallBuilt 2).router with
      settings := { smallSettings with theta := 1, groupChoice := .roundRobin }
      tiers := ⟨smallMax, some (smallPublished 1 1), none⟩ } }

theorem built_roundRobinBuilt : Built roundRobinBuilt :=
  ⟨fun _ => rfl, rfl, rfl, rfl, rfl, rfl, rfl⟩

/-- Both groups serve, a request is on the Canary, and the scheduler claims it. -/
def untilClaimed : List (Choice (Op 2) (Op.Ans ℚ) Exn (Outside ℚ 2)) :=
  [.begin 0, .outside (.prefillGpu 1 true true), .outside (.decodeGpu 1 true true), .resume 0 obliging,
    .outside (.prefillGpu 0 true true), .outside (.decodeGpu 0 true true), .resume 0 obliging,
    .outside .newWaiter, .outside (.attempt 0 512 true 0), .begin 2]

/-- The request finishes; the scheduler's next step finds the Canary drained. -/
theorem experiments_drained_finished : ∃ p, runtime.Run (boot roundRobinBuilt (.runtime 5 5)) p ∧
    .experiment true .draining 0 ∈ p.world.state.trace ∧
    ∀ earlier state k, .experiment earlier state k ∈ p.world.state.trace → k = 0 := by
  have hexec : ((runtime.exec (boot roundRobinBuilt (.runtime 5 5)) (untilClaimed ++
      [.outside (.finish 0 false none none 0), .resume 2 obliging])).any fun p =>
        decide (p.world.state.trace = [.experiment true .draining 0])) = true := by
    decide +kernel
  obtain ⟨p, hp, htold⟩ := (Option.any_eq_true _ _).mp hexec
  have htold := of_decide_eq_true htold
  have hrun : runtime.Run (boot roundRobinBuilt (.runtime 5 5)) p := Loop.Run.refl.exec hp
  refine ⟨p, hrun, by simp [htold], experiments_drained built_roundRobinBuilt (by decide +kernel) hrun fun k hk => ?_⟩
  rw [htold] at hk
  simp at hk

/-- Pressure of three ticks makes the claimed Canary serve again; the scheduler's next step starts the experiment with
    the request in flight. -/
theorem untilClaimed_expanded : ∃ p, runtime.Run (boot roundRobinBuilt (.runtime 5 5)) p ∧
    .experiment true .active 1 ∈ p.world.state.trace ∧
    (p.world.state.group 0).state = .exploring ∧ (p.world.state.group 0).nInflight = 1 := by
  have hexec : ((runtime.exec (boot roundRobinBuilt (.runtime 5 5)) (untilClaimed ++
      [.outside (.clock 1), .begin 1, .resume 1 obliging, .outside (.clock 2), .resume 1 obliging, .outside (.clock 3),
        .resume 1 obliging, .resume 2 obliging])).any fun p =>
        decide (.experiment true .active 1 ∈ p.world.state.trace ∧ (p.world.state.group 0).state = .exploring ∧
          (p.world.state.group 0).nInflight = 1)) = true := by
    decide +kernel
  obtain ⟨p, hp, hstarted⟩ := (Option.any_eq_true _ _).mp hexec
  exact ⟨p, Loop.Run.refl.exec hp, of_decide_eq_true hstarted⟩

end Small
end CanaTune
