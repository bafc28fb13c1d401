import CanaTune.Theorems.Runs
import CanaTune.Theorems.Saving

/-! Without production evidence the Controller adds no resources. A tick that sees neither pressure nor an exhausted D
    stays in energy or warning mode, and what it locks, parks or plans never raises a clock or wakes a group. -/

namespace CanaTune
variable {K : Type} [Scalar K] {n : ℕ} {α : Type}

/-- A tick saw pressure, or no safe D. -/
def Event.evident : Event K n → Bool
  | .verdict _ pressure exhausted _ _ => pressure || exhausted
  | _ => false

namespace Signs

/-- Some tick saw evidence after the Controller had told `k` things. -/
def Evident (e : Signs K n) (k : ℕ) : Prop := ∃ x ∈ e.history.drop k, x.evident = true

/-- Nothing is under way, and no remembered tick saw pressure. -/
structure Modest (e : Signs K n) : Prop where
  mode : e.mode = .energy ∨ e.mode = .warning
  fullEffort : e.fullEffort = false
  ticks : ∀ t ∈ e.pressureTicks, t.2 = false

/-- The last tick saw no evidence, either. -/
structure Unpressed (e : Signs K n) : Prop extends Modest e where
  confirmSince : e.confirmSince = none
  severeSince : e.severeSince = none
  last : ∀ at_ pressure since admittedSince, e.history.getLast? ≠ some (.verdict at_ pressure true since admittedSince)

theorem evident_append {e e' : Signs K n} {k : ℕ} {told : List (Event K n)} (h : e.Evident k)
    (ht : e'.history = e.history ++ told) :
    e'.Evident k := by
  obtain ⟨x, hx, hevident⟩ := h
  refine ⟨x, ?_, hevident⟩
  rw [ht]
  exact ((List.prefix_append e.history told).drop k).subset hx

/-- A tick sees evidence, or remembers none. -/
theorem Modest.observe {e : Signs K n} (h : e.Modest) {k : ℕ} (hk : k ≤ e.history.length) {now : K}
    {warned pressure severe exhausted : Bool} (near : severe = true → pressure = true) :
    (e.observe now warned pressure severe exhausted).Evident k ∨
    (e.observe now warned pressure severe exhausted).Unpressed := by
  by_cases hevident : (pressure || exhausted) = true
  · refine .inl ⟨Event.verdict now pressure exhausted e.since.1 e.since.2, ?_, hevident⟩
    show Event.verdict now pressure exhausted e.since.1 e.since.2 ∈ (e.history ++ [_]).drop k
    rw [List.drop_append_of_le_length hk]
    exact List.mem_append_right _ (List.mem_singleton_self _)
  · obtain ⟨rfl, rfl⟩ : pressure = false ∧ exhausted = false := by simpa using hevident
    obtain rfl : severe = false := Bool.eq_false_iff.mpr fun hs => Bool.false_ne_true (near hs)
    refine .inr ⟨⟨?_, h.fullEffort, fun t ht => ?_⟩, rfl, rfl, fun at_ pressure since admittedSince hlast => ?_⟩
    · have hmode := h.mode
      show observed e.mode warned false = .energy ∨ observed e.mode warned false = .warning
      unfold observed
      rcases hmode with hmode | hmode <;> cases warned <;> simp [hmode]
    · have ht : t ∈ e.pressureTicks ++ [(now, false)] := (List.dropWhile_sublist _).subset ht
      rcases List.mem_append.mp ht with ht | ht
      · exact h.ticks t ht
      · obtain rfl := List.mem_singleton.mp ht
        rfl
    · change (e.history ++ [_]).getLast? = _ at hlast
      rw [List.getLast?_append, List.getLast?_singleton] at hlast
      cases hlast

/-- No share is taken of ticks none of which saw pressure. -/
theorem not_mostly (c : ControllerSettings K) {ticks : List (K × Bool)} (h : ∀ t ∈ ticks, t.2 = false) :
    c.mostly ticks = false := by
  have hcount : ticks.countP (·.2) = 0 := List.countP_eq_zero.mpr fun t ht => by simp [h t ht]
  rw [ControllerSettings.mostly, Bool.and_eq_false_iff]
  by_cases hlength : c.shareTicks ≤ ticks.length
  · refine .inr (decide_eq_false ?_)
    have hthree : 3 ≤ c.shareTicks := by
      unfold ControllerSettings.shareTicks
      omega
    have hpos : (0 : K) < ticks.length := by exact_mod_cast show 0 < ticks.length by omega
    rw [hcount, Nat.cast_zero, not_le]
    exact mul_pos c.confirmFraction_pos hpos
  · exact .inl (decide_eq_false hlength)

theorem Unpressed.confirmed {e : Signs K n} (h : e.Unpressed) (now : K) : e.confirmed now = false := by
  rw [Signs.confirmed, h.confirmSince, not_mostly e.settings h.ticks]
  rfl

end Signs

namespace System
variable {s s' u : System K n} {g : Fin n}

/-- What adds no resources. -/
structure Frugal (s s' : System K n) : Prop where
  max : ∀ g, (s'.group g).tier = .max → (s.group g).tier = .max
  parked : ∀ g, (s.group g).state = .park → (s'.group g).state ≠ .active
  prefillMhz : s'.workingPoint.prefillMhz ≤ s.workingPoint.prefillMhz
  decodeMhz : s'.workingPoint.decodeMhz ≤ s.workingPoint.decodeMhz

/-- What a tick does without evidence: no group begins to serve. -/
structure Spares (s s' : System K n) : Prop where
  max : ∀ g, (s'.group g).tier = .max → (s.group g).tier = .max
  active : ∀ g, (s'.group g).state = .active → (s.group g).state = .active
  prefillMhz : s'.workingPoint.prefillMhz ≤ s.workingPoint.prefillMhz
  decodeMhz : s'.workingPoint.decodeMhz ≤ s.workingPoint.decodeMhz

namespace Spares

theorem refl (s : System K n) : Spares s s := ⟨fun _ h => h, fun _ h => h, le_rfl, le_rfl⟩

theorem trans (h₁ : Spares s s') (h₂ : Spares s' u) : Spares s u where
  max g h := h₁.max g (h₂.max g h)
  active g h := h₁.active g (h₂.active g h)
  prefillMhz := h₂.prefillMhz.trans h₁.prefillMhz
  decodeMhz := h₂.decodeMhz.trans h₁.decodeMhz

theorem frugal (h : Spares s s') : Frugal s s' where
  max := h.max
  parked g hpark hactive := GroupState.noConfusion (hpark.symm.trans (h.active g hactive))
  prefillMhz := h.prefillMhz
  decodeMhz := h.decodeMhz

theorem of_same (hgroups : s'.router.groups = s.router.groups) (htiers : s'.router.tiers = s.router.tiers) :
    Spares s s' := by
  have hgroup (g : Fin n) : s'.group g = s.group g := congrFun hgroups g
  have hpoint : s'.workingPoint = s.workingPoint := by
    unfold System.workingPoint
    rw [htiers]
  refine ⟨fun g hg => ?_, fun g hg => ?_, by rw [hpoint], by rw [hpoint]⟩
  · rwa [hgroup g] at hg
  · rwa [hgroup g] at hg

/-- A group's record changes, neither to MAX nor to service. -/
theorem setGroup {f : Group K → Group K} (hmax : (f (s.group g)).tier = .max → (s.group g).tier = .max)
    (hactive : (f (s.group g)).state = .active → (s.group g).state = .active) : Spares s (s.setGroup g f) where
  max i hi := by
    have hi : ((s.router.setGroup g f).groups i).tier = .max := hi
    rw [Router.setGroup_groups] at hi
    split_ifs at hi with h
    · exact h ▸ hmax hi
    · exact hi
  active i hi := by
    have hi : ((s.router.setGroup g f).groups i).state = .active := hi
    rw [Router.setGroup_groups] at hi
    split_ifs at hi with h
    · exact h ▸ hactive hi
    · exact hi
  prefillMhz := le_rfl
  decodeMhz := le_rfl

/-- The working point moves to lower clocks. -/
theorem moveTo {point : ClockPoint} (hp : point.prefillMhz ≤ s.workingPoint.prefillMhz)
    (hd : point.decodeMhz ≤ s.workingPoint.decodeMhz) :
    Spares s { s with router := { s.router with tiers := { s.router.tiers with working := some point } } } := by
  have hpoint :
      System.workingPoint { s with router := { s.router with tiers := { s.router.tiers with working := some point } } } =
        s.workingPoint ∨
      System.workingPoint { s with router := { s.router with tiers := { s.router.tiers with working := some point } } } =
        point := by
    unfold System.workingPoint TierState.clocks
    cases s.router.tiers.table with
    | none => exact .inl rfl
    | some table => exact .inr rfl
  refine ⟨fun _ h => h, fun _ h => h, ?_, ?_⟩
  · rcases hpoint with h | h
    · rw [h]
    · rwa [h]
  · rcases hpoint with h | h
    · rw [h]
    · rwa [h]

end Spares

/-! ### A tick without evidence -/

theorem tiers_setMode (s : System K n) (mode : Mode) : (s.setMode mode).router.tiers = s.router.tiers := by
  unfold setMode
  split_ifs <;> rfl

theorem tiers_observe (s : System K n) (now : K) : (s.observe now).2.router.tiers = s.router.tiers := by
  have hwarning : (s.noteWarning now).router.tiers = s.router.tiers := by
    unfold noteWarning
    dsimp only
    split_ifs
    · exact tiers_setMode _ _
    · rfl
    · rfl
  have hremember (u : System K n) (f : Feedback K n) : (u.remember now f).router.tiers = u.router.tiers := by
    unfold remember
    dsimp only
    split
    · exact tiers_setMode _ _
    · rfl
  have hexhausted (u : System K n) : (u.dExhausted now).2.router.tiers = u.router.tiers := by
    exact (Router.quiet_dExhaustedCount u.router now u.controller.settings.dTriggerWindowS).tiers
  have hfeedback := (reads_productionFeedback (s.noteWarning now)).router.tiers
  exact (hexhausted _).trans ((hremember _ _).trans (hfeedback.trans hwarning))

theorem spares_observe (s : System K n) (now : K) : Spares s (s.observe now).2 :=
  .of_same (aside_observe s now).groups (tiers_observe s now)

theorem spares_calmDown (s : System K n) (now : K) (f : Feedback K n) : Spares s (s.calmDown now f) := by
  have hcalm := tiers_setMode
    ({ s with controller := { s.controller with expandedAt := none, redirectedAt := none } }) .energy
  refine .of_same (aside_calmDown s now f).groups ?_
  unfold calmDown
  dsimp only
  split_ifs <;> first | exact hcalm | rfl

theorem modest_calmDown (h : s.signs.Modest) (now : K) (f : Feedback K n) : (s.calmDown now f).signs.Modest := by
  have hcalm :
      ({ s with controller := { s.controller with expandedAt := none, redirectedAt := none } }.setMode
        .energy).signs.Modest := by
    rw [signs_setMode]
    exact ⟨.inl rfl, h.fullEffort, h.ticks⟩
  unfold calmDown
  dsimp only
  split_ifs <;> assumption

/-- Nothing is decided but the way back to energy mode. -/
theorem decision_unpressed {now : K} {v : Verdict K n} (h : s.signs.Unpressed) (hv : s.Judged v) :
    s.decision now v = .ok (.nothing, s.calmDown now v.feedback) := by
  have hemergency : v.emergency = false := by
    rw [hv.emergency, h.severeSince]
    rfl
  have hexhausted : v.dExhausted = false := Bool.eq_false_iff.mpr fun hd => by
    obtain ⟨pressure, since, admittedSince, hlast⟩ := hv.exhausted hd
    exact h.last _ _ _ _ hlast
  have hconfirmed : v.confirmed = false := hv.confirmed.trans (h.confirmed s.now)
  have hmode : s.controller.mode ≠ .expanding := by
    rcases h.mode with hmode | hmode
    · exact fun he => by cases hmode.symm.trans he
    · exact fun he => by cases hmode.symm.trans he
  unfold decision
  rw [if_neg (by simp [hemergency]), if_neg (by simp [hexhausted]), if_neg hmode, if_neg (by simp [hconfirmed])]

/-- The plan switches to what needs no more, or warns. -/
theorem choosePlan_spares (hbest : s.router.settings.overload = .bestEffort) (now : K) :
    Spares s (s.choosePlan now).2 ∧ ∀ p, (s.choosePlan now).1 = .ok (some p) → p.target ≤ p.routable.length := by
  have hweighs := s.choosePlan_weighs now
  have hsame {s' : System K n} (h : SamePlan s s') : Spares s s' := .of_same h.groups h.tiers
  cases hv : s.planView now with
  | none =>
    rw [hv] at hweighs
    exact ⟨hsame hweighs.2, fun p hp => absurd hp (hweighs.1 p)⟩
  | some v =>
    rw [hv] at hweighs
    obtain ⟨hseen, hweighed⟩ := hweighs
    have hset : Spares s (v.seen.setPlan now v.target) := by
      refine (hsame hseen).trans (.of_same ?_ ?_)
      · exact (apart_setPlan v.seen now v.target).groups
      · rfl
    generalize s.choosePlan now = e at hweighed
    cases hweighed with
    | stays same =>
      refine ⟨hset.trans (.of_same same.groups same.tiers), fun p hp => ?_⟩
      cases hp
    | switches saves =>
      have hsaves := saves (hseen.router ▸ hbest)
      refine ⟨hset.trans ?_, fun p hp => ?_⟩
      · unfold PlanView.moved
        dsimp only
        split
        · exact .refl _
        · exact .moveTo hsaves.prefillMhz hsaves.decodeMhz
      · cases hp
        exact hsaves.groups

/-! ### The rest of a tick -/

/-- What the rest of a tick does: the signs are not its own. -/
structure Tends (s s' : System K n) : Prop extends Spares s s' where
  signs : s'.signs = s.signs
  settings : s'.router.settings = s.router.settings

instance : IsPreorder (System K n) Tends where
  refl s := ⟨.refl s, rfl, rfl⟩
  trans _ _ _ h₁ h₂ := ⟨h₁.toSpares.trans h₂.toSpares, h₂.signs.trans h₁.signs, h₂.settings.trans h₁.settings⟩

theorem tends_beginTier {tier : Tier} (h : tier = .max → (s.group g).tier = .max) (target : ClockPoint) :
    Tends s (s.beginTier g tier target).2 := by
  have hgroup : Spares (s.bumpEpoch g) ((s.bumpEpoch g).setGroup g fun x =>
      { x with tier, effective := if tier = .park then none else (s.group g).effective.map fun o => slower o target }) :=
    .setGroup h fun hs => hs
  exact ⟨⟨hgroup.max, hgroup.active, hgroup.prefillMhz, hgroup.decodeMhz⟩, rfl, rfl⟩

theorem tends_settleTier (s : System K n) (g : Fin n) (tier : Tier) (call : Call) (ok : Bool) :
    Tends s (s.settleTier g tier call ok) := by
  obtain ⟨retry, heq | ⟨point, heq⟩⟩ := s.settleTier_leaves g tier call ok
  · rw [heq]
    exact ⟨.of_same rfl rfl, rfl, rfl⟩
  · have hgroup : Spares (s.setRetry g retry)
        ((s.setRetry g retry).setGroup g fun x => { x with effective := some point }) :=
      .setGroup (fun hs => hs) fun hs => hs
    rw [heq]
    exact ⟨⟨hgroup.max, hgroup.active, hgroup.prefillMhz, hgroup.decodeMhz⟩, rfl, rfl⟩

theorem tends_tell (s : System K n) {e : Event K n} (h : e.isControl = false) : Tends s (s.tell e) :=
  ⟨.of_same rfl rfl, signs_tell_other s h, rfl⟩

theorem tends_setState (s : System K n) (g : Fin n) {state : GroupState} (h : state ≠ .active) :
    Tends s (s.setState g state) :=
  ⟨.setGroup (fun hs => hs) fun hs => absurd hs h, rfl, rfl⟩

theorem tends_take (s : System K n) (g : Fin n) {state : GroupState} (h : state ≠ .active) : Tends s (s.take g state) :=
  trans_of Tends (tends_tell s rfl) (tends_setState _ g h)

/-- What the Controller writes down of its own, and the working point stays. -/
theorem Apart.tends (h : Apart s s') (htiers : s'.router.tiers = s.router.tiers) : Tends s s' :=
  ⟨.of_same h.groups htiers, h.signs, h.settings⟩

end System

abbrev TendsOnly (p : Prog K n α) : Prop := Acts (Keeps (fun _ => False) System.Tends) p

theorem tends_map {f : System K n → System K n} {w₀ w : Runtime K n} (hw : Keeps (fun _ => False) System.Tends w₀ w)
    (h : System.Tends w.state (f w.state)) : Keeps (fun _ => False) System.Tends w₀ (w.map f) :=
  trans_of (Keeps (fun _ => False) System.Tends) hw (show Keeps (fun _ => False) System.Tends w (w.map f) from ⟨h, .refl _⟩)

theorem tends_modify {f : System K n → System K n} (h : ∀ s, System.Tends s (f s)) : TendsOnly (Prog.modify f) :=
  Acts.update fun w => ⟨h w.state, .refl _⟩

theorem tends_step {f : System K n → α × System K n} (h : ∀ s, System.Tends s (f s).2) : TendsOnly (Prog.step f) :=
  fun _ w hw => tends_map (f := fun s => (f s).2) hw (h w.state)

theorem tends_get : TendsOnly (Prog.get : Prog K n (System K n)) := fun _ _ h => h

/-- MAX is only asked for where the group has it. -/
theorem wp_setTier_tends {g : Fin n} {tier : Tier} {w₀ w : Runtime K n} (hw : Keeps (fun _ => False) System.Tends w₀ w)
    (h : tier = .max → (w.state.group g).tier = .max) :
    (setTier g tier : Prog K n Unit).wp (loosest (Keeps (fun _ => False) System.Tends))
      (fun w₀ w _ => Keeps (fun _ => False) System.Tends w₀ w) w₀ w :=
  wp_setTier_of hw (fun _ => System.tends_beginTier h _) fun s => System.tends_settleTier s g tier

theorem tends_logEnergy (now : K) : TendsOnly (logEnergy now : Prog K n Unit) := by
  refine (tends_step fun s => (System.apart_energyDue s now).tends ?_).bind fun due => tends_get.bind fun s => ?_
  · unfold System.energyDue
    split <;> rfl
  · split
    · exact Acts.each (fun _ => Acts.call _) _
    · exact Acts.pure ()

/-- The target of a retry is the tier the group has. -/
theorem tends_retryLock (now : K) (g : Fin n) : TendsOnly (retryLock now g : Prog K n Unit) := by
  intro w₀ w hw
  refine wp_get.mpr ?_
  cases hd : w.state.dueRetry g now with
  | none => exact hw
  | some tier =>
    cases tier with
    | none => exact tends_modify (f := fun s => s.setRetry g none) (fun s => ⟨.of_same rfl rfl, rfl, rfl⟩) w₀ w hw
    | some tier =>
      have htold : Keeps (fun _ => False) System.Tends w₀ (w.map fun s => s.tell (.retried s.controller.fullEffort tier)) :=
        tends_map hw (System.tends_tell _ rfl)
      refine wp_setTier_tends htold fun hmax => ?_
      unfold System.dueRetry at hd
      split at hd
      · cases hd
      · split at hd
        · cases hd
        · split at hd <;> cases hd
          exact hmax

theorem tends_followPoint (point : ClockPoint) (g : Fin n) : TendsOnly (followPoint point g : Prog K n Unit) := by
  refine tends_get.bind fun s => ?_
  split
  · exact fun _ _ hw => wp_setTier_tends hw fun hmax => by cases hmax
  · exact Acts.pure ()

/-- Enough groups are routable already: none is woken. -/
theorem tends_follow {p : System.PlanStep n} (h : p.target ≤ p.routable.length) : TendsOnly (follow p : Prog K n Unit) := by
  have hdrain : TendsOnly (if max p.target p.minimum < p.routable.length then
      Prog.modify fun s : System K n => (s.victim p.active).elim s fun g => s.take g .draining else pure ()) := by
    split
    · refine tends_modify fun s => ?_
      cases s.victim p.active with
      | none => exact refl_of System.Tends s
      | some g => exact System.tends_take s g (by decide)
    · exact Acts.pure ()
  unfold follow
  rw [wakeUp_of_le h]
  split
  · exact (Acts.each (tends_followPoint p.point) _).bind fun _ => hdrain
  · exact hdrain

theorem tends_finishDraining (g : Fin n) : TendsOnly (finishDraining g : Prog K n Unit) := by
  refine (tends_step fun s => ?_).bind fun parked => ?_
  · unfold System.park
    split
    · exact System.tends_setState s g (by decide)
    · exact refl_of System.Tends s
  · split
    · exact fun _ _ hw => wp_setTier_tends hw fun hmax => by cases hmax
    · exact Acts.pure ()

/-! ### The Controller alone -/

theorem Signs.Step.told {now : K} {a b : Phase} {e e' : Signs K n} (h : e.Step now a b e') :
    ∃ told, e'.history = e.history ++ told := by
  cases h with
  | observe | redirect | expand | raise | expanded => exact ⟨_, rfl⟩
  | nothing | calm | hold | leave | recovered | warn => exact ⟨[], (List.append_nil _).symm⟩

theorem System.Act.settings {s s' : System K n} (h : s.Act s') : s'.router.settings = s.router.settings := by
  cases h with
  | apart same => exact same.settings
  | clock change =>
    cases change with
    | beginTier => rfl
    | settleTier g tier call ok =>
      obtain ⟨retry, heq | ⟨point, heq⟩⟩ := s.settleTier_leaves g tier call ok
      all_goals
        rw [heq]
        rfl
  | note | activate | drain | take | release | park | pend | noteDrain | setRetry | lockControl => rfl

/-- A tick saw evidence, in best effort. -/
def Seen (k : ℕ) (_ : Phase) (s : System K n) : Prop := s.signs.Evident k ∧ s.router.settings.overload = .bestEffort

theorem phased_seen (k : ℕ) : Phased (K := K) (n := n) (Seen k) where
  act h ha := ⟨ha.signs.1 ▸ h.1, ha.settings ▸ h.2⟩
  move h ha hs := by
    obtain ⟨told, ht⟩ := hs.told
    exact ⟨Signs.evident_append h.1 ht, ha.settings ▸ h.2⟩
  steady h := h

/-- The Controller, and the tasks it starts; until a tick saw evidence there are none, and the signs are modest. -/
structure Watch (k ticks : ℕ) (w : Runtime K n) : Prop where
  main : w.tasks.labels[0]? = some (.controller ticks)
  helpers : ∀ i l, i ≠ 0 → w.tasks.labels[i]? = some l → l.helps
  best : w.state.router.settings.overload = .bestEffort
  since : k ≤ w.state.signs.history.length
  modest : ¬w.state.signs.Evident k → w.tasks.labels.length = 1 ∧ w.state.signs.Modest

theorem Signs.Evident.since {e : Signs K n} {k : ℕ} (h : e.Evident k) : k ≤ e.history.length := by
  obtain ⟨x, hx, -⟩ := h
  by_contra hk
  rw [List.drop_eq_nil_of_le (by omega)] at hx
  cases hx

namespace Watch
variable {k ticks : ℕ} {w w' : Runtime K n}

theorem same (h : Watch k ticks w) (hstate : w'.state = w.state) (hlabels : w'.tasks.labels = w.tasks.labels) :
    Watch k ticks w' := by
  refine ⟨?_, ?_, ?_, ?_, ?_⟩
  · rw [hlabels]
    exact h.main
  · rw [hlabels]
    exact h.helpers
  · rw [hstate]
    exact h.best
  · rw [hstate]
    exact h.since
  · rw [hstate, hlabels]
    exact h.modest

/-- Tasks are added once a tick saw evidence. -/
theorem seen (h : Watch k ticks w) (hs : Seen k .steady w'.state) (hg : Grows Label.helps w.tasks w'.tasks) :
    Watch k ticks w' where
  main := Loop.label_of_prefix hg.prefix_labels h.main
  helpers i l hi hl := (hg.label hl).elim (h.helpers i l hi) id
  best := hs.2
  since := hs.1.since
  modest hn := absurd hs.1 hn

theorem tends (h : Watch k ticks w) (hm : Keeps (fun _ => False) System.Tends w w') : Watch k ticks w' where
  main := Loop.label_of_prefix hm.2.prefix_labels h.main
  helpers i l hi hl := (hm.2.label hl).elim (h.helpers i l hi) False.elim
  best := hm.1.settings ▸ h.best
  since := hm.1.signs ▸ h.since
  modest hn := by
    obtain ⟨added, hadded, hnone⟩ := hm.2.labels
    rw [hadded, List.eq_nil_iff_forall_not_mem.mpr hnone, List.append_nil, hm.1.signs]
    exact h.modest (hm.1.signs ▸ hn)

end Watch

/-- Evidence stays, and without it nothing is added. -/
def lone (k ticks : ℕ) : Loop.Contract (runtime (K := K) (n := n)) where
  inv := Watch k ticks
  rely _ _ w w' := w.state.signs.Evident k → w'.state.signs.Evident k
  guar id l w w' := Watch k ticks w' ∧ w'.tasks.labels[id]? = some l ∧ w.tasks.labels <+: w'.tasks.labels ∧
    (w.state.signs.Evident k → w'.state.signs.Evident k) ∧ (¬w'.state.signs.Evident k → w.state.Spares w'.state)

namespace Lone
variable {k ticks id : ℕ} {l : Label n} {w₀ w w' : Runtime K n}

theorem refl (h : Watch k ticks w) (hl : w.tasks.labels[id]? = some l) (hstate : w'.state = w.state)
    (hlabels : w'.tasks.labels = w.tasks.labels) : (lone k ticks).guar id l w w' := by
  refine ⟨h.same hstate hlabels, hlabels ▸ hl, ?_, ?_, ?_⟩
  · rw [hlabels]
  · rw [hstate]
    exact fun he => he
  · rw [hstate]
    exact fun _ => .refl _

theorem resume (h : ((lone (K := K) k ticks).conduct id l).rely w w') :
    ((lone k ticks).conduct id l).guar w' (((lone k ticks).conduct id l).resume w') := refl h.1 h.2.1 rfl rfl

theorem seen (h : (lone k ticks).guar id l w₀ w) (hs : Seen k .steady w'.state) (hg : Grows Label.helps w.tasks w'.tasks) :
    (lone k ticks).guar id l w₀ w' :=
  ⟨h.1.seen hs hg, Loop.label_of_prefix hg.prefix_labels h.2.1, h.2.2.1.trans hg.prefix_labels, fun _ => hs.1,
    fun hn => absurd hs.1 hn⟩

theorem tends (h : (lone k ticks).guar id l w₀ w) (hm : Keeps (fun _ => False) System.Tends w w') :
    (lone k ticks).guar id l w₀ w' := by
  refine ⟨h.1.tends hm, Loop.label_of_prefix hm.2.prefix_labels h.2.1, h.2.2.1.trans hm.2.prefix_labels, fun he => ?_,
    fun hn => ?_⟩
  · rw [hm.1.signs]
    exact h.2.2.2.1 he
  · rw [hm.1.signs] at hn
    exact (h.2.2.2.2 hn).trans hm.1.toSpares

/-- The signs move and stay modest. -/
theorem modest {s' : System K n} (h : (lone k ticks).guar id l w₀ w) (hbefore : ¬w.state.signs.Evident k)
    (hmodest : s'.signs.Modest)
    (hbest : s'.router.settings.overload = .bestEffort) (hsince : k ≤ s'.signs.history.length)
    (hspares : w.state.Spares s') :
    (lone k ticks).guar id l w₀ { w with state := s' } :=
  ⟨⟨h.1.main, h.1.helpers, hbest, hsince, fun _ => ⟨(h.1.modest hbefore).1, hmodest⟩⟩, h.2.1, h.2.2.1,
    fun he => absurd (h.2.2.2.1 he) hbefore, fun _ => (h.2.2.2.2 hbefore).trans hspares⟩

theorem governed : Governed ((lone (K := K) k ticks).conduct id l) (Seen k) where
  kept := phased_seen k
  resume _ hr := resume hr
  rely hJ hr := ⟨hr.2.2 hJ.1, hr.1.best⟩
  acts hw hJ hm := seen hw ((phased_seen k).acts hJ hm.1) hm.2
  moves hw _ _ hJ := seen hw hJ (.refl _)

/-! ### A tick of it -/

/-- A stretch of the Controller that keeps to the contract. -/
abbrev Holds (k ticks id : ℕ) (l : Label n) (P : Runtime K n → Prop) (p : Prog K n α) (Q : α → Prop) : Prop :=
  Co.Triple ((lone k ticks).conduct id l) P p (fun a _ => Q a) fun _ _ => True

theorem holds_tends {p : Prog K n α} (hp : TendsOnly p) : Holds k ticks id l (fun _ => True) p fun _ => True :=
  hp.triple (X := fun _ => True) (fun hw _ hm => tends hw hm) (fun _ hr => resume hr) (fun _ _ => trivial)
    fun _ _ => trivial

theorem holds_get {P : Runtime K n → Prop} {f : System K n → Prog K n α} {Q : α → Prop}
    (h : ∀ s, Holds k ticks id l (fun _ => True) (f s) Q) : Holds k ticks id l P (Prog.get >>= f) Q :=
  triple_get fun s => (h s).conseq (fun _ _ => trivial) (fun _ _ hq => hq) fun _ _ hq => hq

/-- After evidence a tick may do anything; without it, it does nothing but go back to energy mode. -/
theorem feedbackControl (now : K) :
    Holds (n := n) k ticks id l (fun w => w.state.now = now) (feedbackControl now) fun _ => True := by
  intro w₀ w hw hnow
  subst hnow
  by_cases hbefore : w.state.signs.Evident k
  · exact Co.wp_mono (governed.feedbackControl w.state.now w₀ w hw ⟨⟨hbefore, hw.1.best⟩, rfl⟩) fun _ _ r hr =>
      ⟨hr.1, by cases r <;> trivial⟩
  have haside := System.aside_observe w.state w.state.now
  obtain ⟨hstep, hjudged⟩ := System.observe_signs w.state
  have hspares := System.spares_observe w.state w.state.now
  have hmodest := (hw.1.modest hbefore).2
  have hsince := hw.1.since
  rw [feedbackControl_eq]
  refine Co.wp_bind.mpr ?_
  show (respond w.state.now (w.state.observe w.state.now).1).wp _ _ w₀ { w with state := (w.state.observe w.state.now).2 }
  generalize w.state.observe w.state.now = e at haside hstep hjudged hspares ⊢
  obtain ⟨v, u⟩ := e
  dsimp only at haside hstep hjudged hspares ⊢
  by_cases hafter : u.signs.Evident k
  · have hseen : Seen k .steady u := ⟨hafter, haside.settings ▸ hw.1.best⟩
    have hguar : (lone k ticks).guar id l w₀ { w with state := u } := seen hw hseen (.refl _)
    exact Co.wp_mono (governed.respond w.state.now v w₀ _ hguar ⟨hseen, haside.now, hjudged⟩) fun _ _ r hr =>
      ⟨hr.1, by cases r <;> trivial⟩
  -- Neither before nor by this tick is there evidence: no tick remembers pressure.
  have hunpressed : u.signs.Unpressed := by
    generalize u.signs = e' at hstep hafter ⊢
    cases hstep with
    | observe _ warned pressure severe exhausted near => exact (hmodest.observe hsince near).resolve_left hafter
  refine wp_get.mpr ?_
  rw [if_neg (by rw [show u.controller.fullEffort = false from hunpressed.fullEffort]; decide)]
  refine Co.wp_bind.mpr ?_
  -- So the decision is nothing, and the rest of the tick only calms down.
  have hdecision : u.decision w.state.now v = .ok (.nothing, u.calmDown w.state.now v.feedback) :=
    System.decision_unpressed hunpressed hjudged
  show Co.andThen _ _ _ _ (World.map _ _) (.ok _)
  dsimp only [World.map]
  rw [hdecision]
  refine ⟨modest hw hbefore (System.modest_calmDown hunpressed.toModest w.state.now v.feedback) ?_ ?_ ?_, trivial⟩
  · exact ((System.aside_calmDown u w.state.now v.feedback).settings.trans haside.settings).symm ▸ hw.1.best
  · obtain ⟨told, ht⟩ := (System.signs_calmDown u w.state.now v.feedback).told
    obtain ⟨told', ht'⟩ := hstep.told
    rw [ht, ht', List.append_assoc, List.length_append]
    omega
  · exact hspares.trans (System.spares_calmDown u w.state.now v.feedback)

theorem plan (now : K) : Holds (n := n) k ticks id l (fun _ => True) (plan now) fun _ => True := by
  have hchoose : Holds (n := n) k ticks id l (fun _ => True) (Prog.step fun s => s.choosePlan now)
      fun result => ∀ p, result = .ok (some p) → p.target ≤ p.routable.length := by
    intro w₀ w hw _
    have haside := System.aside_choosePlan w.state now
    obtain ⟨hspares, htarget⟩ := System.choosePlan_spares hw.1.best now
    have hbest : (w.state.choosePlan now).2.router.settings.overload = .bestEffort := haside.settings ▸ hw.1.best
    refine ⟨?_, htarget⟩
    show (lone k ticks).guar id l w₀ { w with state := (w.state.choosePlan now).2 }
    by_cases hbefore : w.state.signs.Evident k
    · refine seen hw ⟨?_, hbest⟩ (.refl _)
      rcases System.signs_choosePlan w.state now with hsigns | ⟨-, hsigns⟩
      · rw [hsigns]
        exact hbefore
      · rw [hsigns]
        exact hbefore
    · have hmodest := (hw.1.modest hbefore).2
      have hsince := hw.1.since
      rcases System.signs_choosePlan w.state now with hsigns | ⟨-, hsigns⟩
      · exact modest hw hbefore (hsigns ▸ hmodest) hbest (hsigns ▸ hsince) hspares
      · refine modest hw hbefore ?_ hbest ?_ hspares
        · rw [hsigns]
          exact ⟨.inr rfl, hmodest.fullEffort, hmodest.ticks⟩
        · rw [hsigns]
          exact hsince
  refine hchoose.bind fun result => ?_
  cases result with
  | error e => exact Co.Triple.raise fun _ _ => trivial
  | ok p =>
    cases p with
    | none => exact Co.Triple.pure fun _ _ => trivial
    | some p =>
      intro w₀ w hw htarget
      exact holds_tends (tends_follow (htarget p rfl)) w₀ w hw trivial

theorem bestEffortControl (now : K) :
    Holds (n := n) k ticks id l (fun w => w.state.now = now) (bestEffortControl now) fun _ => True := by
  have hfinish : Holds k ticks id l (fun _ => True) (Co.each (List.finRange n) (finishDraining (K := K))) fun _ => True :=
    holds_tends (Acts.each tends_finishDraining _)
  refine (feedbackControl now).bind fun _ => holds_get fun s => (holds_tends (tends_logEnergy _)).bind fun _ => ?_
  refine (holds_tends (Acts.each (tends_retryLock _) _)).bind fun _ => holds_get fun later => ?_
  split
  · split
    · exact (plan _).bind fun _ => hfinish
    · exact hfinish
  · exact Co.Triple.pure fun _ _ => trivial

theorem tick : Holds (K := K) (n := n) k ticks id l (fun _ => True) tick fun _ => True := by
  have hlock (locked : Bool) : Holds (K := K) (n := n) k ticks id l (fun _ => True)
      (Prog.modify fun s => s.lockControl locked) fun _ => True :=
    holds_tends (tends_modify fun s => ⟨.of_same rfl rfl, rfl, rfl⟩)
  have hbody : Holds (K := K) (n := n) k ticks id l (fun _ => True) tickBody fun _ => True := by
    intro w₀ w hw _
    refine wp_get.mpr ?_
    rw [if_pos hw.1.best]
    exact bestEffortControl w.state.now w₀ w hw rfl
  exact (hlock true).bind fun _ => hbody.ensure (fun _ => hlock false) (fun _ => hlock false) fun _ _ _ => trivial

theorem controllerLoop (rounds : ℕ) :
    Holds (K := K) (n := n) k ticks id l (fun _ => True) (controllerLoop rounds) fun _ => True := by
  induction rounds with
  | zero => exact Co.Triple.pure fun _ _ => trivial
  | succ rounds ih =>
    have hclear : TendsOnly (Prog.modify fun s : System K n => s.clearPressureEvent) :=
      tends_modify fun s => ⟨.of_same rfl rfl, rfl, rfl⟩
    refine (holds_tends hclear).bind fun _ => ?_
    refine Co.Triple.bind (tick.handle fun e => ?_) fun _ => (holds_tends (Acts.call _)).bind fun _ => ih
    split
    · exact Co.Triple.pure fun _ _ => trivial
    · exact Co.Triple.raise fun _ _ => trivial

end Lone

/-! ### Every run of it -/

/-- What happens around the Controller leaves its signs, the tiers and the working point alone. -/
structure System.Around (s s' : System K n) : Prop where
  signs : s'.signs = s.signs
  settings : s'.router.settings = s.router.settings
  tiers : s'.router.tiers = s.router.tiers
  tier : ∀ g, (s'.group g).tier = (s.group g).tier

namespace System.Around
variable {s s' u : System K n}

theorem refl (s : System K n) : Around s s := ⟨rfl, rfl, rfl, fun _ => rfl⟩

theorem trans (h₁ : Around s s') (h₂ : Around s' u) : Around s u where
  signs := h₂.signs.trans h₁.signs
  settings := h₂.settings.trans h₁.settings
  tiers := h₂.tiers.trans h₁.tiers
  tier g := (h₂.tier g).trans (h₁.tier g)

theorem setState (s : System K n) (g : Fin n) (state : GroupState) : Around s (s.setState g state) :=
  ⟨rfl, rfl, rfl, Router.read_setGroup_same s.router g (fun x => { x with state }) (·.tier) fun _ => by rfl⟩

theorem claim (s : System K n) (kind : Kind) (reason : Trigger) : Around s (s.claim kind reason) := by
  have hpend (pending : Option (Kind × Trigger)) : Around s { s with canary := { s.canary with pending } } :=
    ⟨rfl, rfl, rfl, fun _ => rfl⟩
  unfold System.claim
  split
  · exact .refl s
  · split
    · exact .refl s
    · dsimp only
      split
      · exact ((hpend _).trans (setState _ _ .draining)).trans ⟨rfl, rfl, rfl, fun _ => rfl⟩
      · exact hpend _

theorem unclaim (s : System K n) : Around s s.unclaim := by
  have hpend : Around s { s with canary := { s.canary with pending := none } } := ⟨rfl, rfl, rfl, fun _ => rfl⟩
  unfold System.unclaim
  dsimp only
  split
  · split
    · exact hpend.trans (setState _ _ .active)
    · exact hpend
  · exact hpend

end System.Around

theorem outside_around {e : Outside K n} {w w' : Runtime K n} (h : outside e w = some w') : w.state.Around w'.state := by
  refine outside_keeps (R := System.Around) .trans (fun s pairs => ⟨rfl, rfl, rfl, fun _ => rfl⟩)
    (fun s seconds => ⟨rfl, rfl, rfl, fun _ => rfl⟩)
    (fun hr => ⟨hr.signs, hr.router.settings, hr.router.tiers, fun g => by rw [hr.group]⟩) .claim .unclaim
    (fun {s e r} ha => ?_) h
  obtain ⟨hsame, -⟩ := Router.sameControl_acts ha
  refine ⟨rfl, hsame.settings, hsame.tiers, fun g => ?_⟩
  have hcontrol := Router.control_acts ha g
  simp only [Group.control, Prod.mk.injEq] at hcontrol
  exact hcontrol.2.2.1

theorem outside_frugal {e : Outside K n} {w w' : Runtime K n} (h : outside e w = some w') : w.state.Frugal w'.state := by
  have haround := outside_around h
  have hpoint : w'.state.workingPoint = w.state.workingPoint := by
    unfold System.workingPoint
    rw [haround.tiers]
  refine ⟨fun g hg => haround.tier g ▸ hg, fun g hp hactive => ?_, by rw [hpoint], by rw [hpoint]⟩
  exact GroupState.noConfusion ((outside_park h hp).symm.trans hactive)

theorem lone_sound (k ticks : ℕ) : (lone (K := K) (n := n) k ticks).Sound where
  refl _ _ _ he := he
  trans h₁ h₂ he := h₂ (h₁ he)
  code {id l w} hinv hl hfresh := by
    have hbegun : (lone k ticks).guar id l w (w.begun id) := Lone.refl hinv hl rfl rfl
    have hend {w₀ w : Runtime K n} (hw : (lone k ticks).guar id l w₀ w) : (lone k ticks).guar id l w₀ (w.finished id) :=
      ⟨hw.1.same rfl rfl, hw.2⟩
    -- A helper runs only after evidence.
    have hhelper {p : Prog K n Unit} (hp : ActsOnly p) (hid : id ≠ 0) :
        p.wp ((lone k ticks).conduct id l) (fun w₀ w _ => (lone k ticks).guar id l w₀ (w.finished id)) w (w.begun id) := by
      have hevident : w.state.signs.Evident k := by
        by_contra hn
        have hlength := (hinv.modest hn).1
        have hlt := (List.getElem?_eq_some_iff.mp hl).1
        omega
      exact Co.wp_mono (Lone.governed.acts_ticks hp .steady w _ hbegun ⟨hevident, hinv.best⟩) fun _ _ _ hr => hend hr.1
    have hzero : l = .controller ticks ∨ id ≠ 0 ∧ l.helps := by
      by_cases hid : id = 0
      · subst hid
        exact .inl (Option.some.inj (hl.symm.trans hinv.main))
      · exact .inr ⟨hid, hinv.helpers id l hid hl⟩
    rcases hzero with rfl | ⟨hid, hhelps⟩
    · exact Co.wp_mono (Lone.controllerLoop ticks w _ hbegun trivial) fun _ _ _ hr => hend hr.1
    · cases l with
      | change g => exact hhelper (acts_setTier g (by decide)) hid
      | experiment kind reason => exact hhelper (acts_experiment id kind) hid
      | runtime | controller | scheduler => exact hhelps.elim
  skip hinv hl := Lone.refl hinv hl rfl rfl
  guar _ _ hg := ⟨hg.1, hg.2.2.1, fun _ _ => hg.2.2.2.1⟩
  outside {e w w'} hinv ho := by
    have haround := outside_around ho
    obtain ⟨hlabels, -⟩ := outside_tasks ho
    refine ⟨⟨?_, ?_, ?_, ?_, ?_⟩, ?_, fun _ => ?_⟩
    · rw [hlabels]
      exact hinv.main
    · rw [hlabels]
      exact hinv.helpers
    · rw [haround.settings]
      exact hinv.best
    · rw [haround.signs]
      exact hinv.since
    · rw [haround.signs, hlabels]
      exact hinv.modest
    · rw [hlabels]
    · show w.state.signs.Evident k → w'.state.signs.Evident k
      rw [haround.signs]
      exact fun he => he

/-- In best effort, from energy mode on and with no remembered tick that saw pressure: until a tick sees evidence, the
    Controller stays in energy or warning mode, full effort stays off, and no step of a task adds resources; what the
    outside does raises no clock and wakes no parked group. -/
theorem frugal_until_evident {s : System K n} (hbest : s.router.settings.overload = .bestEffort)
    (hmode : s.controller.mode = .energy)
    (heffort : s.controller.fullEffort = false) (hticks : ∀ t ∈ s.controller.pressureTicks, t.2 = false) {ticks : ℕ}
    {p p' : Pool (Label n) (System K n) (Op n) (Op.Ans K) Exn} (hrun : runtime.Run (boot s (.controller ticks)) p)
    {choice : Choice (Op n) (Op.Ans K) Exn (Outside K n)} (hnext : runtime.next p choice = some p')
    (hquiet : ¬p'.world.state.signs.Evident s.signs.history.length) :
    (p'.world.state.controller.mode = .energy ∨ p'.world.state.controller.mode = .warning) ∧
      p'.world.state.controller.fullEffort = false ∧
      ((∀ e, choice ≠ .outside e) → p.world.state.Spares p'.world.state) ∧ p.world.state.Frugal p'.world.state := by
  have hsound := lone_sound (K := K) (n := n) s.signs.history.length ticks
  have hholds : (lone s.signs.history.length ticks).Holds (boot s (.controller ticks)) := by
    refine ⟨⟨rfl, fun i l hi hl => ?_, hbest, le_rfl, fun _ => ⟨rfl, .inl hmode, heffort, hticks⟩⟩,
      fun id k hk => by cases hk⟩
    rcases i with _ | i
    · exact absurd rfl hi
    · cases hl
  have hp := hsound.run hholds hrun
  have hmodest := (((hsound.next hp hnext).inv).modest hquiet).2
  refine ⟨hmodest.mode, hmodest.fullEffort, ?_⟩
  rcases hsound.acted hp hnext with ⟨id, l, hl, hg⟩ | ⟨e, hchoice, he⟩
  · have hspares : p.world.state.Spares p'.world.state := hg.2.2.2.2 hquiet
    exact ⟨fun _ => hspares, hspares.frugal⟩
  · exact ⟨fun htask => absurd hchoice (htask e), outside_frugal he⟩

section Small

/-- Two serving groups and a published table: the second tick sees nothing, either. -/
theorem frugal_until_evident_calm : ∃ p p' : Pool (Label 2) (System ℚ 2) (Op 2) (Op.Ans ℚ) Exn,
    runtime.Run (boot (smallSystem (smallServing 2)) (.controller 5)) p ∧ p'.world.state.signs.history.length = 2 ∧
      p'.world.state.controller.fullEffort = false ∧ p.world.state.Spares p'.world.state := by
  have hexec : ((runtime.exec (boot (smallSystem (smallServing 2)) (.controller 5))
      [.begin 0, .resume 0 obliging, .outside (.clock 31)]).any fun p =>
      (runtime.next p (.resume 0 obliging)).any fun p' =>
        decide (p'.world.state.signs.history.length = 2) &&
          !(p'.world.state.signs.history.drop (smallSystem (smallServing 2)).signs.history.length).any
            (·.evident)) = true := by
    decide +kernel
  obtain ⟨p, hp, hnext⟩ := (Option.any_eq_true _ _).mp hexec
  obtain ⟨p', hp', hseen⟩ := (Option.any_eq_true _ _).mp hnext
  obtain ⟨hlength, hquiet⟩ := Bool.and_eq_true_iff.mp hseen
  have hrun : runtime.Run (boot (smallSystem (smallServing 2)) (.controller 5)) p := Loop.Run.refl.exec hp
  have hfrugal := frugal_until_evident rfl rfl rfl (fun _ ht => absurd ht List.not_mem_nil) hrun hp' <| by
    rintro ⟨x, hx, hevident⟩
    have hany := List.any_eq_true.mpr ⟨x, hx, hevident⟩
    rw [hany] at hquiet
    exact absurd hquiet (by decide)
  exact ⟨p, p', hrun, of_decide_eq_true hlength, hfrugal.2.1, hfrugal.2.2.1 fun e => by simp⟩

end Small
end CanaTune
