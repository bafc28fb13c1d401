import CanaTune.Theorems.Signs

/-! What one act of a task can do. Whatever the scheduler, an experiment and a tick's own tasks write between two
    awaits is a list of these acts, whatever happens at the awaits; the signs of the Controller are not theirs. -/

namespace CanaTune
variable {K : Type} [Scalar K] {n : ℕ}

namespace System

/-- The acts of a clock change. Only a parked or an idle draining group goes to the park point. -/
inductive ClockAct : System K n → System K n → Prop
  | beginTier (s : System K n) (g : Fin n) (tier : Tier) (target : ClockPoint)
      (idle : tier = .park → (s.group g).tier = .park ∨ (s.group g).nInflight = 0) :
      ClockAct s (s.beginTier g tier target).2
  | settleTier (s : System K n) (g : Fin n) (tier : Tier) (call : Call) (ok : Bool) :
      ClockAct s (s.settleTier g tier call ok)

/-- One act, with what is known where it happens. -/
inductive Act : System K n → System K n → Prop
  | apart {s s' : System K n} (same : Apart s s') : Act s s'
  | note (s : System K n) (e : Event K n)
      (canary : e = .measured ∨ e = .quiesced ∨ ∃ tier, e = .retried s.controller.fullEffort tier) :
      Act s (s.tell e)
  | activate (s : System K n) (g : Fin n) (free : (s.group g).state ≠ .exploring) : Act s (s.setState g .active)
  | drain (s : System K n) (g : Fin n) (serving : (s.group g).state = .active) : Act s (s.setState g .draining)
  | take (s : System K n) (g : Fin n) (state : GroupState) (serving : state = .active ∨ state = .draining) :
      Act s (s.take g state)
  | release (s : System K n) (g : Fin n) : Act s (s.release g)
  | park (s : System K n) (g : Fin n) (draining : (s.group g).state = .draining) (idle : (s.group g).nInflight = 0) :
      Act s (s.setState g .park)
  | pend (s : System K n) (pending : Option (Kind × Trigger)) : Act s { s with canary := { s.canary with pending } }
  | noteDrain (s : System K n) : Act s { s with canary := { s.canary with drainingSince := some s.now } }
  | clock {s s' : System K n} (change : ClockAct s s') : Act s s'
  | setRetry (s : System K n) (g : Fin n) (retry : Option (K × K)) : Act s (s.setRetry g retry)
  | lockControl (s : System K n) (locked : Bool) : Act s (s.lockControl locked)

abbrev Actions : System K n → System K n → Prop := Relation.ReflTransGen Act

theorem Apart.actions {s s' : System K n} (h : Apart s s') : Actions s s' := .single (.apart h)

theorem Reads.actions {s s' : System K n} (h : Reads s s') : Actions s s' := h.apart.actions

/-- What the end of a clock change may write: the retry, and the group's clocks. -/
theorem settleTier_leaves (s : System K n) (g : Fin n) (tier : Tier) (call : Call) (ok : Bool) :
    ∃ retry, s.settleTier g tier call ok = (s.setRetry g retry).bumpEpoch g ∨ ∃ point, s.settleTier g tier call ok =
      ((s.setRetry g retry).setGroup g fun x => { x with effective := some point }).bumpEpoch g := by
  -- Where the group has moved on, the retry that is set is the one it has.
  obtain ⟨retry, hretry⟩ : ∃ retry,
      (if (s.group g).tier = tier then s.setRetry g (if ok then none else some (s.backOff g)) else s) =
      s.setRetry g retry := by
    split
    · exact ⟨_, rfl⟩
    · refine ⟨s.controller.retry g, ?_⟩
      rw [setRetry, Function.update_eq_self]
  refine ⟨retry, ?_⟩
  unfold settleTier
  rw [hretry]
  dsimp only
  split
  · split
    · exact .inr ⟨_, rfl⟩
    · split
      · exact .inr ⟨_, rfl⟩
      · exact .inl rfl
  · exact .inl rfl

theorem ClockAct.signs {s s' : System K n} (h : ClockAct s s') : s'.signs = s.signs ∧ s'.now = s.now := by
  cases h with
  | beginTier g tier target => exact ⟨rfl, rfl⟩
  | settleTier g tier call ok =>
    unfold System.settleTier
    dsimp only
    split_ifs <;> (try split) <;> exact ⟨rfl, rfl⟩

/-- An act leaves the time and the signs alone. -/
theorem Act.signs {s s' : System K n} (h : Act s s') : s'.signs = s.signs ∧ s'.now = s.now := by
  cases h with
  | apart same => exact ⟨same.signs, same.now⟩
  | note e he =>
    refine ⟨signs_tell_other s ?_, rfl⟩
    rcases he with rfl | rfl | ⟨tier, rfl⟩ <;> rfl
  | take g state => exact ⟨signs_tell_other s rfl, rfl⟩
  | clock change => exact change.signs
  | activate | drain | release | park | pend | noteDrain | setRetry | lockControl => exact ⟨rfl, rfl⟩

theorem setState_nInflight (s : System K n) (g : Fin n) (state : GroupState) (i : Fin n) :
    ((s.setState g state).group i).nInflight = (s.group i).nInflight :=
  Router.read_setGroup_same s.router g (fun x => { x with state }) (·.nInflight) (fun _ => by rfl) i

theorem actions_claim (s : System K n) (kind : Kind) (reason : Trigger) : Actions s (s.claim kind reason) := by
  have hpend := Act.pend s (some (kind, reason))
  unfold claim
  split
  · exact .refl
  · split
    · exact .refl
    · dsimp only
      split
      case isTrue hserving => exact ((Relation.ReflTransGen.single hpend).tail (.drain _ _ hserving)).tail (.noteDrain _)
      case isFalse => exact .single hpend

theorem actions_giveUp (s : System K n) {g : Fin n} (h : (s.group g).state = .draining) : Actions s (s.giveUp g) := by
  have hactive := Act.activate s g (by rw [h]; decide)
  unfold giveUp
  dsimp only
  split
  · exact (Relation.ReflTransGen.single hactive).tail (.pend _ none)
  · exact .refl

theorem actions_activateAll (s : System K n) : Actions s s.activateAll := by
  unfold activateAll
  generalize List.finRange n = groups
  induction groups generalizing s with
  | nil => exact .refl
  | cons g rest ih =>
    rw [List.foldl_cons]
    split
    · exact ih s
    case isFalse h => exact (Relation.ReflTransGen.single (.activate s g (by simpa [exploring] using h))).trans (ih _)

theorem actions_claimStep (s : System K n) : Actions s s.claimStep.2 := by
  have htrigger := (reads_trigger s).actions
  unfold claimStep
  split
  · exact .refl
  generalize s.trigger = e at htrigger ⊢
  obtain ⟨found, u⟩ := e
  dsimp only at htrigger ⊢
  cases found with
  | none => exact htrigger
  | some found =>
    obtain ⟨kind, reason⟩ := found
    have hstart := htrigger.trans (reads_mayStart u).actions
    dsimp only
    generalize u.mayStart = e at hstart ⊢
    obtain ⟨answer, v⟩ := e
    dsimp only at hstart ⊢
    match answer with
    | .error _ => exact hstart
    | .ok false => exact hstart
    | .ok true => exact hstart.trans (actions_claim _ _ _)

theorem actions_unclaim (s : System K n) : Actions s s.unclaim := by
  have hpend := Act.pend s none
  unfold unclaim
  dsimp only
  split
  · split
    case isTrue h => exact (Relation.ReflTransGen.single hpend).tail (.activate _ _ (by rw [h]; decide))
    case isFalse => exact .single hpend
  · exact .single hpend

end System

/-- The tasks a running program adds. -/
def Label.helps : Label n → Prop
  | .change _ => True
  | .experiment _ _ => True
  | _ => False

/-- What an act of a task that also starts or stops tasks does. -/
abbrev Moved : Runtime K n → Runtime K n → Prop := Keeps Label.helps System.Actions

theorem moved_map {w : Runtime K n} {f : System K n → System K n} (h : System.Actions w.state (f w.state)) :
    Moved w (w.map f) :=
  ⟨h, .refl _⟩

theorem Moved.trans {w w' w'' : Runtime K n} (h₁ : Moved w w') (h₂ : Moved w' w'') : Moved w w'' := trans_of Moved h₁ h₂

theorem moved_stop (w : Runtime K n) (id : ℕ) : Moved w (w.stop id) := by
  refine ⟨?_, .stop w id⟩
  rw [World.stop_state]

theorem moved_stopExperiment (w : Runtime K n) : Moved w (stopExperiment w).2 := by
  unfold stopExperiment
  split
  · split
    · exact refl_of Moved w
    · exact moved_stop w _
  · exact refl_of Moved w

theorem moved_abort (w : Runtime K n) : Moved w (abort w).2 := by
  have hstop := moved_stopExperiment w
  unfold abort
  split
  · exact refl_of Moved w
  · dsimp only
    split
    · exact hstop
    · exact hstop.trans (moved_map (System.actions_unclaim _))

theorem moved_raiseTiers (w : Runtime K n) : Moved w (raiseTiers w).2 := by
  have hspawn (changes : List (Fin n)) (u : Runtime K n) : Moved u (changes.foldl (fun w g => w.spawn (.change g)) u) := by
    induction changes generalizing u with
    | nil => exact refl_of Moved u
    | cons g rest ih => exact (show Moved u (u.spawn (.change g)) from ⟨.refl, .spawn u trivial⟩).trans (ih _)
  exact (moved_map (System.actions_activateAll w.state)).trans (hspawn _ _)

theorem moved_request (w : Runtime K n) (kind : Kind) : Moved w (request w kind) := by
  have hstart := (System.reads_mayStart w.state).actions
  unfold request
  split
  · exact refl_of Moved w
  generalize w.state.mayStart = e at hstart ⊢
  obtain ⟨answer, s⟩ := e
  dsimp only at hstart ⊢
  match answer with
  | .error _ => exact ⟨hstart, .refl _⟩
  | .ok false => exact ⟨hstart, .refl _⟩
  | .ok true => exact ⟨hstart.trans (System.actions_claim _ _ _), .refl _⟩

/-! ### Every program -/

section Programs
variable {α : Type}

abbrev ActsOnly (p : Prog K n α) : Prop := Acts Moved p

theorem wp_get {c : Co.Conduct (Runtime K n) (Op n) (Op.Ans K) Exn} {k : System K n → Prog K n α}
    {Q : Runtime K n → Runtime K n → Except Exn α → Prop} {w₀ w : Runtime K n} :
    (Prog.get >>= k).wp c Q w₀ w ↔ (k w.state).wp c Q w₀ w := Iff.rfl

theorem acts_get : ActsOnly (Prog.get : Prog K n (System K n)) := fun _ _ h => h

theorem acts_modify {f : System K n → System K n} (h : ∀ s, System.Actions s (f s)) : ActsOnly (Prog.modify f) :=
  Acts.update fun w => moved_map (h w.state)

theorem acts_step {f : System K n → α × System K n} (h : ∀ s, System.Actions s (f s).2) : ActsOnly (Prog.step f) :=
  fun _ w hw => Moved.trans hw (moved_map (f := fun s => (f s).2) (h w.state))

theorem acts_ofModel (r : Except ModelError α) : ActsOnly (Prog.ofModel r : Prog K n α) := by
  cases r with
  | ok a => exact Acts.pure a
  | error e => exact Acts.raise _

/-- A clock change is its begin, and its end whenever the locks answer. -/
theorem wp_setTier_of {R : System K n → System K n → Prop} [IsPreorder _ R] {new : Label n → Prop} {g : Fin n} {tier : Tier}
    {w₀ w : Runtime K n} (hw : Keeps new R w₀ w) (hbegin : ∀ target, R w.state (w.state.beginTier g tier target).2)
    (hsettle : ∀ s call ok, R s (s.settleTier g tier call ok)) :
    (setTier g tier : Prog K n Unit).wp (loosest (Keeps new R)) (fun w₀ w _ => Keeps new R w₀ w) w₀ w := by
  have hmap {u : Runtime K n} {f : System K n → System K n} (h : R u.state (f u.state)) : Keeps new R u (u.map f) :=
    ⟨h, .refl _⟩
  refine wp_get.mpr ?_
  cases w.state.target tier with
  | none => exact hw
  | some point =>
    refine Acts.wp_bind (p := Prog.step fun s => s.beginTier g tier point) ?_ fun call => ?_
    · exact trans_of (Keeps new R) hw (hmap (f := fun s => (s.beginTier g tier point).2) (hbegin point))
    · exact (Acts.call _).bind fun ok => Acts.update fun u => hmap (hsettle u.state call ok)

/-- Where the park point is asked for, the group holds no request. -/
theorem wp_setTier {R : System K n → System K n → Prop} [IsPreorder _ R] (hR : ∀ {s s'}, System.ClockAct s s' → R s s')
    {new : Label n → Prop} {g : Fin n} {tier : Tier} {w₀ w : Runtime K n} (hw : Keeps new R w₀ w)
    (idle : tier = .park → (w.state.group g).tier = .park ∨ (w.state.group g).nInflight = 0) :
    (setTier g tier : Prog K n Unit).wp (loosest (Keeps new R)) (fun w₀ w _ => Keeps new R w₀ w) w₀ w :=
  wp_setTier_of hw (fun _ => hR (.beginTier _ _ _ _ idle)) fun _ _ _ => hR (.settleTier _ _ _ _ _)

theorem single_clock {s s' : System K n} (h : System.ClockAct s s') : System.Actions s s' := .single (.clock h)

theorem acts_setTier (g : Fin n) {tier : Tier} (h : tier ≠ .park) : ActsOnly (setTier g tier : Prog K n Unit) :=
  fun _ _ hw => wp_setTier single_clock hw fun hp => absurd hp h

theorem acts_publish (table : TierTable K) : ActsOnly (publish table : Prog K n Unit) := by
  refine (acts_modify fun s => (System.apart_adopt s table).actions).bind fun _ => Acts.each (fun g => ?_) _
  refine acts_get.bind fun s => ?_
  cases ht : s.publishTier g with
  | none => exact Acts.pure ()
  | some tier =>
    have hne : tier ≠ .park := by
      rintro rfl
      unfold System.publishTier at ht
      split_ifs at ht <;> simp at ht
    exact (acts_setTier g hne).bind fun _ => Acts.call _

/-- Only a parked group is woken. -/
theorem System.state_of_parked {s : System K n} {g : Fin n} (h : s.parked = some g) : (s.group g).state = .park := by
  have hmem := List.mem_of_head? h
  rcases List.mem_append.mp hmem with hmem | hmem
  all_goals exact of_decide_eq_true (List.mem_filter.mp (List.mem_filter.mp hmem).1).2

theorem acts_wake : ActsOnly (wake : Prog K n (Option (Fin n))) := by
  intro w₀ w hw
  refine wp_get.mpr ?_
  cases hparked : w.state.parked with
  | none => exact hw
  | some g =>
    have hfree : (w.state.group g).state ≠ .exploring := by
      rw [System.state_of_parked hparked]
      decide
    have hwoken : Moved w₀ (w.map fun s => s.setState g .active) := hw.trans (moved_map (.single (.activate _ _ hfree)))
    exact ((acts_setTier g (by decide)).bind fun _ => Acts.pure _) _ _ hwoken

theorem acts_joinExperiment (me : Option ℕ) : ActsOnly (joinExperiment me : Prog K n Unit) := by
  refine Acts.read.bind fun w => ?_
  cases w.state.canary.task with
  | none => exact Acts.pure ()
  | some t =>
    dsimp only
    split
    · exact (Acts.update fun w => moved_stop w t).bind fun _ => Acts.call _
    · exact Acts.pure ()

theorem acts_takeBack (g : Fin n) : ActsOnly (takeBack g : Prog K n Unit) := by
  have hrelease : ActsOnly (Prog.modify fun s : System K n => s.release g) := acts_modify fun s => .single (.release s g)
  have hquiesced : ActsOnly (Prog.modify fun s : System K n => (s.tell .quiesced).release g) := acts_modify fun s =>
    (Relation.ReflTransGen.single (.note s .quiesced (.inr (.inl rfl)))).tail (.release _ g)
  refine acts_get.bind fun s => ?_
  split
  · split
    · exact (Acts.call _).bind fun _ => hquiesced
    · exact hrelease
  · exact Acts.pure ()

theorem acts_reclaim (me : Option ℕ) : ActsOnly (reclaim me : Prog K n Unit) := by
  refine (acts_joinExperiment me).bind fun _ => (acts_modify fun s => .single (.pend s none)).bind fun _ =>
    acts_get.bind fun s => ?_
  cases s.canaryGroup with
  | none => exact Acts.pure ()
  | some g => exact acts_takeBack g

theorem acts_verify : ActsOnly (verify : Prog K n Unit) := by
  refine (acts_step fun s => (System.reads_verifyTarget s).actions).bind fun target => ?_
  cases target with
  | none => exact Acts.pure ()
  | some target =>
    refine (Acts.call _).bind fun ok => ?_
    refine acts_modify fun s => ?_
    split
    · exact (System.apart_confirmPoint _ _ _).actions
    · exact (System.apart_capPoint _ _ _).actions

theorem acts_measure (kind : Kind) : ActsOnly (measure kind : Prog K n Unit) := by
  refine acts_get.bind fun s => ?_
  dsimp only
  split
  · exact acts_verify.bind fun _ => acts_modify fun s => (System.apart_setReference s _).actions
  · have hpublish (table : TierTable K) := (acts_publish table).bind fun _ =>
      acts_modify fun s : System K n => (System.apart_startVerified s table).actions
    have hlearn (summary : Option (LengthSummary K)) : ActsOnly (Prog.modify fun s : System K n =>
        (s.setReference summary).clearOutcomes) :=
      acts_modify fun s => ((System.apart_setReference s summary).trans (System.apart_clearOutcomes _)).actions
    split
    · exact (Acts.call _).bind fun table => (hlearn _).bind fun _ => hpublish table
    · exact (Acts.call _).bind fun table => (hlearn _).bind fun _ => hpublish table

theorem returnTier_ne_park (s : System K n) : s.returnTier ≠ .park := by
  unfold System.returnTier
  split <;> decide

theorem acts_giveBack (me : ℕ) : ActsOnly (giveBack me : Prog K n Unit) := by
  refine acts_get.bind fun s => ?_
  cases s.canaryGroup with
  | none => exact Acts.pure ()
  | some g =>
    dsimp only
    split
    · exact Acts.pure ()
    · refine (acts_reclaim (some me)).attempt.bind fun result => ?_
      match result with
      | .error .cancelled => exact Acts.raise _
      | .error .error => exact Acts.pure ()
      | .ok _ => exact acts_get.bind fun s => acts_setTier g (returnTier_ne_park s)

theorem System.actions_closeExperiment (s : System K n) : System.Actions s s.closeExperiment :=
  (Relation.ReflTransGen.single (.apart ⟨⟨rfl, rfl, rfl, rfl, rfl, rfl, rfl, rfl, rfl, rfl, rfl, rfl, id⟩, rfl⟩)).tail
    (.note _ .measured (.inl rfl))

theorem acts_experiment (me : ℕ) (kind : Kind) : ActsOnly (experiment me kind : Prog K n Unit) :=
  ((acts_measure kind).handle fun _ => Acts.pure ()).ensure
    ((acts_modify fun s => System.actions_closeExperiment s).bind fun _ => acts_giveBack me)

theorem acts_retryDrain (g : Fin n) : ActsOnly (retryDrain g : Prog K n Unit) := by
  refine acts_get.bind fun s => ?_
  split
  · refine (acts_reclaim none).bind fun _ => acts_get.bind fun s => ?_
    split
    · exact Acts.pure ()
    · exact acts_setTier g (by split <;> decide)
  · exact Acts.pure ()

/-! ### A tick -/

theorem acts_expandOver (needed : ℕ) (active available : List (Fin n)) :
    ActsOnly (expandOver needed active available : Prog K n Unit) := by
  induction available generalizing active with
  | nil => exact Acts.pure ()
  | cons g rest ih =>
    unfold expandOver
    split
    · exact Acts.pure ()
    · split
      · exact ih active
      · refine (acts_modify fun s => .single (.take s g .active (.inl rfl))).bind fun _ => acts_get.bind fun s => ?_
        exact (acts_setTier g (by split <;> decide)).bind fun _ => acts_get.bind fun s => ih _

theorem acts_expandCapacity (now : K) : ActsOnly (expandCapacity now : Prog K n Unit) :=
  (acts_step fun s => (System.reads_expansion s now).actions).bind fun _ => (acts_ofModel _).bind fun _ =>
    acts_expandOver _ _ _

theorem acts_confirmCanary (g : Fin n) : ActsOnly (confirmCanary g : Prog K n Unit) := by
  refine acts_get.bind fun s => ?_
  split
  · exact acts_setTier g (by decide)
  · exact Acts.pure ()

theorem acts_reclaimCanary : ActsOnly (reclaimCanary : Prog K n Unit) := by
  refine (acts_reclaim none).attempt.bind fun result => ?_
  match result with
  | .error .cancelled => exact Acts.raise _
  | .error .error => exact Acts.pure ()
  | .ok _ => exact Acts.each acts_confirmCanary _

theorem acts_recover (g : Fin n) : ActsOnly (recover g : Prog K n Unit) := by
  refine acts_get.bind fun s => ?_
  split
  · exact acts_setTier g (by decide)
  · exact Acts.pure ()

theorem acts_followPoint (point : ClockPoint) (g : Fin n) : ActsOnly (followPoint point g : Prog K n Unit) := by
  refine acts_get.bind fun s => ?_
  split
  · exact acts_setTier g (by decide)
  · exact Acts.pure ()

theorem acts_wakeUp (target fuel : ℕ) (active routable : List (Fin n)) :
    ActsOnly (wakeUp target fuel active routable : Prog K n (List (Fin n) × List (Fin n))) := by
  induction fuel generalizing active routable with
  | zero => exact Acts.pure _
  | succ fuel ih =>
    unfold wakeUp
    split
    · exact Acts.pure _
    · refine acts_wake.bind fun woken => ?_
      cases woken with
      | none => exact Acts.pure _
      | some g => exact acts_get.bind fun s => ih _ _

theorem acts_follow (p : System.PlanStep n) : ActsOnly (follow p : Prog K n Unit) := by
  have hdrain (active : List (Fin n)) : ActsOnly (Prog.modify fun s : System K n =>
      (s.victim active).elim s fun g => s.take g .draining) := acts_modify fun s => by
    cases s.victim active with
    | none => exact .refl
    | some g => exact .single (.take s g .draining (.inr rfl))
  have hwake := (acts_wakeUp (K := K) p.target (n + 1) p.active p.routable).bind (g := fun groups =>
      if max p.target p.minimum < groups.2.length then
        Prog.modify fun s : System K n => (s.victim groups.1).elim s fun g => s.take g .draining
      else pure ()) fun groups => by
    split
    · exact hdrain _
    · exact Acts.pure ()
  unfold follow
  split
  · exact (Acts.each (acts_followPoint p.point) _).bind fun _ => hwake
  · exact hwake

/-- A group parks and goes to the park point in one go. -/
theorem acts_finishDraining (g : Fin n) : ActsOnly (finishDraining g : Prog K n Unit) := by
  intro w₀ w hw
  refine Co.wp_bind.mpr ?_
  show (if (w.state.park g).1 then setTier g .park else pure () : Prog K n Unit).wp _ _ w₀
    { w with state := (w.state.park g).2 }
  unfold System.park
  by_cases hidle : (w.state.group g).state = .draining ∧ (w.state.group g).nInflight = 0
  · have hpark : Moved w₀ { w with state := w.state.setState g .park } :=
      hw.trans (moved_map (f := fun s => s.setState g .park) (.single (.park _ _ hidle.1 hidle.2)))
    simp only [if_pos hidle, if_true]
    refine wp_setTier single_clock hpark fun _ => .inr ?_
    rw [System.setState_nInflight]
    exact hidle.2
  · simp only [if_neg hidle, Bool.false_eq_true, if_false]
    exact hw

theorem acts_logEnergy (now : K) : ActsOnly (logEnergy now : Prog K n Unit) := by
  refine (acts_step fun s => (System.apart_energyDue s now).actions).bind fun due => acts_get.bind fun s => ?_
  split
  · exact Acts.each (fun _ => Acts.call _) _
  · exact Acts.pure ()

/-- The target of a retry is the tier the group has. -/
theorem acts_retryLock (now : K) (g : Fin n) : ActsOnly (retryLock now g : Prog K n Unit) := by
  intro w₀ w hw
  refine wp_get.mpr ?_
  cases hd : w.state.dueRetry g now with
  | none => exact hw
  | some tier =>
    cases tier with
    | none => exact acts_modify (fun s => .single (.setRetry s g none)) w₀ w hw
    | some tier =>
      have htold : Moved w₀ (w.map fun s => s.tell (.retried s.controller.fullEffort tier)) :=
        hw.trans (moved_map (.single (.note _ _ (.inr (.inr ⟨tier, rfl⟩)))))
      refine wp_setTier single_clock htold fun hp => .inl ?_
      unfold System.dueRetry at hd
      split at hd
      · cases hd
      · split at hd
        · cases hd
        · split at hd <;> cases hd
          exact hp

theorem acts_relieve (active : List (Fin n)) : ActsOnly (relieve active : Prog K n Unit) := by
  refine acts_wake.bind fun woken => ?_
  cases woken with
  | some g => exact Acts.pure ()
  | none =>
    refine (Acts.atomic moved_abort).bind fun stopped => acts_get.bind fun s => ?_
    cases (if stopped = true then none else s.boosted active) with
    | none => exact Acts.pure ()
    | some g => exact acts_setTier g (by decide)

/-- The rest of entering full effort: the groups change to MAX, and the Canary is taken back. -/
theorem acts_raiseTiers : ActsOnly (do
    let changes ← Co.atomic raiseTiers
    if changes = [] then pure () else Prog.join changes
    reclaimCanary : Prog K n Unit) := by
  refine (Acts.atomic moved_raiseTiers).bind fun changes => ?_
  split
  · exact acts_reclaimCanary
  · exact (Acts.call _).bind fun _ => acts_reclaimCanary

end Programs
end CanaTune
