import CanaTune.Theorems.Acts

/-! Every tick is a run of the signs' machine, with acts of its own and of the other tasks in between; what the moves
    and the acts keep holds at every await of the Controller. -/

namespace CanaTune
variable {K : Type} [Scalar K] {n : ℕ} {α : Type} {c : Co.Conduct (Runtime K n) (Op n) (Op.Ans K) Exn}
  {J : Phase → System K n → Prop}

/-- What holds in every phase of a tick, whatever acts and moves are made. -/
structure Phased (J : Phase → System K n → Prop) : Prop where
  act : ∀ {ph s s'}, J ph s → System.Act s s' → J ph s'
  move : ∀ {ph ph' s s'}, J ph s → System.Aside s s' → s.signs.Step s.now ph ph' s'.signs → J ph' s'
  steady : ∀ {ph s}, J ph s → J .steady s

theorem Phased.acts (h : Phased J) {ph : Phase} {s s' : System K n} (hs : J ph s) (ha : System.Actions s s') : J ph s' := by
  induction ha with
  | refl => exact hs
  | tail _ hact ih => exact h.act ih hact

/-- The phase of the tick, as it is known between two awaits. -/
def At (J : Phase → System K n → Prop) (ph : Phase) (w : Runtime K n) : Prop := J ph w.state

/-- A conduct that allows a tick its acts and moves. -/
structure Governed (c : Co.Conduct (Runtime K n) (Op n) (Op.Ans K) Exn) (J : Phase → System K n → Prop) : Prop where
  kept : Phased J
  resume : ∀ {ph w w'}, At J ph w → c.rely w w' → c.guar w' (c.resume w')
  rely : ∀ {ph w w'}, At J ph w → c.rely w w' → At J ph (c.resume w')
  acts : ∀ {a w₀ w w'}, c.guar w₀ w → At J a w → Moved w w' → c.guar w₀ w'
  moves : ∀ {ph ph' w₀ w s'}, c.guar w₀ w → At J ph w → System.Aside w.state s' → J ph' s' →
    c.guar w₀ { w with state := s' }

/-- A stretch of a tick; an exception leaves it steady. -/
abbrev Ticks (c : Co.Conduct (Runtime K n) (Op n) (Op.Ans K) Exn) (J : Phase → System K n → Prop) (P : Runtime K n → Prop)
    (p : Prog K n α) (Q : α → Runtime K n → Prop) : Prop :=
  Co.Triple c P p Q fun _ => At J .steady

theorem triple_get {P : Runtime K n → Prop} {k : System K n → Prog K n α} {Q : α → Runtime K n → Prop}
    {E : Exn → Runtime K n → Prop}
    (h : ∀ s, Co.Triple c (fun w => P w ∧ w.state = s) (k s) Q E) : Co.Triple c P (Prog.get >>= k) Q E := fun w₀ w hw hp =>
  h w.state w₀ w hw ⟨hp, rfl⟩

/-- The rest of a tick's feedback control, once its verdict is there. -/
def respond (now : K) (v : Verdict K n) : Prog K n Unit := do
  let s ← Prog.get
  if s.controller.fullEffort then holdFullEffort now v
  else do
    let decision ← Prog.step fun s => match s.decision now v with
      | .ok (d, s) => (some d, s)
      | .error _ => (none, s)
    match decision with
    | none => Co.raise .error
    | some d => carryOut now d

theorem feedbackControl_eq (now : K) :
    (feedbackControl now : Prog K n Unit) = (Prog.step fun s => s.observe now) >>= respond now := rfl

namespace Governed

theorem acts_ticks (h : Governed c J) {p : Prog K n α} (hp : ActsOnly p) (ph : Phase) :
    Ticks c J (At J ph) p fun _ => At J ph :=
  (hp.triple (X := At J ph) (fun hw hX hm => h.acts hw hX hm) h.resume (fun hX hm => h.kept.acts hX hm.1) h.rely).conseq
    (fun _ hp => hp) (fun _ _ hp => hp) fun _ _ hp => h.kept.steady hp

/-- A step that is one move. -/
theorem step_ticks (h : Governed c J) {f : System K n → α × System K n} {a b : Phase} {P : Runtime K n → Prop}
    {Q : α → Runtime K n → Prop} (hP : ∀ w, P w → At J a w)
    (hf : ∀ w, P w → System.Aside w.state (f w.state).2 ∧ w.state.signs.Step w.state.now a b (f w.state).2.signs)
    (hQ : ∀ w, P w → J b (f w.state).2 → Q (f w.state).1 { w with state := (f w.state).2 }) :
    Ticks c J P (Prog.step f) Q := by
  intro w₀ w hw hp
  obtain ⟨haside, hmove⟩ := hf w hp
  have hJ := h.kept.move (hP w hp) haside hmove
  exact ⟨h.moves hw (hP w hp) haside hJ, hQ w hp hJ⟩

theorem modify_ticks (h : Governed c J) {f : System K n → System K n} {a b : Phase} {P : Runtime K n → Prop}
    (hP : ∀ w, P w → At J a w)
    (hf : ∀ w, P w → System.Aside w.state (f w.state) ∧ w.state.signs.Step w.state.now a b (f w.state).signs) :
    Ticks c J P (Prog.modify f) fun _ => At J b := by
  intro w₀ w hw hp
  obtain ⟨haside, hmove⟩ := hf w hp
  have hJ := h.kept.move (hP w hp) haside hmove
  exact ⟨h.moves hw (hP w hp) haside hJ, hJ⟩

/-- Full effort is entered where the signs say why, or held. -/
theorem enterFullEffort (h : Governed c J) (reason : EffortReason) :
    Ticks c J (fun w => At J .judged w ∧ (w.state.signs.fullEffort = false → w.state.signs.Because w.state.now reason))
      (enterFullEffort reason) fun _ => At J .steady := by
  refine Co.Triple.bind (R := fun _ => At J .steady) (Co.Triple.update fun w₀ w hw hp => ?_) fun _ =>
    h.acts_ticks acts_raiseTiers .steady
  have hraised := h.kept.move hp.1 (System.aside_raise w.state reason) (System.signs_raise w.state reason hp.2)
  have hguar := h.moves hw hp.1 (System.aside_raise w.state reason) hraised
  unfold raiseEffort
  dsimp only
  split
  · exact ⟨hguar, hraised⟩
  · have habort := moved_abort (w.map fun s => s.raise reason)
    exact ⟨h.acts hguar (a := .steady) hraised habort, h.kept.acts hraised habort.1⟩

theorem holdFullEffort (h : Governed c J) (now : K) (v : Verdict K n) :
    Ticks c J (fun w => At J .judged w ∧ w.state.signs.fullEffort = true) (holdFullEffort now v) fun _ => At J .steady := by
  have henter := (h.enterFullEffort .reclaimRetry).conseq
    (A := fun w => At J .judged w ∧ w.state.signs.fullEffort = true)
    (fun w hw => ⟨hw.1, fun hoff => absurd (hw.2.symm.trans hoff) (by decide)⟩) (fun _ _ hp => hp) fun _ _ hp => hp
  refine henter.bind fun _ =>
    (h.acts_ticks (acts_step fun s => (System.reads_mayLeave s now v.feedback).actions) .steady).bind fun leave => ?_
  split
  · have hleave : Ticks c J (At J .steady) (Prog.modify fun s => s.endFullEffort) fun _ => At J .leaving :=
      h.modify_ticks (fun _ hp => hp) fun w _ => ⟨System.aside_endFullEffort w.state, .leave w.state.signs⟩
    refine hleave.bind fun _ => (h.acts_ticks (Acts.each acts_recover _) .leaving).bind fun _ => ?_
    refine h.modify_ticks (a := .leaving) (fun _ hp => hp) fun w _ => ⟨System.aside_setMode w.state .energy, ?_⟩
    rw [System.signs_setMode]
    exact .recovered w.state.signs
  · exact Co.Triple.pure fun _ hp => hp

/-- The phase a decision leaves the tick in, and why it may enter full effort. -/
def Carried (J : Phase → System K n → Prop) : System.Decision → Runtime K n → Prop
  | .nothing => At J .steady
  | .fullEffort reason => fun w => At J .judged w ∧
    (w.state.signs.fullEffort = false → w.state.signs.Because w.state.now reason)
  | .expand => At J .expanding

theorem carryOut (h : Governed c J) (now : K) (d : System.Decision) :
    Ticks c J (Carried J d) (carryOut now d) fun _ => At J .steady := by
  cases d with
  | nothing => exact Co.Triple.pure fun _ hp => hp
  | fullEffort reason => exact h.enterFullEffort reason
  | expand =>
    refine (h.acts_ticks (acts_expandCapacity now) .expanding).bind fun _ => h.modify_ticks (fun _ hp => hp) fun w _ => ?_
    exact ⟨System.aside_endExpansion w.state, System.signs_endExpansion w.state⟩

/-- A tick acts on its verdict. -/
theorem respond (h : Governed c J) (now : K) (v : Verdict K n) :
    Ticks c J (fun w => At J .judged w ∧ w.state.now = now ∧ w.state.Judged v) (respond now v) fun _ => At J .steady := by
  refine triple_get fun s => ?_
  split
  case isTrue hon =>
    refine (h.holdFullEffort now v).conseq (fun w hp => ⟨hp.1.1, ?_⟩) (fun _ _ hp => hp) fun _ _ hp => hp
    rw [hp.2]
    exact hon
  case isFalse hoff =>
    refine Co.Triple.bind (R := fun d w => match d with
      | some d => Carried J d w
      | none => At J .steady w) (fun w₀ w hw hp => ?_) fun d => ?_
    · obtain ⟨⟨hJ, hnow, hjudged⟩, hs⟩ := hp
      have hoff : w.state.controller.fullEffort = false := by
        rw [hs]
        exact Bool.eq_false_of_not_eq_true hoff
      subst hnow
      show c.guar w₀ (w.map _) ∧ _
      dsimp only [World.map]
      generalize hd : w.state.decision w.state.now v = decided
      cases decided with
      | error e => exact ⟨hw, h.kept.steady hJ⟩
      | ok d =>
        obtain ⟨d, u⟩ := d
        dsimp only
        have haside := System.aside_decision hd
        have hdecided := System.decision_signs hd hjudged hoff
        -- Each decision is one move, except full effort, which only carries its reason to the raise.
        cases d with
        | nothing =>
          have hu : J .steady u := h.kept.move hJ haside hdecided
          exact ⟨h.moves hw hJ haside hu, hu⟩
        | expand =>
          have hu : J .expanding u := h.kept.move hJ haside hdecided
          exact ⟨h.moves hw hJ haside hu, hu⟩
        | fullEffort reason =>
          obtain ⟨hsigns, hbecause⟩ := hdecided
          have hu : J .judged u := h.kept.act hJ (.apart ⟨haside, hsigns⟩)
          refine ⟨h.moves hw hJ haside hu, hu, fun _ => ?_⟩
          show u.signs.Because u.now reason
          rw [hsigns, show u.now = w.state.now from haside.now]
          exact hbecause
    · cases d with
      | none => exact Co.Triple.raise fun _ hp => hp
      | some d => exact h.carryOut now d

/-- What a tick observes, it decides on at once. -/
theorem feedbackControl (h : Governed c J) (now : K) :
    Ticks c J (fun w => At J .steady w ∧ w.state.now = now) (feedbackControl now) fun _ => At J .steady := by
  have hobserve : Ticks c J (fun w => At J .steady w ∧ w.state.now = now) (Prog.step fun s => s.observe now)
      fun v w => At J .judged w ∧ w.state.now = now ∧ w.state.Judged v := by
    refine h.step_ticks (b := .judged) (fun w hp => hp.1) (fun w hp => ?_) fun w hp hJ => ?_
    · rw [← hp.2]
      exact ⟨System.aside_observe w.state _, (System.observe_signs w.state).1⟩
    · rw [← hp.2] at hJ ⊢
      exact ⟨hJ, (System.aside_observe w.state _).now, (System.observe_signs w.state).2⟩
  rw [feedbackControl_eq]
  exact hobserve.bind fun v => h.respond now v

theorem plan (h : Governed c J) (now : K) : Ticks c J (At J .steady) (plan now) fun _ => At J .steady := by
  have hchoose : Ticks c J (At J .steady) (Prog.step fun s => s.choosePlan now) fun _ => At J .steady := by
    intro w₀ w hw hp
    have haside := System.aside_choosePlan w.state now
    have hJ : J .steady (w.state.choosePlan now).2 := by
      rcases System.signs_choosePlan w.state now with hsigns | ⟨hmode, hsigns⟩
      · exact h.kept.act hp (.apart ⟨haside, hsigns⟩)
      · refine h.kept.move hp haside ?_
        rw [hsigns]
        exact .warn w.state.signs hmode
    exact ⟨h.moves hw hp haside hJ, hJ⟩
  refine hchoose.bind fun result => (h.acts_ticks (acts_ofModel result) .steady).bind fun p => ?_
  cases p with
  | none => exact Co.Triple.pure fun _ hp => hp
  | some p => exact h.acts_ticks (acts_follow p) .steady

theorem legacyControl (h : Governed c J) (now : K) :
    Ticks c J (At J .steady) (legacyControl now) fun _ => At J .steady := by
  have hplan := (h.plan now).bind fun _ => h.acts_ticks (Acts.each acts_finishDraining (List.finRange n)) .steady
  refine (h.acts_ticks (acts_step fun s => (System.apart_newPressure s now).actions) .steady).bind fun pressed =>
    triple_get fun s => ?_
  refine Co.Triple.conseq (P := At J .steady) ?_ (fun _ hp => hp.1) (fun _ _ hp => hp) fun _ _ hp => hp
  dsimp only
  split
  · exact (h.acts_ticks (acts_relieve _) .steady).bind fun _ => hplan
  · refine (h.acts_ticks (acts_step fun s => (System.apart_unboosted s _ now).actions) .steady).bind fun calmed => ?_
    cases calmed with
    | none => exact hplan
    | some g => exact (h.acts_ticks (acts_setTier g (by decide)) .steady).bind fun _ => hplan

theorem bestEffortControl (h : Governed c J) (now : K) :
    Ticks c J (fun w => At J .steady w ∧ w.state.now = now) (bestEffortControl now) fun _ => At J .steady := by
  have hget {P : Runtime K n → Prop} {k : System K n → Prog K n Unit} (hk : ∀ s, Ticks c J P (k s) fun _ => At J .steady) :
      Ticks c J P (Prog.get >>= k) fun _ => At J .steady := triple_get fun s =>
    (hk s).conseq (fun _ hp => hp.1) (fun _ _ hp => hp) fun _ _ hp => hp
  have hfinish := h.acts_ticks (Acts.each acts_finishDraining (List.finRange n)) .steady
  refine (h.feedbackControl now).bind fun _ => hget fun s => (h.acts_ticks (acts_logEnergy _) .steady).bind fun _ => ?_
  refine (h.acts_ticks (Acts.each (acts_retryLock _) _) .steady).bind fun _ => hget fun later => ?_
  split
  · split
    · exact (h.plan _).bind fun _ => hfinish
    · exact hfinish
  · exact Co.Triple.pure fun _ hp => hp

theorem tickBody (h : Governed c J) : Ticks c J (At J .steady) tickBody fun _ => At J .steady := by
  refine triple_get fun s => ?_
  split
  · exact (h.bestEffortControl s.now).conseq (fun w hp => ⟨hp.1, by rw [hp.2]⟩) (fun _ _ hp => hp) fun _ _ hp => hp
  · refine Co.Triple.conseq (P := At J .steady) ?_ (fun _ hp => hp.1) (fun _ _ hp => hp) fun _ _ hp => hp
    refine (h.acts_ticks (acts_logEnergy _) .steady).bind fun _ =>
      (h.acts_ticks (Acts.each (acts_retryLock _) _) .steady).bind fun _ => ?_
    refine triple_get fun later => Co.Triple.conseq (P := At J .steady) ?_ (fun _ hp => hp.1) (fun _ _ hp => hp)
      fun _ _ hp => hp
    split
    · exact h.legacyControl _
    · exact Co.Triple.pure fun _ hp => hp

theorem tick (h : Governed c J) : Ticks c J (At J .steady) tick fun _ => At J .steady := by
  have hlock (locked : Bool) : Ticks c J (At J .steady) (Prog.modify fun s => s.lockControl locked) fun _ => At J .steady :=
    h.acts_ticks (acts_modify fun s => .single (.lockControl s locked)) .steady
  exact (hlock true).bind fun _ => h.tickBody.ensure (fun _ => hlock false) (fun _ => hlock false) fun _ _ hp => hp

theorem controllerLoop (h : Governed c J) (ticks : ℕ) :
    Ticks c J (At J .steady) (controllerLoop ticks) fun _ => At J .steady := by
  induction ticks with
  | zero => exact Co.Triple.pure fun _ hp => hp
  | succ ticks ih =>
    refine (h.acts_ticks (acts_modify fun s => (System.apart_clearPressureEvent s).actions) .steady).bind fun _ => ?_
    refine Co.Triple.bind (h.tick.handle fun e => ?_) fun _ => (h.acts_ticks (Acts.call _) .steady).bind fun _ => ih
    split
    · exact Co.Triple.pure fun _ hp => hp
    · exact Co.Triple.raise fun _ hp => hp

end Governed
end CanaTune
