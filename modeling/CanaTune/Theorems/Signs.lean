import CanaTune.Theorems.Reads

/-! The signs a tick decides from, as a machine of their own. Between two awaits a tick observes and decides; the locks
    of an expansion and of a recovery come in between. Only a tick moves it. -/

namespace CanaTune
variable {K : Type} [Scalar K] {n : ℕ}

/-- The Controller's own part of the trace. -/
def Event.isControl : Event K n → Bool
  | .verdict _ _ _ _ _ => true
  | .expand _ => true
  | .redirect _ => true
  | .expanded _ => true
  | .fullEffort _ _ => true
  | _ => false

/-- What a tick decides from, and what it told. -/
structure Signs (K : Type) [Scalar K] (n : ℕ) where
  settings : ControllerSettings K
  mode : Mode
  fullEffort : Bool
  confirmSince : Option K
  severeSince : Option K
  pressureTicks : List (K × Bool)
  expandedAt : Option K
  redirectedAt : Option K
  history : List (Event K n)

def System.signs (s : System K n) : Signs K n where
  settings := s.controller.settings
  mode := s.controller.mode
  fullEffort := s.controller.fullEffort
  confirmSince := s.controller.confirmSince
  severeSince := s.controller.severeSince
  pressureTicks := s.controller.pressureTicks
  expandedAt := s.controller.expandedAt
  redirectedAt := s.controller.redirectedAt
  history := s.trace.filter (·.isControl)

/-- Where a tick stands. -/
inductive Phase
  | steady
  /-- The verdict of this moment is remembered. -/
  | judged
  /-- The groups of an expansion are being woken. -/
  | expanding
  /-- Full effort is over, its groups change back. -/
  | leaving

namespace Signs

def since (e : Signs K n) : WithBot K × WithBot K :=
  if e.mode = .expanding then (e.expandedAt.elim ⊥ (↑), e.redirectedAt.elim ⊥ (↑)) else (⊥, ⊥)

/-- A warning, and the first pressure, have modes of their own. -/
def observed (mode : Mode) (warned pressure : Bool) : Mode :=
  let mode := if warned ∧ mode = .energy then .warning else mode
  if pressure ∧ (mode = .energy ∨ mode = .warning) then .confirming else mode

def observe (e : Signs K n) (now : K) (warned pressure severe exhausted : Bool) : Signs K n :=
  { e with
    mode := observed e.mode warned pressure
    confirmSince := lasting e.confirmSince pressure now
    severeSince := lasting e.severeSince severe now
    pressureTicks := System.rememberTick e.settings e.pressureTicks now pressure
    history := e.history ++ [.verdict now pressure exhausted e.since.1 e.since.2] }

/-- A tick enters and leaves no expansion by what it observes. -/
@[simp] theorem observed_expanding (mode : Mode) (warned pressure : Bool) :
    observed mode warned pressure = .expanding ↔ mode = .expanding := by
  unfold observed
  cases mode <;> cases warned <;> cases pressure <;> simp

@[simp] theorem since_observe (e : Signs K n) (now : K) (warned pressure severe exhausted : Bool) :
    (e.observe now warned pressure severe exhausted).since = e.since := by
  simp [since, observe]

def confirmed (e : Signs K n) (now : K) : Bool :=
  held e.confirmSince now e.settings.confirmS || e.settings.mostly e.pressureTicks

/-- The grace of an expansion is over. -/
def settled (e : Signs K n) (now : K) : Prop :=
  ∃ at_, e.expandedAt = some at_ ∧ e.settings.expansionGraceS ≤ now - at_

/-- The verdict of this moment, in the evidence of the mode. -/
def told (e : Signs K n) (now : K) : Prop :=
  ∃ pressure exhausted, e.history.getLast? = some (.verdict now pressure exhausted e.since.1 e.since.2)

/-- Why a tick enters full effort. -/
inductive Because (e : Signs K n) (now : K) : EffortReason → Prop
  | severe (held : held e.severeSince now e.settings.confirmS = true) : Because e now .severeBacklog
  | exhausted (pressure : Bool) (since admittedSince : WithBot K)
      (last : e.history.getLast? = some (.verdict now pressure true since admittedSince)) : Because e now .decodeExhausted
  | expansion (confirmed : e.confirmed now = true) (mode : e.mode = .expanding) (settled : e.settled now)
      (redirected : e.redirectedAt = none) (told : e.told now) : Because e now .expansionInsufficient
  | redirect (confirmed : e.confirmed now = true) (mode : e.mode = .expanding) (settled : e.settled now) (at_ : K)
      (redirected : e.redirectedAt = some at_) (told : e.told now) : Because e now .redirectInsufficient
  | nothing (confirmed : e.confirmed now = true) (mode : e.mode ≠ .expanding) : Because e now .nothingToExpand

def raised (e : Signs K n) (now : K) (reason : EffortReason) : Signs K n :=
  { e with mode := .fullEffort, redirectedAt := none, fullEffort := true, history := e.history ++ [.fullEffort now reason] }

def redirected (e : Signs K n) (now : K) : Signs K n :=
  { e with
    mode := .expanding, expandedAt := some now, redirectedAt := some now, confirmSince := none
    history := e.history ++ [.redirect now] }

/-- One move of the machine. -/
inductive Step (now : K) : Phase → Signs K n → Phase → Signs K n → Prop
  | observe (e : Signs K n) (warned pressure severe exhausted : Bool)
      (near : severe = true → pressure = true) :
      Step now .steady e .judged (e.observe now warned pressure severe exhausted)
  | nothing (e : Signs K n) : Step now .judged e .steady e
  /-- Quiet for long enough. -/
  | calm (e : Signs K n) : Step now .judged e .steady { e with mode := .energy, expandedAt := none, redirectedAt := none }
  | redirect (e : Signs K n) (confirmed : e.confirmed now = true) (settled : e.mode = .expanding → e.settled now)
      (off : e.fullEffort = false) : Step now .judged e .steady (e.redirected now)
  | expand (e : Signs K n) (confirmed : e.confirmed now = true) (mode : e.mode ≠ .expanding) (off : e.fullEffort = false) :
      Step now .judged e .expanding { e with mode := .expanding, history := e.history ++ [.expand now] }
  | raise (e : Signs K n) (reason : EffortReason) (because : e.Because now reason) (off : e.fullEffort = false) :
      Step now .judged e .steady (e.raised now reason)
  /-- Full effort is held. -/
  | hold (e : Signs K n) (on : e.fullEffort = true) :
      Step now .judged e .steady { e with mode := .fullEffort, redirectedAt := none }
  | expanded (e : Signs K n) : Step now .expanding e .steady
      { e with expandedAt := some now, confirmSince := none, history := e.history ++ [.expanded now] }
  | leave (e : Signs K n) :
      Step now .steady e .leaving { e with fullEffort := false, expandedAt := none, redirectedAt := none }
  | recovered (e : Signs K n) : Step now .leaving e .steady { e with mode := .energy }
  /-- The plan warns. -/
  | warn (e : Signs K n) (mode : e.mode = .energy) : Step now .steady e .steady { e with mode := .warning }

end Signs

namespace System

@[simp] theorem signs_tell (s : System K n) {e : Event K n} (h : e.isControl = true) :
    (s.tell e).signs = { s.signs with history := s.signs.history ++ [e] } := by
  simp [signs, tell, h]

theorem signs_tell_other (s : System K n) {e : Event K n} (h : e.isControl = false) : (s.tell e).signs = s.signs := by
  simp [signs, tell, h]

@[simp] theorem signs_setMode (s : System K n) (mode : Mode) : (s.setMode mode).signs = { s.signs with mode } := by
  unfold setMode
  split
  case isTrue h =>
    rw [← h]
    rfl
  case isFalse => rfl

theorem Reads.signs {s s' : System K n} (h : Reads s s') : s'.signs = s.signs := by
  simp only [System.signs]
  rw [h.controller, h.trace]

/-! ### Writes aside -/

/-- The groups, the requests, the clocks, and the claim on the Canary stay; the flags of full effort stay together. -/
structure Aside (s s' : System K n) : Prop where
  groups : s'.router.groups = s.router.groups
  tickets : s'.router.tickets = s.router.tickets
  settings : s'.router.settings = s.router.settings
  now : s'.router.now = s.router.now
  clockEpochs : s'.router.clockEpochs = s.router.clockEpochs
  controlLock : s'.controller.controlLock = s.controller.controlLock
  retry : s'.controller.retry = s.controller.retry
  locator : s'.canary.locator = s.canary.locator
  pending : s'.canary.pending = s.canary.pending
  task : s'.canary.task = s.canary.task
  pairs : s'.pairs = s.pairs
  others : s'.trace.filter (!·.isControl) = s.trace.filter (!·.isControl)
  effort : s.router.fullEffort = s.controller.fullEffort → s'.router.fullEffort = s'.controller.fullEffort

namespace Aside
variable {s s' u : System K n}

theorem refl (s : System K n) : Aside s s := ⟨rfl, rfl, rfl, rfl, rfl, rfl, rfl, rfl, rfl, rfl, rfl, rfl, id⟩

theorem trans (h₁ : Aside s s') (h₂ : Aside s' u) : Aside s u where
  groups := h₂.groups.trans h₁.groups
  tickets := h₂.tickets.trans h₁.tickets
  settings := h₂.settings.trans h₁.settings
  now := h₂.now.trans h₁.now
  clockEpochs := h₂.clockEpochs.trans h₁.clockEpochs
  controlLock := h₂.controlLock.trans h₁.controlLock
  retry := h₂.retry.trans h₁.retry
  locator := h₂.locator.trans h₁.locator
  pending := h₂.pending.trans h₁.pending
  task := h₂.task.trans h₁.task
  pairs := h₂.pairs.trans h₁.pairs
  others := h₂.others.trans h₁.others
  effort h := h₂.effort (h₁.effort h)

theorem group (h : Aside s s') (g : Fin n) : s'.group g = s.group g := by
  rw [System.group, h.groups, System.group]

theorem canaryGroup (h : Aside s s') : s'.canaryGroup = s.canaryGroup := by
  unfold System.canaryGroup
  simp only [h.group]

end Aside

/-- The signs stay, too. -/
structure Apart (s s' : System K n) : Prop extends Aside s s' where
  signs : s'.signs = s.signs

theorem Apart.refl (s : System K n) : Apart s s := ⟨.refl s, rfl⟩

theorem Apart.trans {s s' u : System K n} (h₁ : Apart s s') (h₂ : Apart s' u) : Apart s u :=
  ⟨h₁.toAside.trans h₂.toAside, h₂.signs.trans h₁.signs⟩

theorem Reads.apart {s s' : System K n} (h : Reads s s') : Apart s s' where
  groups := h.router.groups
  tickets := h.router.tickets
  settings := h.router.settings
  now := h.router.now
  clockEpochs := h.router.clockEpochs
  controlLock := by rw [h.controller]
  retry := by rw [h.controller]
  locator := by rw [h.canary]
  pending := by rw [h.canary]
  task := by rw [h.canary]
  pairs := h.pairs
  others := by rw [h.trace]
  effort := by
    rw [h.controller, h.router.fullEffort]
    exact id
  signs := h.signs

theorem Reads.aside {s s' : System K n} (h : Reads s s') : Aside s s' := h.apart.toAside

/-- The Controller tells of itself. -/
theorem aside_tell (s : System K n) {e : Event K n} (h : e.isControl = true) : Aside s (s.tell e) :=
  ⟨rfl, rfl, rfl, rfl, rfl, rfl, rfl, rfl, rfl, rfl, rfl, by simp [tell, h], id⟩

theorem aside_setMode (s : System K n) (mode : Mode) : Aside s (s.setMode mode) := by
  unfold setMode
  split
  · exact .refl s
  · exact ⟨rfl, rfl, rfl, rfl, rfl, rfl, rfl, rfl, rfl, rfl, rfl, rfl, id⟩

theorem apart_adopt (s : System K n) (table : TierTable K) : Apart s (s.adopt table) :=
  ⟨⟨rfl, rfl, rfl, rfl, rfl, rfl, rfl, rfl, rfl, rfl, rfl, rfl, id⟩, rfl⟩

theorem aside_noteWarning (s : System K n) (now : K) : Aside s (s.noteWarning now) := by
  have hseen : Aside s { s with controller := { s.controller with warningSeen := s.router.production.riskSignals } } :=
    ⟨rfl, rfl, rfl, rfl, rfl, rfl, rfl, rfl, rfl, rfl, rfl, rfl, id⟩
  have hat : Aside s { s with controller := { s.controller with
      warningSeen := s.router.production.riskSignals, warningAt := (now : WithBot K) } } :=
    ⟨rfl, rfl, rfl, rfl, rfl, rfl, rfl, rfl, rfl, rfl, rfl, rfl, id⟩
  unfold noteWarning
  dsimp only
  split
  · split
    · exact hat.trans (aside_setMode _ _)
    · exact hat
  · exact hseen

theorem aside_remember (s : System K n) (now : K) (f : Feedback K n) : Aside s (s.remember now f) := by
  unfold remember
  dsimp only
  split
  · refine Aside.trans ?_ (aside_setMode _ _)
    exact ⟨rfl, rfl, rfl, rfl, rfl, rfl, rfl, rfl, rfl, rfl, rfl, rfl, id⟩
  · exact ⟨rfl, rfl, rfl, rfl, rfl, rfl, rfl, rfl, rfl, rfl, rfl, rfl, id⟩

theorem aside_dExhausted (s : System K n) (now : K) : Aside s (s.dExhausted now).2 := by
  unfold dExhausted
  dsimp only
  split_ifs <;> exact ⟨rfl, rfl, rfl, rfl, rfl, rfl, rfl, rfl, rfl, rfl, rfl, rfl, id⟩

theorem aside_observe (s : System K n) (now : K) : Aside s (s.observe now).2 := by
  have hfeedback := (aside_noteWarning s now).trans (reads_productionFeedback (s.noteWarning now)).aside
  unfold observe
  dsimp only
  generalize (s.noteWarning now).productionFeedback = e at hfeedback ⊢
  obtain ⟨f, u⟩ := e
  have hmarks := (hfeedback.trans (aside_remember u now f)).trans (aside_dExhausted (u.remember now f) now)
  generalize (u.remember now f).dExhausted now = e at hmarks ⊢
  exact hmarks.trans (aside_tell _ rfl)

theorem signs_noteWarning (s : System K n) (now : K) : ∃ warned : Bool, (s.noteWarning now).signs =
    { s.signs with mode := if warned ∧ s.signs.mode = .energy then .warning else s.signs.mode } := by
  unfold noteWarning
  dsimp only
  split
  · refine ⟨true, ?_⟩
    split
    case isTrue hmode =>
      rw [signs_setMode, if_pos ⟨rfl, hmode⟩]
      rfl
    case isFalse hmode =>
      rw [if_neg fun h => hmode h.2]
      rfl
  · exact ⟨false, rfl⟩

theorem signs_remember (s : System K n) (now : K) (f : Feedback K n) : (s.remember now f).signs =
    { s.signs with
      mode := if f.pressure ∧ (s.signs.mode = .energy ∨ s.signs.mode = .warning) then .confirming else s.signs.mode
      confirmSince := lasting s.signs.confirmSince f.pressure now
      severeSince := lasting s.signs.severeSince f.severe now
      pressureTicks := rememberTick s.signs.settings s.signs.pressureTicks now f.pressure } := by
  unfold remember
  dsimp only
  split
  case isTrue h =>
    rw [signs_setMode]
    simp only [signs]
    congr 1
    exact (if_pos h).symm
  case isFalse h =>
    simp only [signs]
    congr 1
    exact (if_neg h).symm

/-- A verdict on the signs of this moment. -/
structure Judged (s : System K n) (v : Verdict K n) : Prop where
  confirmed : v.confirmed = s.signs.confirmed s.now
  emergency : v.emergency = held s.signs.severeSince s.now s.signs.settings.confirmS
  exhausted : v.dExhausted = true → ∃ pressure since admittedSince,
    s.signs.history.getLast? = some (.verdict s.now pressure true since admittedSince)
  told : s.signs.told s.now

theorem productionFeedback_severe (s : System K n) (h : s.productionFeedback.1.severe = true) :
    s.productionFeedback.1.pressure = true :=
  Router.pressure_of_severe (s.controller.settings.feedbackNearSlo_le.trans one_le_two) h

theorem since_noteWarning (s : System K n) (now : K) : (s.noteWarning now).since = s.signs.since := by
  obtain ⟨warned, hwarned⟩ := signs_noteWarning s now
  show (s.noteWarning now).signs.since = s.signs.since
  rw [hwarned]
  unfold Signs.since
  by_cases h : warned = true ∧ s.signs.mode = .energy
  · rw [if_neg (by simp [h]), if_neg (by simp [h])]
  · simp only [if_neg h]

/-- What a tick observes is one move of its signs, and its verdict is on them. -/
theorem observe_signs (s : System K n) : s.signs.Step s.now .steady .judged (s.observe s.now).2.signs ∧
    (s.observe s.now).2.Judged (s.observe s.now).1 := by
  obtain ⟨warned, hwarned⟩ := signs_noteWarning s s.now
  have hnow : (s.noteWarning s.now).productionFeedback.2.now = s.now :=
    ((aside_noteWarning s s.now).trans (reads_productionFeedback _).aside).now
  have hfeedback := (reads_productionFeedback (s.noteWarning s.now)).signs.trans hwarned
  have hsevere := productionFeedback_severe (s.noteWarning s.now)
  have hsince := since_noteWarning s s.now
  unfold observe
  dsimp only
  rw [hsince]
  generalize (s.noteWarning s.now).productionFeedback = e at hnow hfeedback hsevere ⊢
  obtain ⟨f, u⟩ := e
  dsimp only at hnow hfeedback hsevere ⊢
  have hremember := signs_remember u s.now f
  rw [hfeedback] at hremember
  have hmarks := (aside_remember u s.now f).trans (aside_dExhausted (u.remember s.now f) s.now)
  have hexhausted : ((u.remember s.now f).dExhausted s.now).2.signs = (u.remember s.now f).signs := by
    unfold dExhausted
    dsimp only
    split_ifs <;> rfl
  generalize (u.remember s.now f).dExhausted s.now = e at hmarks hexhausted ⊢
  obtain ⟨exhausted, u'⟩ := e
  dsimp only at hmarks hexhausted ⊢
  -- Only the verdict is told beside what was remembered of the warning and of the feedback.
  have hobserved : (u'.tell (.verdict s.now f.pressure exhausted s.signs.since.1 s.signs.since.2)).signs =
      s.signs.observe s.now warned f.pressure f.severe exhausted := by
    rw [signs_tell _ rfl, hexhausted, hremember]
    rfl
  have hmoment : (u'.tell (.verdict s.now f.pressure exhausted s.signs.since.1 s.signs.since.2)).now = s.now :=
    hmarks.now.trans hnow
  refine ⟨?_, ?_, ?_, ?_, ?_⟩
  · rw [hobserved]
    exact .observe s.signs warned _ _ _ hsevere
  · rw [hmoment]
    rfl
  · rw [hmoment]
    rfl
  · intro hd
    change exhausted = true at hd
    refine ⟨f.pressure, s.signs.since.1, s.signs.since.2, ?_⟩
    rw [hmoment, hobserved, Signs.observe, List.getLast?_append, List.getLast?_singleton, hd]
    rfl
  · refine ⟨f.pressure, exhausted, ?_⟩
    rw [hmoment, hobserved, Signs.since_observe, Signs.observe, List.getLast?_append, List.getLast?_singleton]
    rfl

theorem reads_cool (s : System K n) (groups : List (Fin n)) (until_ : K) :
    Reads s { s with router := groups.foldl (fun r g => r.cool g until_) s.router } := by
  refine reads_router ?_
  generalize s.router = r
  induction groups generalizing r with
  | nil => exact .refl r
  | cons g rest ih => exact (Router.quiet_cool r g until_).trans (ih _)

theorem aside_redirect (s : System K n) (now : K) (f : Feedback K n) : Aside s (s.redirect now f).2 := by
  unfold redirect
  dsimp only
  split
  · exact .refl s
  · split
    · exact .refl s
    · generalize hcool : ({ s with router := _ } : System K n) = u
      have hu : Aside s u := hcool ▸ (reads_cool s _ _).aside
      split
      · exact hu
      · refine (hu.trans (aside_setMode u .expanding)).trans (Aside.trans ?_ (aside_tell _ rfl))
        exact ⟨rfl, rfl, rfl, rfl, rfl, rfl, rfl, rfl, rfl, rfl, rfl, rfl, id⟩

theorem signs_redirect (s : System K n) (now : K) (f : Feedback K n) :
    (s.redirect now f).2.signs = if (s.redirect now f).1 then s.signs.redirected s.now else s.signs := by
  unfold redirect
  dsimp only
  split
  · rfl
  · split
    · rfl
    · generalize hcool : ({ s with router := _ } : System K n) = u
      have hu : Reads s u := hcool ▸ reads_cool s _ _
      have hmode := signs_setMode u .expanding
      have hnow := (aside_setMode u .expanding).now
      split
      · exact hu.signs
      · rw [if_pos rfl, signs_tell _ rfl]
        generalize u.setMode .expanding = m at hmode hnow ⊢
        have hnow : m.now = s.now := hnow.trans hu.router.now
        show ({ m.signs with
          expandedAt := some m.now, redirectedAt := some m.now, confirmSince := none
          history := m.signs.history ++ [.redirect m.now] } : Signs K n) = _
        rw [hmode, hu.signs, hnow]
        rfl

theorem aside_calmDown (s : System K n) (now : K) (f : Feedback K n) : Aside s (s.calmDown now f) := by
  have hcalm : Aside s ({ s with controller := { s.controller with
      expandedAt := none, redirectedAt := none } }.setMode .energy) := by
    refine Aside.trans ?_ (aside_setMode _ _)
    exact ⟨rfl, rfl, rfl, rfl, rfl, rfl, rfl, rfl, rfl, rfl, rfl, rfl, id⟩
  have hrefl := Aside.refl s
  unfold calmDown
  dsimp only
  split_ifs <;> assumption

/-- All a decision writes: a redirect, the way back to energy mode, or an expansion. -/
theorem decision_leaves {s s' : System K n} {now : K} {v : Verdict K n} {d : Decision}
    (h : s.decision now v = .ok (d, s')) :
    s' = s ∨ s' = (s.redirect now v.feedback).2 ∨ s' = s.calmDown now v.feedback ∨
      s' = (s.setMode .expanding).tell (.expand now) := by
  unfold decision at h
  generalize s.redirect now v.feedback = e at h ⊢
  obtain ⟨redirected, u⟩ := e
  dsimp only at h ⊢
  split at h
  · cases h
    exact .inl rfl
  split at h
  · cases h
    exact .inl rfl
  split at h
  · split at h
    · cases h
    · split at h
      · cases h
        exact .inl rfl
      split at h
      · split at h
        · split at h <;> cases h <;> exact .inr (.inl rfl)
        · cases h
          exact .inl rfl
      · cases h
        exact .inr (.inr (.inl rfl))
  · split at h
    · split at h
      · cases h
        exact .inr (.inr (.inr rfl))
      · split at h <;> cases h <;> exact .inr (.inl rfl)
    · cases h
      exact .inr (.inr (.inl rfl))

theorem aside_decision {s s' : System K n} {now : K} {v : Verdict K n} {d : Decision}
    (h : s.decision now v = .ok (d, s')) : Aside s s' := by
  obtain rfl | rfl | rfl | rfl := decision_leaves h
  · exact .refl s'
  · exact aside_redirect s now v.feedback
  · exact aside_calmDown s now v.feedback
  · exact (aside_setMode s .expanding).trans (aside_tell _ rfl)

theorem signs_calmDown (s : System K n) (now : K) (f : Feedback K n) :
    s.signs.Step s.now .judged .steady (s.calmDown now f).signs := by
  have hcalm := signs_setMode
    ({ s with controller := { s.controller with expandedAt := none, redirectedAt := none } } : System K n) .energy
  have hquiet : s.signs.Step s.now .judged .steady
      ({ s with controller := { s.controller with expandedAt := none, redirectedAt := none } }.setMode .energy).signs := by
    rw [hcalm]
    exact .calm s.signs
  have hnothing : s.signs.Step s.now .judged .steady s.signs := .nothing s.signs
  unfold calmDown
  dsimp only
  split_ifs <;> assumption

/-- Where a decision leaves the signs. -/
def Decided (s u : System K n) : Decision → Prop
  | .nothing => s.signs.Step s.now .judged .steady u.signs
  | .fullEffort reason => u.signs = s.signs ∧ s.signs.Because s.now reason
  | .expand => s.signs.Step s.now .judged .expanding u.signs

/-- What a tick decides is one move of its signs. -/
theorem decision_signs {s u : System K n} {v : Verdict K n} {d : Decision} (h : s.decision s.now v = .ok (d, u))
    (hv : s.Judged v) (off : s.controller.fullEffort = false) : Decided s u d := by
  have hredirect := signs_redirect s s.now v.feedback
  have hcalm := signs_calmDown s s.now v.feedback
  have hconfirmed := hv.confirmed
  unfold decision at h
  generalize s.redirect s.now v.feedback = e at h hredirect
  obtain ⟨redirected, r⟩ := e
  dsimp only at h hredirect
  split at h
  -- The branches are the source's, in its order: danger, exhaustion, an expansion under way, a confirmed one.
  case isTrue hemergency =>
    cases h
    exact ⟨rfl, .severe (hv.emergency.symm.trans hemergency)⟩
  split at h
  case isTrue hexhausted =>
    cases h
    obtain ⟨pressure, since, admittedSince, hlast⟩ := hv.exhausted hexhausted
    exact ⟨rfl, .exhausted pressure since admittedSince hlast⟩
  split at h
  case isTrue hmode =>
    split at h
    · cases h
    -- Before the grace is over, nothing is said of the expansion.
    case h_2 at_ hat =>
      split at h
      · cases h
        exact .nothing s.signs
      case isFalse hgrace =>
        have hsettled : s.signs.settled s.now := ⟨at_, hat, not_lt.mp hgrace⟩
        split at h
        case isTrue hc =>
          have hc := hconfirmed.symm.trans hc
          split at h
          case h_1 since hsince =>
            cases redirected with
            | true =>
              cases h
              rw [if_pos rfl] at hredirect
              rw [Decided, hredirect]
              exact .redirect s.signs hc (fun _ => hsettled) off
            | false =>
              cases h
              rw [if_neg (by decide)] at hredirect
              exact ⟨hredirect, .redirect hc hmode hsettled since hsince hv.told⟩
          case h_2 hsince =>
            cases h
            exact ⟨rfl, .expansion hc hmode hsettled hsince hv.told⟩
        case isFalse =>
          cases h
          exact hcalm
  case isFalse hmode =>
    split at h
    case isTrue hc =>
      have hc := hconfirmed.symm.trans hc
      split at h
      · cases h
        rw [Decided, signs_tell _ rfl, signs_setMode]
        exact .expand s.signs hc hmode off
      · cases redirected with
        | true =>
          cases h
          rw [if_pos rfl] at hredirect
          rw [Decided, hredirect]
          exact .redirect s.signs hc (fun hm => absurd hm hmode) off
        | false =>
          cases h
          rw [if_neg (by decide)] at hredirect
          exact ⟨hredirect, .nothing hc hmode⟩
    case isFalse =>
      cases h
      exact hcalm

theorem apart_noteRejections (s : System K n) : Apart s s.noteRejections := by
  unfold noteRejections
  split
  · exact .refl s
  · exact ⟨⟨rfl, rfl, rfl, rfl, rfl, rfl, rfl, rfl, rfl, rfl, rfl, rfl, id⟩, rfl⟩

theorem apart_capPoint (s : System K n) (point : ClockPoint) (rate : K) : Apart s (s.capPoint point rate) :=
  ⟨⟨rfl, rfl, rfl, rfl, rfl, rfl, rfl, rfl, rfl, rfl, rfl, rfl, id⟩, rfl⟩

theorem apart_confirmPoint (s : System K n) (point : ClockPoint) (rate : K) : Apart s (s.confirmPoint point rate) :=
  ⟨⟨rfl, rfl, rfl, rfl, rfl, rfl, rfl, rfl, rfl, rfl, rfl, rfl, id⟩, rfl⟩

theorem apart_setReference (s : System K n) (reference : Option (LengthSummary K)) : Apart s (s.setReference reference) :=
  ⟨⟨rfl, rfl, rfl, rfl, rfl, rfl, rfl, rfl, rfl, rfl, rfl, rfl, id⟩, rfl⟩

theorem apart_clearOutcomes (s : System K n) : Apart s s.clearOutcomes :=
  ⟨⟨rfl, rfl, rfl, rfl, rfl, rfl, rfl, rfl, rfl, rfl, rfl, rfl, id⟩, rfl⟩

theorem apart_startVerified (s : System K n) (table : TierTable K) : Apart s (s.startVerified table) :=
  ⟨⟨rfl, rfl, rfl, rfl, rfl, rfl, rfl, rfl, rfl, rfl, rfl, rfl, id⟩, rfl⟩

theorem aside_endExpansion (s : System K n) : Aside s s.endExpansion := by
  refine Aside.trans ?_ (aside_tell _ rfl)
  exact ⟨rfl, rfl, rfl, rfl, rfl, rfl, rfl, rfl, rfl, rfl, rfl, rfl, id⟩

theorem signs_endExpansion (s : System K n) : s.signs.Step s.now .expanding .steady s.endExpansion.signs := by
  rw [endExpansion, signs_tell _ rfl]
  exact .expanded s.signs

/-- The flags are set, the rate is noted and the beginning is told. -/
theorem beginFullEffort_cases (s : System K n) (reason : EffortReason) : Aside s (s.beginFullEffort reason) ∧
    (s.beginFullEffort reason).signs =
      { s.signs with fullEffort := true, history := s.signs.history ++ [.fullEffort s.now reason] } := by
  unfold beginFullEffort
  dsimp only
  generalize hset : ({ s with controller := _, router := _ } : System K n) = u
  have hflags : Aside s u := hset ▸ ⟨rfl, rfl, rfl, rfl, rfl, rfl, rfl, rfl, rfl, rfl, rfl, rfl, fun _ => rfl⟩
  have hsigns : u.signs = { s.signs with fullEffort := true } := hset ▸ rfl
  have hoffered := reads_offered u s.now s.controller.settings.loadWindowS s.controller.settings.burstBucketS
  generalize u.offered s.now s.controller.settings.loadWindowS s.controller.settings.burstBucketS = e at hoffered ⊢
  obtain ⟨⟨rate, burst⟩, v⟩ := e
  have hrate : Apart v { v with controller := { v.controller with fullEffortRate := rate } } :=
    ⟨⟨rfl, rfl, rfl, rfl, rfl, rfl, rfl, rfl, rfl, rfl, rfl, rfl, id⟩, rfl⟩
  refine ⟨((hflags.trans hoffered.aside).trans hrate.toAside).trans (aside_tell _ rfl), ?_⟩
  rw [signs_tell _ rfl, hrate.signs, hoffered.signs, hsigns]

theorem aside_raise (s : System K n) (reason : EffortReason) : Aside s (s.raise reason) := by
  have hmode : Aside s { s.setMode .fullEffort with
      controller := { (s.setMode .fullEffort).controller with redirectedAt := none } } :=
    (aside_setMode s .fullEffort).trans ⟨rfl, rfl, rfl, rfl, rfl, rfl, rfl, rfl, rfl, rfl, rfl, rfl, id⟩
  unfold raise
  dsimp only
  split
  · exact hmode
  · exact hmode.trans (beginFullEffort_cases _ _).1

/-- Full effort is entered for a reason, or held. -/
theorem signs_raise (s : System K n) (reason : EffortReason)
    (why : s.signs.fullEffort = false → s.signs.Because s.now reason) :
    s.signs.Step s.now .judged .steady (s.raise reason).signs := by
  unfold raise
  extract_lets m c r
  have hnow : r.now = s.now := (aside_setMode s .fullEffort).now
  have hsigns : r.signs = { s.signs with mode := .fullEffort, redirectedAt := none } := by
    show ({ m.signs with redirectedAt := none } : Signs K n) = _
    rw [signs_setMode]
  have hflag : r.controller.fullEffort = s.signs.fullEffort := congrArg Signs.fullEffort hsigns
  split
  case isTrue hon =>
    rw [hsigns]
    exact .hold s.signs (hflag.symm.trans hon)
  case isFalse hoff =>
    have hoff := hflag.symm.trans (Bool.eq_false_of_not_eq_true hoff)
    rw [(beginFullEffort_cases r reason).2, hsigns, hnow]
    exact .raise s.signs reason (why hoff) hoff

theorem aside_endFullEffort (s : System K n) : Aside s s.endFullEffort :=
  ⟨rfl, rfl, rfl, rfl, rfl, rfl, rfl, rfl, rfl, rfl, rfl, rfl, fun _ => rfl⟩

theorem apart_noteDemand (s : System K n) (now rate : K) : Apart s (s.noteDemand now rate) :=
  ⟨⟨rfl, rfl, rfl, rfl, rfl, rfl, rfl, rfl, rfl, rfl, rfl, rfl, id⟩, rfl⟩

theorem apart_setPlan (s : System K n) (now : K) (target : Evaluation K) : Apart s (s.setPlan now target) := by
  unfold setPlan
  dsimp only
  split_ifs <;> exact ⟨⟨rfl, rfl, rfl, rfl, rfl, rfl, rfl, rfl, rfl, rfl, rfl, rfl, id⟩, rfl⟩

theorem aside_warnCapacity (s : System K n) (now : K) : Aside s (s.warnCapacity now) := by
  unfold warnCapacity
  split
  · refine Aside.trans ?_ (aside_setMode _ _)
    exact ⟨rfl, rfl, rfl, rfl, rfl, rfl, rfl, rfl, rfl, rfl, rfl, rfl, id⟩
  · exact .refl s

/-- Choosing a plan leaves the signs alone, but for a warning at its end. -/
theorem choosePlan_cases (s : System K n) (now : K) :
    ∃ u, Apart s u ∧ ((s.choosePlan now).2 = u ∨ (s.choosePlan now).2 = u.warnCapacity now) := by
  have hsolver := (reads_solver s).apart
  unfold choosePlan
  generalize System.solver s = e at hsolver ⊢
  obtain ⟨solver, s'⟩ := e
  dsimp only at hsolver ⊢
  cases solver with
  | none => exact ⟨s', hsolver, .inl rfl⟩
  | some solver =>
    have hdemand := hsolver.trans (reads_demand s' now).apart
    dsimp only
    generalize s'.demand now = e at hdemand ⊢
    obtain ⟨⟨rate, lengths⟩, u⟩ := e
    dsimp only at hdemand ⊢
    split
    · exact ⟨u, hdemand, .inl rfl⟩
    have hnoted := hdemand.trans (apart_noteDemand u now rate)
    split
    · exact ⟨_, hnoted, .inl rfl⟩
    split
    · exact ⟨_, hnoted, .inl rfl⟩
    have hplan (target : Evaluation K) := hnoted.trans (apart_setPlan (u.noteDemand now rate) now target)
    split
    · exact ⟨_, hplan _, .inr rfl⟩
    split
    · exact ⟨_, hplan _, .inl rfl⟩
    split
    · refine ⟨_, ?_, .inl rfl⟩
      split
      · exact hplan _
      · exact (hplan _).trans ⟨⟨rfl, rfl, rfl, rfl, rfl, rfl, rfl, rfl, rfl, rfl, rfl, rfl, id⟩, rfl⟩
    · exact ⟨_, hplan _, .inl rfl⟩

theorem aside_choosePlan (s : System K n) (now : K) : Aside s (s.choosePlan now).2 := by
  obtain ⟨u, hu, h | h⟩ := choosePlan_cases s now
  · exact h ▸ hu.toAside
  · exact h ▸ hu.toAside.trans (aside_warnCapacity u now)

theorem signs_choosePlan (s : System K n) (now : K) : (s.choosePlan now).2.signs = s.signs ∨
    s.signs.mode = .energy ∧ (s.choosePlan now).2.signs = { s.signs with mode := .warning } := by
  obtain ⟨u, hu, h | h⟩ := choosePlan_cases s now
  · exact .inl (h ▸ hu.signs)
  · rw [h, warnCapacity]
    split
    case isTrue hmode =>
      refine .inr ⟨(congrArg Signs.mode hu.signs).symm.trans hmode, ?_⟩
      rw [signs_setMode, ← hu.signs]
      rfl
    case isFalse => exact .inl hu.signs

theorem apart_energyDue (s : System K n) (now : K) : Apart s (s.energyDue now).2 := by
  unfold energyDue
  split
  · exact .refl s
  · exact ⟨⟨rfl, rfl, rfl, rfl, rfl, rfl, rfl, rfl, rfl, rfl, rfl, rfl, id⟩, rfl⟩

theorem apart_newPressure (s : System K n) (now : K) : Apart s (s.newPressure now).2 := by
  unfold newPressure
  dsimp only
  split_ifs <;> exact ⟨⟨rfl, rfl, rfl, rfl, rfl, rfl, rfl, rfl, rfl, rfl, rfl, rfl, id⟩, rfl⟩

theorem apart_unboosted (s : System K n) (active : List (Fin n)) (now : K) : Apart s (s.unboosted active now).2 := by
  have hcalm (t : Option K) : Apart s { s with controller := { s.controller with calmSince := t } } :=
    ⟨⟨rfl, rfl, rfl, rfl, rfl, rfl, rfl, rfl, rfl, rfl, rfl, rfl, id⟩, rfl⟩
  unfold unboosted
  dsimp only
  split
  · exact hcalm none
  · split
    · exact hcalm (some now)
    · split
      · exact .refl s
      · exact hcalm (some now)

theorem apart_clearPressureEvent (s : System K n) : Apart s s.clearPressureEvent :=
  ⟨⟨rfl, rfl, rfl, rfl, rfl, rfl, rfl, rfl, rfl, rfl, rfl, rfl, id⟩, rfl⟩

theorem apart_noteSwitch (s : System K n) (seconds : K) : Apart s (s.noteSwitch seconds) :=
  ⟨⟨rfl, rfl, rfl, rfl, rfl, rfl, rfl, rfl, rfl, rfl, rfl, rfl, id⟩, rfl⟩

end System
end CanaTune
