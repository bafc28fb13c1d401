import CanaTune.Theorems.Pressure
import Mathlib.Data.List.DropRight

/-! What escalates an expansion. The evidence of a tick starts anew with an expansion or a redirect, but the ticks
    the share test remembers do not: old ones alone may meet it. -/

namespace CanaTune
variable {K : Type} [Scalar K] {n : ℕ}

namespace Event

/-- When a tick looked, and whether it saw pressure. -/
def looked : Event K n → Option (K × Bool)
  | .verdict at_ pressure _ _ _ => some (at_, pressure)
  | _ => none

/-- When other groups began to serve, and whether by a redirect. -/
def changed : Event K n → Option (K × Bool)
  | .expanded at_ => some (at_, false)
  | .redirect at_ => some (at_, true)
  | _ => none

/-- A tick saw pressure in evidence since `m`, after a redirect by requests admitted since. -/
def ShowsSince (m : K) (redirected : Bool) : Event K n → Prop
  | .verdict _ pressure _ since admittedSince => pressure = true ∧ since = m ∧ (redirected = true → admittedSince = m)
  | _ => False

end Event

/-- The ticks of the last `confirmWindowS`. -/
def remembered (c : ControllerSettings K) (trace : List (Event K n)) (now : K) : List (K × Bool) :=
  (trace.filterMap (·.looked)).dropWhile fun e => decide (e.1 < now - c.confirmWindowS)

/-- The last expansion, or redirect, was at `m`, and a tick saw pressure in evidence since then. -/
def FreshlyPressured (trace : List (Event K n)) : Prop :=
  ∃ before e after m redirected, trace = before ++ e :: after ∧ e.changed = some (m, redirected) ∧
    (∀ x ∈ after, x.changed = none) ∧ ∃ v ∈ after, v.ShowsSince m redirected

/-- Confirmed pressure ends an expansion at MAX on fresh evidence. -/
def EscalatesFreshly : List (Event K n) → Prop :=
  Along fun before e => ∀ t reason, e = .fullEffort t reason →
    reason = .expansionInsufficient ∨ reason = .redirectInsufficient → FreshlyPressured before

/-- The trace up to where other groups last began to serve. -/
def untilChange (trace : List (Event K n)) : List (Event K n) := trace.rdropWhile fun e => e.changed.isNone

/-- Where a tick sees no pressure and the grace of an expansion is over, the pressured ticks it remembers from before the
    expansion are fewer than the share. -/
def ShareRenewed (c : ControllerSettings K) : List (Event K n) → Prop :=
  Along fun before e => ∀ at_ exhausted (m : K) admittedSince, e = .verdict at_ false exhausted m admittedSince →
    c.expansionGraceS ≤ at_ - m → c.shareTicks ≤ (remembered c (before ++ [e]) at_).length →
    ((remembered c (untilChange before) at_).countP (·.2) : K) <
      c.confirmFraction * (remembered c (before ++ [e]) at_).length

/-! ### The Controller's own part of the trace -/

section Control
omit [Scalar K]

theorem Event.isControl_of_changed {e : Event K n} (h : e.changed.isSome) : e.isControl = true := by
  cases e <;> simp [changed, isControl] at h ⊢

theorem Event.isControl_of_shows {e : Event K n} {m : K} {redirected : Bool} (h : e.ShowsSince m redirected) :
    e.isControl = true := by
  cases e <;> first | rfl | exact h.elim

theorem Event.changed_of_other {e : Event K n} (h : e.isControl = false) : e.changed = none := by
  cases e <;> first | rfl | cases h

theorem freshlyPressured_control {trace : List (Event K n)} :
    FreshlyPressured (trace.filter (·.isControl)) ↔ FreshlyPressured trace := by
  constructor
  · rintro ⟨before, e, after, m, redirected, heq, he, hlast, v, hv, hshows⟩
    obtain ⟨front, back, rfl, rfl, hback⟩ := List.filter_eq_append_iff.mp heq
    obtain ⟨skipped, rest, rfl, hskipped, -, rfl⟩ := List.filter_eq_cons_iff.mp hback
    refine ⟨front ++ skipped, e, rest, m, redirected, by simp, he, fun x hx => ?_, v, (List.mem_filter.mp hv).1, hshows⟩
    cases hc : x.isControl with
    | true => exact hlast x (List.mem_filter.mpr ⟨hx, hc⟩)
    | false => exact Event.changed_of_other hc
  · rintro ⟨before, e, after, m, redirected, rfl, he, hlast, v, hv, hshows⟩
    have hc := Event.isControl_of_changed (e := e) (by rw [he]; rfl)
    refine ⟨before.filter (·.isControl), e, after.filter (·.isControl), m, redirected, by simp [hc], he, fun x hx => ?_,
      v, List.mem_filter.mpr ⟨hv, Event.isControl_of_shows hshows⟩, hshows⟩
    exact hlast x (List.mem_filter.mp hx).1

theorem escalatesFreshly_control {trace : List (Event K n)} :
    EscalatesFreshly (trace.filter (·.isControl)) ↔ EscalatesFreshly trace := by
  refine Along.filter_iff _ (fun before e _ => ?_) fun before e hc => ?_
  · rw [freshlyPressured_control]
  · rintro t reason rfl
    cases hc

theorem looked_control (trace : List (Event K n)) :
    (trace.filter (·.isControl)).filterMap (·.looked) = trace.filterMap (·.looked) := by
  rw [List.filterMap_filter]
  refine List.filterMap_congr fun e _ => ?_
  cases e <;> rfl

/-- Nothing but the Controller makes other groups serve. -/
theorem untilChange_control (trace : List (Event K n)) :
    untilChange (trace.filter (·.isControl)) = (untilChange trace).filter (·.isControl) := by
  induction trace using List.reverseRecOn with
  | nil => rfl
  | append_singleton trace e ih =>
    unfold untilChange at ih ⊢
    cases hchanged : e.changed with
    | none =>
      rw [List.rdropWhile_concat_pos _ _ _ (by simp [hchanged]), List.filter_append, ← ih]
      cases hc : e.isControl with
      | true => rw [List.filter_singleton, hc, cond_true, List.rdropWhile_concat_pos _ _ _ (by simp [hchanged])]
      | false => rw [List.filter_singleton, hc, cond_false, List.append_nil]
    | some change =>
      have hc := Event.isControl_of_changed (e := e) (by rw [hchanged]; rfl)
      rw [List.rdropWhile_concat_neg _ _ _ (by simp [hchanged]), List.filter_append, List.filter_singleton, hc, cond_true,
        List.rdropWhile_concat_neg _ _ _ (by simp [hchanged])]

theorem looked_untilChange_control (trace : List (Event K n)) :
    (untilChange (trace.filter (·.isControl))).filterMap (·.looked) = (untilChange trace).filterMap (·.looked) := by
  rw [untilChange_control, looked_control]

theorem untilChange_eq {before after : List (Event K n)} {x : Event K n} (hx : x.changed.isSome)
    (hafter : ∀ y ∈ after, y.changed = none) : untilChange (before ++ x :: after) = before ++ [x] := by
  induction after using List.reverseRecOn with
  | nil => exact List.rdropWhile_concat_neg _ _ _ (by simp [Option.isSome_iff_ne_none.mp hx])
  | append_singleton after y ih =>
    have hlast := hafter y (List.mem_append_right _ (List.mem_singleton_self y))
    rw [← List.cons_append, ← List.append_assoc, untilChange, List.rdropWhile_concat_pos _ _ _ (by simp [hlast])]
    exact ih fun z hz => hafter z (List.mem_append_left _ hz)

end Control

/-- What is remembered of a longer trace: what was remembered of it before, and the new ticks at most. -/
theorem countP_remembered_append (c : ControllerSettings K) (old new : List (Event K n)) (now : K) :
    (remembered c (old ++ new) now).countP (·.2) ≤
      (remembered c old now).countP (·.2) + (new.filterMap (·.looked)).countP (·.2) := by
  rw [remembered, remembered, List.filterMap_append, List.dropWhile_append]
  split
  · exact ((List.dropWhile_sublist _).countP_le).trans (Nat.le_add_left _ _)
  · rw [List.countP_append]

theorem shareRenewed_control {c : ControllerSettings K} {trace : List (Event K n)} :
    ShareRenewed c (trace.filter (·.isControl)) ↔ ShareRenewed c trace := by
  refine Along.filter_iff _ (fun before e hc => ?_) fun before e hc => ?_
  · have hfilter : before.filter (·.isControl) ++ [e] = (before ++ [e]).filter (·.isControl) := by simp [hc]
    rw [hfilter]
    simp only [remembered, looked_control, looked_untilChange_control]
  · rintro at_ exhausted m admittedSince rfl
    cases hc

/-! ### The machine of the signs -/

/-- What was dropped before is dropped again. -/
theorem dropWhile_dropWhile_append {α : Type} {p q : α → Bool} (h : ∀ a, p a = true → q a = true) (l rest : List α) :
    (l.dropWhile p ++ rest).dropWhile q = (l ++ rest).dropWhile q := by
  induction l with
  | nil => rfl
  | cons a l ih =>
    cases hp : p a with
    | true => rw [List.dropWhile_cons_of_pos hp, List.cons_append, List.dropWhile_cons_of_pos (h a hp), ih]
    | false => rw [List.dropWhile_cons_of_neg (by simp [hp])]

namespace Signs

/-- The ticks of the machine are those of its history. -/
structure Remembers (e : Signs K n) (now : K) : Prop where
  past : ∀ x ∈ e.history.filterMap (·.looked), x.1 ≤ now
  first : e.history.filterMap (·.looked) = [] → e.pressureTicks = []
  ticks : ∀ x, (e.history.filterMap (·.looked)).getLast? = some x → e.pressureTicks = remembered e.settings e.history x.1

theorem Remembers.same {e u : Signs K n} {now : K} (h : e.Remembers now) (hsettings : u.settings = e.settings)
    (hlooked : u.history.filterMap (·.looked) = e.history.filterMap (·.looked))
    (hticks : u.pressureTicks = e.pressureTicks) :
    u.Remembers now := by
  refine ⟨?_, ?_, ?_⟩
  · rw [hlooked]
    exact h.past
  · rw [hlooked, hticks]
    exact h.first
  · unfold remembered
    rw [hlooked, hticks, hsettings]
    exact h.ticks

theorem Remembers.observe {e : Signs K n} {now : K} (h : e.Remembers now) (warned pressure severe exhausted : Bool) :
    (e.observe now warned pressure severe exhausted).Remembers now := by
  have hlooked : (e.observe now warned pressure severe exhausted).history.filterMap (·.looked) =
      e.history.filterMap (·.looked) ++ [(now, pressure)] := by
    simp [Signs.observe, Event.looked]
  refine ⟨fun x hx => ?_, fun hnil => ?_, fun x hx => ?_⟩
  · rw [hlooked] at hx
    rcases List.mem_append.mp hx with hx | hx
    · exact h.past x hx
    · rw [List.mem_singleton.mp hx]
  · rw [hlooked] at hnil
    simp at hnil
  · rw [hlooked, List.getLast?_concat] at hx
    obtain rfl := Option.some.inj hx
    rw [remembered, hlooked]
    show System.rememberTick e.settings e.pressureTicks now pressure = _
    rw [System.rememberTick]
    cases hlast : (e.history.filterMap (·.looked)).getLast? with
    | none =>
      have hnil := List.getLast?_eq_none_iff.mp hlast
      rw [h.first hnil, hnil]
      rfl
    | some x =>
      have hle := h.past x (List.mem_of_getLast? hlast)
      rw [h.ticks x hlast, remembered]
      refine dropWhile_dropWhile_append (fun a ha => ?_) _ _
      have ha := of_decide_eq_true ha
      exact decide_eq_true (by linarith)

/-- What an expansion under way has shown so far. -/
def Opened (e : Signs K n) : Prop :=
  e.mode = .expanding → ∀ m, e.expandedAt = some m → ∃ before x after, e.history = before ++ x :: after ∧
    x.changed = some (m, e.redirectedAt.isSome) ∧ (e.redirectedAt.isSome → e.redirectedAt = some m) ∧
    (∀ y ∈ after, y.changed = none) ∧ (∀ v ∈ after, ∀ t, v.looked = some (t, true) → v.ShowsSince m e.redirectedAt.isSome) ∧
    (e.confirmSince.isSome → ∃ v ∈ after, v.ShowsSince m e.redirectedAt.isSome)

/-- The memory of an expansion, phase by phase. -/
structure Renewing (ph : Phase) (e : Signs K n) (now : K) : Prop extends e.Remembers now where
  closed : e.fullEffort = false → e.mode ≠ .expanding → e.expandedAt = none ∧ e.redirectedAt = none
  expanding : ph = .expanding → e.mode = .expanding ∧ e.redirectedAt = none
  leaving : ph = .leaving → e.expandedAt = none ∧ e.redirectedAt = none
  opened : e.Opened
  escalates : ShareRenewed e.settings e.history → EscalatesFreshly e.history

/-- An event that escalates nothing. -/
theorem escalates_append {c : ControllerSettings K} {trace : List (Event K n)} {v : Event K n}
    (h : ShareRenewed c trace → EscalatesFreshly trace) (hv : ∀ t reason, v ≠ .fullEffort t reason) :
    ShareRenewed c (trace ++ [v]) → EscalatesFreshly (trace ++ [v]) := fun hshare =>
  (h (Along.of_append hshare)).append fun t reason heq => absurd heq (hv t reason)

theorem Opened.observe {e : Signs K n} (h : e.Opened) (now : K) (warned pressure severe exhausted : Bool) :
    (e.observe now warned pressure severe exhausted).Opened := by
  intro hmode m hm
  have hmode : e.mode = .expanding := (observed_expanding e.mode warned pressure).mp hmode
  obtain ⟨before, x, after, heq, hx, hredirected, hlast, hshow, -⟩ := h hmode m hm
  have hm : e.expandedAt = some m := hm
  -- A tick of the expansion reads the evidence since then.
  have hnew : pressure = true →
      (Event.verdict (n := n) now pressure exhausted e.since.1 e.since.2).ShowsSince m e.redirectedAt.isSome := by
    intro hpressure
    refine ⟨hpressure, ?_, fun hsome => ?_⟩
    · rw [since, if_pos hmode, hm]
      rfl
    · rw [since, if_pos hmode, hredirected hsome]
      rfl
  refine ⟨before, x, after ++ [.verdict now pressure exhausted e.since.1 e.since.2], ?_, hx, hredirected, fun y hy => ?_,
    fun v hv t ht => ?_, fun hsome => ?_⟩
  · simp [Signs.observe, heq]
  · rcases List.mem_append.mp hy with hy | hy
    · exact hlast y hy
    · rw [List.mem_singleton.mp hy]
      rfl
  · rcases List.mem_append.mp hv with hv | hv
    · exact hshow v hv t ht
    · rw [List.mem_singleton.mp hv] at ht ⊢
      exact hnew (congrArg Prod.snd (Option.some.inj ht))
  · refine ⟨_, List.mem_append_right _ (List.mem_singleton_self _), hnew ?_⟩
    change (lasting e.confirmSince pressure now).isSome = true at hsome
    cases pressure
    · cases hsome
    · rfl

/-- Confirmed pressure shows in the evidence of the expansion, where older ticks do not make up the share. -/
theorem Renewing.freshly {ph : Phase} {e : Signs K n} {now : K} (h : e.Renewing ph now)
    (hshare : ShareRenewed e.settings e.history)
    (hconfirmed : e.confirmed now = true) (hmode : e.mode = .expanding) (hsettled : e.settled now) (htold : e.told now) :
    FreshlyPressured e.history := by
  obtain ⟨m, hm, hgrace⟩ := hsettled
  obtain ⟨pressure, exhausted, hlast⟩ := htold
  obtain ⟨before, x, after, heq, hx, -, hafter, hshow, hfresh⟩ := h.opened hmode m hm
  have hsince : e.since.1 = (m : WithBot K) := by
    rw [since, if_pos hmode, hm]
    rfl
  -- Any tick of the expansion that sees pressure is fresh.
  suffices hseen : ∃ v ∈ after, v.ShowsSince m e.redirectedAt.isSome from ⟨before, x, after, m, _, heq, hx, hafter, hseen⟩
  rcases Bool.or_eq_true_iff.mp hconfirmed with hheld | hmostly
  · obtain ⟨t, ht, -⟩ := (Option.any_eq_true _ _).mp hheld
    exact hfresh (by rw [ht]; rfl)
  · have hticks : e.pressureTicks = remembered e.settings e.history now := by
      obtain ⟨trace, htrace⟩ := List.getLast?_eq_some_iff.mp hlast
      exact h.ticks (now, pressure) (by rw [htrace]; simp [Event.looked])
    rw [hticks] at hmostly
    obtain ⟨hlen, hmany⟩ := Bool.and_eq_true_iff.mp hmostly
    have hlen := of_decide_eq_true hlen
    have hmany := of_decide_eq_true hmany
    -- The verdict of this tick is not what began the expansion.
    rcases List.eq_nil_or_concat' after with rfl | ⟨rest, last, rfl⟩
    · rw [heq, List.getLast?_concat] at hlast
      obtain rfl := Option.some.inj hlast
      cases hx
    have hmem : last ∈ rest ++ [last] := List.mem_append_right _ (List.mem_singleton_self last)
    have htrace : e.history = (before ++ x :: rest) ++ [last] := by
      rw [heq]
      simp
    rw [htrace, List.getLast?_concat] at hlast
    obtain rfl := Option.some.inj hlast
    cases pressure with
    | true => exact ⟨_, hmem, hshow _ hmem now rfl⟩
    | false =>
      have hold : untilChange (before ++ x :: rest) = before ++ [x] :=
        untilChange_eq (by rw [hx]; rfl) fun y hy => hafter y (List.mem_append_left _ hy)
      -- The older ticks are too few, so that one of the expansion is among those counted.
      have hfew : ((remembered e.settings (before ++ [x]) now).countP (·.2) : K) <
          e.settings.confirmFraction * (remembered e.settings e.history now).length := by
        rw [htrace] at hshare hlen ⊢
        rw [← hold]
        exact Along.last hshare now exhausted m _ (by rw [hsince]) hgrace hlen
      have hsplit : (remembered e.settings e.history now).countP (·.2) ≤
          (remembered e.settings (before ++ [x]) now).countP (·.2) +
            ((rest ++ [Event.verdict now false exhausted e.since.1 e.since.2]).filterMap Event.looked).countP Prod.snd := by
        rw [heq, ← List.singleton_append, ← List.append_assoc]
        exact countP_remembered_append _ _ _ _
      have hpos : 0 < ((rest ++ [Event.verdict now false exhausted e.since.1 e.since.2]).filterMap Event.looked).countP
          Prod.snd := by
        have hlt : (remembered e.settings (before ++ [x]) now).countP (·.2) <
            (remembered e.settings e.history now).countP (·.2) := by
          exact_mod_cast hfew.trans_le hmany
        omega
      obtain ⟨⟨t, seen⟩, hmem, hseen⟩ := List.countP_pos_iff.mp hpos
      obtain rfl : seen = true := hseen
      obtain ⟨v, hv, hlooked⟩ := List.mem_filterMap.mp hmem
      exact ⟨v, hv, hshow v hv t hlooked⟩

theorem Renewing.step {ph ph' : Phase} {e e' : Signs K n} {now : K} (h : e.Renewing ph now) (hm : e.Step now ph ph' e') :
    e'.Renewing ph' now := by
  cases hm with
  | observe _ warned pressure severe exhausted =>
    exact ⟨h.toRemembers.observe warned pressure severe exhausted,
      fun hoff hmode => h.closed hoff fun hm => hmode ((observed_expanding e.mode warned pressure).mpr hm), nofun, nofun,
      h.opened.observe now warned pressure severe exhausted, escalates_append h.escalates fun _ _ => nofun⟩
  | nothing => exact ⟨h.toRemembers, h.closed, nofun, nofun, h.opened, h.escalates⟩
  | calm =>
    exact ⟨h.toRemembers.same rfl rfl rfl, fun _ _ => ⟨rfl, rfl⟩, nofun, nofun,
      nofun, h.escalates⟩
  | redirect =>
    refine ⟨h.toRemembers.same rfl (by simp [redirected, Event.looked]) rfl, fun _ hmode => absurd rfl hmode, nofun,
      nofun, fun _ m hm => ?_, escalates_append h.escalates fun _ _ => nofun⟩
    obtain rfl := Option.some.inj hm
    exact ⟨e.history, .redirect now, [], rfl, rfl, fun _ => rfl, by simp, by simp, nofun⟩
  | expand _ _ mode off =>
    obtain ⟨hexpanded, hredirected⟩ := h.closed off mode
    refine ⟨h.toRemembers.same rfl (by simp [Event.looked]) rfl, fun _ hmode => absurd rfl hmode,
      fun _ => ⟨rfl, hredirected⟩,
      nofun, fun _ m hm => ?_, escalates_append h.escalates fun _ _ => nofun⟩
    rw [show _ = some m from hm] at hexpanded
    cases hexpanded
  | raise _ reason because off =>
    refine ⟨h.toRemembers.same rfl (by simp [raised, Event.looked]) rfl, nofun, nofun,
      nofun, nofun, fun hshare => ?_⟩
    have hshare := Along.of_append hshare
    refine (h.escalates hshare).append fun t reason heq hreason => ?_
    cases heq
    -- Severe pressure and an exhausted D need no fresh tick; only an expansion that went on too long does.
    cases because with
    | expansion confirmed mode settled _ told => exact h.freshly hshare confirmed mode settled told
    | redirect confirmed mode settled _ _ told => exact h.freshly hshare confirmed mode settled told
    | severe | exhausted | nothing => simp at hreason
  | hold _ on =>
    exact ⟨h.toRemembers.same rfl rfl rfl, fun hoff => absurd (on.symm.trans hoff) (by decide), nofun,
      nofun, nofun, h.escalates⟩
  | expanded =>
    -- The expansion opens here: the history so far is what came before it.
    obtain ⟨hmode, hredirected⟩ := h.expanding rfl
    refine ⟨h.toRemembers.same rfl (by simp [Event.looked]) rfl, fun _ hne => absurd hmode hne, nofun,
      nofun, fun _ m hm => ?_, escalates_append h.escalates fun _ _ => nofun⟩
    obtain rfl := Option.some.inj hm
    refine ⟨e.history, .expanded now, [], rfl, ?_, ?_, by simp, by simp, nofun⟩
    · rw [show _ = none from hredirected]
      rfl
    · rw [show _ = none from hredirected]
      exact nofun
  | leave =>
    exact ⟨h.toRemembers.same rfl rfl rfl, fun _ _ => ⟨rfl, rfl⟩, nofun, fun _ => ⟨rfl, rfl⟩,
      fun _ _ => nofun, h.escalates⟩
  | recovered =>
    exact ⟨h.toRemembers.same rfl rfl rfl, fun _ _ => h.leaving rfl, nofun, nofun,
      nofun, h.escalates⟩
  | warn _ mode =>
    exact ⟨h.toRemembers.same rfl rfl rfl, fun hoff _ => h.closed hoff (by rw [mode]; decide), nofun,
      nofun, nofun, h.escalates⟩

theorem Renewing.later {ph : Phase} {e : Signs K n} {now now' : K} (h : e.Renewing ph now) (hle : now ≤ now') :
    e.Renewing ph now' :=
  ⟨⟨fun x hx => (h.past x hx).trans hle, h.first, h.ticks⟩, h.closed, h.expanding, h.leaving, h.opened, h.escalates⟩

end Signs

/-! ### Every run -/

theorem renewing_invariant (c : ControllerSettings K) :
    Invariant fun ph (s : System K n) => s.signs.settings = c ∧ s.signs.Renewing ph s.now where
  act {_ s s'} h ha := by
    obtain ⟨hsigns, hnow⟩ := ha.signs
    rw [hsigns, hnow]
    exact h
  move {_ _ s s'} h ha hm := by
    have hnow : s'.now = s.now := ha.now
    rw [hnow]
    exact ⟨hm.settings.trans h.1, h.2.step hm⟩
  steady h := ⟨h.1, h.2.toRemembers, h.2.closed, nofun, nofun, h.2.opened, h.2.escalates⟩
  experiment {_ s g task earlier} h _ _ _ := by
    have hsigns : (s.beginExperiment g task earlier).signs = s.signs := System.signs_tell_other _ rfl
    rw [hsigns]
    exact h
  start h _ _ := h
  serve h _ := h
  router h hr := ⟨h.1, h.2.later (Router.sameControl_acts hr).2⟩
  pairs _ h := h

/-- In every run in which the pressured ticks from before an expansion are fewer than the share whenever a tick of the
    settled expansion is quiet, confirmed pressure ends an expansion at MAX on fresh evidence only. -/
theorem escalatesFreshly_of_renewed {s : System K n} (hbuilt : Built s) {ticks steps : ℕ}
    {p : Pool (Label n) (System K n) (Op n) (Op.Ans K) Exn} (hrun : runtime.Run (boot s (.runtime ticks steps)) p)
    (hshare : ShareRenewed s.controller.settings p.world.state.trace) : EscalatesFreshly p.world.state.trace := by
  have hstart : s.signs.Renewing .steady s.now := by
    have hnone : s.signs.history = [] := by simp [System.signs, hbuilt.trace]
    have hfresh := hbuilt.controller
    have hat : s.signs.expandedAt = none ∧ s.signs.redirectedAt = none ∧ s.signs.pressureTicks = [] := by
      rw [System.signs, hfresh]
      exact ⟨rfl, rfl, rfl⟩
    refine ⟨⟨?_, fun _ => hat.2.2, ?_⟩, fun _ _ => ⟨hat.1, hat.2.1⟩, ?_, ?_, fun _ m hm => ?_, fun _ => ?_⟩
    · simp [hnone]
    · simp [hnone]
    · intro hmode
      cases hmode
    · intro hmode
      cases hmode
    · rw [hat.1] at hm
      cases hm
    · rw [hnone]
      exact Along.nil
  obtain ⟨hsettings, h⟩ := (renewing_invariant s.controller.settings).run hbuilt ⟨rfl, hstart⟩ hrun
  have hescalates := h.escalates
  rw [hsettings] at hescalates
  exact escalatesFreshly_control.mp (hescalates (shareRenewed_control.mpr hshare))

section Small

/-- A pool that fills one group after the other. -/
def fillBuilt : System ℚ 3 :=
  { smallBuilt 3 with router := { (smallBuilt 3).router with settings := { smallSettings with groupChoice := .fill } } }

theorem built_fillBuilt : Built fillBuilt :=
  ⟨fun _ => rfl, rfl, rfl, rfl, rfl, rfl, rfl⟩

/-- A request waits for its first token past the SLO; the fourth tick redirects. -/
def untilRedirect : List (Choice (Op 3) (Op.Ans ℚ) Exn (Outside ℚ 3)) :=
  [.begin 0, .outside (.prefillGpu 1 true true), .outside (.decodeGpu 1 true true), .resume 0 obliging,
    .outside (.prefillGpu 2 true true), .outside (.decodeGpu 2 true true), .resume 0 obliging,
    .outside .newWaiter, .outside (.attempt 0 512 true 0), .outside (.clock 1), .begin 1, .resume 1 obliging,
    .outside (.clock 2), .resume 1 obliging, .outside (.clock (5 / 2)), .resume 1 obliging,
    .outside (.clock 3), .resume 1 obliging]

/-- What those ticks tell. -/
def toldUntilRedirect : List (Event ℚ 3) :=
  [.verdict 1 true false ⊥ ⊥, .verdict 2 true false ⊥ ⊥, .verdict (5 / 2) true false ⊥ ⊥,
    .verdict 3 true false ⊥ ⊥, .redirect 3]

/-- Two ticks redirect, and a request on the other group waits as long. -/
def anewOnTheOther : List (Choice (Op 3) (Op.Ans ℚ) Exn (Outside ℚ 3)) :=
  [.begin 0, .outside (.prefillGpu 1 true true), .outside (.decodeGpu 1 true true), .resume 0 obliging,
    .outside (.prefillGpu 2 true true), .outside (.decodeGpu 2 true true), .resume 0 obliging,
    .outside .newWaiter, .outside (.attempt 0 512 true 0), .outside (.clock 1), .begin 1, .resume 1 obliging,
    .outside (.clock 3), .resume 1 obliging, .outside (.clock 4), .resume 1 obliging,
    .outside (.clock 5), .resume 1 obliging, .outside (.clock 6), .resume 1 obliging,
    .outside .newWaiter, .outside (.attempt 1 512 true 0), .outside (.clock 7), .resume 1 obliging, .outside (.clock (15 / 2)), .resume 1 obliging,
    .outside (.clock 8), .resume 1 obliging, .outside (.clock (17 / 2)), .resume 1 obliging]

/-- What those ticks tell up to the last one. -/
def toldAnew : List (Event ℚ 3) :=
  [.verdict 1 true false ⊥ ⊥, .verdict 3 true false ⊥ ⊥, .redirect 3, .verdict 4 false false (3 : ℚ) (3 : ℚ),
    .verdict 5 false false (3 : ℚ) (3 : ℚ), .verdict 6 false false (3 : ℚ) (3 : ℚ),
    .verdict (15 / 2) true false (3 : ℚ) (3 : ℚ), .verdict 8 true false (3 : ℚ) (3 : ℚ)]

/-- The quiet tick at 6 remembers five ticks, two of them pressured and older than the redirect; the share is met by
    the ticks of the other group. -/
theorem escalatesFreshly_of_renewed_next : ∃ p, runtime.Run (boot fillBuilt (.runtime 9 0)) p ∧
    p.world.state.trace = toldAnew ++
      [.verdict (17 / 2) true false (3 : ℚ) (3 : ℚ), .fullEffort (17 / 2) .redirectInsufficient] ∧
    EscalatesFreshly p.world.state.trace := by
  have hexec : ((runtime.exec (boot fillBuilt (.runtime 9 0)) anewOnTheOther).any fun p =>
      decide (p.world.state.trace = toldAnew ++
        [.verdict (17 / 2) true false (3 : ℚ) (3 : ℚ), .fullEffort (17 / 2) .redirectInsufficient])) = true := by
    decide +kernel
  obtain ⟨p, hp, htold⟩ := (Option.any_eq_true _ _).mp hexec
  have htold := of_decide_eq_true htold
  have hrun : runtime.Run (boot fillBuilt (.runtime 9 0)) p := Loop.Run.refl.exec hp
  refine ⟨p, hrun, htold, escalatesFreshly_of_renewed built_fillBuilt hrun ?_⟩
  rw [htold]
  refine Along.append (Along.append (Along.append (Along.append (Along.append (Along.append
    (Along.append (Along.append (Along.append (Along.nil.append ?_) ?_) ?_) ?_) ?_) ?_) ?_) ?_) ?_) ?_
  case refine_4 =>
    rintro at_ exhausted m admittedSince ⟨⟩ hgrace
    exact absurd hgrace (by decide +kernel)
  case refine_5 =>
    rintro at_ exhausted m admittedSince ⟨⟩ hgrace
    exact absurd hgrace (by decide +kernel)
  case refine_6 =>
    rintro at_ exhausted m admittedSince ⟨⟩ _ _
    decide +kernel
  all_goals
    intro at_ exhausted m admittedSince heq
    cases heq

/-- The request is gone, and the next tick sees no pressure; four of the five remembered ticks do, all of them older than
    the redirect, and full effort is entered. -/
theorem untilRedirect_stale : ∃ p, runtime.Run (boot fillBuilt (.runtime 5 0)) p ∧
    ¬EscalatesFreshly p.world.state.trace := by
  have hexec : ((runtime.exec (boot fillBuilt (.runtime 5 0)) (untilRedirect ++
      [.outside (.finish 0 false none none 0), .outside (.clock 6), .resume 1 obliging])).any fun p =>
        decide (p.world.state.trace =
          toldUntilRedirect ++ [.verdict 6 false false (3 : ℚ) (3 : ℚ), .fullEffort 6 .redirectInsufficient])) = true := by
    decide +kernel
  obtain ⟨p, hp, htold⟩ := (Option.any_eq_true _ _).mp hexec
  have htold := of_decide_eq_true htold
  refine ⟨p, Loop.Run.refl.exec hp, fun hfresh => ?_⟩
  obtain ⟨before, e, after, m, redirected, heq, he, hlast, v, hv, hshows⟩ := hfresh
    (toldUntilRedirect ++ [.verdict 6 false false (3 : ℚ) (3 : ℚ)]) (.fullEffort 6 .redirectInsufficient) []
    (by rw [htold]; rfl) 6 .redirectInsufficient rfl (.inr rfl)
  -- No tick saw pressure in evidence since any moment.
  have hmem : v ∈ toldUntilRedirect ++ [.verdict 6 false false (3 : ℚ) (3 : ℚ)] := by
    rw [heq]
    exact List.mem_append_right _ (List.mem_cons_of_mem _ hv)
  simp only [toldUntilRedirect, List.cons_append, List.nil_append, List.mem_cons, List.not_mem_nil, or_false] at hmem
  rcases hmem with rfl | rfl | rfl | rfl | rfl | rfl
  · cases hshows.2.1
  · cases hshows.2.1
  · cases hshows.2.1
  · cases hshows.2.1
  · exact hshows
  · cases hshows.1

end Small
end CanaTune
