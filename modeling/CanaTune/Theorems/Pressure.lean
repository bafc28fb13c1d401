import CanaTune.Theorems.Parked
import CanaTune.Lib.Along

/-! Pressure persists before it is acted on, while the ticks that see it are at least a period apart: the share test
    counts ticks, and `k` of them then take `k - 1` periods. -/

namespace CanaTune
variable {K : Type} [Scalar K] {n : ℕ}

namespace Event

/-- When a tick saw pressure. -/
def pressuredAt : Event K n → Option K
  | .verdict at_ true _ _ _ => some at_
  | _ => none

/-- When confirmed pressure is answered: by groups that wake, by a redirect, or at MAX. -/
def answeredAt : Event K n → Option K
  | .expand at_ => some at_
  | .redirect at_ => some at_
  | .fullEffort _ .severeBacklog => none
  | .fullEffort _ .decodeExhausted => none
  | .fullEffort at_ _ => some at_
  | _ => none

end Event

/-- The ticks that saw pressure. -/
def pressured (trace : List (Event K n)) : List K := trace.filterMap (·.pressuredAt)

namespace ControllerSettings

/-- The fewest pressured ticks the share test is met by. -/
def shareCount (c : ControllerSettings K) : ℤ := ⌈c.confirmFraction * c.shareTicks⌉

/-- How long pressure has to last: `confirmS`, or what `shareCount` control periods take. -/
def patience (c : ControllerSettings K) : K := min c.confirmS (((c.shareCount : K) - 1) * c.periodS)

/-- Ticks at least a period apart. -/
def Spaced (c : ControllerSettings K) (ticks : List K) : Prop := ticks.Pairwise fun s t => s + c.periodS ≤ t

theorem one_le_shareCount (c : ControllerSettings K) : 1 ≤ c.shareCount := by
  have hticks : (0 : K) < c.shareTicks := by
    have h : 3 ≤ c.shareTicks := by
      unfold shareTicks
      omega
    exact_mod_cast (by omega : 0 < c.shareTicks)
  exact Int.one_le_ceil_iff.mpr (mul_pos c.confirmFraction_pos hticks)

/-- From the first of some spaced ticks to the last one, every other takes a period. -/
theorem Spaced.first_le {c : ControllerSettings K} {t : K} {ticks : List K} (h : c.Spaced (t :: ticks)) {now : K}
    (hnow : ∀ s ∈ t :: ticks, s ≤ now) : t + ticks.length * c.periodS ≤ now := by
  induction ticks generalizing t with
  | nil => simpa using hnow t List.mem_cons_self
  | cons s ticks ih =>
    have hfirst : t + c.periodS ≤ s := (List.pairwise_cons.mp h).1 s List.mem_cons_self
    have hrest := ih (List.pairwise_cons.mp h).2 fun x hx => hnow x (List.mem_cons_of_mem _ hx)
    rw [List.length_cons]
    push_cast
    linarith

end ControllerSettings

/-- What is answered at `t` was seen `patience` before, at the latest. -/
def Persisted (c : ControllerSettings K) : List (Event K n) → Prop :=
  Along fun before e => ∀ t, e.answeredAt = some t → ∃ s ∈ pressured before, s ≤ t - c.patience

omit [Scalar K] in
theorem pressured_append (trace : List (Event K n)) (e : Event K n) :
    pressured (trace ++ [e]) = pressured trace ++ e.pressuredAt.toList := by
  rw [pressured, List.filterMap_append]
  cases h : e.pressuredAt <;> simp [pressured, h]

namespace Signs

/-- What is remembered of pressure was seen, in the order of the ticks. -/
structure Recalled (e : Signs K n) (now : K) : Prop where
  past : ∀ t ∈ pressured e.history, t ≤ now
  since : ∀ t, e.confirmSince = some t → t ∈ pressured e.history
  ticks : (e.pressureTicks.filter (·.2)).map (·.1) <:+ pressured e.history

/-- Confirmed pressure was seen long ago, if the ticks that saw it are spaced. -/
theorem Recalled.early {e : Signs K n} {now : K} (h : e.Recalled now) (hs : e.settings.Spaced (pressured e.history))
    (hc : e.confirmed now = true) : ∃ t ∈ pressured e.history, t ≤ now - e.settings.patience := by
  rcases Bool.or_eq_true_iff.mp hc with hheld | hmostly
  · -- It has lasted since a tick that saw it.
    obtain ⟨t, ht, hlong⟩ := (Option.any_eq_true _ _).mp hheld
    have hlong := of_decide_eq_true hlong
    have hpatience : e.settings.patience ≤ e.settings.confirmS := min_le_left _ _
    exact ⟨t, h.since t ht, by linarith⟩
  · -- Among the remembered ticks enough saw it, and the first of them is periods away from the last.
    obtain ⟨hlen, hshare⟩ := Bool.and_eq_true_iff.mp hmostly
    have hlen := of_decide_eq_true hlen
    have hshare := of_decide_eq_true hshare
    have hlen : (e.settings.shareTicks : K) ≤ e.pressureTicks.length := by exact_mod_cast hlen
    have hcount : e.settings.shareCount ≤ (e.pressureTicks.countP (·.2) : ℤ) := by
      refine Int.ceil_le.mpr ?_
      calc e.settings.confirmFraction * e.settings.shareTicks
          ≤ e.settings.confirmFraction * e.pressureTicks.length :=
            mul_le_mul_of_nonneg_left hlen e.settings.confirmFraction_pos.le
        _ ≤ ((e.pressureTicks.countP (·.2) : ℤ) : K) := by exact_mod_cast hshare
    have hticks := h.ticks
    have hlength : ((e.pressureTicks.filter (·.2)).map (·.1)).length = e.pressureTicks.countP (·.2) := by
      rw [List.length_map, List.countP_eq_length_filter]
    generalize (e.pressureTicks.filter (·.2)).map (·.1) = seen at hticks hlength
    -- `n + 1` spaced ticks take `n` periods, so the first is that much older than the last.
    cases seen with
    | nil =>
      have hone := e.settings.one_le_shareCount
      rw [← hlength] at hcount
      simp at hcount
      omega
    | cons t rest =>
      have hmem : ∀ s ∈ t :: rest, s ∈ pressured e.history := fun s hs => hticks.subset hs
      have hfirst := ControllerSettings.Spaced.first_le (hs.sublist hticks.sublist) fun s hs => h.past s (hmem s hs)
      refine ⟨t, hmem t List.mem_cons_self, ?_⟩
      rw [← hlength, List.length_cons] at hcount
      have hperiods : e.settings.patience ≤ (rest.length : K) * e.settings.periodS ∨ e.settings.patience ≤ 0 := by
        have hmin : e.settings.patience ≤ ((e.settings.shareCount : K) - 1) * e.settings.periodS := min_le_right _ _
        have hone : (1 : K) ≤ e.settings.shareCount := by exact_mod_cast e.settings.one_le_shareCount
        have hcount : (e.settings.shareCount : K) - 1 ≤ rest.length := by
          have : ((e.settings.shareCount : ℤ) : K) ≤ ((rest.length + 1 : ℕ) : ℤ) := by exact_mod_cast hcount
          push_cast at this
          linarith
        rcases le_total 0 e.settings.periodS with hp | hp
        · exact .inl (hmin.trans (mul_le_mul_of_nonneg_right hcount hp))
        · exact .inr (hmin.trans (mul_nonpos_of_nonneg_of_nonpos (by linarith) hp))
      rcases hperiods with hp | hp
      · linarith
      · have := h.past t (hmem t List.mem_cons_self)
        linarith

/-- Whatever is answered has persisted. -/
structure Patient (e : Signs K n) (now : K) : Prop extends e.Recalled now where
  persisted : e.settings.Spaced (pressured e.history) → Persisted e.settings e.history

/-- The same memory after an event that saw no pressure. -/
theorem Recalled.tell {e u : Signs K n} {now : K} (h : e.Recalled now) {v : Event K n} (hnone : v.pressuredAt = none)
    (hhistory : u.history = e.history ++ [v]) (hsince : ∀ t, u.confirmSince = some t → e.confirmSince = some t)
    (hticks : u.pressureTicks = e.pressureTicks) : u.Recalled now := by
  have hsame : pressured u.history = pressured e.history := by
    rw [hhistory, pressured_append, hnone, Option.toList_none, List.append_nil]
  refine ⟨?_, fun t ht => ?_, ?_⟩
  · rw [hsame]
    exact h.past
  · rw [hsame]
    exact h.since t (hsince t ht)
  · rw [hsame, hticks]
    exact h.ticks

theorem Recalled.observe {e : Signs K n} {now : K} (h : e.Recalled now) (warned pressure severe exhausted : Bool) :
    (e.observe now warned pressure severe exhausted).Recalled now := by
  have hsame : pressured (e.observe now warned pressure severe exhausted).history =
      pressured e.history ++ if pressure then [now] else [] := by
    rw [Signs.observe, pressured_append]
    cases pressure <;> rfl
  refine ⟨fun t ht => ?_, fun t ht => ?_, ?_⟩
  · rw [hsame] at ht
    rcases List.mem_append.mp ht with ht | ht
    · exact h.past t ht
    · cases pressure
      · cases ht
      · exact (List.mem_singleton.mp ht).le
  · rw [hsame]
    cases pressure with
    | false => cases ht
    | true =>
      obtain rfl := Option.some.inj ht
      cases hs : e.confirmSince with
      | none => exact List.mem_append_right _ (List.mem_singleton_self now)
      | some s => exact List.mem_append_left _ (h.since s hs)
  · rw [hsame]
    have hsuffix : (System.rememberTick e.settings e.pressureTicks now pressure) <:+ e.pressureTicks ++ [(now, pressure)] :=
      List.dropWhile_suffix _
    refine ((hsuffix.filter _).map _).trans ?_
    rw [List.filter_append, List.map_append]
    obtain ⟨old, hold⟩ := h.ticks
    refine ⟨old, ?_⟩
    rw [← List.append_assoc, hold]
    cases pressure <;> rfl

theorem Patient.tell {e u : Signs K n} {now : K} (h : e.Patient now) {v : Event K n} (hnone : v.pressuredAt = none)
    (hanswer : ∀ t, v.answeredAt = some t → t = now ∧ e.confirmed now = true) (hsettings : u.settings = e.settings)
    (hhistory : u.history = e.history ++ [v]) (hsince : ∀ t, u.confirmSince = some t → e.confirmSince = some t)
    (hticks : u.pressureTicks = e.pressureTicks) : u.Patient now := by
  refine ⟨h.toRecalled.tell hnone hhistory hsince hticks, fun hs => ?_⟩
  rw [hsettings, hhistory, pressured_append, hnone, Option.toList_none, List.append_nil] at hs
  rw [hsettings, hhistory]
  refine (h.persisted hs).append fun t ht => ?_
  obtain ⟨rfl, hc⟩ := hanswer t ht
  exact h.toRecalled.early hs hc

/-- The same memory and the same history. -/
theorem Patient.same {e u : Signs K n} {now : K} (h : e.Patient now) (hsettings : u.settings = e.settings)
    (hhistory : u.history = e.history) (hsince : u.confirmSince = e.confirmSince)
    (hticks : u.pressureTicks = e.pressureTicks) :
    u.Patient now := by
  refine ⟨⟨?_, ?_, ?_⟩, ?_⟩
  · rw [hhistory]
    exact h.past
  · rw [hhistory, hsince]
    exact h.since
  · rw [hhistory, hticks]
    exact h.ticks
  · rw [hhistory, hsettings]
    exact h.persisted

theorem Patient.step {e e' : Signs K n} {now : K} {ph ph' : Phase} (h : e.Patient now) (hm : e.Step now ph ph' e') :
    e'.Patient now := by
  cases hm with
  | observe _ warned pressure severe exhausted =>
    refine ⟨h.toRecalled.observe warned pressure severe exhausted, fun hs => ?_⟩
    have hbefore : e.settings.Spaced (pressured e.history) := by
      refine hs.sublist ?_
      rw [Signs.observe, pressured_append]
      exact List.sublist_append_left _ _
    exact (h.persisted hbefore).append fun t ht => by cases ht
  | redirect _ confirmed =>
    exact h.tell (v := .redirect now) rfl (fun t ht => ⟨(Option.some.inj ht).symm, confirmed⟩) rfl rfl
      (fun _ ht => by cases ht) rfl
  | expand _ confirmed =>
    exact h.tell (v := .expand now) rfl (fun t ht => ⟨(Option.some.inj ht).symm, confirmed⟩) rfl rfl (fun _ ht => ht) rfl
  | raise _ reason because =>
    refine h.tell (v := .fullEffort now reason) rfl (fun t ht => ?_) rfl rfl (fun _ ht => ht) rfl
    cases because with
    | severe => cases ht
    | exhausted => cases ht
    | expansion confirmed => exact ⟨(Option.some.inj ht).symm, confirmed⟩
    | redirect confirmed => exact ⟨(Option.some.inj ht).symm, confirmed⟩
    | nothing confirmed => exact ⟨(Option.some.inj ht).symm, confirmed⟩
  | expanded => exact h.tell (v := .expanded now) rfl (fun t ht => by cases ht) rfl rfl (fun _ ht => by cases ht) rfl
  | nothing | calm | hold | leave | recovered | warn => exact h.same rfl rfl rfl rfl

/-- Time goes on. -/
theorem Patient.later {e : Signs K n} {now now' : K} (h : e.Patient now) (hle : now ≤ now') : e.Patient now' :=
  ⟨⟨fun t ht => (h.past t ht).trans hle, h.since, h.ticks⟩, h.persisted⟩

end Signs

/-! ### Every run -/

theorem Signs.Step.settings {e e' : Signs K n} {now : K} {ph ph' : Phase} (h : e.Step now ph ph' e') :
    e'.settings = e.settings := by
  cases h <;> rfl

theorem patient_invariant (c : ControllerSettings K) :
    Invariant fun _ (s : System K n) => s.signs.settings = c ∧ s.signs.Patient s.now where
  act {_ s s'} h ha := by
    obtain ⟨hsigns, hnow⟩ := ha.signs
    rw [hsigns, hnow]
    exact h
  move {_ _ s s'} h ha hm := by
    have hnow : s'.now = s.now := ha.now
    rw [hnow]
    exact ⟨hm.settings.trans h.1, h.2.step hm⟩
  steady h := h
  experiment {_ s g task earlier} h _ _ _ := by
    have hsigns : (s.beginExperiment g task earlier).signs = s.signs := System.signs_tell_other _ rfl
    rw [hsigns]
    exact h
  start h _ _ := h
  serve h _ := h
  router h hr := ⟨h.1, h.2.later (Router.sameControl_acts hr).2⟩
  pairs _ h := h

omit [Scalar K] in
/-- Only the Controller sees pressure, and only it answers. -/
theorem Event.isControl_of_told {e : Event K n} (h : e.pressuredAt.isSome ∨ e.answeredAt.isSome) : e.isControl = true := by
  cases e <;> simp [pressuredAt, answeredAt, isControl] at h ⊢

omit [Scalar K] in
theorem pressured_control (trace : List (Event K n)) : pressured (trace.filter (·.isControl)) = pressured trace := by
  unfold pressured
  rw [List.filterMap_filter]
  refine List.filterMap_congr fun e _ => ?_
  cases hc : e.isControl with
  | true => rfl
  | false =>
    cases hp : e.pressuredAt with
    | none => rfl
    | some t => exact absurd (Event.isControl_of_told (.inl (by rw [hp]; rfl))) (by rw [hc]; decide)

theorem persisted_control {c : ControllerSettings K} {trace : List (Event K n)} :
    Persisted c (trace.filter (·.isControl)) ↔ Persisted c trace := by
  refine Along.filter_iff _ (fun before e _ => ?_) fun before e he t ht => ?_
  · rw [pressured_control]
  · exact absurd (Event.isControl_of_told (.inr (by rw [ht]; rfl))) (by rw [he]; decide)

/-- In every run in which the ticks that see pressure are at least a period apart, pressure persists before it is
    answered. -/
theorem persisted_of_spaced {s : System K n} (hbuilt : Built s) {ticks steps : ℕ}
    {p : Pool (Label n) (System K n) (Op n) (Op.Ans K) Exn} (hrun : runtime.Run (boot s (.runtime ticks steps)) p)
    (hspaced : s.controller.settings.Spaced (pressured p.world.state.trace)) :
    Persisted s.controller.settings p.world.state.trace := by
  have hstart : s.signs.Patient s.now := by
    have hnone : s.signs.history = [] := by simp [System.signs, hbuilt.trace]
    have hfresh := hbuilt.controller
    refine ⟨⟨?_, fun t ht => ?_, ?_⟩, fun _ => ?_⟩
    · simp [hnone, pressured]
    · rw [System.signs, hfresh] at ht
      cases ht
    · rw [System.signs, hfresh]
      exact List.nil_suffix
    · rw [hnone]
      exact Along.nil
  obtain ⟨hsettings, h⟩ := (patient_invariant s.controller.settings).run hbuilt ⟨rfl, hstart⟩ hrun
  have hpersisted := h.persisted
  rw [hsettings] at hpersisted
  exact persisted_control.mp (hpersisted ((pressured_control p.world.state.trace).symm ▸ hspaced))

section Small

/-- A request waits for its first token past the SLO; the other one streams slowly, and each of its tokens wakes
    the Controller at once. -/
def closeTicks (ticks : ℕ) : List (Choice (Op 2) (Op.Ans ℚ) Exn (Outside ℚ 2)) :=
  [.begin 0, .outside (.prefillGpu 1 true true), .outside (.decodeGpu 1 true true), .resume 0 obliging,
    .outside .newWaiter, .outside (.attempt 0 512 true 0), .outside .newWaiter, .outside (.attempt 1 512 true 0),
    .outside (.clock 1), .outside (.firstToken 1), .begin 1, .resume 1 obliging] ++
  (List.replicate ticks [.outside (.tokenProgress 1 (some 60)), .resume 1 obliging]).flatten

/-- One tick a second, and the wait for the first token goes on. -/
def spacedTicks : List (Choice (Op 2) (Op.Ans ℚ) Exn (Outside ℚ 2)) :=
  closeTicks 0 ++ [.outside (.clock 2), .resume 1 obliging, .outside (.clock 3), .resume 1 obliging]

/-- The first tick sees pressure, and the third one enters full effort. -/
theorem persisted_of_spaced_third : ∃ p, runtime.Run (boot (smallBuilt 2) (.runtime 5 0)) p ∧
    pressured p.world.state.trace = [1, 2, 3] ∧ p.world.state.trace.filterMap (·.answeredAt) = [3] ∧
    Persisted smallControl p.world.state.trace := by
  have hexec : ((runtime.exec (boot (smallBuilt 2) (.runtime 5 0)) spacedTicks).any fun p =>
      decide (pressured p.world.state.trace = [1, 2, 3] ∧ p.world.state.trace.filterMap (·.answeredAt) = [3])) = true := by
    decide +kernel
  have hperiod : smallControl.periodS = 1 := rfl
  obtain ⟨p, hp, hseen⟩ := (Option.any_eq_true _ _).mp hexec
  have hrun : runtime.Run (boot (smallBuilt 2) (.runtime 5 0)) p := Loop.Run.refl.exec hp
  obtain ⟨hpressured, hanswered⟩ := of_decide_eq_true hseen
  refine ⟨p, hrun, hpressured, hanswered, persisted_of_spaced (built_smallBuilt 2) hrun ?_⟩
  show smallControl.Spaced _
  rw [hpressured, ControllerSettings.Spaced, hperiod]
  decide +kernel

/-- Five ticks at one moment see pressure, and the fifth one enters full effort: no time has passed. -/
theorem closeTicks_impatient : ∃ p, runtime.Run (boot (smallBuilt 2) (.runtime 5 0)) p ∧
    ¬Persisted smallControl p.world.state.trace := by
  have hexec : ((runtime.exec (boot (smallBuilt 2) (.runtime 5 0)) (closeTicks 4)).any fun p =>
      decide (pressured p.world.state.trace = [1, 1, 1, 1, 1] ∧
        p.world.state.trace.filterMap (·.answeredAt) = [1])) = true := by
    decide +kernel
  have hpatience : smallControl.patience = 2 := by decide +kernel
  obtain ⟨p, hp, hseen⟩ := (Option.any_eq_true _ _).mp hexec
  obtain ⟨hpressured, hanswered⟩ := of_decide_eq_true hseen
  refine ⟨p, Loop.Run.refl.exec hp, fun hpersisted => ?_⟩
  obtain ⟨before, e, after, htrace, -, he, -⟩ := List.filterMap_eq_cons_iff.mp hanswered
  obtain ⟨t, ht, hle⟩ := hpersisted before e after htrace 1 he
  have hmem : t ∈ pressured p.world.state.trace := by
    rw [htrace, pressured, List.filterMap_append]
    exact List.mem_append_left _ ht
  rw [hpressured] at hmem
  obtain rfl : t = 1 := by simpa using hmem
  rw [hpatience] at hle
  exact absurd hle (by decide +kernel)

end Small
end CanaTune
