import CanaTune.Controller.Search
import CanaTune.Lib.Bracketing
import Mathlib.Tactic.Linarith

/-! The ramp brackets the capacity: it is a search that tests one load after the other over the verdicts at the top
    clock, and whatever it missed lies above the load it returns. -/

namespace CanaTune
variable {K σ : Type} [Scalar K]

/-! ### The loads a ramp tries -/

namespace Ramp
open CanaTune.Bracketing

/-- The loads tried while doubling or halving, and what is known then. -/
def climb (passes : K → Bool) : ℕ → Bracketing K → K → List K × Bracketing K
  | 0, br, _ => ([], br)
  | steps + 1, br, load =>
    if passes load then
      let r := climb passes steps (br.test load true) (load * 2)
      (load :: r.1, r.2)
    else if br.good.isSome then ([load], br.test load false)
    else
      let r := climb passes steps (br.test load false) (load / 2)
      (load :: r.1, r.2)

/-- The loads tried between a good and a bad one, and the good end. -/
def narrow (passes : K → Bool) : ℕ → K → K → List K × K
  | 0, lo, _ => ([], lo)
  | steps + 1, lo, hi =>
    let mid := (lo + hi) / 2
    let r := if passes mid then narrow passes steps mid hi else narrow passes steps lo mid
    (mid :: r.1, r.2)

/-- Every load of a ramp, in order, and the best one that passed. -/
def loads (passes : K → Bool) (steps : ℕ) (start : K) : List K × Option K :=
  let c := climb passes steps ⟨none, none⟩ start
  match c.2.good, c.2.bad with
  | some lo, some hi => (c.1 ++ (narrow passes 2 lo hi).1, some (narrow passes 2 lo hi).2)
  | good, _ => (c.1, good)

variable {passes : K → Bool}

/-- The next load is twice the good one, or half the bad one before there is a good one. -/
structure Next (br : Bracketing K) (load : K) : Prop where
  pos : 0 < load
  good : ∀ g ∈ br.good, load = g * 2
  bad : br.good = none → ∀ h ∈ br.bad, load = h / 2
  both : ∀ g ∈ br.good, ∀ h ∈ br.bad, h = g * 2

theorem Next.inside {br : Bracketing K} {load : K} (h : Next br load) : br.Inside load where
  above := by
    intro g hg
    have hpos := h.pos
    have hload := h.good g hg
    linarith
  below := by
    intro x hx
    have hpos := h.pos
    cases hgood : br.good with
    | none =>
      have hload := h.bad hgood x hx
      linarith
    | some g => rw [h.good g hgood, h.both g hgood x hx]

theorem Next.doubled {br : Bracketing K} {load : K} {tested : List K} (h : Next br load) (hs : Sound passes br tested)
    (hpass : passes load = true) : Next (br.test load true) (load * 2) where
  pos := by
    have hpos := h.pos
    linarith
  good := by
    intro g hg
    rw [Option.some.inj hg]
  bad := by
    intro hnone
    cases hnone
  both := by
    intro g hg x hx
    obtain rfl : load = g := Option.some.inj hg
    have hx : br.bad = some x := hx
    cases hgood : br.good with
    | none =>
      have hload := h.bad hgood x hx
      linarith
    | some g =>
      -- Above a good load the bad one is tried again, and misses again.
      rw [h.good g hgood, ← h.both g hgood x hx, hs.bad x hx] at hpass
      cases hpass

theorem Next.halved {br : Bracketing K} {load : K} (h : Next br load) (hnone : br.good = none) :
    Next (br.test load false) (load / 2) where
  pos := by
    have hpos := h.pos
    linarith
  good := by
    intro g hg
    have hg : br.good = some g := hg
    rw [hnone] at hg
    cases hg
  bad := by
    intro _ x hx
    rw [Option.some.inj hx]
  both := by
    intro g hg
    have hg : br.good = some g := hg
    rw [hnone] at hg
    cases hg

theorem climb_sound : ∀ (steps : ℕ) {br : Bracketing K} {load : K} {tested : List K}, Sound passes br tested →
    Next br load → Sound passes (climb passes steps br load).2 (tested ++ (climb passes steps br load).1)
  | 0, _, _, _, hs, _ => by rwa [climb, List.append_nil]
  | steps + 1, br, load, tested, hs, hnext => by
    have htest := hs.test hnext.inside
    rw [climb]
    cases hpass : passes load with
    | true =>
      rw [hpass] at htest
      have ih := climb_sound steps htest (hnext.doubled hs hpass)
      rwa [List.append_assoc] at ih
    | false =>
      rw [hpass] at htest
      cases hgood : br.good with
      | some g => exact htest
      | none =>
        have ih := climb_sound steps htest (hnext.halved hgood)
        rwa [List.append_assoc] at ih

theorem length_climb_le : ∀ {steps : ℕ} {br : Bracketing K} {load : K}, (climb passes steps br load).1.length ≤ steps
  | 0, _, _ => le_rfl
  | steps + 1, br, load => by
    rw [climb]
    split
    · exact Nat.succ_le_succ length_climb_le
    · split
      · simp
      · exact Nat.succ_le_succ length_climb_le

theorem narrow_sound : ∀ (steps : ℕ) {lo hi : K} {tested : List K}, Sound passes ⟨some lo, some hi⟩ tested →
    ∃ hi', Sound passes ⟨some (narrow passes steps lo hi).2, some hi'⟩ (tested ++ (narrow passes steps lo hi).1)
  | 0, lo, hi, tested, hs => ⟨hi, by rwa [narrow, List.append_nil]⟩
  | steps + 1, lo, hi, tested, hs => by
    have hlt : lo < hi := hs.order lo rfl hi rfl
    have hinside : Inside ⟨some lo, some hi⟩ ((lo + hi) / 2) := by
      constructor
      · rintro g hg
        obtain rfl := Option.some.inj hg
        linarith
      · rintro h hh
        obtain rfl := Option.some.inj hh
        linarith
    have htest := hs.test hinside
    rw [narrow]
    cases hpass : passes ((lo + hi) / 2) with
    | true =>
      rw [hpass] at htest
      obtain ⟨hi', hs'⟩ := narrow_sound steps htest
      exact ⟨hi', by rwa [List.append_assoc] at hs'⟩
    | false =>
      rw [hpass] at htest
      obtain ⟨hi', hs'⟩ := narrow_sound steps htest
      exact ⟨hi', by rwa [List.append_assoc] at hs'⟩

theorem next_start {start : K} (hstart : 0 < start) : Next ⟨none, none⟩ start where
  pos := hstart
  good := by rintro g ⟨⟩
  bad := by rintro - h ⟨⟩
  both := by rintro g ⟨⟩

/-- What is known after doubling and halving from a positive start. -/
theorem climb_start (passes : K → Bool) (steps : ℕ) {start : K} (hstart : 0 < start) :
    Sound passes (climb passes steps ⟨none, none⟩ start).2 (climb passes steps ⟨none, none⟩ start).1 := by
  have hclimb := climb_sound steps (sound_empty passes) (next_start hstart)
  rwa [List.nil_append] at hclimb

/-- From a positive start the loads end in a sound bracket at the load returned. -/
theorem loads_sound (passes : K → Bool) (steps : ℕ) {start : K} (hstart : 0 < start) :
    ∃ br, Sound passes br (loads passes steps start).1 ∧ br.good = (loads passes steps start).2 := by
  have hclimb := climb_start passes steps hstart
  cases hgood : (climb passes steps ⟨none, none⟩ start).2.good with
  | none =>
    simp only [loads, hgood]
    exact ⟨_, hclimb, hgood⟩
  | some lo =>
    cases hbad : (climb passes steps ⟨none, none⟩ start).2.bad with
    | none =>
      simp only [loads, hgood, hbad]
      exact ⟨_, hclimb, hgood⟩
    | some hi =>
      have hs : Sound passes ⟨some lo, some hi⟩ (climb passes steps ⟨none, none⟩ start).1 := by
        rw [← hgood, ← hbad]
        exact hclimb
      obtain ⟨hi', hs'⟩ := narrow_sound 2 hs
      simp only [loads, hgood, hbad]
      exact ⟨_, hs', rfl⟩

theorem loads_eq_none_iff {steps : ℕ} {start : K} :
    (loads passes steps start).2 = none ↔ (climb passes steps ⟨none, none⟩ start).2.good = none := by
  cases hgood : (climb passes steps ⟨none, none⟩ start).2.good with
  | none => simp only [loads, hgood]
  | some lo => cases hbad : (climb passes steps ⟨none, none⟩ start).2.bad <;> simp [loads, hgood, hbad]

theorem exists_append_loads (passes : K → Bool) (steps : ℕ) (start : K) :
    ∃ rest, (loads passes steps start).1 = (climb passes steps ⟨none, none⟩ start).1 ++ rest := by
  cases hgood : (climb passes steps ⟨none, none⟩ start).2.good with
  | none => exact ⟨[], by simp only [loads, hgood, List.append_nil]⟩
  | some lo =>
    cases hbad : (climb passes steps ⟨none, none⟩ start).2.bad with
    | none => exact ⟨[], by simp only [loads, hgood, hbad, List.append_nil]⟩
    | some hi => exact ⟨(narrow passes 2 lo hi).1, by simp only [loads, hgood, hbad]⟩

/-- No load is returned exactly when the first `steps` loads all missed. -/
theorem loads_eq_none {steps : ℕ} {start : K} (hstart : 0 < start) :
    (loads passes steps start).2 = none ↔ ∀ x ∈ (loads passes steps start).1.take steps, passes x = false := by
  obtain ⟨br, hs, hgood⟩ := loads_sound passes steps hstart
  obtain ⟨rest, hrest⟩ := exists_append_loads passes steps start
  constructor
  · intro hnone x hx
    rw [← hgood, hs.good_eq_none] at hnone
    exact hnone x (List.mem_of_mem_take hx)
  · intro h
    rw [loads_eq_none_iff, (climb_start passes steps hstart).good_eq_none]
    intro x hx
    refine h x ?_
    rw [hrest, List.take_append, List.take_of_length_le length_climb_le]
    exact List.mem_append_left _ hx

/-! ### The code's ramp tries them -/

/-- The verdict of a load at the top clock. -/
def verdict (s : SearchSettings K) (answer : ClockPoint → K → WindowResult K) (top : ClockPoint) (load : K) : Bool :=
  s.meetsTarget (answer top load)

/-- A window is the answer to each load tried that has its key. -/
def Answers (answer : ClockPoint → K → WindowResult K) (top : ClockPoint) (alpha : K) (tried : List K)
    (key : WindowKey K) (w : WindowResult K) : Prop :=
  ∀ x ∈ tried, key = TierLocator.openKey top x alpha → w = answer top x

section
variable {b : ProbeBackend K σ} {l : TierLocator K σ} {s : SearchSettings K} {top : ClockPoint} {alpha : K}
  {answer : ClockPoint → K → WindowResult K} {tried : List K}

variable (hpure : ∀ clock load a seconds above w, (b.openWindow clock load a seconds above w).1 = answer clock load)
  (hkeys : ∀ x ∈ tried, ∀ y ∈ tried, TierLocator.openKey top x alpha = TierLocator.openKey top y alpha → x = y)
include hpure hkeys

theorem openWindow_answers (hl : l.CacheHolds (Answers answer top alpha tried)) {x : K} (hx : x ∈ tried) :
    (l.openWindow b top x alpha).1 = answer top x ∧
      TierLocator.Grew (Answers answer top alpha tried) l [answer top x] (l.openWindow b top x alpha).2 := by
  have hmeasured : ∀ seconds above w,
      Answers answer top alpha tried (TierLocator.openKey top x alpha) (b.openWindow top x alpha seconds above w).1 := by
    intro seconds above w y hy hkey
    rw [hpure, hkeys x hx y hy hkey]
  obtain ⟨hw, hgrew⟩ := TierLocator.openWindow_grew hl hmeasured
  have heq : (l.openWindow b top x alpha).1 = answer top x := hw x hx rfl
  rw [heq] at hgrew
  exact ⟨heq, hgrew⟩

theorem climb_refines : ∀ (steps : ℕ) (br : Bracketing K) (load : K) {l : TierLocator K σ}, l.settings = s →
    l.CacheHolds (Answers answer top alpha tried) →
    (∀ x ∈ (climb (verdict s answer top) steps br load).1, x ∈ tried) →
    ∃ l', TierLocator.climb b top alpha steps (br.good.map (answer top)) (br.bad.map (answer top)) load l =
        (((climb (verdict s answer top) steps br load).2.good.map (answer top),
          (climb (verdict s answer top) steps br load).2.bad.map (answer top)), l') ∧
      TierLocator.Grew (Answers answer top alpha tried) l
        ((climb (verdict s answer top) steps br load).1.map (answer top)) l'
  | 0, br, load, l, _, hl, _ => ⟨l, rfl, .nil hl⟩
  | steps + 1, br, load, l, hs, hl, htried => by
    have hload : load ∈ tried := by
      refine htried load ?_
      rw [climb]
      split_ifs <;> exact List.mem_cons_self
    obtain ⟨hw, hgrew⟩ := openWindow_answers hpure hkeys hl hload
    have hs' : (l.openWindow b top load alpha).2.settings = s := hgrew.settings.trans hs
    rw [climb] at htried ⊢
    rw [TierLocator.climb]
    simp only [hw, hs', Option.isSome_map]
    cases hpass : verdict s answer top load with
    | true =>
      rw [hpass] at htried
      have hmeets : s.meetsTarget (answer top load) = true := hpass
      obtain ⟨l', heq, hgrew'⟩ := climb_refines steps (br.test load true) (load * 2) hs' hgrew.holds
        fun x hx => htried x (List.mem_cons_of_mem _ hx)
      simp only [hmeets]
      exact ⟨l', heq, hgrew.trans hgrew'⟩
    -- A miss ends the climb once a load was good; before that the load is halved.
    | false =>
      rw [hpass] at htried
      have hmisses : s.meetsTarget (answer top load) = false := hpass
      simp only [hmisses]
      cases hgood : br.good.isSome with
      | true => exact ⟨_, rfl, hgrew⟩
      | false =>
        rw [hgood] at htried
        obtain ⟨l', heq, hgrew'⟩ := climb_refines steps (br.test load false) (load / 2) hs' hgrew.holds
          fun x hx => htried x (List.mem_cons_of_mem _ hx)
        exact ⟨l', heq, hgrew.trans hgrew'⟩

theorem bisectLoad_refines (hload : ∀ clock load, (answer clock load).load = load) :
    ∀ (steps : ℕ) (lo hi : K) {l : TierLocator K σ}, l.settings = s →
    l.CacheHolds (Answers answer top alpha tried) →
    (∀ x ∈ (narrow (verdict s answer top) steps lo hi).1, x ∈ tried) →
    ∃ l', TierLocator.bisectLoad b top alpha steps lo hi (answer top lo) l =
        (answer top (narrow (verdict s answer top) steps lo hi).2, l') ∧
      TierLocator.Grew (Answers answer top alpha tried) l
        ((narrow (verdict s answer top) steps lo hi).1.map (answer top)) l'
  | 0, lo, hi, l, _, hl, _ => ⟨l, rfl, .nil hl⟩
  | steps + 1, lo, hi, l, hs, hl, htried => by
    rw [narrow] at htried ⊢
    obtain ⟨hw, hgrew⟩ := openWindow_answers hpure hkeys hl (htried _ List.mem_cons_self)
    have hs' : (l.openWindow b top ((lo + hi) / 2) alpha).2.settings = s := hgrew.settings.trans hs
    rw [TierLocator.bisectLoad]
    simp only [hw, hs', hload]
    cases hpass : verdict s answer top ((lo + hi) / 2) with
    | true =>
      rw [hpass] at htried
      have hmeets : s.meetsTarget (answer top ((lo + hi) / 2)) = true := hpass
      obtain ⟨l', heq, hgrew'⟩ := bisectLoad_refines hload steps ((lo + hi) / 2) hi hs' hgrew.holds
        fun x hx => htried x (List.mem_cons_of_mem _ hx)
      simp only [hmeets]
      exact ⟨l', heq, hgrew.trans hgrew'⟩
    | false =>
      rw [hpass] at htried
      have hmisses : s.meetsTarget (answer top ((lo + hi) / 2)) = false := hpass
      obtain ⟨l', heq, hgrew'⟩ := bisectLoad_refines hload steps lo ((lo + hi) / 2) hs' hgrew.holds
        fun x hx => htried x (List.mem_cons_of_mem _ hx)
      simp only [hmisses]
      exact ⟨l', heq, hgrew.trans hgrew'⟩

end

/-! ### The clock reached -/

theorem snapDown_mem {grid : List ℕ} {mhz : K} (h : grid ≠ []) : ∃ f ∈ grid, snapDown grid mhz = .ok f := by
  unfold snapDown
  cases hbelow : (grid.filter fun f : ℕ => (f : K) ≤ mhz).max? with
  | some f => exact ⟨f, (List.mem_filter.mp (List.max?_mem hbelow)).1, rfl⟩
  | none =>
    cases hmin : grid.min? with
    | none => exact (h (List.min?_eq_none_iff.mp hmin)).elim
    | some f => exact ⟨f, List.min?_mem hmin, rfl⟩

theorem effectiveClock_mem {s : SearchSettings K} {hw : Hardware} {top : ClockPoint} (good : WindowResult K)
    (htop : top.prefillMhz ∈ hw.prefillClocks) :
    ∃ f ∈ hw.prefillClocks, TierLocator.effectiveClock s hw top good = .ok f := by
  unfold TierLocator.effectiveClock
  cases good.prefillMhzMedian with
  | none => exact ⟨_, htop, rfl⟩
  | some busy =>
    simp only
    split
    · exact snapDown_mem (List.ne_nil_of_mem htop)
    · exact ⟨_, htop, rfl⟩

/-- The last clock of an ascending grid is its highest. -/
theorem le_getLast {grid : List ℕ} {top f : ℕ} (hsorted : grid.Pairwise (· ≤ ·)) (htop : grid.getLast? = some top)
    (hf : f ∈ grid) : f ≤ top := by
  obtain ⟨init, rfl⟩ := List.getLast?_eq_some_iff.mp htop
  rcases List.mem_append.mp hf with hf | hf
  · exact (List.pairwise_append.mp hsorted).2.2 f hf top (List.mem_singleton_self top)
  · exact (List.mem_singleton.mp hf).le

end Ramp

namespace TierLocator
variable {b : ProbeBackend K σ} {l : TierLocator K σ} {hw : Hardware} {top : ClockPoint} {alpha meanPrompt : K}
  {answer : ClockPoint → K → WindowResult K}

/-- The loads of a ramp over these answers, and the best one that met the target. -/
def rampSearch (l : TierLocator K σ) (answer : ClockPoint → K → WindowResult K) (top : ClockPoint)
    (alpha meanPrompt : K) : List K × Option K :=
  Ramp.loads (Ramp.verdict l.settings answer top) l.settings.rampMaxSteps
    (l.settings.rampStartRps * (meanPrompt + alpha))

/-- The loads that a ramp over these answers tries. -/
def rampLoads (l : TierLocator K σ) (answer : ClockPoint → K → WindowResult K) (top : ClockPoint)
    (alpha meanPrompt : K) : List K := (l.rampSearch answer top alpha meanPrompt).1

theorem ramp_refines (hw : Hardware)
    (hpure : ∀ clock load a seconds above w, (b.openWindow clock load a seconds above w).1 = answer clock load)
    (hload : ∀ clock load, (answer clock load).load = load)
    (hkeys : ∀ x ∈ l.rampLoads answer top alpha meanPrompt, ∀ y ∈ l.rampLoads answer top alpha meanPrompt,
      openKey top x alpha = openKey top y alpha → x = y)
    (hl : l.CacheHolds (Ramp.Answers answer top alpha (l.rampLoads answer top alpha meanPrompt))) :
    match (l.rampSearch answer top alpha meanPrompt).2 with
    | none => l.ramp b hw top alpha meanPrompt = .error (.locator .noLoad)
    | some c0 => ∃ l' : TierLocator K σ, l'.settings = l.settings ∧
        l'.results = l.results ++ (l.rampLoads answer top alpha meanPrompt).map (answer top) ∧
        l.ramp b hw top alpha meanPrompt = (effectiveClock l.settings hw top (answer top c0)).map
          fun fEff => ((c0, fEff), { l' with capacity := some (c0, fEff) }) := by
  obtain ⟨rest, hrest⟩ := Ramp.exists_append_loads (Ramp.verdict l.settings answer top) l.settings.rampMaxSteps
    (l.settings.rampStartRps * (meanPrompt + alpha))
  obtain ⟨l₁, hclimb, hgrew⟩ := Ramp.climb_refines hpure hkeys l.settings.rampMaxSteps ⟨none, none⟩
    (l.settings.rampStartRps * (meanPrompt + alpha)) rfl hl fun x hx => by
      rw [rampLoads, rampSearch, hrest]
      exact List.mem_append_left _ hx
  rw [Option.map_none] at hclimb
  have hs₁ : l₁.settings = l.settings := hgrew.settings
  unfold ramp
  rw [hclimb]
  cases hgood : (Ramp.climb (Ramp.verdict l.settings answer top) l.settings.rampMaxSteps ⟨none, none⟩
      (l.settings.rampStartRps * (meanPrompt + alpha))).2.good with
  | none => simp only [rampSearch, Ramp.loads, hgood, Option.map_none]
  | some lo =>
    cases hbad : (Ramp.climb (Ramp.verdict l.settings answer top) l.settings.rampMaxSteps ⟨none, none⟩
        (l.settings.rampStartRps * (meanPrompt + alpha))).2.bad with
    | none =>
      simp only [rampSearch, rampLoads, Ramp.loads, hgood, hbad, Option.map_some, Option.map_none, hload]
      refine ⟨l₁, hs₁, hgrew.results, ?_⟩
      rw [← hs₁]
      rfl
    | some hi =>
      -- What the two bisections try is the end of the loads.
      have hnarrow : ∀ x ∈ (Ramp.narrow (Ramp.verdict l.settings answer top) 2 lo hi).1,
          x ∈ l.rampLoads answer top alpha meanPrompt := by
        intro x hx
        simp only [rampSearch, rampLoads, Ramp.loads, hgood, hbad]
        exact List.mem_append_right _ hx
      obtain ⟨l₂, hbisect, hgrew'⟩ := Ramp.bisectLoad_refines hpure hkeys hload 2 lo hi hs₁ hgrew.holds hnarrow
      have hgrew₂ := hgrew.trans hgrew'
      simp only [rampSearch, rampLoads, Ramp.loads, hgood, hbad, Option.map_some, hload, hbisect]
      refine ⟨l₂, hgrew₂.settings, ?_, ?_⟩
      · rw [hgrew₂.results, List.map_append]
      · rw [← hgrew₂.settings]
        rfl

/-- The ramp brackets the capacity. Over open windows that depend only on the clock and the load, with a positive start
    and loads that do not share a cache key, C0 is the load of a window of this ramp that meets the target, below every
    load that missed it, and f_eff is a P clock not above the top one; it raises exactly when the first `rampMaxSteps`
    loads all miss. -/
theorem ramp_brackets
    (hpure : ∀ clock load a seconds above w, (b.openWindow clock load a seconds above w).1 = answer clock load)
    (hload : ∀ clock load, (answer clock load).load = load)
    (hstart : 0 < l.settings.rampStartRps) (hmean : 0 < meanPrompt) (halpha : 0 ≤ alpha)
    (hsorted : hw.prefillClocks.Pairwise (· ≤ ·)) (htop : hw.prefillClocks.getLast? = some top.prefillMhz)
    (hkeys : ∀ x ∈ l.rampLoads answer top alpha meanPrompt, ∀ y ∈ l.rampLoads answer top alpha meanPrompt,
      openKey top x alpha = openKey top y alpha → x = y)
    (hcache : ∀ x ∈ l.rampLoads answer top alpha meanPrompt, ∀ hit,
      l.cache.lookup (openKey top x alpha) = some hit → hit.1 = answer top x) :
    match l.ramp b hw top alpha meanPrompt with
    | .ok ((c0, fEff), l') => ∃ ws : List (WindowResult K),
        l'.results = l.results ++ ws ∧ ws.map (·.load) = l.rampLoads answer top alpha meanPrompt ∧
        (∃ w ∈ ws, l.settings.meetsTarget w = true ∧ w.load = c0) ∧
        (∀ w ∈ ws, l.settings.meetsTarget w = false → c0 < w.load) ∧
        (fEff ∈ hw.prefillClocks ∧ fEff ≤ top.prefillMhz) ∧
        ∃ w ∈ ws.take l.settings.rampMaxSteps, l.settings.meetsTarget w = true
    | .error e => e = .locator .noLoad ∧
        ∀ x ∈ (l.rampLoads answer top alpha meanPrompt).take l.settings.rampMaxSteps,
          l.settings.meetsTarget (answer top x) = false := by
  have hpos : 0 < l.settings.rampStartRps * (meanPrompt + alpha) := mul_pos hstart (by linarith)
  have hl : l.CacheHolds (Ramp.Answers answer top alpha (l.rampLoads answer top alpha meanPrompt)) := by
    rintro key hit hhit x hx rfl
    exact hcache x hx hit hhit
  obtain ⟨br, hsound, hgood⟩ :=
    Ramp.loads_sound (Ramp.verdict l.settings answer top) l.settings.rampMaxSteps hpos
  have hnone : (l.rampSearch answer top alpha meanPrompt).2 = none ↔
      ∀ x ∈ (l.rampLoads answer top alpha meanPrompt).take l.settings.rampMaxSteps,
        l.settings.meetsTarget (answer top x) = false := Ramp.loads_eq_none hpos
  -- The ramp is the bracketing of its own loads, which is sound.
  have hrun := ramp_refines hw hpure hload hkeys hl
  have hmem : top.prefillMhz ∈ hw.prefillClocks := List.mem_of_getLast? htop
  cases hbest : (l.rampSearch answer top alpha meanPrompt).2 with
  | none =>
    rw [hbest] at hrun
    rw [hrun]
    exact ⟨rfl, hnone.mp hbest⟩
  | some c0 =>
    rw [hbest] at hrun
    obtain ⟨l', -, hresults, hramp⟩ := hrun
    obtain ⟨fEff, hf, heff⟩ := Ramp.effectiveClock_mem (s := l.settings) (answer top c0) hmem
    rw [heff] at hramp
    rw [hramp]
    have hc0 : br.good = some c0 := hgood.trans hbest
    obtain ⟨hmeets, hin⟩ := hsound.good c0 hc0
    refine ⟨_, hresults, ?_, ⟨answer top c0, List.mem_map.mpr ⟨c0, hin, rfl⟩, hmeets, hload top c0⟩, ?_, ⟨hf, ?_⟩, ?_⟩
    · rw [List.map_map]
      exact (List.map_congr_left fun x _ => hload top x).trans (List.map_id _)
    · intro w hw hmiss
      obtain ⟨x, hx, rfl⟩ := List.mem_map.mp hw
      rw [hload]
      exact hsound.good_lt hc0 hx hmiss
    · exact Ramp.le_getLast hsorted htop hf
    · -- Had all of the first loads missed, there would be no good one.
      by_contra hall
      have hmissed : ∀ x ∈ (l.rampLoads answer top alpha meanPrompt).take l.settings.rampMaxSteps,
          l.settings.meetsTarget (answer top x) = false := by
        intro x hx
        cases hx' : l.settings.meetsTarget (answer top x) with
        | false => rfl
        | true =>
          refine (hall ⟨answer top x, ?_, hx'⟩).elim
          rw [← List.map_take]
          exact List.mem_map.mpr ⟨x, hx, rfl⟩
      rw [hnone.mpr hmissed] at hbest
      cases hbest

/-- Every request of a load above 5 is too slow. -/
def upToFive (_ : ClockPoint) (load : ℚ) : WindowResult ℚ :=
  { WindowResult.quiet load 60 with violations := if load ≤ 5 then 0 else 60 }

def fivePair : ProbeBackend ℚ Unit where
  openWindow clock load _ _ _ w := (upToFive clock load, w)
  closedWindow _ _ _ _ _ w := (.quiet 0 0, w)
  mixContext _ _ := 1
  kvCapacity := none
  time w := (0, w)

/-- Doubled to 8, and bisected down to 5. -/
theorem ramp_brackets_five : ∃ l' : TierLocator ℚ Unit,
    ramp fivePair (fresh .defaults ()) ⟨[900, 1000], [1000]⟩ ⟨1000, 1000⟩ 0 1 = .ok ((5, 1000), l') ∧
      l'.results.map (·.load) = [1, 2, 4, 8, 6, 5] ∧
      ∀ w ∈ l'.results, SearchSettings.defaults.meetsTarget w = false → 5 < w.load := by
  have hloads : (fresh .defaults () : TierLocator ℚ Unit).rampLoads upToFive ⟨1000, 1000⟩ 0 1 = [1, 2, 4, 8, 6, 5] := by
    decide +kernel
  have hvalue : (ramp fivePair (fresh .defaults ()) ⟨[900, 1000], [1000]⟩ ⟨1000, 1000⟩ 0 1).map (·.1) = .ok (5, 1000) := by
    decide +kernel
  have h := @ramp_brackets ℚ Unit _ fivePair (fresh .defaults ()) ⟨[900, 1000], [1000]⟩ ⟨1000, 1000⟩ 0 1 upToFive
    (fun _ _ _ _ _ _ => rfl) (fun _ _ => rfl) (by decide +kernel) (by decide +kernel) (by decide +kernel) (by decide)
    (by decide) (by rw [hloads]; decide +kernel) (fun _ _ _ h => by cases h)
  cases hrun : ramp fivePair (fresh .defaults ()) ⟨[900, 1000], [1000]⟩ ⟨1000, 1000⟩ 0 1 with
  | error e =>
    rw [hrun] at hvalue
    cases hvalue
  | ok r =>
    obtain ⟨⟨c0, fEff⟩, l'⟩ := r
    rw [hrun] at hvalue h
    obtain ⟨rfl, rfl⟩ := Prod.mk.inj (Except.ok.inj hvalue)
    obtain ⟨ws, hresults, hws, -, hmissed, -, -⟩ := h
    have hall : l'.results = ws := hresults
    refine ⟨l', rfl, ?_, ?_⟩
    · rw [hall, hws, hloads]
    · rw [hall]
      exact hmissed

end TierLocator
end CanaTune
