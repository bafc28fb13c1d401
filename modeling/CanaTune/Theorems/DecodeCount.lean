import CanaTune.Controller.Decode
import CanaTune.Lib.Sorted
import CanaTune.Theorems.PrefillSearch
import Mathlib.Tactic.Linarith

/-! The count model and the clock it chose: the search of B* at a lower clock starts at a concurrency that need not be
    clean there, although the clock was judged clean at a smaller load. -/

namespace CanaTune
variable {K σ : Type} [Scalar K]

namespace Count

/-- A closed window of all prompts is the answer to its key. -/
def Answers (answer : ClockPoint → ℕ → ℕ → WindowResult K) (key : WindowKey K) (w : WindowResult K) : Prop :=
  ∀ clock c rep, key = .closed clock c rep .all → w = answer clock c rep

/-- The search of a concurrency keeps inside the setting. -/
structure Found (clean : ℕ → Bool) (limit low g : ℕ) : Prop where
  clean : clean g = true
  low : low ≤ g
  limit : g ≤ limit

section
variable {b : ProbeBackend K σ} {l : TierLocator K σ} {s : SearchSettings K}
  {answer : ClockPoint → ℕ → ℕ → WindowResult K} {point : ClockPoint}
variable (hpure : ∀ clock c rep w, (b.closedWindow clock c s.decodeWindowS rep .all w).1 = answer clock c rep)
include hpure

theorem closedWindow_answers (hs : l.settings = s) (hl : l.CacheHolds (Answers answer)) (clock : ClockPoint) (c rep : ℕ) :
    (l.closedWindow b clock c rep .all).1 = answer clock c rep ∧
      TierLocator.Grew (Answers answer) l [answer clock c rep] (l.closedWindow b clock c rep .all).2 := by
  have hmeasured : ∀ w, Answers answer (.closed clock c rep .all)
      (b.closedWindow clock c l.settings.decodeWindowS rep .all w).1 := by
    rintro w clock' c' rep' ⟨⟩
    rw [hs]
    exact hpure clock c rep w
  obtain ⟨hw, hgrew⟩ := TierLocator.cached_grew (b := b) hl hmeasured
  have heq : (l.closedWindow b clock c rep .all).1 = answer clock c rep := hw clock c rep rfl
  refine ⟨heq, ?_⟩
  rw [← heq]
  exact hgrew

variable (point) in
/-- Doubling from a positive concurrency ends; its result is clean unless the first one is not tested or not clean, and
    lies below its bad end. -/
theorem doubleClean_spec : ∀ (fuel c good : ℕ) (goodW : Option (WindowResult K)) (bad : Option ℕ) {l : TierLocator K σ},
    l.settings = s → l.CacheHolds (Answers answer) → 0 < c → s.decodeMaxConcurrency < c + fuel → good < c →
    (∀ h ∈ bad, h ≤ s.decodeMaxConcurrency ∧ good < h) →
    ∃ g goodW' bad' l' ws, TierLocator.doubleClean b point (fuel + 1) c good goodW bad l = .ok ((g, goodW', bad'), l') ∧
      TierLocator.Grew (Answers answer) l ws l' ∧ (∀ h ∈ bad', h ≤ s.decodeMaxConcurrency ∧ g < h) ∧
      if c ≤ s.decodeMaxConcurrency ∧ bad.all (c < ·) ∧ s.decodeClean (answer point c 0) then
        Found (fun c => s.decodeClean (answer point c 0)) s.decodeMaxConcurrency c g
      else g = good := by
  intro fuel
  induction fuel with
  | zero =>
    intro c good goodW bad l hs hl hc hfuel hgood hbad
    have hmax : ¬ c ≤ s.decodeMaxConcurrency := by omega
    refine ⟨good, goodW, bad, l, [], ?_, .nil hl, hbad, ?_⟩
    · rw [TierLocator.doubleClean, hs, if_neg fun h => hmax h.1]
    · rw [if_neg fun h => hmax h.1]
  | succ fuel ih =>
    intro c good goodW bad l hs hl hc hfuel hgood hbad
    rw [TierLocator.doubleClean]
    by_cases htest : c ≤ s.decodeMaxConcurrency ∧ bad.all (c < ·)
    · obtain ⟨hw, hgrew⟩ := closedWindow_answers hpure hs hl point c 0
      have hs' : (l.closedWindow b point c 0 .all).2.settings = s := hgrew.settings.trans hs
      simp only [hs, if_pos htest, hw, hs']
      -- A window that misses closes the bracket; a clean one doubles the concurrency again.
      cases hclean : s.decodeClean (answer point c 0) with
      | false =>
        refine ⟨good, goodW, some c, _, _, rfl, hgrew, ?_, ?_⟩
        · rintro h ⟨⟩
          exact ⟨htest.1, hgood⟩
        · rw [if_neg]
          rintro ⟨-, -, ⟨⟩⟩
      | true =>
        have hbad' : ∀ h ∈ bad, h ≤ s.decodeMaxConcurrency ∧ c < h := by
          intro h hh
          have hlt := htest.2
          rw [hh] at hlt
          exact ⟨(hbad h hh).1, of_decide_eq_true hlt⟩
        obtain ⟨g, goodW', bad', l', ws, heq, hgrew', hbad'', hif⟩ :=
          ih (c * 2) c (some (answer point c 0)) bad hs' hgrew.holds (by omega) (by omega) (by omega) hbad'
        refine ⟨g, goodW', bad', l', _, heq, hgrew.trans hgrew', hbad'', ?_⟩
        rw [if_pos ⟨htest.1, htest.2, rfl⟩]
        split_ifs at hif
        · exact ⟨hif.clean, by have := hif.low; omega, hif.limit⟩
        · rw [hif]
          exact ⟨hclean, le_rfl, htest.1⟩
    · rw [if_neg (by rw [hs]; exact htest)]
      refine ⟨good, goodW, bad, l, [], rfl, .nil hl, hbad, ?_⟩
      rw [if_neg fun h => htest ⟨h.1, h.2.1⟩]

/-- The bisections keep a clean concurrency clean. -/
theorem bisectClean_spec : ∀ (steps lo hi : ℕ) (goodW : Option (WindowResult K)) {low : ℕ} {l : TierLocator K σ},
    l.settings = s → l.CacheHolds (Answers answer) →
    Found (fun c => s.decodeClean (answer point c 0)) s.decodeMaxConcurrency low lo → lo < hi →
    hi ≤ s.decodeMaxConcurrency →
    ∃ ws, TierLocator.Grew (Answers answer) l ws (TierLocator.bisectClean b point steps lo hi goodW l).2 ∧
      Found (fun c => s.decodeClean (answer point c 0)) s.decodeMaxConcurrency low
        (TierLocator.bisectClean b point steps lo hi goodW l).1.1
  | 0, lo, hi, goodW, low, l, _, hl, hlo, _, _ => ⟨[], .nil hl, hlo⟩
  | steps + 1, lo, hi, goodW, low, l, hs, hl, hlo, hlt, hhi => by
    rw [TierLocator.bisectClean]
    by_cases hend : (lo + hi) / 2 = lo ∨ (lo + hi) / 2 = hi
    · simp only [if_pos hend]
      exact ⟨[], .nil hl, hlo⟩
    · obtain ⟨hw, hgrew⟩ := closedWindow_answers hpure hs hl point ((lo + hi) / 2) 0
      have hs' : (l.closedWindow b point ((lo + hi) / 2) 0 .all).2.settings = s := hgrew.settings.trans hs
      simp only [if_neg hend, hw, hs']
      cases hclean : s.decodeClean (answer point ((lo + hi) / 2) 0) with
      | true =>
        have hmid : Found (fun c => s.decodeClean (answer point c 0)) s.decodeMaxConcurrency low ((lo + hi) / 2) :=
          ⟨hclean, by have := hlo.low; omega, by omega⟩
        obtain ⟨ws, hgrew', hfound⟩ := bisectClean_spec steps ((lo + hi) / 2) hi (some (answer point ((lo + hi) / 2) 0))
          hs' hgrew.holds hmid (by omega) hhi
        exact ⟨_, hgrew.trans hgrew', hfound⟩
      | false =>
        obtain ⟨ws, hgrew', hfound⟩ := bisectClean_spec steps lo ((lo + hi) / 2) goodW hs' hgrew.holds hlo (by omega)
          (by omega)
        exact ⟨_, hgrew.trans hgrew', hfound⟩

variable (point) in
/-- From a positive concurrency the search ends: at a clean one if it tests its first one and finds it clean, else at 0. -/
theorem searchClean_spec (hs : l.settings = s) (hl : l.CacheHolds (Answers answer)) {c : ℕ} (bad : Option ℕ) (hc : 0 < c)
    (hbad : ∀ h ∈ bad, h ≤ s.decodeMaxConcurrency ∧ 0 < h) :
    ∃ g w l' ws, l.searchClean b point c bad = .ok ((g, w), l') ∧ TierLocator.Grew (Answers answer) l ws l' ∧
      if c ≤ s.decodeMaxConcurrency ∧ bad.all (c < ·) ∧ s.decodeClean (answer point c 0) then
        Found (fun c => s.decodeClean (answer point c 0)) s.decodeMaxConcurrency c g
      else g = 0 := by
  obtain ⟨g, goodW, bad', l', ws, heq, hgrew, hbad', hif⟩ := doubleClean_spec point hpure
    s.decodeMaxConcurrency c 0 none bad hs hl hc (by omega) hc hbad
  unfold TierLocator.searchClean
  rw [hs, heq]
  simp only [bind, Except.bind]
  have hs' : l'.settings = s := hgrew.settings.trans hs
  cases bad' with
  | none => exact ⟨g, goodW, l', ws, rfl, hgrew, hif⟩
  | some hi =>
    obtain ⟨hhi, hlt⟩ := hbad' hi rfl
    by_cases hg : 0 < g
    · simp only [if_pos hg]
      split_ifs at hif with htest
      · obtain ⟨ws', hgrew', hfound⟩ := bisectClean_spec hpure 2 g hi goodW hs' hgrew.holds hif hlt hhi
        refine ⟨_, _, _, _, rfl, hgrew.trans hgrew', ?_⟩
        rw [if_pos htest]
        exact hfound
      · omega
    · simp only [if_neg hg]
      exact ⟨g, goodW, l', ws, rfl, hgrew, hif⟩

/-! ### The windows the clock was chosen by -/

theorem closedEach_answers (clock : ClockPoint) (c : ℕ) : ∀ (reps : List ℕ) {l : TierLocator K σ}, l.settings = s →
    l.CacheHolds (Answers answer) →
    (TierLocator.closedEach b clock (reps.map fun rep => (c, rep, .all)) l).1 = reps.map (answer clock c) ∧
      TierLocator.Grew (Answers answer) l (reps.map (answer clock c))
        (TierLocator.closedEach b clock (reps.map fun rep => (c, rep, .all)) l).2
  | [], l, _, hl => ⟨rfl, .nil hl⟩
  | rep :: reps, l, hs, hl => by
    obtain ⟨hw, hgrew⟩ := closedWindow_answers hpure hs hl clock c rep
    obtain ⟨hws, hgrew'⟩ := closedEach_answers clock c reps (hgrew.settings.trans hs) hgrew.holds
    simp only [List.map_cons, TierLocator.closedEach]
    exact ⟨by rw [hw, hws], hgrew.trans hgrew'⟩

/-- The combined window is that of the repeats, of which there is one. -/
theorem closedMedian_answers (hs : l.settings = s) (hl : l.CacheHolds (Answers answer)) {clock : ClockPoint} {c : ℕ}
    {w : WindowResult K} {l' : TierLocator K σ} (h : l.closedMedian b clock c = .ok (w, l')) :
    (∃ r rs, (List.range s.decodeClockRepeats).map (answer clock c) = r :: rs ∧ w = combined r rs) ∧
      ∃ ws, TierLocator.Grew (Answers answer) l ws l' := by
  obtain ⟨hws, hgrew⟩ := closedEach_answers hpure clock c (List.range s.decodeClockRepeats) hs hl
  unfold TierLocator.closedMedian TierLocator.repeats at h
  rw [hs] at h
  split at h
  · cases h
  · rename_i r rs l₂ heq
    obtain ⟨rfl, rfl⟩ := Prod.mk.inj (Except.ok.inj h)
    rw [heq] at hws hgrew
    exact ⟨⟨r, rs, hws.symm, rfl⟩, _, hgrew⟩

theorem decodeScan_answers {prefillMhz load : ℕ} {second : Option ℕ} : ∀ (fs : List ℕ) {l l' : TierLocator K σ}
    {perClock : List (ℕ × WindowResult K)}, l.settings = s → l.CacheHolds (Answers answer) →
    TierLocator.decodeScan b prefillMhz load second fs l = .ok (perClock, l') →
    (∀ e ∈ perClock, e.1 ∈ fs ∧ ∃ r rs,
      (List.range s.decodeClockRepeats).map (answer ⟨prefillMhz, e.1⟩ load) = r :: rs ∧ e.2 = combined r rs) ∧
      ∃ ws, TierLocator.Grew (Answers answer) l ws l'
  | [], l, l', perClock, hs, hl, h => by
    obtain ⟨rfl, rfl⟩ := Prod.mk.inj (Except.ok.inj h)
    exact ⟨fun _ h => by simp at h, [], .nil hl⟩
  | f :: fs, l, l', perClock, hs, hl, h => by
    rw [TierLocator.decodeScan] at h
    obtain ⟨⟨w, l₁⟩, hmedian, h⟩ := bind_eq_ok.mp h
    obtain ⟨hw, ws, hgrew⟩ := closedMedian_answers hpure hs hl hmedian
    have hs₁ : l₁.settings = s := hgrew.settings.trans hs
    simp only at h
    split at h
    · have hsecond : ∃ ws', TierLocator.Grew (Answers answer) l₁ ws' (l₁.secondLevel b ⟨prefillMhz, f⟩ second) := by
        cases second with
        | none => exact ⟨[], .nil hgrew.holds⟩
        | some c => exact ⟨_, (closedWindow_answers hpure hs₁ hgrew.holds ⟨prefillMhz, f⟩ c 0).2⟩
      obtain ⟨ws', hgrew'⟩ := hsecond
      obtain ⟨⟨rest, l₂⟩, hrest, h⟩ := bind_eq_ok.mp h
      obtain ⟨hall, ws'', hgrew''⟩ := decodeScan_answers fs (hgrew'.settings.trans hs₁) hgrew'.holds hrest
      obtain ⟨rfl, rfl⟩ := Prod.mk.inj (Except.ok.inj h)
      refine ⟨?_, _, (hgrew.trans hgrew').trans hgrew''⟩
      intro e he
      rcases List.mem_cons.mp he with rfl | he
      · exact ⟨List.mem_cons_self, hw⟩
      · exact ⟨List.mem_cons_of_mem f (hall e he).1, (hall e he).2⟩
    · obtain ⟨rfl, rfl⟩ := Prod.mk.inj (Except.ok.inj h)
      refine ⟨?_, ws, hgrew⟩
      rintro e he
      obtain rfl := List.mem_singleton.mp he
      exact ⟨List.mem_cons_self, hw⟩

end

end Count

namespace TierLocator
variable {b : ProbeBackend K σ} {l l₁ : TierLocator K σ} {hw : Hardware} {prefillMhz : ℕ}
  {answer : ClockPoint → ℕ → ℕ → WindowResult K}

/-- What is known of a choice: B* of the highest clock lies from the start up to the limit and is clean, and the combined
    window at the chosen clock and the load is clean. -/
structure Chosen (s : SearchSettings K) (answer : ClockPoint → ℕ → ℕ → WindowResult K) (prefillMhz : ℕ)
    (c : CountChoice K) : Prop where
  start : 0 < s.decodeStartConcurrency
  startClean : s.decodeStartConcurrency ≤ s.decodeMaxConcurrency ∧
    s.decodeClean (answer ⟨prefillMhz, c.topD⟩ s.decodeStartConcurrency 0) = true
  top : Count.Found (fun n => s.decodeClean (answer ⟨prefillMhz, c.topD⟩ n 0)) s.decodeMaxConcurrency
    s.decodeStartConcurrency c.bTop
  load : c.load = decodeLoad s (c.bTop : K)
  window : ∃ r rs, (List.range s.decodeClockRepeats).map (answer ⟨prefillMhz, c.fD⟩ c.load) = r :: rs ∧
    s.decodeClean (combined r rs) = true

theorem mem_cleanEnergies {s : SearchSettings K} {perClock : List (ℕ × WindowResult K)} {f : ℕ} {e : K}
    (h : (f, e) ∈ cleanEnergies s perClock) : ∃ w, (f, w) ∈ perClock ∧ s.decodeClean w = true := by
  obtain ⟨⟨g, w⟩, hg, heq⟩ := List.mem_filterMap.mp h
  split_ifs at heq with hclean
  obtain ⟨j, -, hj⟩ := Option.map_eq_some_iff.mp heq
  obtain ⟨rfl, -⟩ := Prod.mk.inj hj
  exact ⟨w, hg, hclean⟩

theorem chooseDecode_mem {s : SearchSettings K} {missing : LocatorError K} {ok : List (ℕ × K)} {f : ℕ}
    (h : chooseDecode s missing ok = .ok f) : ∃ e, (f, e) ∈ ok := by
  unfold chooseDecode at h
  split at h
  · cases h
  · split at h
    · cases h
    · rename_i g hmax
      obtain rfl := Except.ok.inj h
      obtain ⟨⟨g', e⟩, he, rfl⟩ := List.mem_map.mp (List.max?_mem hmax)
      exact ⟨e, (List.mem_filter.mp he).1⟩

/-- A search from 0 finds nothing, whenever it ends. -/
theorem doubleClean_zero {point : ClockPoint} : ∀ (fuel : ℕ) (goodW : Option (WindowResult K)) (bad : Option ℕ)
    {l l' : TierLocator K σ} {g : ℕ} {goodW' : Option (WindowResult K)} {bad' : Option ℕ},
    doubleClean b point fuel 0 0 goodW bad l = .ok ((g, goodW', bad'), l') → g = 0
  | 0, _, _, _, _, _, _, _, h => by cases h
  | fuel + 1, goodW, bad, l, l', g, goodW', bad', h => by
    rw [doubleClean] at h
    simp only at h
    split_ifs at h
    · exact doubleClean_zero fuel _ bad h
    · exact (Prod.mk.inj (Prod.mk.inj (Except.ok.inj h)).1).1.symm
    · exact (Prod.mk.inj (Prod.mk.inj (Except.ok.inj h)).1).1.symm

theorem searchClean_zero {point : ClockPoint} {bad : Option ℕ} {l' : TierLocator K σ} {g : ℕ}
    {w : Option (WindowResult K)} (h : l.searchClean b point 0 bad = .ok ((g, w), l')) : g = 0 := by
  unfold searchClean at h
  obtain ⟨⟨⟨g', goodW, bad'⟩, l₂⟩, hdouble, h⟩ := bind_eq_ok.mp h
  obtain rfl := doubleClean_zero _ none bad hdouble
  cases bad' with
  | none => exact (Prod.mk.inj (Prod.mk.inj (Except.ok.inj h)).1).1.symm
  | some hi => exact (Prod.mk.inj (Prod.mk.inj (Except.ok.inj h)).1).1.symm

theorem chooseCount_spec
    (hpure : ∀ clock c rep w, (b.closedWindow clock c l.settings.decodeWindowS rep .all w).1 = answer clock c rep)
    (hl : l.CacheHolds (Count.Answers answer)) {c : CountChoice K}
    (h : l.chooseCount b hw prefillMhz = .ok (c, l₁)) :
    Chosen l.settings answer prefillMhz c ∧ c.fD ∈ hw.decodeClocks ∧
      ∃ ws, Grew (Count.Answers answer) l ws l₁ := by
  unfold chooseCount at h
  cases hlast : hw.decodeClocks.getLast? with
  | none =>
    simp only [hlast] at h
    cases h
  | some topD =>
    simp only [hlast, bStar] at h
    obtain ⟨⟨⟨bTop, topW⟩, l₂⟩, hsearch, h⟩ := bind_eq_ok.mp h
    simp only at h
    split at h
    · cases h
    rename_i hpos
    obtain ⟨clocks, hspread, h⟩ := bind_eq_ok.mp h
    obtain ⟨⟨perClock, l₃⟩, hscan, h⟩ := bind_eq_ok.mp h
    obtain ⟨fD, hfD, h⟩ := bind_eq_ok.mp h
    obtain ⟨rfl, rfl⟩ := Prod.mk.inj (Except.ok.inj h)
    -- A search that starts from no sequences finds none, which the source refuses.
    have hstart : 0 < l.settings.decodeStartConcurrency := by
      refine Nat.pos_of_ne_zero fun hzero => hpos ?_
      rw [hzero] at hsearch
      exact searchClean_zero hsearch
    obtain ⟨g, w, l', ws, heq, hgrew, hif⟩ := Count.searchClean_spec ⟨prefillMhz, topD⟩ hpure rfl hl none
      hstart fun _ h => by cases h
    rw [heq] at hsearch
    obtain ⟨hgw, rfl⟩ := Prod.mk.inj (Except.ok.inj hsearch)
    obtain ⟨rfl, rfl⟩ := Prod.mk.inj hgw
    split_ifs at hif with htest
    · have hne : hw.decodeClocks ≠ [] := by
        intro hnil
        rw [hnil] at hlast
        cases hlast
      obtain ⟨fs, hfs, hsub⟩ := spread_subset (K := K) hne (hw.decodeClocks.headD topD) topD l'.settings.coarsePoints
      rw [hfs] at hspread
      obtain rfl := Except.ok.inj hspread
      obtain ⟨hall, ws', hgrew'⟩ := Count.decodeScan_answers hpure fs hgrew.settings hgrew.holds hscan
      obtain ⟨e, he⟩ := chooseDecode_mem hfD
      obtain ⟨chosen, hmem, hclean⟩ := mem_cleanEnergies he
      obtain ⟨hin, r, rs, hrs, rfl⟩ := hall _ hmem
      rw [hgrew'.settings, hgrew.settings] at hclean
      refine ⟨⟨hstart, ⟨htest.1, htest.2.2⟩, hif, ?_, r, rs, hrs, hclean⟩, hsub fD hin, _, hgrew.trans hgrew'⟩
      simp only [hgrew.settings]
    · exact (hpos hif).elim

section
variable {s : SearchSettings K} (point : ClockPoint)
variable (hpure : ∀ clock c rep w, (b.closedWindow clock c s.decodeWindowS rep .all w).1 = answer clock c rep)
  (hs : l.settings = s) (hl : l.CacheHolds (Count.Answers answer)) (hstart : 0 < s.decodeStartConcurrency)
include hpure hs hl hstart

theorem bStar_none_spec (hlimit : s.decodeStartConcurrency ≤ s.decodeMaxConcurrency)
    (hclean : s.decodeClean (answer point s.decodeStartConcurrency 0) = true) :
    ∃ n w l', l.bStar b point none = .ok ((n, w), l') ∧ 0 < n ∧ s.decodeClean (answer point n 0) = true := by
  obtain ⟨g, w, l', ws, heq, -, hif⟩ := Count.searchClean_spec point hpure hs hl none hstart fun _ h => by cases h
  rw [if_pos ⟨hlimit, rfl, hclean⟩] at hif
  refine ⟨g, w, l', ?_, hstart.trans_le hif.low, hif.clean⟩
  rw [bStar, hs, heq]

/-- The search below a hint succeeds exactly when the smallest concurrency it can fall back to is clean. -/
theorem bStar_hint_spec {hint : ℕ} (hlow : s.decodeStartConcurrency ≤ hint) (hlimit : hint ≤ s.decodeMaxConcurrency)
    (hdown : ∀ m n, m ≤ n → s.decodeClean (answer point n 0) = true → s.decodeClean (answer point m 0) = true) :
    ∃ n w l', l.bStar b point (some hint) = .ok ((n, w), l') ∧
      if s.decodeClean (answer point (max s.decodeStartConcurrency (hint / 2)) 0) = true then
        0 < n ∧ s.decodeClean (answer point n 0) = true
      else n = 0 := by
  obtain ⟨hw, hgrew⟩ := Count.closedWindow_answers hpure hs hl point hint 0
  have hs' : (l.closedWindow b point hint 0 .all).2.settings = s := hgrew.settings.trans hs
  simp only [bStar, hw, hs']
  cases hhint : s.decodeClean (answer point hint 0) with
  | true =>
    refine ⟨hint, _, _, rfl, ?_⟩
    rw [if_pos (hdown _ _ (by omega) hhint)]
    exact ⟨by omega, hhint⟩
  | false =>
    -- The hint is the bad end, and the search starts from half of it.
    have hbad : ∀ h ∈ some hint, h ≤ s.decodeMaxConcurrency ∧ 0 < h := by
      rintro h ⟨⟩
      omega
    have hpos : 0 < max s.decodeStartConcurrency (hint / 2) := by omega
    obtain ⟨g, w, l', ws, heq, -, hif⟩ := Count.searchClean_spec point hpure hs' hgrew.holds (some hint) hpos hbad
    refine ⟨g, w, l', heq, ?_⟩
    split_ifs with hclean
    · -- The first concurrency tested is clean, so it is not the hint.
      have hne : max s.decodeStartConcurrency (hint / 2) ≠ hint := by
        intro heq
        rw [heq, hhint] at hclean
        cases hclean
      have hlt : max s.decodeStartConcurrency (hint / 2) < hint := by omega
      rw [if_pos ⟨by omega, decide_eq_true hlt, hclean⟩] at hif
      exact ⟨hpos.trans_le hif.low, hif.clean⟩
    · rwa [if_neg fun h => hclean h.2.2] at hif

end

theorem verifyCount_eq {c : CountChoice K} {n : ℕ} {w : Option (WindowResult K)} {l' : TierLocator K σ}
    (h : l.bStar b ⟨prefillMhz, c.fD⟩ (if c.fD = c.topD then none else some c.bTop) = .ok ((n, w), l')) :
    l.verifyCount b prefillMhz c = if n = 0 then .error (.locator .chosenNotClean) else .ok ((n, w), l') := by
  unfold verifyCount
  rw [h]
  rfl

/-- What the claim asks of a choice: the clock is not rejected, and the concurrency found there is clean. -/
def Kept (b : ProbeBackend K σ) (l l₁ : TierLocator K σ) (hw : Hardware) (prefillMhz : ℕ) (c : CountChoice K)
    (clean : ℕ → Bool) : Prop :=
  l.decodeCount b hw prefillMhz ≠ .error (.locator .chosenNotClean) ∧
    ∃ n w l₂, l₁.verifyCount b prefillMhz c = .ok ((n, w), l₂) ∧ clean n = true

theorem decodeCount_of_verify {c : CountChoice K} (hchoose : l.chooseCount b hw prefillMhz = .ok (c, l₁)) :
    (∀ e, l₁.verifyCount b prefillMhz c = .error e → l.decodeCount b hw prefillMhz = .error e) ∧
      ∀ r, l₁.verifyCount b prefillMhz c = .ok r → ∃ r', l.decodeCount b hw prefillMhz = .ok r' := by
  unfold decodeCount
  rw [hchoose]
  refine ⟨fun e he => ?_, fun r hr => ?_⟩
  · simp only [bind, Except.bind, he]
  · simp only [bind, Except.bind, hr]
    exact ⟨_, rfl⟩

/-- The clock just found clean is kept exactly when it is the highest one, or the smallest concurrency the search there
    can fall back to, `max start (bTop / 2)`, is clean too. -/
theorem kept_iff {c : CountChoice K}
    (hpure : ∀ clock n rep w, (b.closedWindow clock n l.settings.decodeWindowS rep .all w).1 = answer clock n rep)
    (hl : l.CacheHolds (Count.Answers answer))
    (hdown : ∀ m n, m ≤ n → l.settings.decodeClean (answer ⟨prefillMhz, c.fD⟩ n 0) = true →
      l.settings.decodeClean (answer ⟨prefillMhz, c.fD⟩ m 0) = true)
    (hchoose : l.chooseCount b hw prefillMhz = .ok (c, l₁)) :
    Kept b l l₁ hw prefillMhz c (fun n => l.settings.decodeClean (answer ⟨prefillMhz, c.fD⟩ n 0)) ↔
      c.fD = c.topD ∨ l.settings.decodeClean
        (answer ⟨prefillMhz, c.fD⟩ (max l.settings.decodeStartConcurrency (c.bTop / 2)) 0) = true := by
  obtain ⟨hc, -, ws, hgrew⟩ := chooseCount_spec hpure hl hchoose
  obtain ⟨herror, hok⟩ := decodeCount_of_verify hchoose
  have hkept : ∀ {n w l₂}, l₁.verifyCount b prefillMhz c = .ok ((n, w), l₂) →
      l.settings.decodeClean (answer ⟨prefillMhz, c.fD⟩ n 0) = true →
      Kept b l l₁ hw prefillMhz c fun n => l.settings.decodeClean (answer ⟨prefillMhz, c.fD⟩ n 0) := by
    intro n w l₂ hverify hclean
    refine ⟨?_, n, w, l₂, hverify, hclean⟩
    obtain ⟨r', hr'⟩ := hok _ hverify
    rw [hr']
    simp
  -- At the top clock the search starts afresh; below it, from the hint that was tested there.
  by_cases hf : c.fD = c.topD
  · obtain ⟨n, w, l₂, hstar, hn, hclean⟩ := bStar_none_spec ⟨prefillMhz, c.fD⟩ hpure hgrew.settings
      hgrew.holds hc.start hc.startClean.1 (hf ▸ hc.startClean.2)
    have hverify := verifyCount_eq (c := c) (by rw [if_pos hf]; exact hstar)
    rw [if_neg hn.ne'] at hverify
    exact ⟨fun _ => .inl hf, fun _ => hkept hverify hclean⟩
  · obtain ⟨n, w, l₂, hstar, hif⟩ := bStar_hint_spec ⟨prefillMhz, c.fD⟩ hpure hgrew.settings hgrew.holds
      hc.start hc.top.low hc.top.limit hdown
    have hverify := verifyCount_eq (c := c) (by rw [if_neg hf]; exact hstar)
    rw [or_iff_right hf]
    split_ifs at hif with hfall
    · rw [if_neg hif.1.ne'] at hverify
      exact ⟨fun _ => hfall, fun _ => hkept hverify hif.2⟩
    · rw [if_pos hif] at hverify
      exact ⟨fun h => (h.1 (herror _ hverify)).elim, fun h => (hfall h).elim⟩

/-- What a probe reports of D: nothing negative, and a TPOT only of requests. -/
structure Sane (w : WindowResult K) : Prop where
  preemptions : 0 ≤ w.decodePreemptions
  waiting : 0 ≤ w.decodeWaitingMax
  tpot : w.tpotP95.isSome → 0 < w.requests

theorem decodeClean_iff {s : SearchSettings K} {w : WindowResult K} : s.decodeClean w = true ↔
    0 < w.requests ∧ (∃ ms ∈ w.tpotP95, ms ≤ s.tpotSloMs) ∧ w.decodePreemptions = 0 ∧ w.decodeWaitingMax = 0 := by
  simp only [SearchSettings.decodeClean, Bool.and_eq_true, decide_eq_true_eq, Option.any_eq_true, and_assoc,
    Option.mem_def]

/-- Of clean combined windows one is clean. -/
theorem exists_clean {s : SearchSettings K} {r : WindowResult K} {rs : List (WindowResult K)}
    (hsane : ∀ w ∈ r :: rs, Sane w) (h : s.decodeClean (combined r rs) = true) :
    ∃ w ∈ r :: rs, s.decodeClean w = true := by
  obtain ⟨-, ⟨ms, hms, hle⟩, hpreempt, hwaiting⟩ := decodeClean_iff.mp h
  have hmem := List.max?_mem hms
  obtain ⟨w, hw, htpot⟩ := List.mem_filterMap.mp hmem
  refine ⟨w, hw, decodeClean_iff.mpr ⟨(hsane w hw).tpot (by rw [htpot]; rfl), ⟨ms, htpot, hle⟩, ?_, ?_⟩⟩
  · have hsum : ((r :: rs).map (·.decodePreemptions)).sum = 0 := hpreempt
    refine le_antisymm ?_ (hsane w hw).preemptions
    rw [← hsum]
    refine List.single_le_sum ?_ _ (List.mem_map.mpr ⟨w, hw, rfl⟩)
    intro x hx
    obtain ⟨v, hv, rfl⟩ := List.mem_map.mp hx
    exact (hsane v hv).preemptions
  · have hmax : (rs.map (·.decodeWaitingMax)).foldl max r.decodeWaitingMax = 0 := hwaiting
    refine le_antisymm ?_ (hsane w hw).waiting
    rw [← hmax]
    refine le_foldl_max ?_
    rcases List.mem_cons.mp hw with rfl | hw
    · exact .inl le_rfl
    · exact .inr (List.mem_map.mpr ⟨w, hw, rfl⟩)

theorem le_roundEven {n : ℤ} {x : K} (h : (n : K) ≤ x) : n ≤ Scalar.roundEven x := by
  have hfloor : n ≤ ⌊x⌋ := Int.le_floor.mpr h
  unfold Scalar.roundEven
  split_ifs <;> omega

/-- From a fraction of one half the load is no less than half the sequences. -/
theorem half_le_decodeLoad {s : SearchSettings K} (hfraction : 1 / 2 ≤ s.decodeLoadFraction) (n : ℕ) :
    n / 2 ≤ decodeLoad s (n : K) := by
  have hn : (0 : K) ≤ n := Nat.cast_nonneg n
  have hhalf : (((n / 2 : ℕ) : ℤ) : K) ≤ s.decodeLoadFraction * n := by
    have hdiv : ((n / 2 : ℕ) : K) ≤ n / 2 := Nat.cast_div_le
    have hmul := mul_le_mul_of_nonneg_right hfraction hn
    rw [Int.cast_natCast]
    linarith
  have hround := le_roundEven hhalf
  unfold decodeLoad
  omega

/-- The count model may reject the clock it has just found clean. Over a pure backend, downward closed in the concurrency
    at each D clock, the clock chosen is kept and the B* found there clean exactly when it is the highest clock or the
    concurrency `max start (bTop / 2)`, from which the search there starts below the hint, is clean; from a load fraction
    of one half, with windows as a probe reports them, exactly when the start concurrency is. -/
theorem decodeCount_keeps {c : CountChoice K}
    (hpure : ∀ clock n rep w, (b.closedWindow clock n l.settings.decodeWindowS rep .all w).1 = answer clock n rep)
    (hcache : ∀ clock n rep hit, l.cache.lookup (.closed clock n rep .all) = some hit → hit.1 = answer clock n rep)
    (hdown : ∀ f ∈ hw.decodeClocks, ∀ m n rep rep', rep < l.settings.decodeClockRepeats →
      rep' < l.settings.decodeClockRepeats → m ≤ n → l.settings.decodeClean (answer ⟨prefillMhz, f⟩ n rep) = true →
        l.settings.decodeClean (answer ⟨prefillMhz, f⟩ m rep') = true)
    (hchoose : l.chooseCount b hw prefillMhz = .ok (c, l₁)) :
    (Kept b l l₁ hw prefillMhz c (fun n => l.settings.decodeClean (answer ⟨prefillMhz, c.fD⟩ n 0)) ↔
      c.fD = c.topD ∨ l.settings.decodeClean
        (answer ⟨prefillMhz, c.fD⟩ (max l.settings.decodeStartConcurrency (c.bTop / 2)) 0) = true) ∧
    (1 / 2 ≤ l.settings.decodeLoadFraction → (∀ clock n rep, Sane (answer clock n rep)) →
      (Kept b l l₁ hw prefillMhz c (fun n => l.settings.decodeClean (answer ⟨prefillMhz, c.fD⟩ n 0)) ↔
        c.fD = c.topD ∨
          l.settings.decodeClean (answer ⟨prefillMhz, c.fD⟩ l.settings.decodeStartConcurrency 0) = true)) := by
  have hl : l.CacheHolds (Count.Answers answer) := by
    rintro key hit hhit clock n rep rfl
    exact hcache clock n rep hit hhit
  obtain ⟨hc, hfD, -⟩ := chooseCount_spec hpure hl hchoose
  obtain ⟨r, rs, hrs, hwindow⟩ := hc.window
  have hrepeats : 0 < l.settings.decodeClockRepeats := by
    refine Nat.pos_of_ne_zero fun hzero => ?_
    rw [hzero] at hrs
    cases hrs
  have hiff := kept_iff hpure hl (fun m n hmn hclean => hdown c.fD hfD m n 0 0 hrepeats hrepeats hmn hclean) hchoose
  refine ⟨hiff, fun hfraction hsane => ?_⟩
  rw [hiff]
  refine or_congr_right ?_
  constructor
  · exact hdown c.fD hfD _ _ 0 0 hrepeats hrepeats (le_max_left _ _)
  · intro hstart
    obtain ⟨w, hmem, hclean⟩ := exists_clean (fun w hw => by
      rw [← hrs] at hw
      obtain ⟨rep, -, rfl⟩ := List.mem_map.mp hw
      exact hsane _ _ _) hwindow
    rw [← hrs] at hmem
    obtain ⟨rep, hrep, rfl⟩ := List.mem_map.mp hmem
    -- The load of the chosen window is at least half of B* at the top clock.
    have hload : c.bTop / 2 ≤ c.load := by
      rw [hc.load]
      exact half_le_decodeLoad hfraction c.bTop
    have hhalf := hdown c.fD hfD (c.bTop / 2) c.load rep 0 (List.mem_range.mp hrep) hrepeats hload hclean
    rcases max_choice l.settings.decodeStartConcurrency (c.bTop / 2) with hmax | hmax
    · rw [hmax]
      exact hstart
    · rw [hmax]
      exact hhalf

/-- D holds 9 sequences at 2000 MHz and 7 at any other clock. -/
def sequencesHeld (clock : ClockPoint) : ℕ := if clock.decodeMhz = 2000 then 9 else 7

def heldAnswer (clock : ClockPoint) (n _ : ℕ) : WindowResult ℚ :=
  { WindowResult.quiet (n : ℚ) 60 with
    tpotP95 := some (if n ≤ sequencesHeld clock then 100 else 300)
    decodeJ := some (if clock.decodeMhz = 2000 then 2 else 1) }

def heldPair : ProbeBackend ℚ Unit where
  openWindow _ load _ _ _ w := (.quiet load 60, w)
  closedWindow clock n _ rep _ w := (heldAnswer clock n rep, w)
  mixContext _ _ := 1
  kvCapacity := none
  time w := (0, w)

theorem heldAnswer_clean (start : ℕ) (clock : ClockPoint) (n rep : ℕ) :
    { SearchSettings.defaults with decodeStartConcurrency := start }.decodeClean (heldAnswer clock n rep) = true ↔
      n ≤ sequencesHeld clock := by
  rw [decodeClean_iff]
  simp only [heldAnswer, WindowResult.quiet, SearchSettings.defaults]
  by_cases hn : n ≤ sequencesHeld clock
  · norm_num [hn]
  · norm_num [hn]

/-- The run over this pair with the default settings but for the start concurrency. -/
def heldStart (start : ℕ) : TierLocator ℚ Unit := fresh { SearchSettings.defaults with decodeStartConcurrency := start } ()

/-- From 4 sequences the search at 1000 MHz finds the 7 it holds. -/
theorem decodeCount_keeps_four : ∃ c l₁,
    (heldStart 4).chooseCount heldPair ⟨[1000], [1000, 2000]⟩ 1000 = .ok (c, l₁) ∧ c.fD = 1000 ∧
      Kept heldPair (heldStart 4) l₁ ⟨[1000], [1000, 2000]⟩ 1000 c fun n =>
        (heldStart 4).settings.decodeClean (heldAnswer ⟨1000, c.fD⟩ n 0) := by
  have hvalue : ((heldStart 4).chooseCount heldPair ⟨[1000], [1000, 2000]⟩ 1000).map (fun r => (r.1.fD, r.1.bTop)) =
      .ok (1000, 8) := by decide +kernel
  cases hrun : (heldStart 4).chooseCount heldPair ⟨[1000], [1000, 2000]⟩ 1000 with
  | error e =>
    rw [hrun] at hvalue
    cases hvalue
  | ok r =>
    obtain ⟨c, l₁⟩ := r
    rw [hrun] at hvalue
    obtain ⟨hfD, hbTop⟩ := Prod.mk.inj (Except.ok.inj hvalue)
    have hdown : ∀ f ∈ [1000, 2000], ∀ m n rep rep', rep < (heldStart 4).settings.decodeClockRepeats →
        rep' < (heldStart 4).settings.decodeClockRepeats → m ≤ n →
        (heldStart 4).settings.decodeClean (heldAnswer ⟨1000, f⟩ n rep) = true →
        (heldStart 4).settings.decodeClean (heldAnswer ⟨1000, f⟩ m rep') = true := by
      intro f _ m n rep rep' _ _ hmn hclean
      exact (heldAnswer_clean 4 _ _ _).mpr (hmn.trans ((heldAnswer_clean 4 _ _ _).mp hclean))
    obtain ⟨hiff, -⟩ := decodeCount_keeps (fun _ _ _ _ => rfl) (fun _ _ _ _ h => by cases h) hdown hrun
    refine ⟨c, l₁, rfl, hfD, hiff.mpr (.inr ?_)⟩
    rw [hfD, hbTop]
    decide +kernel

/-- From 8 sequences, the default, B* of the top clock is 8. 1000 MHz is clean at the load of 6 and cheaper, but the search
    there starts at 8 again, finds nothing, and the run is thrown away. -/
theorem decodeCount_rejects :
    (∀ f m n rep rep', m ≤ n → (heldStart 8).settings.decodeClean (heldAnswer ⟨1000, f⟩ n rep) = true →
      (heldStart 8).settings.decodeClean (heldAnswer ⟨1000, f⟩ m rep') = true) ∧
    ((heldStart 8).chooseCount heldPair ⟨[1000], [1000, 2000]⟩ 1000).map (fun r => (r.1.fD, r.1.load)) = .ok (1000, 6) ∧
    (∀ rep, (heldStart 8).settings.decodeClean (heldAnswer ⟨1000, 1000⟩ 6 rep) = true) ∧
    ((heldStart 8).decodeCount heldPair ⟨[1000], [1000, 2000]⟩ 1000).map (·.1.1) = .error (.locator .chosenNotClean) := by
  refine ⟨?_, by decide +kernel, fun rep => (heldAnswer_clean 8 _ _ _).mpr (by decide), by decide +kernel⟩
  intro f m n rep rep' hmn hclean
  exact (heldAnswer_clean 8 _ _ _).mpr (hmn.trans ((heldAnswer_clean 8 _ _ _).mp hclean))

end TierLocator
end CanaTune
