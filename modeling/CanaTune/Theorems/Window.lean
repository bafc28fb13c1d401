import CanaTune.Theorems.Moves
import CanaTune.Router.Feedback
import CanaTune.Lib.Sorted

/-! The windowed TPOT feedback measures a share of slow gaps. Each D's deque is what its gaps are without some that were
    too old when they were dropped, so whatever moment the window is read at, it holds the recent gaps and no others. -/

namespace CanaTune
variable {K : Type} [Scalar K] {n : ℕ}

/-- A gap between two tokens of a stream that decodes on `decode`, seen at `time`. -/
structure Recorded (K : Type) (n : ℕ) where
  decode : Fin n
  time : K
  ms : K

namespace Router

/-- The gap that a call of `token_progress` records. -/
def recorded (r : Router K n) (i : ℕ) (tpotMs : Option K) : List (Recorded K n) :=
  match r.tickets[i]?, tpotMs with
  | some t, some ms => [⟨t.dgroup, r.now, ms⟩]
  | _, _ => []

/-- Runs of `token_progress` at non-decreasing times, with the gaps recorded so far. In between the window may be read,
    and the Router may do anything that leaves its settings and its gaps. -/
inductive Progressing : Router K n → List (Recorded K n) → Prop
  | start {r : Router K n} : r.production.gaps = [] → r.settings.tpotFeedback = .window → Progressing r []
  | progress {r : Router K n} {log : List (Recorded K n)} (now : K) (i : ℕ) (tpotMs : Option K) :
      Progressing r log → r.now ≤ now →
      Progressing ({ r with now }.tokenProgress i tpotMs) (log ++ { r with now }.recorded i tpotMs)
  | window {r : Router K n} {log : List (Recorded K n)} (now : K) : Progressing r log → r.now ≤ now →
      Progressing { r with now }.tpotWindow.2 log
  | elsewhere {r s : Router K n} {log : List (Recorded K n)} : Progressing r log → s.settings = r.settings →
      s.production.gaps = r.production.gaps → r.now ≤ s.now → Progressing s log

variable {r s : Router K n} {log : List (Recorded K n)}

/-- The gaps of one D, as its deque holds them. -/
def gapsOf (log : List (Recorded K n)) (d : Fin n) : List (K × K) :=
  (log.filter fun e => e.decode == d).map fun e => (e.time, e.ms)

/-- The gaps of one D from `since` on. -/
def recentGaps (log : List (Recorded K n)) (d : Fin n) (since : K) : List (Recorded K n) :=
  log.filter fun e => e.decode == d && decide (since ≤ e.time)

/-- What the deques hold of the gaps recorded. -/
structure Windowed (r : Router K n) (log : List (Recorded K n)) : Prop where
  mode : r.settings.tpotFeedback = .window
  kept : ∀ e ∈ r.production.gaps, ∃ old, gapsOf log e.1 = old ++ e.2 ∧ ∀ g ∈ old, g.1 < r.now - r.settings.tpotWindowS
  absent : ∀ d, (∀ e ∈ r.production.gaps, e.1 ≠ d) → gapsOf log d = []
  sorted : (log.map (·.time)).Pairwise (· ≤ ·)
  past : ∀ e ∈ log, e.time ≤ r.now

/-! ### What a call does to the deques -/

omit [Scalar K] in
theorem gapsOf_append_self (log : List (Recorded K n)) (e : Recorded K n) :
    gapsOf (log ++ [e]) e.decode = gapsOf log e.decode ++ [(e.time, e.ms)] := by
  simp [gapsOf]

omit [Scalar K] in
theorem gapsOf_append_ne {e : Recorded K n} {d : Fin n} (h : e.decode ≠ d) :
    gapsOf (log ++ [e]) d = gapsOf log d := by
  simp [gapsOf, h]

theorem gaps_applyTable (r : Router K n) : r.applyTable.production = r.production := by
  unfold applyTable
  dsimp only
  split_ifs <;> rfl

theorem gaps_ttftRatio (r : Router K n) (t : Ticket K n) (ms : K) : (r.ttftRatio t ms).2.production = r.production := by
  unfold ttftRatio
  dsimp only
  split_ifs <;> exact gaps_applyTable r

theorem gaps_observeLatency (r : Router K n) (t : Ticket K n) (ttftMs tpotMs : Option K) :
    (r.observeLatency t ttftMs tpotMs).production.gaps = r.production.gaps := by
  unfold observeLatency
  split_ifs
  · rfl
  · cases ttftMs with
    | none => rfl
    | some ms => exact congrArg (·.gaps) (gaps_ttftRatio r t ms)

/-- A gap is appended to its D's deque, and what is too old leaves the front. -/
theorem mem_noteGap {gaps : List (Fin n × List (K × K))} {d : Fin n} {now ms windowS : K} {e : Fin n × List (K × K)}
    (he : e ∈ noteGap gaps d now ms windowS) :
    (e ∈ gaps ∧ e.1 ≠ d) ∨ (e.1 = d ∧ ∃ l, (l = [] ∧ (∀ e' ∈ gaps, e'.1 ≠ d) ∨ (d, l) ∈ gaps) ∧
      e.2 = (l ++ [(now, ms)]).dropWhile fun g => decide (g.1 < now - windowS)) := by
  unfold noteGap at he
  dsimp only at he
  split_ifs at he with hany
  · obtain ⟨e', he', rfl⟩ := List.mem_map.mp he
    split_ifs with hd
    · exact .inr ⟨rfl, e'.2, .inr (hd ▸ he'), rfl⟩
    · exact .inl ⟨he', hd⟩
  · rcases List.mem_append.mp he with he | he
    · refine .inl ⟨he, fun hd => hany ?_⟩
      rw [List.any_eq_true]
      exact ⟨e, he, beq_iff_eq.mpr hd⟩
    · rw [List.mem_singleton.mp he]
      refine .inr ⟨rfl, [], .inl ⟨rfl, fun e' he' hd => hany ?_⟩, rfl⟩
      rw [List.any_eq_true]
      exact ⟨e', he', beq_iff_eq.mpr hd⟩

theorem exists_mem_noteGap (gaps : List (Fin n × List (K × K))) (d : Fin n) (now ms windowS : K) :
    (∃ e ∈ noteGap gaps d now ms windowS, e.1 = d) ∧
      ∀ e ∈ gaps, e.1 ≠ d → e ∈ noteGap gaps d now ms windowS := by
  unfold noteGap
  dsimp only
  split_ifs with hany
  · obtain ⟨e, he, hd⟩ := List.any_eq_true.mp hany
    refine ⟨⟨_, List.mem_map_of_mem he, ?_⟩, fun e' he' hne => List.mem_map.mpr ⟨e', he', if_neg hne⟩⟩
    rw [if_pos (beq_iff_eq.mp hd)]
  · exact ⟨⟨_, List.mem_append_right _ (List.mem_singleton_self _), rfl⟩, fun e' he' _ => List.mem_append_left _ he'⟩

/-! ### The window of a run -/

theorem Windowed.later (h : Windowed r log) {now : K} (hnow : r.now ≤ now) : Windowed { r with now } log where
  mode := h.mode
  kept e he := by
    obtain ⟨old, hsplit, hold⟩ := h.kept e he
    exact ⟨old, hsplit, fun g hg => (hold g hg).trans_le (sub_le_sub_right hnow _)⟩
  absent := h.absent
  sorted := h.sorted
  past e he := (h.past e he).trans hnow

theorem Windowed.congr (h : Windowed r log) (hsettings : s.settings = r.settings)
    (hgaps : s.production.gaps = r.production.gaps) (hnow : s.now = r.now) : Windowed s log where
  mode := hsettings ▸ h.mode
  kept := by
    rw [hgaps, hnow, hsettings]
    exact h.kept
  absent := by
    rw [hgaps]
    exact h.absent
  sorted := h.sorted
  past := by
    rw [hnow]
    exact h.past

/-- What was dropped from the front is too old. -/
theorem dropped {l full old : List (K × K)} {c : K} (hsplit : full = old ++ l) (hold : ∀ g ∈ old, g.1 < c) :
    ∃ older, full = older ++ l.dropWhile (fun g => decide (g.1 < c)) ∧ ∀ g ∈ older, g.1 < c := by
  refine ⟨old ++ l.takeWhile fun g => decide (g.1 < c), ?_, fun g hg => ?_⟩
  · rw [List.append_assoc, List.takeWhile_append_dropWhile, hsplit]
  · rcases List.mem_append.mp hg with hg | hg
    · exact hold g hg
    · exact of_decide_eq_true (List.mem_takeWhile_imp (p := fun g : K × K => decide (g.1 < c)) hg)

theorem Windowed.note (h : Windowed r log) {d : Fin n} {ms : K} (hsettings : s.settings = r.settings)
    (hnow : s.now = r.now)
    (hgaps : s.production.gaps = noteGap r.production.gaps d r.now ms r.settings.tpotWindowS) :
    Windowed s (log ++ [⟨d, r.now, ms⟩]) where
  mode := hsettings ▸ h.mode
  kept e he := by
    rw [hnow, hsettings]
    rw [hgaps] at he
    rcases mem_noteGap he with ⟨he, hne⟩ | ⟨rfl, l, hl, htrimmed⟩
    · rw [gapsOf_append_ne hne.symm]
      exact h.kept e he
    · have hself := gapsOf_append_self log ⟨e.1, r.now, ms⟩
      rw [hself, htrimmed]
      rcases hl with ⟨rfl, hnew⟩ | hl
      · rw [h.absent e.1 hnew]
        have hnone : ∀ g ∈ ([] : List (K × K)), g.1 < r.now - r.settings.tpotWindowS := nofun
        exact dropped rfl hnone
      · obtain ⟨old, hsplit, hold⟩ := h.kept _ hl
        refine dropped ?_ hold
        rw [hsplit, List.append_assoc]
  absent d' hd' := by
    rw [hgaps] at hd'
    obtain ⟨⟨e, he, hd⟩, hothers⟩ := exists_mem_noteGap r.production.gaps d r.now ms r.settings.tpotWindowS
    have hne : d ≠ d' := fun heq => hd' e he (hd.trans heq)
    rw [gapsOf_append_ne hne]
    refine h.absent d' fun e' he' heq => hd' e' (hothers e' he' fun hd => ?_) heq
    exact hne (hd.symm.trans heq)
  sorted := by
    rw [List.map_append, List.pairwise_append]
    refine ⟨h.sorted, List.pairwise_singleton _ _, fun a ha b hb => ?_⟩
    obtain ⟨e, he, rfl⟩ := List.mem_map.mp ha
    rw [List.map_singleton, List.mem_singleton] at hb
    exact hb ▸ h.past e he
  past e he := by
    rw [hnow]
    rcases List.mem_append.mp he with he | he
    · exact h.past e he
    · rw [List.mem_singleton.mp he]

theorem Windowed.window (h : Windowed r log) : Windowed r.tpotWindow.2 log where
  mode := h.mode
  kept e he := by
    obtain ⟨e', he', rfl⟩ := List.mem_map.mp he
    obtain ⟨old, hsplit, hold⟩ := h.kept e' he'
    exact dropped hsplit hold
  absent d hd := h.absent d fun e he =>
    hd (e.1, e.2.dropWhile fun g => decide (g.1 < r.now - r.settings.tpotWindowS)) (List.mem_map.mpr ⟨e, he, rfl⟩)
  sorted := h.sorted
  past := h.past

theorem Windowed.progress (h : Windowed r log) (i : ℕ) (tpotMs : Option K) :
    Windowed (r.tokenProgress i tpotMs) (log ++ r.recorded i tpotMs) := by
  unfold tokenProgress recorded
  cases r.tickets[i]? with
  | none =>
    rw [List.append_nil]
    exact h
  | some t =>
    have hmode : (r.setTicket i { t with lastTokenAt := some r.now }).settings.tpotFeedback = .window := h.mode
    simp only [hmode]
    cases tpotMs with
    | none =>
      have hu := untouched_observeLatency (r.setTicket i { t with lastTokenAt := some r.now })
        { t with lastTokenAt := some r.now } (t.firstTokenAt.map fun first => (first - t.admittedAt) * 1000 + t.waitMs) none
      rw [List.append_nil]
      exact h.congr hu.settings (gaps_observeLatency _ _ _ _) hu.now
    | some ms =>
      refine h.note ?_ ?_ (gaps_observeLatency _ _ _ _)
      · exact (untouched_observeLatency _ _ _ _).settings
      · exact (untouched_observeLatency _ _ _ _).now

theorem Progressing.windowed (h : Progressing r log) : Windowed r log := by
  induction h with
  | start hgaps hmode =>
    refine ⟨hmode, ?_, fun _ _ => rfl, List.Pairwise.nil, nofun⟩
    rw [hgaps]
    exact nofun
  | progress now i tpotMs _ hnow ih => exact (ih.later hnow).progress i tpotMs
  | window now _ hnow ih => exact (ih.later hnow).window
  | elsewhere _ hsettings hgaps hnow ih => exact (ih.later hnow).congr hsettings hgaps rfl

/-! ### The share -/

/-- What the window holds of a D is its recent gaps. -/
theorem Windowed.recent (h : Windowed r log) {e : Fin n × List (K × K)} (he : e ∈ r.production.gaps) :
    (e.2.dropWhile fun g => decide (g.1 < r.now - r.settings.tpotWindowS))
      = (recentGaps log e.1 (r.now - r.settings.tpotWindowS)).map fun g => (g.time, g.ms) := by
  obtain ⟨old, hsplit, hold⟩ := h.kept e he
  have hsorted : ((gapsOf log e.1).map (·.1)).Pairwise (· ≤ ·) := by
    rw [gapsOf, List.map_map]
    exact h.sorted.sublist (List.filter_sublist.map _)
  have hrest : (e.2.map (·.1)).Pairwise (· ≤ ·) := by
    rw [hsplit, List.map_append, List.pairwise_append] at hsorted
    exact hsorted.2.1
  have hnone : old.filter (fun g => decide (r.now - r.settings.tpotWindowS ≤ g.1)) = [] := by
    rw [List.filter_eq_nil_iff]
    intro g hg hrecent
    exact (hold g hg).not_ge (of_decide_eq_true hrecent)
  rw [dropWhile_eq_filter hrest]
  calc e.2.filter (fun g => decide (r.now - r.settings.tpotWindowS ≤ g.1))
      = (gapsOf log e.1).filter fun g => decide (r.now - r.settings.tpotWindowS ≤ g.1) := by
        rw [hsplit, List.filter_append, hnone, List.nil_append]
    _ = (recentGaps log e.1 (r.now - r.settings.tpotWindowS)).map fun g => (g.time, g.ms) := by
        rw [gapsOf, recentGaps, List.filter_map, List.filter_filter]
        congr 1
        refine List.filter_congr fun g _ => ?_
        rw [Function.comp_apply, Bool.and_comm]

/-- The worst of the quantiles reaches 1 when one that counts does. -/
theorem one_le_worst {β γ : Type} (skip : β → Prop) [DecidablePred skip] {q : β → K} {key : β → γ} {l : List β} :
    ∀ w : K × Option γ, 1 ≤ (l.foldl (fun w e => if skip e then w else
      if w.1 < q e then (q e, some (key e)) else w) w).1 ↔ 1 ≤ w.1 ∨ ∃ e ∈ l, ¬skip e ∧ 1 ≤ q e := by
  induction l with
  | nil => simp
  | cons e l ih =>
    intro w
    rw [List.foldl_cons, ih]
    simp only [List.mem_cons, exists_eq_or_imp]
    split_ifs with hskip hlt
    · simp [hskip]
    · simp only [hskip, not_false_eq_true, true_and]
      constructor
      · rintro (h | h)
        · exact .inr (.inl h)
        · exact .inr (.inr h)
      · rintro (h | h | h)
        · exact .inl (h.trans hlt.le)
        · exact .inl h
        · exact .inr h
    · simp only [hskip, not_false_eq_true, true_and]
      constructor
      · rintro (h | h)
        · exact .inl h
        · exact .inr (.inr h)
      · rintro (h | h | h)
        · exact .inl h
        · exact .inl (h.trans (not_lt.mp hlt))
        · exact .inr h

/-- The quantile at `q` reaches `c` exactly when enough of the values do. -/
theorem le_quantile {l : List K} (hl : l ≠ []) {q : K} (hq0 : 0 < q) (hq1 : q ≤ 1) (c : K) :
    c ≤ (l.insertionSort (· ≤ ·)).getD
        (min (((l.insertionSort (· ≤ ·)).length : ℤ) - 1) (⌈q * (l.insertionSort (· ≤ ·)).length⌉ - 1)).toNat 0 ↔
      (l.length : ℤ) - ⌈q * l.length⌉ + 1 ≤ l.countP fun x => decide (c ≤ x) := by
  have hlength : (l.insertionSort (· ≤ ·)).length = l.length := List.length_insertionSort _ _
  have hsorted : (l.insertionSort (· ≤ ·)).Pairwise (· ≤ ·) := List.pairwise_insertionSort _ _
  have hcount := (List.perm_insertionSort (· ≤ ·) l).countP_eq fun x => decide (c ≤ x)
  have hpos : 0 < l.length := List.length_pos_iff.mpr hl
  have hpos' : (0 : K) < l.length := by exact_mod_cast hpos
  have hceil : 0 < ⌈q * l.length⌉ := Int.ceil_pos.mpr (mul_pos hq0 hpos')
  have hceil' : ⌈q * l.length⌉ ≤ (l.length : ℤ) := by
    rw [Int.ceil_le]
    push_cast
    exact mul_le_of_le_one_left hpos'.le hq1
  rw [hlength, min_eq_right (by omega)]
  have hi : (⌈q * (l.length : K)⌉ - 1).toNat < (l.insertionSort (· ≤ ·)).length := by
    rw [hlength]
    omega
  rw [List.getD_eq_getElem _ 0 hi, le_getElem_sorted hsorted hi, hcount, hlength]
  omega

/-- The windowed ratio reaches 1 exactly when some D has enough recent gaps and enough of them are slow. -/
theorem tpotWindow_share (h : Progressing r log) (hslo : 0 < r.settings.tpotSloMs)
    (hq0 : 0 < r.settings.tpotWindowQuantile) (hq1 : r.settings.tpotWindowQuantile ≤ 1)
    (hmin : 1 ≤ r.settings.tpotWindowMinGaps) {now : K} (hnow : r.now ≤ now) :
    1 ≤ { r with now }.tpotWindow.1.1 ↔ ∃ d : Fin n,
      let recent := recentGaps log d (now - r.settings.tpotWindowS)
      r.settings.tpotWindowMinGaps ≤ recent.length ∧
        (recent.length : ℤ) - ⌈r.settings.tpotWindowQuantile * recent.length⌉ + 1
          ≤ recent.countP fun e => decide (r.settings.tpotSloMs ≤ e.ms) := by
  have hw := h.windowed.later hnow
  unfold tpotWindow
  dsimp only
  rw [one_le_worst fun e : Fin n × List (K × K) => e.2.length < r.settings.tpotWindowMinGaps]
  have hzero : ¬(1 : K) ≤ 0 := not_le.mpr one_pos
  simp only [hzero, false_or, not_lt]
  -- A D's deque, cut at the horizon, holds the gaps recorded of it since then.
  have hdeque : ∀ e ∈ r.production.gaps,
      (e.2.dropWhile fun g => decide (g.1 < now - r.settings.tpotWindowS))
        = (recentGaps log e.1 (now - r.settings.tpotWindowS)).map fun g => (g.time, g.ms) :=
    fun e he => hw.recent he
  have hshare : ∀ recent : List (Recorded K n), r.settings.tpotWindowMinGaps ≤ recent.length →
      (1 ≤ (((recent.map fun g => (g.time, g.ms)).map (·.2)).insertionSort (· ≤ ·)).getD
          (min (((((recent.map fun g => (g.time, g.ms)).map (·.2)).insertionSort (· ≤ ·)).length : ℤ) - 1)
            (⌈r.settings.tpotWindowQuantile
              * (((recent.map fun g => (g.time, g.ms)).map (·.2)).insertionSort (· ≤ ·)).length⌉ - 1)).toNat 0
          / r.settings.tpotSloMs ↔
        (recent.length : ℤ) - ⌈r.settings.tpotWindowQuantile * recent.length⌉ + 1
          ≤ recent.countP fun e => decide (r.settings.tpotSloMs ≤ e.ms)) := by
    intro recent hlen
    have hne : (recent.map fun g => (g.time, g.ms)).map (·.2) ≠ [] := by
      rw [Ne, List.map_eq_nil_iff, List.map_eq_nil_iff]
      rintro rfl
      exact absurd (hmin.trans hlen) (by simp)
    rw [one_le_div hslo, le_quantile hne hq0 hq1]
    simp only [List.length_map, List.countP_map]
    rfl
  constructor
  · rintro ⟨e', he', hlen, hratio⟩
    obtain ⟨e, he, rfl⟩ := List.mem_map.mp he'
    rw [hdeque e he, List.length_map] at hlen
    simp only [hdeque e he] at hratio
    exact ⟨e.1, hlen, (hshare _ hlen).mp hratio⟩
  · rintro ⟨d, hlen, hcount⟩
    -- A D without a deque has no recorded gap at all, hence not enough recent ones.
    have hpresent : ∃ e ∈ r.production.gaps, e.1 = d := by
      by_contra hnone
      have hempty := h.windowed.absent d fun e he hd => hnone ⟨e, he, hd⟩
      rw [gapsOf, List.map_eq_nil_iff, List.filter_eq_nil_iff] at hempty
      have hrecent : recentGaps log d (now - r.settings.tpotWindowS) = [] := by
        rw [recentGaps, List.filter_eq_nil_iff]
        intro e he hboth
        exact hempty e he (Bool.and_eq_true_iff.mp hboth).1
      rw [hrecent] at hlen
      exact absurd (hmin.trans hlen) (by simp)
    obtain ⟨e, he, rfl⟩ := hpresent
    refine ⟨_, List.mem_map_of_mem he, ?_, ?_⟩
    · rw [hdeque e he, List.length_map]
      exact hlen
    · simp only [hdeque e he]
      exact (hshare _ hlen).mpr hcount

/-- A ticket on one pair whose D counts from two gaps on, over an SLO of 50 ms. -/
def smallStreaming : Router ℚ 1 :=
  { (({ smallCold 1 with baselineMode := true } : Router ℚ 1).issueTurn 0 false 512 true 0).2 with
    settings := { smallSettings with tpotFeedback := .window, tpotWindowMinGaps := 2 } }

/-- A gap of 40 ms and one of 60 ms. -/
def smallStalled : Router ℚ 1 :=
  { { smallStreaming with now := 1 }.tokenProgress 0 (some 40) with now := 2 }.tokenProgress 0 (some 60)

theorem tpotWindow_share_smallStalled : 1 ≤ ({ smallStalled with now := 3 } : Router ℚ 1).tpotWindow.1.1 := by
  have hrun := ((Progressing.start (r := smallStreaming) rfl rfl).progress 1 0 (some 40) (by decide +kernel)).progress 2 0
    (some 60) (by decide +kernel)
  have hnow : smallStalled.now ≤ 3 := by decide +kernel
  exact (tpotWindow_share hrun (by decide +kernel) (by decide +kernel) (by decide +kernel) (by decide +kernel)
    hnow).mpr ⟨0, by decide +kernel⟩

end Router
end CanaTune
