import CanaTune.Controller.Decode
import CanaTune.Theorems.LengthModel
import Mathlib.Tactic.Linarith
import Mathlib.Tactic.FieldSimp

/-! The published B* and the length model: when the capacity at the chosen clock, its missing value and its rounding
    respect the TPOT target and the KV cache. -/

namespace CanaTune
variable {K σ : Type} [Scalar K]

/-! ### The capacity -/

/-- `n` sequences of `context` tokens are within the TPOT target and the KV limit, or there is only one. -/
def Respects (coef : DecodeCoef K) (context slo kvLimit tokens : K) (n : ℤ) : Prop :=
  n = 1 ∨ (decodeTpot coef n (n * context) ≤ slo ∧ n * context ≤ kvLimit * tokens)

instance (coef : DecodeCoef K) (context slo kvLimit tokens : K) (n : ℤ) :
    Decidable (Respects coef context slo kvLimit tokens n) := inferInstanceAs (Decidable (_ ∨ _ ∧ _))

/-- The TPOT that is left for the sequences. -/
def headroom (coef : DecodeCoef K) (slo : K) : K := slo - coef.alpha - coef.r95

/-- What a sequence adds to the TPOT. -/
def slope (coef : DecodeCoef K) (context : K) : K := coef.beta + coef.gamma * context

/-- There is headroom for the sequences in the fit and a KV limit, or a default of at most one sequence without it. With
    zero slopes the headroom only matters where the KV cache holds two sequences. -/
def Leaves (coef : DecodeCoef K) (context slo kvLimit tokens : K) (default : ℕ) : Prop :=
  if 0 < kvLimit ∧ (0 < slope coef context → 0 < headroom coef slo) then
    slope coef context = 0 → 0 ≤ headroom coef slo ∨ kvLimit * tokens < 2 * context
  else default ≤ 1

instance (coef : DecodeCoef K) (context slo kvLimit tokens : K) (default : ℕ) :
    Decidable (Leaves coef context slo kvLimit tokens default) :=
  inferInstanceAs (Decidable (if 0 < kvLimit ∧ (0 < slope coef context → 0 < headroom coef slo) then
    slope coef context = 0 → 0 ≤ headroom coef slo ∨ kvLimit * tokens < 2 * context else default ≤ 1))

/-- The smaller of the two capacities, before it is cut at 0. -/
def capacityBound (coef : DecodeCoef K) (context slo kvLimit tokens : K) : K :=
  if 0 < slope coef context then min (headroom coef slo / slope coef context) (kvLimit * tokens / context)
  else kvLimit * tokens / context

section
variable {coef : DecodeCoef K} {context slo kvLimit tokens : K}

theorem sequencesOr_decodeCapacity (hcontext : 0 < context) (htokens : 0 < tokens) (default : ℕ) :
    (decodeCapacity coef context slo (some tokens) kvLimit).sequencesOr default =
      if capacityBound coef context slo kvLimit tokens ≤ 0 then (default : K)
      else capacityBound coef context slo kvLimit tokens := by
  have hseq : (decodeCapacity coef context slo (some tokens) kvLimit).sequences =
      some (max 0 (capacityBound coef context slo kvLimit tokens)) := by
    unfold decodeCapacity capacityBound
    simp only [if_pos (show tokens ≠ 0 ∧ 0 < context from ⟨htokens.ne', hcontext⟩)]
    by_cases hs : 0 < slope coef context
    · rw [if_pos hs, if_pos (show 0 < coef.beta + coef.gamma * context from hs)]
      rfl
    · rw [if_neg hs, if_neg (show ¬ 0 < coef.beta + coef.gamma * context from hs), min_eq_right le_top]
      rfl
  rw [DecodeCapacity.sequencesOr, hseq]
  by_cases hq : capacityBound coef context slo kvLimit tokens ≤ 0
  · simp only [max_eq_left hq, if_pos hq, if_true]
  · rw [not_le] at hq
    simp only [max_eq_right hq.le, if_neg hq.ne', if_neg hq.not_ge]

/-- TPOT and tokens of `n` sequences, by headroom and slope. -/
theorem decodeTpot_le_iff (n : K) :
    decodeTpot coef n (n * context) ≤ slo ↔ n * slope coef context ≤ headroom coef slo := by
  unfold decodeTpot slope headroom
  constructor
  · intro h
    linarith
  · intro h
    linarith

theorem capacityBound_pos_iff (hcontext : 0 < context) (htokens : 0 < tokens) :
    0 < capacityBound coef context slo kvLimit tokens ↔
      0 < kvLimit ∧ (0 < slope coef context → 0 < headroom coef slo) := by
  have hkv : 0 < kvLimit * tokens / context ↔ 0 < kvLimit := by
    rw [div_pos_iff_of_pos_right hcontext, mul_pos_iff_of_pos_right htokens]
  unfold capacityBound
  split_ifs with hs
  · rw [lt_min_iff, hkv, div_pos_iff_of_pos_right hs]
    exact ⟨fun h => ⟨h.2, fun _ => h.1⟩, fun h => ⟨h.2 hs, h.1⟩⟩
  · rw [hkv]
    exact ⟨fun h => ⟨h, fun hpos => (hs hpos).elim⟩, fun h => h.1⟩

theorem capacityBound_le_kv : capacityBound coef context slo kvLimit tokens ≤ kvLimit * tokens / context := by
  unfold capacityBound
  split_ifs
  · exact min_le_right _ _
  · exact le_rfl

/-- No sequences at all are within a target without headroom or without a KV limit. -/
theorem not_respects (hcontext : 0 < context) (htokens : 0 < tokens)
    (hleft : ¬(0 < kvLimit ∧ (0 < slope coef context → 0 < headroom coef slo))) {n : ℤ} (hn : 1 ≤ n) :
    Respects coef context slo kvLimit tokens n ↔ n = 1 := by
  have hn' : (1 : K) ≤ n := by exact_mod_cast hn
  refine or_iff_left ?_
  rintro ⟨htpot, hkv⟩
  rw [decodeTpot_le_iff] at htpot
  refine hleft ⟨?_, fun hs => ?_⟩
  · have hpos : 0 < n * context := mul_pos (by linarith) hcontext
    exact pos_of_mul_pos_left (hpos.trans_le hkv) htokens.le
  · exact (mul_pos (by linarith) hs).trans_le htpot

/-- The published number of sequences respects the model exactly when the fit leaves room for it. -/
theorem respects_iff (hslope : 0 ≤ slope coef context) (hcontext : 0 < context) (htokens : 0 < tokens)
    (default : ℕ) :
    Respects coef context slo kvLimit tokens
        (max 1 (Scalar.toInt ((decodeCapacity coef context slo (some tokens) kvLimit).sequencesOr default))) ↔
      Leaves coef context slo kvLimit tokens default := by
  have hpos : 0 < capacityBound coef context slo kvLimit tokens ↔ _ := capacityBound_pos_iff hcontext htokens
  rw [sequencesOr_decodeCapacity hcontext htokens, Leaves]
  by_cases hleft : 0 < kvLimit ∧ (0 < slope coef context → 0 < headroom coef slo)
  · have hq := hpos.mpr hleft
    rw [if_pos hleft, if_neg hq.not_ge, Scalar.toInt, if_pos hq.le]
    -- The published number is the floor of the bound, and at least one.
    generalize hbound : capacityBound coef context slo kvLimit tokens = q at hq ⊢
    have hkv : q * context ≤ kvLimit * tokens := by
      rw [← le_div_iff₀ hcontext, ← hbound]
      exact capacityBound_le_kv
    constructor
    · intro hres hzero
      rw [or_iff_not_imp_left]
      intro hneg
      -- With a flat slope no number of sequences brings the TPOT down, so only one alone is respected.
      have hone : max 1 ⌊q⌋ = 1 := by
        refine hres.resolve_right ?_
        rintro ⟨htpot, -⟩
        rw [decodeTpot_le_iff, hzero, mul_zero] at htpot
        exact hneg htpot
      have hfloor : ⌊q⌋ < 2 := by omega
      have hlt : q < 2 := by exact_mod_cast Int.floor_lt.mp hfloor
      have hq' : q = kvLimit * tokens / context := by
        rw [← hbound, capacityBound, if_neg hzero.not_gt]
      rw [hq', div_lt_iff₀ hcontext] at hlt
      exact hlt
    · intro hzero
      rw [Respects, or_iff_not_imp_left]
      intro hne
      have hmax : max 1 ⌊q⌋ = ⌊q⌋ := by omega
      have hle : (⌊q⌋ : K) ≤ q := Int.floor_le q
      have htwo : (2 : K) ≤ q := le_trans (by exact_mod_cast (show (2 : ℤ) ≤ ⌊q⌋ by omega)) hle
      rw [hmax, decodeTpot_le_iff]
      refine ⟨?_, (mul_le_mul_of_nonneg_right hle hcontext.le).trans hkv⟩
      rcases hslope.eq_or_lt with hs | hs
      · rw [← hs, mul_zero]
        refine (hzero hs.symm).resolve_right ?_
        have hmul := mul_le_mul_of_nonneg_right htwo hcontext.le
        linarith
      · refine (mul_le_mul_of_nonneg_right hle hs.le).trans ?_
        rw [← le_div_iff₀ hs, ← hbound, capacityBound, if_pos hs]
        exact min_le_left _ _
  · have hq := not_lt.mp (mt hpos.mp hleft)
    rw [if_neg hleft, if_pos hq, Scalar.toInt, if_pos (Nat.cast_nonneg default), Int.floor_natCast,
      not_respects hcontext htokens hleft (le_max_left _ _)]
    omega

end

/-! ### The search -/

theorem fitDecodeLength_slopes {points : List (K × K × K)} {coef : DecodeCoef K}
    (h : fitDecodeLength points = some coef) : 0 ≤ coef.beta ∧ 0 ≤ coef.gamma := by
  rw [fitDecodeLength] at h
  split_ifs at h with hshort
  obtain ⟨before, cols, after, hsplit, hfit, -⟩ := List.findSome?_eq_some_iff.mp h
  obtain ⟨hbeta, hgamma, -⟩ := fitColumns_spec (by rw [hsplit]; simp) hfit
  exact ⟨hbeta, hgamma⟩

namespace TierLocator
variable {b : ProbeBackend K σ} {l l' : TierLocator K σ} {hw : Hardware} {prefillMhz capacity : ℕ}

theorem fitLength_slopes {point : ClockPoint} {extra : List (WindowResult K)} {coef : DecodeCoef K}
    (h : l.fitLength b point capacity extra = .ok (coef, l')) : 0 ≤ coef.beta ∧ 0 ≤ coef.gamma := by
  unfold fitLength at h
  simp only at h
  split at h
  · rename_i c hfit
    obtain ⟨rfl, -⟩ := Prod.mk.inj (Except.ok.inj h)
    split_ifs at hfit
    exact fitDecodeLength_slopes hfit
  · cases h

/-- The published B* respects the length model at the chosen clock exactly when that fit leaves room for it: an `or`
    default replaces a capacity of 0, and zero slopes make it infinite without a look at the headroom. -/
theorem decodeLength_respects {fD : ℕ} {n : ℤ} {wall : Bool} {ev : LengthEvidence K}
    (h : l.decodeLength b hw prefillMhz capacity = .ok ((fD, n, wall, ev), l')) (hcontext : 0 < ev.contextTokens)
    (hcapacity : 0 < capacity) :
    ∃ coef, ev.lengthModel.lookup fD = some coef ∧
      (Respects coef ev.contextTokens l.settings.tpotSloMs l.settings.decodeKvLimit capacity n ↔
        Leaves coef ev.contextTokens l.settings.tpotSloMs l.settings.decodeKvLimit capacity
          l.settings.decodeFitMaxConcurrency) := by
  unfold decodeLength at h
  cases hlast : hw.decodeClocks.getLast? with
  | none =>
    simp only [hlast] at h
    cases h
  | some topD =>
    simp only [hlast] at h
    obtain ⟨⟨coefTop, l₁⟩, hfit, h⟩ := bind_eq_ok.mp h
    simp only at h
    split at h
    · cases h
    obtain ⟨clocks, -, h⟩ := bind_eq_ok.mp h
    obtain ⟨⟨perClock, l₂⟩, -, h⟩ := bind_eq_ok.mp h
    obtain ⟨f, -, h⟩ := bind_eq_ok.mp h
    obtain ⟨⟨coef, l₃⟩, hcoef, h⟩ := bind_eq_ok.mp h
    -- The model published for the chosen clock is one of the two fits, whose slopes are not negative.
    have hslopes : 0 ≤ coef.beta ∧ 0 ≤ coef.gamma := by
      unfold fitChosen at hcoef
      split at hcoef
      · obtain ⟨rfl, -⟩ := Prod.mk.inj (Except.ok.inj hcoef)
        exact fitLength_slopes hfit
      · exact fitLength_slopes hcoef
    obtain ⟨hresult, -⟩ := Prod.mk.inj (Except.ok.inj h)
    obtain ⟨rfl, rfl, -, rfl⟩ : f = fD ∧ _ = n ∧ _ = wall ∧ _ = ev := by simpa only [Prod.mk.injEq] using hresult
    have hslope : 0 ≤ slope coef (b.mixContext .all l₁.world) :=
      add_nonneg hslopes.1 (mul_nonneg hslopes.2 hcontext.le)
    exact ⟨coef, AList.lookup_insert _, respects_iff hslope hcontext (by exact_mod_cast hcapacity) _⟩

/-- Mean context of each half of the prompts. -/
def stallContext : Mix → ℚ
  | .all => 200
  | .short => 100
  | .long => 300

/-- TPOT grows by 1 ms a sequence; at 1000 MHz every third request of a window of one half stalls. -/
def stallPoints (clock : ClockPoint) (concurrency : ℕ) (mix : Mix) : List (ℚ × ℚ × ℚ) :=
  let base : ℚ := if clock.decodeMhz = 2000 then 20 + concurrency else 40 + concurrency
  let slow := if clock.decodeMhz = 2000 ∨ mix = .all then base else base + 200
  [base, base, slow].map fun ms => (concurrency, stallContext mix * concurrency, ms)

def stallPair : ProbeBackend ℚ Unit where
  openWindow _ load _ _ _ w := (.quiet load 60, w)
  closedWindow clock concurrency _ _ mix w :=
    ({ WindowResult.quiet (concurrency : ℚ) 60 with
        tpotP95 := some (if clock.decodeMhz = 2000 then 20 + concurrency else 40 + concurrency)
        decodeJ := some (if clock.decodeMhz = 2000 then 2 else 1)
        decodePoints := stallPoints clock concurrency mix }, w)
  mixContext mix _ := stallContext mix
  kvCapacity := none
  time w := (0, w)

def stallSettings : SearchSettings ℚ := .defaults

def stallTokens : ℕ := 20000

/-- The run over this pair. -/
def stallRun (decodeClocks : List ℕ) :
    Except (SearchError ℚ) ((ℕ × ℤ × Bool × LengthEvidence ℚ) × TierLocator ℚ Unit) :=
  decodeLength stallPair (fresh stallSettings ()) ⟨[1000], decodeClocks⟩ 1000 stallTokens

/-- With only the top clock the fit leaves room, and the 90 sequences that fill the KV cache respect it. -/
theorem decodeLength_respects_top : ∃ wall ev l', stallRun [2000] = .ok ((2000, 90, wall, ev), l') ∧
    ∃ coef, ev.lengthModel.lookup 2000 = some coef ∧
      Respects coef ev.contextTokens stallSettings.tpotSloMs stallSettings.decodeKvLimit (stallTokens : ℚ) 90 := by
  have hvalue : (stallRun [2000]).toOption.any fun r => decide (r.1.1 = 2000 ∧ r.1.2.1 = 90) &&
      (decide (r.1.2.2.2.contextTokens = 200) && (r.1.2.2.2.lengthModel.lookup 2000).any fun coef =>
        decide (Leaves coef 200 stallSettings.tpotSloMs stallSettings.decodeKvLimit (stallTokens : ℚ) 64)) := by
    decide +kernel
  obtain ⟨⟨⟨fD, n, wall, ev⟩, l'⟩, hrun, hvalue⟩ := exists_ok_of_any hvalue
  simp only [Bool.and_eq_true, decide_eq_true_eq] at hvalue
  obtain ⟨⟨rfl, rfl⟩, hcontext, hleaves⟩ := hvalue
  obtain ⟨coef, hcoef, hiff⟩ := decodeLength_respects hrun (by rw [hcontext]; decide +kernel) (by decide)
  rw [hcoef, Option.any_some, decide_eq_true_eq] at hleaves
  exact ⟨wall, ev, l', hrun, coef, hcoef, hiff.mpr (by rw [hcontext]; exact hleaves)⟩

/-- At 1000 MHz the closed windows are clean, but the stalls lift the fit above the target: the capacity is 0, and the
    default of 64 sequences is published, far above what the model allows. -/
theorem decodeLength_breaches : ∃ wall ev l', stallRun [1000, 2000] = .ok ((1000, 64, wall, ev), l') ∧
    ∃ coef, ev.lengthModel.lookup 1000 = some coef ∧ ev.contextTokens = 200 ∧
      ¬ Respects coef ev.contextTokens stallSettings.tpotSloMs stallSettings.decodeKvLimit (stallTokens : ℚ) 64 := by
  have hvalue : (stallRun [1000, 2000]).toOption.any fun r => decide (r.1.1 = 1000 ∧ r.1.2.1 = 64) &&
      (decide (r.1.2.2.2.contextTokens = 200) && (r.1.2.2.2.lengthModel.lookup 1000).any fun coef =>
        decide (¬ Respects coef 200 stallSettings.tpotSloMs stallSettings.decodeKvLimit (stallTokens : ℚ) 64)) := by
    decide +kernel
  obtain ⟨⟨⟨fD, n, wall, ev⟩, l'⟩, hrun, hvalue⟩ := exists_ok_of_any hvalue
  simp only [Bool.and_eq_true, decide_eq_true_eq] at hvalue
  obtain ⟨⟨rfl, rfl⟩, hcontext, hbreach⟩ := hvalue
  obtain ⟨coef, hcoef, hnot⟩ := (Option.any_eq_true _ _).mp hbreach
  exact ⟨wall, ev, l', hrun, coef, hcoef, hcontext, by rw [hcontext]; exact of_decide_eq_true hnot⟩

end TierLocator
end CanaTune
