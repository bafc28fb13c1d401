import CanaTune.Theorems.SlackBounds

/-! A configuration planned for a peak below it. A split over groups fills each of them up to the capacity a
    bisection found, so it stays feasible under a lower rate exactly when one group does. Every constraint of
    one group eases with the rate but one: the predicted violation risk, which is looked up in noisy counts. -/

namespace CanaTune
variable {K : Type} [Scalar K]

/-! ### Packing -/

namespace Solver

/-- The rates of a split: at most the capacity, and what remains for the last group. -/
theorem mem_pack {capacity : K} (hc : 0 ≤ capacity) :
    ∀ (n : ℕ) {rate : K}, 0 ≤ rate → ∀ x ∈ pack capacity (n + 1) rate, (0 ≤ x ∧ x ≤ capacity) ∨
      x = max (rate - n * capacity) 0
  | 0, rate, hr, x, hx => by
    right
    rw [List.mem_singleton.mp hx]
    simp [hr]
  | n + 1, rate, hr, x, hx => by
    rcases List.mem_cons.mp hx with rfl | hx
    · exact .inl ⟨le_min hr hc, min_le_right _ _⟩
    · have hrest : 0 ≤ rate - min rate capacity := sub_nonneg.mpr (min_le_left _ _)
      rcases mem_pack hc n hrest x hx with h | h
      · exact .inl h
      · refine .inr (h.trans ?_)
        rcases le_total rate capacity with hle | hle
        · have hn : 0 ≤ (n : K) * capacity := mul_nonneg (Nat.cast_nonneg n) hc
          rw [min_eq_left hle, max_eq_right, max_eq_right] <;> push_cast <;> linarith
        · rw [min_eq_right hle]
          push_cast
          ring_nf

theorem last_mem_pack {capacity : K} (hc : 0 ≤ capacity) :
    ∀ (n : ℕ) {rate : K}, 0 ≤ rate → max (rate - n * capacity) 0 ∈ pack capacity (n + 1) rate
  | 0, rate, hr => by simp [pack, hr]
  | n + 1, rate, hr => by
    have hrest : 0 ≤ rate - min rate capacity := sub_nonneg.mpr (min_le_left _ _)
    refine List.mem_cons_of_mem _ ?_
    have h := last_mem_pack hc n hrest
    convert h using 1
    rcases le_total rate capacity with hle | hle
    · have hn : 0 ≤ (n : K) * capacity := mul_nonneg (Nat.cast_nonneg n) hc
      rw [min_eq_left hle, max_eq_right, max_eq_right] <;> push_cast <;> linarith
    · rw [min_eq_right hle]
      push_cast
      ring_nf

/-- Rates that hold at every lower rate too. -/
def Lower (feasible : K → Prop) : Prop := ∀ ⦃r' r⦄, 0 ≤ r' → r' ≤ r → feasible r → feasible r'

/-- A split within a lower set stays within it under a lower rate and with more groups. -/
theorem Lower.pack {feasible : K → Prop} (h : Lower feasible) {capacity : K} (hc : 0 ≤ capacity)
    (hcap : feasible 0 → feasible capacity) {n n' : ℕ} (hn : n ≤ n') {r' r : K} (hr' : 0 ≤ r') (hle : r' ≤ r)
    (hall : ∀ x ∈ Solver.pack capacity (n + 1) r, feasible x) : ∀ x ∈ Solver.pack capacity (n' + 1) r', feasible x := by
  intro x hx
  have hr : 0 ≤ r := hr'.trans hle
  have hlast := hall _ (last_mem_pack hc n hr)
  rcases mem_pack hc n' hr' x hx with ⟨h0, hxc⟩ | rfl
  · exact h h0 hxc (hcap (h le_rfl (le_max_right _ _) hlast))
  · refine h (le_max_right _ _) (max_le_max ?_ le_rfl) hlast
    have hmul : (n : K) * capacity ≤ n' * capacity := mul_le_mul_of_nonneg_right (Nat.cast_le.mpr hn) hc
    linarith

/-! ### The capacity -/

theorem mix_ne_nil {lengths : List (ℕ × ℕ)} (h : lengths ≠ []) : Solver.mix lengths ≠ [] := by
  unfold Solver.mix
  dsimp only
  split_ifs
  · intro hnil
    have hlen := congrArg List.length hnil
    rw [List.length_insertionSort] at hlen
    exact h (List.length_eq_zero_iff.mp hlen)
  · simp

/-- Prefill time at the point's P clock. -/
def costAt (s : Solver K) (point : ClockPoint) : PrefillCost K := s.costs.forClock (some point.prefillMhz)

/-- P's busy share. -/
def busyShare (s : Solver K) (lengths : List (ℕ × ℕ)) (point : ClockPoint) (r : K) : K :=
  r * mean (Solver.mix lengths) (fun e => (s.costAt point).cost e.1) / 1000

/-- KV bytes in flight. -/
def inFlight (s : Solver K) (lengths : List (ℕ × ℕ)) (r : K) : K :=
  r * mean (Solver.mix lengths) (fun e =>
    (e.1 : K) * s.model.kvBytesPerToken * (interpolate s.model.residence e.1).getD 0) / 1000

/-- D's running sequences. -/
def decoding (s : Solver K) (lengths : List (ℕ × ℕ)) (point : ClockPoint) (r : K) : WithTop K :=
  running (s.decode point.decodeMhz).1 (s.decode point.decodeMhz).2
    (r * mean (Solver.mix lengths) (fun e => (e.2 : K)) / 1000)

/-- The P constraint of one group under a rate. -/
def prefillUse (s : Solver K) (lengths : List (ℕ × ℕ)) (point : ClockPoint) (r : K) : WithTop K :=
  s.usePrefill (Solver.mix lengths) (s.costAt point) r (s.busyShare lengths point r) (s.inFlight lengths r)
    (s.decoding lengths point r)

def decodeUse (s : Solver K) (lengths : List (ℕ × ℕ)) (point : ClockPoint) (r : K) : WithTop K :=
  s.useDecode point (mean (Solver.mix lengths) fun e => ((e.1 + e.2 : ℕ) : K)) (s.decode point.decodeMhz).1
    (s.decode point.decodeMhz).2 (s.decoding lengths point r)

/-- Idle TTFT of the longest prompt. -/
def idleTtft (s : Solver K) (lengths : List (ℕ × ℕ)) (point : ClockPoint) : K :=
  let top := ((Solver.mix lengths).map (·.1)).foldl max 0
  (s.costAt point).cost top + (interpolate s.model.residence top).getD 0

/-- The constraints other than P's. -/
structure Within (s : Solver K) (lengths : List (ℕ × ℕ)) (point : ClockPoint) (r : K) : Prop where
  decode : s.decodeUse lengths point r ≤ 1
  kv : ∀ gate, s.model.kvGateBytes = some gate → gate ≠ 0 → s.inFlight lengths r / gate ≤ 1
  ttft : s.idleTtft lengths point / s.model.ttftSloMs ≤ 1
  cap : ∀ cap, s.model.caps.lookup point = some cap → 0 < cap ∧ r / cap < 1

theorem get_cons (e : Constraint × WithTop K) (u : Use K) (c : Constraint) :
    Use.get (e :: u) c = if c = e.1 then e.2 else u.get c := by
  unfold Use.get
  by_cases h : c = e.1
  · rw [if_pos h, h, List.lookup_cons_self]
    rfl
  · rw [if_neg h, List.lookup_cons, beq_eq_false_iff_ne.mpr h]

/-- A cap is strict; every other use is at most 1. -/
theorem all_use_iff {p d : WithTop K} {ttft r : K} {inflight : K} {gate cap : Option K} {use : Use K}
    (huse : use = [(.prefill, p), (.decode, d)] ++
      (match gate with
        | some gate => if gate = 0 then [] else [(.kv, ((inflight / gate : K) : WithTop K))]
        | none => []) ++ [(.ttft, (ttft : WithTop K))] ++
      (match cap with
        | some cap => [(.cap, if 0 < cap then ((r / cap : K) : WithTop K) else ⊤)]
        | none => [])) :
    ((use.all fun e => e.1 == .cap || decide (e.2 ≤ 1)) && decide (use.get .cap < 1)) = true ↔
      p ≤ 1 ∧ d ≤ 1 ∧ (∀ g, gate = some g → g ≠ 0 → inflight / g ≤ 1) ∧ ttft ≤ 1 ∧
        ∀ c, cap = some c → 0 < c ∧ r / c < 1 := by
  have hone : ∀ x : K, ((x : K) : WithTop K) ≤ 1 ↔ x ≤ 1 := fun x => by exact_mod_cast Iff.rfl
  have hlt : ∀ x : K, ((x : K) : WithTop K) < 1 ↔ x < 1 := fun x => by exact_mod_cast Iff.rfl
  have hnone : Use.get ([] : Use K) .cap < 1 := by
    show (0 : WithTop K) < 1
    exact zero_lt_one
  subst huse
  have hcap : ∀ c : K, ((if 0 < c then ((r / c : K) : WithTop K) else ⊤) < 1 ↔ 0 < c ∧ r / c < 1) := by
    intro c
    by_cases hc : 0 < c
    · rw [if_pos hc, hlt]
      simp [hc]
    · rw [if_neg hc]
      simp [hc]
  rcases gate with - | g <;> rcases cap with - | c
  · simp [get_cons, hnone, hone]
  · simp [get_cons, hone, hcap, and_assoc]
  · by_cases hg : g = 0
    · simp [get_cons, hnone, hone, hg]
    · simp [get_cons, hnone, hone, hg]
  · by_cases hg : g = 0
    · simp [get_cons, hone, hcap, hg, and_assoc]
    · simp [get_cons, hone, hcap, hg, and_assoc]

theorem isFeasible_eq {s : Solver K} {lengths : List (ℕ × ℕ)} (h : lengths ≠ []) (point : ClockPoint) (r : K) :
    ∃ b, s.isFeasible r lengths point = .ok b ∧
      (b = true ↔ s.prefillUse lengths point r ≤ 1 ∧ s.Within lengths point r) := by
  unfold isFeasible uniform
  rw [if_neg (mix_ne_nil h)]
  refine ⟨_, rfl, ?_⟩
  simp only [Nat.max_self, Nat.cast_one, div_one]
  refine (all_use_iff rfl).trans ?_
  constructor
  · rintro ⟨hp, hd, hkv, ht, hcap⟩
    exact ⟨hp, hd, hkv, ht, hcap⟩
  · rintro ⟨hp, hd, hkv, ht, hcap⟩
    exact ⟨hp, hd, hkv, ht, hcap⟩

/-! ### Constraints that ease with the rate -/

theorem mul_le_one_of_le {c r' r : K} (h0 : 0 ≤ r') (hle : r' ≤ r) (h : r * c ≤ 1) : r' * c ≤ 1 := by
  rcases le_total 0 c with hc | hc
  · exact (mul_le_mul_of_nonneg_right hle hc).trans h
  · exact (mul_nonpos_of_nonneg_of_nonpos h0 hc).trans zero_le_one

theorem running_mono {alpha delta l' l : K} (ha : 0 ≤ alpha) (hd : 0 ≤ delta) (h0 : 0 ≤ l') (hle : l' ≤ l) :
    running alpha delta l' ≤ running alpha delta l := by
  unfold running
  have hmul : l' * delta ≤ l * delta := mul_le_mul_of_nonneg_right hle hd
  by_cases hl : 1 ≤ l * delta
  · rw [if_pos hl]
    exact le_top
  · rw [if_neg hl, if_neg fun h => hl (h.trans hmul), WithTop.coe_le_coe]
    push Not at hl
    exact div_le_div₀ (mul_nonneg (h0.trans hle) ha) (mul_le_mul_of_nonneg_right hle ha) (by linarith) (by linarith)

theorem ratio_mono {x y : WithTop K} (hxy : x ≤ y) {u : WithTop K} (hu : 0 < u) : ratio x u ≤ ratio y u := by
  rcases y with - | b
  · show ratio x u ≤ (⊤ : WithTop K)
    exact le_top
  · rcases x with - | a
    · exact absurd hxy (WithTop.not_top_le_coe b)
    · rcases u with - | c
      · exact le_rfl
      · have hc : 0 < c := WithTop.coe_pos.mp hu
        exact WithTop.coe_le_coe.mpr (div_le_div_of_nonneg_right (WithTop.coe_le_coe.mp hxy) hc.le)

theorem useDecode_mono (s : Solver K) (point : ClockPoint) (ctx alpha delta : K) {x y : WithTop K} (hxy : x ≤ y) :
    s.useDecode point ctx alpha delta x ≤ s.useDecode point ctx alpha delta y := by
  unfold useDecode
  dsimp only
  generalize @List.min? K _ _ = limit
  rcases limit with - | l
  · exact ratio_mono hxy (WithTop.coe_lt_top (0 : K) : (0 : WithTop K) < ⊤)
  · by_cases hl : 0 < l
    · dsimp only
      rw [if_pos hl, if_pos hl]
      exact ratio_mono hxy (WithTop.coe_pos.mpr hl)
    · dsimp only
      rw [if_neg hl, if_neg hl]

end Solver

/-! ### Non-negative measurements -/

/-- Non-negative measured times, powers, alpha and delta. -/
structure ClusterModel.NonNeg (m : ClusterModel K) : Prop where
  prefill : ∀ t ∈ m.prefill.items, ∀ e ∈ t.2.items, 0 ≤ e.2
  residence : ∀ e ∈ m.residence.items, 0 ≤ e.2
  decode : ∀ e ∈ m.decode.items, 0 ≤ e.2.base ∧ 0 ≤ e.2.slope
  powerPrefill : ∀ e ∈ m.powerPrefill.items, 0 ≤ e.2.base ∧ 0 ≤ e.2.slope
  powerDecode : ∀ e ∈ m.powerDecode.items, 0 ≤ e.2.base ∧ 0 ≤ e.2.slope
  parkPowerW : 0 ≤ m.parkPowerW

theorem segment_nonneg {a b : ℕ × K} {x : K} (ha : 0 ≤ a.2) (hb : 0 ≤ b.2) (hax : (a.1 : K) ≤ x) (hxb : x ≤ b.1) :
    0 ≤ segment a b x := by
  unfold segment
  rcases (hax.trans hxb).eq_or_lt with heq | hlt
  · simp [heq, ha]
  · have hpos : (0 : K) < b.1 - a.1 := sub_pos.mpr hlt
    have heq : a.2 + (b.2 - a.2) * (x - a.1) / ((b.1 : K) - a.1)
        = (a.2 * (b.1 - x) + b.2 * (x - a.1)) / ((b.1 : K) - a.1) := by
      field_simp
      ring
    rw [heq]
    have h1 := mul_nonneg ha (sub_nonneg.mpr hxb)
    have h2 := mul_nonneg hb (sub_nonneg.mpr hax)
    exact div_nonneg (add_nonneg h1 h2) hpos.le

theorem between_nonneg {x : K} : ∀ {l : List (ℕ × K)}, (∀ e ∈ l, 0 ≤ e.2) → ∀ v ∈ between x l, 0 ≤ v
  | [], _, v, hv => by simp [between] at hv
  | [a], _, v, hv => by simp [between] at hv
  | a :: b :: rest, hl, v, hv => by
    unfold between at hv
    by_cases h : (a.1 : K) ≤ x ∧ x ≤ b.1
    · rw [if_pos h] at hv
      obtain rfl := Option.mem_some.mp hv
      exact segment_nonneg (hl a (by simp)) (hl b (by simp)) h.1 h.2
    · rw [if_neg h] at hv
      exact between_nonneg (fun e he => hl e (List.mem_cons_of_mem a he)) v hv

theorem interpolate_nonneg {d : Dict ℕ K} (hd : ∀ e ∈ d.items, 0 ≤ e.2) (x : K) : 0 ≤ (interpolate d x).getD 0 := by
  have hs : ∀ e ∈ d.sorted, 0 ≤ e.2 := fun e he => hd e ((List.perm_insertionSort _ _).mem_iff.mp he)
  unfold interpolate
  generalize d.sorted = l at hs
  rcases l with - | ⟨p, ps⟩
  · exact le_rfl
  · dsimp only
    have hlast : 0 ≤ (ps.getLastD p).2 := by
      rcases ps.eq_nil_or_concat with rfl | ⟨q, b, rfl⟩
      · exact hs p (by simp)
      · rw [List.concat_eq_append] at hs ⊢
        exact hs _ (by simp)
    split_ifs
    · exact hs p (by simp)
    · exact hlast
    · cases hb : between x (p :: ps) with
      | none => exact le_rfl
      | some v => exact between_nonneg hs v hb

namespace Solver

theorem decode_nonneg {s : Solver K} (h : s.model.NonNeg) (f : ℕ) : 0 ≤ (s.decode f).1 ∧ 0 ≤ (s.decode f).2 := by
  constructor
  · refine interpolate_nonneg (fun e he => ?_) _
    obtain ⟨a, ha, rfl⟩ := List.mem_map.mp (Dict.mem_of_mem_ofList he)
    exact (h.decode a ha).1
  · refine interpolate_nonneg (fun e he => ?_) _
    obtain ⟨a, ha, rfl⟩ := List.mem_map.mp (Dict.mem_of_mem_ofList he)
    exact (h.decode a ha).2

/-! ### One group under a lower rate -/

variable {s : Solver K} {lengths : List (ℕ × ℕ)} {point : ClockPoint} {r' r : K}

theorem mean_nonneg {mix : List (ℕ × ℕ)} {f : ℕ × ℕ → K} (h : ∀ e, 0 ≤ f e) : 0 ≤ mean mix f := by
  refine div_nonneg (List.sum_nonneg fun x hx => ?_) (Nat.cast_nonneg _)
  obtain ⟨e, -, rfl⟩ := List.mem_map.mp hx
  exact h e

theorem decoding_mono (h : s.model.NonNeg) (h0 : 0 ≤ r') (hle : r' ≤ r) :
    s.decoding lengths point r' ≤ s.decoding lengths point r := by
  have hout : 0 ≤ mean (Solver.mix lengths) (fun e => (e.2 : K)) := mean_nonneg fun e => Nat.cast_nonneg _
  refine running_mono (decode_nonneg h _).1 (decode_nonneg h _).2 ?_ ?_
  · exact div_nonneg (mul_nonneg h0 hout) (by norm_num)
  · exact div_le_div_of_nonneg_right (mul_le_mul_of_nonneg_right hle hout) (by norm_num)

theorem Within.mono (h : s.model.NonNeg) (h0 : 0 ≤ r') (hle : r' ≤ r) (hw : s.Within lengths point r) :
    s.Within lengths point r' where
  decode := (s.useDecode_mono point _ _ _ (decoding_mono h h0 hle)).trans hw.decode
  kv gate hg hne := by
    have hr := hw.kv gate hg hne
    rw [inFlight, mul_div_assoc, mul_div_assoc] at hr ⊢
    exact mul_le_one_of_le h0 hle hr
  ttft := hw.ttft
  cap cap hcap := by
    obtain ⟨hpos, hr⟩ := hw.cap cap hcap
    exact ⟨hpos, (div_le_div_of_nonneg_right hle hpos.le).trans_lt hr⟩

/-- The solver finds a configuration feasible. -/
def Feasible (s : Solver K) (rate : K) (lengths : List (ℕ × ℕ)) (n : ℕ) (point : ClockPoint) : Prop :=
  ∃ e, s.evaluate rate lengths n point = .ok e ∧ e.feasible = true

theorem isFeasible_true {x : K} :
    s.isFeasible x lengths point = .ok true ↔ ∃ e, s.uniform x lengths 1 point = .ok e ∧ e.feasible = true := by
  unfold isFeasible
  cases s.uniform x lengths 1 point with
  | error e => simp [bind, Except.bind]
  | ok e => simp [bind, Except.bind, pure, Except.pure]

theorem feasible_iff {capacity : K} (hcap : s.capacity lengths point = .ok capacity) {n : ℕ} (hr : 0 ≤ r) :
    s.Feasible r lengths (n + 1) point ↔ ∀ x ∈ pack capacity (n + 1) r, s.isFeasible x lengths point = .ok true := by
  unfold Feasible evaluate
  simp only [Nat.not_lt.mpr (Nat.le_add_left 1 n), not_lt.mpr hr, or_self, if_false, hcap, bind, Except.bind, pure,
    Except.pure]
  generalize pack capacity (n + 1) r = rates
  constructor
  · rintro ⟨e, he, hf⟩ x hx
    cases hm : rates.mapM fun r => s.uniform r lengths 1 point with
    | error err => simp [hm] at he
    | ok evaluations =>
      simp only [hm, Except.ok.injEq] at he
      subst he
      obtain ⟨a, ha, hxa⟩ := forall_of_mapM_ok hm hx
      exact isFeasible_true.mpr ⟨a, hxa, List.all_eq_true.mp hf a ha⟩
  · intro hall
    obtain ⟨evaluations, hm, -⟩ := mapM_total fun x hx => (isFeasible_true.mp (hall x hx)).imp fun e he => he.1
    refine ⟨_, by rw [hm], List.all_eq_true.mpr fun e he => ?_⟩
    obtain ⟨x, hx, hxe⟩ := exists_of_mapM_ok hm he
    obtain ⟨e', he', hf⟩ := isFeasible_true.mp (hall x hx)
    rwa [Except.ok.inj (hxe.symm.trans he')]

instance (s : Solver K) (rate : K) (lengths : List (ℕ × ℕ)) (n : ℕ) (point : ClockPoint) :
    Decidable (s.Feasible rate lengths n point) :=
  match h : s.evaluate rate lengths n point with
  | .ok e => decidable_of_iff (e.feasible = true) ⟨fun hf => ⟨e, h, hf⟩, fun ⟨e', he, hf⟩ => by
      rwa [Except.ok.inj (h.symm.trans he)]⟩
  | .error err => isFalse fun ⟨e, he, _⟩ => by rw [h] at he; cases he

def noisyModel : ClusterModel ℚ where
  prefill := Dict.ofList [(1400, Dict.ofList [(100, 100), (1000, 100)])]
  residence := Dict.ofList [(100, 0)]
  decode := Dict.ofList [(1000, ⟨10, 1 / 10⟩)]
  powerPrefill := Dict.ofList [(1400, ⟨100, 200⟩)]
  powerDecode := Dict.ofList [(1000, ⟨100, 100⟩)]
  parkPowerW := 50
  rhoPrefill := 1 / 2
  ttftSloMs := 1000
  tpotSloMs := 50
  kvBytesPerToken := 131072
  kvGateBytes := none
  kvCapacityTokens := none
  bStar := ∅
  caps := ∅
  predictorCoef := some [0, 1, 1, 0, 0]
  slackCounts := some (Dict.ofList [(9, (100, 0)), (13, (20, 3))])
  theta := 1 / 10

end Solver
end CanaTune
