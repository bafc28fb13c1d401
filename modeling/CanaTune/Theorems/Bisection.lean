import CanaTune.Lib.Json
import CanaTune.Theorems.Capacity

/-! What the capacity search brackets. The lower end is always feasible; the upper end is infeasible as soon as any
    tried rate was. Nothing is assumed about how feasibility depends on the rate. -/

namespace CanaTune
variable {K : Type} [Scalar K]

namespace Solver
variable {feasible : K → Except ModelError Bool}

/-! ### Doubling -/

/-- Doubling stops at the first power of two that is infeasible, or when its steps are used up. -/
theorem double_eq_ok : ∀ {m : ℕ} {hi top : K}, double feasible m hi = .ok top →
    ∃ j ≤ m, top = hi * 2 ^ j ∧ (∀ i < j, feasible (hi * 2 ^ i) = .ok true) ∧ (j < m → feasible top = .ok false)
  | 0, hi, top, h => by
    obtain rfl := Except.ok.inj h
    exact ⟨0, le_rfl, by simp, by simp, fun h => absurd h (lt_irrefl 0)⟩
  | fuel + 1, hi, top, h => by
    obtain ⟨b, hb, h⟩ := bind_eq_ok.mp h
    cases b with
    | false =>
      obtain rfl := Except.ok.inj h
      exact ⟨0, Nat.zero_le _, by simp, by simp, fun _ => hb⟩
    | true =>
      obtain ⟨j, hj, htop, hall, hstop⟩ := double_eq_ok (m := fuel) h
      refine ⟨j + 1, Nat.succ_le_succ hj, by rw [htop, pow_succ]; ring, fun i hi' => ?_, fun hlt =>
        hstop (Nat.lt_of_succ_lt_succ hlt)⟩
      cases i with
      | zero => simpa using hb
      | succ i =>
        have hi := hall i (Nat.lt_of_succ_lt_succ hi')
        rwa [mul_assoc, ← pow_succ'] at hi

/-! ### Halving -/

/-- The end of the bracket: the lower end stays feasible, and the upper end is infeasible or never moved. -/
theorem bisect_eq_ok : ∀ {m : ℕ} {lo hi c : K}, feasible lo = .ok true → bisect feasible m lo hi = .ok c →
    feasible c = .ok true ∧ (feasible (c + (hi - lo) / 2 ^ m) = .ok false ∨
      c + (hi - lo) / 2 ^ m = hi ∧ ∀ k, 1 ≤ k → k ≤ m → feasible (hi - (hi - lo) / 2 ^ k) = .ok true)
  | 0, lo, hi, c, hlo, h => by
    obtain rfl := Except.ok.inj h
    exact ⟨hlo, .inr ⟨by simp, fun k hk hk' => by omega⟩⟩
  | fuel + 1, lo, hi, c, hlo, h => by
    obtain ⟨b, hb, h⟩ := bind_eq_ok.mp h
    -- What `fuel` steps leave of a half is what one step more leaves of the whole.
    have hupper : (hi - (lo + hi) / 2) / 2 ^ fuel = (hi - lo) / 2 ^ (fuel + 1) := by
      rw [pow_succ]
      field_simp
      ring
    have hlower : ((lo + hi) / 2 - lo) / 2 ^ fuel = (hi - lo) / 2 ^ (fuel + 1) := by
      rw [pow_succ]
      field_simp
      ring
    cases b with
    | false =>
      obtain ⟨hc, hend⟩ := bisect_eq_ok (m := fuel) hlo h
      rw [hlower] at hend
      refine ⟨hc, .inl ?_⟩
      rcases hend with hend | ⟨hend, -⟩
      · exact hend
      · rw [hend]
        exact hb
    | true =>
      obtain ⟨hc, hend⟩ := bisect_eq_ok (m := fuel) hb h
      rw [hupper] at hend
      refine ⟨hc, hend.imp_right fun ⟨hend, hall⟩ => ⟨hend, fun k hk hk' => ?_⟩⟩
      obtain ⟨k, rfl⟩ := Nat.exists_eq_add_of_le hk
      cases k with
      | zero =>
        have hmid : hi - (hi - lo) / 2 ^ (1 + 0) = (lo + hi) / 2 := by ring
        rw [hmid]
        exact hb
      | succ k =>
        have hstep := hall (k + 1) (Nat.le_add_left 1 k) (by omega)
        have hwidth : (hi - (lo + hi) / 2) / 2 ^ (k + 1) = (hi - lo) / 2 ^ (1 + (k + 1)) := by
          rw [add_comm 1, pow_succ 2 (k + 1)]
          field_simp
          ring
        rwa [hwidth] at hstep

theorem le_bisect : ∀ {m : ℕ} {a b c : K}, a ≤ b → bisect feasible m a b = .ok c → a ≤ c
  | 0, lo, hi, c, _, h => (Except.ok.inj h).le
  | fuel + 1, lo, hi, c, hle, h => by
    obtain ⟨b, -, h⟩ := bind_eq_ok.mp h
    cases b with
    | false => exact le_bisect (m := fuel) (by linarith) h
    | true =>
      have hmid := le_bisect (m := fuel) (a := (lo + hi) / 2) (by linarith) h
      linarith

/-! ### Packing the capacity -/

/-- A rate of `n` capacities gives every group exactly one. -/
theorem eq_of_mem_pack {c : K} (hc : 0 ≤ c) : ∀ (n : ℕ), ∀ x ∈ pack c (n + 1) ((n + 1 : ℕ) * c), x = c
  | 0, x, hx => by simpa [pack] using hx
  | n + 1, x, hx => by
    have hrest : ((n + 1 + 1 : ℕ) : K) * c - c = (n + 1 : ℕ) * c := by
      push_cast
      ring
    have hle : c ≤ ((n + 1 + 1 : ℕ) : K) * c :=
      le_mul_of_one_le_left hc (by exact_mod_cast Nat.le_add_left 1 (n + 1))
    rw [pack, min_eq_right hle] at hx
    rcases List.mem_cons.mp hx with rfl | hx
    · rfl
    · rw [hrest] at hx
      exact eq_of_mem_pack hc n x hx

/-! ### The memo -/

variable {s : Solver K}

theorem uniform_congr (s : Solver K) {l l' : List (ℕ × ℕ)} (h : Solver.mix l = Solver.mix l') (rate : K) (n : ℕ)
    (point : ClockPoint) : s.uniform rate l n point = s.uniform rate l' n point := by
  unfold uniform
  rw [h]

/-- The capacity sees a mix through its representatives only. -/
theorem capacity_congr (s : Solver K) {l l' : List (ℕ × ℕ)} (h : Solver.mix l = Solver.mix l') (point : ClockPoint) :
    s.capacity l point = s.capacity l' point := by
  have hfeasible : (fun rate => s.isFeasible rate l point) = fun rate => s.isFeasible rate l' point := by
    funext rate
    rw [isFeasible, isFeasible, uniform_congr s h]
  rw [capacity, capacity, hfeasible]

/-- Every remembered answer is the capacity of every mix with these representatives. -/
def Recalls (s : Solver K) (memo : Capacities K) : Prop :=
  ∀ point key c, memo.lookup (point, key) = some c → ∀ l, Solver.mix l = key → s.capacity l point = .ok c

theorem Recalls.capacityMemo {memo : Capacities K} (h : s.Recalls memo) (l : List (ℕ × ℕ)) (point : ClockPoint) :
    (·.1) <$> s.capacityMemo memo l point = s.capacity l point := by
  unfold Solver.capacityMemo
  split
  case h_1 c hc => exact (h point _ c hc l rfl).symm
  case h_2 =>
    cases s.capacity l point with
    | error e => rfl
    | ok c => rfl

theorem Recalls.remember {memo : Capacities K} (h : s.Recalls memo) (call : List (ℕ × ℕ) × ClockPoint) :
    s.Recalls (s.remember memo call) := by
  unfold Solver.remember Solver.capacityMemo
  cases hmemo : memo.lookup (call.2, Solver.mix call.1) with
  | some c => exact h
  | none =>
    cases hc : s.capacity call.1 call.2 with
    | error e => exact h
    | ok c =>
      intro point key c' hlookup l hl
      change AList.lookup (point, key) (memo.insert (call.2, Solver.mix call.1) c) = some c' at hlookup
      by_cases hkey : (point, key) = (call.2, Solver.mix call.1)
      · rw [hkey, AList.lookup_insert, Option.some.injEq] at hlookup
        obtain ⟨rfl, rfl⟩ := Prod.mk.inj hkey
        rw [capacity_congr s hl, hc, hlookup]
      · rw [AList.lookup_insert_ne hkey] at hlookup
        exact h point key c' hlookup l hl

theorem recalls_foldl (s : Solver K) (calls : List (List (ℕ × ℕ) × ClockPoint)) :
    s.Recalls (calls.foldl s.remember ∅) := by
  have hfold : ∀ (calls : List (List (ℕ × ℕ) × ClockPoint)) (memo : Capacities K), s.Recalls memo →
      s.Recalls (calls.foldl s.remember memo) := by
    intro calls
    induction calls with
    | nil => exact fun _ h => h
    | cons call calls ih => exact fun memo h => ih _ (h.remember call)
  exact hfold calls ∅ fun point key c h => by simp at h

/-! ### The search as a whole -/

/-- The capacity search brackets feasibility, and the memo answers as a fresh search does. -/
theorem capacity_brackets (s : Solver K) {lengths : List (ℕ × ℕ)} {point : ClockPoint} {c : K}
    (h : s.capacity lengths point = .ok c) :
    (s.isFeasible 0 lengths point = .ok false → c = 0) ∧
      (s.isFeasible 0 lengths point = .ok true → s.isFeasible c lengths point = .ok true ∧
        (∃ j ≤ 30, (∀ i < j, s.isFeasible (2 ^ i) lengths point = .ok true) ∧
          (j < 30 → s.isFeasible (2 ^ j) lengths point = .ok false) ∧
          ((∃ x, c < x ∧ x ≤ c + 2 ^ j / 2 ^ 24 ∧ s.isFeasible x lengths point = .ok false) ∨
            j = 30 ∧ c = 2 ^ 30 * (1 - 1 / 2 ^ 24) ∧
              ∀ k, 1 ≤ k → k ≤ 24 → s.isFeasible (2 ^ 30 * (1 - 1 / 2 ^ k)) lengths point = .ok true)) ∧
        ∀ n : ℕ, 1 ≤ n → s.Feasible (n * c) lengths n point) ∧
      ∀ (calls : List (List (ℕ × ℕ) × ClockPoint)) (lengths' : List (ℕ × ℕ)), Solver.mix lengths' = Solver.mix lengths →
        (·.1) <$> s.capacityMemo (calls.foldl s.remember ∅) lengths' point = .ok c ∧
          s.capacity lengths' point = .ok c := by
  have hmemo : ∀ (calls : List (List (ℕ × ℕ) × ClockPoint)) (lengths' : List (ℕ × ℕ)),
      Solver.mix lengths' = Solver.mix lengths →
      (·.1) <$> s.capacityMemo (calls.foldl s.remember ∅) lengths' point = .ok c ∧
        s.capacity lengths' point = .ok c := by
    intro calls lengths' hmix
    rw [(recalls_foldl s calls).capacityMemo, capacity_congr s hmix, h]
    exact ⟨rfl, rfl⟩
  have hcap := h
  obtain ⟨b, hb, h⟩ := bind_eq_ok.mp h
  have hzero : s.isFeasible 0 lengths point = .ok b := hb
  cases b with
  | false =>
    refine ⟨fun _ => (Except.ok.inj h).symm, fun htrue => ?_, hmemo⟩
    rw [hzero] at htrue
    cases htrue
  | true =>
    refine ⟨fun hfalse => ?_, fun _ => ?_, hmemo⟩
    · rw [hzero] at hfalse
      cases hfalse
    -- `2 ^ j` is where the doubling stops: infeasible, unless it ran out of doublings.
    obtain ⟨top, htop, h⟩ := bind_eq_ok.mp h
    obtain ⟨j, hj, rfl, hall, hstop⟩ := double_eq_ok htop
    simp only [one_mul] at h hall hstop
    have hpow : (0 : K) < 2 ^ j := pow_pos two_pos j
    have hc : 0 ≤ c := le_bisect hpow.le h
    obtain ⟨hfeasible, hend⟩ := bisect_eq_ok (by exact hb) h
    rw [sub_zero] at hend
    have hwidth : c < c + 2 ^ j / 2 ^ 24 := lt_add_of_pos_right c (by positivity)
    refine ⟨hfeasible, ⟨j, hj, hall, hstop, ?_⟩, fun n hn => ?_⟩
    · rcases hend with hend | ⟨hend, hmids⟩
      · exact .inl ⟨_, hwidth, le_rfl, hend⟩
      · rcases hj.lt_or_eq with hlt | rfl
        · exact .inl ⟨_, hwidth, le_rfl, by rw [hend]; exact hstop hlt⟩
        · refine .inr ⟨rfl, ?_, fun k hk hk' => ?_⟩
          · rw [mul_sub, mul_one, mul_one_div]
            exact eq_sub_of_add_eq hend
          · have hmid := hmids k hk hk'
            rwa [← mul_one_div, ← mul_one_sub] at hmid
    -- At `n` times the capacity the packing fills every group with the capacity itself.
    · obtain ⟨n, rfl⟩ := Nat.exists_eq_add_of_le' hn
      rw [feasible_iff hcap (mul_nonneg (Nat.cast_nonneg _) hc)]
      exact fun x hx => eq_of_mem_pack hc n x hx ▸ hfeasible

/-- A model whose busy share of P binds at five requests a second. -/
def busyModel : ClusterModel ℚ := { noisyModel with predictorCoef := none, slackCounts := none }

theorem capacity_busyModel : (build busyModel 2).capacity [(100, 10)] ⟨1400, 1000⟩ = .ok (5 : ℚ) := by decide +kernel

theorem capacity_brackets_busyModel : (build busyModel 2).isFeasible 5 [(100, 10)] ⟨1400, 1000⟩ = .ok true ∧
    (build busyModel 2).Feasible ((2 : ℕ) * (5 : ℚ)) [(100, 10)] 2 ⟨1400, 1000⟩ := by
  obtain ⟨-, hfeasible, -⟩ := capacity_brackets _ capacity_busyModel
  obtain ⟨hc, -, hpack⟩ := hfeasible (by decide +kernel)
  exact ⟨hc, hpack 2 (by norm_num)⟩

end Solver
end CanaTune
