import CanaTune.Domain.Rounded
import CanaTune.Router.Lifecycle
import CanaTune.Theorems.PrefillCost
import CanaTune.Theorems.SlackBounds

/-! The knee of a congestion signal. The head of the search holds the counts of all bins below, a block is dense
    enough to judge, and a block that violates more than its floor has a bin that does. So a knee is a bin that is
    worse than everything below it, and never the lowest one. -/

namespace CanaTune
variable {K : Type} [Scalar K]

namespace BinCount

/-- The violation rate of one bin; 0 without requests. -/
def rate (e : BinCount) : K := (e.k : K) / e.n

/-- Requests and violations of several bins together. -/
def requests (l : List BinCount) : ℕ := (l.map (·.n)).sum

def violations (l : List BinCount) : ℕ := (l.map (·.k)).sum

/-- The violation rate of several bins together; 0 without requests. -/
def pooledRate (l : List BinCount) : K := (violations l : K) / requests l

@[simp] theorem requests_cons (e : BinCount) (l : List BinCount) : requests (e :: l) = e.n + requests l := by
  simp [requests]

@[simp] theorem violations_cons (e : BinCount) (l : List BinCount) : violations (e :: l) = e.k + violations l := by
  simp [violations]

@[simp] theorem requests_append (l l' : List BinCount) : requests (l ++ l') = requests l + requests l' := by
  simp [requests]

@[simp] theorem violations_append (l l' : List BinCount) : violations (l ++ l') = violations l + violations l' := by
  simp [violations]

/-- No more violations than requests. -/
def Valid (e : BinCount) : Prop := e.k ≤ e.n

theorem violations_le {l : List BinCount} (h : ∀ e ∈ l, e.Valid) : violations l ≤ requests l := by
  induction l with
  | nil => exact le_rfl
  | cons e l ih =>
    rw [violations_cons, requests_cons]
    exact add_le_add (h e List.mem_cons_self) (ih fun a ha => h a (List.mem_cons_of_mem e ha))

/-- Bins that each stay within a rate stay within it together. -/
theorem violations_le_mul {l : List BinCount} {x : K} (h : ∀ e ∈ l, (e.k : K) ≤ x * e.n) :
    (violations l : K) ≤ x * requests l := by
  induction l with
  | nil => simp [violations, requests]
  | cons e l ih =>
    rw [violations_cons, requests_cons, Nat.cast_add, Nat.cast_add, mul_add]
    exact add_le_add (h e List.mem_cons_self) (ih fun a ha => h a (List.mem_cons_of_mem e ha))

/-- A rate that bounds the pooled rate bounds the violations. -/
theorem violations_le_of_pooledRate {l : List BinCount} (hl : ∀ e ∈ l, e.Valid) {x : K} (h : pooledRate l ≤ x) :
    (violations l : K) ≤ x * requests l := by
  rcases (requests l).eq_zero_or_pos with hzero | hpos
  · have hk := violations_le hl
    rw [hzero, Nat.le_zero] at hk
    simp [hzero, hk]
  · exact (div_le_iff₀ (by exact_mod_cast hpos)).mp h

theorem pooledRate_le {l : List BinCount} {x : K} (hx : 0 ≤ x) (h : (violations l : K) ≤ x * requests l) :
    pooledRate l ≤ x := by
  rcases (requests l).eq_zero_or_pos with hzero | hpos
  · rw [pooledRate, hzero, Nat.cast_zero, div_zero]
    exact hx
  · exact (div_le_iff₀ (by exact_mod_cast hpos)).mpr h

theorem rate_le {e : BinCount} {x : K} (hx : 0 ≤ x) (h : (e.k : K) ≤ x * e.n) : e.rate ≤ x := by
  rcases e.n.eq_zero_or_pos with hzero | hpos
  · rw [rate, hzero, Nat.cast_zero, div_zero]
    exact hx
  · exact (div_le_iff₀ (by exact_mod_cast hpos)).mpr h

theorem lt_rate {e : BinCount} (he : e.Valid) {x : K} (h : x * e.n < e.k) : x < e.rate := by
  rcases e.n.eq_zero_or_pos with hzero | hpos
  · rw [Valid, hzero, Nat.le_zero] at he
    simp [hzero, he] at h
  · exact (lt_div_iff₀ (by exact_mod_cast hpos)).mpr h

end BinCount

namespace KneeCounts
open BinCount

/-! ### The counts -/

theorem counts_eq (c : KneeCounts) : ∃ all : Dict ℕ (ℕ × ℕ), c.counts = all.sorted.map (fun e => ⟨e.1, e.2.1, e.2.2⟩) ∧
    ∀ b, all.lookup b = match c.live.lookup b with
      | none => c.seed.lookup b
      | some v => some (((c.seed.lookup b).getD (0, 0)).1 + v.1, ((c.seed.lookup b).getD (0, 0)).2 + v.2) := by
  refine ⟨_, rfl, fun b => ?_⟩
  obtain ⟨hno, hmem⟩ := Dict.lookup_foldl (k := b) (d := c.seed)
    (g := fun v old => ((old.getD (0, 0)).1 + v.1, (old.getD (0, 0)).2 + v.2))
    (u := fun (d : Dict ℕ (ℕ × ℕ)) e =>
      d.insert e.1 (((d.lookup e.1).getD (0, 0)).1 + e.2.1, ((d.lookup e.1).getD (0, 0)).2 + e.2.2))
    (fun d e k => by
      split_ifs with hk
      · rw [hk, AList.lookup_insert]
      · rw [AList.lookup_insert_ne hk]) c.live.nodup_items
  cases hb : c.live.lookup b with
  | none => exact hno fun v hv => by simp [Dict.mem_items.mp hv] at hb
  | some v => exact hmem v (Dict.mem_items.mpr hb)

/-- The bins are counted from the lowest up. -/
theorem counts_sorted (c : KneeCounts) : c.counts.Pairwise fun a b => a.bin < b.bin := by
  obtain ⟨all, hall, -⟩ := c.counts_eq
  rw [hall, List.pairwise_map]
  exact all.sorted_lt

/-- No bin of the seed or of production's own counts has more violations than requests. -/
structure Valid (c : KneeCounts) : Prop where
  seed : ∀ b v, c.seed.lookup b = some v → v.2 ≤ v.1
  live : ∀ b v, c.live.lookup b = some v → v.2 ≤ v.1

theorem Valid.counts {c : KneeCounts} (h : c.Valid) : ∀ e ∈ c.counts, e.Valid := by
  obtain ⟨all, hall, hlookup⟩ := c.counts_eq
  rw [hall]
  intro e he
  obtain ⟨⟨b, v⟩, hv, rfl⟩ := List.mem_map.mp he
  have hb := Dict.mem_items.mp (Dict.mem_sorted.mp hv)
  rw [hlookup] at hb
  cases hlive : c.live.lookup b with
  | none =>
    rw [hlive] at hb
    exact h.seed b v hb
  | some w =>
    rw [hlive, Option.some.injEq] at hb
    subst hb
    refine add_le_add ?_ (h.live b w hlive)
    cases hseed : c.seed.lookup b with
    | none => exact le_rfl
    | some u => exact h.seed b u hseed

/-! ### The search -/

/-- A block is the head of the list, with its sums; it is dense, or it is the rest. -/
theorem mergeBlock_spec (m : ℕ) (l : List BinCount) (n k : ℕ) :
    ∃ high, l = (mergeBlock m n k l).2.2 ++ high ∧
      (mergeBlock m n k l).1 = n + requests (mergeBlock m n k l).2.2 ∧
      (mergeBlock m n k l).2.1 = k + violations (mergeBlock m n k l).2.2 := by
  fun_induction mergeBlock m n k l with
  | case1 n k => exact ⟨[], rfl, rfl, rfl⟩
  | case2 n k c rest hdense => exact ⟨rest, rfl, by simp [requests], by simp [violations]⟩
  | case3 n k c rest hsparse n' k' block hblock ih =>
    rw [hblock] at ih
    obtain ⟨high, hrest, hn, hk⟩ := ih
    dsimp only at hrest hn hk ⊢
    exact ⟨high, by rw [List.cons_append, ← hrest], by rw [hn, requests_cons, add_assoc],
      by rw [hk, violations_cons, add_assoc]⟩

/-- The floor over the bins below, as the search computes it. -/
theorem floor_eq (theta : K) (low : List BinCount) :
    max theta (if requests low = 0 then 0 else (violations low : K) / requests low) = max theta (pooledRate low) := by
  rw [pooledRate]
  split_ifs with hzero
  · rw [hzero, Nat.cast_zero, div_zero]
  · rfl

/-- Where the search stops: a dense block over the bins below, whose lower bound passes the floor. -/
theorem kneeFrom_spec {theta : K} {m b : ℕ} {low l : List BinCount}
    (h : kneeFrom theta m (requests low) (violations low) l = some b) :
    ∃ mid block high first rest, low ++ l = low ++ mid ++ block ++ high ∧ block = first :: rest ∧ m ≤ requests block ∧
      max theta (pooledRate (low ++ mid)) <
        1 - wilsonUcb ((requests block : ℤ) - violations block) (requests block) wilsonZ ∧
      b = ((block.find? fun c => max theta (pooledRate (low ++ mid)) * c.n < c.k).map (·.bin)).getD first.bin := by
  induction l generalizing low with
  | nil => cases h
  | cons e l ih =>
    obtain ⟨high, hsplit, hn, hk⟩ := mergeBlock_spec m (e :: l) 0 0
    have hfirst : ∃ rest, (mergeBlock m 0 0 (e :: l)).2.2 = e :: rest := by
      rw [mergeBlock]
      split_ifs
      · exact ⟨[], rfl⟩
      · exact ⟨_, rfl⟩
    obtain ⟨rest, hblock⟩ := hfirst
    rw [kneeFrom] at h
    generalize mergeBlock m 0 0 (e :: l) = found at h hsplit hn hk hblock
    obtain ⟨n, k, block⟩ := found
    dsimp only at h hsplit hn hk hblock
    rw [zero_add] at hn hk
    subst hn hk
    rw [floor_eq] at h
    split_ifs at h with hsparse hfloor
    · refine ⟨[], block, high, e, rest, ?_, hblock, not_lt.mp hsparse, ?_, ?_⟩
      · rw [List.append_nil, List.append_assoc, ← hsplit]
      · rwa [List.append_nil]
      · rw [List.append_nil]
        exact (Option.some.inj h).symm
    · have hlow : kneeFrom theta m (requests (low ++ [e])) (violations (low ++ [e])) l = some b := by
        simpa [requests, violations] using h
      -- The block at this bin is not above its floor: the search goes on one bin higher.
      obtain ⟨mid, block', high', first, rest', heq, hstop⟩ := ih hlow
      refine ⟨e :: mid, block', high', first, rest', ?_, ?_⟩
      · simpa using heq
      · simpa using hstop

theorem knee_spec {c : KneeCounts} {theta : K} {m b : ℕ} (h : c.knee theta m = some b) :
    ∃ low block high first rest, low ≠ [] ∧ c.counts = low ++ block ++ high ∧ block = first :: rest ∧
      m ≤ requests block ∧
      max theta (pooledRate low) <
        1 - wilsonUcb ((requests block : ℤ) - violations block) (requests block) wilsonZ ∧
      b = ((block.find? fun c => max theta (pooledRate low) * c.n < c.k).map (·.bin)).getD first.bin := by
  unfold knee at h
  split at h
  · cases h
  case h_2 e l hcounts =>
    have hfrom : kneeFrom theta m (requests [e]) (violations [e]) l = some b := by
      simpa [requests, violations] using h
    obtain ⟨mid, block, high, first, rest, hsplit, hstop⟩ := kneeFrom_spec hfrom
    exact ⟨[e] ++ mid, block, high, first, rest, by simp, hcounts.trans hsplit, hstop⟩

/-- A knee is an observed bin above another one. -/
theorem knee_above {c : KneeCounts} {theta : K} {m b : ℕ} (h : c.knee theta m = some b) :
    ∃ a ∈ c.counts, ∃ e ∈ c.counts, e.bin = b ∧ a.bin < e.bin := by
  obtain ⟨low, block, high, first, rest, hlow, hsplit, hblock, -, -, hb⟩ := knee_spec h
  have hmem : ∃ e ∈ block, e.bin = b := by
    cases hfind : block.find? fun c => max theta (pooledRate low) * c.n < c.k with
    | none => exact ⟨first, by simp [hblock], by rw [hb, hfind]; rfl⟩
    | some e => exact ⟨e, List.mem_of_find?_eq_some hfind, by rw [hb, hfind]; rfl⟩
  obtain ⟨e, he, hbin⟩ := hmem
  obtain ⟨a, ha⟩ := List.exists_mem_of_ne_nil low hlow
  have hsorted := c.counts_sorted
  rw [hsplit, List.append_assoc, List.pairwise_append] at hsorted
  have hsub : e ∈ block ++ high := List.mem_append_left _ he
  refine ⟨a, ?_, e, ?_, hbin, hsorted.2.2 a ha e hsub⟩
  · rw [hsplit, List.append_assoc]
    exact List.mem_append_left _ ha
  · rw [hsplit, List.append_assoc]
    exact List.mem_append_right _ hsub

/-! ### A knee is real -/

/-- The lower bound of a block's rate is not above the rate. -/
theorem one_sub_wilsonUcb_le {l : List BinCount} (hl : ∀ e ∈ l, e.Valid) (hpos : 0 < requests l) :
    1 - wilsonUcb ((requests l : ℤ) - violations l) (requests l) (wilsonZ : ℝ) ≤ pooledRate l := by
  have hle := violations_le hl
  have hbound := le_wilsonUcb hpos (Nat.sub_le (requests l) (violations l)) (wilsonZ_nonneg (K := ℝ))
  rw [Nat.cast_sub hle, sub_div, div_self (by exact_mod_cast hpos.ne'), Nat.cast_sub hle] at hbound
  rw [pooledRate]
  linarith

/-- A block that violates more than its floor has a bin that does. -/
theorem exists_above_floor {l : List BinCount} {x : K} (h : x < pooledRate l) (hx : 0 ≤ x) :
    ∃ e ∈ l, x * e.n < e.k := by
  by_contra hnone
  refine h.not_ge (pooledRate_le hx (violations_le_mul fun e he => ?_))
  by_contra hlt
  exact hnone ⟨e, he, not_le.mp hlt⟩

/-- The bins below the first one found. -/
theorem filter_below {low pre post high : List BinCount} {e : BinCount}
    (hsorted : (low ++ (pre ++ e :: post) ++ high).Pairwise fun a b => a.bin < b.bin) :
    (low ++ (pre ++ e :: post) ++ high).filter (fun a => a.bin < e.bin) = low ++ pre := by
  have hshape : low ++ (pre ++ e :: post) ++ high = (low ++ pre) ++ e :: (post ++ high) := by simp
  rw [hshape] at hsorted ⊢
  obtain ⟨-, htail, hcross⟩ := List.pairwise_append.mp hsorted
  rw [List.filter_append, List.filter_eq_self.mpr, List.filter_eq_nil_iff.mpr, List.append_nil]
  · intro a ha
    rcases List.mem_cons.mp ha with rfl | ha
    · simp
    · simpa using ((List.pairwise_cons.mp htail).1 a ha).le
  · intro a ha
    simpa using hcross a ha e List.mem_cons_self

/-- A reported knee is an observed bin above the lowest, worse than `theta` and than all bins below it together. It
    lies in a dense block whose bins below it are not worse than the floor, and the search in the block finds it. -/
theorem knee_real (c : KneeCounts) (hc : c.Valid) {theta : ℝ} (htheta : 0 ≤ theta) {m : ℕ} (hm : 1 ≤ m) {b : ℕ}
    (h : c.knee theta m = some b) :
    ∃ e ∈ c.counts, e.bin = b ∧ (∃ a ∈ c.counts, a.bin < b) ∧ theta < e.rate ∧
      pooledRate (c.counts.filter fun a => a.bin < b) < (e.rate : ℝ) ∧
      ∃ low block high, c.counts = low ++ block ++ high ∧ e ∈ block ∧ m ≤ requests block ∧
        (∀ a ∈ block, a.bin < b → a.rate ≤ max theta (pooledRate low)) ∧
        block.find? (fun a => max theta (pooledRate low) * a.n < a.k) = some e := by
  obtain ⟨a₀, ha₀, e₀, he₀, hbin₀, hbelow⟩ := knee_above h
  obtain ⟨low, block, high, first, rest, hlow, hsplit, hblock, hdense, hfloor, hb⟩ := knee_spec h
  have hvalid : ∀ e ∈ low ++ block ++ high, e.Valid := hsplit ▸ hc.counts
  have hvalid' : ∀ e ∈ block, e.Valid := fun e he => hvalid e (by simp [he])
  have hpos : 0 < requests block := hm.trans hdense
  -- The lower bound is at most the pooled rate, so some bin of the block is above the floor.
  have hfloor' := hfloor.trans_le (one_sub_wilsonUcb_le hvalid' hpos)
  have hzero : 0 ≤ max theta (pooledRate low) := htheta.trans (le_max_left _ _)
  have hsome : ∃ e, block.find? (fun a => max theta (pooledRate low) * a.n < a.k) = some e := by
    obtain ⟨e, he, hlt⟩ := exists_above_floor hfloor' hzero
    exact Option.isSome_iff_exists.mp (List.find?_isSome.mpr ⟨e, he, decide_eq_true hlt⟩)
  obtain ⟨e, hfind⟩ := hsome
  obtain ⟨hworse, pre, post, hpart, hbefore⟩ := List.find?_eq_some_iff_append.mp hfind
  have hmem : e ∈ block := List.mem_of_find?_eq_some hfind
  obtain rfl : b = e.bin := by rw [hb, hfind]; rfl
  have hrate : max theta (pooledRate low) < e.rate := lt_rate (hvalid' e hmem) (of_decide_eq_true hworse)
  have hsorted := c.counts_sorted
  rw [hsplit, hpart] at hsorted
  have hfilter := filter_below hsorted
  have hpre : ∀ a ∈ pre, (a.k : ℝ) ≤ max theta (pooledRate low) * a.n := by
    intro a ha
    simpa using hbefore a ha
  refine ⟨e, hsplit ▸ by simp [hmem], rfl, ⟨a₀, ha₀, hbin₀ ▸ hbelow⟩, (le_max_left _ _).trans_lt hrate, ?_, low, block,
    high, hsplit, hmem, hdense, ?_, hfind⟩
  · rw [hsplit, hpart, hfilter]
    refine (pooledRate_le hzero ?_).trans_lt hrate
    -- Below the knee are the lower bins and the block up to it, each at most at the floor.
    have hlow' := violations_le_of_pooledRate (fun a ha => hvalid a (by simp [ha])) (le_max_right theta (pooledRate low))
    have hpre' := violations_le_mul hpre
    rw [violations_append, requests_append, Nat.cast_add, Nat.cast_add, mul_add]
    exact add_le_add hlow' hpre'
  · intro a ha hlt
    rw [hpart, List.mem_append] at ha
    rcases ha with ha | ha
    · exact rate_le hzero (hpre a ha)
    · -- From the knee on no bin is below it.
      have hge := (List.pairwise_append.mp (List.pairwise_append.mp (List.pairwise_append.mp hsorted).1).2.1).2.1
      rcases List.mem_cons.mp ha with rfl | ha
      · exact absurd hlt (lt_irrefl _)
      · exact absurd hlt ((List.pairwise_cons.mp hge).1 a ha).not_gt

/-- No violation in the lowest bin, nothing else in the next one. -/
def jump : KneeCounts := ⟨Dict.ofList [(0, (10, 0)), (1, (4, 4))], Dict.ofList [(1, (6, 6))]⟩

theorem knee_jump : jump.knee (0 : ℝ) 10 = some 1 := by
  have hcounts : jump.counts = [⟨0, 10, 0⟩, ⟨1, 10, 10⟩] := rfl
  have hbound : wilsonUcb 0 10 (wilsonZ : ℝ) < 1 := by
    norm_num [wilsonUcb, wilsonZ, sqrt_real]
  rw [knee, hcounts]
  simp [kneeFrom, mergeBlock, hbound]

theorem knee_real_jump : ∃ e ∈ jump.counts, e.bin = 1 ∧ ∃ a ∈ jump.counts, a.bin < 1 := by
  have hvalid : jump.Valid := by
    have hseed : ∀ e ∈ jump.seed.items, e.2.2 ≤ e.2.1 := by decide +kernel
    have hlive : ∀ e ∈ jump.live.items, e.2.2 ≤ e.2.1 := by decide +kernel
    exact ⟨fun b v hv => hseed (b, v) (Dict.mem_items.mpr hv), fun b v hv => hlive (b, v) (Dict.mem_items.mpr hv)⟩
  obtain ⟨e, he, hbin, habove, -⟩ := knee_real jump hvalid le_rfl (by norm_num) knee_jump
  exact ⟨e, he, hbin, habove⟩

/-- No request violates. -/
def flat : KneeCounts := ⟨Dict.ofList [(0, (30, 0)), (1, (25, 0))], ∅⟩

/-- In floats the upper bound of 25 requests in 25 falls below 1, and with it the lower bound of no violations rises
    above 0: the search ends in a bin that no request violates in, by its default. -/
theorem kneeRounded_flat : flat.Valid ∧ flat.kneeRounded .binary64 0 20 = some 1 ∧
    ∀ e ∈ flat.counts, ¬(0 : ℚ) < e.rate ∧ ¬(0 : ℚ) * e.n < e.k := by
  have hseed : ∀ e ∈ flat.seed.items, e.2.2 ≤ e.2.1 := by decide +kernel
  have hlive : ∀ b v, flat.live.lookup b = some v → v.2 ≤ v.1 := fun b v hv => by cases hv
  exact ⟨⟨fun b v hv => hseed (b, v) (Dict.mem_items.mpr hv), hlive⟩, by decide +kernel, by decide +kernel⟩

/-! ### What a threshold closes -/

/-- Every counted bin is one of `bins`. -/
structure Binned (c : KneeCounts) (bins : Set ℕ) : Prop where
  seed : ∀ b, (c.seed.lookup b).isSome → b ∈ bins
  live : ∀ b, (c.live.lookup b).isSome → b ∈ bins

theorem Binned.record {c : KneeCounts} {bins : Set ℕ} (h : c.Binned bins) {b : ℕ} (hb : b ∈ bins) (violated : Bool) :
    (c.record b violated).Binned bins where
  seed := h.seed
  live b' hb' := by
    by_cases heq : b' = b
    · exact heq ▸ hb
    · rw [KneeCounts.record, AList.lookup_insert_ne heq] at hb'
      exact h.live b' hb'

theorem Binned.counts {c : KneeCounts} {bins : Set ℕ} (h : c.Binned bins) {e : BinCount} (he : e ∈ c.counts) :
    e.bin ∈ bins := by
  obtain ⟨all, hall, hlookup⟩ := c.counts_eq
  rw [hall] at he
  obtain ⟨⟨b, v⟩, hv, rfl⟩ := List.mem_map.mp he
  have hb := Dict.mem_items.mp (Dict.mem_sorted.mp hv)
  rw [hlookup] at hb
  cases hlive : c.live.lookup b with
  | none =>
    rw [hlive] at hb
    exact h.seed b (Option.isSome_iff_exists.mpr ⟨v, hb⟩)
  | some w => exact h.live b (Option.isSome_iff_exists.mpr ⟨w, hlive⟩)

/-- A knee among bins is one of them, and not 0. -/
theorem knee_mem {c : KneeCounts} {bins : Set ℕ} (hc : c.Binned bins) {theta : K} {m b : ℕ}
    (h : c.knee theta m = some b) : b ∈ bins ∧ 0 < b := by
  obtain ⟨a, -, e, he, rfl, hlt⟩ := knee_above h
  exact ⟨hc.counts he, (Nat.zero_le _).trans_lt hlt⟩

theorem le_toNat_clamp {b : ℕ} {top z : ℤ} (hb : 0 < b) (htop : (b : ℤ) ≤ top) :
    b ≤ (max 0 (min top z)).toNat ↔ (b : ℤ) ≤ z := by
  omega

/-- A bin above 0 is reached by what truncates to it or more. -/
theorem le_toInt {b : ℕ} (hb : 0 < b) (x : K) : (b : ℤ) ≤ Scalar.toInt x ↔ (b : K) ≤ x := by
  have hb' : (0 : K) < b := by exact_mod_cast hb
  unfold Scalar.toInt
  split_ifs with hx
  · rw [Int.le_floor, Int.cast_natCast]
  · have hceil : ⌈x⌉ ≤ 0 := Int.ceil_le.mpr (by simpa using (not_le.mp hx).le)
    constructor
    · intro h
      omega
    · exact fun h => absurd (hb'.le.trans h) hx

theorem le_kvGateBin {b : ℕ} (hb : 0 < b) (htop : b ≤ 9) {x buffer : K} (hbuffer : 0 < buffer) :
    b ≤ kvGateBin x buffer ↔ gateOfBin b * buffer ≤ x := by
  have htop' : (b : ℤ) ≤ kvGateBins - 1 := by
    rw [kvGateBins]
    omega
  have hb' : (1 : K) ≤ b := by exact_mod_cast hb
  have hgate : (gateOfBin b : K) = b / 10 := by
    rw [gateOfBin, kvGateBins, max_eq_right]
    · norm_num
    · push_cast
      gcongr
  rw [kvGateBin, le_toNat_clamp hb htop', le_toInt hb, hgate, kvGateBins, div_mul_eq_mul_div, le_div_iff₀ hbuffer,
    div_mul_eq_mul_div, div_le_iff₀ (by norm_num)]
  push_cast
  rfl

theorem kvGateBin_le (x buffer : K) : kvGateBin x buffer ≤ 9 := by
  rw [kvGateBin, kvGateBins]
  omega

theorem pSlotBin_le (n : ℤ) : pSlotBin n ≤ 31 := by
  rw [pSlotBin, pSlotBins]
  omega

/-- Exactly the states whose bins lie below the knee stay open: of a D by the KV gate, of a P by its slot cap. -/
theorem knee_thresholds (c : KneeCounts) {theta : K} {m b : ℕ} (h : c.knee theta m = some b) {n : ℕ} (r : Router K n)
    (g : Fin n) :
    (∀ buffer : K, 0 < buffer → c.Binned (Set.range fun x : K => kvGateBin x buffer) →
      r.settings.kvBufferBytes = some buffer → r.learned.kvFraction = gateOfBin b →
      (r.kvBlocked g 0 = true ↔ b ≤ kvGateBin (r.groups g).inflightBytes buffer)) ∧
    (c.Binned (Set.range pSlotBin) → r.learned.pSlotCap = some (max 1 (b : ℤ)) →
      ((r.learned.pSlotCap.all fun cap => decide ((r.groups g).nAtP < cap)) = true ↔
        pSlotBin (r.groups g).nAtP < b)) := by
  refine ⟨fun buffer hbuffer hc hset hfraction => ?_, fun hc hcap => ?_⟩
  · obtain ⟨⟨x, hx⟩, hpos⟩ := knee_mem hc h
    rw [le_kvGateBin hpos (hx ▸ kvGateBin_le x buffer) hbuffer, Router.kvBlocked, hset]
    dsimp only
    rw [hfraction, Nat.cast_zero, zero_mul, add_zero, Bool.or_eq_true, Bool.and_eq_true, decide_eq_true_eq,
      decide_eq_true_eq, decide_eq_true_eq]
    exact or_iff_left_of_imp fun h => h.2.le
  · obtain ⟨⟨x, hx⟩, hpos⟩ := knee_mem hc h
    have htop : b ≤ 31 := hx ▸ pSlotBin_le x
    rw [hcap, Option.all_some, decide_eq_true_eq, pSlotBin, pSlotBins]
    omega

/-- The gate that an online update sets is that of the knee it read, over bins of the same kind as before. -/
theorem updateKvKnee_spec {s : RouterSettings K} {l : Learned K} {n : ℕ} (t : Ticket K n) (violated : Bool)
    {c : KneeCounts} {buffer : K} (hc : l.kvKnee = some c) (hset : s.kvBufferBytes = some buffer) (hne : buffer ≠ 0)
    (hbins : c.Binned (Set.range fun x : K => kvGateBin x buffer)) :
    ∃ c', (Router.updateKvKnee s l t violated).kvKnee = some c' ∧
      c'.Binned (Set.range fun x : K => kvGateBin x buffer) ∧
      ∀ b, c'.knee s.theta l.table.minSamples = some b → (Router.updateKvKnee s l t violated).kvFraction = gateOfBin b := by
  rw [Router.updateKvKnee, hc, hset]
  dsimp only
  rw [if_neg hne]
  exact ⟨_, rfl, hbins.record ⟨_, rfl⟩ violated, fun b hb => by dsimp only; rw [hb]⟩

/-- The same of the slot cap. -/
theorem updateSlotKnee_spec {s : RouterSettings K} {l : Learned K} {n : ℕ} (t : Ticket K n) (violated : Bool)
    {c : KneeCounts} (hc : l.slotKnee = some c) (hbins : c.Binned (Set.range pSlotBin)) :
    ∃ c', (Router.updateSlotKnee s l t violated).slotKnee = some c' ∧ c'.Binned (Set.range pSlotBin) ∧
      ∀ b, c'.knee s.theta l.table.minSamples = some b →
        (Router.updateSlotKnee s l t violated).pSlotCap = some (max 1 (b : ℤ)) := by
  rw [Router.updateSlotKnee, hc]
  dsimp only
  exact ⟨_, rfl, hbins.record ⟨_, rfl⟩ violated, fun b hb => by rw [hb]; rfl⟩

/-- The jump as the knee of both signals. -/
def jumpRouter : Router ℚ 1 :=
  let r := smallServing 1
  { r with
    settings := { r.settings with kvBufferBytes := some 1000 }
    learned := { r.learned with kvFraction := gateOfBin 1, pSlotCap := some 1 } }

theorem knee_thresholds_jump :
    (jumpRouter.kvBlocked 0 0 = true ↔ 1 ≤ kvGateBin (jumpRouter.groups 0).inflightBytes (1000 : ℚ)) ∧
      ((jumpRouter.learned.pSlotCap.all fun cap => decide ((jumpRouter.groups 0).nAtP < cap)) = true ↔
        pSlotBin (jumpRouter.groups 0).nAtP < 1) := by
  have hknee : jump.knee (0 : ℚ) 10 = some 1 := by decide +kernel
  have hkeys : ∀ b, (jump.seed.lookup b).isSome ∨ (jump.live.lookup b).isSome → b = 0 ∨ b = 1 := by
    have hall : ∀ b ∈ jump.seed.items.map (·.1) ++ jump.live.items.map (·.1), b = 0 ∨ b = 1 := by decide +kernel
    rintro b (hb | hb)
    · exact hall b (List.mem_append_left _ (Dict.mem_keys_items.mpr hb))
    · exact hall b (List.mem_append_right _ (Dict.mem_keys_items.mpr hb))
  have hbins : ∀ {bins : Set ℕ}, 0 ∈ bins → 1 ∈ bins → jump.Binned bins := by
    intro bins hzero hone
    refine ⟨fun b hb => ?_, fun b hb => ?_⟩
    · rcases hkeys b (.inl hb) with rfl | rfl <;> assumption
    · rcases hkeys b (.inr hb) with rfl | rfl <;> assumption
  have h := knee_thresholds jump hknee jumpRouter 0
  exact ⟨h.1 1000 (by norm_num) (hbins ⟨0, by decide +kernel⟩ ⟨150, by decide +kernel⟩) rfl rfl,
    h.2 (hbins ⟨0, rfl⟩ ⟨1, rfl⟩) rfl⟩

end KneeCounts
end CanaTune
