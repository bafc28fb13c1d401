import CanaTune.Router.State

/-! The slack risk against the risk it samples. A bucket is answered by the highest observed bucket at or below it,
    so a risk that does not grow with slack is never underestimated, and the safe slack is where the estimates
    turn from above the target to within it. -/

namespace CanaTune

/-! ### The Wilson bound -/

theorem sqrt_real (x : ℝ) : Scalar.sqrt x = Real.sqrt x := rfl

/-- The upper bound of a rate is not below the rate. -/
theorem le_wilsonUcb {k n : ℕ} (hn : 0 < n) (hk : k ≤ n) {z : ℝ} (hz : 0 ≤ z) : (k : ℝ) / n ≤ wilsonUcb k n z := by
  have hn' : (0 : ℝ) < n := by exact_mod_cast hn
  have hp0 : 0 ≤ (k : ℝ) / n := by positivity
  have hp1 : (k : ℝ) / n ≤ 1 := (div_le_one hn').mpr (by exact_mod_cast hk)
  rw [wilsonUcb, if_neg (by exact_mod_cast hn.ne')]
  simp only [Int.cast_natCast, sqrt_real]
  generalize (k : ℝ) / n = p at hp0 hp1
  rw [le_div_iff₀ (by positivity)]
  have hroot : z / n * (p - 1 / 2) ≤ Real.sqrt (p * (1 - p) / n + z * z / (4 * n * n)) := by
    refine (le_abs_self _).trans (Real.abs_le_sqrt ?_)
    have hvariance : 0 ≤ p * (1 - p) := mul_nonneg hp0 (sub_nonneg.mpr hp1)
    have hsplit : p * (1 - p) / n + z * z / (4 * n * n) - (z / n * (p - 1 / 2)) ^ 2
        = p * (1 - p) / n + z ^ 2 / n ^ 2 * (p * (1 - p)) := by
      field_simp
      ring
    have hrest : 0 ≤ p * (1 - p) / n + z ^ 2 / n ^ 2 * (p * (1 - p)) := by positivity
    linarith
  have hscaled := mul_le_mul_of_nonneg_left hroot hz
  have hlinear : p * (1 + z * z / n) = p + z * z / (2 * n) + z * (z / n * (p - 1 / 2)) := by
    field_simp
    ring
  linarith

theorem wilsonZ_nonneg {K : Type} [Scalar K] : (0 : K) ≤ wilsonZ := by
  unfold wilsonZ
  positivity

namespace SlackRisk
variable {K : Type} [Scalar K] {s : SlackRisk K}

theorem bucket_le (s : SlackRisk K) (x : K) : s.bucket x ≤ s.edges.length := List.countP_le_length

/-! ### What decides an estimate -/

/-- The bucket has enough samples to be judged by its own record. -/
def Observed (s : SlackRisk K) (b : ℕ) : Prop := s.minSamples ≤ (s.cell b).1

/-- The bound of a bucket's own record. -/
def ownBound (s : SlackRisk K) (b : ℕ) : K := wilsonUcb (s.cell b).2 (s.cell b).1 wilsonZ

omit [Scalar K] in
theorem mem_bucketsDown_of_cell {b : ℕ} (h : 0 < (s.cell b).1) : b ∈ s.bucketsDown := by
  rw [bucketsDown, (List.perm_insertionSort _ _).mem_iff, List.mem_dedup, List.mem_append, Dict.mem_keys_items,
    Dict.mem_keys_items]
  by_contra hb
  obtain ⟨hown, hseed⟩ := not_or.mp hb
  rw [cell, Option.not_isSome_iff_eq_none.mp hown, Option.not_isSome_iff_eq_none.mp hseed] at h
  exact absurd h (lt_irrefl _)

omit [Scalar K] in
theorem bucketsDown_sorted (s : SlackRisk K) : s.bucketsDown.Pairwise (· > ·) := by
  have hsorted := List.pairwise_insertionSort (fun a b : ℕ => a ≥ b)
    (s.counts.items.map (·.1) ++ s.seed.items.map (·.1)).dedup
  have hnodup : s.bucketsDown.Nodup := (List.perm_insertionSort _ _).nodup_iff.mpr (List.nodup_dedup _)
  exact hsorted.imp₂ (fun a b hge hne => lt_of_le_of_ne hge hne.symm) hnodup

omit [Scalar K] in
theorem mem_observed (hmin : 1 ≤ s.minSamples) {b : ℕ} :
    b ∈ s.bucketsDown.filter (fun b => s.minSamples ≤ (s.cell b).1) ↔ s.Observed b := by
  rw [List.mem_filter, decide_eq_true_eq]
  exact ⟨And.right, fun h => ⟨mem_bucketsDown_of_cell (hmin.trans h), h⟩⟩

omit [Scalar K] in
/-- The first observed bucket on the way down is the highest one. -/
theorem find_observed (hmin : 1 ≤ s.minSamples) (b : ℕ) :
    match (s.bucketsDown.filter (· < b)).find? fun c => s.minSamples ≤ (s.cell c).1 with
    | some c => s.Observed c ∧ c < b ∧ ∀ o < b, s.Observed o → o ≤ c
    | none => ∀ o < b, ¬s.Observed o := by
  have hsorted : (s.bucketsDown.filter (· < b)).Pairwise (· > ·) := s.bucketsDown_sorted.sublist List.filter_sublist
  have hmem : ∀ o < b, s.Observed o → o ∈ s.bucketsDown.filter (· < b) := fun o ho h =>
    List.mem_filter.mpr ⟨mem_bucketsDown_of_cell (hmin.trans h), by simpa using ho⟩
  split
  case h_1 c hc =>
    obtain ⟨hobserved, above, below, hsplit, habove⟩ := List.find?_eq_some_iff_append.mp hc
    have hcb : c ∈ s.bucketsDown.filter (· < b) := by rw [hsplit]; simp
    have hc' : s.minSamples ≤ (s.cell c).1 := of_decide_eq_true hobserved
    refine ⟨hc', by simpa using (List.mem_filter.mp hcb).2, fun o ho h => ?_⟩
    have hob := hmem o ho h
    rw [hsplit, List.mem_append, List.mem_cons] at hob
    rw [hsplit, List.pairwise_append, List.pairwise_cons] at hsorted
    rcases hob with hab | rfl | hbelow
    · have ho' : s.minSamples ≤ (s.cell o).1 := h
      simpa [ho'] using habove o hab
    · exact le_rfl
    · exact (hsorted.2.1.1 o hbelow).le
  case h_2 hnone =>
    rw [List.find?_eq_none] at hnone
    exact fun o ho h => hnone o (hmem o ho h) (decide_eq_true h)

/-- The bucket whose record bounds a bucket's risk under a threshold: itself, or the nearest one with less slack. -/
def deciding (s : SlackRisk K) (minSamples b : ℕ) : Option ℕ :=
  if minSamples ≤ (s.cell b).1 then some b
  else (s.bucketsDown.filter (· < b)).find? fun c => minSamples ≤ (s.cell c).1

/-- The bound of a record; without one the risk is unknown. -/
def bound (s : SlackRisk K) : Option ℕ → K
  | none => 1
  | some c => s.ownBound c

/-- The risk of a bucket. -/
def riskAt (s : SlackRisk K) (b : ℕ) : K := s.bound (s.deciding s.minSamples b)

theorem estimate_risk (s : SlackRisk K) (x : K) : (s.estimate x).risk = s.riskAt (s.bucket x) := by
  unfold estimate riskAt deciding
  dsimp only
  by_cases h : s.minSamples ≤ (s.cell (s.bucket x)).1
  · rw [if_pos h, if_pos h]
    rfl
  · rw [if_neg h, if_neg h]
    cases (s.bucketsDown.filter (· < s.bucket x)).find? fun c => decide (s.minSamples ≤ (s.cell c).1) <;> rfl

/-- The two ways an estimate comes about: the bound of the highest observed bucket that has no more slack, or 1. -/
inductive Estimated (s : SlackRisk K) (b : ℕ) : K → Prop
  | bound (c : ℕ) : s.Observed c → c ≤ b → (∀ o ≤ b, s.Observed o → o ≤ c) → Estimated s b (s.ownBound c)
  | unknown : (∀ o ≤ b, ¬s.Observed o) → Estimated s b 1

theorem Estimated.unique {b : ℕ} {x y : K} (hx : s.Estimated b x) (hy : s.Estimated b y) : x = y := by
  cases hx with
  | bound c hc hle hmax =>
    cases hy with
    | bound c' hc' hle' hmax' => rw [le_antisymm (hmax' c hle hc) (hmax c' hle' hc')]
    | unknown hnone => exact absurd hc (hnone c hle)
  | unknown hnone =>
    cases hy with
    | bound c hc hle => exact absurd hc (hnone c hle)
    | unknown => rfl

theorem estimated_riskAt (hmin : 1 ≤ s.minSamples) (b : ℕ) : s.Estimated b (s.riskAt b) := by
  unfold riskAt deciding
  split_ifs with hown
  · exact .bound b hown le_rfl fun o ho _ => ho
  have hlower := s.find_observed hmin b
  have hbelow : ∀ o ≤ b, s.Observed o → o < b := fun o ho h => lt_of_le_of_ne ho fun heq => hown (heq ▸ h)
  cases hfound : (s.bucketsDown.filter (· < b)).find? fun c => decide (s.minSamples ≤ (s.cell c).1) with
  | some c =>
    rw [hfound] at hlower
    obtain ⟨hc', hcb, hmax⟩ := hlower
    exact .bound c hc' hcb.le fun o ho h => hmax o (hbelow o ho h) h
  | none =>
    rw [hfound] at hlower
    exact .unknown fun o ho h => hlower o (hbelow o ho h) h

theorem estimated (hmin : 1 ≤ s.minSamples) (slack : K) : s.Estimated (s.bucket slack) (s.estimate slack).risk :=
  s.estimate_risk slack ▸ estimated_riskAt hmin _

/-- Every bucket's record, seed and own, is a sample of `r`. -/
def Samples (s : SlackRisk ℝ) (r : ℕ → ℝ) : Prop :=
  ∀ b, 0 < (s.cell b).1 → ((s.cell b).2 : ℝ) / (s.cell b).1 = r b

/-- The slack risk never underestimates a risk that does not grow with slack. -/
theorem estimate_ge (s : SlackRisk ℝ) (hmin : 1 ≤ s.minSamples) (r : ℕ → ℝ) (hunit : ∀ b, 0 ≤ r b ∧ r b ≤ 1)
    (hanti : Antitone r) (hr : s.Samples r) (slack : ℝ) : r (s.bucket slack) ≤ (s.estimate slack).risk := by
  have h := s.estimated hmin slack
  generalize (s.estimate slack).risk = risk at h ⊢
  cases h with
  | bound c hobserved hle _ =>
    have hn : 0 < (s.cell c).1 := hmin.trans hobserved
    have hn' : (0 : ℝ) < (s.cell c).1 := by exact_mod_cast hn
    have hrate := hr c hn
    have hk : (s.cell c).2 ≤ (s.cell c).1 := by
      have hone : ((s.cell c).2 : ℝ) / (s.cell c).1 ≤ 1 := hrate ▸ (hunit c).2
      exact_mod_cast (div_le_one hn').mp hone
    calc r (s.bucket slack) ≤ r c := hanti hle
      _ = ((s.cell c).2 : ℝ) / (s.cell c).1 := hrate.symm
      _ ≤ s.ownBound c := le_wilsonUcb hn hk wilsonZ_nonneg
  | unknown => exact (hunit _).2

/-- One of two requests violated below the edge; nothing is known above it. -/
noncomputable def halfBelow : SlackRisk ℝ := ⟨[0], 1, Dict.ofList [(0, (2, 1))], ∅⟩

/-- The bucket above the edge is judged by the one below. -/
theorem estimate_ge_halfBelow : (1 / 4 : ℝ) ≤ (halfBelow.estimate 1).risk := by
  have hr : halfBelow.Samples fun b => if b = 0 then 1 / 2 else 1 / 4 := by
    intro b hb
    rcases b.eq_zero_or_pos with rfl | hpos
    · have hcell : halfBelow.cell 0 = (2, 1) := rfl
      norm_num [hcell]
    · have hnone : halfBelow.counts.lookup b = none := AList.lookup_insert_ne hpos.ne'
      rw [cell, hnone] at hb
      exact absurd hb (lt_irrefl _)
  have hanti : Antitone fun b : ℕ => if b = 0 then (1 / 2 : ℝ) else 1 / 4 := by
    intro a b hab
    dsimp only
    split_ifs with hb ha
    · exact le_rfl
    · omega
    · norm_num
    · exact le_rfl
  have h := estimate_ge halfBelow le_rfl _ (fun b => by split_ifs <;> norm_num) hanti hr 1
  have hbucket : halfBelow.bucket 1 = 1 := by simp [bucket, halfBelow]
  rw [hbucket] at h
  exact h

/-! ### The safe slack -/

theorem lowestSafe_spec {target : K} {b : ℕ} : ∀ {l : List ℕ} {safe : Option ℕ}, l.Pairwise (· > ·) →
    s.lowestSafe target l safe = some b →
    (safe = some b ∧ ∀ c ∈ l, (∀ o ∈ l, o ≤ c) → target < s.ownBound c) ∨
      (b ∈ l ∧ (∀ c ∈ l, b ≤ c → s.ownBound c ≤ target) ∧
        ∀ c ∈ l, c < b → (∀ o ∈ l, o < b → o ≤ c) → target < s.ownBound c) := by
  intro l
  induction l with
  | nil => exact fun _ h => .inl ⟨h, by simp⟩
  | cons a l ih =>
    intro safe hl h
    obtain ⟨habove, hl⟩ := List.pairwise_cons.mp hl
    rw [lowestSafe] at h
    split_ifs at h with hunsafe
    · refine .inl ⟨h, fun c hc hmax => ?_⟩
      have hac := hmax a List.mem_cons_self
      rcases List.mem_cons.mp hc with rfl | hc
      · exact hunsafe
      · exact absurd hac (habove c hc).not_ge
    -- The bucket is safe, and the search goes on below it.
    have hsafe : s.ownBound a ≤ target := not_lt.mp hunsafe
    rcases ih hl h with ⟨hab, hnext⟩ | ⟨hb, hupper, hnext⟩
    · obtain rfl : a = b := Option.some.inj hab
      refine .inr ⟨List.mem_cons_self, fun c hc hle => ?_, fun c hc hlt hmax => ?_⟩
      · rcases List.mem_cons.mp hc with rfl | hc
        · exact hsafe
        · exact absurd hle (habove c hc).not_ge
      · have hc' : c ∈ l := (List.mem_cons.mp hc).resolve_left hlt.ne
        exact hnext c hc' fun o ho => hmax o (List.mem_cons_of_mem a ho) (habove o ho)
    · refine .inr ⟨List.mem_cons_of_mem a hb, fun c hc hle => ?_, fun c hc hlt hmax => ?_⟩
      · rcases List.mem_cons.mp hc with rfl | hc
        · exact hsafe
        · exact hupper c hc hle
      · have hc' : c ∈ l := (List.mem_cons.mp hc).resolve_left (hlt.trans (habove b hb)).ne
        exact hnext c hc' hlt fun o ho => hmax o (List.mem_cons_of_mem a ho)

/-- The safe slack is the lower edge of an observed bucket: it and every observed bucket above are within the target,
    and the next observed bucket below is not. -/
theorem safeSlack_eq_some (hmin : 1 ≤ s.minSamples) {target e : K} (h : s.safeSlack target = some e) :
    ∃ b, s.edges[b]? = some e ∧ s.Observed (b + 1) ∧ (∀ o, s.Observed o → b + 1 ≤ o → s.ownBound o ≤ target) ∧
      ∀ o, s.Observed o → o < b + 1 → (∀ o', s.Observed o' → o' < b + 1 → o' ≤ o) → target < s.ownBound o := by
  have hmem := fun b => s.mem_observed hmin (b := b)
  have hsorted : (s.bucketsDown.filter fun b => s.minSamples ≤ (s.cell b).1).Pairwise (· > ·) :=
    s.bucketsDown_sorted.sublist List.filter_sublist
  unfold safeSlack at h
  split at h
  · cases h
  · cases h
  case h_3 b hb =>
    rcases lowestSafe_spec hsorted hb with ⟨hnone, -⟩ | ⟨hobserved, hupper, hnext⟩
    · cases hnone
    simp only [hmem] at hobserved hupper hnext
    exact ⟨b, h, hobserved, hupper, hnext⟩

/-- A slack at or above the edge is in its bucket or a higher one. -/
theorem lt_bucket (hedges : s.edges.Pairwise (· < ·)) {b : ℕ} {e slack : K} (he : s.edges[b]? = some e)
    (h : e ≤ slack) : b < s.bucket slack := by
  obtain ⟨hb, rfl⟩ := List.getElem?_eq_some_iff.mp he
  have hreached : (s.edges.take (b + 1)).countP (· ≤ slack) = (s.edges.take (b + 1)).length := by
    rw [List.countP_eq_length]
    intro x hx
    obtain ⟨i, hi, rfl⟩ := List.mem_iff_getElem.mp hx
    rw [List.length_take] at hi
    rw [List.getElem_take, decide_eq_true_eq]
    refine le_trans ?_ h
    rcases (Nat.lt_succ_iff.mp (lt_min_iff.mp hi).1).eq_or_lt with rfl | hlt
    · exact le_rfl
    · exact (List.pairwise_iff_getElem.mp hedges _ _ _ _ hlt).le
  have hsub := (List.take_sublist (b + 1) s.edges).countP_le (p := (· ≤ slack))
  rw [hreached, List.length_take, min_eq_left hb] at hsub
  exact hsub

/-- A slack below the edge, and below no lower edge, is in the bucket directly below. -/
theorem bucket_below (hedges : s.edges.Pairwise (· < ·)) {b : ℕ} {e slack : K} (he : s.edges[b]? = some e)
    (h : slack < e) (hlower : ∀ e' ∈ s.edges, e' < e → e' ≤ slack) : s.bucket slack = b := by
  obtain ⟨hb, rfl⟩ := List.getElem?_eq_some_iff.mp he
  have hreached : (s.edges.take b).countP (· ≤ slack) = b := by
    have hlength : (s.edges.take b).length = b := by rw [List.length_take, min_eq_left hb.le]
    rw [List.countP_eq_length.mpr, hlength]
    intro x hx
    rw [decide_eq_true_eq]
    refine hlower x (List.mem_of_mem_take hx) ?_
    obtain ⟨i, hi, rfl⟩ := List.mem_iff_getElem.mp hx
    rw [hlength] at hi
    rw [List.getElem_take]
    exact List.pairwise_iff_getElem.mp hedges _ _ _ _ hi
  have hbeyond : (s.edges.drop b).countP (· ≤ slack) = 0 := by
    rw [List.countP_eq_zero]
    intro x hx
    obtain ⟨i, hi, rfl⟩ := List.mem_iff_getElem.mp hx
    rw [List.getElem_drop, decide_eq_true_eq, not_le]
    refine h.trans_le ?_
    rcases Nat.eq_zero_or_pos i with rfl | hpos
    · exact le_rfl
    · exact (List.pairwise_iff_getElem.mp hedges _ _ _ _ (Nat.lt_add_of_pos_right hpos)).le
  rw [bucket, ← List.take_append_drop b s.edges, List.countP_append, hreached, hbeyond, add_zero]

/-- The safe slack is the threshold of the estimates: from it on every estimate is within the target, in the bucket
    directly below none is; and so is every slack that the Router's backfill margin leaves. -/
theorem safeSlack_threshold (s : SlackRisk K) (hmin : 1 ≤ s.minSamples) (hedges : s.edges.Pairwise (· < ·)) {t : K}
    (hone : t < 1) {e : K} (he : s.safeSlack t = some e) :
    (∀ slack, e ≤ slack → (s.estimate slack).risk ≤ t) ∧
      (∀ slack < e, (∀ e' ∈ s.edges, e' < e → e' ≤ slack) → t < (s.estimate slack).risk) ∧
      ∀ {n : ℕ} (r : Router K n), r.learned.slack = s → r.settings.backfillSlackMs = none →
        r.settings.theta / 2 = t → ∀ slack, r.backfillSlackMs ≤ slack → (s.estimate slack).risk ≤ t := by
  obtain ⟨b, hb, hobserved, hupper, hnext⟩ := safeSlack_eq_some hmin he
  have habove : ∀ slack, e ≤ slack → (s.estimate slack).risk ≤ t := by
    intro slack hslack
    have hbucket := lt_bucket hedges hb hslack
    have h := s.estimated hmin slack
    generalize (s.estimate slack).risk = risk at h ⊢
    cases h with
    | bound c hc hle hmax => exact hupper c hc (hmax _ hbucket hobserved)
    | unknown hnone => exact absurd hobserved (hnone _ hbucket)
  refine ⟨habove, fun slack hslack hlower => ?_, fun r hr hauto htheta slack hslack => habove slack ?_⟩
  · have hbucket := bucket_below hedges hb hslack hlower
    have h := s.estimated hmin slack
    rw [hbucket] at h
    generalize (s.estimate slack).risk = risk at h ⊢
    cases h with
    | bound c hc hle hmax =>
      exact hnext c hc (Nat.lt_succ_of_le hle) fun o ho hlt => hmax o (Nat.le_of_lt_succ hlt) ho
    | unknown => exact hone
  · rw [Router.backfillSlackMs, hauto, hr, htheta, he] at hslack
    exact (le_max_right _ _).trans hslack

/-- Every request violated below the first edge, none between the edges, and nothing is known above. -/
def safeMiddle : SlackRisk ℚ := ⟨[0, 100], 1, Dict.ofList [(0, (4, 4)), (1, (20, 0))], ∅⟩

theorem safeSlack_threshold_safeMiddle :
    (safeMiddle.estimate 500).risk ≤ 1 / 2 ∧ 1 / 2 < (safeMiddle.estimate (-1)).risk := by
  have h := safeSlack_threshold safeMiddle le_rfl (by simp [safeMiddle]) (t := 1 / 2) (by norm_num) (e := 0)
    (by decide +kernel)
  exact ⟨h.1 500 (by norm_num), h.2.1 (-1) (by norm_num) (by simp [safeMiddle])⟩

end SlackRisk
end CanaTune
