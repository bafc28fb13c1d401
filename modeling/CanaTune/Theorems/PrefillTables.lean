import CanaTune.Controller.Locator
import CanaTune.Theorems.PrefillCost

/-! The prefill tables of a locator run. What is left contradicting after the second measurement takes the envelope
    of the lower clocks, so no two tables contradict each other in the end, and the nearest clock at or below an
    unmeasured one is conservative up to `eps`. -/

namespace CanaTune
variable {K : Type} [Scalar K]

/-- The times of a table are times. -/
def NonNeg (t : Dict ℕ K) : Prop := ∀ L ms, t.lookup L = some ms → 0 ≤ ms

theorem medians_nonneg {samples : List (ℕ × K)} (h : ∀ e ∈ samples, 0 ≤ e.2) : NonNeg (medians samples) := by
  have hfold : ∀ (l : List (ℕ × K)) (d : Dict ℕ (List K)), (∀ e ∈ l, 0 ≤ e.2) →
      (∀ L v, d.lookup L = some v → ∀ x ∈ v, 0 ≤ x) → ∀ L v,
      (l.foldl (fun d e => d.insert e.1 ((d.lookup e.1).getD [] ++ [e.2])) d).lookup L = some v → ∀ x ∈ v, 0 ≤ x := by
    intro l
    induction l with
    | nil => exact fun d _ hd => hd
    | cons e l ih =>
      intro d hl hd
      refine ih _ (fun a ha => hl a (List.mem_cons_of_mem e ha)) fun L v hv x hx => ?_
      by_cases hL : L = e.1
      · subst hL
        rw [AList.lookup_insert, Option.some.injEq] at hv
        subst hv
        rcases List.mem_append.mp hx with hx | hx
        · cases hold : d.lookup e.1 with
          | none => simp [hold] at hx
          | some w => exact hd e.1 w hold x (by simpa [hold] using hx)
        · rw [List.mem_singleton.mp hx]
          exact hl e List.mem_cons_self
      · rw [AList.lookup_insert_ne hL] at hv
        exact hd L v hv x hx
  intro L ms hms
  rw [medians, Dict.lookup_mapValues, Option.map_eq_some_iff] at hms
  obtain ⟨v, hv, rfl⟩ := hms
  have hv' := hfold samples ∅ h (fun L v hv => by simp at hv) L v hv
  rw [List.getD_eq_getElem?_getD]
  cases hget : (v.insertionSort (· ≤ ·))[v.length / 2]? with
  | none => exact le_rfl
  | some x => exact hv' x ((List.perm_insertionSort _ _).mem_iff.mp (List.mem_of_getElem? hget))

namespace Locator

/-! ### Conflicts -/

/-- No two tables contradict each other. -/
def Consistent (eps : K) (tables : Dict ℕ (Dict ℕ K)) : Prop :=
  ∀ f f' t t', f < f' → tables.lookup f = some t → tables.lookup f' = some t' → contradicts eps t t' = false

theorem conflictsFrom_eq_nil {eps : K} {l : List (ℕ × Dict ℕ K)} :
    conflictsFrom eps l = [] ↔ l.Pairwise fun lo hi => contradicts eps lo.2 hi.2 = false := by
  induction l with
  | nil => simp [conflictsFrom]
  | cons lo above ih =>
    rw [conflictsFrom, List.append_eq_nil_iff, List.pairwise_cons, ih, List.flatMap_eq_nil_iff]
    refine and_congr_left fun _ => ⟨fun h hi hmem => ?_, fun h hi hmem => ?_⟩
    · by_contra hc
      rw [Bool.not_eq_false] at hc
      exact List.cons_ne_nil _ _ (h hi (List.mem_filter.mpr ⟨hmem, hc⟩))
    · obtain ⟨hmem, hc⟩ := List.mem_filter.mp hmem
      rw [h hi hmem] at hc
      cases hc

theorem tableConflicts_eq_nil {eps : K} {tables : Dict ℕ (Dict ℕ K)} :
    tableConflicts tables eps = [] ↔ Consistent eps tables := by
  have hnil : tableConflicts tables eps = [] ↔ conflictsFrom eps tables.sorted = [] := by
    rw [tableConflicts, ← List.length_eq_zero_iff, List.length_insertionSort, List.length_eq_zero_iff,
      List.dedup_eq_nil]
  rw [hnil, conflictsFrom_eq_nil]
  constructor
  · intro h f f' t t' hlt ht ht'
    have hmem := Dict.mem_sorted.mpr (Dict.mem_items.mpr ht)
    have hmem' := Dict.mem_sorted.mpr (Dict.mem_items.mpr ht')
    exact Dict.rel_of_lt tables.sorted_lt h hmem hmem' hlt
  · intro h
    refine tables.sorted_lt.imp_of_mem fun {a b} ha hb hlt => ?_
    exact h a.1 b.1 a.2 b.2 hlt (Dict.mem_items.mp (Dict.mem_sorted.mp ha)) (Dict.mem_items.mp (Dict.mem_sorted.mp hb))

theorem contradicts_eq_false {eps : K} {lo hi : Dict ℕ K} : contradicts eps lo hi = false ↔
    ∀ L ms v, hi.lookup L = some ms → lo.lookup L = some v → ms ≤ (1 + eps) * v := by
  rw [← Bool.not_eq_true, contradicts, List.any_eq_true]
  constructor
  · intro h L ms v hms hv
    by_contra hlt
    exact h ⟨(L, ms), Dict.mem_items.mpr hms, by simpa [hv] using not_le.mp hlt⟩
  · rintro h ⟨⟨L, ms⟩, hmem, hany⟩
    obtain ⟨v, hv, hlt⟩ := Option.any_eq_true _ _ |>.mp hany
    exact (of_decide_eq_true hlt).not_ge (h L ms v (Dict.mem_items.mp hmem) hv)

/-! ### The envelope -/

/-- The same lengths, with no time raised. -/
def Lowered (t t' : Dict ℕ K) : Prop := t.Rel (fun a b => b ≤ a) t'

/-- Nowhere above the lower clock's table. -/
def Under (lo t : Dict ℕ K) : Prop := ∀ L ms v, t.lookup L = some ms → lo.lookup L = some v → ms ≤ v

theorem Lowered.refl (t : Dict ℕ K) : Lowered t t := fun L => by
  cases t.lookup L with
  | none => exact .none
  | some ms => exact .some le_rfl

theorem Lowered.trans {t u v : Dict ℕ K} (h : Lowered t u) (h' : Lowered u v) : Lowered t v := fun L => by
  have hL := h L
  have hL' := h' L
  generalize t.lookup L = a, u.lookup L = b, v.lookup L = c at hL hL' ⊢
  cases hL with
  | none => exact hL'
  | some hab =>
    cases hL' with
    | some hbc => exact .some (hbc.trans hab)

theorem Lowered.under {lo t t' : Dict ℕ K} (h : Lowered t t') (hu : Under lo t) : Under lo t' := by
  intro L ms v hms hv
  have hL := h L
  rw [hms] at hL
  generalize ht : t.lookup L = a at hL
  cases hL with
  | some hle => exact hle.trans (hu L _ v ht hv)

theorem lowered_lowerTo (t lo : Dict ℕ K) : Lowered t (lowerTo t lo) := fun L => by
  rw [lowerTo, Dict.lookup_mapValues]
  cases t.lookup L with
  | none => exact .none
  | some ms =>
    cases lo.lookup L with
    | none => exact .some le_rfl
    | some v => exact .some (min_le_left ms v)

theorem under_lowerTo (t lo : Dict ℕ K) : Under lo (lowerTo t lo) := by
  intro L ms v hms hv
  rw [lowerTo, Dict.lookup_mapValues, Option.map_eq_some_iff] at hms
  obtain ⟨w, -, rfl⟩ := hms
  rw [hv]
  exact min_le_right w v

theorem nonneg_lowerTo {t lo : Dict ℕ K} (ht : NonNeg t) (hlo : NonNeg lo) : NonNeg (lowerTo t lo) := by
  intro L ms hms
  rw [lowerTo, Dict.lookup_mapValues, Option.map_eq_some_iff] at hms
  obtain ⟨w, hw, rfl⟩ := hms
  cases hv : lo.lookup L with
  | none => exact ht L w hw
  | some v => exact le_min (ht L w hw) (hlo L v hv)

theorem foldl_lowerTo (lower : List (Dict ℕ K)) (t : Dict ℕ K) :
    Lowered t (lower.foldl lowerTo t) ∧ ∀ lo ∈ lower, Under lo (lower.foldl lowerTo t) := by
  induction lower generalizing t with
  | nil => exact ⟨.refl t, by simp⟩
  | cons lo lower ih =>
    obtain ⟨hlow, hunder⟩ := ih (lowerTo t lo)
    refine ⟨(lowered_lowerTo t lo).trans hlow, fun lo' hmem => ?_⟩
    rcases List.mem_cons.mp hmem with rfl | hmem
    · exact hlow.under (under_lowerTo t lo')
    · exact hunder lo' hmem

theorem foldl_lowerTo_nonneg {lower : List (Dict ℕ K)} {t : Dict ℕ K} (ht : NonNeg t) (hlower : ∀ lo ∈ lower, NonNeg lo) :
    NonNeg (lower.foldl lowerTo t) := by
  induction lower generalizing t with
  | nil => exact ht
  | cons lo lower ih =>
    exact ih (nonneg_lowerTo ht (hlower lo List.mem_cons_self)) fun lo' h => hlower lo' (List.mem_cons_of_mem lo h)

/-- The running minimum: every table under all lower ones, those of `lower` and those before it. -/
theorem envelopeFrom_spec (lower : List (Dict ℕ K)) (l : List (ℕ × Dict ℕ K)) :
    List.Forall₂ (fun a b => a.1 = b.1 ∧ Lowered a.2 b.2) l (envelopeFrom lower l) ∧
      (∀ lo ∈ lower, ∀ b ∈ envelopeFrom lower l, Under lo b.2) ∧
      (envelopeFrom lower l).Pairwise fun a b => Under a.2 b.2 := by
  induction l generalizing lower with
  | nil => exact ⟨.nil, by simp [envelopeFrom], .nil⟩
  | cons a above ih =>
    obtain ⟨f, t⟩ := a
    obtain ⟨hlow, hunder⟩ := foldl_lowerTo lower t
    obtain ⟨hrel, hall, hpair⟩ := ih (lower ++ [lower.foldl lowerTo t])
    refine ⟨.cons ⟨rfl, hlow⟩ hrel, fun lo hlo b hb => ?_, .cons (fun b hb => hall _ (by simp) b hb) hpair⟩
    rcases List.mem_cons.mp hb with rfl | hb
    · exact hunder lo hlo
    · exact hall lo (List.mem_append_left _ hlo) b hb

theorem envelopeFrom_nonneg {lower : List (Dict ℕ K)} {l : List (ℕ × Dict ℕ K)} (hlower : ∀ lo ∈ lower, NonNeg lo)
    (hl : ∀ a ∈ l, NonNeg a.2) : ∀ b ∈ envelopeFrom lower l, NonNeg b.2 := by
  induction l generalizing lower with
  | nil => simp [envelopeFrom]
  | cons a above ih =>
    obtain ⟨f, t⟩ := a
    have ht := foldl_lowerTo_nonneg (hl _ List.mem_cons_self) hlower
    intro b hb
    rcases List.mem_cons.mp hb with rfl | hb
    · exact ht
    · have hlower' : ∀ lo ∈ lower ++ [lower.foldl lowerTo t], NonNeg lo := fun lo hlo => ?_
      · exact ih hlower' (fun c hc => hl c (List.mem_cons_of_mem _ hc)) b hb
      rcases List.mem_append.mp hlo with hlo | hlo
      · exact hlower lo hlo
      · rw [List.mem_singleton.mp hlo]
        exact ht

section Envelope
variable (tables : Dict ℕ (Dict ℕ K))

theorem envelopeFrom_keys : (envelopeFrom [] tables.sorted).map (·.1) = tables.sorted.map (·.1) := by
  have h := (envelopeFrom_spec [] tables.sorted).1
  generalize envelopeFrom [] tables.sorted = m at h ⊢
  generalize tables.sorted = l at h ⊢
  induction h with
  | nil => rfl
  | cons hab _ ih => rw [List.map_cons, List.map_cons, hab.1, ih]

theorem lookup_envelope {f : ℕ} {t : Dict ℕ K} :
    (envelope tables).lookup f = some t ↔ (f, t) ∈ envelopeFrom [] tables.sorted :=
  Dict.lookup_ofList (by rw [envelopeFrom_keys]; exact tables.nodup_sorted)

/-- The envelope raises no entry. -/
theorem lowered_envelope : tables.Rel Lowered (envelope tables) := by
  have h := Dict.rel_ofList tables.nodup_sorted (envelopeFrom_spec [] tables.sorted).1 (List.Perm.refl _)
  intro f
  rw [← Dict.lookup_ofList_sorted tables f]
  exact h f

/-- The envelope leaves the lowest clock's table unchanged. -/
theorem lookup_envelope_lowest {f : ℕ} {t : Dict ℕ K} (ht : tables.lookup f = some t)
    (hlowest : ∀ f', (tables.lookup f').isSome → f ≤ f') : (envelope tables).lookup f = some t := by
  rw [lookup_envelope]
  have hmem := Dict.mem_sorted.mpr (Dict.mem_items.mpr ht)
  have hsorted := tables.sorted_lt
  have hall : ∀ e ∈ tables.sorted, f ≤ e.1 := fun e he =>
    hlowest e.1 (Dict.mem_keys_items.mp (List.mem_map_of_mem (Dict.mem_sorted.mp he)))
  generalize tables.sorted = l at hmem hsorted hall
  cases l with
  | nil => simp at hmem
  | cons a above =>
    rcases List.mem_cons.mp hmem with rfl | hmem
    · exact List.mem_cons_self
    · have hlt := (List.pairwise_cons.mp hsorted).1 _ hmem
      exact absurd (hall a List.mem_cons_self) hlt.not_ge

/-- No table of the envelope is anywhere above a lower clock's. -/
theorem under_envelope {f f' : ℕ} {t t' : Dict ℕ K} (hlt : f < f') (ht : (envelope tables).lookup f = some t)
    (ht' : (envelope tables).lookup f' = some t') : Under t t' := by
  rw [lookup_envelope] at ht ht'
  have hpair := (envelopeFrom_spec [] tables.sorted).2.2
  have hkeys : (envelopeFrom [] tables.sorted).Pairwise fun a b => a.1 < b.1 := by
    have h := List.pairwise_map.mpr tables.sorted_lt
    rw [← envelopeFrom_keys] at h
    exact List.pairwise_map.mp h
  exact Dict.rel_of_lt hkeys hpair ht ht' hlt

variable {tables}

theorem envelope_nonneg (h : ∀ f t, tables.lookup f = some t → NonNeg t) {f : ℕ} {t : Dict ℕ K}
    (ht : (envelope tables).lookup f = some t) : NonNeg t :=
  envelopeFrom_nonneg (by simp) (fun a ha => h a.1 a.2 (Dict.mem_items.mp (Dict.mem_sorted.mp ha))) _
    ((lookup_envelope tables).mp ht)

/-- With times that are not negative the envelope is consistent for every margin. -/
theorem consistent_envelope {eps : K} (heps : 0 ≤ eps) (h : ∀ f t, tables.lookup f = some t → NonNeg t) :
    Consistent eps (envelope tables) := by
  intro f f' t t' hlt ht ht'
  rw [contradicts_eq_false]
  intro L ms v hms hv
  have hv0 := envelope_nonneg h ht L v hv
  calc ms ≤ v := under_envelope tables hlt ht ht' L ms v hms hv
    _ ≤ (1 + eps) * v := le_mul_of_one_le_left hv0 (le_add_of_nonneg_right heps)

end Envelope

/-! ### A run -/

/-- The tables hold times. -/
def Timed (l : Locator K) : Prop := ∀ f t, l.evidence.prefillMsByClock.lookup f = some t → NonNeg t

/-- The backend measures times. -/
def MeasuresTimes (backend : Backend K) : Prop :=
  ∀ clock lengths m, backend clock lengths = .ok m → ∀ s ∈ m.result, 0 ≤ s.ms

theorem prefillTable_timed {l l' : Locator K} {clock : ClockPoint} {prompts : List ℕ} {idle : Bool} {backend : Backend K}
    (hbackend : MeasuresTimes backend) (hl : l.Timed) (h : l.prefillTable clock prompts true idle backend = .ok l') :
    l'.Timed ∧ l'.settings = l.settings := by
  obtain ⟨lengths, hlengths, h⟩ := bind_eq_ok.mp h
  obtain ⟨⟨samples, l₁⟩, hcached, h⟩ := bind_eq_ok.mp h
  obtain rfl := Except.ok.inj h
  -- The entry was dropped, so the measurement is made.
  rw [cached, if_pos rfl, AList.lookup_erase, Option.filter_none] at hcached
  obtain ⟨m, hm, hcached⟩ := bind_eq_ok.mp hcached
  obtain ⟨rfl, rfl⟩ := Prod.mk.inj (Except.ok.inj hcached)
  have htable : NonNeg (medians (m.result.map fun s => (s.tokens, s.ms))) := by
    refine medians_nonneg fun e he => ?_
    obtain ⟨s, hs, rfl⟩ := List.mem_map.mp he
    exact hbackend _ _ m hm s hs
  refine ⟨fun f t ht => ?_, rfl⟩
  have hinsert : (l.evidence.prefillMsByClock.insert clock.prefillMhz
      (medians (m.result.map fun s => (s.tokens, s.ms)))).lookup f = some t := by
    cases idle <;> exact ht
  by_cases hf : f = clock.prefillMhz
  · rw [hf, AList.lookup_insert, Option.some.injEq] at hinsert
    exact hinsert ▸ htable
  · rw [AList.lookup_insert_ne hf] at hinsert
    exact hl f t hinsert

theorem remeasure_timed {top : ClockPoint} {prompts : List ℕ} {backend : Backend K} (hbackend : MeasuresTimes backend)
    {bad : List ℕ} : ∀ {l l' : Locator K}, l.Timed →
      bad.foldlM (fun l f =>
        let clock := if f = top.prefillMhz then top else ⟨f, top.decodeMhz⟩
        l.prefillTable clock prompts true (decide (clock = top)) backend) l = .ok l' →
      l'.Timed ∧ l'.settings = l.settings := by
  induction bad with
  | nil =>
    intro l l' hl h
    obtain rfl := Except.ok.inj h
    exact ⟨hl, rfl⟩
  | cons f bad ih =>
    intro l l' hl h
    rw [List.foldlM_cons] at h
    obtain ⟨l₁, h₁, h⟩ := bind_eq_ok.mp h
    obtain ⟨ht, hs⟩ := prefillTable_timed hbackend hl h₁
    obtain ⟨ht', hs'⟩ := ih ht h
    exact ⟨ht', hs'.trans hs⟩

/-- What the run ends with is consistent, and its times are times. -/
theorem consistentTables_spec {l l' : Locator K} {top : ClockPoint} {prompts : List ℕ} {backend : Backend K}
    (heps : 0 ≤ l.settings.eps) (hbackend : MeasuresTimes backend) (hl : l.Timed)
    (h : l.consistentTables top prompts backend = .ok l') :
    l'.Timed ∧ Consistent l.settings.eps l'.evidence.prefillMsByClock := by
  obtain ⟨l₁, h₁, h⟩ := bind_eq_ok.mp h
  obtain ⟨ht, hs⟩ := remeasure_timed hbackend hl h₁
  obtain rfl := Except.ok.inj h
  by_cases hleft : tableConflicts l₁.evidence.prefillMsByClock l₁.settings.eps = []
  · have hconsistent := tableConflicts_eq_nil.mp hleft
    rw [hs] at hconsistent
    constructor
    · simpa only [Timed, if_pos hleft] using ht
    · simpa only [if_pos hleft] using hconsistent
  · constructor
    · simpa only [Timed, if_neg hleft] using fun f t => envelope_nonneg ht
    · simpa only [if_neg hleft] using consistent_envelope heps ht

end Locator

/-! ### Unmeasured clocks -/

namespace CostBook

theorem nearest_isSome {keys : List ℕ} (h : keys ≠ []) (f : ℕ) : ∃ k ∈ keys, nearest keys (some f) = some k := by
  unfold nearest
  dsimp only
  split
  case h_1 k hk => exact ⟨k, (List.mem_filter.mp (List.max?_eq_some_iff.mp hk).1).1, rfl⟩
  case h_2 =>
    cases hmin : keys.min? with
    | none => exact absurd (List.min?_eq_none_iff.mp hmin) h
    | some k => exact ⟨k, (List.min?_eq_some_iff.mp hmin).1, rfl⟩

/-- A higher clock is stood for by a clock at least as high. -/
theorem nearest_mono {keys : List ℕ} {f f' k k' : ℕ} (hle : f ≤ f') (h : nearest keys (some f) = some k)
    (h' : nearest keys (some f') = some k') : k ≤ k' := by
  have hmem : k' ∈ keys := by
    have hne : keys ≠ [] := by
      rintro rfl
      simp [nearest] at h'
    obtain ⟨k'', hmem, hk⟩ := nearest_isSome hne f'
    rw [h', Option.some.injEq] at hk
    exact hk ▸ hmem
  unfold nearest at h h'
  dsimp only at h h'
  split at h
  case h_1 m hm =>
    obtain rfl := Option.some.inj h
    obtain ⟨hmf, -⟩ := List.max?_eq_some_iff.mp hm
    obtain ⟨hm, hmf⟩ := List.mem_filter.mp hmf
    have hmem' : m ∈ keys.filter (· ≤ f') :=
      List.mem_filter.mpr ⟨hm, decide_eq_true ((of_decide_eq_true hmf).trans hle)⟩
    split at h'
    case h_1 m' hm' =>
      obtain rfl := Option.some.inj h'
      exact (List.max?_eq_some_iff.mp hm').2 m hmem'
    case h_2 hnone =>
      rw [List.max?_eq_none_iff] at hnone
      simp [hnone] at hmem'
  case h_2 => exact (List.min?_eq_some_iff.mp h).2 k' hmem

/-- Tables of one set of lengths compare as their entries do. -/
theorem below_of_entries {p q : List (ℕ × K)} (hkeys : p.map (·.1) = q.map (·.1))
    (h : ∀ a ∈ p, ∀ b ∈ q, a.1 = b.1 → a.2 ≤ b.2) :
    PrefillCost.Below p q := by
  induction p generalizing q with
  | nil =>
    rw [List.map_nil, eq_comm, List.map_eq_nil_iff] at hkeys
    subst hkeys
    exact .nil
  | cons a p ih =>
    cases q with
    | nil => simp at hkeys
    | cons b q =>
      obtain ⟨hab, hrest⟩ := List.cons.inj hkeys
      refine .cons ⟨hab, h a List.mem_cons_self b List.mem_cons_self hab⟩ (ih hrest fun a' ha' b' hb' => ?_)
      exact h a' (List.mem_cons_of_mem a ha') b' (List.mem_cons_of_mem b hb')

section
variable {eps : K} {tables : Dict ℕ (Dict ℕ K)} {lengths : List ℕ} (heps : 0 ≤ eps)
  (htimed : ∀ f t, tables.lookup f = some t → NonNeg t) (hconsistent : Locator.Consistent eps tables)
  (htwo : 2 ≤ lengths.length) (hlengths : ∀ f t, tables.lookup f = some t → t.sorted.map (·.1) = lengths)
include htwo hlengths

omit [Scalar K] in
/-- With two or more lengths every table counts. -/
theorem forClock_eq (f : ℕ) : (tables.items = [] ∧ (ofTables tables).forClock (some f) = .empty) ∨
    ∃ k t, nearest ((ofTables tables).costs.items.map (·.1)) (some f) = some k ∧ tables.lookup k = some t ∧
      (ofTables tables).forClock (some f) = .ofTable t := by
  have hlookup : ∀ k, (ofTables tables).costs.lookup k = (tables.lookup k).map .ofTable := by
    intro k
    rw [lookup_ofTables]
    cases ht : tables.lookup k with
    | none => rfl
    | some t =>
      have hlength : 2 ≤ t.items.length := by
        have hsame := congrArg List.length (hlengths k t ht)
        rw [List.length_map, Dict.sorted, List.length_insertionSort] at hsame
        exact hsame ▸ htwo
      rw [Option.filter_some, if_pos (decide_eq_true hlength)]
  by_cases hkeys : (ofTables tables).costs.items.map (·.1) = []
  · refine .inl ⟨Dict.items_eq_nil.mpr fun k => ?_, ?_⟩
    · have hnone := Dict.items_eq_nil.mp (List.map_eq_nil_iff.mp hkeys) k
      rwa [hlookup, Option.map_eq_none_iff] at hnone
    · rw [forClock, hkeys]
      rfl
  · obtain ⟨k, hmem, hk⟩ := nearest_isSome hkeys f
    have hsome := Dict.mem_keys_items.mp hmem
    rw [hlookup, Option.isSome_map] at hsome
    obtain ⟨t, ht⟩ := Option.isSome_iff_exists.mp hsome
    refine .inr ⟨k, t, hk, ht, ?_⟩
    rw [forClock, hk, Option.bind_some, hlookup, ht]
    rfl

include heps htimed hconsistent

/-- A higher clock costs no more than `1 + eps` times a lower one, measured or not. -/
theorem forClock_le {f f' L : ℕ} (hle : f ≤ f') (hL : ∃ x ∈ lengths, L ≤ x) :
    ((ofTables tables).forClock (some f')).cost L ≤ (1 + eps) * ((ofTables tables).forClock (some f)).cost L := by
  rcases forClock_eq htwo hlengths f with ⟨hnil, hf⟩ | ⟨k, t, hk, ht, hf⟩
  · rcases forClock_eq htwo hlengths f' with ⟨-, hf'⟩ | ⟨k', t', -, ht', -⟩
    · rw [hf, hf']
      exact (mul_zero (1 + eps)).ge
    · rw [Dict.items_eq_nil.mp hnil k'] at ht'
      cases ht'
  rcases forClock_eq htwo hlengths f' with ⟨hnil, -⟩ | ⟨k', t', hk', ht', hf'⟩
  · rw [Dict.items_eq_nil.mp hnil k] at ht
    cases ht
  have hentry : ∀ k t, tables.lookup k = some t → ∀ a ∈ t.sorted, t.lookup a.1 = some a.2 := fun _ t _ a ha =>
    Dict.mem_items.mp (Dict.mem_sorted.mp ha)
  have hlongest : ∀ k t, tables.lookup k = some t → ∃ a ∈ t.sorted, L ≤ a.1 := by
    intro k t ht
    obtain ⟨x, hx, hLx⟩ := hL
    rw [← hlengths k t ht] at hx
    obtain ⟨a, ha, rfl⟩ := List.mem_map.mp hx
    exact ⟨a, ha, hLx⟩
  rw [hf, hf', PrefillCost.ofTable, PrefillCost.ofTable]
  -- One table for both clocks, or two that no pair of entries contradicts.
  rcases (nearest_mono hle hk hk').eq_or_lt with rfl | hlt
  · rw [ht, Option.some.injEq] at ht'
    subst ht'
    have hcost := PrefillCost.cost_nonneg t.sorted_lt (fun a ha => htimed k t ht a.1 a.2 (hentry k t ht a ha))
      (hlongest k t ht)
    exact le_mul_of_one_le_left hcost (le_add_of_nonneg_right heps)
  · rw [← PrefillCost.cost_scale]
    refine PrefillCost.cost_mono (below_of_entries ?_ ?_) t'.sorted_lt (hlongest k' t' ht')
    · rw [PrefillCost.scale, List.map_map, hlengths k' t' ht']
      exact (hlengths k t ht).symm
    · intro a ha b hb hab
      obtain ⟨c, hc, rfl⟩ := List.mem_map.mp hb
      have hlower := hentry k t ht c hc
      rw [← show a.1 = c.1 from hab] at hlower
      exact Locator.contradicts_eq_false.mp (hconsistent k k' t t' hlt ht ht') a.1 a.2 c.2 (hentry k' t' ht' a ha) hlower

end
end CostBook

namespace Locator

/-- After a run a higher P clock is never slower: no tables contradict each other, the envelope only lowers entries and
    keeps the lowest clock's table, and the nearest clock below an unmeasured one is conservative up to `eps`. -/
theorem consistentTables_monotone {l l' : Locator K} {top : ClockPoint} {prompts : List ℕ} {backend : Backend K}
    (heps : 0 ≤ l.settings.eps) (hbackend : MeasuresTimes backend) (hl : l.Timed)
    (h : l.consistentTables top prompts backend = .ok l') :
    tableConflicts l'.evidence.prefillMsByClock l.settings.eps = [] ∧
      (∀ tables : Dict ℕ (Dict ℕ K), tables.Rel Lowered (envelope tables) ∧
        ∀ f t, tables.lookup f = some t → (∀ f', (tables.lookup f').isSome → f ≤ f') →
          (envelope tables).lookup f = some t) ∧
      ∀ lengths : List ℕ, 2 ≤ lengths.length →
        (∀ f t, l'.evidence.prefillMsByClock.lookup f = some t → t.sorted.map (·.1) = lengths) →
        ∀ f f', f ≤ f' → ∀ L, (∃ x ∈ lengths, L ≤ x) →
          ((CostBook.ofTables l'.evidence.prefillMsByClock).forClock (some f')).cost L ≤
            (1 + l.settings.eps) * ((CostBook.ofTables l'.evidence.prefillMsByClock).forClock (some f)).cost L := by
  obtain ⟨htimed, hconsistent⟩ := consistentTables_spec heps hbackend hl h
  exact ⟨tableConflicts_eq_nil.mpr hconsistent, fun tables => ⟨lowered_envelope tables, fun _ _ =>
    lookup_envelope_lowest tables⟩, fun lengths htwo hlengths f f' hle L =>
    CostBook.forClock_le heps htimed hconsistent htwo hlengths hle⟩

/-- Two clocks; the higher one was slower at the shorter length. -/
def warmUp : Locator ℚ where
  settings := ⟨1 / 50, [], 3, 3600⟩
  cache := ∅
  now := 0
  windows := 0
  reused := 0
  evidence := ⟨Dict.ofList [(1080, Dict.ofList [(16, 44), (2048, 240)]), (2520, Dict.ofList [(16, 67), (2048, 150)])],
    ∅, ∅, none⟩

/-- Every length takes longer at the higher clock. -/
def stillSlower : Backend ℚ := fun clock lengths =>
  .ok ⟨lengths.map fun L => ⟨L, if clock.prefillMhz = 1080 then L else L + 10, none⟩, 0⟩

theorem consistentTables_warmUp : ∃ l', warmUp.consistentTables ⟨2520, 1740⟩ [16, 2048] stillSlower = .ok l' ∧
    tableConflicts l'.evidence.prefillMsByClock (1 / 50 : ℚ) = [] := by
  have hok : (warmUp.consistentTables ⟨2520, 1740⟩ [16, 2048] stillSlower).isOk = true := by decide +kernel
  have hbackend : MeasuresTimes stillSlower := by
    intro clock lengths m hm s hs
    obtain rfl := Except.ok.inj hm
    obtain ⟨L, -, rfl⟩ := List.mem_map.mp hs
    dsimp only
    split_ifs <;> positivity
  have htimed : warmUp.Timed := by
    have hall : ∀ e ∈ warmUp.evidence.prefillMsByClock.items, ∀ a ∈ e.2.items, 0 ≤ a.2 := by decide +kernel
    exact fun f t ht L ms hms => hall _ (Dict.mem_items.mpr ht) _ (Dict.mem_items.mpr hms)
  cases h : warmUp.consistentTables ⟨2520, 1740⟩ [16, 2048] stillSlower with
  | error e => simp [h, Except.isOk, Except.toBool] at hok
  | ok l' => exact ⟨l', rfl, (consistentTables_monotone (by decide +kernel) hbackend htimed h).1⟩

end Locator
end CanaTune
