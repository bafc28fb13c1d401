import CanaTune.Lib.Sorted
import CanaTune.Theorems.Locate

/-! The periodic checks climb: with a pair that answers the same each time, every move of H saves energy, so H never comes
    back to a clock it left. -/

namespace CanaTune
variable {K σ : Type} [Scalar K]

open TierLocator

namespace LocatorState

/-- The table before and after each of the checks, each made in the state the locator is in by then. -/
def recheckEach (b : LocatorBackend K σ) : List (LocatorState K σ) → LocatedTable K → List (LocatedTable K)
  | [], t => [t]
  | c :: cs, t => t :: recheckEach b cs (c.recheck b t).1

/-- A P clock that meets the target at the load, and its energy. -/
def Costs (s : SearchSettings K) (answer : ℕ → WindowResult K) (f : ℕ) (e : K) : Prop :=
  s.feasible (answer f) = true ∧ (answer f).prefillJ = some e

/-- H's P clock was cheaper elsewhere, beyond eps. -/
def Saves (s : SearchSettings K) (answer : ℕ → WindowResult K) (f g : ℕ) : Prop :=
  ∃ e e', Costs s answer f e ∧ Costs s answer g e' ∧ e' < e * (1 - s.eps)

/-- The energy at a clock, where it counts. -/
def energy (s : SearchSettings K) (answer : ℕ → WindowResult K) (f : ℕ) : WithTop K :=
  if s.feasible (answer f) then (answer f).prefillJ.elim ⊤ (↑) else ⊤

theorem Costs.energy {s : SearchSettings K} {answer : ℕ → WindowResult K} {f : ℕ} {e : K} (h : Costs s answer f e) :
    energy s answer f = e := by
  rw [LocatorState.energy, if_pos h.1, h.2]
  rfl

theorem Saves.energy_lt {s : SearchSettings K} {answer : ℕ → WindowResult K} {f g : ℕ} (h : Saves s answer f g)
    (heps : 0 ≤ s.eps) (henergy : ∀ f, NonNegEnergy (answer f)) : energy s answer g < energy s answer f := by
  obtain ⟨e, e', hf, hg, hlt⟩ := h
  rw [hf.energy, hg.energy, WithTop.coe_lt_coe]
  have hnonneg : 0 ≤ e := henergy f e hf.2
  nlinarith

/-- A locator whose caches hold what the pair answers at the load. -/
structure Agrees (s : SearchSettings K) (plan : LocateSettings K) (answer : ℕ → WindowResult K) (decodeMhz : ℕ)
    (load alpha : K) (c : LocatorState K σ) : Prop where
  settings : c.settings = s
  plan : c.plan = plan
  cache : c.toTierLocator.CacheHolds fun key w => ∀ f, key = openKey ⟨f, decodeMhz⟩ load alpha → w = answer f

variable {b : LocatorBackend K σ} {hw : Hardware} {s : SearchSettings K} {plan : LocateSettings K}
  {answer : ℕ → WindowResult K} {decodeMhz : ℕ} {load alpha : K} {c : LocatorState K σ}

section
variable (hpure : ∀ f seconds above w, (b.openWindow ⟨f, decodeMhz⟩ load alpha seconds above w).1 = answer f)
include hpure

theorem window_agrees (hc : Agrees s plan answer decodeMhz load alpha c) (f : ℕ) :
    (c.window b ⟨f, decodeMhz⟩ load alpha).1 = answer f ∧
      Agrees s plan answer decodeMhz load alpha (c.window b ⟨f, decodeMhz⟩ load alpha).2 := by
  have hmeasured : ∀ seconds above w g, openKey ⟨f, decodeMhz⟩ load alpha = openKey ⟨g, decodeMhz⟩ load alpha →
      (b.openWindow ⟨f, decodeMhz⟩ load alpha seconds above w).1 = answer g := by
    intro seconds above w g hkey
    injection hkey with hclock
    injection hclock with hfg
    rw [hpure, hfg]
  obtain ⟨hw, hgrew⟩ := openWindow_grew hc.cache hmeasured
  exact ⟨hw f rfl, hgrew.settings.trans hc.settings, hc.plan, hgrew.holds⟩

/-- The scan finds at each neighbour what the pair answers. -/
theorem neighbourScan_agrees : ∀ (fs : List ℕ) (meas : Dict ℕ (WindowResult K)) {c : LocatorState K σ},
    Agrees s plan answer decodeMhz load alpha c →
    Agrees s plan answer decodeMhz load alpha (neighbourScan b decodeMhz load alpha fs meas c).2 ∧
      ∀ f w, (neighbourScan b decodeMhz load alpha fs meas c).1.lookup f = some w →
        meas.lookup f = some w ∨ f ∈ fs ∧ w = answer f
  | [], _, _, hc => ⟨hc, fun _ _ h => .inl h⟩
  | g :: fs, meas, c, hc => by
    obtain ⟨hw, hnext⟩ := window_agrees hpure hc g
    obtain ⟨hagrees, hmeas⟩ := neighbourScan_agrees fs (meas.insert g (c.window b ⟨g, decodeMhz⟩ load alpha).1) hnext
    refine ⟨hagrees, fun f w hf => ?_⟩
    rcases hmeas f w hf with hold | ⟨hmem, heq⟩
    · by_cases hfg : f = g
      · subst hfg
        rw [AList.lookup_insert] at hold
        exact .inr ⟨List.mem_cons_self, (Option.some.inj hold) ▸ hw⟩
      · rw [AList.lookup_insert_ne hfg] at hold
        exact .inl hold
    · exact .inr ⟨List.mem_cons_of_mem g hmem, heq⟩

end

theorem energies_costs {meas : Dict ℕ (WindowResult K)} (hmeas : ∀ g w, meas.lookup g = some w → w = answer g)
    {g : ℕ} {e : K}
    (hg : (energies s meas).lookup g = some e) : Costs s answer g e ∧ ∃ w, meas.lookup g = some w := by
  have hg : (PrefillScan.mk meas (TierLocator.fresh s ())).feasibleEnergy.lookup g = some e := hg
  obtain ⟨w, hw, hfeasible, he⟩ := PrefillScan.lookup_feasibleEnergy.mp hg
  obtain rfl := hmeas g w hw
  exact ⟨⟨hfeasible, he⟩, _, hw⟩

theorem better_saves {meas : Dict ℕ (WindowResult K)} {h f : ℕ} (hmeas : ∀ g w, meas.lookup g = some w → w = answer g)
    (hbetter : better s (energies s meas) h = some f) : Saves s answer h f ∧ ∃ w, meas.lookup f = some w := by
  obtain ⟨now, hnow, hbetter⟩ := Option.bind_eq_some_iff.mp hbetter
  obtain ⟨best, hbest, hbetter⟩ := Option.bind_eq_some_iff.mp hbetter
  split_ifs at hbetter with hcheaper
  obtain rfl := Option.some.inj hbetter
  have hmem : best ∈ (energies s meas).items := List.mem_reverse.mp (List.argmin_mem hbest)
  obtain ⟨hbestCosts, hw⟩ := energies_costs hmeas (Dict.mem_items.mp hmem)
  exact ⟨⟨now, best.2, (energies_costs hmeas hnow).1, hbestCosts, hcheaper.2⟩, hw⟩

/-- H moved to a neighbour on the grid that saves energy; the table notes when, and the energies at the neighbours that meet
    the target, and nothing else changed. -/
def Moved (hw : Hardware) (s : SearchSettings K) (answer : ℕ → WindowResult K) (t t' : LocatedTable K) : Prop :=
  ∃ f now i found, hw.prefillClocks.idxOf? t.h.prefillMhz = some i ∧ f ∈ neighbours hw.prefillClocks i ∧
    Saves s answer t.h.prefillMhz f ∧
    (∀ g e, AList.lookup g found = some e → g ∈ neighbours hw.prefillClocks i ∧ Costs s answer g e) ∧
    t' = { t with h := ⟨f, t.h.decodeMhz⟩, publishedAt := now, recheck := some found }

/-- A table that is checked under these clocks and this load. -/
structure Checked (plan : LocateSettings K) (decodeMhz : ℕ) (load alpha : K) (t : LocatedTable K) : Prop where
  decode : t.h.decodeMhz = decodeMhz
  load : recheckLoad plan t = load
  alpha : t.alphaTokens = alpha

theorem Moved.checked {t t' : LocatedTable K} (h : Moved hw s answer t t') (ht : Checked plan decodeMhz load alpha t) :
    Checked plan decodeMhz load alpha t' := by
  obtain ⟨f, now, i, found, -, -, -, -, rfl⟩ := h
  exact ⟨ht.decode, ht.load, ht.alpha⟩

section
variable (hpure : ∀ f seconds above w, (b.openWindow ⟨f, decodeMhz⟩ load alpha seconds above w).1 = answer f)
  (hhw : ∀ w, (b.hardware w).1 = hw)
include hpure hhw

/-- One check: the table stays, or H moves. -/
theorem recheck_spec {t : LocatedTable K} (ht : Checked plan decodeMhz load alpha t)
    (hc : Agrees s plan answer decodeMhz load alpha c) :
    (c.recheck b t).1 = t ∨ Moved hw s answer t (c.recheck b t).1 := by
  obtain ⟨rfl, rfl, rfl⟩ := ht
  have hstart : Agrees s plan answer t.h.decodeMhz (recheckLoad plan t) t.alphaTokens
      { c.newRun c.meanPrompt with world := (b.hardware (c.newRun c.meanPrompt).world).2 } :=
        ⟨hc.settings, hc.plan, hc.cache⟩
  have hplan : (c.newRun c.meanPrompt).plan = plan := hc.plan
  unfold recheck
  simp only [hhw, hplan]
  cases hi : hw.prefillClocks.idxOf? t.h.prefillMhz with
  | none => exact .inl rfl
  | some i =>
    obtain ⟨hagrees, hmeas⟩ := neighbourScan_agrees hpure (neighbours hw.prefillClocks i) ∅ hstart
    simp only [hplan] at hagrees hmeas
    simp only [hagrees.settings]
    -- The check starts with no measurement, so each window read is one of its own.
    have hscan : ∀ g w, _ → g ∈ neighbours hw.prefillClocks i ∧ w = answer g :=
      fun g w hg => (hmeas g w hg).resolve_left fun h => by cases h
    split
    · exact .inl rfl
    · rename_i f hbetter
      obtain ⟨hsaves, w, hw⟩ := better_saves (fun g w hg => (hscan g w hg).2) hbetter
      refine .inr ⟨f, _, i, _, hi, (hscan f w hw).1, hsaves, fun g e hg => ?_, rfl⟩
      obtain ⟨hcosts, v, hv⟩ := energies_costs (fun g w hg => (hscan g w hg).2) hg
      exact ⟨(hscan g v hv).1, hcosts⟩

theorem recheckEach_chain : ∀ (cs : List (LocatorState K σ)) {t : LocatedTable K},
    (∀ c ∈ cs, Agrees s plan answer decodeMhz load alpha c) → Checked plan decodeMhz load alpha t →
    (recheckEach b cs t).IsChain fun t t' => t' = t ∨ Moved hw s answer t t'
  | [], _, _, _ => List.isChain_singleton _
  | c :: cs, t, hcs, ht => by
    have hstep := recheck_spec hpure hhw ht (hcs c List.mem_cons_self)
    have hnext : Checked plan decodeMhz load alpha (c.recheck b t).1 := by
      rcases hstep with hsame | hmoved
      · exact hsame.symm ▸ ht
      · exact hmoved.checked ht
    have hrest := recheckEach_chain cs (fun c hc => hcs c (List.mem_cons_of_mem _ hc)) hnext
    cases cs with
    | nil => exact List.isChain_cons_cons.mpr ⟨hstep, hrest⟩
    | cons c' cs => exact List.isChain_cons_cons.mpr ⟨hstep, hrest⟩

/-- The checks of a pair that answers the same each time only climb: each one leaves the table or moves H one stride to a
    clock that saves energy, and H never comes back to a clock it left. -/
theorem recheck_climbs (heps : 0 ≤ s.eps) (henergy : ∀ f, NonNegEnergy (answer f)) {cs : List (LocatorState K σ)}
    {t : LocatedTable K} (hcs : ∀ c ∈ cs, Agrees s plan answer decodeMhz load alpha c)
    (ht : Checked plan decodeMhz load alpha t) :
    ((recheckEach b cs t).IsChain fun t t' => t' = t ∨ Moved hw s answer t t') ∧
      (((recheckEach b cs t).map (·.h.prefillMhz)).destutter (· ≠ ·)).Nodup := by
  have hchain := recheckEach_chain hpure hhw cs hcs ht
  refine ⟨hchain, nodup_destutter_of_falls (energy s answer) (List.isChain_map _ |>.mpr (hchain.imp fun t t' hstep => ?_))⟩
  rcases hstep with rfl | ⟨f, now, i, found, -, -, hsaves, -, rfl⟩
  · exact .inl rfl
  · exact .inr (hsaves.energy_lt heps henergy)

end

/-- A table at the top clock, with a target load that the clock below holds too. -/
def topTable : LocatedTable ℚ where
  park := ⟨500, 500⟩
  h := ⟨1000, 500⟩
  capacityH := 5
  alphaTokens := 10
  l := none
  decodeMaxRunning := some 8
  decodeKvLimit := some (9 / 10)
  decodeLength := none
  decodeKvTokens := none
  publishedAt := 0
  evidence := ⟨∅, ∅, ∅, none, none, none⟩
  decodeWall := true
  idlePowerW := none
  targetLoad := some 4
  decodeAlone := some 500
  decodeEvidence := none
  recheck := none

theorem recheck_climbs_top :
    (recheckEach steadyPair [steadyStart, steadyStart] topTable).map (·.h.prefillMhz) = [1000, 500, 500] ∧
      ((recheckEach steadyPair [steadyStart, steadyStart] topTable).IsChain fun t t' =>
        t' = t ∨ Moved ⟨[500, 1000], [500, 1000]⟩ .defaults (fun f => steadyAnswer ⟨f, 500⟩ 4) t t') ∧
      (((recheckEach steadyPair [steadyStart, steadyStart] topTable).map (·.h.prefillMhz)).destutter (· ≠ ·)).Nodup := by
  have hagrees : ∀ c ∈ [steadyStart, steadyStart],
      Agrees .defaults (.defaults 200) (fun f => steadyAnswer ⟨f, 500⟩ 4) 500 4 10 c := by
    intro c hc
    have heq : c = steadyStart := by simpa using hc
    exact heq ▸ ⟨rfl, rfl, fun _ _ h => by cases h⟩
  have henergy : ∀ f, NonNegEnergy (steadyAnswer ⟨f, 500⟩ 4) := by
    intro f e he
    obtain rfl := Option.some.inj he
    positivity
  exact ⟨by decide +kernel, recheck_climbs (fun _ _ _ _ => rfl) (fun _ => rfl) (by decide +kernel) henergy hagrees
    ⟨rfl, by decide +kernel, rfl⟩⟩

end LocatorState
end CanaTune
