import CanaTune.Theorems.Untouched

/-! What a scan finds. Under a published table the routes it keeps within the hard limits are exactly the
    eligible ones, by the D checks made on the state the scan starts from, each with a slack entry, and
    the routes it offers are among them. -/

namespace CanaTune
variable {K : Type} [Scalar K] {n : ℕ}
namespace Router

/-! ### Checks read the same in every state of a scan -/

section Untouched
variable {r s : Router K n} (h : Untouched r s)
include h

theorem Untouched.freshSnapshot (group : Fin n) : s.freshSnapshot group = r.freshSnapshot group := by
  simp only [Router.freshSnapshot, h.telemetry, h.settings, h.now]

theorem Untouched.decodeState (group : Fin n) : s.decodeState group = r.decodeState group := by
  simp only [Router.decodeState, h.freshSnapshot, h.telemetry, h.settings, h.groups, h.tiers]

omit [Scalar K] in
theorem Untouched.routes : s.routes = r.routes := by
  simp only [Router.routes, h.groups, h.settings]

omit [Scalar K] in
theorem Untouched.openAdmission : s.openAdmission = r.openAdmission := by
  simp only [Router.openAdmission, h.tiers]

end Untouched

section Congr
variable {r s : Router K n} (h : Scanned r s)
include h

theorem Scanned.kvBlocked (group : Fin n) (tokens : ℕ) : s.kvBlocked group tokens = r.kvBlocked group tokens := by
  simp only [Router.kvBlocked, h.settings, h.groups, h.kvFraction]

theorem Scanned.kvProjectedOver (group : Fin n) (tokens : ℕ) (table : TierTable K)
    (snapshot : Option (EndpointSnapshot K)) :
    (s.kvProjectedOver group tokens table snapshot).1 = (r.kvProjectedOver group tokens table snapshot).1 := by
  unfold Router.kvProjectedOver
  simp only [h.groups, h.settings, h.outputMean]
  split
  · split
    · rfl
    · split_ifs <;> rfl
  · rfl

end Congr

/-! ### The length model -/

theorem decodeRisk_spec (r : Router K n) (group : Fin n) (tokens : ℕ) (table : TierTable K)
    (model : Dict ℕ (DecodeCoef K)) :
    Measured r (r.decodeRisk group tokens table model).2 ∧
    (r.decodeRisk group tokens table model).1 =
      match decodeCoef model (r.groups group).clock.decodeMhz, r.freshSnapshot group with
      | some coef, some snapshot => snapshot.kvUsage.bind fun kvUsage =>
        if (r.kvProjectedOver group tokens table (some snapshot)).1 then some .decodeKv
        else if r.settings.tpotSloMs < r.tpotBound group tokens table coef snapshot kvUsage then some .decodeTpot
        else none
      | _, _ => none := by
  unfold Router.decodeRisk
  cases decodeCoef model (r.groups group).clock.decodeMhz with
  | none => exact ⟨.refl r, rfl⟩
  | some coef =>
    cases r.freshSnapshot group with
    | none => exact ⟨.refl r, rfl⟩
    | some snapshot =>
      cases hkv : snapshot.kvUsage with
      | none => simp only [hkv]; exact ⟨.refl r, rfl⟩
      | some kvUsage =>
        have hnote := (measured_refreshOutputMean r).trans
          (measured_noteTpot _ group (r.tpotBound group tokens table coef snapshot kvUsage))
        have hs := hnote.trans (measured_kvProjectedOver _ group tokens table (some snapshot))
        simp only [hkv, Option.bind_some, hs.settings, ← hnote.kvProjectedOver]
        split_ifs <;> exact ⟨hs, rfl⟩

theorem Scanned.tpotBound {r s : Router K n} (h : Scanned r s) (group : Fin n) (tokens : ℕ) (table : TierTable K)
    (coef : DecodeCoef K) (snapshot : EndpointSnapshot K) (kvUsage : K) :
    s.tpotBound group tokens table coef snapshot kvUsage = r.tpotBound group tokens table coef snapshot kvUsage := by
  simp only [Router.tpotBound, h.groups, h.outputMean]

theorem Scanned.decodeRisk {r s : Router K n} (h : Scanned r s) (group : Fin n) (tokens : ℕ) (table : TierTable K)
    (model : Dict ℕ (DecodeCoef K)) :
    (s.decodeRisk group tokens table model).1 = (r.decodeRisk group tokens table model).1 := by
  rw [(decodeRisk_spec s group tokens table model).2, (decodeRisk_spec r group tokens table model).2]
  simp only [h.groups, h.freshSnapshot, h.kvProjectedOver, h.settings, h.tpotBound]

/-! ### The D checks -/

theorem measured_checkD (r : Router K n) (tokens : ℕ) (dg : Fin n) : Measured r (r.checkD tokens dg).2 := by
  unfold Router.checkD
  dsimp only
  split
  · exact (decodeRisk_spec r dg tokens _ _).1
  · exact .refl r

theorem checkD_spec (r : Router K n) (tokens : ℕ) (d : Fin n) :
    (r.checkD tokens d).1.blocked = (r.decodeState d).2 ∧
    (r.checkD tokens d).1.kvBlocked = (r.kvBlocked d tokens && r.settings.admission == .slack) := by
  unfold checkD
  dsimp only
  split <;> exact ⟨rfl, rfl⟩

theorem Scanned.checkD {r s : Router K n} (h : Scanned r s) (tokens : ℕ) (dg : Fin n) :
    (s.checkD tokens dg).1 = (r.checkD tokens dg).1 := by
  unfold Router.checkD
  simp only [Router.lengthModel, h.decodeState, h.kvBlocked, h.settings, h.tiers]
  split
  · rw [h.decodeRisk]
  · rfl

/-- Within the hard limits: D is not blocked, its KV gate is open, and with the hard projection its KV will
    not pass the wall. -/
def eligible (r : Router K n) (tokens : ℕ) (dg : Fin n) : Bool :=
  withinHardLimits r.settings (r.checkD tokens dg).1

/-! ### One route -/

/-- The risk decides on a route and leaves its slack entry. -/
theorem judge_spec (r : Router K n) (route : Route n) (tokens : ℕ) (waitedMs : K) (dBusy : Bool) (x : List K)
    (predicted : K) :
    Scanned r (r.judge route tokens waitedMs dBusy x predicted).2 ∧
    (r.judge route tokens waitedMs dBusy x predicted).2.scan.withinLimits = r.scan.withinLimits ∧
    ∃ slack, (r.judge route tokens waitedMs dBusy x predicted).2.scan.slackByGroup =
      r.scan.slackByGroup.insert route ⟨x, predicted, slack⟩ := by
  unfold judge
  split
  · exact ⟨scanned_noteSlack _ _ _, rfl, _, rfl⟩
  · exact ⟨(scanned_keepTable r _).trans (scanned_noteSlack _ _ _), rfl, _, rfl⟩

/-- A route within the limits is kept with a slack entry; it is offered, or it is not. -/
theorem admitRoute_spec (acc : ScanState K n) (route : Route n) (tokens : ℕ) (waitedMs : K) (check : DCheck)
    (x : List K) (predicted : K) :
    let acc' := admitRoute acc route tokens waitedMs check x predicted
    Scanned acc.router acc'.router ∧ acc'.decodeChecked = acc.decodeChecked ∧
    acc'.router.scan.withinLimits.map (·.route) = acc.router.scan.withinLimits.map (·.route) ++ [route] ∧
    (∃ slack, acc'.router.scan.slackByGroup = acc.router.scan.slackByGroup.insert route ⟨x, predicted, slack⟩) ∧
    (acc'.out = acc.out ∨ ∃ c, c.route = route ∧ acc'.out = acc.out ++ [c]) := by
  intro acc'
  unfold acc' admitRoute
  dsimp only
  generalize hw : (⟨route, _, check.dBusy⟩ : WithinLimits n) = w
  have hroute : w.route = route := by rw [← hw]
  have hwithin : (noteWithin acc.router w check.risk.isSome).scan.withinLimits.map (·.route) =
      acc.router.scan.withinLimits.map (·.route) ++ [route] := by simp [noteWithin, hroute]
  have hnote := scanned_noteWithin acc.router w check.risk.isSome
  split_ifs
  · exact ⟨hnote.trans (scanned_noteSlack _ _ _), rfl, hwithin, ⟨_, rfl⟩, .inl rfl⟩
  · obtain ⟨hs, hlimits, hslack⟩ := judge_spec (noteWithin acc.router w check.risk.isSome) route tokens waitedMs
      check.dBusy x predicted
    rw [← hlimits] at hwithin
    split <;> rename_i hj <;> rw [hj] at hs hwithin hslack
    · exact ⟨hnote.trans hs, rfl, hwithin, hslack, .inr ⟨_, rfl, rfl⟩⟩
    · exact ⟨hnote.trans hs, rfl, hwithin, hslack, .inl rfl⟩

/-! ### The whole scan -/

/-- What a scan that started as `base` has found after the routes `seen`. -/
structure ScanInv (base : Router K n) (tokens : ℕ) (seen : List (Route n)) (acc : ScanState K n) : Prop where
  scanned : Scanned base acc.router.applyTable
  checked : ∀ dg check, acc.decodeChecked.lookup dg = some check → check = (base.checkD tokens dg).1
  within : acc.router.scan.withinLimits.map (·.route) = seen.filter fun route => base.eligible tokens route.d
  slack : ∀ route ∈ seen, base.eligible tokens route.d = true → (acc.router.scan.slackByGroup.lookup route).isSome
  out : ∀ c ∈ acc.out, c.route ∈ seen ∧ base.eligible tokens c.route.d = true

theorem decodeCheck_spec {base : Router K n} (acc : ScanState K n) (tokens : ℕ) (dg : Fin n)
    (hs : Scanned base acc.router)
    (hc : ∀ dg check, acc.decodeChecked.lookup dg = some check → check = (base.checkD tokens dg).1) :
    (decodeCheck acc tokens dg).1 = (base.checkD tokens dg).1 ∧
    Measured acc.router (decodeCheck acc tokens dg).2.router ∧ (decodeCheck acc tokens dg).2.out = acc.out ∧
    ∀ dg' check, (decodeCheck acc tokens dg).2.decodeChecked.lookup dg' = some check →
      check = (base.checkD tokens dg').1 := by
  unfold decodeCheck
  split
  case h_1 check hl => exact ⟨hc dg check hl, .refl _, rfl, hc⟩
  case h_2 =>
    refine ⟨hs.checkD tokens dg, measured_checkD _ tokens dg, rfl, fun dg' check hl => ?_⟩
    by_cases h : dg' = dg
    · subst h
      rw [AList.lookup_insert, hs.checkD] at hl
      exact (Option.some.inj hl).symm
    · rw [AList.lookup_insert_ne h] at hl
      exact hc dg' check hl

theorem lookup_insert_isSome {κ ν : Type} [DecidableEq κ] {d : Dict κ ν} {k k' : κ} {v : ν}
    (h : (d.lookup k).isSome ∨ k = k') : ((d.insert k' v).lookup k).isSome := by
  by_cases hk : k = k'
  · subst hk
    rw [AList.lookup_insert]
    rfl
  · rw [AList.lookup_insert_ne hk]
    exact h.resolve_right hk

theorem ScanInv.sieve {base : Router K n} {tokens : ℕ} {waitedMs : K} {seen : List (Route n)}
    {acc : ScanState K n} (h : ScanInv base tokens seen acc) (hcur : acc.router.Current) (route : Route n)
    {check : DCheck} (hcheck : check = (base.checkD tokens route.d).1) (x : List K) (predicted : K) :
    ScanInv base tokens (seen ++ [route]) (sieve acc route tokens waitedMs check x predicted) := by
  have hs : Scanned base acc.router := hcur.applyTable ▸ h.scanned
  have helig : base.eligible tokens route.d = withinHardLimits acc.router.settings check := by
    rw [eligible, hs.settings, hcheck]
  unfold Router.sieve
  dsimp only
  split_ifs with hlim
  -- D is within its hard limits: the route is kept with its slack, and may be offered.
  · obtain ⟨hr, hd, hw, ⟨slack, hsl⟩, hout⟩ := admitRoute_spec
      { acc with dSafe := acc.dSafe || (check.blocked.isNone && !check.kvBlocked && check.risk.isNone) }
      route tokens waitedMs check x predicted
    refine ⟨?_, ?_, ?_, ?_, ?_⟩
    · rw [(hr.current hcur).applyTable]
      exact hs.trans hr
    · rw [hd]
      exact h.checked
    · rw [hw, h.within]
      simp [helig, hlim]
    · intro route' hm he
      rw [hsl]
      refine lookup_insert_isSome ?_
      rcases List.mem_append.mp hm with hm | hm
      · exact .inl (h.slack route' hm he)
      · exact .inr (List.mem_singleton.mp hm)
    · intro c hc
      have hold (hc : c ∈ acc.out) := h.out c hc
      rcases hout with ho | ⟨c', hroute, ho⟩ <;> rw [ho] at hc
      · exact ⟨List.mem_append_left _ (hold hc).1, (hold hc).2⟩
      · rcases List.mem_append.mp hc with hc | hc
        · exact ⟨List.mem_append_left _ (hold hc).1, (hold hc).2⟩
        · obtain rfl := List.mem_singleton.mp hc
          rw [hroute]
          exact ⟨List.mem_append_right _ (List.mem_singleton_self _), helig.trans hlim⟩
  -- Over a hard limit nothing of the scan changes.
  · have hno : base.eligible tokens route.d = false := by rw [helig, Bool.not_eq_true _ |>.mp hlim]
    refine ⟨h.scanned, h.checked, ?_, ?_, fun c hc => ⟨List.mem_append_left _ (h.out c hc).1, (h.out c hc).2⟩⟩
    · rw [h.within]
      simp [hno]
    · intro route' hm he
      rcases List.mem_append.mp hm with hm | hm
      · exact h.slack route' hm he
      · rw [List.mem_singleton.mp hm, hno] at he
        exact absurd he Bool.false_ne_true

theorem ScanInv.scanRoute {base : Router K n} {tokens : ℕ} {waitedMs : K} {seen : List (Route n)}
    {acc : ScanState K n} (h : ScanInv base tokens seen acc) (hopen : base.openAdmission = false) (route : Route n) :
    ScanInv base tokens (seen ++ [route]) (scanRoute tokens waitedMs acc route) := by
  have hs := h.scanned
  obtain ⟨hcheck, hm, hout, hchecked⟩ :=
    decodeCheck_spec { acc with router := acc.router.applyTable } tokens route.d hs h.checked
  have hcur : (decodeCheck { acc with router := acc.router.applyTable } tokens route.d).2.router.Current :=
    hm.current (current_applyTable acc.router)
  have hscan : acc.router.applyTable.scan = acc.router.scan := by
    unfold applyTable
    dsimp only
    split_ifs <;> rfl
  have hinv : ScanInv base tokens seen (decodeCheck { acc with router := acc.router.applyTable } tokens route.d).2 := by
    refine ⟨?_, hchecked, ?_, ?_, ?_⟩
    · rw [hcur.applyTable]
      exact hs.trans hm.toScanned
    · rw [hm.withinLimits, hscan]
      exact h.within
    · rw [hm.slackByGroup, hscan]
      exact h.slack
    · rw [hout]
      exact h.out
  unfold Router.scanRoute
  simp only [prefillCost, hs.openAdmission, hopen, Bool.false_eq_true, if_false]
  exact hinv.sieve hcur route hcheck _ _

theorem ScanInv.foldl {base : Router K n} {tokens : ℕ} (waitedMs : K) (hopen : base.openAdmission = false)
    (routes : List (Route n)) {seen : List (Route n)} {acc : ScanState K n} (h : ScanInv base tokens seen acc) :
    ScanInv base tokens (seen ++ routes) (routes.foldl (Router.scanRoute tokens waitedMs) acc) := by
  induction routes generalizing seen acc with
  | nil => simpa using h
  | cons route rest ih =>
    rw [List.foldl_cons, List.append_cons]
    exact ih (h.scanRoute hopen route)

theorem measured_noteDExhausted (r : Router K n) : Measured r r.noteDExhausted := by
  unfold noteDExhausted
  split_ifs
  · exact .refl r
  · exact ⟨⟨⟨rfl, rfl, rfl, rfl, rfl, rfl, rfl, rfl, rfl, rfl, rfl, rfl, rfl⟩, rfl, rfl, rfl⟩, rfl, rfl, rfl⟩

theorem scanned_clearScan (r : Router K n) :
    Scanned r.applyTable { r with scan := ⟨∅, ∅, [], []⟩ : Router K n }.applyTable :=
  (scanned_setScan r _).applyTable

/-- A scan under a published table. -/
structure CandidatesSpec (base : Router K n) (tokens : ℕ) (feasible : List (Candidate K n)) (s : Router K n) :
    Prop where
  scanned : Scanned base s.applyTable
  within : s.scan.withinLimits.map (·.route) = base.routes.filter fun route => base.eligible tokens route.d
  slack : ∀ route ∈ base.routes, base.eligible tokens route.d = true → (s.scan.slackByGroup.lookup route).isSome
  out : ∀ c ∈ feasible, c.route ∈ base.routes ∧ base.eligible tokens c.route.d = true

theorem candidates_spec (r : Router K n) (tokens : ℕ) (waitedMs : K) (hopen : r.openAdmission = false) :
    CandidatesSpec r.applyTable tokens (r.candidates tokens waitedMs).1 (r.candidates tokens waitedMs).2 := by
  have hu := untouched_applyTable r
  have hbase : r.applyTable.openAdmission = false := hu.openAdmission.trans hopen
  have hroutes : r.applyTable.routes = r.routes := hu.routes
  have hinit : ScanInv r.applyTable tokens [] ⟨{ r with scan := ⟨∅, ∅, [], []⟩ }, [], ∅, false⟩ :=
    ⟨scanned_clearScan r, by simp, rfl, by simp, by simp⟩
  have h := hinit.foldl waitedMs hbase r.routes
  rw [List.nil_append, ← hroutes] at h
  unfold candidates
  dsimp only
  rw [← hroutes]
  split_ifs
  · have hm := measured_noteDExhausted
      (r.applyTable.routes.foldl (Router.scanRoute tokens waitedMs)
        ⟨{ r with scan := ⟨∅, ∅, [], []⟩ }, [], ∅, false⟩).router
    refine ⟨?_, ?_, ?_, h.out⟩
    · exact h.scanned.trans hm.toScanned.applyTable
    · rw [hm.withinLimits]
      exact h.within
    · rw [hm.slackByGroup]
      exact h.slack
  · exact ⟨h.scanned, h.within, h.slack, h.out⟩

/-- A cold start offers every route, and none is within limits it does not check. -/
structure OpenInv (seen : List (Route n)) (acc : ScanState K n) : Prop where
  openAdmission : acc.router.openAdmission = true
  within : acc.router.scan.withinLimits = []
  out : ∀ c ∈ acc.out, c.route ∈ seen

theorem OpenInv.scanRoute {tokens : ℕ} {waitedMs : K} {seen : List (Route n)} {acc : ScanState K n}
    (h : OpenInv seen acc) (route : Route n) : OpenInv (seen ++ [route]) (scanRoute tokens waitedMs acc route) := by
  have hopen : acc.router.applyTable.openAdmission = true :=
    (untouched_applyTable acc.router).openAdmission.trans h.openAdmission
  have hscan : acc.router.applyTable.scan = acc.router.scan := by
    unfold applyTable
    dsimp only
    split_ifs <;> rfl
  unfold Router.scanRoute
  simp only [prefillCost, hopen, if_true]
  refine ⟨hopen, ?_, fun c hc => ?_⟩
  · show acc.router.applyTable.scan.withinLimits = []
    rw [hscan]
    exact h.within
  · rcases List.mem_append.mp hc with hc | hc
    · exact List.mem_append_left _ (h.out c hc)
    · rw [List.mem_singleton.mp hc]
      exact List.mem_append_right _ (List.mem_singleton.mpr rfl)

theorem OpenInv.foldl {tokens : ℕ} (waitedMs : K) (routes : List (Route n)) {seen : List (Route n)} {acc : ScanState K n}
    (h : OpenInv seen acc) : OpenInv (seen ++ routes) (routes.foldl (Router.scanRoute tokens waitedMs) acc) := by
  induction routes generalizing seen acc with
  | nil => simpa using h
  | cons route rest ih =>
    rw [List.foldl_cons, List.append_cons]
    exact ih (h.scanRoute route)

theorem candidates_open (r : Router K n) (tokens : ℕ) (waitedMs : K) (hopen : r.openAdmission = true) :
    (r.candidates tokens waitedMs).2.scan.withinLimits = [] ∧
    ∀ c ∈ (r.candidates tokens waitedMs).1, c.route ∈ r.routes := by
  have hinit : OpenInv [] ⟨{ r with scan := ⟨∅, ∅, [], []⟩ }, [], (∅ : Dict (Fin n) DCheck), false⟩ := ⟨hopen, rfl, by simp⟩
  have h : OpenInv ([] ++ r.routes) (r.routes.foldl (Router.scanRoute tokens waitedMs) _) := hinit.foldl waitedMs r.routes
  rw [List.nil_append] at h
  unfold candidates
  dsimp only
  simp only [h.openAdmission, Bool.not_true, Bool.false_eq_true, false_and, and_false, if_false]
  exact ⟨h.within, h.out⟩

/-- Whatever is published, a scan finds routes of the moment. -/
theorem candidates_routes (r : Router K n) (tokens : ℕ) (waitedMs : K) :
    (∀ c ∈ (r.candidates tokens waitedMs).1, c.route ∈ r.routes) ∧
    ∀ w ∈ (r.candidates tokens waitedMs).2.scan.withinLimits, w.route ∈ r.routes := by
  cases hopen : r.openAdmission with
  | false =>
    have hspec := candidates_spec r tokens waitedMs hopen
    have hroutes : r.applyTable.routes = r.routes := (untouched_applyTable r).routes
    refine ⟨fun c hc => hroutes ▸ (hspec.out c hc).1, fun w hw => ?_⟩
    have hmem := List.mem_map_of_mem (f := (·.route)) hw
    rw [hspec.within, hroutes] at hmem
    exact (List.mem_filter.mp hmem).1
  | true =>
    obtain ⟨hwithin, hout⟩ := candidates_open r tokens waitedMs hopen
    refine ⟨hout, fun w hw => ?_⟩
    rw [hwithin] at hw
    exact absurd hw (by simp)

/-- Every route that a scan keeps has its slack entry. -/
theorem candidates_noted (r : Router K n) (tokens : ℕ) (waitedMs : K) (hopen : r.openAdmission = false) :
    (∀ c ∈ (r.candidates tokens waitedMs).1,
      ((r.candidates tokens waitedMs).2.scan.slackByGroup.lookup c.route).isSome) ∧
    ∀ w ∈ (r.candidates tokens waitedMs).2.scan.withinLimits,
      ((r.candidates tokens waitedMs).2.scan.slackByGroup.lookup w.route).isSome := by
  have hspec := candidates_spec r tokens waitedMs hopen
  refine ⟨fun c hc => hspec.slack c.route (hspec.out c hc).1 (hspec.out c hc).2, fun w hw => ?_⟩
  have hmem := List.mem_map_of_mem (f := (·.route)) hw
  rw [hspec.within] at hmem
  exact hspec.slack w.route (List.mem_filter.mp hmem).1 (List.mem_filter.mp hmem).2

/-! ### What every scan leaves alone -/

theorem scanned_sieve (acc : ScanState K n) (route : Route n) (tokens : ℕ) (waitedMs : K) (check : DCheck)
    (x : List K) (predicted : K) : Scanned acc.router (sieve acc route tokens waitedMs check x predicted).router := by
  unfold Router.sieve
  generalize (acc.dSafe || _) = dSafe
  dsimp only
  split_ifs
  · exact (admitRoute_spec { acc with dSafe } route tokens waitedMs check x predicted).1
  · exact .refl _

theorem scanned_scanRoute (tokens : ℕ) (waitedMs : K) (acc : ScanState K n) (route : Route n) :
    Scanned acc.router.applyTable (scanRoute tokens waitedMs acc route).router := by
  unfold Router.scanRoute
  simp only [prefillCost]
  by_cases hopen : acc.router.applyTable.openAdmission = true
  · simp only [hopen, if_true]
    exact scanned_noteSlack _ _ _
  · simp only [hopen, Bool.false_eq_true, if_false]
    have hd : Scanned acc.router.applyTable
        (decodeCheck { acc with router := acc.router.applyTable } tokens route.d).2.router := by
      unfold decodeCheck
      split
      · exact .refl _
      · exact (measured_checkD _ tokens route.d).toScanned
    exact hd.trans (scanned_sieve _ route tokens waitedMs _ _ _)

theorem scanned_candidates (r : Router K n) (tokens : ℕ) (waitedMs : K) :
    Scanned r.applyTable (r.candidates tokens waitedMs).2.applyTable := by
  have hfold (routes : List (Route n)) (acc : ScanState K n) :
      Scanned acc.router.applyTable (routes.foldl (scanRoute tokens waitedMs) acc).router.applyTable := by
    induction routes generalizing acc with
    | nil => exact .refl _
    | cons route rest ih =>
      have h := (scanned_scanRoute tokens waitedMs acc route).applyTable
      rw [applyTable_applyTable] at h
      exact h.trans (ih _)
  have h := (scanned_clearScan r).trans (hfold r.routes ⟨{ r with scan := ⟨∅, ∅, [], []⟩ }, [], ∅, false⟩)
  unfold candidates
  dsimp only
  split_ifs
  · exact h.trans (measured_noteDExhausted _).toScanned.applyTable
  · exact h

end Router
end CanaTune
