import CanaTune.Theorems.FrequencyDocument

/-! The frequency table never loses a good decision, and its file always holds what it remembers. -/

namespace CanaTune
variable {K : Type} [Scalar K]

/-! ### One call -/

omit [Scalar K] in
/-- A persist that raises leaves the file as it was; one that returns has replaced it by the whole document. -/
theorem persistLocked_eq (doc : Json K) (fault : Option PersistStep) (disk : Disk K) :
    persistLocked doc fault disk =
      match fault with
      | some step => (some step, { disk with temporary := none })
      | none => (none, { file := some (.document doc), temporary := none }) := by
  cases fault with
  | none => rfl
  | some step => cases step <;> rfl

namespace WorkloadFrequencyTable
variable {t : WorkloadFrequencyTable K} {c : WriteCall K}

/-- A table with seven valid entries and no temporary file. -/
structure Valid (t : WorkloadFrequencyTable K) : Prop where
  entries : ∀ w, (t.entries w).Valid w
  clean : t.disk.temporary = none

/-- The table after a published update. -/
def updated (t : WorkloadFrequencyTable K) (w : Workload) (candidate : FrequencyDecision K) : WorkloadFrequencyTable K :=
  let entries := Function.update t.entries w ⟨w.id, (t.entries w).revision + 1, some candidate⟩
  { t with entries, disk := { file := some (.document (documentLocked entries)), temporary := none } }

/-- What a call does: it raises or keeps the entry, with nothing changed, or it publishes its candidate. -/
inductive Written (t : WorkloadFrequencyTable K) (c : WriteCall K) :
    Except TableError (FrequencyTableEntry K) × WorkloadFrequencyTable K → Prop
  | raised (e : TableError) : Written t c (.error e, t)
  | kept (w : Workload) (candidate : FrequencyDecision K) (expected : Option ℤ) (hw : c.workloadId = w.id)
      (hcheck : c.check = .ok (candidate, expected)) (hrevision : ∀ z, expected = some z → z = (t.entries w).revision) :
      Written t c (.ok (t.entries w), t)
  | published (w : Workload) (candidate : FrequencyDecision K) (expected : Option ℤ) (hw : c.workloadId = w.id)
      (hcheck : c.check = .ok (candidate, expected)) (hrevision : ∀ z, expected = some z → z = (t.entries w).revision)
      (hne : (t.entries w).value ≠ some candidate)
      (hyields : ∀ value, (t.entries w).value = some value → value.yields candidate = .ok true) :
      Written t c (.ok ((t.updated w candidate).entries w), t.updated w candidate)

theorem written (h : t.Valid) : t.Written c (t.write c) := by
  unfold write
  cases hcheck : c.check with
  | error e => exact .raised e
  | ok checked =>
    obtain ⟨candidate, expected⟩ := checked
    dsimp only
    unfold publish
    cases hid : Workload.ofId c.workloadId with
    | none => exact .raised _
    | some w =>
      have hw := Workload.ofId_eq_some.mp hid
      dsimp only
      split
      case isTrue => exact .raised _
      case isFalse hexpected =>
      have hrevision : ∀ z, expected = some z → z = (t.entries w).revision := by
        rintro z rfl
        simp only [Option.any_some, ne_eq, decide_not, Bool.not_eq_true', decide_eq_false_iff_not, not_not] at hexpected
        exact hexpected.symm
      split
      case isTrue => exact .kept w candidate expected hw hcheck hrevision
      case isFalse hne =>
      split
      case h_1 => exact .raised _
      case h_2 => exact .kept w candidate expected hw hcheck hrevision
      case h_3 hyields =>
      rw [persistLocked_eq, hw]
      cases c.fault with
      | some step =>
        dsimp only
        -- The failed write takes back the entry and the temporary file.
        have ht : { t with
            entries := Function.update (Function.update t.entries w ⟨w.id, (t.entries w).revision + 1, some candidate⟩) w
              (t.entries w)
            disk := { t.disk with temporary := none } } = t := by
          rw [Function.update_idem, Function.update_eq_self]
          exact congrArg (fun temporary => { t with disk := { t.disk with temporary } }) h.clean.symm
        rw [ht]
        exact .raised _
      | none =>
        have := Written.published (t := t) w candidate expected hw hcheck hrevision hne
          fun value hv => by simpa only [hv, Option.elim_some] using hyields
        simp only [updated, Function.update_self] at this
        exact this

theorem check_ok {candidate : FrequencyDecision K} {expected : Option ℤ} (h : c.check = .ok (candidate, expected)) :
    FrequencyDecision.fromMapping c.value.rawValue = .ok candidate ∧ (c.expectedRevision.isNull = true ∨
      ∃ z, expected = some z ∧ c.expectedRevision = .int z) := by
  unfold WriteCall.check at h
  rw [bind_eq_ok] at h
  obtain ⟨value, hvalue, h⟩ := h
  split at h
  case isTrue hnull =>
    obtain ⟨rfl, rfl⟩ := Prod.mk.inj (Except.ok.inj h)
    exact ⟨hvalue, .inl hnull⟩
  case isFalse =>
    rw [bind_eq_ok] at h
    obtain ⟨z, hz, h⟩ := h
    obtain ⟨rfl, rfl⟩ := Prod.mk.inj (Except.ok.inj h)
    exact ⟨hvalue, .inr ⟨z, rfl, (integer_ok.mp hz).1⟩⟩

theorem Valid.write (h : t.Valid) (c : WriteCall K) : (t.write c).2.Valid := by
  have hw := written (c := c) h
  generalize t.write c = r at hw ⊢
  cases hw with
  | raised => exact h
  | kept => exact h
  | published w candidate expected _ hcheck =>
    refine ⟨fun v => ?_, rfl⟩
    by_cases hv : v = w
    · subst hv
      simp only [updated, Function.update_self]
      refine ⟨rfl, by simp, ?_⟩
      rintro _ ⟨⟩
      exact (FrequencyDecision.fromMapping_ok (check_ok hcheck).1).1.validate
    · simp only [updated, Function.update_of_ne hv]
      exact h.entries v

theorem Valid.run (h : t.Valid) (calls : List (WriteCall K)) : (t.run calls).Valid := by
  induction calls generalizing t with
  | nil => exact h
  | cons c calls ih => exact ih (h.write c)

end WorkloadFrequencyTable

/-! ### Histories -/

/-- Both decisions are measured, and the first costs strictly less energy. -/
def FrequencyDecision.Cheaper (d d' : FrequencyDecision K) : Prop :=
  ∃ a b, d.measuredEnergyJ = some a ∧ d'.measuredEnergyJ = some b ∧ a < b

theorem FrequencyDecision.Cheaper.trans {d d' d'' : FrequencyDecision K} (h : d.Cheaper d') (h' : d'.Cheaper d'') :
    d.Cheaper d'' := by
  obtain ⟨a, b, ha, hb, hab⟩ := h
  obtain ⟨b', c, hb', hc, hbc⟩ := h'
  obtain rfl := Option.some.inj (hb.symm.trans hb')
  exact ⟨a, c, ha, hc, hab.trans hbc⟩

/-- What an entry may become: its revision never falls, and a value that met the SLO gives way to cheaper ones that
    meet it too. -/
structure FrequencyTableEntry.Becomes (e e' : FrequencyTableEntry K) : Prop where
  revision : e.revision ≤ e'.revision
  sloMet : ∀ value, e.value = some value → value.sloMet = true →
    e' = e ∨ ∃ value', e'.value = some value' ∧ value'.sloMet = true ∧ value'.Cheaper value

namespace FrequencyTableEntry

theorem Becomes.refl (e : FrequencyTableEntry K) : e.Becomes e := ⟨le_rfl, fun _ _ _ => .inl rfl⟩

theorem Becomes.trans {e e' e'' : FrequencyTableEntry K} (h : e.Becomes e') (h' : e'.Becomes e'') : e.Becomes e'' := by
  refine ⟨h.revision.trans h'.revision, fun value hv hmet => ?_⟩
  rcases h.sloMet value hv hmet with rfl | ⟨value', hv', hmet', hcheaper⟩
  · exact h'.sloMet value hv hmet
  · right
    rcases h'.sloMet value' hv' hmet' with rfl | ⟨value'', hv'', hmet'', hcheaper'⟩
    · exact ⟨value', hv', hmet', hcheaper⟩
    · exact ⟨value'', hv'', hmet'', hcheaper'.trans hcheaper⟩

end FrequencyTableEntry

theorem FrequencyDecision.yields_true {current candidate : FrequencyDecision K} (h : current.yields candidate = .ok true)
    (hmet : current.sloMet = true) : candidate.sloMet = true ∧ candidate.Cheaper current := by
  unfold yields at h
  simp only [hmet, if_true] at h
  split at h
  case isTrue => simp at h
  case isFalse hcandidate =>
  split at h
  case h_1 a b ha hb => exact ⟨by simpa using hcandidate, a, b, ha, hb, by simpa using h⟩
  case h_2 => cases h

namespace WorkloadFrequencyTable
variable {t : WorkloadFrequencyTable K} {c : WriteCall K}

theorem becomes_write (h : t.Valid) (c : WriteCall K) (w : Workload) :
    (t.entries w).Becomes ((t.write c).2.entries w) := by
  have hw := written (c := c) h
  generalize t.write c = r at hw ⊢
  cases hw with
  | raised => exact .refl _
  | kept => exact .refl _
  | published v candidate expected _ _ _ _ hyields =>
    by_cases hv : w = v
    · subst hv
      simp only [updated, Function.update_self]
      refine ⟨Nat.le_succ _, fun value hvalue hmet => .inr ⟨candidate, rfl, ?_⟩⟩
      exact FrequencyDecision.yields_true (hyields value hvalue) hmet
    · simp only [updated, Function.update_of_ne hv]
      exact .refl _

theorem becomes_run (h : t.Valid) (calls : List (WriteCall K)) (w : Workload) :
    (t.entries w).Becomes ((t.run calls).entries w) := by
  induction calls generalizing t with
  | nil => exact .refl _
  | cons c calls ih => exact (becomes_write h c w).trans (ih (h.write c))

/-- The law of one call. -/
structure CallLaw (t : WorkloadFrequencyTable K) (c : WriteCall K) : Prop where
  revision : ∀ w, ((t.write c).2.entries w).revision =
    (t.entries w).revision + if ((t.write c).2.entries w).value = (t.entries w).value then 0 else 1
  others : ∀ w, c.workloadId ≠ w.id → (t.write c).2.entries w = t.entries w
  invalid : ∀ e, FrequencyDecision.fromMapping c.value.rawValue = .error e → t.write c = (.error e, t)
  stale : ∀ w, c.workloadId = w.id → c.expectedRevision.isNull = false →
    c.expectedRevision ≠ .int (t.entries w).revision → ∃ e, t.write c = (.error e, t)

theorem callLaw (h : t.Valid) (c : WriteCall K) : t.CallLaw c := by
  have hw := written (c := c) h
  refine ⟨fun w => ?_, fun w hother => ?_, fun e he => ?_, fun w hid hnull hstale => ?_⟩
  · generalize t.write c = r at hw ⊢
    cases hw with
    | raised => simp
    | kept => simp
    | published v candidate expected _ _ _ hne =>
      by_cases hv : w = v
      · subst hv
        simp only [updated, Function.update_self]
        rw [if_neg (Ne.symm hne)]
      · simp only [updated, Function.update_of_ne hv]
        simp
  · generalize t.write c = r at hw ⊢
    cases hw with
    | raised => rfl
    | kept => rfl
    | published v candidate expected hv =>
      have hne : w ≠ v := fun hwv => hother (hwv ▸ hv)
      simp only [updated, Function.update_of_ne hne]
  · have hcheck : c.check = .error e := by
      unfold WriteCall.check
      rw [he]
      rfl
    unfold write
    rw [hcheck]
  · -- A call that gets past the lock has no expectation or the one that the entry meets.
    have hno : ∀ v candidate expected, c.workloadId = v.id → c.check = .ok (candidate, expected) →
        (∀ z, expected = some z → z = (t.entries v).revision) → False := by
      intro v candidate expected hv hcheck hrevision
      obtain rfl : v = w := Workload.id_injective (hv.symm.trans hid)
      rcases (check_ok hcheck).2 with hn | ⟨z, rfl, hz⟩
      · simp [hn] at hnull
      · exact hstale (hz.trans (congrArg Json.int (hrevision z rfl)))
    generalize t.write c = r at hw ⊢
    cases hw with
    | raised e => exact ⟨e, rfl⟩
    | kept v candidate expected hv hcheck hrevision => exact (hno v candidate expected hv hcheck hrevision).elim
    | published v candidate expected hv hcheck hrevision => exact (hno v candidate expected hv hcheck hrevision).elim

/-- A table at a path with no file yet. -/
def newTable : WorkloadFrequencyTable ℚ where
  path := "frequency_table.json"
  entries := fun w => ⟨w.id, 0, none⟩
  disk := ⟨some (.document (documentLocked fun w => ⟨w.id, 0, none⟩)), none⟩

def measured (energy : ℚ) : RawDecision ℚ where
  prefillFrequencyMhz := .int 1710
  decodeFrequencyMhz := .int 975
  measuredPowerW := .float 220
  measuredEnergyJ := .float energy
  ttftMs := .int 499
  tpotMs := .int 200
  prefillEndpointId := .str "P0"
  decodeEndpointId := .str "D0"
  sampleCount := .int 3
  updatedUnixS := .int 1700000000
  source := .str "joint_pd_confirmation"
  sloMet := .bool true
  fallbackReason := .null

def fallback : RawDecision ℚ where
  prefillFrequencyMhz := .int 2520
  decodeFrequencyMhz := .int 1500
  measuredPowerW := .null
  measuredEnergyJ := .null
  ttftMs := .null
  tpotMs := .null
  prefillEndpointId := .str "P0"
  decodeEndpointId := .str "D0"
  sampleCount := .int 0
  updatedUnixS := .int 1700000000
  source := .str "safe_high_after_slo_exhausted"
  sloMet := .bool false
  fallbackReason := .str "no candidate satisfied the SLO"

/-- A fallback, a measurement, a fallback that is not taken, a cheaper one that fails to be written and a cheaper one. -/
def sampleCalls : List (WriteCall ℚ) :=
  [⟨"small_light", .decision fallback, .null, none⟩, ⟨"small_light", .decision (measured 18), .int 1, none⟩,
    ⟨"small_light", .mapping fallback.asdict, .null, none⟩, ⟨"small_light", .decision (measured 17), .int 2, some .fsync⟩,
    ⟨"small_light", .decision (measured 16), .int 2, none⟩]

theorem newTable_valid : newTable.Valid := by
  refine ⟨fun w => ⟨rfl, by simp [newTable], ?_⟩, rfl⟩
  rintro value ⟨⟩

/-- After any calls the table is valid; the next call, whatever it is, obeys the law of one call; and after any later
    calls every entry has become what it may become. -/
theorem keeps_good_decisions (t : WorkloadFrequencyTable K) (h : t.Valid) (calls : List (WriteCall K)) :
    (t.run calls).Valid ∧ (∀ c, (t.run calls).CallLaw c) ∧
      ∀ later w, ((t.run calls).entries w).Becomes (((t.run calls).run later).entries w) :=
  ⟨h.run calls, callLaw (h.run calls), becomes_run (h.run calls)⟩

theorem keeps_good_decisions_sample :
    ((newTable.run sampleCalls).entries .smallLight).revision = 3 ∧ newTable.Valid ∧ (newTable.run sampleCalls).Valid ∧
      (∀ c, (newTable.run sampleCalls).CallLaw c) ∧
      ∀ later w, ((newTable.run sampleCalls).entries w).Becomes (((newTable.run sampleCalls).run later).entries w) :=
  ⟨by decide +kernel, newTable_valid, keeps_good_decisions newTable newTable_valid sampleCalls⟩

/-! ### The file -/

/-- The file holds the document of the entries and loads as them, and it stands alone. -/
structure Synced (t : WorkloadFrequencyTable K) : Prop where
  entries : ∀ w, (t.entries w).Valid w
  clean : t.disk.temporary = none
  file : ∃ doc, t.disk.file = some (.document doc) ∧ doc.Same (documentLocked t.entries) ∧
    load t.path (.document doc) = .ok t.entries

theorem Synced.valid (h : t.Synced) : t.Valid := ⟨h.entries, h.clean⟩

/-- A file that holds the written document itself. -/
theorem synced_of_document (h : t.Valid) (hfile : t.disk.file = some (.document (documentLocked t.entries))) : t.Synced :=
  ⟨h.entries, h.clean, _, hfile, .refl _, load_document h.entries⟩

theorem synced_updated {w : Workload} {candidate : FrequencyDecision K} (h : (t.updated w candidate).Valid) :
    (t.updated w candidate).Synced := synced_of_document h rfl

/-- The constructor leaves a synced table, whether it loads a file or writes the first one. -/
theorem synced_open {path : String} {disk : Disk K} {fault : Option PersistStep} (hclean : disk.temporary = none)
    (h : «open» path disk fault = .ok t) :
    t.Synced ∧ (disk.file = none → t.disk.file = some (.document (documentLocked t.entries))) := by
  unfold «open» at h
  cases hfile : disk.file with
  | some content =>
    simp only [hfile, bind_eq_ok] at h
    obtain ⟨entries, hload, h⟩ := h
    obtain rfl := Except.ok.inj h
    obtain ⟨hvalid, doc, rfl, hsame⟩ := load_ok hload
    exact ⟨⟨hvalid, hclean, doc, hfile, hsame, hload⟩, fun h => by cases h⟩
  | none =>
    simp only [hfile, persistLocked_eq] at h
    cases fault with
    | some step => cases h
    | none =>
      obtain rfl := Except.ok.inj h
      refine ⟨synced_of_document ⟨fun w => ⟨rfl, by simp, ?_⟩, rfl⟩ rfl, fun _ => rfl⟩
      rintro value ⟨⟩

theorem Synced.write (h : t.Synced) (c : WriteCall K) : (t.write c).2.Synced := by
  have hw := written (c := c) h.valid
  have hvalid := h.valid.write c
  generalize t.write c = r at hw hvalid ⊢
  cases hw with
  | raised => exact h
  | kept => exact h
  | published => exact synced_updated hvalid

theorem Synced.run (h : t.Synced) (calls : List (WriteCall K)) : (t.run calls).Synced := by
  induction calls generalizing t with
  | nil => exact h
  | cons c calls ih => exact ih (h.write c)

theorem raised_unchanged (h : t.Valid) {e : TableError} (he : (t.write c).1 = .error e) : (t.write c).2 = t := by
  have hw := written (c := c) h
  generalize t.write c = r at hw he ⊢
  cases hw with
  | raised => rfl
  | kept => rfl
  | published => cases he

/-- Once the file is the document as the table writes it, it stays so. -/
theorem exact_write (h : t.Valid) (c : WriteCall K)
    (hfile : (t.write c).2.entries = t.entries → t.disk.file = some (.document (documentLocked t.entries))) :
    (t.write c).2.disk.file = some (.document (documentLocked (t.write c).2.entries)) := by
  have hw := written (c := c) h
  generalize t.write c = r at hw hfile ⊢
  cases hw with
  | raised => exact hfile rfl
  | kept => exact hfile rfl
  | published => rfl

theorem exact_run (h : t.Valid) (hfile : t.disk.file = some (.document (documentLocked t.entries)))
    (calls : List (WriteCall K)) : (t.run calls).disk.file = some (.document (documentLocked (t.run calls).entries)) := by
  induction calls generalizing t with
  | nil => exact hfile
  | cons c calls ih => exact ih (h.write c) (exact_write h c fun _ => hfile)

/-- After any calls, any of which fails at any step, the file holds the document of the entries in memory and loads as
    them, and no temporary file is left; a call that raises changes neither. A file that the table has written is the
    document to the letter. -/
theorem file_follows_memory (path : String) (disk : Disk K) (fault : Option PersistStep) (hclean : disk.temporary = none)
    (h : «open» path disk fault = .ok t) (calls : List (WriteCall K)) (c : WriteCall K) :
    let before := t.run calls
    let after := (before.write c).2
    after.Synced ∧
      (∀ e, (before.write c).1 = .error e → after.entries = before.entries ∧ after.disk = before.disk) ∧
      (disk.file = none ∨ after.entries ≠ before.entries →
        after.disk.file = some (.document (documentLocked after.entries))) := by
  obtain ⟨hsynced, hfresh⟩ := synced_open hclean h
  have hbefore := hsynced.run calls
  refine ⟨hbefore.write c, fun e he => ?_, fun hor => exact_write hbefore.valid c fun heq => ?_⟩
  · have hsame := raised_unchanged hbefore.valid he
    exact ⟨congrArg (·.entries) hsame, congrArg (·.disk) hsame⟩
  · rcases hor with hnone | hne
    · exact exact_run hsynced.valid (hfresh hnone) calls
    · exact (hne heq).elim

theorem open_newTable : «open» "frequency_table.json" ⟨none, none⟩ none = .ok newTable := rfl

/-- The next write fails at its last step. -/
def failingCall : WriteCall ℚ := ⟨"both_heavy", .decision (measured 20), .int 0, some .replace⟩

theorem file_follows_memory_sample :
    let before := newTable.run sampleCalls
    let after := (before.write failingCall).2
    after.Synced ∧
      (∀ e, (before.write failingCall).1 = .error e → after.entries = before.entries ∧ after.disk = before.disk) ∧
      ((⟨none, none⟩ : Disk ℚ).file = none ∨ after.entries ≠ before.entries →
        after.disk.file = some (.document (documentLocked after.entries))) :=
  file_follows_memory (t := newTable) _ _ _ rfl open_newTable sampleCalls failingCall

end WorkloadFrequencyTable
end CanaTune
