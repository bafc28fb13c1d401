import CanaTune.Domain.RiskStore
import CanaTune.Theorems.Stored

/-! A saved risk table comes back complete. A cell's name is read back as the cell, so no two cells share one, and every
    count returns to the cell it was taken from. -/

namespace CanaTune
variable {K : Type} [Scalar K]
open PyValue

/-! ### Names of cells -/

theorem splitOn_bars {a b c d : String} (ha : '|' ∉ a.toList) (hb : '|' ∉ b.toList) (hc : '|' ∉ c.toList)
    (hd : '|' ∉ d.toList) :
    ((a ++ "|" ++ b ++ "|" ++ c ++ "|" ++ d).toList.splitOn '|').map String.ofList = [a, b, c, d] := by
  have hlist : (a ++ "|" ++ b ++ "|" ++ c ++ "|" ++ d).toList
      = ['|'].intercalate [a.toList, b.toList, c.toList, d.toList] := by simp [List.intercalate]
  rw [hlist, List.splitOn_intercalate '|' (by simp [ha, hb, hc, hd]) (by simp)]
  simp

theorem bar_notMem_repr (n : ℕ) : '|' ∉ n.repr.toList := by
  intro h
  rw [Nat.toList_repr] at h
  have hdigit := Nat.isDigit_of_mem_toDigits (by omega) (by omega) h
  cases hdigit

theorem bar_notMem_key (p : ClockPoint) : '|' ∉ p.key.toList := by
  intro h
  simp only [ClockPoint.key, String.toList_append, List.mem_append] at h
  rcases h with (h | h) | h
  · exact bar_notMem_repr _ h
  · exact absurd h (by decide)
  · exact bar_notMem_repr _ h

namespace Cell

/-- A cell's name is read back as the cell. -/
theorem fromKey_key (c : Cell) : NamedCell.fromKey c.key = .ok c.named := by
  have hflag : '|' ∉ (if c.dBusy then "1" else "0" : String).toList := by
    cases c.dBusy <;> decide
  have hint : ∀ n : ℕ, (Key.str (n : ℤ).repr).toInt = .ok (n : ℤ) := fun n => by
    rw [Key.toInt, parseInt_repr]
    rfl
  have hparts : (c.key.toList.splitOn '|').map String.ofList
      = [c.clock.key, (c.nAwait : ℤ).repr, (c.prompt : ℤ).repr, if c.dBusy then "1" else "0"] :=
    splitOn_bars (bar_notMem_key _) (bar_notMem_repr _) (bar_notMem_repr _) hflag
  rw [NamedCell.fromKey, hparts]
  simp only [named, hint, bind, Except.bind, pure, Except.pure]
  cases c.dBusy <;> rfl

/-- And it is the cell that is looked up under it. -/
theorem cell?_named (c : Cell) : c.named.cell? = some c := by
  simp [NamedCell.cell?, named, ClockPoint.fromKey_key]

theorem key_injective : Function.Injective Cell.key := fun c c' h => by
  have hc := fromKey_key c
  rw [h, fromKey_key] at hc
  have hsame := cell?_named c
  rw [← Except.ok.inj hc, cell?_named] at hsame
  exact (Option.some.inj hsame).symm

end Cell

/-! ### Equal values -/

namespace PyValue

theorem eqv_ints (l : List ℕ) :
    (ofList (fun e : ℕ => PyValue.int (K := K) e) l).eqv (ofList (fun e : ℕ => .int e) l) = true := by
  unfold ofList eqv
  induction l with
  | nil => rfl
  | cons e l ih => simp [eqvItems, eqv, number?, ih]

/-- JSON returns the value as it was written. -/
def Returned (v : PyValue K) : Prop := v.sortable = true ∧ v.restore.eqv v = true

end PyValue

namespace RiskTable
variable {t t' : RiskTable} {α : Type}

/-! ### What the counts decide -/

/-- The same buckets, samples needed, counts and visits. -/
structure SameCounts (t t' : RiskTable) : Prop where
  buckets : t'.buckets = t.buckets
  minSamples : t'.minSamples = t.minSamples
  cells : t.cells.Rel Eq t'.cells
  visits : t.visits.Rel Eq t'.visits

theorem SameCounts.estimate (h : SameCounts t t') (c : Cell) : (t'.estimate c : RiskEstimate K) = t.estimate c := by
  have hcells : ∀ o, t'.cells.lookup o = t.cells.lookup o := fun o => (Dict.rel_eq.mp h.cells o).symm
  have hown : ∀ o, (t'.own o : Option (RiskEstimate K)) = t.own o := fun o => by rw [own, own, hcells, h.minSamples]
  have hpooled : ∀ region, t'.pooled c region = t.pooled c region := fun region => by simp only [pooled, hcells]
  have hstep : t'.pooledStep (K := K) c = t.pooledStep c := by
    funext acc region
    rw [pooledStep, pooledStep, hpooled, h.minSamples]
  have hlower : (t'.lower c : K) = t.lower c := by simp only [lower, hown]
  have hheavier : (t'.heavier c : Option K) = t.heavier c := by simp only [heavier, hown, h.buckets]
  simp only [RiskTable.estimate, hown, hlower, hheavier, hstep, h.buckets]

theorem SameCounts.clockUsable (h : SameCounts t t') (clock : ClockPoint) (theta : K) :
    t'.clockUsable clock theta = t.clockUsable clock theta := by
  have hperm := Dict.perm_of_rel h.cells
  rw [RiskTable.clockUsable, RiskTable.clockUsable, h.minSamples]
  exact hperm.symm.any_eq

theorem SameCounts.mem_candidates (h : SameCounts t t') (theta : K) (e : ExplorationCandidate K) :
    e ∈ t'.explorationCandidates theta ↔ e ∈ t.explorationCandidates theta := by
  have hcandidate : ∀ c visits, t'.candidate theta c visits = t.candidate theta c visits := fun c visits => by
    rw [candidate, candidate, h.estimate, h.minSamples, Dict.rel_eq.mp h.cells c]
  have hperm := Dict.perm_of_rel h.visits
  simp only [explorationCandidates, (List.perm_insertionSort _ _).mem_iff, hcandidate]
  exact (hperm.symm.filterMap _).mem_iff

/-! ### Names and counts -/

omit [Scalar K] in
/-- Entries under the names of their cells make a dictionary that finds them again. -/
theorem lookup_byKey {l : List (Cell × α)} {d : Dict Cell α} (hl : l.Perm d.items) (c : Cell) :
    (Dict.ofList (l.map fun e => (e.1.key, e.2))).lookup c.key = d.lookup c := by
  have hnodup : ((l.map fun e => (e.1.key, e.2)).map (·.1)).Nodup := by
    have hcells := (hl.map (·.1)).nodup_iff.mpr d.nodup_items
    rw [List.map_map]
    have := hcells.map Cell.key_injective
    rwa [List.map_map] at this
  ext v
  rw [Dict.lookup_ofList hnodup, ← Dict.mem_items, ← hl.mem_iff, List.mem_map]
  constructor
  · rintro ⟨⟨c', v'⟩, he, heq⟩
    obtain ⟨hkey, rfl⟩ := Prod.mk.inj heq
    exact Cell.key_injective hkey ▸ he
  · exact fun he => ⟨_, he, rfl⟩

theorem names_byKey {l : List (Cell × α)} {s : String} {v : α}
    (h : (s, v) ∈ (Dict.ofList (l.map fun e => (e.1.key, e.2))).items) :
    ∃ c : Cell, c.key = s := by
  obtain ⟨e, -, heq⟩ := List.mem_map.mp (Dict.mem_of_mem_ofList h)
  exact ⟨e.1, (Prod.mk.inj heq).1⟩

/-- Entries under the names of cells are merged into the cells they name. -/
theorem merge_lookup {l : List (String × α)} (hn : (l.map (·.1)).Nodup) (hkeys : ∀ e ∈ l, ∃ c : Cell, c.key = e.1) :
    ∀ d : Dict Cell α, ∃ d', merge d l = .ok d' ∧ ∀ c, d'.lookup c = (l.lookup c.key).or (d.lookup c) := by
  induction l with
  | nil => exact fun d => ⟨d, rfl, fun _ => rfl⟩
  | cons e l ih =>
    intro d
    rw [List.map_cons, List.nodup_cons] at hn
    obtain ⟨c₀, hc₀⟩ := hkeys e List.mem_cons_self
    obtain ⟨d', hmerge, hlookup⟩ := ih hn.2 (fun e' he' => hkeys e' (List.mem_cons_of_mem _ he')) (d.insert c₀ e.2)
    refine ⟨d', ?_, fun c => ?_⟩
    · rw [← hmerge, merge, List.foldlM_cons, ← hc₀, Cell.fromKey_key]
      simp only [bind, Except.bind, pure, Except.pure, Cell.cell?_named, Option.elim_some]
      rfl
    · rw [hlookup]
      rcases eq_or_ne c c₀ with rfl | hne
      -- The key does not come again in the rest.
      · have hnone : l.lookup c.key = Option.none := by
          rw [Option.eq_none_iff_forall_ne_some]
          intro v hv
          exact hn.1 (hc₀ ▸ List.mem_map.mpr ⟨_, (Dict.lookup_eq_some hn.2).mp hv, rfl⟩)
        rw [hnone, Option.none_or, AList.lookup_insert, List.lookup_cons, hc₀, beq_self_eq_true]
        rfl
      · have hkey : (c.key == e.1) = false := by
          rw [beq_eq_false_iff_ne, ← hc₀]
          exact fun h => hne (Cell.key_injective h)
        rw [AList.lookup_insert_ne hne, List.lookup_cons, hkey]

/-- Counts written under the names of their cells, read back in any order and merged into nothing, are the counts. -/
theorem merge_restored {l : List (Cell × α)} {d : Dict Cell α} (hl : l.Perm d.items) {read : Dict String α}
    (hread : (Dict.ofList (l.map fun e => (e.1.key, e.2))).Rel Eq read) :
    ∃ d', merge ∅ read.items = .ok d' ∧ d.Rel Eq d' := by
  have hkeys : ∀ e ∈ read.items, ∃ c : Cell, c.key = e.1 := fun e he =>
    names_byKey ((Dict.perm_of_rel hread).mem_iff.mpr he)
  obtain ⟨d', hmerge, hlookup⟩ := merge_lookup read.nodup_items hkeys ∅
  refine ⟨d', hmerge, Dict.rel_eq.mpr fun c => ?_⟩
  have hitems : read.items.lookup c.key = read.lookup c.key := by
    ext v
    rw [Dict.lookup_eq_some read.nodup_items, Dict.mem_items]
  rw [hlookup, hitems, ← Dict.rel_eq.mp hread c.key, lookup_byKey hl c]
  cases d.lookup c <;> rfl

/-! ### Save and load -/

omit [Scalar K] in
theorem getOr_entry {entries : List (Key × PyValue K)} (h : TidyKeys (entries.map (·.1))) {name : String}
    {x default : PyValue K} (hx : entries.lookup (.str name) = some x) :
    (restore (dict entries)).getOr name default = .ok x.restore := by
  obtain ⟨entries', he, -⟩ := restore_dict_perm entries
  simp only [he, getOr, items, bind, Except.bind, pure, Except.pure, entry_restore h he hx]
  rfl

theorem readStats_restore (s : CellStats) : ∃ s', readStats (statsValue (K := K) s).restore = .ok s' ∧ s = s' := by
  have hnames : TidyKeys [Key.str "admitted", Key.str "violated"] := tidyKeys_names (by decide) (by decide)
  let entries : List (Key × PyValue K) := [(.str "admitted", .int s.admitted), (.str "violated", .int s.violated)]
  have htidy : TidyKeys (entries.map (·.1)) := hnames
  have hadmitted : entries.lookup (.str "admitted") = some (.int s.admitted) := rfl
  have hviolated : entries.lookup (.str "violated") = some (.int s.violated) := rfl
  refine ⟨s, ?_, rfl⟩
  simp only [readStats, bind_eq_ok]
  exact ⟨_, (get_entry htidy hadmitted).1, _, rfl, _, (get_entry htidy hviolated).1, _, rfl, rfl⟩

theorem readVisits_restore (n : ℕ) : ∃ n', readVisits (PyValue.int (K := K) (n : ℤ)).restore = .ok n' ∧ n = n' := by
  refine ⟨n, ?_, rfl⟩
  simp [readVisits, restore, toInt, bind, Except.bind, pure, Except.pure]

omit [Scalar K] in
theorem restore_ofList_ints (l : List ℕ) :
    (ofList (fun e : ℕ => PyValue.int (K := K) e) l).restore = ofList (fun e : ℕ => .int e) l := by
  rw [ofList, restore, restoreItems_eq, List.map_map]
  rfl

omit [Scalar K] in
theorem tidyKeys_entries (t : RiskTable) (identity : PyValue K) : TidyKeys ((t.entries identity).map (·.1)) := by
  have hnames : TidyKeys [Key.str "schema_version", Key.str "identity", Key.str "buckets", Key.str "cells",
    Key.str "visits"] := tidyKeys_names (by decide) (by decide +kernel)
  exact hnames

omit [Scalar K] in
theorem get_toJson (t : RiskTable) {identity x : PyValue K} {name : String}
    (hx : (t.entries identity).lookup (.str name) = some x) : (t.toJson identity).restore.get name = .ok x.restore :=
  (get_entry (t.tidyKeys_entries identity) hx).2

omit [Scalar K] in
theorem getOr_toJson (t : RiskTable) {identity x : PyValue K} {name : String}
    (hx : (t.entries identity).lookup (.str name) = some x) (default : PyValue K) :
    (t.toJson identity).restore.getOr name default = .ok x.restore :=
  getOr_entry (t.tidyKeys_entries identity) hx

omit [Scalar K] in
theorem edges_restore (b : Buckets) (default : PyValue K) :
    (bucketsValue (K := K) b).restore.getOr "n_await_edges" default = .ok (ofList (fun e : ℕ => .int e) b.nAwait) ∧
      (bucketsValue (K := K) b).restore.getOr "prompt_token_edges" default
        = .ok (ofList (fun e : ℕ => .int e) b.promptTokens) := by
  have hnames : TidyKeys [Key.str "n_await_edges", Key.str "prompt_token_edges"] :=
    tidyKeys_names (by decide) (by decide +kernel)
  let entries : List (Key × PyValue K) := [(.str "n_await_edges", ofList (fun e : ℕ => .int e) b.nAwait),
    (.str "prompt_token_edges", ofList (fun e : ℕ => .int e) b.promptTokens)]
  have htidy : TidyKeys (entries.map (·.1)) := hnames
  have hrows : entries.lookup (.str "n_await_edges") = some (ofList (fun e : ℕ => .int e) b.nAwait) := rfl
  have hcols : entries.lookup (.str "prompt_token_edges") = some (ofList (fun e : ℕ => .int e) b.promptTokens) := rfl
  rw [← restore_ofList_ints b.nAwait, ← restore_ofList_ints b.promptTokens]
  exact ⟨getOr_entry htidy hrows, getOr_entry htidy hcols⟩

omit [Scalar K] in
theorem sortable_toJson (t : RiskTable) {identity : PyValue K} (h : identity.sortable = true) :
    (t.toJson identity).sortable = true := by
  have hints : ∀ l : List ℕ, (ofList (fun e : ℕ => PyValue.int (K := K) e) l).sortable = true := fun l => by
    simp [ofList, sortable, sortableItems_eq]
  have hbuckets : (bucketsValue (K := K) t.buckets).sortable = true := by
    simp [bucketsValue, sortable, sortableEntries_eq, Key.isInt, hints]
  have hcells : (ofNames (statsValue (K := K)) t.cellsByKey).sortable = true :=
    StoredModel.sortable_ofDict (fun s => s) (fun s => by simp [statsValue, sortable, sortableEntries_eq, Key.isInt]) _
  have hint : ∀ n : ℕ, (PyValue.int (K := K) n).sortable = true := fun _ => rfl
  have hvisits : (ofNames (fun n : ℕ => PyValue.int (K := K) n) t.visitsByKey).sortable = true :=
    StoredModel.sortable_ofDict (fun s => s) hint _
  simp [toJson, entries, sortable, sortableEntries_eq, Key.isInt, h, hbuckets, hcells, hvisits]

/-- What the file returns is loaded into an empty table of the same configuration with every count. -/
theorem load_restored (t : RiskTable) {identity : PyValue K} (hidentity : identity.Returned) :
    ∃ t', load (fresh t.buckets t.minSamples t.minSamples_pos) identity (t.toJson identity).restore = .ok t' ∧
      SameCounts t t' := by
  have hschema : (t.entries identity).lookup (.str "schema_version") = some (.int schemaVersion) := rfl
  have hwritten : (t.entries identity).lookup (.str "identity") = some identity := rfl
  have hbuckets : (t.entries identity).lookup (.str "buckets") = some (bucketsValue t.buckets) := rfl
  have hcells : (t.entries identity).lookup (.str "cells") = some (ofNames statsValue t.cellsByKey) := rfl
  have hvisits : (t.entries identity).lookup (.str "visits") = some (ofNames (fun n : ℕ => .int n) t.visitsByKey) := rfl
  -- What was written under each key is read back; the two tables are merged name by name.
  obtain ⟨hrows, hcols⟩ := edges_restore t.buckets (.list [] : PyValue K)
  obtain ⟨stats, hstats, hstatsRel⟩ := StoredModel.names_restore (K := K) (R := Eq) readStats_restore t.cellsByKey
  obtain ⟨counts, hcounts, hcountsRel⟩ := StoredModel.names_restore (K := K) (R := Eq) readVisits_restore t.visitsByKey
  obtain ⟨cells, hmergeCells, hcellsRel⟩ := merge_restored (List.perm_insertionSort _ t.cells.items) hstatsRel
  obtain ⟨visits, hmergeVisits, hvisitsRel⟩ := merge_restored (List.Perm.refl t.visits.items) hcountsRel
  refine ⟨{ t with cells, visits }, ?_, rfl, rfl, hcellsRel, hvisitsRel⟩
  have hversion : (PyValue.int (K := K) schemaVersion).restore.eqv (.int schemaVersion) = true := by
    simp [restore, eqv, number?]
  rw [load]
  simp only [fresh, python, t.get_toJson hschema, t.get_toJson hwritten, t.getOr_toJson hbuckets,
    t.getOr_toJson hcells, t.getOr_toJson hvisits, hrows, hcols, hstats, hcounts, hmergeCells, hmergeVisits,
    hversion, hidentity.2, eqv_ints, Except.mapError, bind, Except.bind, Bool.not_true, Bool.false_eq_true, if_false,
    Bool.or_self, pure, Except.pure]

/-- A saved table comes back complete: estimates, visits, usable clocks and exploration candidates are the same, every
    cell is read back from its name, and no two cells share one. -/
theorem load_saved (t : RiskTable) {identity : PyValue K} (hidentity : identity.Returned) :
    ∃ raw t', (t.toJson identity).reload = .ok raw ∧
      load (fresh t.buckets t.minSamples t.minSamples_pos) identity raw = .ok t' ∧
      (∀ c, (t'.estimate c : RiskEstimate K) = t.estimate c) ∧ (∀ c, t'.visits.lookup c = t.visits.lookup c) ∧
      (∀ clock (theta : K), t'.clockUsable clock theta = t.clockUsable clock theta) ∧
      (∀ (theta : K) e, e ∈ t'.explorationCandidates theta ↔ e ∈ t.explorationCandidates theta) ∧
      (∀ c : Cell, NamedCell.fromKey c.key = .ok c.named ∧ c.named.cell? = some c) ∧
      ∀ c c' : Cell, c.key = c'.key → c = c' := by
  obtain ⟨t', hload, hsame⟩ := t.load_restored hidentity
  refine ⟨_, t', ?_, hload, hsame.estimate, fun c => (Dict.rel_eq.mp hsame.visits c).symm, hsame.clockUsable,
    hsame.mem_candidates, fun c => ⟨c.fromKey_key, c.cell?_named⟩, fun c c' h => Cell.key_injective h⟩
  rw [reload, t.sortable_toJson hidentity.1, if_pos rfl]

/-- One violation in one visited cell. -/
def savedTable : RiskTable :=
  let t := (smallTable.lookup smallMax 1 512 true : RiskEstimate ℚ × RiskTable).2
  t.record (t.cell smallMax 1 512 true) true

def sampledIdentity : PyValue ℚ := .dict [(.str "model", .str "m"), (.str "engine", .int 1)]

theorem load_saved_sampled : ∃ raw t', (savedTable.toJson sampledIdentity).reload = .ok raw ∧
    load (fresh savedTable.buckets savedTable.minSamples savedTable.minSamples_pos) sampledIdentity raw = .ok t' ∧
    t'.visits.lookup (savedTable.cell smallMax 1 512 true) = some 1 := by
  have hidentity : sampledIdentity.Returned := ⟨by decide +kernel, by decide +kernel⟩
  obtain ⟨raw, t', hraw, hload, -, hvisits, -⟩ := load_saved savedTable hidentity
  refine ⟨raw, t', hraw, hload, ?_⟩
  rw [hvisits]
  decide +kernel

end RiskTable
end CanaTune
