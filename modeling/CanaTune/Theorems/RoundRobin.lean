import CanaTune.Lib.RoundRobin
import CanaTune.Theorems.Attempt

/-! The two round robin paths of the Router: the pairs of baseline mode, and the group among the feasible ones. Both
    take the first ready group at or after their cursor and move it on behind it. -/

namespace CanaTune
variable {K : Type} [Scalar K] {n : ℕ}

open RoundRobin (Turn TurnRun distance)

namespace Router

/-! ### What a ticket leaves alone -/

theorem applyTable_cursors (r : Router K n) : r.applyTable.rr = r.rr ∧ r.applyTable.groupRr = r.groupRr := by
  unfold applyTable
  dsimp only
  split_ifs <;> exact ⟨rfl, rfl⟩

/-- Issuing a ticket moves no cursor, and the ticket is of P's group. -/
theorem issue_cursors (r : Router K n) (c : Candidate K n) (tokens : ℕ) (exact : Bool) (waitedMs : K)
    (kind : Option Overflow) :
    (r.issue c tokens exact waitedMs kind).2.rr = r.rr ∧
      (r.issue c tokens exact waitedMs kind).2.groupRr = r.groupRr ∧
      (r.issue c tokens exact waitedMs kind).1.group = c.route.p := by
  have happly := r.applyTable_cursors
  have hreserve (s : Router K n) (sOwn : K) :
      (s.reserve c.route sOwn tokens).rr = s.rr ∧ (s.reserve c.route sOwn tokens).groupRr = s.groupRr := by
    unfold reserve
    dsimp only
    generalize hs : (s.setGroup c.route.p _).setGroup c.route.d _ = s'
    obtain ⟨groups, hj⟩ := joinRoute_eq s' c.route
    rw [hj, ← hs]
    exact ⟨rfl, rfl⟩
  unfold issue prefillCost
  dsimp only
  exact ⟨(hreserve _ _).1.trans happly.1, (hreserve _ _).2.trans happly.2, rfl⟩

/-! ### Baseline mode -/

/-- An admission of baseline mode without fill: the pairs within the hard limits, and the one that takes the request. -/
def BaselineTurn (r : Router K n) (t : Turn n) (s : Router K n) : Prop :=
  ∃ tokens exact waitedMs ticket, r.settings.groupChoice ≠ .fill ∧
    r.admitBaseline tokens exact waitedMs = .ok (some ticket, s) ∧
    t = ⟨{g | (r.baselineUsable tokens false g).1.isSome}, ticket.group⟩

theorem baselineUsable_isSome (r : Router K n) (tokens : ℕ) (g : Fin n) :
    (r.baselineUsable tokens false g).1.isSome ↔ r.baselineOk tokens false g = true := by
  rw [(baselineUsable_spec r tokens false g).2]
  split_ifs with h <;> simp [h]

omit [Scalar K] in
/-- The first one of the groups in turn is the closest to the cursor. -/
theorem distance_le_of_find {r : Router K n} {p : Fin n → Bool} {g g' : Fin n} (h : r.inTurn.find? p = some g)
    (hp : p g' = true) : distance n r.rr g ≤ distance n r.rr g' := by
  have hindex : ∀ i (hi : i < r.inTurn.length), distance n r.rr r.inTurn[i] = i := by
    intro i hi
    have hi' : i < n := by simpa [inTurn] using hi
    refine RoundRobin.distance_of_steps hi' ?_
    simp [inTurn, List.getElem_rotate]
  obtain ⟨-, before, behind, hsplit, hbefore⟩ := List.find?_eq_some_iff_append.mp h
  have hmem : g' ∈ r.inTurn := by simp [inTurn]
  have hlen : before.length < r.inTurn.length := by simp [hsplit]
  have hg : r.inTurn[before.length] = g := by simp [hsplit]
  obtain ⟨i, hi, hget⟩ := List.mem_iff_getElem.mp hmem
  rw [← hg, ← hget, hindex, hindex]
  by_contra hlt
  have hi' : i < before.length := not_le.mp hlt
  have hg' : g' ∈ before := by
    rw [← hget]
    simp only [hsplit]
    rw [List.getElem_append_left hi']
    exact List.getElem_mem _
  have := hbefore g' hg'
  simp [hp] at this

theorem BaselineTurn.first {r s : Router K n} {t : Turn n} (h : r.BaselineTurn t s) : t.First r.rr ∧ s.rr = t.next := by
  obtain ⟨tokens, exact, waitedMs, ticket, hfill, h, rfl⟩ := h
  have hfill' : (r.settings.groupChoice == .fill) = false := by simpa using hfill
  obtain ⟨-, hus⟩ := usableGroups_spec tokens false r.inTurn r
  unfold admitBaseline at h
  dsimp only at h
  rw [hfill'] at h
  generalize usableGroups tokens false r.inTurn r = e at h hus
  obtain ⟨usable, r'⟩ := e
  dsimp only at h hus
  cases usable with
  | nil => cases h
  | cons first rest =>
    have htake : r'.takeTurn false first (first :: rest) = .ok (first, r') := by simp [takeTurn]
    dsimp only at h
    rw [htake] at h
    obtain ⟨hticket, hs⟩ := Prod.mk.inj (Except.ok.inj h)
    -- Without filling, the usable group is the first of the turn order that is fit.
    have hfind : r.inTurn.find? (r.baselineOk tokens false) = some first.1 := by
      have hmem : first.1 ∈ (r.inTurn.find? (r.baselineOk tokens false)).toList := by
        rw [if_neg Bool.false_ne_true] at hus
        rw [← hus]
        simp
      exact Option.mem_toList.mp hmem
    have hgroup : ticket.group = first.1 := by
      rw [← Option.some.inj hticket]
      exact (issue_cursors _ _ tokens exact waitedMs none).2.2
    have hrr : s.rr = (first.1.val + 1) % n := by
      rw [← hs]
      refine (issue_cursors _ _ tokens exact waitedMs none).1.trans ?_
      exact (applyTable_cursors _).1
    refine ⟨fun g hg => ?_, ?_⟩
    · rw [hgroup]
      exact distance_le_of_find hfind ((baselineUsable_isSome r tokens g).mp hg)
    · rw [hrr, Turn.next, hgroup]

/-! ### The group among the feasible ones -/

/-- An admission through `_choose` with fixed pairs in turn: the groups of the feasible list, and the one that takes
    the request. -/
def ChoiceTurn (r : Router K n) (t : Turn n) (s : Router K n) : Prop :=
  ∃ feasible tokens exact waitedMs kind ticket, r.settings.pairing = .fixed ∧ r.settings.groupChoice = .roundRobin ∧
    r.commit feasible tokens exact waitedMs kind = .ok (some ticket, s) ∧
    t = ⟨{g | ∃ c ∈ feasible, c.route.p = g}, ticket.group⟩

theorem ChoiceTurn.first {r s : Router K n} {t : Turn n} (h : r.ChoiceTurn t s) (hopen : r.openAdmission = false) :
    t.First r.groupRr ∧ s.groupRr = t.next := by
  obtain ⟨feasible, tokens, exact, waitedMs, kind, ticket, hpairing, hchoice, h, rfl⟩ := h
  have hchoose : r.choose feasible = r.chooseFixed feasible := by rw [choose, hpairing]
  rw [commit, hchoose, chooseFixed, hopen, if_neg Bool.false_ne_true, hchoice] at h
  have hdistance : (fun c : Candidate K n => (c.route.p.val + n - r.groupRr % n) % n) =
      fun c => distance n r.groupRr c.route.p := rfl
  rw [hdistance] at h
  cases hmin : feasible.argmin fun c => distance n r.groupRr c.route.p with
  | none => simp [hmin] at h
  | some c =>
    simp only [hmin] at h
    obtain ⟨hticket, hs⟩ := Prod.mk.inj (Except.ok.inj h)
    have hissue := issue_cursors { r with groupRr := (c.route.p.val + 1) % n } c tokens exact waitedMs kind
    have hgroup : ticket.group = c.route.p := by
      rw [← Option.some.inj hticket]
      exact hissue.2.2
    refine ⟨fun g hg => ?_, ?_⟩
    · obtain ⟨c', hc', rfl⟩ := hg
      have hle := List.le_of_mem_argmin (f := fun c : Candidate K n => distance n r.groupRr c.route.p) hc' hmin
      rwa [← hgroup] at hle
    · rw [← hs, hissue.2.1, Turn.next, hgroup]

/-! ### No group is starved -/

/-- In any run of either path, whatever else happens between its admissions, a group that is ready at `n` consecutive
    ones takes one of them. -/
theorem served_of_ready {r₀ r : Router K n} {turns window : List (Turn n)} {g : Fin n}
    (hrun : TurnRun (·.rr) BaselineTurn r₀ turns r ∨
      TurnRun (·.groupRr) (fun r t s => r.openAdmission = false ∧ r.ChoiceTurn t s) r₀ turns r)
    (hwindow : window <:+: turns) (hlen : window.length = n) (hready : ∀ t ∈ window, g ∈ t.ready) :
    ∃ t ∈ window, t.taken = g := by
  rcases hrun with hrun | hrun
  · exact hrun.taken (fun _ _ _ h => h.first) hwindow hlen hready
  · exact hrun.taken (fun _ _ _ h => h.2.first h.1) hwindow hlen hready

/-- A request that baseline mode admits. -/
def turned (r : Router ℚ 2) : Router ℚ 2 :=
  match r.admitBaseline 512 true 0 with
  | .ok (_, s) => s
  | .error _ => r

/-- The group that takes it. -/
def turnOf (r : Router ℚ 2) : Option (Fin 2) :=
  match r.admitBaseline 512 true 0 with
  | .ok (some t, _) => some t.group
  | _ => none

theorem baselineTurn_turned {r : Router ℚ 2} (hchoice : r.settings.groupChoice ≠ .fill) {g : Fin 2}
    (h : r.turnOf = some g) :
    r.BaselineTurn ⟨{g | (r.baselineUsable 512 false g).1.isSome}, g⟩ r.turned := by
  unfold turnOf at h
  unfold turned
  split at h
  case h_1 t s heq =>
    rw [heq]
    exact ⟨512, true, 0, t, hchoice, heq, by rw [Option.some.inj h]⟩
  case h_2 => cases h

/-- Two pairs within their limits take turns. -/
theorem served_of_ready_smallServing : ∃ turns : List (Turn 2), turns.length = 2 ∧ ∃ t ∈ turns, t.taken = 1 := by
  have hstart : TurnRun (·.rr) BaselineTurn (smallServing 2) [] (smallServing 2) := .start
  have hrun := hstart.turn (baselineTurn_turned (by decide +kernel) (g := 0) (by decide +kernel))
  have hrun' := hrun.turn (baselineTurn_turned (by decide +kernel) (g := 1) (by decide +kernel))
  refine ⟨_, rfl, served_of_ready (.inl hrun') (List.infix_refl _) rfl fun t ht => ?_⟩
  simp only [List.nil_append, List.cons_append, List.mem_cons, List.not_mem_nil, or_false] at ht
  rcases ht with rfl | rfl
  · show ((smallServing 2).baselineUsable 512 false 1).1.isSome
    decide +kernel
  · show ((smallServing 2).turned.baselineUsable 512 false 1).1.isSome
    decide +kernel

/-! ### Open admission

Before the first table is published the choice among fixed pairs goes by outstanding prompt work, whatever
`group_choice` says. -/

/-- A cold start with round robin among fixed pairs; much prompt work waits at the second one. -/
def crowded : Router ℚ 2 :=
  let r := smallCold 2
  { r with
    settings := { r.settings with pairing := .fixed, groupChoice := .roundRobin }
    groups := Function.update r.groups 1 { r.groups 1 with tAwait := 100000 } }

/-- Both pairs are feasible. -/
def bothPairs : List (Candidate ℚ 2) :=
  [0, 1].map fun g => ⟨⟨g, g⟩, ⟨smallMax, 0, 0, false⟩, none, false⟩

def chosen (r : Router ℚ 2) : Router ℚ 2 :=
  match r.commit bothPairs 512 true 0 none with
  | .ok (_, s) => s
  | .error _ => r

def choiceOf (r : Router ℚ 2) : Option (Fin 2) :=
  match r.commit bothPairs 512 true 0 none with
  | .ok (some t, _) => some t.group
  | _ => none

theorem choiceTurn_chosen {r : Router ℚ 2} (hpairing : r.settings.pairing = .fixed)
    (hchoice : r.settings.groupChoice = .roundRobin) {g : Fin 2} (h : r.choiceOf = some g) :
    r.ChoiceTurn ⟨{g | ∃ c ∈ bothPairs, c.route.p = g}, g⟩ r.chosen := by
  unfold choiceOf at h
  unfold chosen
  split at h
  case h_1 t s heq =>
    rw [heq]
    exact ⟨bothPairs, 512, true, 0, none, t, hpairing, hchoice, heq, by rw [Option.some.inj h]⟩
  case h_2 => cases h

/-- The second pair is feasible at two consecutive admissions and takes neither. -/
theorem not_served_crowded : ¬∀ (n : ℕ) (r₀ r : Router ℚ n) (turns window : List (Turn n)) (g : Fin n),
    TurnRun (·.rr) BaselineTurn r₀ turns r ∨ TurnRun (·.groupRr) ChoiceTurn r₀ turns r → window <:+: turns →
      window.length = n → (∀ t ∈ window, g ∈ t.ready) → ∃ t ∈ window, t.taken = g := by
  intro h
  have hstart : TurnRun (·.groupRr) ChoiceTurn crowded [] crowded := .start
  have hrun := hstart.turn (choiceTurn_chosen (by decide +kernel) (by decide +kernel) (g := 0) (by decide +kernel))
  have hrun' := hrun.turn (choiceTurn_chosen (by decide +kernel) (by decide +kernel) (g := 0) (by decide +kernel))
  have hready : (1 : Fin 2) ∈ {g : Fin 2 | ∃ c ∈ bothPairs, c.route.p = g} := by
    show ∃ c ∈ bothPairs, c.route.p = 1
    exact ⟨_, List.mem_cons_of_mem _ List.mem_cons_self, rfl⟩
  obtain ⟨t, ht, htaken⟩ := h 2 _ _ _ _ 1 (.inr hrun') (List.infix_refl _) rfl fun t ht => by
    simp only [List.nil_append, List.cons_append, List.mem_cons, List.not_mem_nil, or_false] at ht
    rcases ht with rfl | rfl <;> exact hready
  simp only [List.nil_append, List.cons_append, List.mem_cons, List.not_mem_nil, or_false] at ht
  rcases ht with rfl | rfl <;> exact absurd htaken (by decide)

end Router
end CanaTune
