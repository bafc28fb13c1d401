import CanaTune.Theorems.Fifo

/-! What one attempt does: it prepares the Router, looks for a route, and takes the waiter off the books when
    it has one. -/

namespace CanaTune
variable {K : Type} [Scalar K] {n : ℕ}
namespace Router

/-- The books and the production evidence are not read when the table is applied. -/
theorem applyTable_books (r : Router K n) (books : WaiterBooks K) (production : Production K n) :
    ({ r with books, production } : Router K n).applyTable = { r.applyTable with books, production } := by
  unfold applyTable
  dsimp only
  split_ifs <;> rfl

/-- `s` is `r` as an attempt prepares it: with the waiter's books, and with what a scan leaves. -/
def Prepared (r s : Router K n) : Prop := Scanned ({ r with books := s.books } : Router K n).applyTable s.applyTable

namespace Prepared
variable {r s : Router K n}

theorem of_books (r : Router K n) (books : WaiterBooks K) : Prepared r { r with books } := Scanned.refl _

theorem untouched (h : Prepared r s) : Untouched { r with books := s.books } s :=
  (untouched_applyTable _).trans (h.toUntouched.trans (untouched_applyTable s).symm)

theorem kvFraction (h : Prepared r s) : s.applyTable.learned.kvFraction = r.applyTable.learned.kvFraction := by
  have hf := Scanned.kvFraction h
  have hb := applyTable_books r s.books r.production
  rw [hf, hb]

/-- Other books and signals. -/
theorem note (h : Prepared r s) (books : WaiterBooks K) (production : Production K n)
    (hlive : production.live = s.production.live) : Prepared r { s with books, production } := by
  have hr := applyTable_books r s.books r.production
  have hr' := applyTable_books r books r.production
  have hs := applyTable_books s books production
  have hlive' : production.live = r.applyTable.production.live :=
    hlive.trans (h.untouched.live.trans (untouched_applyTable r).live.symm)
  unfold Prepared at h ⊢
  rw [hr] at h
  rw [hr', hs]
  exact ⟨⟨h.settings, h.now, h.groups, h.tiers, h.telemetry, h.lengths, h.clockEpochs, h.tickets, rfl, h.controlMode,
    h.baselineMode, h.fullEffort, hlive'.trans (by rw [(untouched_applyTable r).live])⟩, h.applied, h.learned, h.outputMean⟩

/-- A waiter that finds no route wakes control once. -/
theorem scanFor (h : Prepared r s) (waiter tokens : ℕ) (waitedMs : K) : Prepared r (s.scanFor waiter tokens waitedMs) := by
  obtain ⟨s', books, production, hu, hs, -, hlive, hscan⟩ := scanFor_spec s waiter tokens waitedMs
  have hbooks : Prepared r s' := by
    unfold Prepared
    rw [hu.books]
    exact Scanned.trans h hs
  rw [hscan]
  exact hbooks.note books production hlive

end Prepared

/-! ### The answer -/

omit [Scalar K] in
theorem leaveWith_spec {r s : Router K n} {waiter : ℕ} {ticket : Option (Ticket K n)} {o : Outcome K n}
    (h : r.leaveWith waiter ticket = (o, s)) : o.ticket? = ticket ∧ ∃ books, s = { r with books } := by
  cases ticket <;> obtain ⟨rfl, rfl⟩ := Prod.mk.inj h
  · exact ⟨rfl, r.books, rfl⟩
  · exact ⟨rfl, _, rfl⟩

omit [Scalar K] in
theorem atHead_cases {r s : Router K n} {waiter : ℕ} {o : Outcome K n}
    {attempt : Except RouterError (Option (Ticket K n) × Router K n)} (h : r.atHead waiter attempt = .ok (o, s)) :
    (o = .wait ∧ s = r) ∨ ∃ a, attempt = .ok a ∧ o.ticket? = a.1 ∧ ∃ books, s = { a.2 with books } := by
  unfold atHead at h
  simp only [bind, Except.bind] at h
  split at h
  · exact absurd h (by simp)
  · split_ifs at h
    · split at h
      · exact absurd h (by simp)
      case h_2 a => exact .inr ⟨a, rfl, leaveWith_spec (Except.ok.inj h)⟩
    · obtain ⟨rfl, rfl⟩ := Prod.mk.inj (Except.ok.inj h)
      exact .inl ⟨rfl, rfl⟩

theorem prepared_note (r : Router K n) (waiter tokens : ℕ) (waitedMs : K) (serve past : Bool) :
    Prepared r (r.note waiter tokens waitedMs serve past) := by
  unfold note deadlineMs
  split_ifs
  · dsimp only
    generalize hB : (⟨_, _, _, _, _, _, _, _, _⟩ : WaiterBooks K) = books
    have hr := applyTable_books r books r.production
    have hs := applyTable_books r.applyTable books r.applyTable.production
    have hlive := (untouched_applyTable r).live
    rw [applyTable_applyTable] at hs
    unfold Prepared
    rw [hr]
    rw [hs]
    exact ⟨⟨rfl, rfl, rfl, rfl, rfl, rfl, rfl, rfl, rfl, rfl, rfl, rfl, hlive⟩, rfl, rfl, rfl⟩
  · exact .of_books _ _
  · exact .of_books _ _

/-- How an attempt looks for a route: not at all, in a scan, or in the turn of baseline mode. -/
inductive Looks (r : Router K n) (tokens : ℕ) (exact : Bool) (waitedMs : K) : Option (Ticket K n) × Router K n → Prop
  | idle {r' : Router K n} (prepared : Prepared r r') : Looks r tokens exact waitedMs (none, r')
  | scan {r' : Router K n} {a : Option (Ticket K n) × Router K n} (rescue backfill bestEffort : Bool)
      (prepared : Prepared r r') (normal : r.settings.overload ≠ .bestEffort ∨ r.baselineMode = false)
      (found : r'.tryAdmit tokens exact waitedMs rescue backfill bestEffort = .ok a) : Looks r tokens exact waitedMs a
  | turn {a : Option (Ticket K n) × Router K n} (books : WaiterBooks K) (best : r.settings.overload = .bestEffort)
      (baseline : r.baselineMode = true)
      (found : ({ r with books } : Router K n).admitBaseline tokens exact waitedMs = .ok a) :
      Looks r tokens exact waitedMs a

theorem stepLegacy_looks {r s : Router K n} {waiter tokens : ℕ} {exact : Bool} {waitedMs : K} {o : Outcome K n}
    (hlegacy : r.settings.overload ≠ .bestEffort) (h : r.stepLegacy waiter tokens exact waitedMs = .ok (o, s)) :
    ∃ a, Looks r tokens exact waitedMs a ∧ o.ticket? = a.1 ∧ ∃ books rejections, s = { a.2 with books, rejections } := by
  unfold stepLegacy at h
  dsimp only at h
  simp only [bind, Except.bind] at h
  split at h
  · exact absurd h (by simp)
  · split at h
    · exact absurd h (by simp)
    case h_2 a hadmit =>
      have hlooks := Looks.scan _ _ _ (prepared_note r waiter tokens waitedMs _ _) (.inl hlegacy) hadmit
      refine ⟨a, hlooks, ?_⟩
      obtain ⟨_ | t, s'⟩ := a
      · dsimp only at h
        split_ifs at h
        · obtain ⟨rfl, rfl⟩ := Prod.mk.inj (Except.ok.inj h)
          exact ⟨rfl, _, _, rfl⟩
        · obtain ⟨rfl, rfl⟩ := Prod.mk.inj (Except.ok.inj h)
          exact ⟨rfl, s'.books, s'.rejections, rfl⟩
      · obtain ⟨ho, books, rfl⟩ := leaveWith_spec (Except.ok.inj h)
        exact ⟨ho, books, s'.rejections, rfl⟩

/-- Every attempt looks for a route in one of these ways, then at most the waiter leaves the books. -/
theorem step_looks {r s : Router K n} {waiter tokens : ℕ} {exact : Bool} {waitedMs : K} {o : Outcome K n}
    (h : r.step waiter tokens exact waitedMs = .ok (o, s)) :
    ∃ a, Looks r tokens exact waitedMs a ∧ o.ticket? = a.1 ∧ ∃ books rejections, s = { a.2 with books, rejections } := by
  unfold Router.step at h
  split_ifs at h with hbest
  · obtain ⟨books, henqueue⟩ : ∃ books, r.enqueue waiter waitedMs = { r with books } := by
      unfold enqueue
      split_ifs <;> exact ⟨_, rfl⟩
    have hjoined : Prepared r { r with books } := .of_books r books
    unfold stepBestEffort at h
    split_ifs at h with hlate
    · obtain ⟨rfl, rfl⟩ := Prod.mk.inj (Except.ok.inj h)
      exact ⟨(none, { r with books }), .idle hjoined, rfl, _, _, rfl⟩
    rw [henqueue] at h
    dsimp only at h
    by_cases hbase : r.baselineMode = true
    · rw [if_pos hbase] at h
      rcases atHead_cases h with ⟨rfl, rfl⟩ | ⟨a, hadmit, ho, books', rfl⟩
      · exact ⟨(none, { r with books }), .idle hjoined, rfl, books, r.rejections, rfl⟩
      · exact ⟨a, .turn books hbest hbase hadmit, ho, books', a.2.rejections, rfl⟩
    · rw [if_neg hbase] at h
      have hscanned := hjoined.scanFor waiter tokens waitedMs
      rcases atHead_cases h with ⟨rfl, rfl⟩ | ⟨a, hadmit, ho, books', rfl⟩
      · exact ⟨(none, _), .idle hscanned, rfl, _, _, rfl⟩
      · exact ⟨a, .scan _ _ _ hscanned (.inr (by simpa using hbase)) hadmit, ho, books', a.2.rejections, rfl⟩
  · exact stepLegacy_looks hbest h

/-! ### What a ticket leaves alone -/

omit [Scalar K] in
theorem joinRoute_eq (r : Router K n) (route : Route n) : ∃ groups, r.joinRoute route = { r with groups } := by
  unfold joinRoute
  dsimp only
  split_ifs <;> exact ⟨_, rfl⟩

/-- Issuing a ticket reads the table in force and leaves the clock, the telemetry and the tiers alone. -/
theorem issue_context (r : Router K n) (c : Candidate K n) (tokens : ℕ) (exact : Bool) (waitedMs : K)
    (kind : Option Overflow) :
    (r.issue c tokens exact waitedMs kind).2.now = r.now ∧
    (r.issue c tokens exact waitedMs kind).2.telemetry = r.telemetry ∧
    (r.issue c tokens exact waitedMs kind).2.tiers = r.tiers ∧
    (r.issue c tokens exact waitedMs kind).2.learned = r.applyTable.learned := by
  have hu := untouched_applyTable r
  have hreserve (s : Router K n) (sOwn : K) : ∃ groups, s.reserve c.route sOwn tokens = { s with groups } := by
    unfold reserve
    dsimp only
    generalize hs : (s.setGroup c.route.p _).setGroup c.route.d _ = s'
    obtain ⟨groups, hj⟩ := joinRoute_eq s' c.route
    rw [hj, ← hs]
    exact ⟨_, rfl⟩
  unfold issue prefillCost
  dsimp only
  obtain ⟨groups, hg⟩ := hreserve { r.applyTable with overflows := countOverflow r.applyTable.overflows kind }
    ((r.applyTable.applied.costs.forClock ((r.groups c.route.p).effective.map (·.prefillMhz))).cost tokens)
  rw [hg]
  exact ⟨hu.now, hu.telemetry, hu.tiers, rfl⟩

omit [Scalar K] in
theorem routable_of_mem_routes {r : Router K n} {route : Route n} (h : route ∈ r.routes) :
    (r.groups route.p).routable = true ∧ (r.groups route.d).routable = true := by
  unfold routes at h
  dsimp only at h
  split at h
  · obtain ⟨g, hg, rfl⟩ := List.mem_map.mp h
    have hg := (List.mem_filter.mp hg).2
    exact ⟨hg, hg⟩
  · obtain ⟨d, hd, h⟩ := List.mem_flatMap.mp h
    obtain ⟨p, hp, rfl⟩ := List.mem_map.mp h
    exact ⟨(List.mem_filter.mp hp).2, (List.mem_filter.mp hd).2⟩

/-- What one attempt does to the requests: nothing, or it issues one ticket between routable groups, outside
    baseline mode on a route that a scan offers. -/
theorem step_requests {r s : Router K n} {waiter tokens : ℕ} {exact : Bool} {waitedMs : K} {o : Outcome K n}
    (h : r.step waiter tokens exact waitedMs = .ok (o, s)) :
    (o.ticket? = none ∧ Untouched { r with books := s.books } s) ∨
    ∃ t route, o.ticket? = some t ∧ Issued r s route tokens t ∧
      s.learned.kvFraction = r.applyTable.learned.kvFraction ∧
      ((r.groups route.p).routable = true ∧ (r.groups route.d).routable = true) ∧
      (r.settings.overload ≠ .bestEffort ∨ r.baselineMode = false →
        ∃ r', Prepared r r' ∧ route ∈ r'.applyTable.offers tokens) := by
  obtain ⟨⟨ticket, s'⟩, hlooks, ho, books, rejections, rfl⟩ := step_looks h
  -- `r'`: the Router as the look for a route starts
  obtain ⟨r', routes, hprepared, hanswers, hroutable, hoffers⟩ : ∃ r' routes, Prepared r r' ∧
      Answers r' tokens routes (ticket, s') ∧
      (∀ route ∈ routes, (r.groups route.p).routable = true ∧ (r.groups route.d).routable = true) ∧
      (r.settings.overload ≠ .bestEffort ∨ r.baselineMode = false → routes = r'.applyTable.offers tokens) := by
    have hoffered {r' : Router K n} (h : Prepared r r') (route : Route n) (hroute : route ∈ r'.applyTable.offers tokens) :
        (r.groups route.p).routable = true ∧ (r.groups route.d).routable = true := by
      have hgroups : r'.applyTable.groups = r.groups := (untouched_applyTable r').groups.trans h.untouched.groups
      have hmem := routable_of_mem_routes hroute.1
      rwa [hgroups] at hmem
    -- Whichever look was made, its routes lie between groups that were routable before.
    cases hlooks with
    | idle prepared => exact ⟨s', _, prepared, Scanned.refl _, hoffered prepared, fun _ => rfl⟩
    | scan rescue backfill bestEffort prepared normal found =>
      exact ⟨_, _, prepared, tryAdmit_spec found, hoffered prepared, fun _ => rfl⟩
    | turn books best baseline found =>
      refine ⟨_, _, .of_books r books, admitBaseline_spec found, fun route hroute => ?_, fun hno => ?_⟩
      · obtain ⟨hd, hok, -⟩ := hroute
        simp only [baselineOk, Bool.and_eq_true] at hok
        rw [hd]
        exact ⟨hok.1.1.1, hok.1.1.1⟩
      rcases hno with hno | hno
      · exact absurd best hno
      · rw [baseline] at hno
        exact Bool.noConfusion hno
  have hu := hprepared.untouched
  cases ticket with
  | none =>
    have hs : Untouched r' s' := (untouched_applyTable r').trans
      (Scanned.toUntouched hanswers |>.trans (untouched_applyTable s').symm)
    have hus := hu.trans hs
    exact .inl ⟨ho, hus.settings, hus.now, hus.groups, hus.tiers, hus.telemetry, hus.lengths, hus.clockEpochs,
      hus.tickets, rfl,
      hus.controlMode, hus.baselineMode, hus.fullEffort, hus.live⟩
  | some t =>
    obtain ⟨route, hroute, r₁, c, exact', waitedMs', kind, hscan, rfl, hissue⟩ := hanswers
    have h₁ : Untouched r' r₁ := (untouched_applyTable r').trans (hscan.toUntouched.trans (untouched_applyTable r₁).symm)
    have hi := issued_issue r₁ c tokens exact' waitedMs' kind
    obtain ⟨-, -, -, hlearned⟩ := issue_context r₁ c tokens exact' waitedMs' kind
    rw [hissue] at hi hlearned
    have hus := hu.trans h₁
    have hown : r₁.ownMs c.route tokens = r.ownMs c.route tokens := by
      have hb := applyTable_books r r'.books r.production
      have happlied : r₁.applyTable.applied = r.applyTable.applied := by
        rw [hscan.applied, Scanned.applied hprepared, hb]
      simp only [ownMs, prefillCost, happlied, hus.groups]
    refine .inr ⟨t, c.route, ho, hi.congr ?_ hown rfl rfl rfl ⟨rfl, rfl, rfl, rfl, rfl, rfl, rfl⟩, ?_,
      hroutable c.route hroute,
      fun hnormal => ⟨r', hprepared, hoffers hnormal ▸ hroute⟩⟩
    · exact ⟨hus.settings, hus.now, hus.groups, hus.tiers, hus.telemetry, hus.lengths, hus.clockEpochs, hus.tickets, rfl,
        hus.controlMode, hus.baselineMode, hus.fullEffort, hus.live⟩
    · rw [← hprepared.kvFraction, ← hscan.kvFraction]
      exact congrArg Learned.kvFraction hlearned

end Router
end CanaTune
