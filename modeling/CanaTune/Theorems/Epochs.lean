import CanaTune.Theorems.Runs

/-! A finished request and the clock changes of its life. The guard compares the epochs of its groups at the issue with
    those at the finish: it sees every change that begins or ends in between, and none that spans the whole life. -/

namespace CanaTune
variable {K : Type} [Scalar K] {n : ℕ}

/-! ### Changes and requests -/

/-- A clock change in progress. -/
structure Change (n : ℕ) where
  group : Fin n
  tier : Tier
  call : Call

/-- The group serves the ticket's P or its D. -/
def Change.on (c : Change n) (t : Ticket K n) : Prop := c.group = t.group ∨ c.group = t.dgroup

/-- The system and the changes in progress. -/
structure Moment (K : Type) [Scalar K] (n : ℕ) where
  system : System K n
  changes : List (Change n)

inductive Happening (K : Type) [Scalar K] (n : ℕ)
  | begin (g : Fin n) (tier : Tier)
  /-- The change at a position ends, its locks acknowledged or not. -/
  | settle (i : ℕ) (ok : Bool)
  /-- It is cancelled where it awaits. -/
  | cancel (i : ℕ)
  | request (e : Outside K n)
  /-- Everything else, away from the tickets and the epochs. -/
  | elsewhere (s : System K n)

/-- `u`, with the tickets and the epochs of `s`. -/
def System.beside (s u : System K n) : System K n :=
  { u with router := { u.router with tickets := s.router.tickets, clockEpochs := s.router.clockEpochs } }

namespace Moment

def router (m : Moment K n) : Router K n := m.system.router

def withRouter (m : Moment K n) (r : Router K n) : Moment K n := { m with system := { m.system with router := r } }

def next (m : Moment K n) : Happening K n → Option (Moment K n)
  | .begin g tier => (m.system.target tier).map fun point =>
      let (call, s) := m.system.beginTier g tier point
      ⟨s, m.changes ++ [⟨g, tier, call⟩]⟩
  | .settle i ok => m.changes[i]?.map fun c =>
      ⟨m.system.settleTier c.group c.tier c.call ok, m.changes.eraseIdx i⟩
  | .cancel i => m.changes[i]?.map fun _ => { m with changes := m.changes.eraseIdx i }
  | .request e => (routerActs m.router e).map m.withRouter
  | .elsewhere s => some { m with system := m.system.beside s }

def exec (m : Moment K n) (life : List (Happening K n)) : Option (Moment K n) := life.foldlM next m

/-- The group whose change begins or runs to its end. -/
def bumped (m : Moment K n) : Happening K n → Option (Fin n)
  | .begin g _ => some g
  | .settle i _ => m.changes[i]?.map (·.group)
  | _ => none

/-- How often a change of `g` begins or runs to its end. -/
def bumps (g : Fin n) : Moment K n → List (Happening K n) → ℕ
  | _, [] => 0
  | m, h :: life => (if m.bumped h = some g then 1 else 0) + ((m.next h).map fun m' => bumps g m' life).getD 0

/-- No change of the ticket's groups is in progress at any moment. -/
def Apart (m : Moment K n) (t : Ticket K n) (life : List (Happening K n)) : Prop :=
  ∀ before m', before <+: life → m.exec before = some m' → ∀ c ∈ m'.changes, ¬c.on t

end Moment

namespace Router

/-- Served, its TTFT known and its prompt counted exactly. -/
def clean (r : Router K n) (i : ℕ) (ok : Bool) (ttftMs tpotMs : Option K) : Bool :=
  r.tickets[i]?.any fun t =>
    !t.finished && ok && (isViolation ttftMs tpotMs r.settings.ttftSloMs r.settings.tpotSloMs).isSome && t.promptExact

/-- The finish of a ticket is learned from. -/
def learnsFrom (r : Router K n) (i : ℕ) (ok : Bool) (ttftMs tpotMs : Option K) : Bool :=
  r.tickets[i]?.any fun t => !t.finished &&
    (r.tableSkip t ok (isViolation ttftMs tpotMs r.settings.ttftSloMs r.settings.tpotSloMs)).isNone

/-- What is learned, and what a published table is applied to. -/
structure SameLearned (r s : Router K n) : Prop where
  settings : s.settings = r.settings
  tiers : s.tiers = r.tiers
  learned : s.learned = r.learned
  applied : s.applied = r.applied

theorem SameLearned.applyTable {r s : Router K n} (h : SameLearned r s) : s.applyTable.learned = r.applyTable.learned := by
  unfold Router.applyTable
  simp only [h.settings, h.tiers, h.learned, h.applied]
  split_ifs <;> simp only [h.learned]

theorem sameLearned_giveBack (r : Router K n) (i : ℕ) (t : Ticket K n) : SameLearned r (r.giveBack i t) := by
  have hstage (u : Router K n) : SameLearned u (u.leaveStage t) := by
    unfold leaveStage
    cases t.stage <;> exact ⟨rfl, rfl, rfl, rfl⟩
  have hroute (u : Router K n) : SameLearned u (u.leaveRoute t) := by
    unfold leaveRoute
    cases t.decodeGroup <;> exact ⟨rfl, rfl, rfl, rfl⟩
  unfold giveBack
  dsimp only
  generalize hu : (if t.firstTokenAt.isNone then r.leaveAwait t else r) = u
  have hfirst : SameLearned r u := by
    rw [← hu]
    split <;> exact ⟨rfl, rfl, rfl, rfl⟩
  obtain ⟨a, b, c, d⟩ := hfirst
  obtain ⟨a', b', c', d'⟩ := hstage u
  obtain ⟨a'', b'', c'', d''⟩ := hroute (u.leaveStage t)
  exact ⟨a''.trans (a'.trans a), b''.trans (b'.trans b), c''.trans (c'.trans c), d''.trans (d'.trans d)⟩

/-- Evidence may apply the table in force, nothing else is learned from it. -/
theorem closeEvidence_learned (r : Router K n) (t : Ticket K n) (ok : Bool) (ttftMs tpotMs : Option K) :
    (r.closeEvidence t ok ttftMs tpotMs).learned = r.learned ∨
      (r.closeEvidence t ok ttftMs tpotMs).learned = r.applyTable.learned := by
  have hratio (ms : K) : (r.ttftRatio t ms).2.learned = r.applyTable.learned := by
    unfold ttftRatio
    dsimp only
    split <;> rfl
  unfold closeEvidence
  split
  · unfold observeLatency
    split
    · exact .inl rfl
    · cases ttftMs with
      | none => exact .inl rfl
      | some ms => exact .inr (hratio ms)
  · exact .inl rfl

/-- A finish either learns from its ticket, or what was learned stays but for the table in force. -/
theorem finish_learned {r : Router K n} {i : ℕ} {t : Ticket K n} (ht : r.tickets[i]? = some t) (hf : t.finished = false)
    (ok : Bool) (ttftMs tpotMs : Option K) (outputTokens : ℕ) :
    ∃ l, (l = r.learned ∨ l = r.applyTable.learned) ∧ (r.finish i ok ttftMs tpotMs outputTokens).learned =
      if r.learnsFrom i ok ttftMs tpotMs then
        learn r.settings l t ttftMs ((isViolation ttftMs tpotMs r.settings.ttftSloMs r.settings.tpotSloMs).getD false)
      else l := by
  have hback := sameLearned_giveBack r i t
  have hkept := (moves_giveBack ht hf).kept.trans (untouched_closeEvidence (r.giveBack i t) t ok ttftMs tpotMs).sameControl
  have hlearned := closeEvidence_learned (r.giveBack i t) t ok ttftMs tpotMs
  rw [hback.learned, hback.applyTable] at hlearned
  refine ⟨_, hlearned, ?_⟩
  have hskip (v : Option Bool) : ((r.giveBack i t).closeEvidence t ok ttftMs tpotMs).tableSkip t ok v =
      r.tableSkip t ok v := by
    unfold tableSkip
    rw [hkept.clockEpochs]
  unfold finish learnsFrom
  simp only [ht, hf, Bool.false_eq_true, if_false, Option.any_some, Bool.not_false, Bool.true_and, hskip, hkept.settings]
  cases r.tableSkip t ok (isViolation ttftMs tpotMs r.settings.ttftSloMs r.settings.tpotSloMs) <;> rfl

/-- A clean finish is learned from where the epochs are those of the issue. -/
theorem learnsFrom_iff {r : Router K n} {i : ℕ} {t : Ticket K n} (ht : r.tickets[i]? = some t) (ok : Bool)
    (ttftMs tpotMs : Option K) :
    r.learnsFrom i ok ttftMs tpotMs = true ↔ r.clean i ok ttftMs tpotMs = true ∧
      r.clockEpochs t.group = t.clockEpoch ∧ r.clockEpochs t.dgroup = t.decodeEpoch := by
  unfold learnsFrom clean tableSkip
  simp only [ht, Option.any_some]
  generalize isViolation ttftMs tpotMs r.settings.ttftSloMs r.settings.tpotSloMs = v
  cases t.finished <;> cases ok <;> cases v <;> cases t.promptExact <;> simp

/-! ### What a ticket keeps -/

/-- Every ticket of `r` is in `s`, on the same route. -/
def KeepsTickets (r s : Router K n) : Prop :=
  ∀ ⦃i : ℕ⦄ ⦃t : Ticket K n⦄, r.tickets[i]? = some t → ∃ u, s.tickets[i]? = some u ∧ Ticket.Same t u

section
omit [Scalar K]

theorem KeepsTickets.of_eq {r s : Router K n} (h : s.tickets = r.tickets) : KeepsTickets r s := fun _ t ht =>
  ⟨t, h ▸ ht, ⟨rfl, rfl, rfl, rfl, rfl, rfl⟩⟩

theorem KeepsTickets.trans {r s u : Router K n} (h₁ : KeepsTickets r s) (h₂ : KeepsTickets s u) : KeepsTickets r u := by
  intro i t ht
  obtain ⟨t₁, ht₁, a⟩ := h₁ ht
  obtain ⟨t₂, ht₂, b⟩ := h₂ ht₁
  exact ⟨t₂, ht₂, b.group.trans a.group, b.decodeGroup.trans a.decodeGroup, b.promptTokens.trans a.promptTokens,
    b.sOwnMs.trans a.sOwnMs, b.clockEpoch.trans a.clockEpoch, b.decodeEpoch.trans a.decodeEpoch⟩

theorem KeepsTickets.of_set {r s : Router K n} {i : ℕ} {t u : Ticket K n} (ht : r.tickets[i]? = some t)
    (hsame : Ticket.Same t u) (hs : s.tickets = r.tickets.set i u) : KeepsTickets r s := by
  intro j t' ht'
  rw [hs]
  by_cases hij : i = j
  · subst hij
    obtain rfl : t = t' := Option.some.inj (ht.symm.trans ht')
    exact ⟨u, List.getElem?_set_self (List.getElem?_eq_some_iff.mp ht).1, hsame⟩
  · exact ⟨t', by rwa [List.getElem?_set_ne hij], ⟨rfl, rfl, rfl, rfl, rfl, rfl⟩⟩

end

theorem keepsTickets_tokenProgress (r : Router K n) (i : ℕ) (tpotMs : Option K) :
    KeepsTickets r (r.tokenProgress i tpotMs) := by
  unfold tokenProgress
  cases ht : r.tickets[i]? with
  | none => exact .of_eq rfl
  | some t =>
    have hset : KeepsTickets r (r.setTicket i { t with lastTokenAt := some r.now }) :=
      .of_set (u := { t with lastTokenAt := some r.now }) ht ⟨rfl, rfl, rfl, rfl, rfl, rfl⟩ (by rw [setTicket_tickets])
    dsimp only
    split
    · exact hset.trans (.of_eq (untouched_observeLatency _ _ _ _).tickets)
    · refine hset.trans (.of_eq ((untouched_observeLatency _ _ _ _).tickets.trans ?_))
      split <;> rfl

theorem Operated.keepsTickets {r s : Router K n} {i : ℕ} (h : Operated r s i) : KeepsTickets r s := by
  rcases h with rfl | ⟨t, u, hm⟩
  · exact .of_eq rfl
  · exact .of_set hm.at_ hm.same hm.tickets

theorem Issued.keepsTickets {r s : Router K n} {route : Route n} {tokens : ℕ} {t : Ticket K n}
    (h : Issued r s route tokens t) :
    KeepsTickets r s := by
  intro i u hu
  refine ⟨u, ?_, ⟨rfl, rfl, rfl, rfl, rfl, rfl⟩⟩
  rw [h.tickets, List.getElem?_append_left (List.getElem?_eq_some_iff.mp hu).1, hu]

theorem keepsTickets_acts {r s : Router K n} {e : Outside K n} (h : routerActs r e = some s) : KeepsTickets r s := by
  cases acted h with
  | clock => exact .of_eq rfl
  | apart _ _ tickets => exact .of_eq tickets
  | issued hi => exact hi.keepsTickets
  | operated ho => exact ho.keepsTickets
  | progress i tpotMs => exact keepsTickets_tokenProgress r i tpotMs

end Router

/-! ### The epochs of a run -/

namespace System

theorem beginTier_epochs (s : System K n) (g : Fin n) (tier : Tier) (target : ClockPoint) (i : Fin n) :
    (s.beginTier g tier target).2.router.clockEpochs i = s.router.clockEpochs i + if g = i then 1 else 0 := by
  show Function.update s.router.clockEpochs g _ i = _
  by_cases h : g = i
  · subst h
    simp
  · simp [h, Function.update_of_ne (Ne.symm h)]

/-- Only the epoch of its group and no ticket is touched when a change ends. -/
theorem settleTier_router (s : System K n) (g : Fin n) (tier : Tier) (call : Call) (ok : Bool) :
    (s.settleTier g tier call ok).router.clockEpochs = Function.update s.router.clockEpochs g (s.router.clockEpochs g + 1) ∧
      (s.settleTier g tier call ok).router.tickets = s.router.tickets := by
  unfold settleTier
  dsimp only
  split_ifs <;> (try split) <;> exact ⟨rfl, rfl⟩

theorem settleTier_epochs (s : System K n) (g : Fin n) (tier : Tier) (call : Call) (ok : Bool) (i : Fin n) :
    (s.settleTier g tier call ok).router.clockEpochs i = s.router.clockEpochs i + if g = i then 1 else 0 := by
  rw [(s.settleTier_router g tier call ok).1]
  by_cases h : g = i
  · subst h
    simp
  · simp [h, Function.update_of_ne (Ne.symm h)]

end System

namespace Moment
variable {m m' : Moment K n} {h : Happening K n} {life : List (Happening K n)} {t : Ticket K n}

/-- One step counts in the epoch of the group it bumps, and keeps the tickets. -/
theorem next_epochs (hn : m.next h = some m') :
    (∀ g, m'.router.clockEpochs g = m.router.clockEpochs g + if m.bumped h = some g then 1 else 0) ∧
    Router.KeepsTickets m.router m'.router := by
  cases h with
  | begin g tier =>
    obtain ⟨point, -, rfl⟩ := Option.map_eq_some_iff.mp hn
    refine ⟨fun i => ?_, .of_eq rfl⟩
    simp only [bumped, Option.some.injEq]
    exact m.system.beginTier_epochs g tier point i
  | settle i ok =>
    obtain ⟨c, hc, rfl⟩ := Option.map_eq_some_iff.mp hn
    refine ⟨fun j => ?_, .of_eq (m.system.settleTier_router _ _ _ _).2⟩
    simp only [bumped, hc, Option.map_some, Option.some.injEq]
    exact m.system.settleTier_epochs c.group c.tier c.call ok j
  | cancel i =>
    obtain ⟨c, hc, rfl⟩ := Option.map_eq_some_iff.mp hn
    exact ⟨fun j => by simp [bumped, router], .of_eq rfl⟩
  | request e =>
    obtain ⟨r, hr, rfl⟩ := Option.map_eq_some_iff.mp hn
    refine ⟨fun j => ?_, Router.keepsTickets_acts hr⟩
    have hepochs := (Router.sameControl_acts hr).1.clockEpochs
    simp [bumped, router, withRouter, hepochs]
  | elsewhere s =>
    cases hn
    exact ⟨fun j => by simp [bumped, router, System.beside], .of_eq rfl⟩

theorem exec_cons (m : Moment K n) (h : Happening K n) (life : List (Happening K n)) :
    m.exec (h :: life) = (m.next h).bind fun m' => m'.exec life := List.foldlM_cons

/-- Over a run the epoch of a group grows by the changes of it that begin or end. -/
theorem exec_epochs (hrun : m.exec life = some m') :
    (∀ g, m'.router.clockEpochs g = m.router.clockEpochs g + bumps g m life) ∧
    Router.KeepsTickets m.router m'.router := by
  induction life generalizing m with
  | nil =>
    cases hrun
    exact ⟨fun g => rfl, .of_eq rfl⟩
  | cons h life ih =>
    rw [exec_cons] at hrun
    obtain ⟨m₁, hn, hrun⟩ := Option.bind_eq_some_iff.mp hrun
    obtain ⟨hstep, hkept⟩ := next_epochs hn
    obtain ⟨hrest, hkept'⟩ := ih hrun
    refine ⟨fun g => ?_, hkept.trans hkept'⟩
    rw [hrest, hstep, bumps, hn, Option.map_some, Option.getD_some, add_assoc]

/-- A change in progress after a step was so before it, or it began with the step. -/
theorem changes_next (hn : m.next h = some m') {c : Change n} (hc : c ∈ m'.changes) :
    c ∈ m.changes ∨ m.bumped h = some c.group := by
  cases h with
  | begin g tier =>
    obtain ⟨point, -, rfl⟩ := Option.map_eq_some_iff.mp hn
    rcases List.mem_append.mp hc with hc | hc
    · exact .inl hc
    · rw [List.mem_singleton.mp hc]
      exact .inr rfl
  | settle i ok =>
    obtain ⟨c, -, rfl⟩ := Option.map_eq_some_iff.mp hn
    exact .inl (List.mem_of_mem_eraseIdx hc)
  | cancel i =>
    obtain ⟨c, -, rfl⟩ := Option.map_eq_some_iff.mp hn
    exact .inl (List.mem_of_mem_eraseIdx hc)
  | request e =>
    obtain ⟨r, -, rfl⟩ := Option.map_eq_some_iff.mp hn
    exact .inl hc
  | elsewhere s =>
    cases hn
    exact .inl hc

/-- While no change of its groups begins, a ticket lives apart if it was issued so. -/
theorem apart_of_bumps (hm : ∀ c ∈ m.changes, ¬c.on t) (hp : bumps t.group m life = 0) (hd : bumps t.dgroup m life = 0) :
    m.Apart t life := by
  induction life generalizing m with
  | nil =>
    intro before m' hb hrun
    obtain rfl := List.prefix_nil.mp hb
    cases hrun
    exact hm
  | cons h life ih =>
    intro before m' hb hrun
    cases before with
    | nil =>
      cases hrun
      exact hm
    | cons h' before =>
      obtain ⟨rfl, hrest⟩ := List.cons_prefix_cons.mp hb
      rw [exec_cons] at hrun
      obtain ⟨m₁, hn, hrun⟩ := Option.bind_eq_some_iff.mp hrun
      simp only [bumps, hn, Option.map_some, Option.getD_some, Nat.add_eq_zero_iff] at hp hd
      refine ih (fun c hc => ?_) hp.2 hd.2 before m' hrest hrun
      rcases changes_next hn hc with hc | hbump
      · exact hm c hc
      · rintro (hg | hg)
        · simp [hbump, hg] at hp
        · simp [hbump, hg] at hd

/-! ### What is learned -/

/-- A finish learns from a ticket whose groups no change touched while it lived, and else only where a change in
    progress at the issue lasts to the finish and none of its groups' changes begins or ends in between. -/
theorem learns_apart {waiter tokens : ℕ} {exact : Bool} {waitedMs : K} {r : Router K n}
    (issued : m.router.step waiter tokens exact waitedMs = .ok (.ticket t, r))
    (lived : (m.withRouter r).exec life = some m') (ok : Bool) (ttftMs tpotMs : Option K) :
    (m'.router.learnsFrom m.router.tickets.length ok ttftMs tpotMs = true → (m.withRouter r).Apart t life) ↔
      ¬(m'.router.clean m.router.tickets.length ok ttftMs tpotMs = true ∧ (∃ c ∈ m.changes, c.on t) ∧
        bumps t.group (m.withRouter r) life = 0 ∧ bumps t.dgroup (m.withRouter r) life = 0) := by
  -- The ticket holds the epochs of its issue, and its record at the finish still does.
  obtain ⟨route, hi⟩ : ∃ route, Router.Issued m.router r route tokens t := by
    rcases Router.step_requests issued with ⟨hnone, -⟩ | ⟨u, route, hu, hi, -⟩
    · cases hnone
    · cases hu
      exact ⟨route, hi⟩
  obtain ⟨hepochs, hkept⟩ := exec_epochs lived
  have hat : (m.withRouter r).router.tickets[m.router.tickets.length]? = some t := by
    show r.tickets[m.router.tickets.length]? = some t
    rw [hi.tickets, List.getElem?_concat_length]
  obtain ⟨u, hu, hsame⟩ := hkept hat
  have hp : m'.router.clockEpochs u.group = u.clockEpoch ↔ bumps t.group (m.withRouter r) life = 0 := by
    rw [hepochs, hsame.group, hsame.clockEpoch, hi.epochs.1, hi.group]
    show r.clockEpochs route.p + _ = _ ↔ _
    rw [hi.kept.clockEpochs]
    exact Nat.add_eq_left
  have hd : m'.router.clockEpochs u.dgroup = u.decodeEpoch ↔ bumps t.dgroup (m.withRouter r) life = 0 := by
    rw [hepochs, hsame.dgroup, hsame.decodeEpoch, hi.epochs.2, hi.dgroup]
    show r.clockEpochs route.d + _ = _ ↔ _
    rw [hi.kept.clockEpochs]
    exact Nat.add_eq_left
  rw [Router.learnsFrom_iff hu, hp, hd]
  constructor
  · rintro h ⟨hclean, ⟨c, hc, hon⟩, hzero⟩
    exact h ⟨hclean, hzero⟩ [] _ List.nil_prefix rfl c hc hon
  · rintro h ⟨hclean, hzero⟩
    by_contra hapart
    have hfree : ∀ c ∈ (m.withRouter r).changes, ¬c.on t := fun c hc hon => h ⟨hclean, ⟨c, hc, hon⟩, hzero⟩
    exact hapart (apart_of_bumps hfree hzero.1 hzero.2)

section Small

/-- One pair serves from a published table. -/
def smallMoment : Moment ℚ 1 := ⟨smallSystem (smallServing 1), []⟩

/-- A request's own hundred milliseconds. -/
def smallLife : List (Happening ℚ 1) :=
  [.request (.prefillDone 0), .request (.firstToken 0), .request (.clock (1 / 10))]

/-- The table's clocks are set while the request is served. -/
theorem learns_apart_smallMoment : ∃ t r m',
    smallMoment.router.step 1 512 true 0 = .ok (.ticket t, r) ∧
    (smallMoment.withRouter r).exec (.begin 0 .h :: smallLife ++ [.settle 0 true]) = some m' ∧
    ((m'.router.learnsFrom smallMoment.router.tickets.length true (some 300) (some 20) = true →
        (smallMoment.withRouter r).Apart t (.begin 0 .h :: smallLife ++ [.settle 0 true])) ↔
      ¬(m'.router.clean smallMoment.router.tickets.length true (some 300) (some 20) = true ∧
        (∃ c ∈ smallMoment.changes, c.on t) ∧
        bumps t.group (smallMoment.withRouter r) (.begin 0 .h :: smallLife ++ [.settle 0 true]) = 0 ∧
        bumps t.dgroup (smallMoment.withRouter r) (.begin 0 .h :: smallLife ++ [.settle 0 true]) = 0)) := by
  have hstep : smallMoment.router.dispatches 1 512 true 0 = true := by decide +kernel
  obtain ⟨t, ht⟩ := Router.step_of_dispatches hstep
  have hexec : ((smallMoment.withRouter (smallMoment.router.after 1 512 true 0)).exec
      (.begin 0 .h :: smallLife ++ [.settle 0 true])).isSome = true := by decide +kernel
  obtain ⟨m', hm⟩ := Option.isSome_iff_exists.mp hexec
  exact ⟨t, _, m', ht, hm, learns_apart ht hm true (some 300) (some 20)⟩

/-- A request is issued, served and learned from while the clocks change. -/
theorem learns_amid_change : ∃ m t r m', smallMoment.exec [.begin 0 .h, .request .newWaiter] = some m ∧
    m.router.step 1 512 true 0 = .ok (.ticket t, r) ∧ (m.withRouter r).exec smallLife = some m' ∧
    m'.router.learnsFrom m.router.tickets.length true (some 300) (some 20) = true ∧
    ¬(m.withRouter r).Apart t smallLife := by
  have hbegun : (smallMoment.exec [.begin 0 .h, .request .newWaiter]).any (fun m =>
      m.changes.map (·.group) == [0] && m.router.dispatches 1 512 true 0 &&
        ((m.withRouter (m.router.after 1 512 true 0)).exec smallLife).any fun m' =>
          m'.router.learnsFrom m.router.tickets.length true (some 300) (some 20)) = true := by decide +kernel
  obtain ⟨m, hm, h⟩ := (Option.any_eq_true _ _).mp hbegun
  simp only [Bool.and_eq_true, beq_iff_eq] at h
  obtain ⟨⟨hchanges, hstep⟩, hlearns⟩ := h
  obtain ⟨t, ht⟩ := Router.step_of_dispatches hstep
  obtain ⟨m', hm', hlearns⟩ := (Option.any_eq_true _ _).mp hlearns
  refine ⟨m, t, _, m', hm, ht, hm', hlearns, fun hapart => ?_⟩
  obtain ⟨c, hc, hcg⟩ : ∃ c ∈ m.changes, c.group = 0 := by
    have : (0 : Fin 1) ∈ m.changes.map (·.group) := hchanges ▸ List.mem_singleton.mpr rfl
    exact List.mem_map.mp this
  exact hapart [] _ List.nil_prefix rfl c hc (.inl (hcg.trans (Subsingleton.elim _ _)))

end Small
end Moment
end CanaTune
