import CanaTune.Theorems.Accounting
import CanaTune.Theorems.Attempt
import CanaTune.Theorems.BestEffort

/-! The KV gate over a run. An admission asks what travels to D now and not what is still at a P, so two
    requests may take the same room. Where every D that an admission may take has room for what is on its
    way and the request together, whatever travels to a D at once stays within the gate. -/

namespace CanaTune
variable {K : Type} [Scalar K] {n : ℕ}

namespace Ticket

/-- On its way to the D of `d`: at its P, or travelling. -/
def boundFor (t : Ticket K n) (d : Fin n) : Bool := d == t.dgroup && (t.stage == .prefill || t.stage == .transfer)

def boundBytes (kvBytesPerToken : K) (t : Ticket K n) (d : Fin n) : K :=
  if t.boundFor d then t.promptTokens * kvBytesPerToken else 0

theorem boundBytes_nonneg {kvBytesPerToken : K} (h : 0 ≤ kvBytesPerToken) (t : Ticket K n) (d : Fin n) :
    0 ≤ t.boundBytes kvBytesPerToken d := by
  unfold boundBytes
  split_ifs
  exacts [mul_nonneg (Nat.cast_nonneg _) h, le_rfl]

end Ticket

namespace Router

/-! ### What is on its way -/

/-- Requests on their way to a D. -/
def boundCount (r : Router K n) (d : Fin n) : ℕ := r.tickets.countP (·.boundFor d)

/-- Their KV. -/
def boundBytes (r : Router K n) (d : Fin n) : K := Ledger.held (Ticket.boundBytes r.settings.kvBytesPerToken) r.tickets d

/-- D has room for one more request: nothing is on its way, or it fits under the gate with all that is. -/
def Room (r : Router K n) (tokens : ℕ) (d : Fin n) : Prop := r.boundCount d = 0 ∨
  ∀ buffer, r.settings.kvBufferBytes = some buffer →
    r.boundBytes d + tokens * r.settings.kvBytesPerToken ≤ r.learned.kvFraction * buffer

/-- Every D within the hard limits has room for the request. -/
def Roomy (r : Router K n) (tokens : ℕ) : Prop :=
  ∀ route ∈ r.routes, r.applyTable.Takes tokens route.d → r.Room tokens route.d

/-- At most one request is on its way to each D, or all of them are within the gate. -/
structure Reserved (r : Router K n) : Prop where
  perToken : 0 ≤ r.settings.kvBytesPerToken
  bound : ∀ d, r.boundCount d ≤ 1 ∨
    ∀ buffer, r.settings.kvBufferBytes = some buffer → r.boundBytes d ≤ r.learned.kvFraction * buffer

/-- What travels is on its way. -/
theorem inflight_le_boundBytes {r : Router K n} (hf : r.Flying) (d : Fin n) :
    (r.groups d).inflightBytes ≤ r.boundBytes d := by
  refine (hf.bytes d).trans_le (List.sum_le_sum fun t _ => ?_)
  unfold Ticket.bytes Ticket.boundBytes Ticket.travelsTo Ticket.boundFor
  cases t.stage <;> simp
  split_ifs
  exacts [mul_nonneg (Nat.cast_nonneg _) hf.perToken, le_rfl]

theorem Reserved.inflight {r : Router K n} (h : r.Reserved) (hf : r.Flying) {d : Fin n}
    (htwo : 2 ≤ r.tickets.countP (·.travelsTo d)) {buffer : K} (hbuffer : r.settings.kvBufferBytes = some buffer) :
    (r.groups d).inflightBytes ≤ r.learned.kvFraction * buffer := by
  have hcount : r.tickets.countP (·.travelsTo d) ≤ r.boundCount d := by
    refine List.countP_mono_left fun t _ ht => ?_
    simp only [Ticket.travelsTo, Ticket.boundFor, Bool.and_eq_true, Bool.or_eq_true] at ht ⊢
    exact ⟨ht.1, .inr ht.2⟩
  rcases h.bound d with hone | hgate
  · exact absurd (htwo.trans hcount) (by omega)
  · exact (inflight_le_boundBytes hf d).trans (hgate buffer hbuffer)

/-! ### One step -/

/-- An operation on a ticket brings nothing new on its way. -/
theorem Moves.boundFor {r s : Router K n} {i : ℕ} {t u : Ticket K n} (h : Moves r s i t u) {d : Fin n}
    (hu : u.boundFor d = true) : t.boundFor d = true := by
  simp only [Ticket.boundFor, Bool.and_eq_true, Bool.or_eq_true, beq_iff_eq] at hu ⊢
  refine ⟨hu.1.trans h.same.dgroup, ?_⟩
  rcases hu.2 with hp | ht
  · exact absurd hp h.onward.1
  · exact .inl (h.onward.2 ht)

theorem Reserved.moves {r s : Router K n} {i : ℕ} {t u : Ticket K n} (hr : r.Reserved) (h : Moves r s i t u)
    (hfraction : s.learned.kvFraction = r.learned.kvFraction) : s.Reserved := by
  refine ⟨h.settings ▸ hr.perToken, fun d => ?_⟩
  -- A ticket that moves on may stop counting towards D, never start.
  have hcount : s.boundCount d ≤ r.boundCount d := by
    obtain ⟨hi, ht⟩ := List.getElem?_eq_some_iff.mp h.at_
    have hpos (ht : t.boundFor d = true) : 0 < r.boundCount d := List.countP_pos_iff.mpr ⟨t, h.mem, ht⟩
    unfold boundCount at hpos ⊢
    rw [h.tickets, List.countP_set hi, ht]
    split_ifs with h1 h2
    · have := hpos h1
      omega
    · omega
    · exact absurd (h.boundFor ‹_›) h1
    · omega
  have hbytes : s.boundBytes d ≤ r.boundBytes d := by
    have hle : u.boundBytes r.settings.kvBytesPerToken d ≤ t.boundBytes r.settings.kvBytesPerToken d := by
      by_cases hu : u.boundFor d = true
      · rw [Ticket.boundBytes, Ticket.boundBytes, if_pos hu, if_pos (h.boundFor hu), h.same.promptTokens]
      · rw [Ticket.boundBytes, if_neg hu]
        exact Ticket.boundBytes_nonneg hr.perToken t d
    unfold boundBytes
    rw [h.tickets, h.settings, Ledger.held_set h.at_, sub_add]
    exact sub_le_self _ (sub_nonneg.mpr hle)
  rw [h.settings, hfraction]
  exact (hr.bound d).imp hcount.trans fun hgate buffer hb => hbytes.trans (hgate buffer hb)

theorem Reserved.issued {r s : Router K n} {route : Route n} {tokens : ℕ} {t : Ticket K n} (hr : r.Reserved)
    (h : Issued r s route tokens t) (hroom : r.Room tokens route.d)
    (hfraction : s.learned.kvFraction = r.learned.kvFraction) : s.Reserved := by
  refine ⟨h.settings ▸ hr.perToken, fun d => ?_⟩
  have hbound : t.boundFor d = decide (d = route.d) := by simp [Ticket.boundFor, h.dgroup, h.stage, beq_eq_decide]
  have hcount : s.boundCount d = r.boundCount d + if d = route.d then 1 else 0 := by
    unfold boundCount
    rw [h.tickets, List.countP_append, List.countP_singleton, hbound]
    simp
  have hbytes : s.boundBytes d = r.boundBytes d + if d = route.d then tokens * r.settings.kvBytesPerToken else 0 := by
    unfold boundBytes
    rw [h.tickets, h.settings, Ledger.held_append_singleton, Ticket.boundBytes, hbound, h.promptTokens]
    simp
  rw [hcount, hbytes, h.settings, hfraction]
  by_cases hd : d = route.d
  · subst hd
    simp only [if_true]
    exact hroom.imp (by omega) id
  · simp only [if_neg hd, add_zero]
    exact hr.bound d

/-! ### Runs -/

/-- One call of a run: an attempt of a waiter that ends with `ok` of the state before it when it gets a
    ticket, an operation on a ticket, or any activity that leaves the tickets and their counters alone. -/
inductive GateStep (ok : Router K n → ℕ → Prop) : Router K n → Router K n → Prop
  | step {r s : Router K n} {waiter tokens : ℕ} {exact : Bool} {waitedMs : K} {o : Outcome K n}
      (answer : r.step waiter tokens exact waitedMs = .ok (o, s)) (dispatch : o.ticket?.isSome → ok r tokens) :
      GateStep ok r s
  | prefillDone (r : Router K n) (i : ℕ) : GateStep ok r (r.prefillDone i)
  | firstToken (r : Router K n) (i : ℕ) : GateStep ok r (r.firstToken i)
  | finish (r : Router K n) (i : ℕ) (served : Bool) (ttftMs tpotMs : Option K) (outputTokens : ℕ) :
      GateStep ok r (r.finish i served ttftMs tpotMs outputTokens)
  | elsewhere {r s : Router K n} (same : SameCounters r s) : GateStep ok r s

/-- Best effort in normal mode with slack admission, a published table and the gate at `fraction` of the
    buffer. -/
structure Steady (fraction : K) (r : Router K n) : Prop where
  best : r.settings.overload = .bestEffort
  slack : r.settings.admission = .slack
  published : r.openAdmission = false
  normal : r.baselineMode = false
  fraction : r.learned.kvFraction = fraction

/-- A run through steady states. -/
abbrev GateRun (ok : Router K n → ℕ → Prop) (fraction : K) : Router K n → Router K n → Prop :=
  Relation.ReflTransGen fun r s => GateStep ok r s ∧ Steady fraction s

theorem Prepared.sameInputs {r s : Router K n} (h : Prepared r s) (hopen : r.openAdmission = false) : SameInputs r s := by
  have hmean : s.outputMean = ({ r with books := s.books } : Router K n).outputMean := by
    have hs := Scanned.outputMean h
    rwa [outputMean_applyTable, outputMean_applyTable] at hs
  exact (sameInputs_books r hopen s.books r.production).trans
    (.of_untouched h.untouched hopen hmean (Scanned.kvFraction h))

/-- An attempt of a steady state that issues a ticket issues it where the hard limits allow. -/
theorem takes_of_offers {r r' : Router K n} (hbest : r.settings.overload = .bestEffort) (hopen : r.openAdmission = false)
    (h : Prepared r r') {tokens : ℕ} {route : Route n} (hroute : route ∈ r'.applyTable.offers tokens) :
    route ∈ r.routes ∧ r.applyTable.Takes tokens route.d := by
  have hu := untouched_applyTable r'
  have hsame := h.sameInputs hopen
  have hopen' : r'.applyTable.openAdmission = false := by
    rw [openAdmission_applyTable]
    exact h.untouched.openAdmission.trans hopen
  have hbest' : r'.applyTable.settings.overload = .bestEffort := by
    rw [hu.settings]
    exact h.untouched.settings ▸ hbest
  have hmem := hroute.1
  rw [hu.routes, hsame.routes] at hmem
  exact ⟨hmem, (hsame.takes hbest tokens route.d).mp ((eligible_iff hbest' hopen' tokens route.d).mp (hroute.2 hopen'))⟩

theorem Flying.operated {r s : Router K n} {i : ℕ} (hf : r.Flying) (h : Operated r s i) : s.Flying := by
  rcases h with rfl | ⟨t, u, hm⟩
  · exact hf
  · exact hf.moves hm

theorem Reserved.operated {r s : Router K n} {i : ℕ} (hr : r.Reserved) (h : Operated r s i)
    (hfraction : s.learned.kvFraction = r.learned.kvFraction) : s.Reserved := by
  rcases h with rfl | ⟨t, u, hm⟩
  · exact hr
  · exact hr.moves hm hfraction

/-- Other tickets and settings decide nothing about the room. -/
theorem Reserved.same {r s : Router K n} (hr : r.Reserved) (htickets : s.tickets = r.tickets)
    (hsettings : s.settings = r.settings) (hfraction : s.learned.kvFraction = r.learned.kvFraction) : s.Reserved := by
  refine ⟨hsettings ▸ hr.perToken, ?_⟩
  simpa only [boundCount, boundBytes, htickets, hsettings, hfraction] using hr.bound

/-- A call whose admission has room keeps the reservation. -/
theorem Reserved.step {fraction : K} {r s : Router K n} (hr : r.Reserved) (hf : r.Flying) (hsteady : Steady fraction r)
    (hsteady' : Steady fraction s) (h : GateStep Roomy r s) : s.Reserved ∧ s.Flying := by
  have hfraction := hsteady'.fraction.trans hsteady.fraction.symm
  cases h with
  | step answer dispatch =>
    rcases step_requests answer with ⟨-, hu⟩ | ⟨t, route, ho, hi, hlearned, -, hoffers⟩
    · refine ⟨hr.same hu.tickets hu.settings hfraction, hu.settings ▸ hf.perToken, fun g => ?_⟩
      rw [hu.tickets, hu.settings, hu.groups]
      exact hf.bytes g
    · obtain ⟨r', hprepared, hroute⟩ := hoffers (.inr hsteady.normal)
      -- The route was offered, so D takes the prompt under the table in force, and there was room by assumption.
      obtain ⟨hmem, htakes⟩ := takes_of_offers hsteady.best hsteady.published hprepared hroute
      have hroom := dispatch (by rw [ho]; rfl) route hmem htakes
      exact ⟨hr.issued hi hroom hfraction, hf.issued hi⟩
  | prefillDone i => exact ⟨hr.operated (operated_prefillDone r i) hfraction, hf.operated (operated_prefillDone r i)⟩
  | firstToken i => exact ⟨hr.operated (operated_firstToken r i) hfraction, hf.operated (operated_firstToken r i)⟩
  | finish i ok ttftMs tpotMs outputTokens =>
    have ho := operated_finish r i ok ttftMs tpotMs outputTokens
    exact ⟨hr.operated ho hfraction, hf.operated ho⟩
  | elsewhere same =>
    exact ⟨hr.same same.tickets same.settings hfraction, same.settings ▸ hf.perToken,
      same.tickets ▸ same.settings ▸ fun g => (same.bytes g).trans (hf.bytes g)⟩

theorem reserved_of_run {fraction : K} {r₀ r : Router K n} (hrun : GateRun Roomy fraction r₀ r)
    (hsteady : Steady fraction r₀) (hr : r₀.Reserved) (hf : r₀.Flying) :
    (r.Reserved ∧ r.Flying) ∧ Steady fraction r := by
  induction hrun with
  | refl => exact ⟨⟨hr, hf⟩, hsteady⟩
  | tail _ hstep ih => exact ⟨ih.1.1.step ih.1.2 ih.2 hstep.2 hstep.1, hstep.2⟩

/-- Where every D an admission may take has room, two requests never travel to a D past its gate. -/
theorem inflight_le_gate {fraction : K} {r₀ r : Router K n} (hrun : GateRun Roomy fraction r₀ r)
    (hsteady : Steady fraction r₀) (htickets : r₀.tickets = []) (hempty : ∀ g, (r₀.groups g).inflightBytes = 0)
    (hkv : 0 ≤ r₀.settings.kvBytesPerToken) (d : Fin n) (htwo : 2 ≤ r.tickets.countP (·.travelsTo d)) (buffer : K)
    (hbuffer : r.settings.kvBufferBytes = some buffer) :
    (r.groups d).inflightBytes ≤ r.learned.kvFraction * buffer := by
  have hr : r₀.Reserved := ⟨hkv, fun d => .inl (by simp [boundCount, htickets])⟩
  have hf : r₀.Flying := ⟨hkv, by rw [htickets]; exact .nil hempty⟩
  obtain ⟨⟨hr, hf⟩, -⟩ := reserved_of_run hrun hsteady hr hf
  exact hr.inflight hf htwo hbuffer

section Small

/-- One published pair whose gate is the whole buffer. -/
def openGate : Router ℚ 1 := { smallServing 1 with tiers := ⟨smallMax, some (smallPublished 1 1), none⟩ }

/-- Two requests of the same length are admitted before the first one's P returns. -/
def twoIssued (tokens : ℕ) : Router ℚ 1 := (openGate.after 1 tokens true 0).after 2 tokens true 0

def twoTravel (tokens : ℕ) : Router ℚ 1 := ((twoIssued tokens).prefillDone 0).prefillDone 1

instance (fraction : ℚ) (r : Router ℚ 1) : Decidable (Steady fraction r) :=
  decidable_of_iff (r.settings.overload = .bestEffort ∧ r.settings.admission = .slack ∧ r.openAdmission = false ∧
    r.baselineMode = false ∧ r.learned.kvFraction = fraction)
    ⟨fun ⟨h1, h2, h3, h4, h5⟩ => ⟨h1, h2, h3, h4, h5⟩, fun ⟨h1, h2, h3, h4, h5⟩ => ⟨h1, h2, h3, h4, h5⟩⟩

/-- The run of two short requests, which the gate has room for. -/
theorem inflight_le_gate_twoTravel :
    ((twoTravel 512).groups 0).inflightBytes ≤ (twoTravel 512).learned.kvFraction * 10 ^ 9 := by
  obtain ⟨t₁, h₁⟩ := step_of_dispatches (show openGate.dispatches 1 512 true 0 = true by decide +kernel)
  obtain ⟨t₂, h₂⟩ :=
    step_of_dispatches (show (openGate.after 1 512 true 0).dispatches 2 512 true 0 = true by decide +kernel)
  have hstart : Steady 1 openGate := by decide +kernel
  have hroomy : openGate.Roomy 512 := fun route _ _ => .inl rfl
  have hroomy' : (openGate.after 1 512 true 0).Roomy 512 := fun route _ _ => .inr fun buffer hb => by
    have hbuffer : (openGate.after 1 512 true 0).settings.kvBufferBytes = some (10 ^ 9) := by decide +kernel
    obtain rfl : 10 ^ 9 = buffer := Option.some.inj (hbuffer.symm.trans hb)
    rw [Subsingleton.elim route.d 0]
    decide +kernel
  have hrun : GateRun Roomy 1 openGate (twoTravel 512) :=
    (((Relation.ReflTransGen.single ⟨.step h₁ fun _ => hroomy, by decide +kernel⟩).tail
      ⟨.step h₂ fun _ => hroomy', by decide +kernel⟩).tail ⟨.prefillDone _ 0, by decide +kernel⟩).tail
      ⟨.prefillDone _ 1, by decide +kernel⟩
  exact inflight_le_gate hrun hstart rfl (fun _ => rfl) (by decide +kernel) 0 (by decide +kernel) (10 ^ 9)
    (by decide +kernel)

/-- Two long ones travel at once with more KV than the gate. -/
theorem twoTravel_over : Steady 1 openGate ∧ openGate.tickets = [] ∧ (openGate.groups 0).inflightBytes = 0 ∧
    GateRun (fun _ _ => True) 1 openGate (twoTravel 4096) ∧ 2 ≤ (twoTravel 4096).tickets.countP (·.travelsTo 0) ∧
    ∃ buffer, (twoTravel 4096).settings.kvBufferBytes = some buffer ∧
      (twoTravel 4096).learned.kvFraction * buffer < ((twoTravel 4096).groups 0).inflightBytes := by
  obtain ⟨t₁, h₁⟩ := step_of_dispatches (show openGate.dispatches 1 4096 true 0 = true by decide +kernel)
  obtain ⟨t₂, h₂⟩ :=
    step_of_dispatches (show (openGate.after 1 4096 true 0).dispatches 2 4096 true 0 = true by decide +kernel)
  refine ⟨by decide +kernel, rfl, rfl, ?_, by decide +kernel, 10 ^ 9, by decide +kernel, by decide +kernel⟩
  exact (((Relation.ReflTransGen.single ⟨.step h₁ fun _ => trivial, by decide +kernel⟩).tail
    ⟨.step h₂ fun _ => trivial, by decide +kernel⟩).tail ⟨.prefillDone _ 0, by decide +kernel⟩).tail
    ⟨.prefillDone _ 1, by decide +kernel⟩

end Small

end Router
end CanaTune
