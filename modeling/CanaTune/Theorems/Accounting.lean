import CanaTune.Theorems.Moves

/-! Stage accounting. Whatever the order of the operations on the tickets, the counters of every group show
    what its unfinished tickets hold, so none is ever negative and no clamp ever acts. -/

namespace CanaTune
variable {K : Type} [Scalar K] {n : ℕ}
namespace Router

/-! ### Runs -/

/-- One operation on a ticket, issued at a price that is not negative, or any activity that leaves the
    tickets and their counters alone. -/
inductive TicketStep : Router K n → Router K n → Prop
  | issue (r : Router K n) (c : Candidate K n) (tokens : ℕ) (exact : Bool) (waitedMs : K) (kind : Option Overflow)
      (price : 0 ≤ r.ownMs c.route tokens) : TicketStep r (r.issue c tokens exact waitedMs kind).2
  | prefillDone (r : Router K n) (i : ℕ) : TicketStep r (r.prefillDone i)
  | firstToken (r : Router K n) (i : ℕ) : TicketStep r (r.firstToken i)
  | finish (r : Router K n) (i : ℕ) (ok : Bool) (ttftMs tpotMs : Option K) (outputTokens : ℕ) :
      TicketStep r (r.finish i ok ttftMs tpotMs outputTokens)
  | elsewhere (r s : Router K n) (same : SameCounters r s) : TicketStep r s

abbrev TicketRun : Router K n → Router K n → Prop := Relation.ReflTransGen TicketStep

/-- The three ledgers. -/
structure Booked (r : Router K n) : Prop where
  counted : r.Counted
  pending : r.Pending
  flying : r.Flying

theorem Booked.operated {r s : Router K n} {i : ℕ} (hb : r.Booked) (h : Operated r s i) : s.Booked := by
  rcases h with rfl | ⟨t, u, hm⟩
  · exact hb
  · exact ⟨hb.counted.moves hm, hb.pending.moves hm hb.counted, hb.flying.moves hm⟩

theorem Booked.same {r s : Router K n} (hb : r.Booked) (h : SameCounters r s) : s.Booked where
  counted := ⟨h.tickets ▸ hb.counted.sound, h.tickets ▸ fun g => (h.counts g).trans (hb.counted.counts g)⟩
  pending := ⟨h.tickets ▸ hb.pending.own, h.tickets ▸ fun g => (h.pending g).trans (hb.pending.pending g)⟩
  flying := ⟨h.settings ▸ hb.flying.perToken, h.tickets ▸ h.settings ▸ fun g => (h.bytes g).trans (hb.flying.bytes g)⟩

theorem Booked.step {r s : Router K n} (hb : r.Booked) (h : TicketStep r s) : s.Booked := by
  cases h with
  | issue c tokens exact waitedMs kind price =>
    have hi := issued_issue r c tokens exact waitedMs kind
    exact ⟨hb.counted.issued hi, hb.pending.issued hi price, hb.flying.issued hi⟩
  | prefillDone i => exact hb.operated (operated_prefillDone r i)
  | firstToken i => exact hb.operated (operated_firstToken r i)
  | finish i ok ttftMs tpotMs outputTokens => exact hb.operated (operated_finish r i ok ttftMs tpotMs outputTokens)
  | elsewhere same => exact hb.same ‹_›

theorem Booked.run {r s : Router K n} (hb : r.Booked) (h : TicketRun r s) : s.Booked := by
  induction h with
  | refl => exact hb
  | tail _ hstep ih => exact ih.step hstep

/-! ### What the counters show -/

/-- Each counter of a group shows what the unfinished tickets hold there. -/
structure Accounts (r : Router K n) (g : Fin n) : Prop where
  nAtP : (r.groups g).nAtP = r.tickets.countP (·.atP g)
  pendingMs : (r.groups g).pendingMs = ((r.tickets.filter (·.atP g)).map (·.sOwnMs)).sum
  nAwait : (r.groups g).nAwait = r.tickets.countP (·.awaitsAt g)
  tAwait : (r.groups g).tAwait = ((r.tickets.filter (·.awaitsAt g)).map fun t => (t.promptTokens : ℤ)).sum
  inflightBytes : (r.groups g).inflightBytes = ((r.tickets.filter (·.travelsTo g)).map r.kvBytes).sum
  nDecoding : (r.groups g).nDecoding = r.tickets.countP (·.decodesAt g)
  nInflight : (r.groups g).nInflight = r.tickets.countP (·.uses g)

omit [Scalar K] in
theorem Counted.nInflight {r : Router K n} (h : r.Counted) (g : Fin n) :
    (r.groups g).nInflight = r.tickets.countP (·.uses g) := by
  have hcol := h.counts.map (((AddMonoidHom.snd ℤ ℤ).comp (AddMonoidHom.snd ℤ _)).comp
    ((AddMonoidHom.snd ℤ _).comp (AddMonoidHom.snd ℤ _))) g
  exact hcol.trans (Ledger.held_count Ticket.uses r.tickets g)

theorem Flying.inflightBytes {r : Router K n} (h : r.Flying) (g : Fin n) :
    (r.groups g).inflightBytes = ((r.tickets.filter (·.travelsTo g)).map r.kvBytes).sum :=
  (h.bytes g).trans (Ledger.held_ite Ticket.travelsTo r.kvBytes r.tickets g)

theorem Booked.accounts {r : Router K n} (h : r.Booked) (g : Fin n) : r.Accounts g where
  nAtP := (h.counted.counts.map (AddMonoidHom.fst ℤ _) g).trans (Ledger.held_count Ticket.atP r.tickets g)
  pendingMs := (h.pending.pending g).trans (Ledger.held_ite Ticket.atP (·.sOwnMs) r.tickets g)
  nAwait := (h.counted.counts.map ((AddMonoidHom.fst ℤ _).comp (AddMonoidHom.snd ℤ _)) g).trans
    (Ledger.held_count Ticket.awaitsAt r.tickets g)
  tAwait := (h.counted.counts.map
    (((AddMonoidHom.fst ℤ _).comp (AddMonoidHom.snd ℤ _)).comp (AddMonoidHom.snd ℤ _)) g).trans
    (Ledger.held_ite Ticket.awaitsAt (fun t => (t.promptTokens : ℤ)) r.tickets g)
  inflightBytes := h.flying.inflightBytes g
  nDecoding := (h.counted.counts.map (((AddMonoidHom.fst ℤ ℤ).comp (AddMonoidHom.snd ℤ _)).comp
    ((AddMonoidHom.snd ℤ _).comp (AddMonoidHom.snd ℤ _))) g).trans (Ledger.held_count Ticket.decodesAt r.tickets g)
  nInflight := h.counted.nInflight g

end Router

/-- No counter is negative. -/
structure Group.NonNeg (g : Group K) : Prop where
  nAtP : 0 ≤ g.nAtP
  pendingMs : 0 ≤ g.pendingMs
  nAwait : 0 ≤ g.nAwait
  tAwait : 0 ≤ g.tAwait
  inflightBytes : 0 ≤ g.inflightBytes
  nDecoding : 0 ≤ g.nDecoding
  nInflight : 0 ≤ g.nInflight

/-- Every counter is zero. -/
structure Group.Clear (g : Group K) : Prop where
  nAtP : g.nAtP = 0
  pendingMs : g.pendingMs = 0
  nAwait : g.nAwait = 0
  tAwait : g.tAwait = 0
  inflightBytes : g.inflightBytes = 0
  nDecoding : g.nDecoding = 0
  nInflight : g.nInflight = 0

namespace Router

theorem Booked.nonNeg {r : Router K n} (h : r.Booked) (g : Fin n) : (r.groups g).NonNeg := by
  have ha := h.accounts g
  refine ⟨?_, ?_, ?_, ?_, ?_, ?_, ?_⟩
  · rw [ha.nAtP]
    exact Int.natCast_nonneg _
  · rw [ha.pendingMs]
    refine List.sum_nonneg fun x hx => ?_
    obtain ⟨t, ht, rfl⟩ := List.mem_map.mp hx
    exact h.pending.own t (List.mem_of_mem_filter ht)
  · rw [ha.nAwait]
    exact Int.natCast_nonneg _
  · rw [ha.tAwait]
    refine List.sum_nonneg fun x hx => ?_
    obtain ⟨t, -, rfl⟩ := List.mem_map.mp hx
    exact Int.natCast_nonneg _
  · rw [ha.inflightBytes]
    refine List.sum_nonneg fun x hx => ?_
    obtain ⟨t, -, rfl⟩ := List.mem_map.mp hx
    exact mul_nonneg (Nat.cast_nonneg _) h.flying.perToken
  · rw [ha.nDecoding]
    exact Int.natCast_nonneg _
  · rw [ha.nInflight]
    exact Int.natCast_nonneg _

/-- Where every ticket is finished, nothing is held. -/
theorem Booked.clear {r : Router K n} (h : r.Booked) (hfin : ∀ t ∈ r.tickets, t.finished = true) (g : Fin n) :
    (r.groups g).Clear := by
  have hstage (t) (ht : t ∈ r.tickets) : t.stage = .done := ((h.counted.sound t ht).done).mp (hfin t ht)
  have hcounts : (r.groups g).counts = 0 := (h.counted.counts g).trans
    (Ledger.held_eq_zero fun t ht => by rw [(h.counted.sound t ht).counts, hstage t ht, Ticket.countsIn])
  have hpending : (r.groups g).pendingMs = 0 := (h.pending.pending g).trans
    (Ledger.held_eq_zero fun t ht => by rw [(h.counted.sound t ht).pending, hstage t ht, Ticket.pendingIn])
  have hbytes : (r.groups g).inflightBytes = 0 := (h.flying.bytes g).trans
    (Ledger.held_eq_zero fun t ht => by rw [Ticket.bytes_eq, hstage t ht, Ticket.bytesIn])
  simp only [Group.counts, Prod.mk_eq_zero] at hcounts
  obtain ⟨h1, h2, h3, h4, h5⟩ := hcounts
  exact ⟨h1, hpending, h2, h3, hbytes, h4, h5⟩

/-- The clamps at zero give what the plain differences give. -/
def ClampFree (r : Router K n) : Prop := ∀ t ∈ r.tickets,
  (t.stage = .prefill → max 0 ((r.groups t.group).pendingMs - t.sOwnMs) = (r.groups t.group).pendingMs - t.sOwnMs) ∧
  (t.stage = .transfer →
    max 0 ((r.groups t.dgroup).inflightBytes - r.kvBytes t) = (r.groups t.dgroup).inflightBytes - r.kvBytes t)

theorem Booked.clampFree {r : Router K n} (h : r.Booked) : r.ClampFree := fun t ht => by
  refine ⟨fun hs => max_eq_right (sub_nonneg.mpr ?_), fun hs => max_eq_right (sub_nonneg.mpr ?_)⟩
  · exact h.pending.covers h.counted ht hs
  · exact h.flying.covers ht hs

/-- Along every run from clear counters each counter shows what the unfinished tickets hold: none is
    negative, no clamp acts, and all are zero once every ticket is finished. -/
theorem accounts_of_run {r s : Router K n} (hrun : TicketRun r s) (htickets : r.tickets = [])
    (hclear : ∀ g, (r.groups g).Clear) (hkv : 0 ≤ r.settings.kvBytesPerToken) :
    (∀ g, s.Accounts g) ∧ (∀ g, (s.groups g).NonNeg) ∧ s.ClampFree ∧
    ((∀ t ∈ s.tickets, t.finished = true) → ∀ g, (s.groups g).Clear) := by
  have hstart : r.Booked := by
    refine ⟨⟨by simp [htickets], ?_⟩, ⟨by simp [htickets], ?_⟩, ⟨hkv, ?_⟩⟩ <;> rw [htickets]
    · refine .nil fun g => ?_
      obtain ⟨h1, -, h3, h4, -, h6, h7⟩ := hclear g
      simp [Group.counts, h1, h3, h4, h6, h7]
    · exact .nil fun g => (hclear g).pendingMs
    · exact .nil fun g => (hclear g).inflightBytes
  have h := hstart.run hrun
  exact ⟨h.accounts, h.nonNeg, h.clampFree, h.clear⟩

/-- A request served across two groups, up to its first token. -/
def oneServed : Router ℚ 2 :=
  (((smallCold 2).issue ⟨⟨0, 1⟩, ⟨⟨0, 0⟩, 0, 0, false⟩, none, false⟩ 512 true 0 none).2.prefillDone 0).firstToken 0

theorem accounts_of_run_oneServed : (∀ g, oneServed.Accounts g) ∧ (∀ g, (oneServed.groups g).NonNeg) ∧
    oneServed.ClampFree ∧ ((∀ t ∈ oneServed.tickets, t.finished = true) → ∀ g, (oneServed.groups g).Clear) :=
  accounts_of_run (.tail (.tail (.single (.issue _ _ 512 true 0 none (by decide +kernel))) (.prefillDone _ 0))
    (.firstToken _ 0))
    rfl (fun _ => ⟨rfl, rfl, rfl, rfl, rfl, rfl, rfl⟩) (by decide +kernel)

end Router
end CanaTune
