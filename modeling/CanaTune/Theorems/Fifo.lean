import CanaTune.Lib.Fifo
import CanaTune.Theorems.Admission
import CanaTune.Theorems.Moves

/-! Best effort serves strictly first come, first served. Every answer of `step` is one event of a queue that
    serves its head only, in the normal mode as in baseline mode. -/

namespace CanaTune
variable {K : Type} [Scalar K] {n : ℕ}

/-- How an attempt counts for the queue. -/
def Outcome.answer : Outcome K n → Fifo.Answer
  | .ticket _ => .served
  | .wait => .wait
  | .reject => .left

namespace Router

/-! ### Admissions leave the queue alone -/

theorem issue_books (r : Router K n) (c : Candidate K n) (tokens : ℕ) (exact : Bool) (waitedMs : K)
    (kind : Option Overflow) : (r.issue c tokens exact waitedMs kind).2.books = r.books := by
  have hu := untouched_applyTable r
  calc (r.issue c tokens exact waitedMs kind).2.books
      = (Router.reserve { r.applyTable with overflows := countOverflow r.applyTable.overflows kind } c.route
          (r.ownMs c.route tokens) tokens).books := rfl
    _ = r.books := by rw [reserve_books, hu.books]

theorem Answers.books {r : Router K n} {tokens : ℕ} {routes : Set (Route n)}
    {a : Option (Ticket K n) × Router K n} (h : Answers r tokens routes a) :
    a.2.books = r.books ∧ a.2.settings = r.settings := by
  have hr := untouched_applyTable r
  obtain ⟨_ | t, s⟩ := a
  · have hs := untouched_applyTable s
    have h : Scanned r.applyTable s.applyTable := h
    exact ⟨hs.books.symm.trans (h.books.trans hr.books), hs.settings.symm.trans (h.settings.trans hr.settings)⟩
  · obtain ⟨route, -, r₁, c, exact, waitedMs, kind, hscan, -, hissue⟩ := h
    have h₁ := untouched_applyTable r₁
    have hbooks := issue_books r₁ c tokens exact waitedMs kind
    have hsettings := (issued_issue r₁ c tokens exact waitedMs kind).settings
    rw [hissue] at hbooks hsettings
    exact ⟨hbooks.trans (h₁.books.symm.trans (hscan.books.trans hr.books)),
      hsettings.trans (h₁.settings.symm.trans (hscan.settings.trans hr.settings))⟩

/-! ### One attempt -/

theorem enqueue_queue (r : Router K n) (waiter : ℕ) (waitedMs : K) :
    (r.enqueue waiter waitedMs).books.queue = Fifo.join r.books.queue waiter := by
  unfold enqueue Fifo.join
  split_ifs <;> rfl

theorem enqueue_settings (r : Router K n) (waiter : ℕ) (waitedMs : K) :
    (r.enqueue waiter waitedMs).settings = r.settings := by
  unfold enqueue
  split_ifs <;> rfl

/-- The signal of a waiter writes its books and the production evidence only. -/
theorem scanFor_spec (r : Router K n) (waiter tokens : ℕ) (waitedMs : K) :
    ∃ r' books production, Untouched r r' ∧ Scanned r.applyTable r'.applyTable ∧ books.queue = r.books.queue ∧
      production.live = r'.production.live ∧ r.scanFor waiter tokens waitedMs = { r' with books, production } := by
  have hs := scanned_candidates r tokens waitedMs
  unfold scanFor
  generalize r.candidates tokens waitedMs = e at hs
  obtain ⟨feasible, r'⟩ := e
  have hu : Untouched r r' :=
    (untouched_applyTable r).trans (hs.toUntouched.trans (untouched_applyTable r').symm)
  dsimp only
  unfold signalOnce
  split_ifs
  · exact ⟨r', r'.books, r'.production, hu, hs, by rw [hu.books], rfl, rfl⟩
  · exact ⟨r', { r'.books with signalled := insert waiter r'.books.signalled },
      { r'.production with riskSignals := r'.production.riskSignals + 1, pressureEvent := true }, hu, hs,
      by rw [← hu.books], rfl, rfl⟩
  · exact ⟨r', r'.books, r'.production, hu, hs, by rw [hu.books], rfl, rfl⟩

omit [Scalar K] in
theorem queueHead_eq {r : Router K n} {w : ℕ} (h : r.queueHead = .ok w) : r.books.queue.head? = some w := by
  unfold queueHead at h
  split at h
  case h_1 hq => rw [hq, List.head?_cons, Except.ok.inj h]
  case h_2 => exact absurd h (by simp)

omit [Scalar K] in
/-- An attempt at the head that leaves the queue alone is one event of the queue. -/
theorem atHead_spec {r s : Router K n} {q : List ℕ} {waiter : ℕ} {o : Outcome K n}
    {attempt : Except RouterError (Option (Ticket K n) × Router K n)}
    (hattempt : ∀ a, attempt = .ok a → a.2.books = r.books ∧ a.2.settings = r.settings)
    (hq : r.books.queue = Fifo.join q waiter) (h : r.atHead waiter attempt = .ok (o, s)) :
    Fifo.Step q (.call waiter o.answer) s.books.queue ∧ s.settings = r.settings := by
  unfold atHead at h
  simp only [bind, Except.bind] at h
  split at h
  · exact absurd h (by simp)
  case h_2 w hhead =>
    split_ifs at h with hw
    · cases attempt with
      | error e => exact absurd h (by simp)
      | ok a =>
        obtain ⟨ticket, r'⟩ := a
        obtain ⟨hbooks, hsettings⟩ := hattempt _ rfl
        -- Only the head is tried, so whoever is served leaves from the front.
        have hserve := Fifo.Step.serve q waiter (by rw [← hq, queueHead_eq hhead, hw])
        cases ticket with
        | none =>
          obtain ⟨rfl, rfl⟩ := Prod.mk.inj (Except.ok.inj h)
          exact ⟨by rw [hbooks, hq]; exact .wait q waiter, hsettings⟩
        | some t =>
          obtain ⟨rfl, rfl⟩ := Prod.mk.inj (Except.ok.inj h)
          refine ⟨?_, hsettings⟩
          show Fifo.Step q (.call waiter .served) (r'.books.queue.erase waiter)
          rwa [hbooks, hq]
    · obtain ⟨rfl, rfl⟩ := Prod.mk.inj (Except.ok.inj h)
      exact ⟨hq ▸ .wait q waiter, rfl⟩

theorem stepBestEffort_spec {r : Router K n} {waiter tokens : ℕ} {exact : Bool} {waitedMs : K} {o : Outcome K n}
    {s : Router K n} (h : r.stepBestEffort waiter tokens exact waitedMs = .ok (o, s)) :
    Fifo.Step r.books.queue (.call waiter o.answer) s.books.queue ∧ s.settings = r.settings := by
  have hq := enqueue_queue r waiter waitedMs
  have hset := enqueue_settings r waiter waitedMs
  unfold stepBestEffort at h
  split_ifs at h with hlate
  · obtain ⟨rfl, rfl⟩ := Prod.mk.inj (Except.ok.inj h)
    exact ⟨.leave r.books.queue waiter, rfl⟩
  dsimp only at h
  generalize r.enqueue waiter waitedMs = r' at h hq hset
  by_cases hbase : r'.baselineMode = true
  · rw [if_pos hbase] at h
    have hat := atHead_spec (fun a ha => (admitBaseline_spec ha).books) hq h
    exact ⟨hat.1, hat.2.trans hset⟩
  · rw [if_neg hbase] at h
    obtain ⟨r'', books, production, hu, -, hbooks, -, hscan⟩ := scanFor_spec r' waiter tokens waitedMs
    rw [hscan] at h
    have hat := atHead_spec (fun a ha => (tryAdmit_spec ha).books) (hbooks.trans hq) h
    exact ⟨hat.1, hat.2.trans (hu.settings.trans hset)⟩

/-! ### Runs -/

/-- The events of a run: attempts of waiters, attempts that end in an exception, releases, and any activity
    that touches neither the queue nor the settings. -/
inductive QueueRun (r₀ : Router K n) : List (Fifo.Event ℕ) → Router K n → Prop
  | nil : QueueRun r₀ [] r₀
  | step {tr : List (Fifo.Event ℕ)} {r s : Router K n} {o : Outcome K n} (waiter tokens : ℕ) (exact : Bool) (waitedMs : K)
      (run : QueueRun r₀ tr r) (answer : r.step waiter tokens exact waitedMs = .ok (o, s)) :
      QueueRun r₀ (tr ++ [.call waiter o.answer]) s
  | raise {tr : List (Fifo.Event ℕ)} {r s : Router K n} {e : RouterError} (waiter tokens : ℕ) (exact : Bool) (waitedMs : K)
      (run : QueueRun r₀ tr r) (answer : r.step waiter tokens exact waitedMs = .error e)
      (queue : s.books.queue = (r.enqueue waiter waitedMs).books.queue) (settings : s.settings = r.settings) :
      QueueRun r₀ (tr ++ [.call waiter .wait]) s
  | release {tr : List (Fifo.Event ℕ)} {r : Router K n} (waiter : ℕ) (run : QueueRun r₀ tr r) :
      QueueRun r₀ (tr ++ [.cancel waiter]) (r.release waiter)
  | elsewhere {tr : List (Fifo.Event ℕ)} {r s : Router K n} (run : QueueRun r₀ tr r)
      (queue : s.books.queue = r.books.queue) (settings : s.settings = r.settings) : QueueRun r₀ tr s

/-- A run of the Router is a run of the queue. -/
theorem QueueRun.fifo {r₀ r : Router K n} {tr : List (Fifo.Event ℕ)} (hbest : r₀.settings.overload = .bestEffort)
    (hempty : r₀.books.queue = []) (h : QueueRun r₀ tr r) :
    Fifo.Run tr r.books.queue ∧ r.settings.overload = .bestEffort := by
  induction h with
  | nil => exact ⟨hempty ▸ .nil, hbest⟩
  | step waiter tokens exact waitedMs _ answer ih =>
    rw [Router.step, if_pos ih.2] at answer
    obtain ⟨hstep, hsettings⟩ := stepBestEffort_spec answer
    exact ⟨.step ih.1 hstep, hsettings ▸ ih.2⟩
  | raise waiter tokens exact waitedMs _ _ queue settings ih =>
    refine ⟨.step ih.1 ?_, settings ▸ ih.2⟩
    rw [queue, enqueue_queue]
    exact .wait _ waiter
  | release waiter _ ih => exact ⟨.step ih.1 (.cancel _ waiter), ih.2⟩
  | elsewhere _ queue settings ih => exact ⟨queue ▸ ih.1, settings ▸ ih.2⟩

/-- Whoever receives a ticket, everybody who made the first attempt earlier has left. -/
theorem left_of_ticket {r₀ r s : Router K n} {tr : List (Fifo.Event ℕ)} {a b tokens : ℕ} {exact : Bool} {waitedMs : K}
    {t : Ticket K n} (hbest : r₀.settings.overload = .bestEffort) (hempty : r₀.books.queue = [])
    (hrun : QueueRun r₀ tr r) (hstep : r.step b tokens exact waitedMs = .ok (.ticket t, s))
    (hfirst : Fifo.CallsFirst tr a b) : Fifo.Left tr a := by
  obtain ⟨hq, hover⟩ := hrun.fifo hbest hempty
  rw [Router.step, if_pos hover] at hstep
  exact hq.left_of_served hfirst (stepBestEffort_spec hstep).1.head

/-- An attempt and its answer; one that ends in an exception leaves the waiter in the queue. -/
def attempt (r : Router K n) (waiter tokens : ℕ) (exact : Bool) (waitedMs : K) : Fifo.Answer × Router K n :=
  match r.step waiter tokens exact waitedMs with
  | .ok (o, s) => (o.answer, s)
  | .error _ => (.wait, r.enqueue waiter waitedMs)

theorem QueueRun.attempt {r₀ r : Router K n} {tr : List (Fifo.Event ℕ)} (hrun : QueueRun r₀ tr r) (waiter tokens : ℕ)
    (exact : Bool) (waitedMs : K) {answer : Fifo.Answer} (h : (r.attempt waiter tokens exact waitedMs).1 = answer) :
    QueueRun r₀ (tr ++ [.call waiter answer]) (r.attempt waiter tokens exact waitedMs).2 := by
  unfold Router.attempt at h ⊢
  cases hstep : r.step waiter tokens exact waitedMs with
  | ok answered =>
    rw [hstep] at h
    exact h ▸ .step waiter tokens exact waitedMs hrun hstep
  | error e =>
    rw [hstep] at h
    exact h ▸ .raise waiter tokens exact waitedMs hrun hstep rfl (enqueue_settings r waiter waitedMs)

/-- Two waiters queue while the only group drains. -/
def queuedTwice : Router ℚ 1 :=
  let draining := (smallCold 1).setGroup 0 fun x => { x with state := .draining }
  ((draining.attempt 1 512 true 0).2.attempt 2 512 true 0).2

/-- Both queue; the group is active again, and the second waiter is served after the first one ran out of time. -/
theorem left_of_ticket_timeout : Fifo.Left [.call 1 .wait, .call 2 .wait, .call 1 .left] 1 := by
  let active := queuedTwice.setGroup 0 fun x => { x with state := .active }
  have hserved : (active.attempt 1 512 true 30000).2.dispatches 2 512 true 10 = true := by decide +kernel
  obtain ⟨t, s, hstep⟩ := dispatches_iff.mp hserved
  have hqueued : QueueRun _ [.call 1 .wait, .call 2 .wait] queuedTwice :=
    (QueueRun.nil.attempt 1 512 true 0 (by decide +kernel)).attempt 2 512 true 0 (by decide +kernel)
  have hactive : QueueRun _ [.call 1 .wait, .call 2 .wait] active := .elsewhere hqueued rfl rfl
  exact left_of_ticket rfl rfl (hactive.attempt 1 512 true 30000 (by decide +kernel)) hstep
    ⟨[.call 1 .wait], [.call 2 .wait, .call 1 .left], rfl, ⟨.wait, by decide⟩, by simp [Fifo.Called]⟩

end Router
end CanaTune
