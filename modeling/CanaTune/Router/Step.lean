import CanaTune.Router.Admit

/-! One admission attempt of a waiting request. -/

namespace CanaTune
variable {K : Type} [Scalar K] {n : ℕ}

/-- What one admission attempt returns. -/
inductive Outcome (K : Type) (n : ℕ)
  | ticket (t : Ticket K n)
  | wait
  | reject

def Outcome.ticket? : Outcome K n → Option (Ticket K n)
  | .ticket t => some t
  | _ => none

/-- A waiter leaves every book. -/
def WaiterBooks.release (b : WaiterBooks K) (waiter : ℕ) : WaiterBooks K :=
  { b with
    fresh := b.fresh.erase waiter
    signalled := b.signalled.erase waiter
    waitingSince := b.waitingSince.erase waiter
    queue := b.queue.erase waiter
    expires := b.expires.erase waiter
    holding := b.holding.erase waiter }

namespace Router

/-- One per arriving request; also the offered-rate record. -/
def newWaiter (r : Router K n) : ℕ × Router K n :=
  (r.books.nextWaiter, { r with books := { r.books with
    arrivals := keepLast 100000 (r.books.arrivals ++ [r.now])
    nextWaiter := r.books.nextWaiter + 1 } })

/-- Arrivals of each bucket of the window, the newest first; a later arrival than `now` is the newest. -/
def bucketCounts (now bucketS : K) (buckets : ℕ) (times : List K) : List ℕ :=
  (List.range buckets).map fun b =>
    times.countP fun t => decide (min (buckets - 1 : ℕ) (max 0 ⌊(now - t) / bucketS⌋).toNat = b)

/-- Offered requests/s over the window, and the burst factor: the 90th percentile of the bucket rates over
    the mean. -/
def offered (r : Router K n) (now windowS bucketS : K) : (K × K) × Router K n :=
  let arrivals := r.books.arrivals.dropWhile fun t => decide (t < now - r.arrivalKeepS)
  let r := { r with books := { r.books with arrivals } }
  let times := arrivals.filter fun t => decide (now - windowS ≤ t)
  if times.isEmpty then ((0, 1), r)
  else
    let rate := (times.length : K) / windowS
    let buckets := (max 1 ⌊windowS / bucketS⌋).toNat
    let rates := ((bucketCounts now bucketS buckets times).map fun c => (c : K) / bucketS).insertionSort (· ≤ ·)
    let p90 := rates.getD (min (rates.length - 1) ⌊(9 / 10 : K) * rates.length⌋.toNat) 0
    ((rate, max 1 (p90 / rate)), r)

def release (r : Router K n) (waiter : ℕ) : Router K n := { r with books := r.books.release waiter }

/-- The waiter leaves with a rejection. -/
def rejectWaiter (r : Router K n) (waiter : ℕ) : Outcome K n × Router K n :=
  (.reject, { r.release waiter with rejections := r.rejections + 1 })

/-- A ticket releases its waiter. -/
def leaveWith (r : Router K n) (waiter : ℕ) : Option (Ticket K n) → Outcome K n × Router K n
  | some t => (.ticket t, r.release waiter)
  | none => (.wait, r)

/-- A waiter joins the queue at its first attempt. -/
def enqueue (r : Router K n) (waiter : ℕ) (waitedMs : K) : Router K n :=
  if waiter ∈ r.books.queue then r
  else { r with books := { r.books with
    queue := r.books.queue ++ [waiter]
    waitingSince := r.books.waitingSince.insert waiter (r.now - waitedMs / 1000) } }

/-- The first waiter of the queue, which cannot be empty. -/
def queueHead (r : Router K n) : Except RouterError ℕ :=
  match r.books.queue with
  | w :: _ => .ok w
  | [] => .error .index

/-- A waiter without a feasible group wakes control once. -/
def signalOnce (r : Router K n) (waiter : ℕ) : Router K n :=
  if waiter ∈ r.books.signalled then r
  else { r with books := { r.books with signalled := insert waiter r.books.signalled } }.signalPressure

/-- Only the head of the queue is admitted. -/
def atHead (r : Router K n) (waiter : ℕ) (attempt : Except RouterError (Option (Ticket K n) × Router K n)) :
    Except RouterError (Outcome K n × Router K n) := do
  if (← r.queueHead) = waiter then
    let (ticket, r) ← attempt
    return r.leaveWith waiter ticket
  else return (.wait, r)

/-- The waiter's own scan; without a feasible route it wakes control. -/
def scanFor (r : Router K n) (waiter tokens : ℕ) (waitedMs : K) : Router K n :=
  let (feasible, r) := r.candidates tokens waitedMs
  if feasible.isEmpty then r.signalOnce waiter else r

/-- best_effort: strictly first come, first served. -/
def stepBestEffort (r : Router K n) (waiter tokens : ℕ) (exact : Bool) (waitedMs : K) :
    Except RouterError (Outcome K n × Router K n) :=
  if r.settings.holdMaxMs ≤ waitedMs then .ok (r.rejectWaiter waiter)
  else
    let r := r.enqueue waiter waitedMs
    if r.baselineMode then r.atHead waiter (r.admitBaseline tokens exact waitedMs)
    else
      let r := r.scanFor waiter tokens waitedMs
      -- FIFO prevents late requests from starving behind fresh arrivals.
      r.atHead waiter (r.tryAdmit tokens exact waitedMs false false true)

/-- serve: the request is past its wait budget. -/
def pastWait (r : Router K n) (waitedMs : K) : Bool :=
  decide (r.settings.maxWaitMs < waitedMs + r.settings.retryPeriodMs)

/-- Into the hold queue, or among the fresh waiters. -/
def note (r : Router K n) (waiter tokens : ℕ) (waitedMs : K) (serve pastWait : Bool) : Router K n :=
  if serve && pastWait && decide (waiter ∉ r.books.holding) then
    let (deadline, r) := r.deadlineMs tokens
    { r with books := { r.books with
      holding := r.books.holding ++ [waiter]
      expires := r.books.expires.insert waiter (r.now + (deadline - waitedMs) / 1000)
      held := r.books.held + 1
      fresh := r.books.fresh.erase waiter } }
  else if !pastWait then { r with books := { r.books with fresh := insert waiter r.books.fresh } }
  else r

/-- The clock time a holder's SLO is lost. -/
def expiry (r : Router K n) (waiter : ℕ) : Except RouterError K :=
  match r.books.expires.lookup waiter with
  | some t => .ok t
  | none => .error .key

/-- The holder to serve although it is late: the oldest one whose deadline passed, while no holder within
    its deadline waits. -/
def backfillHead (r : Router K n) (waiter : ℕ) (holder : Bool) : Except RouterError Bool :=
  if !holder || r.books.fresh.Nonempty then .ok false
  else
    match r.settings.doomed with
    | .dispatch =>
      match r.books.holding with
      | [] => .error .index
      | w :: _ => .ok (w == waiter)
    | .backfill => do
      let expiries ← r.books.holding.mapM fun w => do return (w, ← r.expiry w)
      let expired := expiries.filter fun e => decide (e.2 ≤ r.now)
      return (expired.head?.any fun e => e.1 == waiter) && expired.length == r.books.holding.length

/-- The holders whose deadline passed, as `state` reports them. -/
def holdingExpired (r : Router K n) : Except RouterError ℕ := do
  let expiries ← r.books.holding.mapM r.expiry
  return expiries.countP fun t => decide (t ≤ r.now)

/-- reject and serve: the legacy policies. -/
def stepLegacy (r : Router K n) (waiter tokens : ℕ) (exact : Bool) (waitedMs : K) :
    Except RouterError (Outcome K n × Router K n) := do
  let serve := r.settings.overload == .serve && !r.openAdmission
  let past := r.pastWait waitedMs
  let r := r.note waiter tokens waitedMs serve past
  let holder := serve && past
  let head ← r.backfillHead waiter holder
  let (ticket, r) ← r.tryAdmit tokens exact waitedMs holder head false
  match ticket with
  | some _ => return r.leaveWith waiter ticket
  | none =>
    if past && (!serve || decide (r.settings.holdMaxMs < waitedMs + r.settings.retryPeriodMs)) then
      return r.rejectWaiter waiter
    else return (.wait, r)

/-- One admission attempt of a waiting request. -/
def step (r : Router K n) (waiter tokens : ℕ) (exact : Bool) (waitedMs : K) :
    Except RouterError (Outcome K n × Router K n) :=
  if r.settings.overload = .bestEffort then r.stepBestEffort waiter tokens exact waitedMs
  else r.stepLegacy waiter tokens exact waitedMs

/-- The attempt gets a ticket. -/
def dispatches (r : Router K n) (waiter tokens : ℕ) (exact : Bool) (waitedMs : K) : Bool :=
  match r.step waiter tokens exact waitedMs with
  | .ok (.ticket _, _) => true
  | _ => false

theorem dispatches_iff {r : Router K n} {waiter tokens : ℕ} {exact : Bool} {waitedMs : K} :
    r.dispatches waiter tokens exact waitedMs = true ↔
      ∃ t s, r.step waiter tokens exact waitedMs = .ok (.ticket t, s) := by
  unfold dispatches
  split
  case h_1 t s h => exact ⟨fun _ => ⟨t, s, h⟩, fun _ => rfl⟩
  case h_2 hno => exact ⟨fun h => absurd h (by simp), fun ⟨t, s, h⟩ => absurd h (hno t s)⟩

/-- The state an attempt leaves, the same one when it ends in an exception. -/
def after (r : Router K n) (waiter tokens : ℕ) (exact : Bool) (waitedMs : K) : Router K n :=
  match r.step waiter tokens exact waitedMs with
  | .ok (_, s) => s
  | .error _ => r

theorem step_of_dispatches {r : Router K n} {waiter tokens : ℕ} {exact : Bool} {waitedMs : K}
    (h : r.dispatches waiter tokens exact waitedMs = true) :
    ∃ t, r.step waiter tokens exact waitedMs = .ok (.ticket t, r.after waiter tokens exact waitedMs) := by
  obtain ⟨t, s, hstep⟩ := dispatches_iff.mp h
  exact ⟨t, by rw [after, hstep]⟩

end Router
end CanaTune
