import CanaTune.Theorems.Attempt
import CanaTune.Theorems.Fifo

/-! The books of the waiting requests. An attempt writes about its own waiter only: it joins the queue, the signalled,
    the fresh or the holders, and with an answer it leaves them all. The waiter's wait does not shrink, so a holder
    never becomes fresh again. -/

namespace CanaTune
variable {K : Type} [Scalar K] {n : ℕ}

namespace WaiterBooks
omit [Scalar K]

/-! ### The books -/

/-- `w` is in none of the books. -/
structure Without (b : WaiterBooks K) (w : ℕ) : Prop where
  queue : w ∉ b.queue
  waitingSince : w ∉ b.waitingSince
  signalled : w ∉ b.signalled
  fresh : w ∉ b.fresh
  holding : w ∉ b.holding
  expires : w ∉ b.expires

/-- The books agree about the waiters. Those in `left` are gone, and every holder is late. -/
structure Consistent (left : Finset ℕ) (late : ℕ → Prop) (b : WaiterBooks K) : Prop where
  holders : ∀ w, w ∈ b.holding ↔ w ∈ b.expires
  apart : ∀ w ∈ b.holding, w ∉ b.fresh
  queueNodup : b.queue.Nodup
  holdingNodup : b.holding.Nodup
  queued : ∀ w, w ∈ b.queue ↔ w ∈ b.waitingSince
  gone : ∀ w ∈ left, b.Without w
  late : ∀ w ∈ b.holding, late w

/-- The six books of the waiters are those of `b`. -/
structure Same (b c : WaiterBooks K) : Prop where
  queue : c.queue = b.queue
  waitingSince : c.waitingSince = b.waitingSince
  signalled : c.signalled = b.signalled
  fresh : c.fresh = b.fresh
  holding : c.holding = b.holding
  expires : c.expires = b.expires

theorem Same.without {b c : WaiterBooks K} (h : Same b c) {w : ℕ} (hw : b.Without w) : c.Without w where
  queue := h.queue ▸ hw.queue
  waitingSince := h.waitingSince ▸ hw.waitingSince
  signalled := h.signalled ▸ hw.signalled
  fresh := h.fresh ▸ hw.fresh
  holding := h.holding ▸ hw.holding
  expires := h.expires ▸ hw.expires

section Consistent
variable {left : Finset ℕ} {late late' : ℕ → Prop} {b c : WaiterBooks K}

theorem Consistent.same (h : Consistent left late b) (hs : Same b c) : Consistent left late c where
  holders := by
    rw [hs.holding, hs.expires]
    exact h.holders
  apart := by
    rw [hs.holding, hs.fresh]
    exact h.apart
  queueNodup := hs.queue ▸ h.queueNodup
  holdingNodup := hs.holding ▸ h.holdingNodup
  queued := by
    rw [hs.queue, hs.waitingSince]
    exact h.queued
  gone w hw := hs.without (h.gone w hw)
  late := by
    rw [hs.holding]
    exact h.late

theorem Consistent.mono (h : Consistent left late b) (hlate : ∀ w, late w → late' w) : Consistent left late' b :=
  { h with late := fun w hw => hlate w (h.late w hw) }

theorem without_release (h : Consistent left late b) (w : ℕ) : (b.release w).Without w where
  queue := h.queueNodup.not_mem_erase
  waitingSince hw := (AList.mem_erase.mp hw).1 rfl
  signalled := Finset.notMem_erase _ _
  fresh := Finset.notMem_erase _ _
  holding := h.holdingNodup.not_mem_erase
  expires hw := (AList.mem_erase.mp hw).1 rfl

theorem Without.release {w v : ℕ} (h : b.Without v) : (b.release w).Without v where
  queue hv := h.queue (List.mem_of_mem_erase hv)
  waitingSince hv := h.waitingSince (AList.mem_erase.mp hv).2
  signalled hv := h.signalled (Finset.mem_of_mem_erase hv)
  fresh hv := h.fresh (Finset.mem_of_mem_erase hv)
  holding hv := h.holding (List.mem_of_mem_erase hv)
  expires hv := h.expires (AList.mem_erase.mp hv).2

/-- A waiter that leaves is gone. -/
theorem Consistent.release (h : Consistent left late b) (w : ℕ) : Consistent (insert w left) late (b.release w) where
  holders v := by
    rw [WaiterBooks.release, h.holdingNodup.mem_erase_iff, AList.mem_erase, h.holders]
  apart v hv hf := h.apart v (List.mem_of_mem_erase hv) (Finset.mem_of_mem_erase hf)
  queueNodup := h.queueNodup.erase w
  holdingNodup := h.holdingNodup.erase w
  queued v := by
    rw [WaiterBooks.release, h.queueNodup.mem_erase_iff, AList.mem_erase, h.queued]
  gone v hv := by
    rcases Finset.mem_insert.mp hv with rfl | hv
    · exact without_release h v
    · exact (h.gone v hv).release
  late v hv := h.late v (List.mem_of_mem_erase hv)

end Consistent

/-! ### What an attempt writes -/

/-- One write of an attempt of `w`, past its wait budget or not. -/
inductive Write (w : ℕ) (past : Bool) : WaiterBooks K → WaiterBooks K → Prop
  | queue (b : WaiterBooks K) (since : K) (new : w ∉ b.queue) :
      Write w past b { b with queue := b.queue ++ [w], waitingSince := b.waitingSince.insert w since }
  | signal (b : WaiterBooks K) : Write w past b { b with signalled := insert w b.signalled }
  | hold (b : WaiterBooks K) (expires : K) (late : past = true) (new : w ∉ b.holding) :
      Write w past b { b with
        holding := b.holding ++ [w], expires := b.expires.insert w expires, held := b.held + 1, fresh := b.fresh.erase w }
  | fresh (b : WaiterBooks K) (inTime : past = false) : Write w past b { b with fresh := insert w b.fresh }

theorem nodup_append_singleton {l : List ℕ} {w : ℕ} (h : l.Nodup) (hw : w ∉ l) : (l ++ [w]).Nodup :=
  List.nodup_append'.mpr ⟨h, List.nodup_singleton w, List.disjoint_singleton.mpr hw⟩

theorem Write.consistent {w : ℕ} {past : Bool} {left : Finset ℕ} {late : ℕ → Prop} {b c : WaiterBooks K}
    (hw : Write w past b c) (hleft : w ∉ left) (hpast : late w ↔ past = true) (h : Consistent left late b) :
    Consistent left late c := by
  have hother : ∀ v ∈ left, v ≠ w := fun v hv hvw => hleft (hvw ▸ hv)
  cases hw with
  | queue since new =>
    refine { h with queueNodup := nodup_append_singleton h.queueNodup new, queued := fun v => ?_, gone := fun v hv => ?_ }
    · rw [List.mem_append, List.mem_singleton, AList.mem_insert, h.queued, or_comm]
    · have hgone := h.gone v hv
      refine { hgone with queue := fun hq => ?_, waitingSince := fun hs => ?_ }
      · exact (List.mem_append.mp hq).elim hgone.queue fun hq => hother v hv (List.mem_singleton.mp hq)
      · exact ((AList.mem_insert _).mp hs).elim (hother v hv) hgone.waitingSince
  | signal =>
    refine { h with gone := fun v hv => ?_ }
    have hgone := h.gone v hv
    exact { hgone with signalled := fun hs => (Finset.mem_insert.mp hs).elim (hother v hv) hgone.signalled }
  | hold expires hlate new =>
    refine { h with
      holders := fun v => ?_
      apart := fun v hv hf => ?_
      holdingNodup := nodup_append_singleton h.holdingNodup new
      gone := fun v hv => ?_
      late := fun v hv => ?_ }
    · rw [List.mem_append, List.mem_singleton, AList.mem_insert, h.holders, or_comm]
    · obtain ⟨hne, hf⟩ := Finset.mem_erase.mp hf
      exact (List.mem_append.mp hv).elim (fun hv => h.apart v hv hf) fun hv => hne (List.mem_singleton.mp hv)
    · have hgone := h.gone v hv
      refine { hgone with fresh := fun hf => ?_, holding := fun hh => ?_, expires := fun he => ?_ }
      · exact hgone.fresh (Finset.mem_of_mem_erase hf)
      · exact (List.mem_append.mp hh).elim hgone.holding fun hh => hother v hv (List.mem_singleton.mp hh)
      · exact ((AList.mem_insert _).mp he).elim (hother v hv) hgone.expires
    · rcases List.mem_append.mp hv with hv | hv
      · exact h.late v hv
      · exact List.mem_singleton.mp hv ▸ hpast.mpr hlate
  | fresh inTime =>
    refine { h with apart := fun v hv hf => ?_, gone := fun v hv => ?_ }
    · rcases Finset.mem_insert.mp hf with rfl | hf
      -- A holder is late and stays late, so no attempt of it is in time.
      · have hlate := hpast.mp (h.late v hv)
        rw [inTime] at hlate
        exact Bool.noConfusion hlate
      · exact h.apart v hv hf
    · have hgone := h.gone v hv
      exact { hgone with fresh := fun hf => (Finset.mem_insert.mp hf).elim (hother v hv) hgone.fresh }

/-- The writes of a whole attempt, before its answer. -/
abbrev Writes (w : ℕ) (past : Bool) : WaiterBooks K → WaiterBooks K → Prop := Relation.ReflTransGen (Write w past)

theorem Writes.consistent {w : ℕ} {past : Bool} {left : Finset ℕ} {late : ℕ → Prop} {b c : WaiterBooks K}
    (hw : Writes w past b c) (hleft : w ∉ left) (hpast : late w ↔ past = true) (h : Consistent left late b) :
    Consistent left late c := by
  induction hw with
  | refl => exact h
  | tail _ hlast ih => exact hlast.consistent hleft hpast ih

end WaiterBooks

/-- The books after an answer: a waiter that does not wait on leaves them. -/
def Outcome.settle (o : Outcome K n) (b : WaiterBooks K) (w : ℕ) : WaiterBooks K :=
  match o with
  | .wait => b
  | .ticket _ | .reject => b.release w

namespace Router
open WaiterBooks

theorem enqueue_writes (r : Router K n) (w : ℕ) (waitedMs : K) (past : Bool) :
    Writes w past r.books (r.enqueue w waitedMs).books := by
  unfold enqueue
  split_ifs with hw
  · exact .refl
  · exact .single (.queue r.books _ hw)

theorem note_writes (r : Router K n) (w tokens : ℕ) (waitedMs : K) (serve past : Bool) :
    Writes w past r.books (r.note w tokens waitedMs serve past).books := by
  unfold note deadlineMs
  split_ifs with hhold hpast
  · simp only [Bool.and_eq_true, decide_eq_true_eq] at hhold
    have hbooks := (untouched_applyTable r).books
    dsimp only
    rw [hbooks]
    exact .single (.hold r.books _ hhold.1.2 hhold.2)
  · exact .single (.fresh r.books (by simpa using hpast))
  · exact .refl

theorem scanFor_writes (r : Router K n) (w tokens : ℕ) (waitedMs : K) (past : Bool) :
    Writes w past r.books (r.scanFor w tokens waitedMs).books ∧ (r.scanFor w tokens waitedMs).settings = r.settings := by
  have hs := scanned_candidates r tokens waitedMs
  unfold scanFor
  generalize r.candidates tokens waitedMs = e at hs
  obtain ⟨feasible, r'⟩ := e
  have hu : Untouched r r' :=
    (untouched_applyTable r).trans (hs.toUntouched.trans (untouched_applyTable r').symm)
  dsimp only
  unfold signalOnce
  split_ifs
  · exact ⟨hu.books ▸ .refl, hu.settings⟩
  · exact ⟨hu.books ▸ .single (.signal r'.books), hu.settings⟩
  · exact ⟨hu.books ▸ .refl, hu.settings⟩

/-- What one attempt does: the settings stay, the waiter's writes are made, and the answer settles it. -/
structure Attempted (r : Router K n) (w : ℕ) (past : Bool) (o : Outcome K n) (s : Router K n) : Prop where
  settings : s.settings = r.settings
  books : ∃ books, Writes w past r.books books ∧ s.books = o.settle books w

omit [Scalar K] in
theorem Attempted.of_leaveWith {r r' s : Router K n} {w : ℕ} {past : Bool} {o : Outcome K n} {a : Option (Ticket K n)}
    (hset : r'.settings = r.settings) (hw : Writes w past r.books r'.books) (h : r'.leaveWith w a = (o, s)) :
    Attempted r w past o s := by
  cases a <;> obtain ⟨rfl, rfl⟩ := Prod.mk.inj h
  · exact ⟨hset, r'.books, hw, rfl⟩
  · exact ⟨hset, r'.books, hw, rfl⟩

omit [Scalar K] in
theorem Attempted.of_rejectWaiter {r r' s : Router K n} {w : ℕ} {past : Bool} {o : Outcome K n}
    (hset : r'.settings = r.settings) (hw : Writes w past r.books r'.books) (h : r'.rejectWaiter w = (o, s)) :
    Attempted r w past o s := by
  obtain ⟨rfl, rfl⟩ := Prod.mk.inj h
  exact ⟨hset, r'.books, hw, rfl⟩

omit [Scalar K] in
theorem Attempted.of_atHead {r r' s : Router K n} {w : ℕ} {past : Bool} {o : Outcome K n}
    {attempt : Except RouterError (Option (Ticket K n) × Router K n)} (hset : r'.settings = r.settings)
    (hw : Writes w past r.books r'.books)
    (hattempt : ∀ a, attempt = .ok a → a.2.books = r'.books ∧ a.2.settings = r'.settings)
    (h : r'.atHead w attempt = .ok (o, s)) : Attempted r w past o s := by
  unfold atHead at h
  simp only [bind, Except.bind] at h
  split at h
  · exact absurd h (by simp)
  · split_ifs at h
    · split at h
      · exact absurd h (by simp)
      case h_2 a =>
        obtain ⟨hbooks, hsettings⟩ := hattempt a rfl
        exact .of_leaveWith (hsettings.trans hset) (hbooks ▸ hw) (Except.ok.inj h)
    · obtain ⟨rfl, rfl⟩ := Prod.mk.inj (Except.ok.inj h)
      exact ⟨hset, r'.books, hw, rfl⟩

theorem stepBestEffort_attempted {r s : Router K n} {w tokens : ℕ} {exact : Bool} {waitedMs : K} {o : Outcome K n}
    (past : Bool) (h : r.stepBestEffort w tokens exact waitedMs = .ok (o, s)) : Attempted r w past o s := by
  have hset := enqueue_settings r w waitedMs
  have hqueue := enqueue_writes r w waitedMs past
  unfold stepBestEffort at h
  split_ifs at h with hlate
  · exact .of_rejectWaiter rfl .refl (Except.ok.inj h)
  dsimp only at h
  generalize r.enqueue w waitedMs = r' at h hset hqueue
  split_ifs at h
  · exact .of_atHead hset hqueue (fun a ha => (admitBaseline_spec ha).books) h
  · obtain ⟨hscan, hscanned⟩ := scanFor_writes r' w tokens waitedMs past
    exact .of_atHead (hscanned.trans hset) (hqueue.trans hscan) (fun a ha => (tryAdmit_spec ha).books) h

theorem stepLegacy_attempted {r s : Router K n} {w tokens : ℕ} {exact : Bool} {waitedMs : K} {o : Outcome K n}
    (h : r.stepLegacy w tokens exact waitedMs = .ok (o, s)) : Attempted r w (r.pastWait waitedMs) o s := by
  unfold stepLegacy at h
  dsimp only at h
  generalize hserve : (r.settings.overload == .serve && !r.openAdmission) = serve at h
  have hwrites := note_writes r w tokens waitedMs serve (r.pastWait waitedMs)
  have hset := (prepared_note r w tokens waitedMs serve (r.pastWait waitedMs)).untouched.settings
  generalize r.note w tokens waitedMs serve (r.pastWait waitedMs) = r' at h hwrites hset
  simp only [bind, Except.bind] at h
  split at h
  · exact absurd h (by simp)
  split at h
  · exact absurd h (by simp)
  case h_2 a hadmit =>
    obtain ⟨hbooks, hsettings⟩ := (tryAdmit_spec hadmit).books
    obtain ⟨_ | t, s'⟩ := a
    · dsimp only at h hbooks hsettings
      split_ifs at h
      · exact .of_rejectWaiter (hsettings.trans hset) (hbooks ▸ hwrites) (Except.ok.inj h)
      · obtain ⟨rfl, rfl⟩ := Prod.mk.inj (Except.ok.inj h)
        exact ⟨hsettings.trans hset, _, hwrites, hbooks⟩
    · exact .of_leaveWith (hsettings.trans hset) (hbooks ▸ hwrites) (Except.ok.inj h)

theorem step_attempted {r s : Router K n} {w tokens : ℕ} {exact : Bool} {waitedMs : K} {o : Outcome K n}
    (h : r.step w tokens exact waitedMs = .ok (o, s)) : Attempted r w (r.pastWait waitedMs) o s := by
  unfold Router.step at h
  split_ifs at h
  · exact stepBestEffort_attempted _ h
  · exact stepLegacy_attempted h

/-! ### What an attempt reads -/

theorem queueHead_enqueue (r : Router K n) (w : ℕ) (waitedMs : K) : ∃ v, (r.enqueue w waitedMs).queueHead = .ok v := by
  have hmem : w ∈ (r.enqueue w waitedMs).books.queue := by
    unfold enqueue
    split_ifs with hw
    · exact hw
    · exact List.mem_append_right _ List.mem_cons_self
  unfold queueHead
  cases hq : (r.enqueue w waitedMs).books.queue with
  | nil =>
    rw [hq] at hmem
    exact absurd hmem List.not_mem_nil
  | cons v rest => exact ⟨v, rfl⟩

omit [Scalar K] in
/-- An attempt at the head raises what the admission raises. -/
theorem atHead_error {r : Router K n} {v w : ℕ} {e : RouterError}
    {attempt : Except RouterError (Option (Ticket K n) × Router K n)} (hhead : r.queueHead = .ok v)
    (h : r.atHead w attempt = .error e) : attempt = .error e := by
  unfold atHead at h
  simp only [hhead, bind, Except.bind] at h
  split_ifs at h
  · cases attempt with
    | error e' => rw [Except.error.inj h]
    | ok a => exact absurd h (by simp [pure, Except.pure])
  · exact absurd h (by simp [pure, Except.pure])

theorem admitBaseline_error {r : Router K n} {tokens : ℕ} {exact : Bool} {waitedMs : K} {e : RouterError}
    (h : r.admitBaseline tokens exact waitedMs = .error e) : e = .value := by
  unfold admitBaseline at h
  dsimp only at h
  generalize usableGroups tokens _ r.inTurn r = u at h
  obtain ⟨_ | ⟨first, rest⟩, r'⟩ := u
  · exact absurd h (by simp [pure, Except.pure])
  · simp only [bind, Except.bind] at h
    split at h
    case h_1 e' hturn =>
      obtain rfl := Except.error.inj h
      unfold takeTurn drawTwo at hturn
      dsimp only at hturn
      split_ifs at hturn
      · exact (Except.error.inj hturn).symm
      · split at hturn
        · exact (Except.error.inj hturn).symm
        · exact absurd hturn (by simp)
    · exact absurd h (by simp [pure, Except.pure])

omit [Scalar K] in
/-- Every holder has the time its SLO is lost. -/
theorem expiry_ok {r : Router K n} {left : Finset ℕ} {late : ℕ → Prop} (h : r.books.Consistent left late) {w : ℕ}
    (hw : w ∈ r.books.holding) : ∃ t, r.expiry w = .ok t := by
  obtain ⟨t, ht⟩ := Option.isSome_iff_exists.mp (AList.lookup_isSome.mpr ((h.holders w).mp hw))
  exact ⟨t, by rw [expiry, ht]⟩

theorem holdingExpired_ok {r : Router K n} {left : Finset ℕ} {late : ℕ → Prop} (h : r.books.Consistent left late) :
    ∃ m, r.holdingExpired = .ok m := by
  obtain ⟨expiries, he, -⟩ := mapM_total fun w hw => expiry_ok h hw
  exact ⟨expiries.countP fun t => decide (t ≤ r.now), by rw [holdingExpired, he]; rfl⟩

/-- A late waiter under `serve` is among the holders. -/
theorem mem_holding_note (r : Router K n) (w tokens : ℕ) (waitedMs : K) {serve past : Bool}
    (h : (serve && past) = true) : w ∈ (r.note w tokens waitedMs serve past).books.holding := by
  unfold note deadlineMs
  dsimp only
  split_ifs with hhold hpast
  · exact List.mem_append_right _ List.mem_cons_self
  · simp only [Bool.and_eq_true] at h
    simp [h.2] at hpast
  · simpa [h] using hhold

theorem backfillHead_ok {r : Router K n} {left : Finset ℕ} {late : ℕ → Prop} (h : r.books.Consistent left late) {w : ℕ}
    {holder : Bool} (hw : holder = true → w ∈ r.books.holding) : ∃ b, r.backfillHead w holder = .ok b := by
  unfold backfillHead
  split_ifs with hidle
  · exact ⟨false, rfl⟩
  have hholder : holder = true := by
    by_contra hno
    simp [hno] at hidle
  split
  · cases hq : r.books.holding with
    | nil =>
      have hmem := hw hholder
      rw [hq] at hmem
      exact absurd hmem List.not_mem_nil
    | cons v rest => exact ⟨v == w, rfl⟩
  · obtain ⟨expiries, he, -⟩ := mapM_total (f := fun v => do return (v, ← r.expiry v)) fun v hv => by
      obtain ⟨t, ht⟩ := expiry_ok h hv
      exact ⟨(v, t), by rw [ht]; rfl⟩
    rw [he]
    exact ⟨_, rfl⟩

/-- The books an attempt looks into hold what it looks for: only a draw of too few pairs raises. -/
theorem step_error {r : Router K n} {left : Finset ℕ} {late : ℕ → Prop} (h : r.books.Consistent left late) {w : ℕ}
    (hleft : w ∉ left) {tokens : ℕ} {exact : Bool} {waitedMs : K} (hpast : late w ↔ r.pastWait waitedMs = true)
    {e : RouterError} (hstep : r.step w tokens exact waitedMs = .error e) : e = .value := by
  unfold Router.step at hstep
  split_ifs at hstep
  -- In best effort a waiter is at the head or has enqueued itself, so the head is there.
  · unfold stepBestEffort at hstep
    split_ifs at hstep
    obtain ⟨v, hhead⟩ := queueHead_enqueue r w waitedMs
    dsimp only at hstep
    split_ifs at hstep
    · exact admitBaseline_error (atHead_error hhead hstep)
    · obtain ⟨v', hhead'⟩ : ∃ v', ((r.enqueue w waitedMs).scanFor w tokens waitedMs).queueHead = .ok v' := by
        obtain ⟨_, books, _, -, -, hqueue, -, hscan⟩ := scanFor_spec (r.enqueue w waitedMs) w tokens waitedMs
        refine ⟨v, ?_⟩
        rw [← hhead, hscan]
        unfold queueHead
        rw [hqueue]
      obtain ⟨a, ha⟩ := tryAdmit_total ((r.enqueue w waitedMs).scanFor w tokens waitedMs) tokens exact waitedMs
        false false true
      rw [atHead_error hhead' hstep] at ha
      exact absurd ha (by simp)
  · unfold stepLegacy at hstep
    dsimp only at hstep
    generalize hserve : (r.settings.overload == .serve && !r.openAdmission) = serve at hstep
    have hnote := (note_writes r w tokens waitedMs serve (r.pastWait waitedMs)).consistent hleft hpast h
    have hholding : (serve && r.pastWait waitedMs) = true → _ := mem_holding_note r w tokens waitedMs
    obtain ⟨b, hb⟩ := backfillHead_ok hnote hholding
    obtain ⟨⟨_ | t, s⟩, ha⟩ := tryAdmit_total (r.note w tokens waitedMs serve (r.pastWait waitedMs)) tokens exact waitedMs
      (serve && r.pastWait waitedMs) b false
    · simp only [hb, ha, bind, Except.bind] at hstep
      split_ifs at hstep <;> exact absurd hstep (by simp [pure, Except.pure])
    · simp only [hb, ha, bind, Except.bind] at hstep
      exact absurd hstep (by simp [pure, Except.pure])

/-! ### Runs -/

/-- The waiters that left, after an answer to `w`. -/
def leftAfter (o : Outcome K n) (w : ℕ) (left : Finset ℕ) : Finset ℕ :=
  match o with
  | .wait => left
  | .ticket _ | .reject => insert w left

omit [Scalar K] in
theorem Attempted.consistent {r s : Router K n} {w : ℕ} {past : Bool} {o : Outcome K n} {left : Finset ℕ}
    {late : ℕ → Prop} (hs : Attempted r w past o s) (hleft : w ∉ left) (hpast : late w ↔ past = true)
    (h : r.books.Consistent left late) : s.books.Consistent (leftAfter o w left) late := by
  obtain ⟨-, books, hwrites, hbooks⟩ := hs
  have hnow := hwrites.consistent hleft hpast h
  rw [hbooks]
  cases o with
  | wait => exact hnow
  | ticket t => exact hnow.release w
  | reject => exact hnow.release w

/-- Runs of the waiters, with the wait of each at its last attempt and those that left: attempts of a waiter that has
    not left, with no shorter wait than before; cancellations; and whatever else the program does to the Router, which
    writes neither the six books nor the settings. An attempt that raises leaves through the `finally` of `admit`. -/
inductive WaiterRun (r₀ : Router K n) : (ℕ → WithBot K) → Finset ℕ → Router K n → Prop
  | start : WaiterRun r₀ (fun _ => ⊥) ∅ r₀
  | attempt {waited : ℕ → WithBot K} {left : Finset ℕ} {r s : Router K n} {o : Outcome K n} (w tokens : ℕ) (exact : Bool)
      (waitedMs : K) (run : WaiterRun r₀ waited left r) (live : w ∉ left) (later : waited w ≤ waitedMs)
      (answer : r.step w tokens exact waitedMs = .ok (o, s)) :
      WaiterRun r₀ (Function.update waited w waitedMs) (leftAfter o w left) s
  | raise {waited : ℕ → WithBot K} {left : Finset ℕ} {r s : Router K n} {e : RouterError} (w tokens : ℕ) (exact : Bool)
      (waitedMs : K) (run : WaiterRun r₀ waited left r) (answer : r.step w tokens exact waitedMs = .error e)
      (books : Same (r.books.release w) s.books) (settings : s.settings = r.settings) :
      WaiterRun r₀ waited (insert w left) s
  | cancel {waited : ℕ → WithBot K} {left : Finset ℕ} {r : Router K n} (w : ℕ) (run : WaiterRun r₀ waited left r) :
      WaiterRun r₀ waited (insert w left) (r.release w)
  | elsewhere {waited : ℕ → WithBot K} {left : Finset ℕ} {r s : Router K n} (run : WaiterRun r₀ waited left r)
      (books : Same r.books s.books) (settings : s.settings = r.settings) : WaiterRun r₀ waited left s

/-- The last attempt of `w` was past its wait budget. -/
def Late (r : Router K n) (waited : ℕ → WithBot K) (w : ℕ) : Prop :=
  ∃ ms : K, waited w = ms ∧ r.pastWait ms = true

theorem pastWait_mono {r : Router K n} {x y : K} (h : x ≤ y) (hx : r.pastWait x = true) : r.pastWait y = true := by
  simp only [pastWait, decide_eq_true_eq] at hx ⊢
  linarith

/-- With a longer wait the waiter is late if it was, and the others are as before. -/
theorem Late.update {r : Router K n} {waited : ℕ → WithBot K} {w v : ℕ} {waitedMs : K} (hlater : waited w ≤ waitedMs)
    (h : r.Late waited v) : r.Late (Function.update waited w waitedMs) v := by
  obtain ⟨ms, hms, hlate⟩ := h
  rcases Classical.em (v = w) with rfl | hne
  · rw [hms, WithBot.coe_le_coe] at hlater
    exact ⟨waitedMs, Function.update_self v _ _, pastWait_mono hlater hlate⟩
  · exact ⟨ms, by rw [Function.update_of_ne hne, hms], hlate⟩

theorem late_update_self {r : Router K n} {waited : ℕ → WithBot K} {w : ℕ} {waitedMs : K} :
    r.Late (Function.update waited w waitedMs) w ↔ r.pastWait waitedMs = true := by
  constructor
  · rintro ⟨ms, hms, hlate⟩
    rw [Function.update_self, WithBot.coe_inj] at hms
    exact hms ▸ hlate
  · exact fun h => ⟨waitedMs, Function.update_self w _ _, h⟩

theorem Late.congr {r s : Router K n} {waited : ℕ → WithBot K} {w : ℕ} (hs : s.settings = r.settings)
    (h : r.Late waited w) : s.Late waited w := by
  obtain ⟨ms, hms, hlate⟩ := h
  exact ⟨ms, hms, by rwa [pastWait, hs]⟩

omit [Scalar K] in
theorem consistent_of_without {b : WaiterBooks K} (h : ∀ w, b.Without w) (late : ℕ → Prop) : b.Consistent ∅ late := by
  have hqueue : b.queue = [] := List.eq_nil_iff_forall_not_mem.mpr fun w => (h w).queue
  have hholding : b.holding = [] := List.eq_nil_iff_forall_not_mem.mpr fun w => (h w).holding
  exact ⟨fun w => iff_of_false (h w).holding (h w).expires, fun w hw => absurd hw (h w).holding,
    hqueue ▸ List.nodup_nil, hholding ▸ List.nodup_nil, fun w => iff_of_false (h w).queue (h w).waitingSince,
    fun w _ => h w, fun w hw => absurd hw (h w).holding⟩

theorem WaiterRun.consistent {r₀ r : Router K n} {waited : ℕ → WithBot K} {left : Finset ℕ}
    (hempty : ∀ w, r₀.books.Without w) (hrun : WaiterRun r₀ waited left r) :
    r.books.Consistent left (r.Late waited) := by
  induction hrun with
  | start => exact consistent_of_without hempty _
  | attempt w tokens exact waitedMs _ live later answer ih =>
    have hattempted := step_attempted answer
    have hsettled := hattempted.consistent live late_update_self (ih.mono fun v => Late.update later)
    exact hsettled.mono fun v => Late.congr hattempted.settings
  | raise w _ _ _ _ _ books settings ih => exact ((ih.release w).same books).mono fun v => Late.congr settings
  | cancel w _ ih => exact ih.release w
  | elsewhere _ books settings ih => exact (ih.same books).mono fun v => Late.congr settings

/-- In every reachable state the books agree, those who left are in none of them, and what `step` and `state` look up
    there is found. -/
theorem waiters_consistent {r₀ r : Router K n} {waited : ℕ → WithBot K} {left : Finset ℕ}
    (hempty : ∀ w, r₀.books.Without w) (hrun : WaiterRun r₀ waited left r) :
    r.books.Consistent left (r.Late waited) ∧ (∃ m, r.holdingExpired = .ok m) ∧
      ∀ w ∉ left, ∀ (tokens : ℕ) (exact : Bool) (waitedMs : K) (e : RouterError), waited w ≤ waitedMs →
        r.step w tokens exact waitedMs = .error e → e ≠ .index ∧ e ≠ .key := by
  have h := hrun.consistent hempty
  refine ⟨h, holdingExpired_ok h, fun w live tokens exact waitedMs e later hstep => ?_⟩
  have hvalue := step_error (h.mono fun v => Late.update later) live late_update_self hstep
  rw [hvalue]
  exact ⟨by simp, by simp⟩

/-- The attempt ends without an answer. -/
def waits (r : Router K n) (w tokens : ℕ) (exact : Bool) (waitedMs : K) : Bool :=
  match r.step w tokens exact waitedMs with
  | .ok (.wait, _) => true
  | _ => false

theorem step_of_waits {r : Router K n} {w tokens : ℕ} {exact : Bool} {waitedMs : K}
    (h : r.waits w tokens exact waitedMs = true) :
    r.step w tokens exact waitedMs = .ok (.wait, r.after w tokens exact waitedMs) := by
  unfold waits at h
  unfold after
  split at h
  case h_1 s hstep => rw [hstep]
  case h_2 => exact Bool.noConfusion h

/-- One pair under `serve`, its table published. -/
def smallHolding : Router ℚ 1 := { smallServing 1 with settings := { (smallServing 1).settings with overload := .serve } }

/-- Its waiter at the first attempt, and past the wait budget. -/
def smallFresh : Router ℚ 1 := smallHolding.after 1 512 true 0

def smallLate : Router ℚ 1 := smallFresh.after 1 512 true 3000

/-- A waiter becomes a holder, then its client is gone. -/
theorem waiters_consistent_smallLate : smallLate.books.holding = [1] ∧ (smallLate.release 1).books.Without 1 ∧
    ∃ m, (smallLate.release 1).holdingExpired = .ok m := by
  have hempty : ∀ w, smallHolding.books.Without w := fun w =>
    ⟨List.not_mem_nil, AList.notMem_empty w, Finset.notMem_empty w, Finset.notMem_empty w, List.not_mem_nil,
      AList.notMem_empty w⟩
  have hfresh : smallHolding.step 1 512 true 0 = .ok (.wait, smallFresh) := step_of_waits (by decide +kernel)
  have hlate : smallFresh.step 1 512 true 3000 = .ok (.wait, smallLate) := step_of_waits (by decide +kernel)
  have hlonger : Function.update (fun _ : ℕ => (⊥ : WithBot ℚ)) 1 ((0 : ℚ) : WithBot ℚ) 1 ≤ ((3000 : ℚ) : WithBot ℚ) := by
    rw [Function.update_self]
    exact WithBot.coe_le_coe.mpr (by norm_num)
  have hrun := (WaiterRun.start.attempt 1 512 true 0 (by decide) bot_le hfresh).attempt 1 512 true 3000
    (by decide) hlonger hlate
  have hcancel := waiters_consistent hempty (hrun.cancel 1)
  exact ⟨by decide +kernel, hcancel.1.gone 1 (by decide), hcancel.2.1⟩

end Router
end CanaTune
