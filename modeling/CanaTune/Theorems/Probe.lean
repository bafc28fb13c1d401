import CanaTune.Controller.Probe
import CanaTune.Lib.Ledger
import CanaTune.Theorems.Stream

/-! Probe state accounting. Each request moves the counters of the probe at its own awaits and takes its share back when
    it is left; whatever the order of the awaits and however each one ends, the counters show the running requests. -/

namespace CanaTune
variable {K : Type} [Scalar K]

/-! ### What a request holds -/

namespace ProbePoint

/-- The request, once it is sent and until it is over. -/
def request? : ProbePoint K → Option (ProbeRequest K)
  | prefilling q => some q
  | opening q => some q
  | reading q => some q
  | closing q _ => some q
  | _ => none

/-- The request, while its call of P has not returned. -/
def atP? : ProbePoint K → Option (ProbeRequest K)
  | prefilling q => some q
  | _ => none

def awaits (a : ProbePoint K) : Bool := a.request?.any fun q => q.ttftMs.isNone
def decodes (a : ProbePoint K) : Bool := a.request?.any fun q => q.ttftMs.isSome
def travels (a : ProbePoint K) : Bool := a.awaits && a.atP?.isNone
def promptTokens (a : ProbePoint K) : ℤ := (a.request?.map fun q => q.promptTokens).getD 0

/-- The stage variable says where the request is, and a request that reads on has its first token once its timer has
    seen one. -/
def Sound : ProbePoint K → Prop
  | prefilling q => q.stage = .prefill ∧ q.ttftMs = none ∧ q.timer.tokenTimes = []
  | opening q => q.stage = .transfer ∧ q.ttftMs = none ∧ q.timer.tokenTimes = []
  | reading q => q.stage = (if q.ttftMs.isSome then .decode else .transfer) ∧ (q.ttftMs.isSome ↔ q.timer.tokenTimes ≠ [])
  | closing q _ => q.stage = if q.ttftMs.isSome then .decode else .transfer
  | _ => True

end ProbePoint

inductive ProbeCounter
  | nAwait
  | inflightTokens
  | decoding

def CanaryProbe.book (p : CanaryProbe) : ProbeCounter → ℤ
  | .nAwait => p.nAwait
  | .inflightTokens => p.inflightTokens
  | .decoding => p.decoding

/-- The share of a request in each counter. -/
def ProbePoint.share (a : ProbePoint K) : ProbeCounter → ℤ
  | .nAwait => if a.awaits then 1 else 0
  | .inflightTokens => if a.travels then a.promptTokens else 0
  | .decoding => if a.decodes then 1 else 0

omit [Scalar K] in
theorem ProbePoint.share_of_none {a : ProbePoint K} (h : a.request? = none) (c : ProbeCounter) : a.share c = 0 := by
  cases c <;> simp [share, awaits, decodes, travels, h]

/-! ### One segment of a request -/

/-- What a segment of a request does to the probe. -/
inductive ProbeTurn (p : CanaryProbe) (a : ProbePoint K) : CanaryProbe → ProbePoint K → Prop
  /-- It is not sent. -/
  | quiet {p' : CanaryProbe} {b : ProbePoint K} (before : a.request? = none) (after : b.request? = none)
      (book : p'.book = p.book) (atPrefill : p'.atPrefill = p.atPrefill) (ids : p'.ids = p.ids) : ProbeTurn p a p' b
  /-- It is sent, under a new id. -/
  | sent {p' : CanaryProbe} {q : ProbeRequest K} (before : a.request? = none) (sound : (ProbePoint.prefilling q).Sound)
      (id : q.probeId = p.ids + 1) (ids : p'.ids = p.ids + 1)
      (book : ∀ c, p'.book c = p.book c + (ProbePoint.prefilling q).share c)
      (atPrefill : p'.atPrefill = p.atPrefill.insert q.probeId q.promptTokens) : ProbeTurn p a p' (.prefilling q)
  /-- It goes on past P, or is over. -/
  | onward {p' : CanaryProbe} {b : ProbePoint K} {q : ProbeRequest K} (before : a.request? = some q) (sound : b.Sound)
      (past : b.atP? = none) (same : ∀ q', b.request? = some q' → q'.probeId = q.probeId) (ids : p'.ids = p.ids)
      (book : ∀ c, p'.book c = p.book c - a.share c + b.share c)
      (others : ∀ id, id ≠ q.probeId → p'.atPrefill.lookup id = p.atPrefill.lookup id)
      (own : p'.atPrefill.lookup q.probeId = none ∨ p'.atPrefill = p.atPrefill ∧ a.atP? = none) : ProbeTurn p a p' b

namespace CanaryProbe
variable {p p' : CanaryProbe} {a b : ProbePoint K} {q : ProbeRequest K}

omit [Scalar K] in
theorem turn_send (p : CanaryProbe) (model : Option String) (h : a.request? = none) (promptTokens : ℤ) (now : K) :
    ProbeTurn p a ({ p with model }.send promptTokens now).1 ({ p with model }.send promptTokens now).2 := by
  refine .sent h ⟨rfl, rfl, rfl⟩ rfl rfl (fun c => ?_) rfl
  cases c with
  | nAwait => rfl
  | inflightTokens => exact (add_zero _).symm
  | decoding => exact (add_zero _).symm

omit [Scalar K] in
theorem leave_eq (p : CanaryProbe) (q : ProbeRequest K) (r : Except Raised (Option K)) :
    (p.leave q r).1 = p.undo q ∧ (p.leave q r).2.request? = none := by
  unfold leave
  split <;> exact ⟨rfl, rfl⟩

omit [Scalar K] in
theorem sound_of_none (h : b.request? = none) : b.Sound := by
  cases b with
  | naming | returned | raised => trivial
  | prefilling | opening | reading | closing => cases h

omit [Scalar K] in
theorem atP_of_none (h : b.request? = none) : b.atP? = none := by
  cases b with
  | prefilling => cases h
  | _ => rfl

omit [Scalar K] in
theorem request_of_atP (h : a.atP? = some q) : a.request? = some q := by
  cases a with
  | prefilling => exact h
  | _ => cases h

omit [Scalar K] in
/-- Where a request is, by its stage variable and its first token. -/
theorem stage_cases (ha : a.Sound) (hq : a.request? = some q) :
    (a.atP? = some q ∧ q.stage = .prefill ∧ q.ttftMs = none) ∨
      (a.atP? = none ∧ q.stage = .transfer ∧ q.ttftMs = none) ∨
      (a.atP? = none ∧ q.stage = .decode ∧ ∃ ms, q.ttftMs = some ms) := by
  have past : a.atP? = none → q.stage = (if q.ttftMs.isSome then .decode else .transfer) →
      (a.atP? = none ∧ q.stage = .transfer ∧ q.ttftMs = none) ∨
        (a.atP? = none ∧ q.stage = .decode ∧ ∃ ms, q.ttftMs = some ms) := by
    intro hp hstage
    cases httft : q.ttftMs with
    | none =>
      rw [httft] at hstage
      exact .inl ⟨hp, hstage, rfl⟩
    | some ms =>
      rw [httft] at hstage
      exact .inr ⟨hp, hstage, ms, rfl⟩
  cases a with
  | prefilling q' =>
    cases hq
    exact .inl ⟨rfl, ha.1, ha.2.1⟩
  | opening q' =>
    cases hq
    exact .inr (.inl ⟨rfl, ha.1, ha.2.1⟩)
  | reading q' =>
    cases hq
    exact .inr (past rfl ha.1)
  | closing q' pending =>
    cases hq
    exact .inr (past rfl ha)
  | naming promptTokens => cases hq
  | returned outcome => cases hq
  | raised r => cases hq

omit [Scalar K] in
/-- What is undone is the request's share. -/
theorem book_undo (p : CanaryProbe) (ha : a.Sound) (hq : a.request? = some q) (c : ProbeCounter) :
    (p.undo q).book c = p.book c - a.share c := by
  rcases stage_cases ha hq with ⟨hp, hstage, httft⟩ | ⟨hp, hstage, httft⟩ | ⟨hp, hstage, ms, httft⟩ <;> cases c <;>
    simp [undo, book, ProbePoint.share, ProbePoint.awaits, ProbePoint.travels, ProbePoint.decodes,
      ProbePoint.promptTokens, hq, hp, hstage, httft]

omit [Scalar K] in
theorem lookup_undo_ne (p : CanaryProbe) (q : ProbeRequest K) {id : ℕ} (h : id ≠ q.probeId) :
    (p.undo q).atPrefill.lookup id = p.atPrefill.lookup id := by
  unfold undo
  split
  · rfl
  · exact AList.lookup_erase_ne h

omit [Scalar K] in
theorem lookup_undo (p : CanaryProbe) (ha : a.Sound) (hq : a.request? = some q) :
    (p.undo q).atPrefill.lookup q.probeId = none ∨ (p.undo q).atPrefill = p.atPrefill ∧ a.atP? = none := by
  unfold undo
  split
  case isTrue hstage =>
    refine .inr ⟨rfl, ?_⟩
    rcases stage_cases ha hq with ⟨-, hs, -⟩ | ⟨hp, -⟩ | ⟨hp, -⟩
    · rw [hs] at hstage
      cases hstage
    · exact hp
    · exact hp
  case isFalse => exact .inl (AList.lookup_erase _ _)

omit [Scalar K] in
/-- However a request is left, its shares leave the counters. -/
theorem turn_leave (p : CanaryProbe) (ha : a.Sound) (hq : a.request? = some q) (r : Except Raised (Option K)) :
    ProbeTurn p a (p.leave q r).1 (p.leave q r).2 := by
  obtain ⟨hp, hover⟩ := leave_eq p q r
  rw [hp]
  refine .onward hq (sound_of_none hover) (atP_of_none hover) (fun q' hq' => ?_) ?_ (fun c => ?_)
    (fun id hid => lookup_undo_ne p q hid) (lookup_undo p ha hq)
  · rw [hover] at hq'
    cases hq'
  · unfold undo
    split <;> rfl
  · rw [book_undo p ha hq, ProbePoint.share_of_none hover, add_zero]

omit [Scalar K] in
/-- A segment that only moves on in the stream. -/
theorem turn_stream {q' : ProbeRequest K} (hq : a.request? = some q) (hp : a.atP? = none) (hb : b.Sound)
    (hq' : b.request? = some q') (hpast : b.atP? = none) (id : q'.probeId = q.probeId)
    (tokens : q'.promptTokens = q.promptTokens) (first : q'.ttftMs.isSome = q.ttftMs.isSome) : ProbeTurn p a p b := by
  refine .onward hq hb hpast (fun q'' h => ?_) rfl (fun c => ?_) (fun _ _ => rfl) (.inr ⟨rfl, hp⟩)
  · rw [hq'] at h
    cases h
    exact id
  · have hnone : q'.ttftMs.isNone = q.ttftMs.isNone := by
      rw [← Option.not_isSome, ← Option.not_isSome, first]
    have hshare : b.share c = a.share c := by
      cases c <;> simp [ProbePoint.share, ProbePoint.awaits, ProbePoint.travels, ProbePoint.decodes,
        ProbePoint.promptTokens, hq, hq', hp, hpast, first, hnone, tokens]
    rw [hshare, sub_add_cancel]

/-- P has answered: the prompt goes from the one book to the other. -/
theorem turn_prefilled (p : CanaryProbe) (ha : (ProbePoint.prefilling q).Sound) (now : K) (status : ℤ)
    (body : Except PyError (Json K)) :
    ProbeTurn p (.prefilling q) (p.prefilled q now status body).1 (p.prefilled q now status body).2 := by
  obtain ⟨hstage, httft, htimes⟩ := ha
  unfold prefilled
  dsimp only
  set p₁ : CanaryProbe := { p with
    atPrefill := p.atPrefill.erase q.probeId
    inflightTokens := p.inflightTokens + q.promptTokens } with hp₁
  set q₁ : ProbeRequest K := { q with prefillMs := some ((now - q.sent) * 1000), stage := .transfer } with hq₁
  have hsound : (ProbePoint.opening q₁).Sound := ⟨rfl, httft, htimes⟩
  have hbook : ∀ c, p₁.book c = p.book c - (ProbePoint.prefilling q).share c + (ProbePoint.opening q₁).share c := by
    intro c
    cases c <;> simp [hp₁, hq₁, book, ProbePoint.share, ProbePoint.awaits, ProbePoint.travels, ProbePoint.decodes,
      ProbePoint.promptTokens, ProbePoint.request?, ProbePoint.atP?, httft]
  have hothers : ∀ id, id ≠ q.probeId → p₁.atPrefill.lookup id = p.atPrefill.lookup id :=
    fun id hid => AList.lookup_erase_ne hid
  have hown : p₁.atPrefill.lookup q.probeId = none := AList.lookup_erase _ _
  -- Left at once, it takes back what it has just booked.
  have hleave : ∀ r, ProbeTurn p (.prefilling q) (p₁.leave q₁ r).1 (p₁.leave q₁ r).2 := by
    intro r
    obtain ⟨hp, hover⟩ := leave_eq p₁ q₁ r
    rw [hp]
    refine .onward rfl (sound_of_none hover) (atP_of_none hover) (fun q' hq' => ?_) ?_ (fun c => ?_)
      (fun id hid => (lookup_undo_ne p₁ q₁ hid).trans (hothers id hid)) (.inl (AList.lookup_erase _ _))
    · rw [hover] at hq'
      cases hq'
    · rfl
    · rw [book_undo p₁ hsound rfl, hbook, ProbePoint.share_of_none hover]
      ring
  split
  · exact hleave _
  · split
    · exact hleave _
    · refine .onward rfl hsound rfl (fun q' hq' => ?_) rfl hbook hothers (.inl hown)
      cases hq'
      rfl

/-- A chunk: the first token moves the request from the waiting ones to the decoding ones. -/
theorem turn_read (p : CanaryProbe) (d : Decoder K) (ha : (ProbePoint.reading q).Sound) (clock : ℕ → K) (bytes : Bytes) :
    ProbeTurn p (.reading q) (p.read d q clock bytes).1 (p.read d q clock bytes).2 := by
  obtain ⟨hstage, hfirst⟩ := ha
  unfold read
  cases hfeed : q.timer.feed d clock bytes with
  | error e => exact turn_stream rfl rfl hstage rfl rfl rfl rfl rfl
  | ok fed =>
    obtain ⟨new, timer⟩ := fed
    have hlen := StreamTimer.feed_length hfeed
    dsimp only
    split
    case isTrue hnew =>
      obtain ⟨hpos, hnone⟩ := hnew
      have httft : q.ttftMs = none := Option.isNone_iff_eq_none.mp hnone
      have htimes : timer.tokenTimes ≠ [] := by
        rw [← List.length_pos_iff, hlen]
        omega
      refine .onward rfl ⟨rfl, ⟨fun _ => htimes, fun _ => rfl⟩⟩ rfl (fun q' hq' => ?_) rfl (fun c => ?_)
        (fun _ _ => rfl) (.inr ⟨rfl, rfl⟩)
      · cases hq'
        rfl
      · cases c <;> simp [book, ProbePoint.share, ProbePoint.awaits, ProbePoint.travels, ProbePoint.decodes,
          ProbePoint.promptTokens, ProbePoint.request?, ProbePoint.atP?, httft]
    -- A later token, or none: whether there is a first token does not change.
    case isFalse hold =>
      have htimes : timer.tokenTimes ≠ [] ↔ q.timer.tokenTimes ≠ [] := by
        rw [← List.length_pos_iff, ← List.length_pos_iff, hlen]
        by_cases hzero : new = 0
        · rw [hzero, add_zero]
        · have hsome : q.ttftMs.isSome := by
            rw [← Option.not_isNone, Bool.not_eq_true']
            exact Bool.eq_false_iff.mpr fun hnone => hold ⟨hzero, hnone⟩
          have hpos := List.length_pos_iff.mpr (hfirst.mp hsome)
          omega
      exact turn_stream rfl rfl ⟨hstage, hfirst.trans htimes.symm⟩ rfl rfl rfl rfl rfl

theorem turn_streamed (p : CanaryProbe) {pending : Option Raised} (ha : (ProbePoint.closing q pending).Sound) :
    ProbeTurn p (.closing q pending) (p.streamed q pending).1 (p.streamed q pending).2 := by
  unfold streamed
  split
  · exact turn_leave p ha rfl _
  · split
    · exact turn_leave p ha rfl _
    · exact turn_leave p ha rfl _

omit [Scalar K] in
/-- D's head: its status is looked at inside the response's block. -/
theorem turn_opening (p : CanaryProbe) (ha : (ProbePoint.opening q).Sound) (status : ℤ) (r : Raised) :
    ProbeTurn p (.opening q) p (if status = 200 then .reading q else .closing q (some r)) := by
  obtain ⟨hstage, httft, htimes⟩ := ha
  have hs : q.stage = if q.ttftMs.isSome then .decode else .transfer := by
    rw [httft]
    exact hstage
  split
  · refine turn_stream rfl rfl ⟨hs, ?_⟩ rfl rfl rfl rfl rfl
    rw [httft, htimes]
    simp
  · exact turn_stream rfl rfl hs rfl rfl rfl rfl rfl

/-- Every await of a request, and every way it ends. -/
theorem turn_resume {d : Decoder K} {now : K} {answer : ProbeAnswer K} {r : CanaryProbe × ProbePoint K} (ha : a.Sound)
    (h : p.resume d now a answer = some r) : ProbeTurn p a r.1 r.2 := by
  unfold resume at h
  split at h
  case h_1 n model =>
    obtain rfl := Option.some.inj h
    exact turn_send p (some model) rfl n now
  case h_2 n raised =>
    obtain rfl := Option.some.inj h
    exact .quiet rfl rfl rfl rfl rfl
  case h_3 q status body =>
    obtain rfl := Option.some.inj h
    exact turn_prefilled p ha now status body
  case h_4 q raised =>
    obtain rfl := Option.some.inj h
    exact turn_leave p ha rfl _
  case h_5 q status =>
    obtain rfl := Option.some.inj h
    exact turn_opening p ha status _
  case h_6 q raised =>
    obtain rfl := Option.some.inj h
    exact turn_leave p ha rfl _
  case h_7 q clock bytes =>
    obtain rfl := Option.some.inj h
    exact turn_read p d ha clock bytes
  case h_8 q =>
    obtain rfl := Option.some.inj h
    exact turn_stream rfl rfl ha.1 rfl rfl rfl rfl rfl
  case h_9 q raised =>
    obtain rfl := Option.some.inj h
    exact turn_stream rfl rfl ha.1 rfl rfl rfl rfl rfl
  case h_10 q pending =>
    obtain rfl := Option.some.inj h
    exact turn_streamed p ha
  case h_11 q pending raised =>
    obtain rfl := Option.some.inj h
    exact turn_leave p ha rfl _
  -- No other answer fits the point.
  case h_12 => cases h

omit [Scalar K] in
/-- A new request is one that waits for the model's name and goes on. -/
theorem turn_request (p : CanaryProbe) (promptTokens : ℤ) (now : K) :
    ProbeTurn p (.naming promptTokens) (p.request promptTokens now).1 (p.request promptTokens now).2 := by
  unfold request
  split
  · exact .quiet rfl rfl rfl rfl rfl
  · split
    · exact .quiet rfl rfl rfl rfl rfl
    · exact turn_send p p.model rfl promptTokens now

end CanaryProbe

/-! ### The pool -/

/-- The id under which a request is counted. -/
def ProbePoint.id? (a : ProbePoint K) : Option ℕ := a.request?.map fun q => q.probeId

namespace ProbePool
variable {s t : ProbePool K} {a b : ProbePoint K} {p : CanaryProbe} {i : ℕ}

def id? (s : ProbePool K) (i : ℕ) : Option ℕ := s.requests[i]?.bind fun a => a.id?

def atP? (s : ProbePool K) (i : ℕ) : Option (ProbeRequest K) := s.requests[i]?.bind fun a => a.atP?

/-- The books balance, and every request that has been sent has an id of its own. -/
structure Booked (s : ProbePool K) : Prop where
  balanced : Ledger.Balanced ProbePoint.share s.requests s.probe.book
  sound : ∀ a ∈ s.requests, a.Sound
  ids : ∀ {i id}, s.id? i = some id → id ≤ s.probe.ids
  distinct : ∀ {i j id}, s.id? i = some id → s.id? j = some id → i = j
  atPrefill : ∀ {id n}, s.probe.atPrefill.lookup id = some n ↔ ∃ i q, s.atP? i = some q ∧ q.probeId = id ∧
    q.promptTokens = n

omit [Scalar K] in
theorem id_of_atP {q : ProbeRequest K} (h : s.atP? i = some q) : s.id? i = some q.probeId := by
  obtain ⟨a, ha, hq⟩ := Option.bind_eq_some_iff.mp h
  exact Option.bind_eq_some_iff.mpr ⟨a, ha, Option.map_eq_some_iff.mpr ⟨q, CanaryProbe.request_of_atP hq, rfl⟩⟩

/-- One request goes on. -/
def put (s : ProbePool K) (i : ℕ) (p : CanaryProbe) (b : ProbePoint K) : ProbePool K := ⟨p, s.requests.set i b⟩

omit [Scalar K] in
theorem getElem?_put (ha : s.requests[i]? = some a) (j : ℕ) :
    (s.put i p b).requests[j]? = if j = i then some b else s.requests[j]? := by
  obtain ⟨hi, -⟩ := List.getElem?_eq_some_iff.mp ha
  rw [put, List.getElem?_set]
  by_cases hj : i = j
  · subst hj
    rw [if_pos rfl, if_pos hi, if_pos rfl]
  · rw [if_neg hj, if_neg (Ne.symm hj)]

omit [Scalar K] in
theorem id?_put (ha : s.requests[i]? = some a) (j : ℕ) : (s.put i p b).id? j = if j = i then b.id? else s.id? j := by
  rw [id?, getElem?_put ha]
  split <;> rfl

omit [Scalar K] in
theorem atP?_put (ha : s.requests[i]? = some a) (j : ℕ) : (s.put i p b).atP? j = if j = i then b.atP? else s.atP? j := by
  rw [atP?, getElem?_put ha]
  split <;> rfl

omit [Scalar K] in
theorem Booked.quiet (h : s.Booked) (ha : s.requests[i]? = some a) (before : a.request? = none) (after : b.request? = none)
    (book : p.book = s.probe.book) (atPrefill : p.atPrefill = s.probe.atPrefill) (ids : p.ids = s.probe.ids) :
    (s.put i p b).Booked := by
  have hmem : ∀ x ∈ (s.put i p b).requests, x ∈ s.requests ∨ x = b := fun x hx => List.mem_or_eq_of_mem_set hx
  have hid : s.id? i = a.id? := by rw [id?, ha, Option.bind_some]
  have hatP : s.atP? i = a.atP? := by rw [atP?, ha, Option.bind_some]
  have hsame : ∀ j, (s.put i p b).id? j = s.id? j := by
    intro j
    rw [id?_put ha]
    split
    case isTrue hj => rw [hj, hid, ProbePoint.id?, ProbePoint.id?, before, after]
    case isFalse => rfl
  have hsameP : ∀ j, (s.put i p b).atP? j = s.atP? j := by
    intro j
    rw [atP?_put ha]
    split
    case isTrue hj => rw [hj, hatP, CanaryProbe.atP_of_none before, CanaryProbe.atP_of_none after]
    case isFalse => rfl
  refine ⟨h.balanced.replace ha fun c => ?_, fun x hx => ?_, fun hj => ?_, fun hj hk => ?_, ?_⟩
  · rw [ProbePoint.share_of_none before, ProbePoint.share_of_none after, sub_zero, add_zero, ← book]
    rfl
  · rcases hmem x hx with hx | rfl
    · exact h.sound x hx
    · exact CanaryProbe.sound_of_none after
  · rw [hsame] at hj
    exact (h.ids hj).trans ids.ge
  · rw [hsame] at hj hk
    exact h.distinct hj hk
  · intro id n
    simp only [hsameP]
    rw [← h.atPrefill, ← atPrefill]
    rfl

omit [Scalar K] in
theorem Booked.sent {q : ProbeRequest K} (h : s.Booked) (ha : s.requests[i]? = some a) (before : a.request? = none)
    (sound : (ProbePoint.prefilling q).Sound) (id : q.probeId = s.probe.ids + 1) (ids : p.ids = s.probe.ids + 1)
    (book : ∀ c, p.book c = s.probe.book c + (ProbePoint.prefilling q).share c)
    (atPrefill : p.atPrefill = s.probe.atPrefill.insert q.probeId q.promptTokens) :
    (s.put i p (.prefilling q)).Booked := by
  have hmem : ∀ x ∈ (s.put i p (.prefilling q)).requests, x ∈ s.requests ∨ x = .prefilling q :=
    fun x hx => List.mem_or_eq_of_mem_set hx
  have hid : s.id? i = a.id? := by rw [id?, ha, Option.bind_some]
  have hnone : s.id? i = none := by rw [hid, ProbePoint.id?, before, Option.map_none]
  have hnew : (s.put i p (.prefilling q)).id? i = some (s.probe.ids + 1) := by
    rw [id?_put ha, if_pos rfl, ← id]
    rfl
  have hold : ∀ {j id}, j ≠ i → (s.put i p (.prefilling q)).id? j = some id → s.id? j = some id := by
    intro j id hne hj
    rwa [id?_put ha, if_neg hne] at hj
  refine ⟨h.balanced.replace ha fun c => ?_, fun x hx => ?_, fun {j _} hj => ?_, fun {j k _} hj hk => ?_, ?_⟩
  · rw [ProbePoint.share_of_none before, sub_zero, ← book]
    rfl
  · rcases hmem x hx with hx | rfl
    · exact h.sound x hx
    · exact sound
  · by_cases hji : j = i
    · rw [hji, hnew] at hj
      exact (Option.some.inj hj).ge.trans ids.ge
    · exact (h.ids (hold hji hj)).trans (by rw [put, ids]; omega)
  · by_cases hji : j = i
    · by_cases hki : k = i
      · rw [hji, hki]
      · rw [hji, hnew] at hj
        have hle := h.ids (hold hki hk)
        have heq := Option.some.inj hj
        omega
    · by_cases hki : k = i
      · rw [hki, hnew] at hk
        have hle := h.ids (hold hji hj)
        have heq := Option.some.inj hk
        omega
      · exact h.distinct (hold hji hj) (hold hki hk)
  -- At P the new id is the one more; ids given out before are smaller, so no other request holds it.
  · intro id' n
    have hlookup : (s.put i p (.prefilling q)).probe.atPrefill = s.probe.atPrefill.insert q.probeId q.promptTokens :=
      atPrefill
    rw [hlookup]
    by_cases heq : id' = q.probeId
    · rw [heq, AList.lookup_insert]
      constructor
      · intro hn
        exact ⟨i, q, by rw [atP?_put ha, if_pos rfl]; rfl, rfl, Option.some.inj hn⟩
      · rintro ⟨j, q', hj, hq', rfl⟩
        by_cases hji : j = i
        · rw [hji, atP?_put ha, if_pos rfl] at hj
          cases hj
          rfl
        · rw [atP?_put ha, if_neg hji] at hj
          have hle := h.ids (id_of_atP hj)
          omega
    · rw [AList.lookup_insert_ne heq, h.atPrefill]
      constructor
      · rintro ⟨j, q', hj, hq', hn⟩
        refine ⟨j, q', ?_, hq', hn⟩
        rw [atP?_put ha, if_neg]
        · exact hj
        · rintro rfl
          rw [id_of_atP hj] at hnone
          cases hnone
      · rintro ⟨j, q', hj, hq', hn⟩
        refine ⟨j, q', ?_, hq', hn⟩
        by_cases hji : j = i
        · rw [hji, atP?_put ha, if_pos rfl] at hj
          cases hj
          exact absurd hq'.symm heq
        · rwa [atP?_put ha, if_neg hji] at hj

omit [Scalar K] in
theorem Booked.onward {q : ProbeRequest K} (h : s.Booked) (ha : s.requests[i]? = some a) (before : a.request? = some q)
    (sound : b.Sound) (past : b.atP? = none) (same : ∀ q', b.request? = some q' → q'.probeId = q.probeId)
    (ids : p.ids = s.probe.ids) (book : ∀ c, p.book c = s.probe.book c - a.share c + b.share c)
    (others : ∀ id, id ≠ q.probeId → p.atPrefill.lookup id = s.probe.atPrefill.lookup id)
    (own : p.atPrefill.lookup q.probeId = none ∨ p.atPrefill = s.probe.atPrefill ∧ a.atP? = none) :
    (s.put i p b).Booked := by
  have hmem : ∀ x ∈ (s.put i p b).requests, x ∈ s.requests ∨ x = b := fun x hx => List.mem_or_eq_of_mem_set hx
  have hid : s.id? i = a.id? := by rw [id?, ha, Option.bind_some]
  have hatP : s.atP? i = a.atP? := by rw [atP?, ha, Option.bind_some]
  have hown : s.id? i = some q.probeId := by rw [hid, ProbePoint.id?, before, Option.map_some]
  have hold : ∀ {j id}, (s.put i p b).id? j = some id → s.id? j = some id := by
    intro j id hj
    rw [id?_put ha] at hj
    split at hj
    case isTrue hji =>
      obtain ⟨q', hq', rfl⟩ := Option.map_eq_some_iff.mp hj
      rw [hji, hown, same q' hq']
    case isFalse => exact hj
  -- Whoever is at P after the step was there before, and is not this request.
  have holdP : ∀ {j q'}, (s.put i p b).atP? j = some q' → j ≠ i ∧ s.atP? j = some q' := by
    intro j q' hj
    rw [atP?_put ha] at hj
    split at hj
    case isTrue => rw [past] at hj; cases hj
    case isFalse hji => exact ⟨hji, hj⟩
  refine ⟨h.balanced.replace ha fun c => ?_, fun x hx => ?_, fun hj => (h.ids (hold hj)).trans ids.ge,
    fun hj hk => h.distinct (hold hj) (hold hk), ?_⟩
  · rw [← book]
    rfl
  · rcases hmem x hx with hx | rfl
    · exact h.sound x hx
    · exact sound
  · intro id n
    show p.atPrefill.lookup id = some n ↔ _
    by_cases heq : id = q.probeId
    · -- Nobody holds the id of this request at P any more.
      have hleft : p.atPrefill.lookup id ≠ some n := by
        rw [heq]
        rcases own with hnone | ⟨hsame, hpast⟩
        · rw [hnone]
          exact (Option.some_ne_none n).symm
        · rw [hsame]
          intro hn
          obtain ⟨j, q', hj, hq', -⟩ := h.atPrefill.mp hn
          have hji := h.distinct (hq' ▸ id_of_atP hj) hown
          rw [hji, hatP, hpast] at hj
          cases hj
      refine iff_of_false hleft ?_
      rintro ⟨j, q', hj, hq', -⟩
      obtain ⟨hji, hj⟩ := holdP hj
      exact hji (h.distinct (hq' ▸ id_of_atP hj) (heq ▸ hown))
    · rw [others id heq, h.atPrefill]
      constructor
      · rintro ⟨j, q', hj, hq', hn⟩
        refine ⟨j, q', ?_, hq', hn⟩
        rw [atP?_put ha, if_neg]
        · exact hj
        · rintro rfl
          rw [id_of_atP hj] at hown
          exact heq (hq' ▸ Option.some.inj hown)
      · rintro ⟨j, q', hj, hq', hn⟩
        exact ⟨j, q', (holdP hj).2, hq', hn⟩

omit [Scalar K] in
/-- A segment of one request keeps the books. -/
theorem Booked.turn (h : s.Booked) (ha : s.requests[i]? = some a) (hturn : ProbeTurn s.probe a p b) :
    (s.put i p b).Booked := by
  cases hturn with
  | quiet before after book atPrefill ids => exact h.quiet ha before after book atPrefill ids
  | sent before sound id ids book atPrefill => exact h.sent ha before sound id ids book atPrefill
  | onward before sound past same ids book others own => exact h.onward ha before sound past same ids book others own

omit [Scalar K] in
/-- A request that is not sent yet holds nothing. -/
theorem Booked.append (h : s.Booked) (n : ℤ) : Booked ⟨s.probe, s.requests ++ [.naming n]⟩ := by
  have hget : ∀ {β : Type} (f : ProbePoint K → Option β) (j : ℕ), f (.naming n) = none →
      ((s.requests ++ [.naming n])[j]?.bind f) = s.requests[j]?.bind f := by
    intro β f j hf
    rcases Nat.lt_or_ge j s.requests.length with hj | hj
    · rw [List.getElem?_append_left hj]
    · rw [List.getElem?_append_right hj, List.getElem?_eq_none hj]
      cases hk : j - s.requests.length with
      | zero => exact hf
      | succ k => rfl
  have hid : ∀ j, id? ⟨s.probe, s.requests ++ [.naming n]⟩ j = s.id? j := fun j => hget _ j rfl
  have hatP : ∀ j, atP? ⟨s.probe, s.requests ++ [.naming n]⟩ j = s.atP? j := fun j => hget _ j rfl
  refine ⟨h.balanced.append fun c => ?_, fun x hx => ?_, fun hj => ?_, fun hj hk => ?_, ?_⟩
  · rw [ProbePoint.share_of_none rfl, add_zero]
  · rcases List.mem_append.mp hx with hx | hx
    · exact h.sound x hx
    · rw [List.mem_singleton.mp hx]
      trivial
  · rw [hid] at hj
    exact h.ids hj
  · rw [hid] at hj hk
    exact h.distinct hj hk
  · intro id m
    simp only [hatP]
    exact h.atPrefill

theorem Booked.step {d : Decoder K} {e : ProbeEvent K} (h : s.Booked) (hs : s.step d e = some t) : t.Booked := by
  cases e with
  | request n now =>
    have ht : (⟨(s.probe.request n now).1, s.requests ++ [(s.probe.request n now).2]⟩ : ProbePool K) = t :=
      Option.some.inj hs
    have hlast : (s.requests ++ [.naming n])[s.requests.length]? = some (.naming n) := by simp
    have hput := (h.append n).turn hlast (CanaryProbe.turn_request s.probe n now)
    rw [put, List.set_append_right _ _ le_rfl, Nat.sub_self] at hput
    exact ht ▸ hput
  | resume i now answer =>
    obtain ⟨a, ha, hs⟩ := Option.bind_eq_some_iff.mp hs
    obtain ⟨⟨p, b⟩, hr, hs⟩ := Option.bind_eq_some_iff.mp hs
    obtain rfl := Option.some.inj hs
    exact h.turn ha (CanaryProbe.turn_resume (h.sound a (List.mem_of_getElem? ha)) hr)

theorem Booked.run {d : Decoder K} {es : List (ProbeEvent K)} (h : s.Booked) (hs : s.run d es = some t) : t.Booked := by
  induction es generalizing s with
  | nil =>
    obtain rfl := Option.some.inj hs
    exact h
  | cons e es ih =>
    obtain ⟨u, hu, hs⟩ := Option.bind_eq_some_iff.mp hs
    exact ih (h.step hu) hs

/-! ### What the counters show -/

/-- The (probe id, prompt tokens) pairs of the requests whose call of P has not returned. -/
def prompts (s : ProbePool K) : List (ℕ × ℤ) := (s.requests.filterMap (·.atP?)).map fun q => (q.probeId, q.promptTokens)

/-- The counters of the probe show its running requests; a request has its first token when `ttft_ms` is set, and one
    that reads on has set it once its timer has seen a token. -/
structure Conserved (s : ProbePool K) : Prop where
  nAwait : s.probe.nAwait = s.requests.countP (·.awaits)
  atPrefill : s.probe.atPrefill.items.Perm s.prompts
  inflightTokens : s.probe.inflightTokens = ((s.requests.filter (·.travels)).map (·.promptTokens)).sum
  decoding : s.probe.decoding = s.requests.countP (·.decodes)
  firstToken : ∀ q, .reading q ∈ s.requests → (q.ttftMs.isSome ↔ q.timer.tokenTimes ≠ [])

/-- All four counters are zero or empty. -/
structure Clear (p : CanaryProbe) : Prop where
  nAwait : p.nAwait = 0
  atPrefill : p.atPrefill.items = []
  inflightTokens : p.inflightTokens = 0
  decoding : p.decoding = 0

omit [Scalar K] in
theorem mem_prompts {e : ℕ × ℤ} : e ∈ s.prompts ↔ ∃ i q, s.atP? i = some q ∧ q.probeId = e.1 ∧ q.promptTokens = e.2 := by
  obtain ⟨id, n⟩ := e
  constructor
  · intro h
    obtain ⟨q, hq, he⟩ := List.mem_map.mp h
    obtain ⟨a, ha, haq⟩ := List.mem_filterMap.mp hq
    obtain ⟨i, hi⟩ := List.mem_iff_getElem?.mp ha
    obtain ⟨hid, hn⟩ := Prod.mk.inj he
    exact ⟨i, q, Option.bind_eq_some_iff.mpr ⟨a, hi, haq⟩, hid, hn⟩
  · rintro ⟨i, q, hq, hid, hn⟩
    obtain ⟨a, hi, haq⟩ := Option.bind_eq_some_iff.mp hq
    exact List.mem_map.mpr ⟨q, List.mem_filterMap.mpr ⟨a, List.mem_of_getElem? hi, haq⟩, Prod.ext hid hn⟩

omit [Scalar K] in
/-- No two requests at P have one id. -/
theorem Booked.nodup_prompts (h : s.Booked) : s.prompts.Nodup := by
  refine List.Nodup.of_map (fun e => e.1) ?_
  rw [prompts, List.map_map, List.map_filterMap, List.nodup_iff_pairwise_ne, List.pairwise_filterMap,
    List.pairwise_iff_getElem]
  intro i j hi hj hij x hx y hy hxy
  obtain ⟨q, hq, rfl⟩ := Option.map_eq_some_iff.mp hx
  obtain ⟨q', hq', rfl⟩ := Option.map_eq_some_iff.mp hy
  have hid : s.id? i = some q.probeId := id_of_atP (Option.bind_eq_some_iff.mpr ⟨_, List.getElem?_eq_getElem hi, hq⟩)
  have hid' : s.id? j = some q'.probeId := id_of_atP (Option.bind_eq_some_iff.mpr ⟨_, List.getElem?_eq_getElem hj, hq'⟩)
  have heq : i = j := h.distinct hid (hid'.trans (congrArg some hxy.symm))
  omega

omit [Scalar K] in
theorem Booked.conserved (h : s.Booked) : s.Conserved where
  nAwait := (h.balanced .nAwait).trans
    (Ledger.held_count (fun (a : ProbePoint K) (_ : ProbeCounter) => a.awaits) s.requests .nAwait)
  atPrefill := by
    refine (List.perm_ext_iff_of_nodup (.of_map (·.1) (Dict.nodup_items _)) h.nodup_prompts).mpr fun e => ?_
    obtain ⟨id, n⟩ := e
    rw [Dict.mem_items, h.atPrefill, mem_prompts]
  inflightTokens := (h.balanced .inflightTokens).trans
    (Ledger.held_ite (fun (a : ProbePoint K) (_ : ProbeCounter) => a.travels) (·.promptTokens) s.requests .inflightTokens)
  decoding := (h.balanced .decoding).trans
    (Ledger.held_count (fun (a : ProbePoint K) (_ : ProbeCounter) => a.decodes) s.requests .decoding)
  firstToken q hq := (h.sound _ hq).2

omit [Scalar K] in
/-- When no request runs, nothing is left in the probe. -/
theorem Conserved.clear (h : s.Conserved) (hidle : ∀ a ∈ s.requests, a.request? = none) : Clear s.probe where
  nAwait := by
    rw [h.nAwait, List.countP_eq_zero.mpr fun a ha => ?_, Nat.cast_zero]
    rw [ProbePoint.awaits, hidle a ha]
    exact Bool.false_ne_true
  atPrefill := by
    have hnil : s.prompts = [] := by
      rw [prompts, List.filterMap_eq_nil_iff.mpr fun a ha => CanaryProbe.atP_of_none (hidle a ha), List.map_nil]
    exact List.perm_nil.mp (hnil ▸ h.atPrefill)
  inflightTokens := by
    rw [h.inflightTokens, List.filter_eq_nil_iff.mpr fun a ha => ?_, List.map_nil, List.sum_nil]
    rw [ProbePoint.travels, ProbePoint.awaits, hidle a ha]
    exact Bool.false_ne_true
  decoding := by
    rw [h.decoding, List.countP_eq_zero.mpr fun a ha => ?_, Nat.cast_zero]
    rw [ProbePoint.decodes, hidle a ha]
    exact Bool.false_ne_true

/-- A probe without requests. -/
def fresh (connector : Connector) (vocabLow vocabHigh : ℤ) : ProbePool K := ⟨.fresh connector vocabLow vocabHigh, []⟩

omit [Scalar K] in
theorem booked_fresh (connector : Connector) (vocabLow vocabHigh : ℤ) :
    (fresh connector vocabLow vocabHigh : ProbePool K).Booked := by
  refine ⟨.nil fun c => by cases c <;> rfl, fun a ha => absurd ha List.not_mem_nil, ?_, ?_, ?_⟩
  · intro i id h
    cases h
  · intro i j id h
    cases h
  · intro id n
    constructor
    · intro h
      cases h
    · rintro ⟨i, q, hq, -⟩
      cases hq

/-- In every reachable state the counters show exactly the running requests, and with none of them sent they are all
    clear. -/
theorem accounting_conserved (d : Decoder K) (connector : Connector) (vocabLow vocabHigh : ℤ) (es : List (ProbeEvent K))
    (hrun : (fresh connector vocabLow vocabHigh).run d es = some s) :
    s.Conserved ∧ ((∀ a ∈ s.requests, a.request? = none) → Clear s.probe) := by
  have h := ((booked_fresh connector vocabLow vocabHigh).run hrun).conserved
  exact ⟨h, h.clear⟩

/-- P's answer that hands the KV over. -/
def smallAnswer : Json ℚ := .obj [("kv_transfer_params", .obj [("do_remote_prefill", .bool true)])]

/-- Three requests: one is decoding, one lost its P, one is cancelled while its KV travels. -/
def smallEvents : List (ProbeEvent ℚ) :=
  [.request 5 0, .request 7 0, .resume 0 1 (.name "m"), .resume 1 1 (.name "m"), .request 9 1,
    .resume 0 2 (.prefill 200 (.ok smallAnswer)), .resume 1 2 (.prefill 500 (.ok smallAnswer)),
    .resume 2 3 (.prefill 200 (.ok smallAnswer)), .resume 0 3 (.head 200),
    .resume 0 4 (.chunk (fun _ => 4) (dataPrefix ++ smallPayload ++ lflf)), .resume 2 5 (.raised .cancelled)]

/-- What those events leave. -/
theorem accounting_conserved_small : ∃ s : ProbePool ℚ, (fresh .nixl 0 10).run smallDecoder smallEvents = some s ∧
    s.Conserved ∧ s.probe.decoding = 1 ∧ s.probe.nAwait = 0 ∧ s.probe.inflightTokens = 0 := by
  have hsome : (((fresh .nixl 0 10).run smallDecoder smallEvents).map fun s : ProbePool ℚ =>
      (s.probe.decoding, s.probe.nAwait, s.probe.inflightTokens)) = some (1, 0, 0) := by decide +kernel
  obtain ⟨s, hs, h⟩ := Option.map_eq_some_iff.mp hsome
  obtain ⟨hd, hn, hi⟩ := Prod.mk.inj h |>.imp_right Prod.mk.inj
  exact ⟨s, hs, (accounting_conserved smallDecoder .nixl 0 10 smallEvents hs).1, hd, hn, hi⟩

end ProbePool
end CanaTune
