import CanaTune.Proxy.Handle
import CanaTune.Theorems.Epochs

/-! An admitted request releases its reservation once. Every stage either still holds the reservation or has given it
    back; it is lost where the stream is never begun and where closing the client fails before the request is left. -/

namespace CanaTune
variable {K : Type} [Scalar K] {n : ℕ}

/-! ### The others -/

/-- The ticket an act is about. -/
def Outside.ticket? : Outside K n → Option ℕ
  | .prefillDone ticket | .firstToken ticket | .tokenProgress ticket _ | .finish ticket _ _ _ _ => some ticket
  | _ => none

namespace Router

theorem Operated.others {r s : Router K n} {i j : ℕ} (h : Operated r s i) (hij : i ≠ j) :
    s.tickets[j]? = r.tickets[j]? := by
  rcases h with rfl | ⟨t, u, hm⟩
  · rfl
  · rw [hm.tickets, List.getElem?_set_ne hij]

theorem others_tokenProgress (r : Router K n) {i j : ℕ} (hij : j ≠ i) (tpotMs : Option K) :
    (r.tokenProgress j tpotMs).tickets[i]? = r.tickets[i]? := by
  unfold tokenProgress
  split
  · rfl
  · dsimp only
    split
    · rw [(untouched_observeLatency _ _ _ _).tickets, setTicket_tickets, List.getElem?_set_ne hij]
    · rw [(untouched_observeLatency _ _ _ _).tickets]
      split <;> exact List.getElem?_set_ne hij

/-- The acts of others leave a ticket as it is. -/
theorem others_acts {r s : Router K n} {e : Outside K n} {i : ℕ} {t : Ticket K n} (h : routerActs r e = some s)
    (he : e.ticket? ≠ some i) (ht : r.tickets[i]? = some t) : s.tickets[i]? = some t := by
  rw [← ht]
  cases acted h with
  | clock => rfl
  | apart _ _ tickets => rw [tickets]
  | issued hi => rw [hi.tickets, List.getElem?_append_left (List.getElem?_eq_some_iff.mp ht).1]
  | operated ho about =>
    refine ho.others fun hij => he ?_
    rcases about with rfl | rfl | ⟨_, _, _, _, rfl⟩ <;> exact congrArg some hij
  | progress j tpotMs => exact others_tokenProgress r (fun hij => he (congrArg some hij)) tpotMs

end Router

namespace Handling
variable {q : ProxyRequest K} {h h' : Handling K n} {P : Handling K n → Prop}

/-- The Router goes on while the request awaits; its ticket is nobody else's. -/
def Meanwhile (q : ProxyRequest K) (h h' : Handling K n) : Prop :=
  ∃ r, r.tickets[q.ticket]? = h.router.tickets[q.ticket]? ∧ h' = { h with router := r }

/-- What others do to the Router meanwhile. -/
theorem meanwhile_acts {r : Router K n} {e : Outside K n} (ha : routerActs h.router e = some r)
    (he : e.ticket? ≠ some q.ticket) (hr : h.reserved q.ticket = true) : Meanwhile q h { h with router := r } := by
  obtain ⟨t, ht, -⟩ := (Option.any_eq_true _ _).mp hr
  exact ⟨r, (Router.others_acts ha he ht).trans ht.symm, rfl⟩

end Handling

/-- A request in the proxy: any answer may come, or any exception. -/
def served (q : ProxyRequest K) : Co.Conduct (Handling K n) Await (Await.Ans K) Broken where
  rely := Handling.Meanwhile q
  guar _ _ := True
  answers _ _ _ := True
  resume := id

namespace Handling
variable {q : ProxyRequest K} {h h' : Handling K n}

/-! ### The reservation -/

/-- The reservation is held. -/
structure Waiting (q : ProxyRequest K) (h : Handling K n) : Prop where
  finished : h.finished = false
  effects : h.effects = []
  lost : h.lost = false
  reserved : h.reserved q.ticket = true

/-- It was given back once. -/
structure Released (h : Handling K n) : Prop where
  once : ∃ status, h.effects = [status]
  lost : h.lost = false

/-- It is left behind. -/
structure Leaked (h : Handling K n) : Prop where
  effects : h.effects = []
  lost : h.lost = true

/-- Not answered yet. -/
def Unanswered (q : ProxyRequest K) (h : Handling K n) : Prop := h.Waiting q ∧ h.handedOff = false

/-- Not answered yet, and D not asked. -/
def Early (q : ProxyRequest K) (h : Handling K n) : Prop := h.Unanswered q ∧ h.client = false

/-- Answered, with nothing left to close. -/
structure Answered (h : Handling K n) : Prop extends Released h where
  finished : h.finished = true
  handedOff : h.handedOff = false
  closed : h.client = true → h.closed = true

/-- The stream has to finish the request. -/
def Streaming (q : ProxyRequest K) (h : Handling K n) : Prop := h.Waiting q ∧ h.handedOff = true

/-- What a reply says about the reservation. -/
def Replied (q : ProxyRequest K) : Reply → Handling K n → Prop
  | .plain _, h => h.Answered
  | .stream _, h => h.Streaming q

/-- What others do to the Router changes nothing about it. -/
def Stable (q : ProxyRequest K) (P : Handling K n → Prop) : Prop := ∀ ⦃h h'⦄, P h → Meanwhile q h h' → P h'

theorem stable_waiting : Stable q (Waiting (n := n) q) := by
  rintro h _ hw ⟨r, hr, rfl⟩
  exact ⟨hw.finished, hw.effects, hw.lost, by rw [reserved, hr]; exact hw.reserved⟩

theorem stable_unanswered : Stable q (Unanswered (n := n) q) := by
  rintro h _ ⟨hw, hoff⟩ ⟨r, hr, rfl⟩
  exact ⟨stable_waiting hw ⟨r, hr, rfl⟩, hoff⟩

theorem stable_early : Stable q (Early (n := n) q) := by
  rintro h _ ⟨hu, hclient⟩ ⟨r, hr, rfl⟩
  exact ⟨stable_unanswered hu ⟨r, hr, rfl⟩, hclient⟩

theorem stable_released : Stable q (Released (K := K) (n := n)) := by
  rintro h _ hr ⟨r, -, rfl⟩
  exact ⟨hr.once, hr.lost⟩

theorem released_release (heffects : h.effects = []) (hlost : h.lost = false) (hreserved : h.reserved q.ticket = true)
    (status : Status) (ttftMs tpotMs : Option K) (outputTokens : ℕ) :
    Released (h.release q status ttftMs tpotMs outputTokens) where
  once := ⟨status, by rw [release, if_pos hreserved, heffects, List.nil_append]⟩
  lost := hlost

/-- The first finish takes effect. -/
theorem Waiting.finish (hw : h.Waiting q) (status : Status) (timer : Option (StreamTimer K)) :
    Released (h.finish q status timer) ∧ (h.finish q status timer).finished = true := by
  unfold Handling.finish
  rw [if_neg (by simp [hw.finished])]
  exact ⟨released_release (h := { h with finished := true }) hw.effects hw.lost hw.reserved status _ _ _, rfl⟩

theorem finish_rest (h : Handling K n) (q : ProxyRequest K) (status : Status) (timer : Option (StreamTimer K)) :
    (h.finish q status timer).handedOff = h.handedOff ∧ (h.finish q status timer).client = h.client ∧
      (h.finish q status timer).closed = h.closed := by
  unfold Handling.finish
  split <;> exact ⟨rfl, rfl, rfl⟩

theorem Unanswered.finish (hu : h.Unanswered q) (hclosed : h.client = true → h.closed = true) (status : Status)
    (timer : Option (StreamTimer K)) : Answered (h.finish q status timer) := by
  obtain ⟨hreleased, hfinished⟩ := hu.1.finish status timer
  obtain ⟨hoff, hclient, hcl⟩ := h.finish_rest q status timer
  exact ⟨hreleased, hfinished, hoff.trans hu.2, fun hc => hcl.trans (hclosed (hclient ▸ hc))⟩

/-- A ticket that another stage of its own is written to stays reserved. -/
theorem Waiting.set (hw : h.Waiting q) {r : Router K n}
    (hr : ∀ t, h.router.tickets[q.ticket]? = some t → t.finished = false →
      (r.tickets[q.ticket]?).any (fun u => !u.finished) = true) :
    Waiting q { h with router := r } := by
  obtain ⟨t, ht, hf⟩ := (Option.any_eq_true _ _).mp hw.reserved
  exact ⟨hw.finished, hw.effects, hw.lost, hr t ht (by simpa using hf)⟩

theorem Waiting.prefillDone (hw : h.Waiting q) : Waiting q { h with router := h.router.prefillDone q.ticket } := by
  refine hw.set fun t ht hf => ?_
  by_cases hs : t.stage = .prefill
  · rw [(Router.moves_prefillDone ht hf hs).tickets, List.getElem?_set_self (List.getElem?_eq_some_iff.mp ht).1]
    simp [hf]
  · simp [Router.prefillDone, ht, hs, hf]

theorem Waiting.firstToken (hw : h.Waiting q) : Waiting q { h with router := h.router.firstToken q.ticket } := by
  refine hw.set fun t ht hf => ?_
  cases hs : t.firstTokenAt with
  | none =>
    rw [(Router.moves_firstToken ht hf hs).tickets, List.getElem?_set_self (List.getElem?_eq_some_iff.mp ht).1]
    simp [hf]
  | some at_ => simp [Router.firstToken, ht, hs, hf]

theorem Waiting.tokenProgress (hw : h.Waiting q) (tpotMs : Option K) :
    Waiting q { h with router := h.router.tokenProgress q.ticket tpotMs } := by
  refine hw.set fun t ht hf => ?_
  have hset : (h.router.setTicket q.ticket { t with lastTokenAt := some h.router.now }).tickets[q.ticket]? =
      some { t with lastTokenAt := some h.router.now } := by
    rw [Router.setTicket_tickets, List.getElem?_set_self (List.getElem?_eq_some_iff.mp ht).1]
  unfold Router.tokenProgress
  rw [ht]
  dsimp only
  split
  · rw [(Router.untouched_observeLatency _ _ _ _).tickets, hset]
    simp [hf]
  · rw [(Router.untouched_observeLatency _ _ _ _).tickets]
    cases tpotMs <;> (dsimp only; rw [hset]; simp [hf])

theorem Waiting.feed (hw : h.Waiting q) (d : Decoder K) (clock : ℕ → K) (chunk : Bytes) :
    Waiting q (h.feed d q clock chunk).2 := by
  have htimer (timer : StreamTimer K) : Waiting q { h with timer } := ⟨hw.finished, hw.effects, hw.lost, hw.reserved⟩
  unfold Handling.feed
  split
  · exact htimer _
  · unfold noteTokens
    split
    · exact htimer _
    · exact (htimer _).firstToken.tokenProgress _

end Handling

/-! ### The stages -/

namespace Serving
open Handling
variable {q : ProxyRequest K} {P : Handling K n → Prop} {α : Type}

/-- P's half was answered, or D comes next. -/
def Asked (q : ProxyRequest K) : Bool → Handling K n → Prop
  | true, h => h.Early q
  | false, h => h.Answered

abbrev Reaches (q : ProxyRequest K) (P : Handling K n → Prop) (p : Serving K n α) (Q : α → Handling K n → Prop)
    (E : Broken → Handling K n → Prop) : Prop := Co.Triple (served q) P p Q E

theorem reaches_call (hP : Stable q P) (op : Await) : Reaches q P (call op) (fun _ => P) fun _ => P :=
  .call (fun _ _ _ _ => trivial) (fun _ _ _ hp hm _ => hP hp hm) fun _ _ _ hp hm _ => hP hp hm

theorem reaches_modify {f : Handling K n → Handling K n} {Q : Handling K n → Prop} {E : Broken → Handling K n → Prop}
    (hf : ∀ h, P h → Q (f h)) : Reaches q P (modify f) (fun _ => Q) E :=
  .update fun _ h _ hp => ⟨trivial, hf h hp⟩

/-- P's half gives an answer, or everything is as before. -/
theorem reaches_prefillStage : Reaches (n := n) q (Early q) (prefillStage q)
    (Asked q) fun _ => Early q := by
  have hfinish {E : Broken → Handling K n → Prop} : Reaches q (Early q) (do finish q .prefillError none; return false)
      (Asked q) E := by
    refine (reaches_modify (Q := Answered) fun h hh => ?_).bind fun _ => .pure fun _ hh => hh
    exact hh.1.finish (fun hc => absurd hc (by simp [hh.2])) _ _
  refine Co.Triple.handle (E := fun _ => Early q) ?_ fun e => ?_
  · refine (reaches_call stable_early _).bind fun _ => ?_
    refine Co.Triple.bind (R := fun _ => Early q) ?_ fun answer => ?_
    · exact (reaches_call stable_early _).ensure (fun _ => reaches_call stable_early _)
        (fun _ => reaches_call stable_early _)
        fun _ _ hh => hh
    dsimp only
    split_ifs
    · exact hfinish
    · refine (reaches_modify (Q := Early q) fun h hh => ⟨⟨hh.1.1.prefillDone, hh.1.2⟩, hh.2⟩).bind fun _ => ?_
      exact (Co.Triple.ofExcept (fun _ _ _ hh => hh) fun _ _ _ hh => hh).bind fun _ => .pure fun _ hh => hh
  · split_ifs
    · exact hfinish
    · exact .raise fun _ hh => hh

theorem reaches_closeClient (hP : Stable q P) (hclosed : ∀ h, P h → P { h with closed := true }) (last : Bool) :
    Reaches q P (closeClient last) (fun _ (h : Handling K n) => P h ∧ h.closed = true) fun _ => P := by
  refine (reaches_modify (Q := fun h => P h ∧ h.closed = true) fun h hp => ⟨hclosed h hp, rfl⟩).bind fun _ => ?_
  refine (reaches_call (fun h h' hp hm => ⟨hP hp.1 hm, ?_⟩) _).conseq (fun _ hp => hp) (fun _ _ hp => hp) fun _ _ hp => hp.1
  obtain ⟨r, -, rfl⟩ := hm
  exact hp.2

theorem reaches_finish (status : Status) {E : Broken → Handling K n → Prop} :
    Reaches q (fun h => h.Unanswered q ∧ (h.client = true → h.closed = true)) (finish q status none)
    (fun _ => Answered) E :=
  reaches_modify fun _ hh => hh.1.finish hh.2 _ _

/-- An answer of the proxy's own after D was asked. -/
theorem reaches_close (status : Status) (code : ℕ) :
    Reaches (n := n) q (Unanswered q) (do closeClient false; finish q status none; return .plain code) (Replied q)
      fun _ => Unanswered q :=
  (reaches_closeClient stable_unanswered
    (fun _ hh => ⟨⟨hh.1.finished, hh.1.effects, hh.1.lost, hh.1.reserved⟩, hh.2⟩) false).bind
    fun _ => ((reaches_finish status).conseq (fun _ hh => ⟨hh.1, fun _ => hh.2⟩) (fun _ _ hh => hh) fun _ _ hh => hh).bind
      fun _ => .pure fun _ hh => hh

theorem reaches_refuse : Reaches (n := n) q (Unanswered q) (refuse q) (Replied q) fun _ => Unanswered q :=
  (reaches_call stable_unanswered _).bind fun _ => reaches_close _ _

/-- D's half gives an answer or hands the stream off, or the request is still unanswered. -/
theorem reaches_decodeStage : Reaches (n := n) q (Early q) (decodeStage q) (Replied q) fun _ => Unanswered q := by
  refine ((reaches_call stable_early _).conseq (fun _ hh => hh) (fun _ _ hh => hh) fun _ _ hh => hh.1).bind fun _ => ?_
  refine (reaches_modify (Q := Unanswered q) fun h hh =>
    ⟨⟨hh.1.1.finished, hh.1.1.effects, hh.1.1.lost, hh.1.1.reserved⟩, hh.1.2⟩).bind fun _ => ?_
  refine Co.Triple.handle (E := fun _ => Unanswered q) ?_ fun e => ?_
  · refine (reaches_call stable_unanswered _).bind fun answer => ?_
    dsimp only
    split_ifs
    · exact reaches_refuse
    · exact reaches_refuse
    · refine (reaches_modify (Q := Streaming q) fun h hh =>
        ⟨⟨hh.1.finished, hh.1.effects, hh.1.lost, hh.1.reserved⟩, rfl⟩).bind fun _ => .pure fun _ hh => hh
    · exact (reaches_call stable_unanswered _).bind fun _ => (reaches_call stable_unanswered _).bind fun _ =>
        reaches_close _ _
  · split_ifs
    · exact reaches_close _ _
    · exact .raise fun _ hh => hh

/-! ### Leaving -/

/-- The reservation is given back, or it is lost. -/
def Settled (h : Handling K n) : Prop := h.Released ∨ h.Leaked

/-- Leaving closes D's client and finishes; an exception of that closing loses the reservation. -/
theorem reaches_leave_unanswered : Reaches (n := n) q (Unanswered q) (leave q) (fun _ => Settled) fun _ => Settled := by
  have hfinish {E : Broken → Handling K n → Prop} :
      Reaches (n := n) q (fun h => Unanswered q h ∧ (h.client = true → h.closed = true)) (finish q .clientDisconnected none)
        (fun _ => Settled) E :=
    (reaches_finish _).conseq (fun _ hh => hh) (fun _ _ hh => .inl hh.toReleased) fun _ _ hh => hh
  refine (Co.Triple.read (R := fun h₀ h => h = h₀ ∧ Unanswered q h) fun h hh => ⟨rfl, hh⟩).bind fun h₀ => ?_
  by_cases hoff : h₀.handedOff = true
  · rw [if_pos hoff]
    refine .pure fun h hh => ?_
    obtain ⟨rfl, hw, hno⟩ := hh
    exact absurd hoff (by simp [hno])
  rw [if_neg hoff]
  -- A client that is open is closed first; if that raises, the finish is skipped and the ticket lost.
  by_cases hopen : (h₀.client && !h₀.closed) = true
  · rw [if_pos hopen]
    refine Co.Triple.bind (R := fun _ (h : Handling K n) => Unanswered q h ∧ (h.client = true → h.closed = true)) ?_
      fun _ => hfinish
    refine Co.Triple.handle (E := fun _ => Unanswered q) ?_ fun e => ?_
    · exact (reaches_closeClient stable_unanswered
        (fun _ hh => ⟨⟨hh.1.finished, hh.1.effects, hh.1.lost, hh.1.reserved⟩, hh.2⟩)
        true).conseq (fun _ hh => hh.2) (fun _ _ hh => ⟨hh.1, fun _ => hh.2⟩) fun _ _ hh => hh
    · exact (reaches_modify (Q := Settled) fun h hh => .inr ⟨hh.1.effects, rfl⟩).bind fun _ => .raise fun _ hh => hh
  · rw [if_neg hopen]
    refine hfinish.conseq (fun h hh => ?_) (fun _ _ hh => hh) fun _ _ hh => hh
    obtain ⟨rfl, hu⟩ := hh
    exact ⟨hu, fun hc => by simpa [hc] using hopen⟩

/-- Leaving an answered request, or a stream, does nothing. -/
theorem reaches_leave_replied (reply : Reply) {E : Broken → Handling K n → Prop} :
    Reaches (n := n) q (Replied q reply) (leave q) (fun _ => Replied q reply) E := by
  refine (Co.Triple.read (R := fun h₀ h => h = h₀ ∧ Replied q reply h) fun h hh => ⟨rfl, hh⟩).bind fun h₀ => ?_
  by_cases hoff : h₀.handedOff = true
  · rw [if_pos hoff]
    exact .pure fun h hh => hh.2
  rw [if_neg hoff]
  cases reply with
  | stream chunks =>
    intro _ h _ hh
    obtain ⟨rfl, hs⟩ := hh
    exact absurd hs.2 hoff
  | plain code =>
    by_cases hopen : (h₀.client && !h₀.closed) = true
    · intro _ h _ hh
      obtain ⟨rfl, ha⟩ := hh
      rw [Bool.and_eq_true, Bool.not_eq_true'] at hopen
      exact absurd (ha.closed hopen.1) (by simp [hopen.2])
    · rw [if_neg hopen]
      refine reaches_modify fun h hh => ?_
      rw [Handling.finish, if_pos hh.2.finished]
      exact hh.2

/-- With a ticket, a request ends in an answer, in a stream to come, or its reservation is settled. -/
theorem reaches_handle : Reaches (n := n) q (Early q) (handle q)
    (fun reply h => match reply with
      | .plain _ => Settled h
      | .stream _ => Streaming q h) fun _ => Settled := by
  unfold handle
  split_ifs
  -- Inside the try the ticket is unanswered or replied; what leaves it is settled at once.
  · have hbody : Reaches (n := n) q (Early q) (do if ← prefillStage q then decodeStage q else return .plain 502) (Replied q)
        fun _ => Unanswered q := by
      refine (reaches_prefillStage.conseq (fun _ hh => hh) (fun _ _ hh => hh) fun _ _ hh => hh.1).bind fun asked => ?_
      cases asked with
      | true => exact reaches_decodeStage
      | false => exact .pure fun _ hh => hh
    refine hbody.attempt.bind fun result => ?_
    cases result with
    | ok reply =>
      refine (reaches_leave_replied reply).bind fun _ => .pure fun h hh => ?_
      cases reply with
      | plain code => exact .inl hh.toReleased
      | stream chunks => exact hh
    | error e => exact reaches_leave_unanswered.bind fun _ => .raise fun _ hh => hh
  · refine (reaches_modify (Q := Settled) fun h hh => .inl ?_).bind fun _ => .pure fun _ hh => hh
    exact released_release hh.1.1.effects hh.1.1.lost hh.1.1.reserved _ _ _ _

/-! ### The stream -/

variable {d : Decoder K}

theorem reaches_forward : ∀ chunks, Reaches (n := n) q (Waiting q) (forward q d chunks)
    (fun _ => Waiting q) fun _ => Waiting q
  | [] => reaches_call stable_waiting _
  | chunk :: chunks => by
    refine (reaches_call stable_waiting _).bind fun clock => ?_
    refine Co.Triple.bind (R := fun _ => Waiting q) (.atomic fun _ h _ hh => ⟨trivial, hh.feed d clock chunk⟩) fun fed => ?_
    cases fed with
    | true => exact (reaches_call stable_waiting _).bind fun _ => reaches_forward chunks
    | false => exact .raise fun _ hh => hh

/-- A stream finishes the request first, however it is left. -/
theorem reaches_stream (chunks : List Bytes) :
    Reaches (n := n) q (Waiting q) (stream q d chunks) (fun _ => Released) fun _ => Released := by
  have hstatus : Reaches (n := n) q (Waiting q) (streamStatus q d chunks) (fun _ => Waiting q) fun _ => Waiting q := by
    refine Co.Triple.handle (E := fun _ => Waiting q) ?_ fun e => ?_
    · exact (reaches_forward chunks).bind fun _ => (Co.Triple.read (R := fun _ h => Waiting q h) fun _ hh => hh).bind
        fun _ => .pure fun _ hh => hh
    · split_ifs
      · exact .pure fun _ hh => hh
      · exact .raise fun _ hh => hh
  refine Co.Triple.bind (R := fun _ => Waiting q)
    (hstatus.attempt.conseq (fun _ hh => hh) (fun r _ hh => by cases r <;> exact hh) fun _ _ hh => hh) fun result => ?_
  refine (reaches_modify (Q := Released) fun h hh => (hh.finish _ _).1).bind fun _ => ?_
  refine (reaches_call stable_released _).bind fun _ => ?_
  refine ((reaches_closeClient stable_released (fun _ hh => ⟨hh.once, hh.lost⟩) false).conseq (fun _ hh => hh)
    (fun _ _ hh => hh.1) fun _ _ hh => hh).bind fun _ => ?_
  exact .ofExcept (fun _ _ _ hh => hh) fun _ _ _ hh => hh

theorem reaches_serve : Reaches (n := n) q (Early q) (serve q d) (fun _ => Settled) fun _ => Settled := by
  refine reaches_handle.bind fun reply => ?_
  cases reply with
  | plain code => exact .pure fun _ hh => hh
  | stream chunks =>
    refine Co.Triple.bind (R := fun _ => Waiting q) ?_ fun _ =>
      (reaches_stream chunks).conseq (fun _ hh => hh) (fun _ _ hh => .inl hh) fun _ _ hh => .inl hh
    refine Co.Triple.handle (E := fun _ => Waiting q) ?_ fun e => ?_
    · exact (reaches_call stable_waiting _).conseq (fun _ hh => hh.1) (fun _ _ hh => hh) fun _ _ hh => hh
    · exact (reaches_modify (Q := Settled) fun h hh => .inr ⟨hh.effects, rfl⟩).bind fun _ => .raise fun _ hh => hh

/-- Its reservation is released once, except where an exception comes before the first step of its stream or as the
    client of an unanswered request is closed in the end; there it is never released. -/
theorem serve_releases {h h' : Handling K n} {result : Except Broken Unit} (admitted : h.Early q)
    (hrun : Co.Ends (served q) (serve q d) h result h') : (∃ status, h'.effects = [status]) ↔ h'.lost = false := by
  obtain ⟨w₁, -, hend⟩ := hrun.reaches (reaches_serve h h trivial admitted)
  have hsettled : Settled h' := by
    cases result with
    | ok => exact hend
    | error => exact hend
  rcases hsettled with hr | hl
  · exact iff_of_true hr.once hr.lost
  · refine iff_of_false ?_ (by simp [hl.lost])
    rintro ⟨status, hs⟩
    exact absurd (hl.effects.symm.trans hs) (by simp)

section Small

def smallRequest : ProxyRequest ℚ := ⟨0, 0, none, false, true⟩

/-- A request with its ticket, in the proxy. -/
def smallHandling : Handling ℚ 1 := .fresh ((smallCold 1).after 1 512 true 0)

/-- No event is read. -/
def smallDecoder : Decoder ℚ := ⟨fun _ => .error .value, fun _ => ""⟩

/-- P and D answer, with one event that says the stream is done; `start` and `send` may be broken. -/
def smallAnswers (start send left : Except Broken Unit) : (op : Await) → Except Broken (Await.Ans ℚ op)
  | .client => .ok ()
  | .prefill => .ok ⟨200, .ok (.obj [])⟩
  | .closePrefill => .ok ()
  | .send => send.map fun _ => ⟨200, some "text/event-stream", [dataPrefix ++ donePayload ++ [10, 10]]⟩
  | .closeResponse => .ok ()
  | .closeClient false => .ok ()
  | .closeClient true => left
  | .read => .ok ()
  | .start => start
  | .chunk => .ok fun _ => 0
  | .ended => .ok ()
  | .yield => .ok ()

theorem early_smallHandling : smallHandling.Early smallRequest := ⟨⟨⟨rfl, rfl, rfl, by decide +kernel⟩, rfl⟩, rfl⟩

/-- Another request begins to wait while this one holds its reservation. -/
def another (h : Handling ℚ 1) : Handling ℚ 1 :=
  if h.reserved smallRequest.ticket then { h with router := h.router.newWaiter.2 } else h

theorem meanwhile_another (h : Handling ℚ 1) : Meanwhile smallRequest h (another h) := by
  unfold another
  split_ifs with hr
  · exact meanwhile_acts (e := .newWaiter) rfl (by simp [Outside.ticket?]) hr
  · exact ⟨h.router, rfl, rfl⟩

theorem ends_smallHandling (x : (op : Await) → Except Broken (Await.Ans ℚ op)) :
    Co.Ends (served smallRequest) (serve smallRequest smallDecoder) smallHandling
      ((serve smallRequest smallDecoder).play x another smallHandling).1
      ((serve smallRequest smallDecoder).play x another smallHandling).2 :=
  Co.ends_play (c := served smallRequest) meanwhile_another (fun _ _ => trivial) (fun _ => rfl) _ _

theorem serve_releases_smallHandling :
    ∃ result h', Co.Ends (served smallRequest) (serve smallRequest smallDecoder) smallHandling result h' ∧
    h'.effects = [.ok] ∧ ((∃ status, h'.effects = [status]) ↔ h'.lost = false) := by
  have hrun := ends_smallHandling (smallAnswers (.ok ()) (.ok ()) (.ok ()))
  exact ⟨_, _, hrun, by decide +kernel, serve_releases early_smallHandling hrun⟩

/-- The client goes before the first step of the stream; and D's call raises, and the request is cancelled as the client
    is closed. Neither finishes. -/
theorem serve_leaks :
    (∃ result h', Co.Ends (served smallRequest) (serve smallRequest smallDecoder) smallHandling result h' ∧
      smallHandling.Early smallRequest ∧ h'.effects = [] ∧ h'.reserved smallRequest.ticket = true) ∧
    ∃ result h', Co.Ends (served smallRequest) (serve smallRequest smallDecoder) smallHandling result h' ∧
      h'.handedOff = false ∧ h'.effects = [] ∧ h'.reserved smallRequest.ticket = true := by
  have hleft := ends_smallHandling (smallAnswers (.error .cancelled) (.ok ()) (.ok ()))
  have hraised := ends_smallHandling (smallAnswers (.ok ()) (.error .other) (.error .cancelled))
  exact ⟨⟨_, _, hleft, early_smallHandling, by decide +kernel, by decide +kernel⟩,
    ⟨_, _, hraised, by decide +kernel, by decide +kernel, by decide +kernel⟩⟩

end Small
end Serving
end CanaTune
