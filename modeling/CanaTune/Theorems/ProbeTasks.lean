import CanaTune.Controller.ProbeWindows
import CanaTune.Theorems.Probe

/-! The requests that run belong to one task each of the window in progress (`Attended`), and every step of a task keeps
    it so. -/

namespace CanaTune
variable {K : Type} [Scalar K]

/-! ### Requests and the tasks that make them -/

/-- Neither returned nor raised. -/
def ProbePoint.runs : ProbePoint K → Bool
  | returned _ => false
  | raised _ => false
  | _ => true

def ProbePoint.outcome? : ProbePoint K → Option (ProbeOutcome K)
  | returned o => some o
  | _ => none

omit [Scalar K] in
theorem ProbePoint.request_of_runs {a : ProbePoint K} (h : a.runs = false) : a.request? = none := by
  cases a <;> first | rfl | cases h

omit [Scalar K] in
theorem ProbePoint.outcome_of_runs {a : ProbePoint K} (h : a.runs = true) : a.outcome? = none := by
  cases a <;> first | rfl | cases h

def ProbeJob.request? : ProbeJob → Option ℕ
  | asks k _ => some k
  | _ => none

/-- The request that a task awaits. -/
def asking (jobs : List ProbeJob) (i : ℕ) : Option ℕ := jobs[i]?.bind (·.request?)

section Asking
variable {jobs : List ProbeJob} {i m : ℕ} {j j' : ProbeJob}

theorem asking_of (h : jobs[i]? = some j) : asking jobs i = j.request? := by
  rw [asking, h, Option.bind_some]

theorem asking_set (h : jobs[i]? = some j) (m : ℕ) :
    asking (jobs.set i j') m = if m = i then j'.request? else asking jobs m := by
  obtain ⟨hi, -⟩ := List.getElem?_eq_some_iff.mp h
  rw [asking, List.getElem?_set]
  by_cases hm : i = m
  · subst hm
    rw [if_pos rfl, if_pos hi, if_pos rfl, Option.bind_some]
  · rw [if_neg hm, if_neg (Ne.symm hm), asking]

/-- A task that awaits no request takes its place. -/
theorem asking_set_idle (h : jobs[i]? = some j) (hj : j.request? = none) (hj' : j'.request? = none) (m : ℕ) :
    asking (jobs.set i j') m = asking jobs m := by
  rw [asking_set h]
  split_ifs with hm
  · rw [hm, asking_of h, hj, hj']
  · rfl

theorem asking_append_fresh (spread : Bool) (prompts : List ℕ) (m : ℕ) :
    asking (jobs ++ [.fresh spread prompts]) m = asking jobs m := by
  unfold asking
  rcases Nat.lt_or_ge m jobs.length with hm | hm
  · rw [List.getElem?_append_left hm]
  · rw [List.getElem?_append_right hm, List.getElem?_eq_none hm, Option.bind_none]
    cases m - jobs.length <;> rfl

theorem asking_map_fresh (prompts : List (List ℕ)) (m : ℕ) : asking (prompts.map (.fresh true)) m = none := by
  rw [asking, List.getElem?_map]
  cases prompts[m]? <;> rfl

theorem asking_of_over (h : ∀ j ∈ jobs, j.isOver = true) (m : ℕ) : asking jobs m = none := by
  unfold asking
  cases hm : jobs[m]? with
  | none => rfl
  | some j =>
    have hj : j = .finished := of_decide_eq_true (h j (List.mem_of_getElem? hm))
    rw [hj]
    rfl

end Asking

/-- Every request that runs is awaited by one task, and every awaited request runs. -/
structure Attended (pool : ProbePool K) (jobs : List ProbeJob) : Prop where
  booked : pool.Booked
  asked : ∀ {k a}, pool.requests[k]? = some a → a.runs = true → ∃ i, asking jobs i = some k
  running : ∀ {i k}, asking jobs i = some k → ∃ a, pool.requests[k]? = some a ∧ a.runs = true
  distinct : ∀ {i j k}, asking jobs i = some k → asking jobs j = some k → i = j

/-- One step of a task: it moves without a request, sends one, or its request goes on and may return. -/
inductive JobTurn (pool : ProbePool K) (jobs : List ProbeJob) : ProbePool K → List ProbeJob → List (ProbeOutcome K) → Prop
  | idle {i : ℕ} {j j' : ProbeJob} (here : jobs[i]? = some j) (before : j.request? = none) (after : j'.request? = none) :
      JobTurn pool jobs pool (jobs.set i j') []
  | sent {i : ℕ} {j : ProbeJob} (here : jobs[i]? = some j) (before : j.request? = none) (prompt : ℤ) (now : K)
      (rest : List ℕ) (runs : (pool.probe.request prompt now).2.runs = true) :
      JobTurn pool jobs ⟨(pool.probe.request prompt now).1, pool.requests ++ [(pool.probe.request prompt now).2]⟩
        (jobs.set i (.asks pool.requests.length rest)) []
  | unsent {i : ℕ} {j : ProbeJob} (here : jobs[i]? = some j) (before : j.request? = none) (prompt : ℤ) (now : K)
      (raised : ∃ r, (pool.probe.request prompt now).2 = .raised r) :
      JobTurn pool jobs ⟨(pool.probe.request prompt now).1, pool.requests ++ [(pool.probe.request prompt now).2]⟩
        (jobs.set i .finished) []
  | onward {i k : ℕ} {p : CanaryProbe} {b : ProbePoint K} (here : asking jobs i = some k)
      (booked : pool.Booked → (pool.put k p b).Booked) (runs : b.runs = true) : JobTurn pool jobs (pool.put k p b) jobs []
  | ended {i k : ℕ} {p : CanaryProbe} {b : ProbePoint K} (here : asking jobs i = some k)
      (booked : pool.Booked → (pool.put k p b).Booked) (done : b.runs = false) :
      JobTurn pool jobs (pool.put k p b) (jobs.set i .finished) b.outcome?.toList

section Turn
variable {pool pool' : ProbePool K} {jobs jobs' : List ProbeJob} {os : List (ProbeOutcome K)}

omit [Scalar K] in
/-- The tasks change places, and each awaits what it awaited. -/
theorem Attended.same (h : Attended pool jobs) (hjobs : ∀ m, asking jobs' m = asking jobs m) : Attended pool jobs' := by
  refine ⟨h.booked, fun hk ha => ?_, fun hi => ?_, fun hi hj => ?_⟩
  · obtain ⟨i, hi⟩ := h.asked hk ha
    exact ⟨i, (hjobs i).trans hi⟩
  · exact h.running ((hjobs _).symm.trans hi)
  · exact h.distinct ((hjobs _).symm.trans hi) ((hjobs _).symm.trans hj)

/-- A request is sent, or cannot be drawn. -/
theorem Attended.sent (d : Decoder K) {i : ℕ} {j j' : ProbeJob} (h : Attended pool jobs) (here : jobs[i]? = some j)
    (before : j.request? = none) (prompt : ℤ) (now : K)
    (hj' : j'.request? = if (pool.probe.request prompt now).2.runs = true then some pool.requests.length else none) :
    Attended ⟨(pool.probe.request prompt now).1, pool.requests ++ [(pool.probe.request prompt now).2]⟩ (jobs.set i j') := by
  have hi : asking jobs i = none := (asking_of here).trans before
  have hold : ∀ {m k}, asking jobs m = some k → k < pool.requests.length := fun hm => by
    obtain ⟨a, ha, -⟩ := h.running hm
    exact (List.getElem?_eq_some_iff.mp ha).1
  refine ⟨h.booked.step (d := d) (e := .request prompt now) rfl, fun {k a} hk ha => ?_, fun {m k} hm => ?_,
    fun {m m' k} hm hm' => ?_⟩
  · rcases Nat.lt_trichotomy k pool.requests.length with hlt | rfl | hgt
    · rw [List.getElem?_append_left hlt] at hk
      obtain ⟨m, hm⟩ := h.asked hk ha
      refine ⟨m, ?_⟩
      rw [asking_set here, if_neg fun hmi => ?_, hm]
      rw [hmi, hi] at hm
      cases hm
    · rw [List.getElem?_append_right le_rfl, Nat.sub_self] at hk
      obtain rfl := Option.some.inj hk
      exact ⟨i, by rw [asking_set here, if_pos rfl, hj', if_pos ha]⟩
    · rw [List.getElem?_eq_none (by simpa using hgt)] at hk
      cases hk
  · rw [asking_set here] at hm
    split_ifs at hm with hmi
    · rw [hj', Option.ite_none_right_eq_some] at hm
      obtain ⟨hruns, hk⟩ := hm
      obtain rfl := Option.some.inj hk
      exact ⟨_, by rw [List.getElem?_append_right le_rfl, Nat.sub_self]; rfl, hruns⟩
    · obtain ⟨a, ha, hruns⟩ := h.running hm
      exact ⟨a, by rw [List.getElem?_append_left (hold hm), ha], hruns⟩
  · rw [asking_set here] at hm hm'
    -- The new request is awaited by nobody else.
    have hnew : ∀ {k}, j'.request? = some k → k = pool.requests.length := fun hk => by
      rw [hj', Option.ite_none_right_eq_some] at hk
      exact (Option.some.inj hk.2).symm
    split_ifs at hm hm' with h₁ h₂ h₂
    · rw [h₁, h₂]
    · have hlt := hold hm'
      rw [hnew hm] at hlt
      exact absurd hlt (lt_irrefl _)
    · have hlt := hold hm
      rw [hnew hm'] at hlt
      exact absurd hlt (lt_irrefl _)
    · exact h.distinct hm hm'

omit [Scalar K] in
/-- An awaited request goes on, and its task awaits it as long as it runs. -/
theorem Attended.onward {i k : ℕ} {p : CanaryProbe} {b : ProbePoint K} (h : Attended pool jobs)
    (here : asking jobs i = some k) (booked : (pool.put k p b).Booked)
    (hjobs : ∀ m, asking jobs' m = if m = i then (if b.runs = true then some k else none) else asking jobs m) :
    Attended (pool.put k p b) jobs' := by
  obtain ⟨a, ha, -⟩ := h.running here
  have hget := ProbePool.getElem?_put (p := p) (b := b) ha
  refine ⟨booked, fun {k' a'} hk' ha' => ?_, fun {m k'} hm => ?_, fun {m m' k'} hm hm' => ?_⟩
  · rw [hget] at hk'
    split_ifs at hk' with hkk
    · obtain rfl := Option.some.inj hk'
      exact ⟨i, by rw [hjobs, if_pos rfl, if_pos ha', hkk]⟩
    -- Another request is awaited by another task.
    · obtain ⟨m, hm⟩ := h.asked hk' ha'
      refine ⟨m, ?_⟩
      rw [hjobs, if_neg fun hmi => hkk ?_, hm]
      rw [hmi, here] at hm
      exact (Option.some.inj hm).symm
  · rw [hjobs] at hm
    split_ifs at hm with hmi hruns
    · obtain rfl := Option.some.inj hm
      exact ⟨b, by rw [hget, if_pos rfl], hruns⟩
    · obtain ⟨a', ha', hruns⟩ := h.running hm
      refine ⟨a', ?_, hruns⟩
      rw [hget, if_neg ?_, ha']
      rintro rfl
      exact hmi (h.distinct hm here)
  · -- A task that awaits something now awaited it before.
    have hbefore : ∀ {m k'}, asking jobs' m = some k' → asking jobs m = some k' := fun {m k'} hm => by
      rw [hjobs] at hm
      split_ifs at hm with hmi hruns
      · rw [hmi, here, hm]
      · exact hm
    exact h.distinct (hbefore hm) (hbefore hm')

theorem Attended.turn (d : Decoder K) (h : Attended pool jobs) (ht : JobTurn pool jobs pool' jobs' os) :
    Attended pool' jobs' := by
  cases ht with
  | idle here before after => exact h.same (asking_set_idle here before after)
  | sent here before prompt now rest runs => exact h.sent d here before prompt now (by rw [if_pos runs]; rfl)
  | unsent here before prompt now raised =>
    obtain ⟨r, hr⟩ := raised
    exact h.sent d here before prompt now (by rw [hr]; rfl)
  | onward here booked runs =>
    refine h.onward here (booked h.booked) fun m => ?_
    rw [if_pos runs]
    split_ifs with hm
    · rw [hm, here]
    · rfl
  | @ended i k p b here booked done =>
    obtain ⟨j, hj, -⟩ := Option.bind_eq_some_iff.mp here
    refine h.onward here (booked h.booked) fun m => ?_
    rw [asking_set hj, done, if_neg Bool.false_ne_true]
    rfl

end Turn

/-- Steps of tasks, with the outcomes that returned on the way. -/
inductive JobTurns (pool : ProbePool K) (jobs : List ProbeJob) : ProbePool K → List ProbeJob → List (ProbeOutcome K) → Prop
  | refl : JobTurns pool jobs pool jobs []
  | step {pool' pool'' : ProbePool K} {jobs' jobs'' : List ProbeJob} {os os' : List (ProbeOutcome K)}
      (turns : JobTurns pool jobs pool' jobs' os) (turn : JobTurn pool' jobs' pool'' jobs'' os') :
      JobTurns pool jobs pool'' jobs'' (os ++ os')

section Turns
variable {pool pool' pool'' : ProbePool K} {jobs jobs' jobs'' : List ProbeJob} {os os' : List (ProbeOutcome K)}

omit [Scalar K] in
theorem JobTurn.turns (h : JobTurn pool jobs pool' jobs' os) : JobTurns pool jobs pool' jobs' os :=
  List.nil_append os ▸ JobTurns.refl.step h

omit [Scalar K] in
theorem JobTurns.trans (h : JobTurns pool jobs pool' jobs' os) (h' : JobTurns pool' jobs' pool'' jobs'' os') :
    JobTurns pool jobs pool'' jobs'' (os ++ os') := by
  induction h' with
  | refl =>
    rw [List.append_nil]
    exact h
  | step _ turn ih =>
    rw [← List.append_assoc]
    exact ih.step turn

theorem Attended.turns (d : Decoder K) (h : Attended pool jobs) (ht : JobTurns pool jobs pool' jobs' os) :
    Attended pool' jobs' := by
  induction ht with
  | refl => exact h
  | step _ turn ih => exact ih.turn d turn

omit [Scalar K] in
theorem JobTurn.length (h : JobTurn pool jobs pool' jobs' os) : jobs'.length = jobs.length := by
  cases h <;> simp

omit [Scalar K] in
theorem JobTurns.length (h : JobTurns pool jobs pool' jobs' os) : jobs'.length = jobs.length := by
  induction h with
  | refl => rfl
  | step _ turn ih => rw [turn.length, ih]

/-- An entry that shows nothing is replaced. -/
theorem filterMap_set_perm {α β : Type} {l : List α} {f : α → Option β} {i : ℕ} {a b : α} (h : l[i]? = some a)
    (ha : f a = none) :
    ((l.set i b).filterMap f).Perm (l.filterMap f ++ (f b).toList) := by
  obtain ⟨hi, rfl⟩ := List.getElem?_eq_some_iff.mp h
  have hl : l = l.take i ++ l[i] :: l.drop (i + 1) := by simp
  have hset : l.set i b = l.take i ++ b :: l.drop (i + 1) := List.set_eq_take_append_cons_drop.trans (if_pos hi)
  have hsame : l.filterMap f = (l.take i).filterMap f ++ (l.drop (i + 1)).filterMap f := by
    conv_lhs => rw [hl]
    rw [List.filterMap_append, List.filterMap_cons_none ha]
  rw [hset, hsame, List.filterMap_append]
  cases hb : f b with
  | none =>
    rw [List.filterMap_cons_none hb]
    simp
  | some y =>
    rw [List.filterMap_cons_some hb]
    exact List.perm_middle.trans (List.perm_append_singleton y _).symm

/-- Since `base`, what returned are the outcomes `os`. -/
def ReturnedSince (base : List (ProbePoint K)) (pool : ProbePool K) (os : List (ProbeOutcome K)) : Prop :=
  ∃ new, pool.requests = base ++ new ∧ os.Perm (new.filterMap (·.outcome?))

omit [Scalar K] in
/-- A request that is sent or goes on, and what it returns with. -/
theorem ReturnedSince.turn {base : List (ProbePoint K)} (hbase : ∀ a ∈ base, a.runs = false)
    (hattended : Attended pool jobs)
    (h : ReturnedSince base pool os) (ht : JobTurn pool jobs pool' jobs' os') : ReturnedSince base pool' (os ++ os') := by
  obtain ⟨new, hnew, hperm⟩ := h
  have hput : ∀ {i k : ℕ} {p : CanaryProbe} {b : ProbePoint K}, asking jobs i = some k →
      ReturnedSince base (pool.put k p b) (os ++ b.outcome?.toList) := fun {i k p b} here => by
    obtain ⟨a, ha, hruns⟩ := hattended.running here
    rw [hnew] at ha
    -- The request that goes on runs, so it is none of those that had returned before.
    have hk : base.length ≤ k := by
      by_contra hlt
      rw [List.getElem?_append_left (not_le.mp hlt)] at ha
      rw [hbase a (List.mem_of_getElem? ha)] at hruns
      cases hruns
    rw [List.getElem?_append_right hk] at ha
    refine ⟨new.set (k - base.length) b, ?_, ?_⟩
    · show pool.requests.set k b = _
      rw [hnew, List.set_append_right _ _ hk]
    · exact (hperm.append_right _).trans (filterMap_set_perm (f := (·.outcome?)) ha (ProbePoint.outcome_of_runs hruns)).symm
  have hsend : ∀ {p : CanaryProbe} {b : ProbePoint K}, b.outcome? = none →
      ReturnedSince base ⟨p, pool.requests ++ [b]⟩ (os ++ []) :=
    fun {p b} hb => by
      refine ⟨new ++ [b], ?_, ?_⟩
      · show pool.requests ++ [b] = _
        rw [hnew, List.append_assoc]
      · rw [List.append_nil, List.filterMap_append, List.filterMap_cons_none hb, List.filterMap_nil, List.append_nil]
        exact hperm
  cases ht with
  | idle here before after =>
    rw [List.append_nil]
    exact ⟨new, hnew, hperm⟩
  | sent here before prompt now rest runs => exact hsend (ProbePoint.outcome_of_runs runs)
  | unsent here before prompt now raised =>
    obtain ⟨r, hr⟩ := raised
    exact hsend (by rw [hr]; rfl)
  | @onward i k p b here booked runs =>
    have h := hput (p := p) (b := b) here
    rwa [ProbePoint.outcome_of_runs runs] at h
  | ended here booked done => exact hput here

theorem ReturnedSince.turns (d : Decoder K) {base : List (ProbePoint K)} {acc : List (ProbeOutcome K)}
    (hbase : ∀ a ∈ base, a.runs = false) (hattended : Attended pool jobs) (h : ReturnedSince base pool acc)
    (ht : JobTurns pool jobs pool' jobs' os) : ReturnedSince base pool' (acc ++ os) := by
  induction ht with
  | refl =>
    rw [List.append_nil]
    exact h
  | step turns turn ih =>
    rw [← List.append_assoc]
    exact ih.turn hbase (hattended.turns d turns) turn

end Turns

/-! ### What a task's step does to its window -/

namespace WindowedProbe
variable {s s' s'' : WindowedProbe K} {w w' w'' : WindowRun K} {os os' : List (ProbeOutcome K)} {i : ℕ} {j : ProbeJob}

/-- A task of the window goes on: what returned is counted, and the window stays where it is. -/
structure Worked (s : WindowedProbe K) (w : WindowRun K) (s' : WindowedProbe K) (w' : WindowRun K)
    (os : List (ProbeOutcome K)) : Prop where
  turns : JobTurns s.pool w.jobs s'.pool w'.jobs os
  window : s'.window = some w'
  table : s'.table = os.foldl (recordOutcome s.settings w.ask.clock) s.table
  settings : s'.settings = s.settings
  ended : s'.ended = s.ended
  ask : w'.ask = w.ask
  point : w'.point = w.point
  outcomes : w'.outcomes = w.outcomes ++ os
  violations : w'.violations = w.violations + os.countP fun o => s.violated o = some true

theorem violated_settings (h : s'.settings = s.settings) (o : ProbeOutcome K) : s'.violated o = s.violated o := by
  rw [violated, violated, h]

theorem Worked.trans (h : Worked s w s' w' os) (h' : Worked s' w' s'' w'' os') : Worked s w s'' w'' (os ++ os') where
  turns := h.turns.trans h'.turns
  window := h'.window
  table := by rw [h'.table, h.table, h.settings, h.ask, List.foldl_append]
  settings := h'.settings.trans h.settings
  ended := h'.ended.trans h.ended
  ask := h'.ask.trans h.ask
  point := h'.point.trans h.point
  outcomes := by rw [h'.outcomes, h.outcomes, List.append_assoc]
  violations := by
    have hv := h'.violations
    simp only [violated_settings h.settings] at hv
    rw [hv, h.violations, List.countP_append, add_assoc]

/-- A task moves without a request. -/
theorem worked_setJob {j' : ProbeJob} (here : w.jobs[i]? = some j) (before : j.request? = none) (after : j'.request? = none)
    (stopping : List ℕ) :
    Worked s w (s.goOn { w.setJob i j' with stopping }) { w.setJob i j' with stopping } [] where
  turns := (JobTurn.idle here before after).turns
  window := rfl
  table := rfl
  settings := rfl
  ended := rfl
  ask := rfl
  point := rfl
  outcomes := (List.append_nil _).symm
  violations := rfl

omit [Scalar K] in
/-- A request is sent, or no prompt can be drawn for it. -/
theorem request_point (p : CanaryProbe) (prompt : ℤ) (now : K) :
    (∃ r, (p.request prompt now).2 = .raised r) ∨ (p.request prompt now).2.runs = true := by
  unfold CanaryProbe.request
  split_ifs
  · exact .inl ⟨_, rfl⟩
  · cases p.model <;> exact .inr rfl

theorem worked_ask (here : w.jobs[i]? = some j) (before : j.request? = none) (prompt : ℕ) (rest : List ℕ) (now : K) :
    ∃ w', Worked s w (s.ask w i prompt rest now) w' [] := by
  rcases request_point s.pool.probe (prompt : ℤ) now with ⟨r, hr⟩ | hruns
  · refine ⟨w.setJob i .finished, (JobTurn.unsent here before (prompt : ℤ) now ⟨r, hr⟩).turns, ?_, rfl, rfl, rfl, rfl, rfl,
      (List.append_nil _).symm, rfl⟩
    simp only [WindowedProbe.ask, hr]
  · refine ⟨w.setJob i (.asks s.pool.requests.length rest),
      (JobTurn.sent here before (prompt : ℤ) now rest hruns).turns, ?_, rfl,
      rfl, rfl, rfl, rfl, (List.append_nil _).symm, rfl⟩
    unfold WindowedProbe.ask
    cases hpoint : (s.pool.probe.request (prompt : ℤ) now).2
    case raised r =>
      rw [hpoint] at hruns
      cases hruns
    all_goals simp only [hpoint]

/-- A worker goes on to its next prompt. -/
theorem worked_nextPrompt (here : w.jobs[i]? = some j) (before : j.request? = none) (prompts : List ℕ) (now : K) :
    ∃ w', Worked s w (s.nextPrompt w i prompts now) w' [] := by
  cases prompts with
  | nil => exact ⟨_, worked_setJob here before rfl w.stopping⟩
  | cons prompt rest =>
    unfold nextPrompt
    dsimp only
    split_ifs
    · exact ⟨_, worked_setJob here before rfl w.stopping⟩
    · exact worked_ask here before prompt rest now

/-- Which place a task leaves does not matter to where it goes. -/
theorem nextPrompt_setJob (x : Option (WindowRun K)) (prompts : List ℕ) (now : K) :
    nextPrompt { s with window := x } (w.setJob i j) i prompts now = s.nextPrompt w i prompts now := by
  have hset : ∀ j', (w.setJob i j).setJob i j' = w.setJob i j' := fun j' => by
    rw [WindowRun.setJob, WindowRun.setJob, List.set_set]
    rfl
  cases prompts with
  | nil =>
    unfold nextPrompt
    rw [hset]
    rfl
  | cons prompt rest =>
    have hask : WindowedProbe.ask { s with window := x } (w.setJob i j) i prompt rest now = s.ask w i prompt rest now := by
      unfold WindowedProbe.ask
      simp only [hset]
    unfold nextPrompt
    dsimp only
    rw [hset, hask]
    rfl

/-- A request returned: its outcome is counted, and its task goes on. -/
theorem worked_returned {k : ℕ} {p : CanaryProbe} {o : ProbeOutcome K} (here : asking w.jobs i = some k)
    (booked : s.pool.Booked → (s.pool.put k p (.returned o)).Booked) (rest : List ℕ) (now : K) :
    ∃ w', Worked s w (returned { s with pool := s.pool.put k p (.returned o) } w i rest now o) w' [o] := by
  obtain ⟨j, hj, -⟩ := Option.bind_eq_some_iff.mp here
  have hi := (List.getElem?_eq_some_iff.mp hj).1
  -- The outcome is counted while the task stands finished; then it goes on.
  let counted : WindowRun K := { w with
    outcomes := w.outcomes ++ [o]
    violations := if s.violated o = some true then w.violations + 1 else w.violations }
  let mid : WindowRun K := counted.setJob i .finished
  let learned : WindowedProbe K := { s with
    pool := s.pool.put k p (.returned o)
    table := recordOutcome s.settings w.ask.clock s.table o }
  let after : WindowedProbe K := { learned with window := some mid }
  have hcount : Worked s w after mid [o] :=
    { turns := (JobTurn.ended here booked rfl).turns
      window := rfl
      table := rfl
      settings := rfl
      ended := rfl
      ask := rfl
      point := rfl
      outcomes := rfl
      violations := by
        show (if _ then _ else _) = _
        rw [List.countP_singleton]
        split_ifs with h₁ h₂ h₂
        · rfl
        · exact absurd (by simpa using h₁) h₂
        · exact absurd (by simpa using h₂) h₁
        · rfl }
  have hplace : mid.jobs[i]? = some .finished := List.getElem?_set_self hi
  obtain ⟨w', hw'⟩ := worked_nextPrompt (s := after) hplace rfl rest now
  refine ⟨w', ?_⟩
  have hsame : after.nextPrompt mid i rest now =
      returned { s with pool := s.pool.put k p (.returned o) } w i rest now o :=
    nextPrompt_setJob (s := learned) (w := counted) (some mid) rest now
  rw [← hsame]
  exact hcount.trans hw'

/-- A task begins. -/
theorem worked_begin {now : K} (h : s.begin w i now = some s') : ∃ w', Worked s w s' w' [] := by
  unfold begin at h
  cases hj : w.jobs[i]? with
  | none => simp [hj] at h
  | some j =>
    rw [hj] at h
    cases j
    case fresh spread prompts =>
      simp only at h
      split_ifs at h with hstop hspread
      · obtain rfl := Option.some.inj h
        exact ⟨_, worked_setJob hj rfl rfl _⟩
      · obtain rfl := Option.some.inj h
        exact ⟨_, worked_setJob hj rfl rfl w.stopping⟩
      · cases prompts with
        | nil =>
          obtain rfl := Option.some.inj h
          exact ⟨_, worked_setJob hj rfl rfl w.stopping⟩
        | cons prompt rest =>
          obtain rfl := Option.some.inj h
          exact worked_ask hj rfl prompt rest now
    all_goals cases h

/-- A worker's start is spread out; it wakes up. -/
theorem worked_wake {now : K} (h : s.wake w i now = some s') : ∃ w', Worked s w s' w' [] := by
  unfold wake at h
  cases hj : w.jobs[i]? with
  | none => simp [hj] at h
  | some j =>
    rw [hj] at h
    cases j
    case asleep prompts =>
      simp only at h
      split_ifs at h with hstop
      · obtain rfl := Option.some.inj h
        exact ⟨_, worked_setJob hj rfl rfl _⟩
      · obtain rfl := Option.some.inj h
        exact worked_nextPrompt hj rfl prompts now
    all_goals cases h

/-- The request of a task goes on from its await. -/
theorem worked_resumeRequest {d : Decoder K} {k : ℕ} {rest : List ℕ} {now : K} {answer : ProbeAnswer K}
    (here : asking w.jobs i = some k) (h : resumeRequest d s w i k rest now answer = some s') :
    ∃ w' os, Worked s w s' w' os := by
  obtain ⟨pool, hpool, h⟩ := Option.bind_eq_some_iff.mp h
  have hbooked : s.pool.Booked → pool.Booked := fun hb => hb.step hpool
  obtain ⟨a, ha, hrest⟩ := Option.bind_eq_some_iff.mp hpool
  obtain ⟨⟨p, b⟩, -, hput⟩ := Option.bind_eq_some_iff.mp hrest
  obtain rfl : s.pool.put k p b = pool := Option.some.inj hput
  have hget : (s.pool.put k p b).requests[k]? = some b := by rw [ProbePool.getElem?_put ha, if_pos rfl]
  rw [hget] at h
  cases b
  case returned o =>
    obtain rfl := Option.some.inj h
    obtain ⟨w', hw'⟩ := worked_returned here hbooked rest now
    exact ⟨w', _, hw'⟩
  case raised r =>
    obtain rfl := Option.some.inj h
    exact ⟨w.setJob i .finished, [], (JobTurn.ended here hbooked rfl).turns, rfl, rfl, rfl, rfl, rfl, rfl,
      (List.append_nil _).symm, rfl⟩
  all_goals
    obtain rfl := Option.some.inj h
    exact ⟨w, [], (JobTurn.onward here hbooked rfl).turns, rfl, rfl, rfl, rfl, rfl, rfl, (List.append_nil _).symm, rfl⟩

theorem worked_job {d : Decoder K} {now : K} {answer : ProbeAnswer K} (h : job d s w i now answer = some s') :
    ∃ w' os, Worked s w s' w' os := by
  unfold job at h
  cases hj : w.jobs[i]? with
  | none => simp [hj] at h
  | some j =>
    rw [hj] at h
    cases j
    case asks k rest =>
      simp only at h
      split_ifs at h with hpermits
      have here : asking (told w i).jobs i = some k := asking_of hj
      obtain ⟨w', os, hw⟩ := worked_resumeRequest here h
      exact ⟨w', os, hw.turns, hw.window, hw.table, hw.settings, hw.ended, hw.ask, hw.point, hw.outcomes, hw.violations⟩
    all_goals cases h

end WindowedProbe

end CanaTune
