import CanaTune.Theorems.ProbeTasks

/-! What the probe's windows leave behind. A window leaves only when its tasks are over, so the next one finds the probe
    clear. -/

namespace CanaTune
variable {K : Type} [Scalar K]

/-! ### What the window's own step does -/

/-- Where none of the tasks has begun, or each one is over. -/
def WindowPoint.untasked : WindowPoint K → Bool
  | locking => true
  | sizing => true
  | opening => true
  | counting => true
  | firstSample => true
  | leaving _ => true
  | _ => false

/-- Where the window may leave, no task is left. -/
def WindowRun.Settled (w : WindowRun K) : Prop := w.point.untasked = true → w.isQuiet = true

namespace WindowedProbe

/-- The window goes on: its tasks await what they awaited, and it has counted nothing. -/
structure Resumed (s : WindowedProbe K) (w : WindowRun K) (s' : WindowedProbe K) (w' : WindowRun K) : Prop where
  pool : s'.pool = s.pool
  window : s'.window = some w'
  table : s'.table = s.table
  settings : s'.settings = s.settings
  ended : s'.ended = s.ended
  ask : w'.ask = w.ask
  outcomes : w'.outcomes = w.outcomes
  violations : w'.violations = w.violations
  asking : ∀ m, asking w'.jobs m = CanaTune.asking w.jobs m
  settled : w'.Settled
  workers : ∀ clock c seconds mix, w.ask = .closed clock c seconds mix → w.jobs.length ≤ c → w'.jobs.length ≤ c

/-- The window is over. -/
structure Finished (s : WindowedProbe K) (w : WindowRun K) (s' : WindowedProbe K) : Prop where
  quiet : w.isQuiet = true
  pool : s'.pool = s.pool
  window : s'.window = none
  table : s'.table = s.table
  settings : s'.settings = s.settings
  ended : ∃ r, s'.ended = s.ended ++ [r] ∧ ∀ x, r = .ok x → w.result s.settings s.kvTokens = .ok x

variable {s s' : WindowedProbe K} {w w' : WindowRun K}

omit [Scalar K] in
/-- A window that stays as it is but for its point and readings. -/
theorem resumed_goOn (hask : w'.ask = w.ask) (houtcomes : w'.outcomes = w.outcomes)
    (hviolations : w'.violations = w.violations)
    (hjobs : w'.jobs = w.jobs) (hsettled : w'.Settled) : Resumed s w (s.goOn w') w' where
  pool := rfl
  window := rfl
  table := rfl
  settings := rfl
  ended := rfl
  ask := hask
  outcomes := houtcomes
  violations := hviolations
  asking m := by rw [hjobs]
  settled := hsettled
  workers _ _ _ _ _ hle := hjobs ▸ hle

omit [Scalar K] in
theorem settled_unwind (w : WindowRun K) (pending : Option Raised) : (w.unwind pending).Settled := fun h => by cases h

omit [Scalar K] in
theorem resumed_unwind (pending : Option Raised) : Resumed s w (s.goOn (w.unwind pending)) (w.unwind pending) :=
  resumed_goOn rfl rfl rfl rfl (settled_unwind w pending)

omit [Scalar K] in
theorem settled_drain (w : WindowRun K) : w.drain.Settled := fun h => by
  have hpoint : w.drain.point.untasked = false := by
    unfold WindowRun.drain WindowRun.goTo
    dsimp only
    split <;> rfl
  rw [hpoint] at h
  cases h

/-- Arrivals that are due become tasks, and none of them has begun. -/
structure Launched (w w' : WindowRun K) : Prop where
  ask : w'.ask = w.ask
  outcomes : w'.outcomes = w.outcomes
  violations : w'.violations = w.violations
  asking : ∀ m, asking w'.jobs m = CanaTune.asking w.jobs m
  settled : w'.Settled

theorem launched_launch (settings : WindowSettings K) (abortAbove : K) (todo : List (K × ℕ)) :
    ∀ (clock : ℕ → K) (w : WindowRun K), Launched w (w.launch settings abortAbove todo clock) := by
  induction todo with
  | nil => exact fun clock w => ⟨rfl, rfl, rfl, fun _ => rfl, settled_drain w⟩
  | cons arrival rest ih =>
    intro clock w
    unfold WindowRun.launch
    dsimp only
    split_ifs
    · exact ⟨rfl, rfl, rfl, fun _ => rfl, settled_unwind w _⟩
    · exact ⟨rfl, rfl, rfl, fun _ => rfl, settled_drain _⟩
    · have h := ih (fun k => clock (k + 1)) { w with jobs := w.jobs ++ [.fresh false [arrival.2]] }
      exact ⟨h.ask, h.outcomes, h.violations, fun m => (h.asking m).trans (asking_append_fresh false _ m), h.settled⟩
    · exact ⟨rfl, rfl, rfl, fun _ => rfl, fun h => by cases h⟩

omit [Scalar K] in
theorem Launched.resumed (h : Launched w w') (hopen : ∀ clock c seconds mix, w.ask ≠ .closed clock c seconds mix) :
    Resumed s w (s.goOn w') w' where
  pool := rfl
  window := rfl
  table := rfl
  settings := rfl
  ended := rfl
  ask := h.ask
  outcomes := h.outcomes
  violations := h.violations
  asking := h.asking
  settled := h.settled
  workers clock c seconds mix hask := absurd hask (hopen clock c seconds mix)

theorem finished_finish (hquiet : w.isQuiet = true) {r : Except Raised (ProbeWindow K)}
    (hr : ∀ x, r = .ok x → w.result s.settings s.kvTokens = .ok x) : Finished s w (s.finish r) :=
  ⟨hquiet, rfl, rfl, rfl, rfl, r, rfl, hr⟩

omit [Scalar K] in
/-- The tasks of a window whose tasks are all over await nothing. -/
theorem asking_of_quiet (h : w.isQuiet = true) (m : ℕ) : asking w.jobs m = none :=
  asking_of_over (fun j hj => List.all_eq_true.mp h j hj) m

omit [Scalar K] in
theorem length_workers (lengths : LengthStats) (maxPrompt : Option ℕ) (draws : Draws K) (c : ℕ) (mix : Mix) :
    (lengths.workers maxPrompt draws c mix).length = c := by
  unfold LengthStats.workers
  rw [List.length_map, List.length_range]

omit [Scalar K] in
/-- The workers of a closed window start. -/
theorem resumed_launchWorkers {w₀ : WindowRun K} {prompts : List (List ℕ)} {clock : ClockPoint} {c : ℕ}
    {seconds : K} {mix : Mix}
    (hquiet : w.isQuiet = true) (hask : w₀.ask = w.ask) (houtcomes : w₀.outcomes = w.outcomes)
    (hviolations : w₀.violations = w.violations) (hclosed : w.ask = .closed clock c seconds mix)
    (hlength : prompts.length = c) :
    Resumed s w (s.goOn (w₀.launchWorkers prompts)) (w₀.launchWorkers prompts) := by
  have hjobs : (w₀.launchWorkers prompts).jobs = prompts.map (.fresh true) := by
    unfold WindowRun.launchWorkers
    dsimp only
    split_ifs <;> rfl
  have hrest : (w₀.launchWorkers prompts).ask = w₀.ask ∧ (w₀.launchWorkers prompts).outcomes = w₀.outcomes ∧
      (w₀.launchWorkers prompts).violations = w₀.violations ∧ (w₀.launchWorkers prompts).point.untasked = false := by
    unfold WindowRun.launchWorkers
    dsimp only
    split_ifs <;> exact ⟨rfl, rfl, rfl, rfl⟩
  obtain ⟨h₁, h₂, h₃, hpoint⟩ := hrest
  refine ⟨rfl, rfl, rfl, rfl, rfl, h₁.trans hask, h₂.trans houtcomes, h₃.trans hviolations, fun m => ?_, fun h => ?_,
    fun c' k s' m' hc _ => ?_⟩
  · rw [hjobs, asking_map_fresh, asking_of_quiet hquiet]
  · rw [hpoint] at h
    cases h
  · obtain ⟨-, rfl, -, -⟩ := WindowAsk.closed.inj (hclosed.symm.trans hc)
    rw [hjobs, List.length_map, hlength]

/-- The first sample is in. -/
theorem resumed_sampled (hquiet : w.isQuiet = true) (x : WindowSample K) (lengths : LengthStats) (draws : Draws K)
    (clock : ℕ → K) : ∃ w', Resumed s w (s.sampled w x lengths draws clock) w' := by
  unfold sampled
  dsimp only
  split
  · next abortAbove hask =>
    have h := launched_launch s.settings abortAbove w.arrivals (fun k => clock (k + 1))
      { w with samples := w.samples ++ [x], sampling := true, start := clock 0 }
    refine ⟨_, Launched.resumed (w := w) ⟨h.ask, h.outcomes, h.violations, h.asking, h.settled⟩ fun c k s' m hc => ?_⟩
    have hbad := hask.symm.trans hc
    cases hbad
  · next concurrency seconds mix hask =>
    let v : WindowRun K := { w with samples := w.samples ++ [x], sampling := true, start := clock 0 }
    exact ⟨v.launchWorkers (lengths.workers s.promptLimit draws concurrency mix),
      resumed_launchWorkers hquiet rfl rfl rfl hask (length_workers lengths s.promptLimit draws concurrency mix)⟩

theorem resumed_slept (hs : s.window = some w) {todo : List (K × ℕ)} (hp : w.point = .launching todo) (clock : ℕ → K) :
    ∃ w', Resumed s w (s.slept w todo clock) w' := by
  unfold slept
  split
  · next abortAbove hask =>
    refine ⟨_, (launched_launch s.settings abortAbove todo clock w).resumed fun c k s' m hc => ?_⟩
    have hbad := hask.symm.trans hc
    cases hbad
  · refine ⟨w, rfl, hs, rfl, rfl, rfl, rfl, rfl, rfl, fun _ => rfl, fun h => ?_, fun _ _ _ _ _ hle => hle⟩
    rw [hp] at h
    cases h

theorem resumed_locked (hquiet : w.isQuiet = true) (lengths : LengthStats) (draws : Draws K) :
    (∃ w', Resumed s w (s.locked w lengths draws) w') ∨ Finished s w (s.locked w lengths draws) := by
  unfold locked
  split
  · split
    · exact .inr (finished_finish hquiet fun x hx => by cases hx)
    · exact .inl ⟨_, resumed_goOn rfl rfl rfl rfl fun _ => hquiet⟩
  · exact .inl ⟨_, resumed_goOn rfl rfl rfl rfl fun _ => hquiet⟩

/-- One step of the window itself: it goes on, or it is over and none of its tasks is left. -/
theorem resumed_resume (hs : s.window = some w) (hsettled : w.Settled) {p : WindowPoint K} (hp : w.point = p)
    {answer : WindowAnswer K} (h : s.resume w p answer = some s') : (∃ w', Resumed s w s' w') ∨ Finished s w s' := by
  have hquiet : p.untasked = true → w.isQuiet = true := fun hu => hsettled (hp ▸ hu)
  have hfail : ∀ r, w.isQuiet = true → Finished s w (s.finish (.error r)) := fun r hq =>
    finished_finish hq fun x hx => by cases hx
  cases p with
  | locking =>
    have hq := hquiet rfl
    cases answer
    case locked lengths draws => exact Option.some.inj h ▸ resumed_locked hq lengths draws
    case raised r => exact Option.some.inj h ▸ .inr (hfail r hq)
    all_goals cases h
  | sizing =>
    have hq := hquiet rfl
    cases answer
    case capacity tokens =>
      obtain rfl := Option.some.inj h
      exact .inl ⟨w.goTo .opening, rfl, rfl, rfl, rfl, rfl, rfl, rfl, rfl, fun _ => rfl, fun _ => hq,
        fun _ _ _ _ _ hle => hle⟩
    case raised r => exact Option.some.inj h ▸ .inr (hfail r hq)
    all_goals cases h
  | opening =>
    have hq := hquiet rfl
    cases answer
    case client => exact Option.some.inj h ▸ .inl ⟨_, resumed_goOn rfl rfl rfl rfl fun _ => hq⟩
    case raised r => exact Option.some.inj h ▸ .inr (hfail r hq)
    all_goals cases h
  | counting =>
    have hq := hquiet rfl
    cases answer
    case count tokens => exact Option.some.inj h ▸ .inl ⟨_, resumed_goOn rfl rfl rfl rfl fun _ => hq⟩
    case raised r => exact Option.some.inj h ▸ .inl ⟨_, resumed_goOn rfl rfl rfl rfl fun _ => hq⟩
    all_goals cases h
  | firstSample =>
    have hq := hquiet rfl
    cases answer
    case sample x lengths draws clock => exact Option.some.inj h ▸ .inl (resumed_sampled hq x lengths draws clock)
    case raised r => exact Option.some.inj h ▸ .inl ⟨_, resumed_goOn rfl rfl rfl rfl fun _ => hq⟩
    all_goals cases h
  | launching todo =>
    cases answer
    case slept clock => exact Option.some.inj h ▸ .inl (resumed_slept hs hp clock)
    case raised r => exact Option.some.inj h ▸ .inl ⟨_, resumed_unwind _⟩
    all_goals cases h
  | draining =>
    cases answer
    case waited => exact Option.some.inj h ▸ .inl ⟨_, resumed_goOn rfl rfl rfl rfl fun hu => by cases hu⟩
    case raised r => exact Option.some.inj h ▸ .inl ⟨_, resumed_unwind _⟩
    all_goals cases h
  | lastSample =>
    cases answer
    case sample x lengths draws clock =>
      exact Option.some.inj h ▸ .inl ⟨_, resumed_goOn rfl rfl rfl rfl fun hu => by cases hu⟩
    case raised r => exact Option.some.inj h ▸ .inl ⟨_, resumed_unwind _⟩
    all_goals cases h
  | lastCount =>
    cases answer
    case count tokens => exact Option.some.inj h ▸ .inl ⟨_, resumed_goOn rfl rfl rfl rfl fun hu => by cases hu⟩
    case raised r => exact Option.some.inj h ▸ .inl ⟨_, resumed_unwind _⟩
    all_goals cases h
  | gathering pending =>
    -- The gather is answered, and can be cancelled, only once the tasks are over.
    cases answer
    case gathered =>
      simp only [resume, Option.ite_none_right_eq_some] at h
      obtain ⟨hq, rfl⟩ := h.imp_right Option.some.inj
      exact .inl ⟨_, resumed_goOn rfl rfl rfl rfl fun _ => hq⟩
    case raised r =>
      cases r with
      | error e => cases h
      | cancelled =>
        simp only [resume, Option.ite_none_right_eq_some] at h
        obtain ⟨hq, rfl⟩ := h.imp_right Option.some.inj
        exact .inl ⟨_, resumed_goOn rfl rfl rfl rfl fun _ => hq⟩
    all_goals cases h
  | leaving pending =>
    have hq := hquiet rfl
    cases answer
    case left =>
      obtain rfl := Option.some.inj h
      cases pending with
      | some r => exact .inr (hfail r hq)
      | none => exact .inr (finished_finish hq fun x hx => hx)
    case raised r => exact Option.some.inj h ▸ .inr (hfail r hq)
    all_goals cases h

/-! ### Runs -/

omit [Scalar K] in
theorem busy_of {i : ℕ} {j : ProbeJob} (hj : w.jobs[i]? = some j) (h : j.isOver = false) : w.isQuiet = false := by
  refine Bool.eq_false_iff.mpr fun hq => ?_
  rw [List.all_eq_true.mp hq j (List.mem_of_getElem? hj)] at h
  cases h

/-- A task that goes on is not over. -/
theorem busy_step {i : ℕ} {now : K}
    (h : s.begin w i now = some s' ∨ s.wake w i now = some s' ∨ ∃ d answer, job d s w i now answer = some s') :
    w.isQuiet = false := by
  cases hj : w.jobs[i]? with
  | none => simp [begin, wake, job, hj] at h
  | some j =>
    cases j
    case finished => simp [begin, wake, job, hj] at h
    all_goals exact busy_of hj rfl

/-- What a step can be. -/
inductive WindowStep (s : WindowedProbe K) : WindowEvent K → WindowedProbe K → Prop
  | opened (ask : WindowAsk K) (idle : s.window = none) : WindowStep s (.window ask) (s.goOn (.of ask))
  | worked {e : WindowEvent K} {s' : WindowedProbe K} {w w' : WindowRun K} {os : List (ProbeOutcome K)}
      (here : s.window = some w) (busy : w.isQuiet = false) (worked : Worked s w s' w' os) : WindowStep s e s'
  | resumed {e : WindowEvent K} {s' : WindowedProbe K} {w w' : WindowRun K} (here : s.window = some w)
      (resumed : Resumed s w s' w') : WindowStep s e s'
  | finished {e : WindowEvent K} {s' : WindowedProbe K} {w : WindowRun K} (here : s.window = some w)
      (finished : Finished s w s') : WindowStep s e s'
  | limited {e : WindowEvent K} (maxPrompt : Option ℕ) : WindowStep s e { s with promptLimit := maxPrompt }

theorem windowStep_of {d : Decoder K} {e : WindowEvent K} (hsettled : ∀ w, s.window = some w → w.Settled)
    (h : s.step d e = some s') : WindowStep s e s' := by
  cases e with
  | window ask =>
    simp only [step, Option.ite_none_right_eq_some] at h
    obtain ⟨hidle, rfl⟩ := h.imp_right Option.some.inj
    exact .opened ask (Option.isNone_iff_eq_none.mp hidle)
  | main answer =>
    obtain ⟨w, hw, h⟩ := Option.bind_eq_some_iff.mp h
    rcases resumed_resume hw (hsettled w hw) rfl h with ⟨w', hr⟩ | hf
    · exact .resumed hw hr
    · exact .finished hw hf
  | begin i now =>
    obtain ⟨w, hw, h⟩ := Option.bind_eq_some_iff.mp h
    obtain ⟨w', hr⟩ := worked_begin h
    exact .worked hw (busy_step (.inl h)) hr
  | wake i now =>
    obtain ⟨w, hw, h⟩ := Option.bind_eq_some_iff.mp h
    obtain ⟨w', hr⟩ := worked_wake h
    exact .worked hw (busy_step (.inr (.inl h))) hr
  | job i now answer =>
    obtain ⟨w, hw, h⟩ := Option.bind_eq_some_iff.mp h
    obtain ⟨w', os, hr⟩ := worked_job h
    exact .worked hw (busy_step (.inr (.inr ⟨d, answer, h⟩))) hr
  | sampled x =>
    obtain ⟨w, hw, h⟩ := Option.bind_eq_some_iff.mp h
    simp only [Option.ite_none_right_eq_some] at h
    obtain ⟨-, rfl⟩ := h.imp_right Option.some.inj
    exact .resumed hw (resumed_goOn rfl rfl rfl rfl (hsettled w hw))
  | limit maxPrompt => exact Option.some.inj h ▸ .limited maxPrompt

/-- The tasks of the window in progress. -/
def jobs (s : WindowedProbe K) : List ProbeJob := (s.window.map (·.jobs)).getD []

/-- Every request that runs is awaited by a task of the window in progress, and a window leaves without tasks. -/
structure Tended (s : WindowedProbe K) : Prop where
  attended : Attended s.pool s.jobs
  settled : ∀ w, s.window = some w → w.Settled
  workers : ∀ w clock c seconds mix, s.window = some w → w.ask = .closed clock c seconds mix → w.jobs.length ≤ c

omit [Scalar K] in
theorem jobs_of (h : s.window = some w) : s.jobs = w.jobs := by
  rw [jobs, h]
  rfl

omit [Scalar K] in
theorem jobs_of_none (h : s.window = none) : s.jobs = [] := by
  rw [jobs, h]
  rfl

theorem Tended.next {d : Decoder K} {e : WindowEvent K} (ht : s.Tended) (h : s.step d e = some s') : s'.Tended := by
  cases windowStep_of ht.settled h with
  | opened ask idle =>
    refine ⟨?_, fun w hw => ?_, fun w _ _ _ _ hw _ => ?_⟩
    · have h := ht.attended
      rw [jobs_of_none idle] at h
      exact h
    · obtain rfl := Option.some.inj hw
      exact fun _ => rfl
    · obtain rfl := Option.some.inj hw
      exact Nat.zero_le _
  | @worked _ _ w w' os here busy worked =>
    refine ⟨?_, fun v hv => ?_, fun v clock c seconds mix hv hask => ?_⟩
    · rw [jobs_of worked.window]
      exact (jobs_of here ▸ ht.attended).turns d worked.turns
    · obtain rfl := Option.some.inj (worked.window.symm.trans hv)
      intro hu
      rw [worked.point] at hu
      rw [ht.settled w here hu] at busy
      cases busy
    · obtain rfl := Option.some.inj (worked.window.symm.trans hv)
      rw [worked.turns.length]
      exact ht.workers w clock c seconds mix here (worked.ask ▸ hask)
  | @resumed _ _ w w' here resumed =>
    refine ⟨?_, fun v hv => ?_, fun v clock c seconds mix hv hask => ?_⟩
    · rw [jobs_of resumed.window, resumed.pool]
      exact (jobs_of here ▸ ht.attended).same resumed.asking
    · obtain rfl := Option.some.inj (resumed.window.symm.trans hv)
      exact resumed.settled
    · obtain rfl := Option.some.inj (resumed.window.symm.trans hv)
      have hask := resumed.ask ▸ hask
      exact resumed.workers clock c seconds mix hask (ht.workers w clock c seconds mix here hask)
  | @finished _ _ w here finished =>
    refine ⟨?_, fun v hv => ?_, fun v _ _ _ _ hv _ => ?_⟩
    · rw [jobs_of_none finished.window, finished.pool]
      refine (jobs_of here ▸ ht.attended).same fun m => ?_
      rw [asking_of_quiet finished.quiet]
      rfl
    · rw [finished.window] at hv
      cases hv
    · rw [finished.window] at hv
      cases hv
  | limited maxPrompt => exact ⟨ht.attended, ht.settled, ht.workers⟩

theorem Tended.run {d : Decoder K} {es : List (WindowEvent K)} (ht : s.Tended) (h : s.run d es = some s') : s'.Tended := by
  induction es generalizing s with
  | nil =>
    obtain rfl := Option.some.inj h
    exact ht
  | cons e es ih =>
    obtain ⟨u, hu, h⟩ := Option.bind_eq_some_iff.mp h
    exact ih (ht.next hu) h

omit [Scalar K] in
theorem tended_fresh (settings : WindowSettings K) (connector : Connector) (vocabLow vocabHigh : ℤ) (table : RiskTable) :
    (fresh settings connector vocabLow vocabHigh table).Tended where
  attended := by
    refine ⟨ProbePool.booked_fresh connector vocabLow vocabHigh, fun hk _ => ?_, fun hi => ?_, fun hi _ => ?_⟩
    · cases hk
    · cases hi
    · cases hi
  settled w hw := by cases hw
  workers w _ _ _ _ hw _ := by cases hw

theorem tended_of_run {settings : WindowSettings K} {connector : Connector} {vocabLow vocabHigh : ℤ} {table : RiskTable}
    {d : Decoder K} {es : List (WindowEvent K)}
    (hrun : (fresh settings connector vocabLow vocabHigh table).run d es = some s) :
    s.Tended := (tended_fresh settings connector vocabLow vocabHigh table).run hrun

omit [Scalar K] in
theorem exists_of_asking {jobs : List ProbeJob} {i k : ℕ} (h : asking jobs i = some k) :
    ∃ rest, jobs[i]? = some (.asks k rest) := by
  obtain ⟨j, hj, hk⟩ := Option.bind_eq_some_iff.mp h
  cases j
  case asks k' rest =>
    obtain rfl := Option.some.inj hk
    exact ⟨rest, hj⟩
  all_goals cases hk

omit [Scalar K] in
/-- Without a window no request runs. -/
theorem Tended.over (h : s.Tended) (hidle : s.window = none) : ∀ a ∈ s.pool.requests, a.runs = false := by
  intro a ha
  by_contra hruns
  obtain ⟨k, hk⟩ := List.mem_iff_getElem?.mp ha
  obtain ⟨i, hi⟩ := h.attended.asked hk (Bool.of_not_eq_false hruns)
  rw [jobs_of_none hidle] at hi
  cases hi

/-! ### A small window -/

def smallWindows : WindowSettings ℚ := ⟨10, 500, 200⟩

theorem small_awaits : [0, 1].Pairwise ((· < ·) : ℕ → ℕ → Prop) := List.pairwise_pair.mpr Nat.zero_lt_one

theorem small_prompts : [128, 512].Pairwise ((· < ·) : ℕ → ℕ → Prop) := List.pairwise_pair.mpr (by decide)

def smallRisk : RiskTable := .fresh ⟨[0, 1], [128, 512], small_awaits, small_prompts⟩ 1 Nat.zero_lt_one

theorem small_pair : ∀ e ∈ [((5 : ℕ), (2 : ℕ))], 1 ≤ e.1 ∧ 1 ≤ e.2 := by decide

/-- Prompts of five tokens. -/
def smallLengths : LengthStats where
  default := [(5, 2)]
  default_ne_nil := List.cons_ne_nil _ _
  default_pos := small_pair
  keep := 10
  minSamples := 1
  recent := []

def smallReading (energyMj : ℚ) : GpuReading ℚ := ⟨1500, 50, energyMj, none⟩

def smallSample (time : ℚ) : WindowSample ℚ := ⟨time, smallReading (time * 1000), smallReading (time * 2000), none⟩

def smallAsk : WindowAsk ℚ := .closed ⟨1815, 1050⟩ 1 10 .all

/-- One worker of a closed window makes a request, until the window waits for its chunks. -/
def smallStart : List (WindowEvent ℚ) :=
  [.main (.locked smallLengths ⟨fun _ => 0, fun _ => 0⟩), .main (.capacity (some 1000)), .main .client, .main (.count none),
    .main (.sample (smallSample 0) smallLengths ⟨fun _ => 0, fun _ => 0⟩ fun _ => 0), .begin 0 0, .wake 0 1,
    .job 0 1 (.name "m"),
    .job 0 2 (.prefill 200 (.ok .null)), .job 0 3 (.head 200)]

/-- The request returns after the deadline, and the window ends. -/
def smallEnd : List (WindowEvent ℚ) :=
  [.job 0 4 (.chunk (fun _ => 4) (dataPrefix ++ smallPayload ++ lflf)), .job 0 5 .ended, .job 0 20 .closed, .main .waited,
    .main (.sample (smallSample 20) smallLengths ⟨fun _ => 0, fun _ => 0⟩ fun _ => 0), .main (.count none), .main .gathered,
    .main .left]

def smallProbe : WindowedProbe ℚ := fresh smallWindows .p2pNccl 0 10 smallRisk

/-- In every run of the probe's windows, whatever the order of their steps and wherever they are cancelled, a request that
    runs is made by a task of the window in progress; between two windows no request runs and the counters are clear. -/
theorem clear_between_windows {settings : WindowSettings K} {connector : Connector} {vocabLow vocabHigh : ℤ}
    {table : RiskTable} {d : Decoder K} {es : List (WindowEvent K)}
    (hrun : (fresh settings connector vocabLow vocabHigh table).run d es = some s) :
    (∀ (k : ℕ) (a : ProbePoint K), s.pool.requests[k]? = some a → a.runs = true →
      ∃ (w : WindowRun K) (i : ℕ) (rest : List ℕ), s.window = some w ∧ w.jobs[i]? = some (.asks k rest)) ∧
    (s.window = none → (∀ a ∈ s.pool.requests, a.runs = false) ∧ ProbePool.Clear s.pool.probe) := by
  have h := tended_of_run hrun
  refine ⟨fun k a hk ha => ?_, fun hidle => ?_⟩
  · obtain ⟨i, hi⟩ := h.attended.asked hk ha
    cases hw : s.window with
    | none =>
      rw [jobs_of_none hw] at hi
      cases hi
    | some w =>
      rw [jobs_of hw] at hi
      obtain ⟨rest, hrest⟩ := exists_of_asking hi
      exact ⟨w, i, rest, rfl, hrest⟩
  · have hover := h.over hidle
    exact ⟨hover, h.attended.booked.conserved.clear fun a ha => ProbePoint.request_of_runs (hover a ha)⟩

/-- After the small window. -/
theorem clear_between_windows_small :
    ∃ s, smallProbe.run smallDecoder (.window smallAsk :: (smallStart ++ smallEnd)) = some s ∧
    s.pool.requests.length = 1 ∧ ProbePool.Clear s.pool.probe := by
  have hsome : ((smallProbe.run smallDecoder (.window smallAsk :: (smallStart ++ smallEnd))).map fun s =>
      (s.window.isNone, s.pool.requests.length)) = some (true, 1) := by decide +kernel
  obtain ⟨s, hs, h⟩ := Option.map_eq_some_iff.mp hsome
  obtain ⟨hidle, hlength⟩ := Prod.mk.inj h
  exact ⟨s, hs, hlength, ((clear_between_windows hs).2 (Option.isNone_iff_eq_none.mp hidle)).2⟩

/-! ### How many run -/

/-- Counted by their places. -/
theorem countP_eq_countP_range {α : Type} (p : α → Bool) :
    ∀ l : List α, l.countP p = (List.range l.length).countP fun k => l[k]?.any p
  | [] => rfl
  | a :: l => by
    rw [List.length_cons, List.range_succ_eq_map, List.countP_cons, List.countP_cons, List.countP_map,
      countP_eq_countP_range p l]
    rfl

omit [Scalar K] in
/-- Of the requests that run, each has one of the tasks. -/
theorem Tended.countP_le (h : s.Tended) (hw : s.window = some w) : s.pool.requests.countP (·.runs) ≤ w.jobs.length := by
  have hsub : ((List.range s.pool.requests.length).filter fun k => s.pool.requests[k]?.any (·.runs)) ⊆
      w.jobs.filterMap (·.request?) := by
    intro k hk
    obtain ⟨a, ha, hruns⟩ := (Option.any_eq_true _ _).mp (List.mem_filter.mp hk).2
    obtain ⟨i, hi⟩ := h.attended.asked ha hruns
    rw [jobs_of hw] at hi
    obtain ⟨j, hj, hk⟩ := Option.bind_eq_some_iff.mp hi
    exact List.mem_filterMap.mpr ⟨j, List.mem_of_getElem? hj, hk⟩
  have hle := ((List.nodup_range.filter _).subperm hsub).length_le
  rw [countP_eq_countP_range, List.countP_eq_length_filter]
  exact hle.trans (List.length_filterMap_le _ _)

omit [Scalar K] in
/-- A request awaits its first token or decodes, not both, and only while it runs. -/
theorem countP_awaits_decodes : ∀ l : List (ProbePoint K),
    l.countP (·.awaits) + l.countP (·.decodes) ≤ l.countP (·.runs)
  | [] => le_rfl
  | a :: l => by
    have ih := countP_awaits_decodes l
    have hone : (if a.awaits then 1 else 0) + (if a.decodes then 1 else 0) ≤ if a.runs then 1 else 0 := by
      cases hruns : a.runs with
      | false =>
        have hno := ProbePoint.request_of_runs hruns
        simp [ProbePoint.awaits, ProbePoint.decodes, hno]
      | true =>
        unfold ProbePoint.awaits ProbePoint.decodes
        cases a.request? with
        | none => simp
        | some q => cases hq : q.ttftMs <;> simp [hq]
    simp only [List.countP_cons]
    omega

/-- At every moment of every run a closed window keeps at most its concurrency of requests on the pair, and so do the
    probe's own counters of the requests before and after their first token. -/
theorem closed_concurrency {settings : WindowSettings K} {connector : Connector} {vocabLow vocabHigh : ℤ}
    {table : RiskTable} {d : Decoder K} {es : List (WindowEvent K)}
    (hrun : (fresh settings connector vocabLow vocabHigh table).run d es = some s)
    {clock : ClockPoint} {c : ℕ} {seconds : K} {mix : Mix} (hw : s.window = some w)
    (hask : w.ask = .closed clock c seconds mix) :
    s.pool.requests.countP (·.runs) ≤ c ∧ s.pool.probe.nAwait + s.pool.probe.decoding ≤ c := by
  have h := tended_of_run hrun
  have hconserved := h.attended.booked.conserved
  have hruns : s.pool.requests.countP (·.runs) ≤ c := (h.countP_le hw).trans (h.workers w clock c seconds mix hw hask)
  refine ⟨hruns, ?_⟩
  rw [hconserved.nAwait, hconserved.decoding]
  have hsum := (countP_awaits_decodes s.pool.requests).trans hruns
  exact_mod_cast hsum

/-- While the request of the small window travels. -/
theorem closed_concurrency_small : ∃ s, smallProbe.run smallDecoder (.window smallAsk :: smallStart) = some s ∧
    s.pool.requests.countP (·.runs) = 1 ∧ s.pool.probe.nAwait = 1 ∧
    s.pool.probe.nAwait + s.pool.probe.decoding ≤ (1 : ℕ) := by
  have hsome : ((smallProbe.run smallDecoder (.window smallAsk :: smallStart)).map fun s =>
      (s.window.map (·.ask), s.pool.requests.countP (·.runs), s.pool.probe.nAwait)) = some (some smallAsk, 1, 1) := by
    decide +kernel
  obtain ⟨s, hs, h⟩ := Option.map_eq_some_iff.mp hsome
  obtain ⟨hwindow, h⟩ := Prod.mk.inj h
  obtain ⟨hcount, hawait⟩ := Prod.mk.inj h
  obtain ⟨w, hw, hask⟩ := Option.map_eq_some_iff.mp hwindow
  exact ⟨s, hs, hcount, hawait, (closed_concurrency hs hw hask).2⟩

/-! ### What a window counts -/

/-- What the table learns of an outcome: its violation, where it is clean and the TTFT is known. -/
def learned (settings : WindowSettings K) (o : ProbeOutcome K) : Option Bool :=
  if o.status.isNone then isViolation o.ttftMs o.tpotMs settings.ttftSloMs settings.tpotSloMs else none

/-- The cell of an outcome. -/
def cellOf (buckets : Buckets) (clock : ClockPoint) (o : ProbeOutcome K) : Cell :=
  ⟨clock, buckets.nAwaitBucket o.nAwaitAtSend, buckets.promptBucket o.promptTokens.toNat, o.dBusyAtSend⟩

/-- Requests and violations of a cell. -/
def stats (t : RiskTable) (c : Cell) : ℕ × ℕ := ((t.cells.lookup c).map fun x => (x.admitted, x.violated)).getD (0, 0)

theorem stats_record (t : RiskTable) (c c' : Cell) (v : Bool) :
    stats (t.record c v) c' = if c' = c then ((stats t c).1 + 1, (stats t c).2 + v.toNat) else stats t c' := by
  unfold stats RiskTable.record
  split_ifs with hc
  · subst hc
    dsimp only
    rw [AList.lookup_insert]
    cases t.cells.lookup c' <;> rfl
  · dsimp only
    rw [AList.lookup_insert_ne hc]

theorem recordOutcome_eq (settings : WindowSettings K) (clock : ClockPoint) (t : RiskTable) (o : ProbeOutcome K) :
    recordOutcome settings clock t o = (learned settings o).elim t fun v => t.record (cellOf t.buckets clock o) v := by
  unfold recordOutcome learned
  split_ifs
  · cases isViolation o.ttftMs o.tpotMs settings.ttftSloMs settings.tpotSloMs <;> rfl
  · rfl

theorem recordOutcome_buckets (settings : WindowSettings K) (clock : ClockPoint) (t : RiskTable) (o : ProbeOutcome K) :
    (recordOutcome settings clock t o).buckets = t.buckets := by
  rw [recordOutcome_eq]
  cases learned settings o <;> rfl

/-- Each clean outcome counts once, in its own cell. -/
theorem stats_foldl (settings : WindowSettings K) (clock : ClockPoint) (c : Cell) (os : List (ProbeOutcome K)) :
    ∀ t : RiskTable, stats (os.foldl (recordOutcome settings clock) t) c =
      ((stats t c).1 + os.countP fun o => (learned settings o).isSome ∧ cellOf t.buckets clock o = c,
        (stats t c).2 + os.countP fun o => learned settings o = some true ∧ cellOf t.buckets clock o = c) := by
  induction os with
  | nil => exact fun t => rfl
  | cons o os ih =>
    intro t
    rw [List.foldl_cons, ih, recordOutcome_buckets, recordOutcome_eq, List.countP_cons, List.countP_cons]
    cases hv : learned settings o with
    | none => simp
    | some v =>
      rw [Option.elim_some, stats_record]
      by_cases hc : cellOf t.buckets clock o = c
      · subst hc
        cases v <;> simp [Nat.add_assoc, Nat.add_comm, Nat.add_left_comm]
      · rw [if_neg (Ne.symm hc)]
        simp [hc]

/-- Since the window was asked for, its requests returned with the outcomes `os`, and the table has learned them. -/
structure Tallied (s₀ : WindowedProbe K) (ask : WindowAsk K) (os : List (ProbeOutcome K)) (s : WindowedProbe K) : Prop where
  returned : ReturnedSince s₀.pool.requests s.pool os
  table : s.table = os.foldl (recordOutcome s₀.settings ask.clock) s₀.table
  settings : s.settings = s₀.settings

/-- What a result says of the outcomes. -/
structure Sums (s₀ : WindowedProbe K) (ask : WindowAsk K) (os : List (ProbeOutcome K)) (x : ProbeWindow K) : Prop where
  clock : x.clock = ask.clock
  load : x.load = ask.load
  requests : x.requests = os.countP fun o => o.status.isNone
  violations : x.violations = os.countP fun o => s₀.violated o = some true
  samples : x.samples.map (·.violated) = (os.filter fun o => o.status.isNone).map s₀.violated

/-- The window is in progress. -/
def InWindow (s₀ : WindowedProbe K) (ask : WindowAsk K) (s : WindowedProbe K) : Prop :=
  ∃ w, s.window = some w ∧ w.ask = ask ∧ Tallied s₀ ask w.outcomes s ∧
    w.violations = (w.outcomes.countP fun o => s₀.violated o = some true) ∧ s.ended = s₀.ended

/-- The window is over. -/
def PastWindow (s₀ : WindowedProbe K) (ask : WindowAsk K) (s : WindowedProbe K) : Prop :=
  s.window = none ∧ ∃ os r, Tallied s₀ ask os s ∧ s.ended = s₀.ended ++ [r] ∧ ∀ x, r = .ok x → Sums s₀ ask os x

theorem sums_result {s₀ : WindowedProbe K} {kvTokens : Option ℕ} {x : ProbeWindow K}
    (hviolations : w.violations = w.outcomes.countP fun o => s₀.violated o = some true)
    (hx : w.result s₀.settings kvTokens = .ok x) : Sums s₀ w.ask w.outcomes x := by
  unfold WindowRun.result at hx
  split at hx
  · obtain rfl := Except.ok.inj hx
    refine ⟨rfl, rfl, ?_, ?_, ?_⟩
    · show ((w.outcomes.filter fun o => o.status.isNone).length : ℤ) = _
      rw [List.countP_eq_length_filter]
    · show (w.violations : ℤ) = _
      rw [hviolations]
    · show (w.probeSamples s₀.settings).map (·.violated) = _
      rw [WindowRun.probeSamples, List.map_map]
      rfl
  · cases hx

/-- One step of the window or of a task. -/
theorem InWindow.next {s₀ : WindowedProbe K} {ask : WindowAsk K} {d : Decoder K} {e : WindowEvent K} (ht : s.Tended)
    (hbase : ∀ a ∈ s₀.pool.requests, a.runs = false) (hin : InWindow s₀ ask s) (h : s.step d e = some s') :
    InWindow s₀ ask s' ∨ PastWindow s₀ ask s' := by
  obtain ⟨w, hw, rfl, htally, hviolations, hended⟩ := hin
  -- The window in progress is the one the step found.
  have hsame : ∀ {v}, s.window = some v → v = w := fun hv => Option.some.inj (hv.symm.trans hw)
  cases windowStep_of ht.settled h with
  | opened ask idle =>
    rw [hw] at idle
    cases idle
  | @worked _ _ v w' os here busy worked =>
    obtain rfl := hsame here
    refine .inl ⟨w', worked.window, worked.ask, ⟨?_, ?_, worked.settings.trans htally.settings⟩, ?_,
      worked.ended.trans hended⟩
    · rw [worked.outcomes]
      exact htally.returned.turns d hbase (jobs_of here ▸ ht.attended) worked.turns
    · rw [worked.outcomes, List.foldl_append, ← htally.table, worked.table, htally.settings]
    · rw [worked.outcomes, List.countP_append, worked.violations, hviolations]
      simp only [violated_settings htally.settings]
  | @resumed _ _ v w' here resumed =>
    obtain rfl := hsame here
    refine .inl ⟨w', resumed.window, resumed.ask, ?_, ?_, resumed.ended.trans hended⟩
    · rw [resumed.outcomes]
      refine ⟨?_, resumed.table.trans htally.table, resumed.settings.trans htally.settings⟩
      rw [resumed.pool]
      exact htally.returned
    · rw [resumed.violations, resumed.outcomes, hviolations]
  | @finished _ _ v here finished =>
    obtain rfl := hsame here
    obtain ⟨r, hr, hresult⟩ := finished.ended
    refine .inr ⟨finished.window, v.outcomes, r,
      ⟨?_, finished.table.trans htally.table, finished.settings.trans htally.settings⟩,
      hended ▸ hr, fun x hx => ?_⟩
    · rw [finished.pool]
      exact htally.returned
    · have hok := hresult x hx
      rw [htally.settings] at hok
      exact sums_result hviolations hok
  | limited maxPrompt => exact .inl ⟨w, hw, rfl, ⟨htally.returned, htally.table, htally.settings⟩, hviolations, hended⟩

/-- Another window is asked for. -/
def isAsk : WindowEvent K → Bool
  | .window _ => true
  | _ => false

/-- After the window, until the next one is asked for. -/
theorem PastWindow.next {s₀ : WindowedProbe K} {ask : WindowAsk K} {d : Decoder K} {e : WindowEvent K} (ht : s.Tended)
    (hpast : PastWindow s₀ ask s) (he : isAsk e = false) (h : s.step d e = some s') : PastWindow s₀ ask s' := by
  obtain ⟨hidle, os, r, htally, hended, hsums⟩ := hpast
  have hnone : ∀ {v}, s.window ≠ some v := fun hv => by
    rw [hidle] at hv
    cases hv
  cases windowStep_of ht.settled h with
  | opened ask idle => cases he
  | worked here busy worked => exact absurd here hnone
  | resumed here resumed => exact absurd here hnone
  | finished here finished => exact absurd here hnone
  | limited maxPrompt => exact ⟨hidle, os, r, ⟨htally.returned, htally.table, htally.settings⟩, hended, hsums⟩

theorem window_run {s₀ : WindowedProbe K} {ask : WindowAsk K} {d : Decoder K} {es : List (WindowEvent K)} (ht : s.Tended)
    (hbase : ∀ a ∈ s₀.pool.requests, a.runs = false) (hin : InWindow s₀ ask s ∨ PastWindow s₀ ask s)
    (hes : ∀ e ∈ es, isAsk e = false) (h : s.run d es = some s') : InWindow s₀ ask s' ∨ PastWindow s₀ ask s' := by
  induction es generalizing s with
  | nil =>
    obtain rfl := Option.some.inj h
    exact hin
  | cons e es ih =>
    obtain ⟨u, hu, h⟩ := Option.bind_eq_some_iff.mp h
    obtain ⟨he, hes⟩ := List.forall_mem_cons.mp hes
    refine ih (ht.next hu) ?_ hes h
    rcases hin with hin | hpast
    · exact hin.next ht hbase hu
    · exact .inr (hpast.next ht he hu)

/-- A window that is asked for between two others, whatever happens until the next one: its outcomes are those its own
    requests returned with, the risk table has learned each clean one once in its cell and nothing else, and where the
    window is over it has one result, which sums up these outcomes. -/
theorem window_counts {settings : WindowSettings K} {connector : Connector} {vocabLow vocabHigh : ℤ} {table : RiskTable}
    {d : Decoder K} {before es : List (WindowEvent K)} {s₀ : WindowedProbe K} {ask : WindowAsk K}
    (hbefore : (fresh settings connector vocabLow vocabHigh table).run d before = some s₀) (hidle : s₀.window = none)
    (hes : ∀ e ∈ es, isAsk e = false) (hrun : s₀.run d (.window ask :: es) = some s) :
    ∃ os new, s.pool.requests = s₀.pool.requests ++ new ∧ os.Perm (new.filterMap (·.outcome?)) ∧
      (∀ c, stats s.table c =
        ((stats s₀.table c).1 + os.countP fun o => (learned s₀.settings o).isSome ∧ cellOf s₀.table.buckets ask.clock o = c,
          (stats s₀.table c).2 + os.countP fun o =>
            learned s₀.settings o = some true ∧ cellOf s₀.table.buckets ask.clock o = c)) ∧
      ((∃ w, s.window = some w ∧ w.outcomes = os ∧ s.ended = s₀.ended) ∨
        (s.window = none ∧ ∃ r, s.ended = s₀.ended ++ [r] ∧ ∀ x, r = .ok x → Sums s₀ ask os x)) := by
  have ht := tended_of_run hbefore
  have hbase := ht.over hidle
  obtain ⟨u, hu, h⟩ := Option.bind_eq_some_iff.mp hrun
  have hu' := hu
  simp only [step, hidle, Option.isNone_none, if_true] at hu
  obtain rfl := Option.some.inj hu
  have hstart : InWindow s₀ ask (s₀.goOn (.of ask)) :=
    ⟨.of ask, rfl, rfl, ⟨⟨[], (List.append_nil _).symm, .nil⟩, rfl, rfl⟩, rfl, rfl⟩
  rcases window_run (ht.next hu') hbase (.inl hstart) hes h with
    ⟨w, hw, rfl, htally, -, hended⟩ | ⟨hnone, os, r, htally, hended, hsums⟩
  · obtain ⟨new, hnew, hperm⟩ := htally.returned
    refine ⟨w.outcomes, new, hnew, hperm, fun c => ?_, .inl ⟨w, hw, rfl, hended⟩⟩
    rw [htally.table]
    exact stats_foldl s₀.settings w.ask.clock c w.outcomes s₀.table
  · obtain ⟨new, hnew, hperm⟩ := htally.returned
    refine ⟨os, new, hnew, hperm, fun c => ?_, .inr ⟨hnone, r, hended, hsums⟩⟩
    rw [htally.table]
    exact stats_foldl s₀.settings ask.clock c os s₀.table

/-- The small window has one outcome, and ends with one result of it. -/
theorem window_counts_small : ∃ s, smallProbe.run smallDecoder (.window smallAsk :: (smallStart ++ smallEnd)) = some s ∧
    ∃ (os : List (ProbeOutcome ℚ)) (r : Except Raised (ProbeWindow ℚ)), os.length = 1 ∧ s.ended = [r] ∧
      ∀ x, r = .ok x → Sums smallProbe smallAsk os x := by
  have hsome : ((smallProbe.run smallDecoder (.window smallAsk :: (smallStart ++ smallEnd))).map fun s =>
      (s.window.isNone, (s.pool.requests.filterMap (·.outcome?)).length)) = some (true, 1) := by decide +kernel
  have hasks : (smallStart ++ smallEnd).all (fun e => !isAsk e) = true := by decide +kernel
  obtain ⟨s, hs, h⟩ := Option.map_eq_some_iff.mp hsome
  obtain ⟨hidle, hlength⟩ := Prod.mk.inj h
  have hes : ∀ e ∈ smallStart ++ smallEnd, isAsk e = false := fun e he => by simpa using List.all_eq_true.mp hasks e he
  have hstart : smallProbe.run smallDecoder [] = some smallProbe := rfl
  obtain ⟨os, new, hnew, hperm, -, hended⟩ := window_counts hstart rfl hes hs
  have hcount : os.length = 1 := by
    rw [hnew] at hlength
    exact hperm.length_eq.trans hlength
  rcases hended with ⟨w, hw, -, -⟩ | ⟨-, r, hr, hsums⟩
  · rw [hw] at hidle
    cases hidle
  · exact ⟨s, hs, os, r, hcount, hr, hsums⟩

end WindowedProbe
end CanaTune
