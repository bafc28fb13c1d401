import CanaTune.Controller.ProcessController
import CanaTune.Lib.Along

/-! A job starts and shuts down its services in the order of their dependencies, whatever signals come and whatever the
    processes do; once it is over, none of its services is left without SIGTERM, and none of their groups without SIGKILL
    that was still there. -/

namespace CanaTune

/-! ### The order -/

/-- Shutdown has two stages for each rank of services: all are asked, then all are waited for. -/
def Service.rank : Service → ℕ
  | .proxy => 7
  | .prefill => 9
  | .decode => 9
  | .agent _ => 12

namespace ServiceEvent

def stage : ServiceEvent → ℕ
  | .started (.agent _) => 0
  | .healthy .agents => 1
  | .started .prefill => 2
  | .started .decode => 3
  | .healthy .endpoints => 4
  | .started .proxy => 5
  | .healthy .proxy => 6
  | .asked s => s.rank
  | .gone s => s.rank + 1
  | .killed s => s.rank + 1
  | .reset _ _ => 11

/-- What an event has to wait for. Without a health check of theirs the agents are not waited for. -/
def needs {K : Type} (plan : JobPlan K) : ServiceEvent → List ServiceEvent
  | .started .prefill => if plan.agentHealthUrls = [] then [] else [.healthy .agents]
  | .started .decode => [.started .prefill]
  | .healthy .endpoints => [.started .decode]
  | .started .proxy => [.healthy .endpoints]
  | .healthy .proxy => [.started .proxy]
  | .asked s => [.started s]
  | .gone s => [.asked s]
  | .killed s => [.asked s]
  | _ => []

/-- An event comes after what it needs and before all of a later stage; nothing is started twice. -/
structure Follows {K : Type} (plan : JobPlan K) (before : List ServiceEvent) (e : ServiceEvent) : Prop where
  order : ∀ e' ∈ before, e'.stage ≤ e.stage
  needed : ∀ e' ∈ e.needs plan, e' ∈ before
  once : ∀ s, e = .started s → e ∉ before

/-- A service that was asked to go is gone, or gets SIGKILL. -/
def Ended (events : List ServiceEvent) (s : Service) : Prop := .gone s ∈ events ∨ .killed s ∈ events

theorem Ended.append {events : List ServiceEvent} {s : Service} (h : Ended events s) (e : ServiceEvent) :
    Ended (events ++ [e]) s :=
  h.imp (List.mem_append_left _) (List.mem_append_left _)

/-- A service was asked to go, and after that it was gone or got SIGKILL. -/
def Retired (events : List ServiceEvent) (s : Service) : Prop :=
  ∃ before e after, events = before ++ e :: after ∧ .asked s ∈ before ∧ (e = .gone s ∨ e = .killed s)

/-- No service ends without having been asked. -/
theorem Ended.retired {K : Type} {plan : JobPlan K} {events : List ServiceEvent} {s : Service} (h : Ended events s)
    (hfollows : Along (Follows plan) events) : Retired events s := by
  obtain ⟨e, he, hneeds, hend⟩ : ∃ e ∈ events, .asked s ∈ e.needs plan ∧ (e = .gone s ∨ e = .killed s) := by
    rcases h with h | h
    · exact ⟨_, h, List.mem_singleton_self _, .inl rfl⟩
    · exact ⟨_, h, List.mem_singleton_self _, .inr rfl⟩
  obtain ⟨before, after, rfl⟩ := List.append_of_mem he
  exact ⟨before, e, after, rfl, (hfollows before e after rfl).needed _ hneeds, hend⟩

end ServiceEvent

open ServiceEvent

/-- How a job is left: with a status other than 0, or by an exception of a health check or of the shutdown itself, and but
    for the latter with every service stopped. -/
structure LeftBehind (events : List ServiceEvent) (result : Except Crash ℤ) : Prop where
  retired : result ≠ .error .negativeSleep → result ≠ .error .notPermitted → ∀ s, .started s ∈ events → Retired events s
  status : ∀ n, result = .ok n → n ≠ 0
  raised : ∀ e, result = .error e → e = .unchecked ∨ e = .negativeSleep ∨ e = .notPermitted

theorem exitStatus_ne_zero (returncode : ℤ) : exitStatus returncode ≠ 0 := by
  unfold exitStatus
  split_ifs <;> omega

theorem append_stage_le {events : List ServiceEvent} {e : ServiceEvent} {k : ℕ} (h : ∀ e ∈ events, e.stage ≤ k)
    (hk : e.stage ≤ k) :
    ∀ e' ∈ events ++ [e], e'.stage ≤ k := by
  intro e' he'
  rcases List.mem_append.mp he' with he' | he'
  · exact h e' he'
  · rwa [List.mem_singleton.mp he']

variable {K : Type} [Scalar K] {plan : JobPlan K}

namespace ProcessController
variable {c c' : ProcessController K} {e : ServiceEvent} {k k' : ℕ} {services done : List Service} {s : Service}

/-- The invariant of a job. -/
structure Regular (plan : JobPlan K) (c : ProcessController K) : Prop where
  events : Along (Follows plan) c.events
  processes : ∀ s, s ∈ c.processes ↔ .started s ∈ c.events
  exit : ∀ result, c.exit = some result → LeftBehind c.events result

/-- A signal is not taken back; what the task alone changes stays. -/
structure Meanwhile (c c' : ProcessController K) : Prop where
  settings : c'.settings = c.settings
  processes : c'.processes = c.processes
  stopped : c'.stopped = c.stopped
  events : c'.events = c.events
  exit : c'.exit = c.exit
  stopEvent : c.stopEvent = true → c'.stopEvent = true

/-- Before the shutdown. -/
structure At (k : ℕ) (c : ProcessController K) : Prop where
  exit : c.exit = none
  stopped : c.stopped = false
  events : ∀ e ∈ c.events, e.stage ≤ k

/-- In the shutdown, with the services that have ended so far. -/
structure Down (services : List Service) (k : ℕ) (done : List Service) (c : ProcessController K) : Prop where
  exit : c.exit = none
  processes : c.processes = services
  events : ∀ e ∈ c.events, e.stage ≤ k
  started : ∀ s ∈ services, .started s ∈ c.events
  ended : ∀ s ∈ done, Ended c.events s

def told (c : ProcessController K) (e : ServiceEvent) : ProcessController K := { c with events := c.events ++ [e] }

def begun (c : ProcessController K) (s : Service) : ProcessController K :=
  { c with processes := c.processes ++ [s], events := c.events ++ [.started s] }

theorem At.mono (h : c.At k) (hk : k ≤ k') : c.At k' := ⟨h.exit, h.stopped, fun e he => (h.events e he).trans hk⟩

theorem At.not_mem (h : c.At k) (hk : k < e.stage) : e ∉ c.events := fun he => absurd (h.events e he) (by omega)

theorem At.told (h : c.At k) (he : e.stage = k') (hk : k ≤ k') : (c.told e).At k' :=
  ⟨h.exit, h.stopped, append_stage_le (fun e he => (h.events e he).trans hk) he.le⟩

theorem At.begun (h : c.At k) (he : (ServiceEvent.started s).stage = k') (hk : k ≤ k') : (c.begun s).At k' :=
  ⟨h.exit, h.stopped, append_stage_le (fun e he => (h.events e he).trans hk) he.le⟩

theorem Down.mono (h : c.Down services k done) (hk : k ≤ k') : c.Down services k' done :=
  ⟨h.exit, h.processes, fun e he => (h.events e he).trans hk, h.started, h.ended⟩

theorem Down.told (h : c.Down services k done) (he : e.stage ≤ k) : (c.told e).Down services k done where
  exit := h.exit
  processes := h.processes
  events := append_stage_le h.events he
  started s hs := List.mem_append_left _ (h.started s hs)
  ended s hs := (h.ended s hs).append e

/-- A job goes on from one event to the next. -/
theorem Regular.told (h : Regular plan c) (hexit : c.exit = none) (he : Follows plan c.events e)
    (hstarted : ∀ s, e ≠ .started s) :
    Regular plan (c.told e) where
  events := h.events.append he
  processes s := by simpa [ProcessController.told, (hstarted s).symm] using h.processes s
  exit := by simp [ProcessController.told, hexit]

theorem Regular.begun (h : Regular plan c) (hexit : c.exit = none) (hs : Follows plan c.events (.started s)) :
    Regular plan (c.begun s) where
  events := h.events.append hs
  processes s' := by simp [ProcessController.begun, h.processes s']
  exit := by simp [ProcessController.begun, hexit]

end ProcessController

open ProcessController Supervising

/-- A job that has told nothing yet. -/
structure Blank (c : ProcessController K) : Prop where
  at_ : c.At 0
  processes : c.processes = []
  events : c.events = []

theorem Blank.regular {c : ProcessController K} (h : Blank c) : Regular plan c where
  events := h.events ▸ .nil
  processes s := by simp [h.processes, h.events]
  exit result hexit := by simp [h.at_.exit] at hexit

theorem ProcessController.Regular.meanwhile {c c' : ProcessController K} (h : Regular plan c) (hm : Meanwhile c c') :
    Regular plan c' where
  events := hm.events ▸ h.events
  processes s := hm.processes ▸ hm.events ▸ h.processes s
  exit result hexit := hm.events ▸ h.exit result (hm.exit ▸ hexit)

theorem ProcessController.At.meanwhile {c c' : ProcessController K} {k : ℕ} (h : c.At k) (hm : Meanwhile c c') : c'.At k :=
  ⟨hm.exit.trans h.exit, hm.stopped.trans h.stopped, hm.events ▸ h.events⟩

/-- The task of a job among signals. -/
def jobSolo (plan : JobPlan K) : Solo (ProcessController K) where
  start := Blank
  inv := Regular plan
  meanwhile := Meanwhile
  refl _ := ⟨rfl, rfl, rfl, rfl, rfl, id⟩
  trans h h' := ⟨h'.settings.trans h.settings, h'.processes.trans h.processes, h'.stopped.trans h.stopped,
    h'.events.trans h.events, h'.exit.trans h.exit, fun hs => h'.stopEvent (h.stopEvent hs)⟩
  start_inv h := h.regular
  start_meanwhile h hm := ⟨h.at_.meanwhile hm, hm.processes.trans h.processes, hm.events.trans h.events⟩
  inv_meanwhile h hm := h.meanwhile hm

abbrev Steady (P : ProcessController K → Prop) : Prop := ∀ ⦃c c'⦄, P c → Meanwhile c c' → P c'

theorem steady_mem (e : ServiceEvent) : Steady fun c : ProcessController K => e ∈ c.events := fun _ _ h hm => by
  simpa only [hm.events] using h

theorem steady_at (k : ℕ) : Steady (At (K := K) k) := fun _ _ h hm => h.meanwhile hm

theorem steady_down (services : List Service) (k : ℕ) (done : List Service) :
    Steady (Down (K := K) services k done) := fun _ _ h hm =>
  ⟨hm.exit.trans h.exit, hm.processes.trans h.processes, hm.events ▸ h.events, hm.events ▸ h.started, hm.events ▸ h.ended⟩

namespace Supervising
variable {α : Type} {P Q : ProcessController K → Prop} {R : Crash → ProcessController K → Prop}

abbrev Runs (plan : JobPlan K) (P : ProcessController K → Prop) (p : Supervising K α) (Q : α → ProcessController K → Prop)
    (R : Crash → ProcessController K → Prop) : Prop := Solo.Does job (jobSolo plan) plan P p Q R

/-! ### Primitives -/

theorem runs_get {k : ProcessController K → Supervising K α} {Q : α → ProcessController K → Prop}
    (h : ∀ c, Runs plan (fun c' => P c' ∧ c' = c) (k c) Q R) : Runs plan P (get >>= k) Q R := fun w₀ w hw hp =>
  h w.state w₀ w hw ⟨hp, rfl⟩

theorem runs_look (hP : Steady P) : Runs plan P look (fun _ => P) R :=
  .call hP (fun _ _ hp _ => hp) fun _ _ _ ha => by cases ha

theorem runs_stopRequested (hP : Steady P) : Runs plan P stopRequested (fun b c => P c ∧ b = c.stopEvent) R :=
  (runs_look hP).bind fun _ => runs_get fun _ => .pure fun _ hc => ⟨hc.1, by rw [hc.2]⟩

theorem runs_monotonic (hP : Steady P) : Runs plan P monotonic (fun _ => P) R :=
  (runs_look hP).bind fun _ => runs_get fun _ => .pure fun _ hc => hc.1

theorem runs_tell {e : ServiceEvent} (hexit : ∀ c, P c → c.exit = none) (hfollows : ∀ c, P c → Follows plan c.events e)
    (hstarted : ∀ s, e ≠ .started s) (hQ : ∀ c, P c → Q (c.told e)) : Runs plan P (tell e) (fun _ => Q) R :=
  .update fun c hinv hc => ⟨hinv.told (hexit c hc) (hfollows c hc) hstarted, hQ c hc⟩

theorem runs_poll (hP : Steady P) (s : Service) : Runs plan P (poll s) (fun _ => P) R :=
  .call hP (fun _ _ hp _ => hp) fun _ _ _ ha => by cases ha

theorem runs_killpg (hP : Steady P) (s : Service) (signal : Option Deadly) :
    Runs plan P (killpg s signal) (fun _ => P) fun e c => (e = .noProcess ∨ e = .notPermitted) ∧ P c :=
  .call hP (fun _ _ hp _ => hp) fun _ _ hp ha => ⟨of_decide_eq_true ha, hp⟩

theorem runs_eventWait (hP : Steady P) : Runs plan P eventWait (fun _ => P) R :=
  .call hP (fun _ _ hp _ => hp) fun _ _ _ ha => by cases ha

theorem runs_beyond {Q : α → ProcessController K → Prop} : Runs plan P (do let never ← beyond; never.elim) Q R := by
  have hcall : Runs plan P beyond (fun (_ : Empty) _ => False) R :=
    (Solo.Does.call (P := fun _ => True) (fun _ _ _ _ => trivial) (fun _ never => never.elim) fun _ _ _ ha =>
      by cases ha).conseq
      (fun _ _ => trivial) (fun _ _ h => h) fun _ _ h => h
  exact hcall.bind fun never => never.elim

/-! ### Starting and watching -/

/-- What a service may fail with before the shutdown. -/
def Before (e : Crash) (c : ProcessController K) : Prop :=
  ((∃ s returncode, e = .exited s returncode) ∨ e = .startup ∨ e = .os ∨ e = .unchecked) ∧ c.At 6

theorem runs_start {s : Service} {k : ℕ} (hk : ∀ c, P c → c.At k) (hstage : k ≤ (ServiceEvent.started s).stage)
    (hsix : k ≤ 6)
    (hneeds : ∀ c, P c → ∀ e ∈ (ServiceEvent.started s).needs plan, e ∈ c.events) (hnew : ∀ c, P c → .started s ∉ c.events)
    (hP : Steady P) (hQ : ∀ c, P c → Q (c.begun s)) : Runs plan P (start s) (fun _ => Q) Before := by
  refine (Solo.Does.of_inv (runs_get fun c₀ => ?_))
  by_cases hs : s ∈ c₀.processes ∨ c₀.stopped = true
  · intro w₀ w hw hp
    obtain ⟨⟨hp, hinv⟩, heq⟩ := hp
    rcases hs with hs | hs
    · exact absurd ((hinv.processes s).mp (heq ▸ hs)) (hnew _ hp)
    · exact absurd (heq ▸ hs) (by simp [(hk _ hp).stopped])
  · rw [if_neg hs]
    have hpopen : Runs plan P (popen s) (fun _ => P) Before :=
      .call hP (fun _ _ hp _ => hp) fun _ _ hp ha => ⟨.inr (.inr (.inl (of_decide_eq_true ha))), (hk _ hp).mono hsix⟩
    refine (hpopen.pre fun _ h => h.1.1).bind fun _ => .update fun c hinv hc => ⟨?_, hQ c hc⟩
    exact hinv.begun (hk c hc).exit ⟨fun e he => ((hk c hc).events e he).trans hstage, hneeds c hc, fun _ _ => hnew c hc⟩

theorem runs_raiseExited (hP : Steady P) (hsix : ∀ c, P c → c.At 6) :
    ∀ services, Runs plan P (raiseExited services) (fun _ => P) Before
  | [] => .pure fun _ hc => hc
  | s :: services => (runs_poll hP s).bind fun returncode => by
    cases returncode with
    | none => exact runs_raiseExited hP hsix services
    | some returncode => exact .raise fun c hc => ⟨.inl ⟨s, returncode, rfl⟩, hsix c hc⟩

theorem runs_allHealthy (hP : Steady P) (hsix : ∀ c, P c → c.At 6) :
    ∀ urls, Runs plan P (allHealthy urls) (fun _ => P) Before
  | [] => .pure fun _ hc => hc
  | url :: urls => by
    have hhealth : Runs plan P (health url) (fun _ => P) Before :=
      .call hP (fun _ _ hp _ => hp) fun _ _ hp ha => ⟨.inr (.inr (.inr (of_decide_eq_true ha))), hsix _ hp⟩
    refine hhealth.bind fun healthy => ?_
    cases healthy with
    | true => exact runs_allHealthy hP hsix urls
    | false => exact .pure fun _ hc => hc

/-- The services become healthy, or the job is asked to stop. -/
theorem runs_waitForHealth {r : Readiness} {urls : List String} {deadline : K} (hP : Steady P) (hsix : ∀ c, P c → c.At 6)
    (hfollows : ∀ c, P c → Follows plan c.events (.healthy r)) (hQ : ∀ c, P c → Q (c.told (.healthy r))) :
    ∀ polls, Runs plan P (waitForHealth r urls deadline polls) (fun _ c => P c ∧ c.stopEvent = true ∨ Q c) Before
  | 0 => runs_beyond
  | polls + 1 => (runs_stopRequested hP).bind fun stopping => by
    cases stopping with
    | true => exact .pure fun c hc => .inl ⟨hc.1, hc.2.symm⟩
    | false =>
      refine runs_get fun c₀ => Solo.Does.pre (P := P) ?_ fun _ hc => hc.1.1
      refine (runs_raiseExited hP hsix _).bind fun _ => (runs_allHealthy hP hsix urls).bind fun healthy => ?_
      cases healthy with
      | true =>
        exact runs_tell (fun c hc => (hsix c hc).exit) hfollows (fun _ h => by cases h) fun c hc => .inr (hQ c hc)
      | false =>
        refine (runs_monotonic hP).bind fun now => ?_
        by_cases hnow : deadline ≤ now
        · rw [if_pos hnow]
          exact .raise fun c hc => ⟨.inr (.inl rfl), hsix c hc⟩
        · rw [if_neg hnow]
          exact (runs_eventWait hP).bind fun _ => runs_waitForHealth hP hsix hfollows hQ polls

/-- Going on means that the services are healthy. -/
theorem runs_unless (hP : Steady P) (hQ : Steady Q) : Runs plan (fun c => P c ∧ c.stopEvent = true ∨ Q c)
    (do let stopping ← stopRequested; return !stopping) (fun go c => if go then Q c else P c ∨ Q c) R := by
  have hsteady : Steady fun c => P c ∧ c.stopEvent = true ∨ Q c := fun _ _ h hm =>
    h.imp (fun h => ⟨hP h.1 hm, hm.stopEvent h.2⟩) fun h => hQ h hm
  refine (runs_stopRequested hsteady).bind fun stopping => .pure fun c hc => ?_
  obtain ⟨hc, rfl⟩ := hc
  cases hstop : c.stopEvent with
  | true => exact hc.imp And.left id
  | false => exact hc.resolve_left fun h => absurd h.2 (by simp [hstop])

theorem runs_awaitHealth {r : Readiness} {urls : List String} {timeoutS : K} {polls : ℕ} (hP : Steady P)
    (hsix : ∀ c, P c → c.At 6)
    (hfollows : ∀ c, P c → Follows plan c.events (.healthy r)) (hQ : ∀ c, P c → Q (c.told (.healthy r))) :
    Runs plan P (awaitHealth r urls timeoutS polls) (fun _ c => P c ∧ c.stopEvent = true ∨ Q c) Before :=
  (runs_monotonic hP).bind fun _ => runs_waitForHealth hP hsix hfollows hQ polls

/-- The agents are healthy where they are asked. -/
def AgentsUp (plan : JobPlan K) (c : ProcessController K) : Prop :=
  c.At 1 ∧ (plan.agentHealthUrls = [] ∨ .healthy .agents ∈ c.events)

theorem steady_agentsUp : Steady (AgentsUp plan) := fun _ _ h hm =>
  ⟨steady_at 1 h.1 hm, h.2.imp_right fun h => steady_mem _ h hm⟩

/-- Of the agents still to come none is started. -/
structure AgentsLeft (names : List String) (c : ProcessController K) : Prop where
  at_ : c.At 0
  distinct : names.Nodup
  fresh : ∀ name ∈ names, .started (.agent name) ∉ c.events

theorem runs_startEach : ∀ names, Runs plan (AgentsLeft names) (Co.each names fun name => start (.agent name))
    (fun _ => AgentsLeft []) Before :=
  Solo.Does.each fun name names => by
    refine runs_start (fun _ hc => hc.at_) le_rfl (by decide) (fun _ _ _ he => absurd he List.not_mem_nil)
      (fun _ hc => hc.fresh name List.mem_cons_self)
      (fun _ _ h hm => ⟨steady_at 0 h.at_ hm, h.distinct, hm.events ▸ h.fresh⟩) fun c hc => ?_
    obtain ⟨hname, hdistinct⟩ := List.nodup_cons.mp hc.distinct
    refine ⟨hc.at_.begun rfl le_rfl, hdistinct, fun other hother hmem => ?_⟩
    rcases List.mem_append.mp hmem with hmem | hmem
    · exact hc.fresh other (List.mem_cons_of_mem _ hother) hmem
    · obtain rfl : other = name := by simpa using hmem
      exact hname hother

theorem runs_startAgents : Runs plan Blank (startAgents plan)
    (fun go c => if go then AgentsUp plan c else c.At 6) Before := by
  refine ((runs_startEach plan.agents).pre fun c hc => ⟨hc.at_, plan.distinct,
    fun _ _ => hc.events ▸ List.not_mem_nil⟩).bind fun _ => ?_
  refine Solo.Does.pre (P := At 0) ?_ fun _ hc => hc.at_
  by_cases hurls : plan.agentHealthUrls = []
  · rw [if_pos hurls]
    exact .pure fun c hc => ⟨hc.mono (by decide), .inl hurls⟩
  · rw [if_neg hurls]
    refine (runs_awaitHealth (Q := AgentsUp plan) (steady_at 0) (fun c hc => hc.mono (by decide)) (fun c hc => ?_)
      fun c hc => ?_).bind
      fun _ => (runs_unless (steady_at 0) steady_agentsUp).conseq (fun _ h => h) (fun go c hc => ?_) fun _ _ h => h
    · exact ⟨fun e he => (hc.events e he).trans (by decide), fun _ he => absurd he List.not_mem_nil, fun _ h => by cases h⟩
    · exact ⟨hc.told rfl (by decide), .inr (List.mem_append_right _ (List.mem_singleton_self _))⟩
    · cases go with
      | true => exact hc
      | false => exact hc.elim (fun h => h.mono (by decide)) fun h => h.1.mono (by decide)

/-- A stage of the start, with the event it ends with. -/
def Reached (k : ℕ) (e : ServiceEvent) (c : ProcessController K) : Prop := c.At k ∧ e ∈ c.events

theorem steady_reached (k : ℕ) (e : ServiceEvent) : Steady (Reached (K := K) k e) := fun _ _ h hm =>
  ⟨steady_at k h.1 hm, steady_mem e h.2 hm⟩

theorem runs_startEndpoints : Runs plan (AgentsUp plan) (startEndpoints plan)
    (fun go c => if go then Reached 4 (.healthy .endpoints) c else c.At 6) Before := by
  have hprefill : Runs plan (AgentsUp plan) (start .prefill) (fun _ => Reached 2 (.started .prefill)) Before := by
    refine runs_start (fun _ hc => hc.1) (by decide) (by decide) (fun c hc e he => ?_)
      (fun _ hc => hc.1.not_mem (by decide)) steady_agentsUp fun c hc =>
        ⟨hc.1.begun rfl (by decide), List.mem_append_right _ (List.mem_singleton_self _)⟩
    rcases hc.2 with hurls | hmem
    · simp [needs, hurls] at he
    · simp only [needs] at he
      split_ifs at he
      · exact absurd he List.not_mem_nil
      · rwa [List.mem_singleton.mp he]
  have hdecode : Runs plan (Reached 2 (.started .prefill)) (start .decode) (fun _ => Reached 3 (.started .decode)) Before :=
    runs_start (fun _ hc => hc.1) (by decide) (by decide) (fun c hc e he => List.mem_singleton.mp he ▸ hc.2)
      (fun _ hc => hc.1.not_mem (by decide)) (steady_reached _ _) fun c hc =>
        ⟨hc.1.begun rfl (by decide), List.mem_append_right _ (List.mem_singleton_self _)⟩
  refine hprefill.bind fun _ => hdecode.bind fun _ => ?_
  refine (runs_awaitHealth (Q := Reached 4 (.healthy .endpoints)) (steady_reached _ _)
    (fun c hc => hc.1.mono (by decide)) (fun c hc => ?_) fun c hc => ?_).bind fun _ =>
      (runs_unless (steady_reached _ _) (steady_reached _ _)).conseq (fun _ h => h) (fun go c hc => ?_) fun _ _ h => h
  · exact ⟨fun e he => (hc.1.events e he).trans (by decide), fun e he => List.mem_singleton.mp he ▸ hc.2,
      fun _ h => by cases h⟩
  · exact ⟨hc.1.told rfl (by decide), List.mem_append_right _ (List.mem_singleton_self _)⟩
  · cases go with
    | true => exact hc
    | false => exact hc.elim (fun h => h.1.mono (by decide)) fun h => h.1.mono (by decide)

theorem runs_supervise (hP : Steady P) (hsix : ∀ c, P c → c.At 6) :
    ∀ polls, Runs plan P (supervise polls) (fun _ => P) Before
  | 0 => runs_beyond
  | polls + 1 => (runs_stopRequested hP).bind fun stopping => by
    cases stopping with
    | true => exact .pure fun c hc => hc.1
    | false =>
      refine runs_get fun c₀ => Solo.Does.pre (P := P) ?_ fun _ hc => hc.1.1
      exact (runs_raiseExited hP hsix _).bind fun _ => (runs_eventWait hP).bind fun _ => runs_supervise hP hsix polls

/-- A status that says that the job was stopped. -/
theorem runs_stopStatus (hP : Steady P) : Runs plan P stopStatus (fun n c => n ≠ 0 ∧ P c) R :=
  (runs_look hP).bind fun _ => runs_get fun c₀ => .pure fun c hc => ⟨by cases c₀.stopSignal.getD .term <;> decide, hc.1⟩

theorem runs_serveJob : Runs plan Blank (serveJob plan) (fun n c => n ≠ 0 ∧ c.At 6) Before := by
  refine runs_startAgents.bind fun up => ?_
  cases up with
  | false => exact runs_stopStatus (steady_at 6)
  | true =>
    refine runs_startEndpoints.bind fun healthy => ?_
    cases healthy with
    | false => exact runs_stopStatus (steady_at 6)
    | true =>
      have hproxy : Runs plan (Reached 4 (.healthy .endpoints)) (start .proxy)
          (fun _ => Reached 5 (.started .proxy)) Before :=
        runs_start (fun _ hc => hc.1) (by decide) (by decide) (fun c hc e he => List.mem_singleton.mp he ▸ hc.2)
          (fun _ hc => hc.1.not_mem (by decide)) (steady_reached _ _) fun c hc =>
            ⟨hc.1.begun rfl (by decide), List.mem_append_right _ (List.mem_singleton_self _)⟩
      refine hproxy.bind fun _ =>
        (runs_awaitHealth (Q := At 6) (steady_reached _ _) (fun c hc => hc.1.mono (by decide)) (fun c hc => ?_)
          fun c hc => hc.1.told rfl (by decide)).bind fun _ => ?_
      · exact ⟨fun e he => (hc.1.events e he).trans (by decide), fun e he => List.mem_singleton.mp he ▸ hc.2,
          fun _ h => by cases h⟩
      · refine Solo.Does.pre (P := At 6) ?_ fun c hc => hc.elim (fun h => h.1.1.mono (by decide)) id
        exact (runs_supervise (steady_at 6) (fun _ hc => hc) plan.polls).bind fun _ => runs_stopStatus (steady_at 6)

/-! ### Shutdown -/

/-- What the shutdown itself may fail with. -/
def Failed (e : Crash) (c : ProcessController K) : Prop := (e = .negativeSleep ∨ e = .notPermitted) ∧ c.exit = none

theorem runs_signalGroup {s : Service} {signal : Deadly} (hexit : ∀ c, P c → c.exit = none)
    (hfollows : ∀ c, P c → Follows plan c.events (signalled s signal)) (hQ : ∀ c, P c → Q (c.told (signalled s signal)))
    (hsteady : Steady Q) : Runs plan P (signalGroup s signal) (fun _ => Q) Failed := by
  have hexit' {c : ProcessController K} (hc : Q c ∧ c.exit = none) : c.exit = none := hc.2
  have hsteady' : Steady fun c : ProcessController K => Q c ∧ c.exit = none := fun _ _ h hm =>
    ⟨hsteady h.1 hm, hm.exit.trans h.2⟩
  have htell : Runs plan P (tell (signalled s signal)) (fun _ c => Q c ∧ c.exit = none) Failed :=
    runs_tell hexit hfollows (fun _ h => by cases signal <;> cases h) fun c hc => ⟨hQ c hc, hexit c hc⟩
  refine htell.bind fun _ =>
    Solo.Does.handle ((runs_killpg hsteady' s (some signal)).conseq (fun _ h => h) (fun _ _ h => h.1)
    fun _ _ h => h) fun e => ?_
  by_cases hgone : e = .noProcess
  · rw [if_pos hgone]
    exact .pure fun c hc => hc.2.1
  by_cases hdenied : e = .notPermitted
  · rw [if_neg hgone, if_pos hdenied]
    refine ((runs_poll hsteady' s).pre fun _ hc => hc.2).bind fun returncode => ?_
    by_cases hreturned : returncode = none
    · rw [if_pos hreturned]
      exact .call hsteady' (fun _ _ hc _ => hc.1) fun _ _ hc ha => ⟨.inr (of_decide_eq_true ha), hc.2⟩
    · rw [if_neg hreturned]
      exact .pure fun c hc => hc.1
  · rw [if_neg hgone, if_neg hdenied]
    exact .raise fun c hc => absurd hc.1 (by simp [hgone, hdenied])

theorem runs_groupExists (hP : Steady P) (s : Service) : Runs plan P (groupExists s) (fun _ => P) R := by
  refine Solo.Does.handle ((runs_killpg hP s none).bind fun _ => .pure fun _ hc => hc) fun e => ?_
  by_cases hgone : e = .noProcess
  · rw [if_pos hgone]
    exact .pure fun c hc => hc.2
  by_cases hdenied : e = .notPermitted
  · rw [if_neg hgone, if_pos hdenied]
    exact ((runs_poll hP s).pre fun _ hc => hc.2).bind fun returncode => .pure fun c hc => hc
  · rw [if_neg hgone, if_neg hdenied]
    exact .raise fun c hc => absurd hc.1 (by simp [hgone, hdenied])

theorem runs_anyExists (hP : Steady P) : ∀ services, Runs plan P (anyExists services) (fun _ => P) R
  | [] => .pure fun _ hc => hc
  | s :: services => (runs_groupExists hP s).bind fun there => by
    cases there with
    | true => exact .pure fun _ hc => hc
    | false => exact runs_anyExists hP services

theorem runs_awaitGone {services : List Service} {deadline : K} (hP : Steady P) (hexit : ∀ c, P c → c.exit = none) :
    ∀ polls, Runs plan P (awaitGone services deadline polls) (fun _ => P) Failed
  | 0 => runs_beyond
  | polls + 1 => by
    refine (Solo.Does.each (P := fun _ => P)
      (fun s _ => (runs_poll hP s).bind fun _ => .pure fun _ hc => hc) services).bind fun _ => ?_
    refine (runs_anyExists hP services).bind fun there => ?_
    cases there with
    | false => exact .pure fun _ hc => hc
    | true =>
      refine (runs_monotonic hP).bind fun now => ?_
      by_cases hnow : deadline ≤ now
      · rw [if_pos hnow]
        exact .pure fun _ hc => hc
      rw [if_neg hnow]
      refine (runs_monotonic hP).bind fun later => runs_get fun c₀ => Solo.Does.pre (P := P) ?_ fun _ hc => hc.1
      -- The second reading may be past the deadline.
      have hsleep : Runs plan P (sleep (min c₀.settings.pollIntervalS (deadline - later))) (fun _ => P) Failed :=
        .call hP (fun _ _ hc _ => hc) fun _ _ hc ha => ⟨.inl (of_decide_eq_true ha).2, hexit _ hc⟩
      exact hsleep.bind fun _ => runs_awaitGone hP hexit polls

section Ranks
variable {services group rest done : List Service} {k : ℕ}

/-- The group's services that are still to be asked. -/
structure Asking (services : List Service) (k : ℕ) (done group rest : List Service) (c : ProcessController K) : Prop where
  down : c.Down services k done
  sub : ∀ s ∈ rest, s ∈ group
  asked : ∀ s ∈ group, s ∈ rest ∨ .asked s ∈ c.events

/-- Those that are still to be finished off. -/
structure Killing (services : List Service) (k : ℕ) (done group rest : List Service) (c : ProcessController K) : Prop where
  down : c.Down services k done
  sub : ∀ s ∈ rest, s ∈ group
  asked : ∀ s ∈ group, .asked s ∈ c.events
  ended : ∀ s ∈ group, s ∈ rest ∨ Ended c.events s

theorem steady_asking : Steady (Asking (K := K) services k done group rest) := fun _ _ h hm =>
  ⟨steady_down _ _ _ h.down hm, h.sub, hm.events ▸ h.asked⟩

theorem steady_killing : Steady (Killing (K := K) services k done group rest) := fun _ _ h hm =>
  ⟨steady_down _ _ _ h.down hm, h.sub, hm.events ▸ h.asked, hm.events ▸ h.ended⟩

theorem runs_askEach (hgroup : ∀ s ∈ group, s ∈ services ∧ s.rank = k) :
    ∀ rest, Runs plan (Asking services k done group rest) (Co.each rest fun s => signalGroup s .term)
      (fun _ => Asking services k done group []) Failed :=
  Solo.Does.each fun s rest => by
    refine runs_signalGroup (fun _ hc => hc.down.exit) (fun c hc => ?_) (fun c hc => ?_) steady_asking
    · obtain ⟨hs, hrank⟩ := hgroup s (hc.sub s List.mem_cons_self)
      exact ⟨fun e he => (hc.down.events e he).trans hrank.ge,
        fun e he => List.mem_singleton.mp he ▸ hc.down.started s hs, fun _ h => by cases h⟩
    · obtain ⟨-, hrank⟩ := hgroup s (hc.sub s List.mem_cons_self)
      refine ⟨hc.down.told hrank.le, fun s' hs' => hc.sub s' (List.mem_cons_of_mem _ hs'), fun s' hs' => ?_⟩
      rcases hc.asked s' hs' with hrest | hasked
      · rcases List.mem_cons.mp hrest with rfl | hrest
        · exact .inr (List.mem_append_right _ (List.mem_singleton_self _))
        · exact .inl hrest
      · exact .inr (List.mem_append_left _ hasked)

/-- One service less is to be finished off. -/
theorem Killing.told {s : Service} {c : ProcessController K} {e : ServiceEvent}
    (h : Killing services (k + 1) done group (s :: rest) c)
    (he : e = .gone s ∨ e = .killed s) (hrank : s.rank = k) : Killing services (k + 1) done group rest (c.told e) := by
  have hstage : e.stage ≤ k + 1 := by
    rcases he with rfl | rfl <;> simp [stage, hrank]
  have hended : Ended (c.told e).events s := he.imp (fun he => List.mem_append_right _ (List.mem_singleton.mpr he.symm))
    fun he => List.mem_append_right _ (List.mem_singleton.mpr he.symm)
  refine ⟨h.down.told hstage, fun s' hs' => h.sub s' (List.mem_cons_of_mem _ hs'),
    fun s' hs' => List.mem_append_left _ (h.asked s' hs'),
    fun s' hs' => ?_⟩
  rcases h.ended s' hs' with hrest | hended'
  · rcases List.mem_cons.mp hrest with rfl | hrest
    · exact .inr hended
    · exact .inl hrest
  · exact .inr (hended'.append e)

theorem runs_reap (hP : Steady P) (s : Service) : Runs plan P (reap s) (fun _ => P) R := by
  have hwait : Runs plan P (wait s) (fun _ => P) fun e c => e = .timedOut ∧ P c :=
    .call hP (fun _ _ hc _ => hc) fun _ _ hc ha => ⟨of_decide_eq_true ha, hc⟩
  refine (runs_poll hP s).bind fun returncode => ?_
  by_cases hreturned : returncode = none
  · rw [if_pos hreturned]
    refine hwait.handle fun e => ?_
    by_cases he : e = .timedOut
    · rw [if_pos he]
      exact .pure fun _ hc => hc.2
    · rw [if_neg he]
      exact .raise fun _ hc => absurd hc.1 he
  · rw [if_neg hreturned]
    exact .pure fun _ hc => hc

theorem runs_finishOff {s : Service} (hgroup : ∀ s ∈ group, s ∈ services ∧ s.rank = k) :
    Runs plan (Killing services (k + 1) done group (s :: rest)) (finishOff s)
    (fun _ => Killing services (k + 1) done group rest) Failed := by
  have hrank {c : ProcessController K} (hc : Killing services (k + 1) done group (s :: rest) c) : s.rank = k :=
    (hgroup s (hc.sub s List.mem_cons_self)).2
  have hfollows {c : ProcessController K} (hc : Killing services (k + 1) done group (s :: rest) c) {e : ServiceEvent}
      (he : e = .gone s ∨ e = .killed s) : Follows plan c.events e := by
    have hasked := hc.asked s (hc.sub s List.mem_cons_self)
    have hevents := hc.down.events
    rw [← hrank hc] at hevents
    rcases he with rfl | rfl
    · exact ⟨hevents, fun e he => List.mem_singleton.mp he ▸ hasked, fun _ h => by cases h⟩
    · exact ⟨hevents, fun e he => List.mem_singleton.mp he ▸ hasked, fun _ h => by cases h⟩
  have hend : Runs plan (Killing services (k + 1) done group (s :: rest)) (endGroup s)
      (fun _ => Killing services (k + 1) done group rest) Failed := by
    refine (runs_groupExists steady_killing s).bind fun there => ?_
    cases there with
    | true =>
      exact runs_signalGroup (fun _ hc => hc.down.exit) (fun _ hc => hfollows hc (e := signalled s .kill) (.inr rfl))
        (fun _ hc => hc.told (e := signalled s .kill) (.inr rfl) (hrank hc)) steady_killing
    | false =>
      exact runs_tell (fun _ hc => hc.down.exit) (fun _ hc => hfollows hc (.inl rfl)) (fun _ h => by cases h)
        fun _ hc => hc.told (.inl rfl) (hrank hc)
  exact hend.bind fun _ => runs_reap steady_killing s

theorem runs_finishEach (hgroup : ∀ s ∈ group, s ∈ services ∧ s.rank = k) :
    ∀ rest, Runs plan (Killing services (k + 1) done group rest) (Co.each rest finishOff)
      (fun _ => Killing services (k + 1) done group []) Failed :=
  Solo.Does.each fun _ _ => runs_finishOff hgroup

/-- Every service of a rank is asked, and gone or killed. -/
theorem runs_waitThenKill (hgroup : ∀ s ∈ group, s ∈ services ∧ s.rank = k) (polls : ℕ) :
    Runs plan (Down services k done) (waitThenKill group polls)
    (fun _ => Down services (k + 1) (done ++ group)) Failed := by
  have hask : Runs plan (Down services k done) (Co.each group fun s => signalGroup s .term)
      (fun _ => Asking services k done group []) Failed :=
    (runs_askEach hgroup group).pre fun c hc => ⟨hc, fun s hs => hs, fun s hs => .inl hs⟩
  refine hask.bind fun _ => (runs_monotonic steady_asking).bind fun now => runs_get fun c₀ => ?_
  refine Solo.Does.pre (P := Asking services k done group []) ?_ fun _ hc => hc.1
  refine (runs_awaitGone steady_asking (fun _ hc => hc.down.exit) polls).bind fun _ => ?_
  have hfinish : Runs plan (Killing services (k + 1) done group group) (Co.each group finishOff)
      (fun _ => Killing services (k + 1) done group []) Failed := runs_finishEach hgroup group
  refine hfinish.conseq (fun c hc => ?_) (fun _ c hc => ?_) fun _ _ h => h
  · exact ⟨hc.down.mono k.le_succ, fun s hs => hs, fun s hs => (hc.asked s hs).resolve_left List.not_mem_nil,
      fun s hs => .inl hs⟩
  · refine ⟨hc.down.exit, hc.down.processes, hc.down.events, hc.down.started, fun s hs => ?_⟩
    rcases List.mem_append.mp hs with hs | hs
    · exact hc.down.ended s hs
    · exact (hc.ended s hs).resolve_left List.not_mem_nil

/-- Resetting the clocks comes between the node steps and the agents. -/
theorem runs_resetAgentClocks (urls : List String) :
    Runs plan (Down services 11 done) (resetAgentClocks urls) (fun _ => Down services 11 done) fun _ =>
    Down services 11 done := by
  refine Solo.Does.each (P := fun _ => Down services 11 done) (fun url _ => ?_) urls
  have hgpus : Runs plan (Down services 11 done) (gpus url) (fun _ => Down services 11 done) fun _ =>
      Down services 11 done :=
    .call (steady_down _ _ _) (fun _ _ hc _ => hc) fun _ _ hc _ => hc
  refine hgpus.bind fun indices => Solo.Does.each (P := fun _ => Down services 11 done) (fun gpu _ => ?_) indices
  have htell : Runs plan (Down services 11 done) (tell (.reset url gpu)) (fun _ => Down services 11 done) fun _ =>
      Down services 11 done :=
    runs_tell (fun _ hc => hc.exit)
      (fun _ hc => ⟨hc.events, fun _ he => absurd he List.not_mem_nil, fun _ h => by cases h⟩)
      (fun _ h => by cases h) fun _ hc => hc.told le_rfl
  have hpost : Runs plan (Down services 11 done) (postReset url gpu) (fun _ => Down services 11 done) fun _ =>
      Down services 11 done :=
    .call (steady_down _ _ _) (fun _ _ hc _ => hc) fun _ _ hc _ => hc
  exact htell.bind fun _ => hpost.handle fun _ => .pure fun _ hc => hc

theorem runs_beforeAgentsStop (urls : Option (List String)) :
    Runs plan (Down services 11 done) (beforeAgentsStop urls) (fun _ => Down services 11 done) R := by
  cases urls with
  | none => exact .pure fun _ hc => hc
  | some urls => exact (runs_resetAgentClocks urls).handle fun _ => .pure fun _ hc => hc

end Ranks

/-- Everything that was started has ended. -/
def AllEnded (c : ProcessController K) : Prop := c.exit = none ∧ ∀ s, .started s ∈ c.events → Ended c.events s

theorem runs_stop (polls : ℕ) : Runs plan (At 6) (stop polls) (fun _ => AllEnded) Failed := by
  refine Solo.Does.of_inv (runs_get fun c₀ => ?_)
  by_cases hstopped : c₀.stopped = true
  · intro w₀ w hw hp
    obtain ⟨⟨hat, -⟩, heq⟩ := hp
    exact absurd (heq ▸ hstopped) (by simp [hat.stopped])
  rw [if_neg hstopped]
  have hmark : Runs plan (fun c => (c.At 6 ∧ Regular plan c) ∧ c = c₀) (modify fun c => { c with stopped := true })
      (fun _ => Down c₀.processes 7 []) Failed := .update fun c hinv hc => by
    obtain ⟨⟨hat, -⟩, rfl⟩ := hc
    refine ⟨⟨hinv.events, hinv.processes, hinv.exit⟩, hat.exit, rfl, fun e he => (hat.events e he).trans (by decide),
      fun s hs => (hinv.processes s).mp hs, fun _ hs => absurd hs List.not_mem_nil⟩
  -- What is stopped in each round was started, and comes at its place in the order.
  have hproxy : ∀ s ∈ [Service.proxy].filter (fun s => s ∈ c₀.processes), s ∈ c₀.processes ∧ s.rank = 7 := fun s hs => by
    obtain ⟨hs, hmem⟩ := List.mem_filter.mp hs
    exact ⟨of_decide_eq_true hmem, by rw [List.mem_singleton.mp hs]; rfl⟩
  have hendpoints : ∀ s ∈ [Service.prefill, .decode].filter (fun s => s ∈ c₀.processes), s ∈ c₀.processes ∧
      s.rank = 9 := fun s hs => by
    obtain ⟨hs, hmem⟩ := List.mem_filter.mp hs
    rcases List.mem_cons.mp hs with rfl | hs
    · exact ⟨of_decide_eq_true hmem, rfl⟩
    · exact ⟨of_decide_eq_true hmem, by rw [List.mem_singleton.mp hs]; rfl⟩
  have hagents : ∀ s ∈ c₀.processes.filter Service.isAgent, s ∈ c₀.processes ∧ s.rank = 12 := fun s hs => by
    obtain ⟨hs, hagent⟩ := List.mem_filter.mp hs
    cases s with
    | agent name => exact ⟨hs, rfl⟩
    | prefill => cases hagent
    | decode => cases hagent
    | proxy => cases hagent
  refine hmark.bind fun _ => (runs_waitThenKill hproxy polls).bind fun _ => ?_
  refine ((runs_waitThenKill hendpoints polls).pre fun _ hc => hc.mono (by decide)).bind fun _ => ?_
  refine ((runs_beforeAgentsStop c₀.settings.resetUrls).pre fun _ hc => hc.mono (by decide)).bind fun _ => ?_
  refine ((runs_waitThenKill hagents polls).pre fun _ hc => hc.mono (by decide)).post_inv.conseq (fun _ hc => hc)
    (fun _ c hc => ?_)
    fun _ _ hc => hc.1
  obtain ⟨hdown, hinv⟩ := hc
  refine ⟨hdown.exit, fun s hs => hdown.ended s ?_⟩
  -- Whatever was started was asked to go in one of the three rounds.
  have hmem : s ∈ c₀.processes := hdown.processes ▸ (hinv.processes s).mpr hs
  cases s with
  | agent name => exact List.mem_append_right _ (List.mem_filter.mpr ⟨hmem, rfl⟩)
  | prefill => simp [hmem]
  | decode => simp [hmem]
  | proxy => simp [hmem]

/-- A job ends in a status other than 0, in an exception of a health check, or in one of its shutdown. -/
theorem runs_run : Runs plan Blank (run plan) (fun n c => n ≠ 0 ∧ AllEnded c)
    fun e c => e = .unchecked ∧ AllEnded c ∨ Failed e c := by
  have hcaught (e : Crash) : Runs plan (Before e) (caught e) (fun n c => n ≠ 0 ∧ c.At 6) fun e c =>
      e = .unchecked ∧ c.At 6 := by
    cases e with
    | exited s returncode => exact .pure fun c hc => ⟨exitStatus_ne_zero returncode, hc.2⟩
    | startup => exact .pure fun c hc => ⟨one_ne_zero, hc.2⟩
    | os => exact .pure fun c hc => ⟨one_ne_zero, hc.2⟩
    | noProcess => exact .pure fun c hc => ⟨one_ne_zero, hc.2⟩
    | notPermitted => exact .pure fun c hc => ⟨one_ne_zero, hc.2⟩
    | unchecked => exact .raise fun c hc => ⟨rfl, hc.2⟩
    | timedOut => exact .raise fun c hc => absurd hc.1 (by simp)
    | cannotStart s => exact .raise fun c hc => absurd hc.1 (by simp)
    | negativeSleep => exact .raise fun c hc => absurd hc.1 (by simp)
    | http => exact .raise fun c hc => absurd hc.1 (by simp)
  refine (runs_serveJob.handle hcaught).ensure (fun n => Solo.Does.fact fun hn => ?_) fun e => Solo.Does.fact fun he => ?_
  · exact (runs_stop plan.polls).conseq (fun _ hc => hc) (fun _ c hc => ⟨hn, hc⟩) fun _ _ hc => .inr hc
  · exact (runs_stop plan.polls).conseq (fun _ hc => hc) (fun _ c hc => .inl ⟨he, hc⟩) fun _ _ hc => .inr hc

end Supervising

/-! ### Results -/

theorem leftBehind_ok {c : ProcessController K} {n : ℤ} (hinv : Regular plan c) (hn : n ≠ 0) (h : AllEnded c) :
    LeftBehind c.events (.ok n) where
  retired _ _ s hs := (h.2 s hs).retired hinv.events
  status m hm := Except.ok.inj hm ▸ hn
  raised e he := by cases he

theorem leftBehind_error {c : ProcessController K} {e : Crash} (hinv : Regular plan c)
    (h : e = .unchecked ∧ AllEnded c ∨ Failed e c) : LeftBehind c.events (.error e) where
  retired hsleep hdenied s hs := by
    rcases h with ⟨-, hended⟩ | ⟨rfl | rfl, -⟩
    · exact (hended.2 s hs).retired hinv.events
    · exact absurd rfl hsleep
    · exact absurd rfl hdenied
  status n hn := by cases hn
  raised e' he' := by
    obtain rfl := Except.error.inj he'
    exact h.imp And.left And.left

/-- The task notes how it was left. -/
theorem runs_leave {result : Except Crash ℤ} {P : ProcessController K → Prop}
    (hP : ∀ c, Regular plan c → P c → LeftBehind c.events result) :
    Runs plan P (modify fun c => { c with exit := some result }) (fun _ _ => True) fun _ _ => True :=
  .update fun c hinv hc => ⟨⟨hinv.events, hinv.processes, fun _ hresult => Option.some.inj hresult ▸ hP c hinv hc⟩, trivial⟩

theorem runs_code (id : ℕ) : Runs plan Blank (ProcessController.code id plan) (fun _ _ => True) fun _ _ => True :=
  runs_run.attempt.bind fun result => by
    cases result with
    | ok n => exact runs_leave fun c hinv (hc : n ≠ 0 ∧ AllEnded c) => leftBehind_ok hinv hc.1 hc.2
    | error e => exact runs_leave fun c hinv (hc : e = .unchecked ∧ AllEnded c ∨ Failed e c) => leftBehind_error hinv hc

section
variable {settings : ProcessSettings K} {now : K}
  {p : Pool (JobPlan K) (ProcessController K) (ProcessOp K) ProcessOp.Ans Crash}

theorem regular_of_run (hrun : job.Run (ProcessController.boot settings now plan) p) : Regular plan p.world.state := by
  have hsound : (Solo.contract job (jobSolo plan) plan).Sound := Solo.contract_sound (runs_code 0) fun {e w w'} ho => by
    cases e with
    | clock now =>
      obtain ⟨-, ho⟩ := Option.ite_none_right_eq_some.mp ho
      cases ho
      exact ⟨rfl, rfl, rfl, rfl, rfl, rfl, id⟩
    | signal s =>
      cases ho
      exact ⟨rfl, rfl, rfl, rfl, rfl, rfl, fun _ => rfl⟩
  exact Solo.inv_of_run hsound ⟨⟨rfl, rfl, fun _ he => absurd he List.not_mem_nil⟩, rfl, rfl⟩ hrun

/-- In every run of a job its events come in the order of the stages, each after what it needs, and no service is started
    twice. -/
theorem follows_of_run (hrun : job.Run (ProcessController.boot settings now plan) p) :
    Along (Follows plan) p.world.state.events :=
  (regular_of_run hrun).events

end

section Small

/-- Processes that only `decode` lets outlive SIGTERM, and an agent that does not reset its clocks. -/
def stubborn : ∀ op : ProcessOp ℚ, Except Crash op.Ans
  | .look => .ok ()
  | .popen _ => .ok ()
  | .poll _ => .ok none
  | .killpg s signal => if signal = none ∧ s ≠ .decode then .error .noProcess else .ok ()
  | .sendSignal _ _ => .ok ()
  | .wait _ => .error .timedOut
  | .health _ => .ok true
  | .eventWait => .ok ()
  | .sleep seconds => if seconds < 0 then .error .negativeSleep else .ok ()
  | .gpus _ => .ok [0]
  | .postReset _ _ => .error .http
  | .beyond => .error .http

theorem small_grace : (0 : ℚ) < 30 := by norm_num

theorem small_poll : (0 : ℚ) < 1 / 5 := by norm_num

def smallProcesses : ProcessSettings ℚ := ⟨30, 1 / 5, some ["agent"], small_grace, small_poll⟩

def smallJob : JobPlan ℚ :=
  ⟨["prefill"], ["agent/health"], ["endpoint/health"], "proxy/health", 120, 6030, 60, 3, List.nodup_singleton _⟩

/-- Up to serving, then SIGINT, and the grace of the node steps passes. -/
def interrupted : List (Choice (ProcessOp ℚ) ProcessOp.Ans Crash (ProcessEvent ℚ)) :=
  .begin 0 :: List.replicate 24 (.resume 0 stubborn) ++ .outside (.signal .int) :: List.replicate 20 (.resume 0 stubborn) ++
    .outside (.clock 31) :: List.replicate 18 (.resume 0 stubborn)

theorem follows_of_run_interrupted : ∃ p, job.Run (ProcessController.boot smallProcesses 0 smallJob) p ∧
    p.world.state.events.length = 16 ∧ Along (Follows smallJob) p.world.state.events := by
  have hexec : ((job.exec (ProcessController.boot smallProcesses 0 smallJob) interrupted).any fun p =>
      decide (p.world.state.events.length = 16)) = true := by decide +kernel
  obtain ⟨p, hp, hlength⟩ := (Option.any_eq_true _ _).mp hexec
  have hrun : job.Run (ProcessController.boot smallProcesses 0 smallJob) p := Loop.Run.refl.exec hp
  exact ⟨p, hrun, of_decide_eq_true hlength, follows_of_run hrun⟩

end Small
end CanaTune
