import CanaTune.Infrastructure.GpuAgent
import CanaTune.Controller.State

/-! The agent's threads act on a GPU one after the other: whatever their interleaving, a GPU is at the clock that its
    sessions leave it at in turn, and a reply says what has been done. What a thread knows of the GPU it holds is a
    predicate of that GPU's view alone. -/

namespace CanaTune
variable {K : Type} {α : Type}

/-- Where a task that has been carried out leaves the SM clock. -/
def AgentTask.effect : AgentTask → Option ℕ
  | .lock mhz => some mhz
  | .reset => none

/-- The SM clock of a GPU after its sessions, one after the other. -/
def replay (gpu : ℕ) (served : List (Served K)) : Option ℕ :=
  served.foldl (fun sm s => if s.gpu = gpu ∧ s.applied = true then s.task.effect else sm) none

theorem replay_append (gpu : ℕ) (served : List (Served K)) (s : Served K) : replay gpu (served ++ [s]) =
    if s.gpu = gpu ∧ s.applied = true then s.task.effect else replay gpu served := by
  rw [replay, List.foldl_append]
  rfl

/-- A GPU is at the clock of a lock that has been carried out. -/
theorem mem_of_replay {gpu mhz : ℕ} {served : List (Served K)} (h : replay gpu served = some mhz) :
    ∃ s ∈ served, s.gpu = gpu ∧ s.task = .lock mhz := by
  induction served using List.reverseRecOn with
  | nil => cases h
  | append_singleton served s ih =>
    rw [replay_append] at h
    split_ifs at h with hs
    · refine ⟨s, List.mem_append_right _ (List.mem_singleton_self s), hs.1, ?_⟩
      cases htask : s.task with
      | lock f =>
        rw [htask] at h
        rw [Option.some.inj h]
      | reset =>
        rw [htask] at h
        cases h
    · obtain ⟨t, ht, htold⟩ := ih h
      exact ⟨t, List.mem_append_left _ ht, htold⟩

/-- What the agent may be asked for. -/
structure AgentSettings.Permits (c : AgentSettings K) (gpu : ℕ) (task : AgentTask) : Prop where
  managed : gpu ∈ c.gpus
  allowed : ∀ mhz, task = .lock mhz → mhz ∈ c.allowed gpu

/-- The reply says what has been done. -/
structure Served.Honest (c : AgentSettings K) (s : Served K) : Prop where
  lock : ∀ result, s.outcome = .ok (some result) → s.task = .lock result.targetMhz ∧ result.gpu = s.gpu
  done : ∀ result, s.outcome = .ok (some result) → result.ok = true → s.applied = true
  confirmed : ∀ result, s.outcome = .ok (some result) → result.reachMs.isSome →
    result.ok = true ∧ |result.smMhz - result.targetMhz| ≤ c.toleranceMhz
  reset : s.outcome = .ok none → s.task = .reset ∧ s.applied = true

theorem Served.honest_error (c : AgentSettings K) (gpu : ℕ) (task : AgentTask) (applied : Bool) (e : AgentError) :
    Honest c ⟨gpu, task, applied, .error e⟩ := by
  constructor <;> simp

/-! ### One GPU -/

/-- All that a GPU's lock guards, and what its sessions so far have left. -/
structure GpuView where
  clocks : GpuClocks
  session : Option Session
  memoryLocked : Prop
  memoryLost : Prop
  replayed : Option ℕ

def Agent.view (a : Agent K) (gpu : ℕ) : GpuView :=
  ⟨a.clocks gpu, a.session gpu, gpu ∈ a.memoryLocked, gpu ∈ a.memoryLost, replay gpu a.served⟩

namespace GpuView
variable {c : AgentSettings K} {g me : ℕ} {task : AgentTask} {v : GpuView} {r : SmiRun} {command : SmiCommand}

def holder (v : GpuView) : Option ℕ := v.session.map (·.thread)

/-- The memory clock is the configured one, unless a reset gave it up unnoticed. -/
def HasMemory (c : AgentSettings K) (v : GpuView) : Prop :=
  ∀ m, c.memoryMhz = some m → v.clocks.memory = some m ∨ v.memoryLost

/-- A memory clock that is remembered as locked is locked. -/
def Kept (c : AgentSettings K) (v : GpuView) : Prop := v.memoryLocked → v.HasMemory c

structure Fit (c : AgentSettings K) (g : ℕ) (v : GpuView) : Prop where
  sm : v.clocks.sm = v.session.elim v.replayed fun s => if s.applied then s.task.effect else v.replayed
  permits : ∀ s, v.session = some s → c.Permits g s.task
  memory : ∀ f, v.clocks.sm = some f → v.HasMemory c
  kept : v.session = none → v.Kept c

def take (v : GpuView) (thread : ℕ) (task : AgentTask) : GpuView := { v with session := some ⟨thread, task, false⟩ }

def leave (v : GpuView) : GpuView :=
  { v with session := none, replayed := v.session.elim v.replayed fun s => if s.applied then s.task.effect else v.replayed }

def ran (v : GpuView) (command : SmiCommand) (r : SmiRun) : GpuView :=
  if r.applied then
    { v with
      clocks := v.clocks.after command
      session := if command.serves then v.session.map fun s => { s with applied := true } else v.session
      memoryLost := v.memoryLost ∨ command = .resetMemory ∧ r.done = false }
  else v

/-- A thread holds the GPU for its task. -/
def Held (me : ℕ) (task : AgentTask) (v : GpuView) : Prop := ∃ applied, v.session = some ⟨me, task, applied⟩

theorem Held.holder (h : v.Held me task) : v.holder = some me := by
  obtain ⟨applied, hs⟩ := h
  rw [GpuView.holder, hs]
  rfl

theorem Held.ran (h : v.Held me task) : (v.ran command r).Held me task := by
  obtain ⟨applied, hs⟩ := h
  unfold GpuView.ran
  split
  · by_cases hserves : command.serves = true
    · exact ⟨true, by simp [hserves, hs]⟩
    · exact ⟨applied, by simp [hserves, hs]⟩
  · exact ⟨applied, hs⟩

theorem fit_take (h : v.Fit c g) (hfree : v.session = none) (hpermits : c.Permits g task) : (v.take me task).Fit c g where
  sm := by
    rw [take, h.sm, hfree]
    rfl
  permits s hs := by
    obtain rfl := Option.some.inj hs
    exact hpermits
  memory f hf := h.memory f hf
  kept hnone := by cases hnone

theorem fit_leave (h : v.Fit c g) (hkept : v.Kept c) : v.leave.Fit c g where
  sm := h.sm
  permits s hs := by cases hs
  memory f hf := h.memory f hf
  kept _ := hkept

/-- A run that changes only the memory clock, to what is configured. -/
theorem fit_lockMemory {m : ℕ} (h : v.Fit c g) (hm : c.memoryMhz = some m) : (v.ran (.lockMemory m) r).Fit c g := by
  unfold ran
  split
  · refine ⟨h.sm, h.permits, fun f hf m' hm' => .inl ?_, fun hnone hlocked m' hm' => .inl ?_⟩
    · exact hm.symm.trans hm'
    · exact hm.symm.trans hm'
  · exact h

theorem hasMemory_lockMemory {m : ℕ} (hm : c.memoryMhz = some m) (hr : r.applied = true) :
    (v.ran (.lockMemory m) r).HasMemory c := by
  intro m' hm'
  rw [ran, if_pos hr]
  exact .inl (hm.symm.trans hm')

theorem kept_lockMemory {m : ℕ} (h : v.Kept c) (hm : c.memoryMhz = some m) : (v.ran (.lockMemory m) r).Kept c := by
  intro hlocked
  by_cases hr : r.applied = true
  · exact hasMemory_lockMemory hm hr
  · rw [ran, if_neg hr] at hlocked ⊢
    exact h hlocked

theorem hasMemory_lockSm {mhz : ℕ} (h : v.HasMemory c) : (v.ran (.lockSm mhz) r).HasMemory c := by
  intro m hm
  unfold ran
  split
  · rcases h m hm with hmemory | hlost
    · exact .inl hmemory
    · exact .inr (.inl hlost)
  · exact h m hm

theorem fit_lockSm {mhz : ℕ} (h : v.Fit c g) (hheld : v.Held me (.lock mhz)) (hmemory : v.HasMemory c) :
    (v.ran (.lockSm mhz) r).Fit c g := by
  obtain ⟨applied, hs⟩ := hheld
  have hafter : (v.ran (.lockSm mhz) r).HasMemory c := hasMemory_lockSm hmemory
  have hpermits := h.permits _ hs
  unfold ran at hafter ⊢
  split at hafter
  case isTrue hr =>
    rw [if_pos hr]
    refine ⟨?_, fun s hs' => ?_, fun f hf => hafter, fun _ _ => hafter⟩
    · simp [SmiCommand.serves, hs, GpuClocks.after, AgentTask.effect]
    · obtain rfl : (⟨me, .lock mhz, true⟩ : Session) = s := by simpa [SmiCommand.serves, hs] using hs'
      exact hpermits
  case isFalse hr =>
    rw [if_neg hr]
    exact h

theorem fit_resetSm (h : v.Fit c g) (hheld : v.Held me .reset) : (v.ran .resetSm r).Fit c g := by
  obtain ⟨applied, hs⟩ := hheld
  have hpermits := h.permits _ hs
  unfold ran
  split
  · refine ⟨?_, fun s hs' => ?_, fun f hf => ?_, fun hnone => ?_⟩
    · simp [SmiCommand.serves, hs, GpuClocks.after, AgentTask.effect]
    · obtain rfl : (⟨me, .reset, true⟩ : Session) = s := by simpa [SmiCommand.serves, hs] using hs'
      exact hpermits
    · simp [GpuClocks.after] at hf
    · simp [SmiCommand.serves, hs] at hnone
  · exact h

theorem kept_resetSm (h : v.Kept c) : (v.ran .resetSm r).Kept c := by
  intro hlocked m hm
  by_cases hr : r.applied = true
  · rw [ran, if_pos hr] at hlocked ⊢
    rcases h hlocked m hm with hmemory | hlost
    · exact .inl hmemory
    · exact .inr (.inl hlost)
  · rw [ran, if_neg hr] at hlocked ⊢
    exact h hlocked m hm

theorem fit_resetMemory (h : v.Fit c g) (hheld : v.Held me task) (hoff : v.clocks.sm = none) :
    (v.ran .resetMemory r).Fit c g := by
  obtain ⟨applied, hs⟩ := hheld
  unfold ran
  split
  · refine ⟨h.sm, h.permits, fun f hf => ?_, fun hnone => ?_⟩
    · exact absurd (hoff.symm.trans hf) (by simp)
    · exact absurd (hs.symm.trans hnone) (by simp)
  · exact h

/-- A memory clock is given up unnoticed only where the reset says that it failed. -/
theorem kept_resetMemory (h : v.Kept c) (hfailed : r.done = false) : (v.ran .resetMemory r).Kept c := by
  intro hlocked m hm
  by_cases hr : r.applied = true
  · rw [ran, if_pos hr]
    exact .inr (.inr ⟨rfl, hfailed⟩)
  · rw [ran, if_neg hr] at hlocked ⊢
    exact h hlocked m hm

/-- Its task is not carried out yet, or not known to be. -/
def Before (c : AgentSettings K) (me : ℕ) (task : AgentTask) (v : GpuView) : Prop := v.Held me task ∧ v.Kept c

/-- Its task is carried out. -/
def Carried (c : AgentSettings K) (me : ℕ) (task : AgentTask) (v : GpuView) : Prop :=
  v.session = some ⟨me, task, true⟩ ∧ v.Kept c

theorem Carried.before (h : v.Carried c me task) : v.Before c me task := ⟨⟨true, h.1⟩, h.2⟩

theorem Carried.held (h : v.Carried c me task) : v.Held me task := ⟨true, h.1⟩

theorem session_ran (h : v.Held me task) (hserves : command.serves = true) (hr : r.applied = true) :
    (v.ran command r).session = some ⟨me, task, true⟩ := by
  obtain ⟨applied, hs⟩ := h
  simp [ran, hr, hserves, hs]

/-- The session ends with an outcome that may be told. -/
def Told (c : AgentSettings K) (g me : ℕ) (task : AgentTask) (outcome : Except AgentError (Option (LockResult K)))
    (v : GpuView) : Prop :=
  ∃ applied, v.session = some ⟨me, task, applied⟩ ∧ v.Kept c ∧ Served.Honest c ⟨g, task, applied, outcome⟩

theorem Before.told (h : v.Before c me task) (e : AgentError) :
    v.Told c g me task (.error e : Except AgentError (Option (LockResult K))) := by
  obtain ⟨⟨applied, hs⟩, hkept⟩ := h
  exact ⟨applied, hs, hkept, Served.honest_error c g task applied e⟩

end GpuView

/-! ### All GPUs -/

namespace Agent
variable {c : AgentSettings K} {a : Agent K} {me g : ℕ} {task : AgentTask}
  {outcome : Except AgentError (Option (LockResult K))}

theorem view_take (a : Agent K) (me g : ℕ) (task : AgentTask) (i : ℕ) :
    (a.take me g task).view i = if i = g then (a.view i).take me task else a.view i := by
  by_cases hi : i = g
  · subst hi
    simp [view, take, GpuView.take]
  · simp [view, take, hi]

theorem view_setMemoryLocked (a : Agent K) (g : ℕ) (locked : Bool) (i : ℕ) :
    (a.setMemoryLocked g locked).view i = if i = g then { a.view i with memoryLocked := locked = true } else a.view i := by
  by_cases hi : i = g
  · subst hi
    cases locked <;> simp [view, setMemoryLocked]
  · cases locked <;> simp [view, setMemoryLocked, hi]

theorem view_ran (a : Agent K) (g : ℕ) (command : SmiCommand) (r : SmiRun) (i : ℕ) :
    (a.ran g command r).view i = if i = g then (a.view i).ran command r else a.view i := by
  unfold ran GpuView.ran
  by_cases hr : r.applied = true
  · by_cases hi : i = g
    · subst hi
      cases command <;> cases r.done <;> simp [view, hr, SmiCommand.serves]
    · cases command <;> cases r.done <;> simp [view, hr, hi, SmiCommand.serves]
  · simp [hr]

theorem view_leave (a : Agent K) (g : ℕ) (outcome : Except AgentError (Option (LockResult K))) (i : ℕ) :
    (a.leave g outcome).view i = if i = g then (a.view i).leave else a.view i := by
  have hreplay : replay i (a.leave g outcome).served = if i = g then (a.view i).leave.replayed else replay i a.served := by
    unfold leave
    cases hs : a.session g with
    | none =>
      split_ifs with hi
      · subst hi
        simp [view, GpuView.leave, hs]
      · simp
    | some s =>
      simp only [Option.map_some, Option.toList_some, replay_append]
      split_ifs with h hi hi
      · simp [view, GpuView.leave, ← h.1, hs, h.2]
      · exact absurd h.1.symm hi
      · subst hi
        simp [view, GpuView.leave, hs, show s.applied = false by simpa using h]
      · rfl
  by_cases hi : i = g
  · subst hi
    simp only [if_true] at hreplay ⊢
    rw [view, hreplay]
    simp [view, leave, GpuView.leave]
  · simp only [hi, if_false] at hreplay ⊢
    rw [view, hreplay]
    simp [view, leave, hi]

/-- Every GPU is as its sessions leave it, and every reply is honest. -/
structure Orderly (c : AgentSettings K) (a : Agent K) : Prop where
  settings : a.settings = c
  fit : ∀ g, (a.view g).Fit c g
  served : ∀ s ∈ a.served, c.Permits s.gpu s.task ∧ s.Honest c

/-- A GPU's lock guards all that is seen of the GPU. -/
def locks : Guarded (Agent K) ℕ GpuView := ⟨fun a g => (a.session g).map (·.thread), view⟩

theorem holder_view (a : Agent K) (g : ℕ) : locks.holder a g = (a.view g).holder := rfl

/-- A step at one GPU, by a thread that alone may hold it. -/
theorem respects_of_view {a' : Agent K} {f : GpuView → GpuView}
    (hview : ∀ i, a'.view i = if i = g then f (a.view i) else a.view i)
    (before : (a.view g).holder = none ∨ (a.view g).holder = some me)
    (after : (f (a.view g)).holder = none ∨ (f (a.view g)).holder = some me) : locks.Respects me a a' := by
  have hnot {o : Option ℕ} (h : o = none ∨ o = some me) (other : ℕ) (hne : other ≠ me) : o ≠ some other := by
    rcases h with rfl | rfl
    · simp
    · exact fun h => hne (Option.some.inj h).symm
  refine .of_key (k := g) (hnot before) (fun other hne => ?_) fun i hi => ?_
  · rw [holder_view, hview, if_pos rfl]
    exact hnot after other hne
  · have hsame : a'.view i = a.view i := by rw [hview, if_neg hi]
    exact ⟨by rw [holder_view, holder_view, hsame], hsame⟩

theorem Orderly.of_view (h : Orderly c a) {a' : Agent K} {f : GpuView → GpuView}
    (hview : ∀ i, a'.view i = if i = g then f (a.view i) else a.view i) (hsettings : a'.settings = a.settings)
    (hfit : (f (a.view g)).Fit c g) (hserved : ∀ s ∈ a'.served, s ∈ a.served ∨ c.Permits s.gpu s.task ∧ s.Honest c) :
    Orderly c a' where
  settings := hsettings.trans h.settings
  fit i := by
    rw [hview]
    split_ifs with hi
    · subst hi
      exact hfit
    · exact h.fit i
  served s hs := (hserved s hs).elim (h.served s) id

theorem orderly_fresh (c : AgentSettings K) (now : K) : (fresh c now).Orderly c where
  settings := rfl
  fit g := ⟨rfl, fun s hs => absurd hs (by simp [view, fresh]), fun f hf => absurd hf (by simp [view, fresh]),
    fun _ hlocked => absurd hlocked (Finset.notMem_empty g)⟩
  served s hs := absurd hs List.not_mem_nil

end Agent

/-! ### Threads -/

section Threads
open AgentThread
variable [Scalar K] {c : AgentSettings K} {me g mhz : ℕ} {task : AgentTask} {l : AgentLabel} {φ ψ χ : GpuView → Prop}
  {E : AgentError → World AgentLabel (Agent K) → Prop}

abbrev agentConduct (c : AgentSettings K) (me : ℕ) (l : AgentLabel) :
    Co.Conduct (World AgentLabel (Agent K)) AgentOp AgentOp.Ans AgentError :=
  (Guarded.contract agent Agent.locks (Agent.Orderly c)).conduct me l

/-- What a thread knows of the GPU. -/
abbrev On (g : ℕ) (φ : GpuView → Prop) (w : World AgentLabel (Agent K)) : Prop := φ (w.state.view g)

/-- A thread acts on the GPU it holds. -/
theorem triple_agentUpdate (fv : GpuView → GpuView) (hφ : ∀ v, φ v → v.Held me task)
    {P : World AgentLabel (Agent K) → Prop} (hP : ∀ w, P w → On g φ w)
    {f : Agent K → Agent K} (hview : ∀ a i, (f a).view i = if i = g then fv (a.view i) else a.view i)
    (hsettings : ∀ a, (f a).settings = a.settings) (hserved : ∀ a, (f a).served = a.served)
    (hfit : ∀ w, P w → (w.state.view g).Fit c g → (fv (w.state.view g)).Fit c g ∧ (fv (w.state.view g)).Held me task ∧
      ψ (fv (w.state.view g))) :
    Co.Triple (agentConduct c me l) P (AgentThread.modify f) (fun _ => On g ψ) E := by
  refine Guarded.triple_update fun w hinv hp => ?_
  obtain ⟨hnew, hheld, hψ⟩ := hfit w hp (hinv.fit g)
  refine ⟨hinv.of_view (hview w.state) (hsettings _) hnew fun s hs => .inl (hserved w.state ▸ hs), ?_, ?_⟩
  · exact Agent.respects_of_view (hview w.state) (.inr (hφ _ (hP w hp)).holder) (.inr hheld.holder)
  · show ψ ((f w.state).view g)
    rw [hview, if_pos rfl]
    exact hψ

theorem triple_preempt (hφ : ∀ v, φ v → v.Held me task) :
    Co.Triple (agentConduct c me l) (On g φ) (preempt : AgentThread K Unit) (fun _ => On g φ) E :=
  Guarded.triple_call (fun _ ha => (hφ _ ha).holder) (fun _ _ _ ha _ => ha) fun _ _ _ _ hans =>
    absurd hans (by simp [agent, Agent.answers])

/-- A run of `nvidia-smi` on the GPU a thread holds: what it leaves where it confirms, and where it fails. -/
theorem triple_smi (command : SmiCommand) (hφ : ∀ v, φ v → v.Held me task)
    (hfit : ∀ v r, v.Fit c g → φ v → (v.ran command r).Fit c g)
    (hdone : ∀ v r, v.Fit c g → φ v → r.done = true → r.applied = true → ψ (v.ran command r))
    (hfailed : ∀ v r, v.Fit c g → φ v → r.done = false → χ (v.ran command r)) :
    Co.Triple (agentConduct c me l) (On g φ) (smi g command : AgentThread K Unit) (fun _ => On g ψ) fun _ => On g χ := by
  have hcall : Co.Triple (agentConduct c me l) (On g φ) (nvidiaSmi g command : AgentThread K SmiRun)
      (fun r w => On g φ w ∧ (r.done = true → r.applied = true)) fun _ => On g χ := by
    refine Guarded.triple_call (fun _ ha => (hφ _ ha).holder) (fun w r _ ha hans => ⟨ha, fun hr => ?_⟩)
      fun _ _ _ _ hans => ?_
    · have hans : (!r.done || r.applied) = true := hans
      simpa [hr] using hans
    · exact absurd hans (by simp [agent, Agent.answers])
  refine hcall.bind fun r => ?_
  have hran : Co.Triple (agentConduct c me l) (fun w => On g φ w ∧ (r.done = true → r.applied = true))
      (AgentThread.modify fun a : Agent K => a.ran g command r)
      (fun _ => On g fun v => if r.done then ψ v else χ v) fun _ => On g χ := by
    refine triple_agentUpdate (fun v => v.ran command r) hφ (fun w hw => hw.1) (fun a i => a.view_ran g command r i)
      (fun a => ?_) (fun a => ?_)
      fun w hw hfit' => ⟨hfit _ r hfit' hw.1, (hφ _ hw.1).ran, ?_⟩
    · unfold Agent.ran
      split <;> rfl
    · unfold Agent.ran
      split <;> rfl
    · by_cases hr : r.done = true
      · rw [if_pos hr]
        exact hdone _ r hfit' hw.1 hr (hw.2 hr)
      · rw [if_neg hr]
        exact hfailed _ r hfit' hw.1 (Bool.eq_false_of_not_eq_true hr)
  refine hran.bind fun _ => ?_
  cases hended : r.ended with
  | none =>
    have hnot : r.done = false := by simp [SmiRun.done, hended]
    exact Co.Triple.raise fun w hw => by simpa [On, hnot] using hw
  | some e =>
    obtain ⟨returncode, allDone, output⟩ := e
    dsimp only
    split
    case isTrue hr => exact Co.Triple.pure fun w hw => by simpa [On, hr] using hw
    case isFalse hr => exact Co.Triple.raise fun w hw => by simpa [On, hr] using hw

/-- What a thread reads is what the state was. -/
theorem triple_look {P : World AgentLabel (Agent K) → Prop} {k : Agent K → AgentThread K α}
    {Q : α → World AgentLabel (Agent K) → Prop}
    (h : ∀ a, Co.Triple (agentConduct c me l) (fun w => P w ∧ w.state = a) (k a) Q E) :
    Co.Triple (agentConduct c me l) P (AgentThread.get >>= k) Q E := fun w₀ w hw hp => h w.state w₀ w hw ⟨hp, rfl⟩

/-- The configuration never changes. -/
theorem triple_settings {P : World AgentLabel (Agent K) → Prop} {p : AgentThread K α}
    {Q : α → World AgentLabel (Agent K) → Prop}
    (h : Co.Triple (agentConduct c me l) (fun w => P w ∧ w.state.settings = c ∧ ∀ g, (w.state.view g).Fit c g) p Q E) :
    Co.Triple (agentConduct c me l) P p Q E := fun w₀ w hw hp => h w₀ w hw ⟨hp, hw.1.1.settings, hw.1.1.fit⟩

theorem triple_lockMemory : Co.Triple (agentConduct c me l) (On g (GpuView.Before c me (.lock mhz)))
    (lockMemory g : AgentThread K Unit)
    (fun _ => On g fun v => v.Held me (.lock mhz) ∧ v.HasMemory c) fun _ => On g (GpuView.Before c me (.lock mhz)) := by
  refine triple_settings (triple_look fun a => ?_)
  cases hm : a.settings.memoryMhz with
  | none =>
    refine Co.Triple.pure fun w hw => ⟨hw.1.1.1, fun m hm' => ?_⟩
    rw [← hw.1.2.1, hw.2, hm] at hm'
    cases hm'
  | some memory =>
    dsimp only
    split
    case isTrue hlocked =>
      refine Co.Triple.pure fun w hw => ⟨hw.1.1.1, hw.1.1.2 ?_⟩
      show g ∈ w.state.memoryLocked
      rw [hw.2]
      exact hlocked
    case isFalse =>
      by_cases hc : c.memoryMhz = some memory
      · have hsmi : Co.Triple (agentConduct c me l) (On g (GpuView.Before c me (.lock mhz)))
            (smi g (.lockMemory memory) : AgentThread K Unit)
            (fun _ => On g fun v => v.Held me (.lock mhz) ∧ v.HasMemory c) fun _ =>
              On g (GpuView.Before c me (.lock mhz)) :=
          triple_smi (.lockMemory memory) (fun _ hv => hv.1) (fun _ _ hfit _ => GpuView.fit_lockMemory hfit hc)
            (fun _ _ _ hv _ hr => ⟨hv.1.ran, GpuView.hasMemory_lockMemory hc hr⟩)
            fun _ _ _ hv _ => ⟨hv.1.ran, GpuView.kept_lockMemory hv.2 hc⟩
        refine Co.Triple.bind (hsmi.conseq (fun _ hw => hw.1.1) (fun _ _ hw => hw) fun _ _ hw => hw) fun _ => ?_
        refine (triple_preempt fun _ hv => hv.1).bind fun _ => ?_
        refine triple_agentUpdate (fun v => { v with memoryLocked := true = true }) (fun _ hv => hv.1) (fun _ hw => hw)
          (fun a i => a.view_setMemoryLocked g true i) (fun _ => rfl) (fun _ => rfl) fun w hw hfit => ?_
        exact ⟨⟨hfit.sm, hfit.permits, fun _ _ => hw.2, fun _ _ => hw.2⟩, hw.1, hw.1, hw.2⟩
      · intro w₀ w _ hw
        exact absurd (by rw [← hw.1.2.1, hw.2, hm]) hc

theorem triple_backendLock : Co.Triple (agentConduct c me l) (On g (GpuView.Before c me (.lock mhz)))
    (backendLock g mhz : AgentThread K Unit) (fun _ => On g (GpuView.Carried c me (.lock mhz)))
    fun _ => On g (GpuView.Before c me (.lock mhz)) :=
  triple_lockMemory.bind fun _ => triple_smi (.lockSm mhz) (fun _ hv => hv.1)
    (fun _ _ hfit hv => GpuView.fit_lockSm hfit hv.1 hv.2)
    (fun _ _ _ hv _ hr => ⟨GpuView.session_ran hv.1 rfl hr, fun _ => GpuView.hasMemory_lockSm hv.2⟩)
    fun _ _ _ hv _ => ⟨hv.1.ran, fun _ => GpuView.hasMemory_lockSm hv.2⟩

/-- After a reset of the SM clock the memory clock is given up. -/
theorem triple_resetMemory : Co.Triple (agentConduct c me l)
    (On g fun v => v.Carried c me .reset ∧ v.clocks.sm = none) (resetMemory g : AgentThread K Unit)
    (fun _ => On g (GpuView.Carried c me .reset)) fun _ => On g (GpuView.Before c me .reset) := by
  refine triple_look fun a => ?_
  split
  case isFalse => exact Co.Triple.pure fun w hw => hw.1.1
  case isTrue =>
    have hsmi : Co.Triple (agentConduct c me l) (On g fun v => v.Carried c me .reset ∧ v.clocks.sm = none)
        (smi g .resetMemory : AgentThread K Unit)
        (fun _ => On g fun v => v.session = some ⟨me, .reset, true⟩ ∧ v.clocks.sm = none)
        fun _ => On g (GpuView.Before c me .reset) :=
      triple_smi .resetMemory
        (fun _ hv => hv.1.held) (fun _ _ hfit hv => GpuView.fit_resetMemory hfit hv.1.held hv.2)
        (fun v r _ hv _ hr => by simp [GpuView.ran, hr, SmiCommand.serves, hv.1.1, GpuClocks.after, hv.2])
        fun _ _ _ hv hr => ⟨hv.1.held.ran, GpuView.kept_resetMemory hv.1.2 hr⟩
    refine Co.Triple.bind (hsmi.conseq (fun _ hw => hw.1) (fun _ _ hw => hw) fun _ _ hw => hw) fun _ => ?_
    refine (triple_preempt fun _ hv => ⟨true, hv.1⟩).bind fun _ => ?_
    refine triple_agentUpdate (fun v => { v with memoryLocked := false = true }) (fun _ hv => ⟨true, hv.1⟩) (fun _ hw => hw)
      (fun a i => a.view_setMemoryLocked g false i) (fun _ => rfl) (fun _ => rfl) fun w hw hfit => ?_
    refine ⟨⟨hfit.sm, hfit.permits, hfit.memory, fun hnone => ?_⟩, ⟨true, hw.1⟩, hw.1,
      fun hlocked => Bool.noConfusion hlocked⟩
    exact absurd (hw.1.symm.trans hnone) (by simp)

theorem triple_backendReset : Co.Triple (agentConduct c me l) (On g (GpuView.Before c me .reset))
    (backendReset g : AgentThread K Unit) (fun _ => On g (GpuView.Carried c me .reset))
    fun _ => On g (GpuView.Before c me .reset) := by
  have hsmi : Co.Triple (agentConduct c me l) (On g (GpuView.Before c me .reset)) (smi g .resetSm : AgentThread K Unit)
      (fun _ => On g fun v => v.Carried c me .reset ∧ v.clocks.sm = none) fun _ => On g (GpuView.Before c me .reset) :=
    triple_smi .resetSm (fun _ hv => hv.1) (fun _ _ hfit hv => GpuView.fit_resetSm hfit hv.1)
      (fun _ _ _ hv _ hr => ⟨⟨GpuView.session_ran hv.1 rfl hr, GpuView.kept_resetSm hv.2⟩,
        by simp [GpuView.ran, hr, GpuClocks.after]⟩)
      fun _ _ _ hv _ => ⟨hv.1.ran, GpuView.kept_resetSm hv.2⟩
  exact hsmi.bind fun _ => (triple_preempt fun _ hv => hv.1.held).bind fun _ => triple_resetMemory

/-- The read-backs leave the GPU as it is. -/
theorem triple_confirm (t0 cmdMs : K) (polls : ℕ) :
    Co.Triple (agentConduct c me l) (On g (GpuView.Carried c me (.lock mhz)))
    (confirm g mhz t0 cmdMs polls) (fun result => On g (GpuView.Told c g me (.lock mhz) (.ok (some result))))
    fun _ => On g (GpuView.Before c me (.lock mhz)) := by
  induction polls with
  -- A confirmation out of polls never answers.
  | zero =>
    have hcall : Co.Triple (agentConduct c me l) (On g (GpuView.Carried c me (.lock mhz))) (beyond : AgentThread K Empty)
        (fun _ _ => False) fun _ => On g (GpuView.Before c me (.lock mhz)) :=
      Guarded.triple_call (fun _ hv => hv.held.holder) (fun _ never => never.elim)
        fun _ _ _ _ hans => absurd hans (by simp [agent, Agent.answers])
    exact hcall.bind fun never => never.elim
  | succ polls ih =>
    have hcall : Co.Triple (agentConduct c me l) (On g (GpuView.Carried c me (.lock mhz))) (smMhz g : AgentThread K ℤ)
        (fun _ => On g (GpuView.Carried c me (.lock mhz))) fun _ => On g (GpuView.Before c me (.lock mhz)) :=
      Guarded.triple_call (fun _ hv => hv.held.holder) (fun _ _ _ hv _ => hv) fun _ _ _ hv _ => hv.before
    refine hcall.bind fun current => triple_settings (triple_look fun a => ?_)
    have htold {w : World AgentLabel (Agent K)} {result : LockResult K} (hv : On g (GpuView.Carried c me (.lock mhz)) w)
        (hresult : result.ok = true ∧ result.gpu = g ∧ result.targetMhz = mhz)
        (hnear : result.reachMs.isSome → |result.smMhz - result.targetMhz| ≤ c.toleranceMhz) :
        On g (GpuView.Told c g me (.lock mhz) (.ok (some result))) w := by
      obtain ⟨hok, hgpu, htarget⟩ := hresult
      refine ⟨true, hv.1, hv.2, fun r hr => ?_, fun _ _ _ => rfl, fun r hr hreach => ?_, fun hr => by simp at hr⟩
      · obtain rfl : result = r := by simpa using hr
        exact ⟨by rw [htarget], hgpu⟩
      · obtain rfl : result = r := by simpa using hr
        exact ⟨hok, hnear hreach⟩
    split
    case isTrue hle =>
      refine Co.Triple.pure fun w hw => htold hw.1.1 ⟨rfl, rfl, rfl⟩ fun _ => ?_
      rw [← hw.1.2.1, hw.2]
      exact hle
    case isFalse =>
      split
      · exact Co.Triple.pure fun w hw => htold hw.1.1 ⟨rfl, rfl, rfl⟩ fun h => by simp at h
      · have hsleep : Co.Triple (agentConduct c me l) (On g (GpuView.Carried c me (.lock mhz))) (sleep : AgentThread K Unit)
            (fun _ => On g (GpuView.Carried c me (.lock mhz))) fun _ => On g (GpuView.Before c me (.lock mhz)) :=
          Guarded.triple_call (fun _ hv => hv.held.holder) (fun _ _ _ hv _ => hv) fun _ _ _ hv _ => hv.before
        exact Co.Triple.bind (hsleep.conseq (fun _ hw => hw.1.1) (fun _ _ hw => hw) fun _ _ hw => hw) fun _ => ih

/-- A failed lock is told as such. -/
theorem triple_lockClock (polls : ℕ) : Co.Triple (agentConduct c me l) (On g (GpuView.Before c me (.lock mhz)))
    (lockClock g mhz polls : AgentThread K (Option (LockResult K)))
    (fun outcome => On g (GpuView.Told c g me (.lock mhz) (.ok outcome)))
    fun e => On g (GpuView.Told c g me (.lock mhz) (.error e : Except AgentError (Option (LockResult K)))) := by
  refine triple_look fun a => ?_
  have hlocked : Co.Triple (agentConduct c me l) (On g (GpuView.Before c me (.lock mhz)))
      (backendLock g mhz : AgentThread K Unit).attempt
      (fun r => On g fun v => (r.isOk = true → v.Carried c me (.lock mhz)) ∧ v.Before c me (.lock mhz))
      fun e => On g (GpuView.Told c g me (.lock mhz) (.error e : Except AgentError (Option (LockResult K)))) := by
    refine triple_backendLock.attempt.conseq (fun _ hw => hw) (fun r w hw => ?_) fun _ _ hw => hw
    cases r with
    | ok _ => exact ⟨fun _ => hw, hw.before⟩
    | error e => exact ⟨fun h => Bool.noConfusion h, hw⟩
  refine Co.Triple.bind (hlocked.conseq (fun _ hw => hw.1) (fun _ _ hw => hw) fun _ _ hw => hw) fun r =>
    triple_look fun b => ?_
  cases r with
  | error e =>
    have hcall : Co.Triple (agentConduct c me l) (On g (GpuView.Before c me (.lock mhz))) (smMhz g : AgentThread K ℤ)
        (fun _ => On g (GpuView.Before c me (.lock mhz)))
        fun e => On g (GpuView.Told c g me (.lock mhz) (.error e : Except AgentError (Option (LockResult K)))) :=
      Guarded.triple_call (fun _ hv => hv.1.holder) (fun _ _ _ hv _ => hv) fun _ e _ hv _ => hv.told e
    refine Co.Triple.bind (hcall.conseq (fun _ hw => hw.1.2) (fun _ _ hw => hw) fun _ _ hw => hw) fun current => ?_
    refine Co.Triple.pure fun w hw => ?_
    obtain ⟨⟨applied, hs⟩, hkept⟩ := hw
    refine ⟨applied, hs, hkept, fun r hr => ?_, fun r hr hok => ?_, fun r hr hreach => ?_, fun hr => by simp at hr⟩
    all_goals obtain rfl := Option.some.inj (Except.ok.inj hr)
    · exact ⟨rfl, rfl⟩
    · cases hok
    · simp at hreach
  | ok _ =>
    refine Co.Triple.bind ((triple_confirm a.now ((b.now - a.now) * 1000) polls).conseq (fun w hw => hw.1.1 rfl)
      (fun _ _ hw => hw) fun e _ hw => hw.told e) fun result => ?_
    exact Co.Triple.pure fun _ hw => hw

theorem triple_resetClock : Co.Triple (agentConduct c me l) (On g (GpuView.Before c me .reset))
    (resetClock g : AgentThread K (Option (LockResult K))) (fun outcome => On g (GpuView.Told c g me .reset (.ok outcome)))
    fun e => On g (GpuView.Told c g me .reset (.error e : Except AgentError (Option (LockResult K)))) := by
  refine Co.Triple.bind (triple_backendReset.conseq (fun _ hw => hw) (fun _ _ hw => hw) fun e _ hw => hw.told e) fun _ => ?_
  refine Co.Triple.pure fun w hw => ⟨true, hw.1, hw.2, fun r hr => ?_, fun r hr => ?_, fun r hr => ?_, fun _ => ⟨rfl, rfl⟩⟩
  all_goals simp at hr

/-- The lock of a GPU is held for one task, and given back with its outcome. -/
theorem triple_exclusively {body : AgentThread K (Option (LockResult K))} (hpermits : c.Permits g task)
    (hbody : Co.Triple (agentConduct c me l) (On g (GpuView.Before c me task)) body
      (fun outcome => On g (GpuView.Told c g me task (.ok outcome)))
      fun e => On g (GpuView.Told c g me task (.error e : Except AgentError (Option (LockResult K))))) :
    Co.Triple (agentConduct c me l) (fun _ => True) (exclusively me g task body) (fun _ _ => True) fun _ _ => True := by
  have hacquire : Co.Triple (agentConduct c me l) (fun _ => True) (acquire g : AgentThread K Unit)
      (fun _ w => w.state.session g = none) fun _ _ => True := by
    exact Guarded.triple_answer (fun _ _ _ hans => Option.isNone_iff_eq_none.mp hans) fun _ _ _ _ => trivial
  have htake : Co.Triple (agentConduct c me l) (fun w => w.state.session g = none)
      (AgentThread.modify fun a : Agent K => a.take me g task) (fun _ => On g (GpuView.Before c me task))
        fun _ _ => True := by
    refine Guarded.triple_update fun w hinv hfree => ?_
    have hfit := hinv.fit g
    have hview : (w.state.view g).session = none := hfree
    refine ⟨hinv.of_view (f := fun v => v.take me task) (w.state.view_take me g task) rfl
      (GpuView.fit_take hfit hview hpermits) fun s hs => .inl hs, ?_, ?_⟩
    · exact Agent.respects_of_view (f := fun v => v.take me task) (w.state.view_take me g task)
        (.inl (by rw [GpuView.holder, hview]; rfl)) (.inr rfl)
    · show GpuView.Before c me task ((w.state.take me g task).view g)
      rw [Agent.view_take, if_pos rfl]
      exact ⟨⟨false, rfl⟩, hfit.kept hview⟩
  -- Between taking and leaving the lock the body runs; how it ends is kept for the leave.
  refine hacquire.bind fun _ => htake.bind fun _ => ?_
  refine Co.Triple.bind (R := fun outcome => On g (GpuView.Told c g me task outcome)) ?_ fun outcome => ?_
  · refine hbody.attempt.conseq (fun _ hw => hw) (fun outcome w hw => ?_) fun _ _ hw => hw
    cases outcome <;> exact hw
  · have hleave : Co.Triple (agentConduct c me l) (On g (GpuView.Told c g me task outcome))
        (AgentThread.modify fun a : Agent K => a.leave g outcome) (fun _ _ => True) fun _ _ => True := by
      refine Guarded.triple_update fun w hinv hw => ?_
      obtain ⟨applied, hs, hkept, hhonest⟩ := hw
      have hfit := hinv.fit g
      refine ⟨hinv.of_view (w.state.view_leave g outcome) rfl (GpuView.fit_leave hfit hkept) fun s hs' => ?_, ?_, trivial⟩
      · rcases List.mem_append.mp hs' with hs' | hs'
        · exact .inl hs'
        · have hs : w.state.session g = some ⟨me, task, applied⟩ := hs
          rw [hs] at hs'
          obtain rfl := List.mem_singleton.mp hs'
          exact .inr ⟨hpermits, hhonest⟩
      · exact Agent.respects_of_view (w.state.view_leave g outcome) (.inr (by rw [GpuView.holder, hs]; rfl)) (.inl rfl)
    refine hleave.bind fun _ => ?_
    cases outcome with
    | ok _ => exact Co.Triple.pure fun _ _ => trivial
    | error e => exact Co.Triple.raise fun _ _ => trivial

theorem triple_checkGpu : Co.Triple (agentConduct c me l) (fun _ => True) (checkGpu g : AgentThread K Unit)
    (fun _ _ => g ∈ c.gpus) fun _ _ => True := by
  refine triple_settings (triple_look fun a => ?_)
  split
  case isTrue hg =>
    refine Co.Triple.pure fun w hw => ?_
    rw [← hw.1.2.1, hw.2]
    exact hg
  case isFalse => exact Co.Triple.raise fun _ _ => trivial

/-- A pure fact that is known where a part begins. -/
theorem triple_fact {P : Prop} {p : AgentThread K α} {Q : α → World AgentLabel (Agent K) → Prop}
    (h : P → Co.Triple (agentConduct c me l) (fun _ => True) p Q E) : Co.Triple (agentConduct c me l) (fun _ => P) p Q E :=
  fun w₀ w hw hp => h hp w₀ w hw trivial

theorem triple_lock (polls : ℕ) : Co.Triple (agentConduct c me l) (fun _ => True) (lock me g mhz polls : AgentThread K _)
    (fun _ _ => True) fun _ _ => True := by
  refine triple_checkGpu.bind fun _ => triple_fact fun hmanaged => ?_
  have hsupported : Co.Triple (agentConduct c me l) (fun _ => True) (supportedClocks g : AgentThread K (List ℕ))
      (fun clocks _ => clocks = c.supported g) fun _ _ => True := by
    refine Guarded.triple_answer (fun w clocks hinv hans => ?_) fun _ _ _ _ => trivial
    have hans : decide (clocks = w.state.settings.supported g) = true := hans
    rw [← hinv.settings]
    exact of_decide_eq_true hans
  refine hsupported.bind fun clocks => triple_settings (triple_look fun a => ?_)
  split
  case isTrue hallowed =>
    intro w₀ w hw hp
    obtain ⟨⟨hclocks, hsettings, -⟩, hstate⟩ := hp
    refine triple_exclusively ⟨hmanaged, fun f hf => ?_⟩ (triple_lockClock polls) w₀ w hw trivial
    obtain rfl := AgentTask.lock.inj hf
    rw [← hstate, hsettings, hclocks] at hallowed
    exact hallowed
  case isFalse => exact Co.Triple.raise fun _ _ => trivial

theorem triple_reset : Co.Triple (agentConduct c me l) (fun _ => True) (reset me g : AgentThread K _)
    (fun _ _ => True) fun _ _ => True :=
  triple_checkGpu.bind fun _ => triple_fact fun hmanaged =>
    triple_exclusively ⟨hmanaged, fun f hf => by cases hf⟩ triple_resetClock

theorem agent_sound (c : AgentSettings K) : (Guarded.contract agent Agent.locks (Agent.Orderly c)).Sound := by
  refine Guarded.contract_sound (fun {me l w} hinv hstopping => ?_) fun {e w w'} hinv ho => ?_
  · have hstart : (agentConduct c me l).guar w w := ⟨⟨hinv, hstopping⟩, .refl _ _ _, List.prefix_rfl⟩
    cases l with
    | lock g mhz polls =>
      have h : Co.Triple (agentConduct c me (.lock g mhz polls)) (fun _ => True) (Agent.code me (.lock g mhz polls))
          (fun _ _ => True) fun _ _ => True := (triple_lock polls).bind fun _ => Co.Triple.pure fun _ _ => trivial
      exact Co.wp_mono (h w w hstart trivial) fun _ _ _ hr => hr.1
    | reset g =>
      have h : Co.Triple (agentConduct c me (.reset g)) (fun _ => True) (Agent.code me (.reset g))
          (fun _ _ => True) fun _ _ => True := triple_reset.bind fun _ => Co.Triple.pure fun _ _ => trivial
      exact Co.wp_mono (h w w hstart trivial) fun _ _ _ hr => hr.1
  · cases e with
    | clock now =>
      obtain ⟨-, ho⟩ := Option.ite_none_right_eq_some.mp ho
      cases ho
      exact ⟨⟨hinv.settings, hinv.fit, hinv.served⟩, rfl, List.prefix_rfl, fun _ => ⟨fun _ => Iff.rfl, fun _ _ => rfl⟩⟩
    | request label =>
      cases ho
      exact ⟨hinv, rfl, List.prefix_append _ _, fun _ => .refl _ _ _⟩

theorem orderly_of_run {now : K} {p : Pool AgentLabel (Agent K) AgentOp AgentOp.Ans AgentError}
    (hrun : agent.Run (Agent.boot c now) p) : p.world.state.Orderly c :=
  ((agent_sound c).run ⟨⟨Agent.orderly_fresh c now, rfl⟩, fun id k hk => by cases hk⟩ hrun).inv.1

end Threads

section Results
variable [Scalar K] {c : AgentSettings K} {now : K} {p : Pool AgentLabel (Agent K) AgentOp AgentOp.Ans AgentError}

/-- In every run, a GPU that no thread holds is at the clock its sessions leave it at, one after the other; a lock that is
    told as done has been done, and as confirmed has been read back. -/
theorem served_in_turn (hrun : agent.Run (Agent.boot c now) p) (g : ℕ) :
    (p.world.state.session g = none → (p.world.state.clocks g).sm = replay g p.world.state.served) ∧
      ∀ s ∈ p.world.state.served, s.Honest c := by
  have h := orderly_of_run hrun
  refine ⟨fun hfree => ?_, fun s hs => (h.served s hs).2⟩
  have hsm := (h.fit g).sm
  rw [show (p.world.state.view g).session = none from hfree] at hsm
  exact hsm

/-- In every run, an SM clock is locked on a GPU of the agent only, at a clock the agent allows, and with the memory clock
    locked at its own, unless a reset gave it up and said that it failed. -/
theorem locked_allowed (hrun : agent.Run (Agent.boot c now) p) {g mhz : ℕ}
    (hlocked : (p.world.state.clocks g).sm = some mhz) :
    g ∈ c.gpus ∧ mhz ∈ c.allowed g ∧
      ∀ m, c.memoryMhz = some m → (p.world.state.clocks g).memory = some m ∨ g ∈ p.world.state.memoryLost := by
  have h := orderly_of_run hrun
  have hfit := h.fit g
  have hreplayed (hr : replay g p.world.state.served = some mhz) : c.Permits g (.lock mhz) := by
    obtain ⟨s, hs, hgpu, htask⟩ := mem_of_replay hr
    have hpermits := (h.served s hs).1
    rwa [hgpu, htask] at hpermits
  have hpermits : c.Permits g (.lock mhz) := by
    have hsm := hfit.sm
    cases hs : (p.world.state.view g).session with
    | none =>
      rw [hs] at hsm
      exact hreplayed (hsm.symm.trans hlocked)
    | some s =>
      rw [hs, Option.elim_some] at hsm
      split at hsm
      · have hp := hfit.permits s hs
        have heffect : s.task.effect = some mhz := hsm.symm.trans hlocked
        cases htask : s.task with
        | lock f =>
          rw [htask] at heffect hp
          obtain rfl := Option.some.inj heffect
          exact hp
        | reset =>
          rw [htask] at heffect
          cases heffect
      · exact hreplayed (hsm.symm.trans hlocked)
  exact ⟨hpermits.managed, hpermits.allowed mhz rfl, hfit.memory mhz hlocked⟩

/-! ### As the Controller sees the agent -/

/-- The reply is a success. -/
def Served.acked (s : Served K) : Bool := s.outcome.toOption.any fun result => result.any (·.ok)

/-- The clock a session asks for. -/
def Served.point (s : Served K) : ClockPoint := ⟨s.task.effect.getD 0, 0⟩

/-- One agent of a pair goes through the sessions of a GPU. -/
def serveEach (pair : GpuPair) (sessions : List (Served K)) : Option GpuPair :=
  sessions.foldlM (fun p s => p.prefillStep s.applied s.acked) pair

omit [Scalar K]

theorem acked_applied {s : Served K} (h : s.Honest c) (hacked : s.acked = true) : s.applied = true := by
  obtain ⟨gpu, task, applied, outcome⟩ := s
  rcases outcome with e | r
  · cases hacked
  · cases r with
    | none => cases hacked
    | some result => exact h.done result rfl hacked

theorem replay_filter (g : ℕ) (served : List (Served K)) : replay g (served.filter (·.gpu = g)) = replay g served := by
  induction served using List.reverseRecOn with
  | nil => rfl
  | append_singleton served s ih =>
    rw [List.filter_append, replay_append]
    by_cases hs : s.gpu = g
    · simp [hs, replay_append, ih]
    · simp [hs, ih]

/-- So far the agent has carried out the sessions up to here. -/
theorem serveEach_eq {g : ℕ} {sessions : List (Served K)} (start : ClockPoint) (done : List (Served K)) :
    ∀ {rest}, sessions = done ++ rest →
      (∀ s ∈ done, s.gpu = g ∧ (s.acked = true → s.applied = true) ∧ ∃ mhz, s.task = .lock mhz) →
      serveEach { GpuPair.fresh start with sent := sessions.map (·.point) } done =
        some ⟨⟨(replay g done).getD start.prefillMhz, start.decodeMhz⟩, sessions.map (·.point),
          done.map (·.acked), []⟩ := by
  induction done using List.reverseRecOn with
  | nil => exact fun _ _ => rfl
  | append_singleton done s ih =>
    intro rest hall hdone
    rw [List.append_assoc] at hall
    obtain ⟨hg, hacked, mhz, hmhz⟩ := hdone s (List.mem_append_right _ (List.mem_singleton_self s))
    have hsofar := ih hall fun t ht => hdone t (List.mem_append_left _ ht)
    have hnext : (sessions.map (·.point))[(done.map (·.acked)).length]? = some s.point := by
      rw [hall]
      simp
    have hallowed : (s.acked && !s.applied) = false := by
      cases ha : s.acked
      · rfl
      · simp [hacked ha]
    unfold serveEach at hsofar ⊢
    rw [List.foldlM_append, hsofar, replay_append]
    show ((⟨_, _, _, _⟩ : GpuPair).prefillStep s.applied s.acked).bind some = _
    unfold GpuPair.prefillStep
    rw [hallowed, hnext]
    by_cases happlied : s.applied = true
    · simp [happlied, hg, Served.point, hmhz, AgentTask.effect]
    · simp [happlied]

/-- Where only locks were asked for, the sessions of a GPU are what the Controller takes the agent for: commands carried
    out in their order, and acknowledged only when applied. -/
theorem serves_pair [Scalar K] (hrun : agent.Run (Agent.boot c now) p) (g : ℕ) (start : ClockPoint)
    (hlocks : ∀ s ∈ p.world.state.served, s.gpu = g → ∃ mhz, s.task = .lock mhz) :
    ∃ pair, serveEach { GpuPair.fresh start with sent := (p.world.state.served.filter (·.gpu = g)).map (·.point) }
        (p.world.state.served.filter (·.gpu = g)) = some pair ∧
      pair.prefillDone = (p.world.state.served.filter (·.gpu = g)).map (·.acked) ∧
      (p.world.state.session g = none → pair.inForce.prefillMhz = (p.world.state.clocks g).sm.getD start.prefillMhz) := by
  obtain ⟨hsm, hhonest⟩ := served_in_turn hrun g
  refine ⟨_, serveEach_eq (g := g) start _ (List.append_nil _).symm fun s hs => ?_, rfl, fun hfree => ?_⟩
  · obtain ⟨hs, hg⟩ := List.mem_filter.mp hs
    have hg := of_decide_eq_true hg
    exact ⟨hg, acked_applied (hhonest s hs), hlocks s hs hg⟩
  · rw [hsm hfree, replay_filter]

end Results

section Small

def smallAgent : AgentSettings ℚ where
  gpus := {0}
  allowedMhz := none
  minMhz := 300
  memoryMhz := some 5000
  confirmTimeoutS := 3
  toleranceMhz := 20
  supported := fun _ => [900, 1200]

/-- Every command succeeds, and the GPU runs at 1195 MHz. -/
def assenting : (op : AgentOp) → Except AgentError op.Ans
  | .preempt => .ok ()
  | .acquire _ => .ok ()
  | .supported _ => .ok [900, 1200]
  | .smi _ _ => .ok ⟨some (0, true, ""), true⟩
  | .smMhz _ => .ok 1195
  | .sleep => .ok ()
  | .beyond => .error (.nvml "")

/-- Two requests for one GPU; the first takes it and locks both clocks. -/
def untilLocked : List (Choice AgentOp AgentOp.Ans AgentError (AgentEvent ℚ)) :=
  [.outside (.request (.lock 0 1200 1)), .outside (.request (.lock 0 900 1)), .begin 0, .resume 0 assenting, .begin 1,
    .resume 1 assenting, .resume 0 assenting, .resume 0 assenting, .resume 0 assenting, .resume 0 assenting]

/-- Both requests are served; nobody could confirm the second clock. -/
theorem served_in_turn_both : ∃ p, agent.Run (Agent.boot smallAgent 0) p ∧ p.world.state.served.length = 2 ∧
    (p.world.state.clocks 0).sm = replay 0 p.world.state.served ∧ (p.world.state.clocks 0).sm = some 900 := by
  have hexec : ((agent.exec (Agent.boot smallAgent 0) (untilLocked ++ [.resume 0 assenting, .resume 1 assenting,
      .resume 1 assenting, .outside (.clock 4), .resume 1 assenting])).any fun p =>
        (p.world.state.session 0).isNone && decide (p.world.state.served.length = 2) &&
          decide ((p.world.state.clocks 0).sm = some 900)) = true := by decide +kernel
  obtain ⟨p, hp, hseen⟩ := (Option.any_eq_true _ _).mp hexec
  simp only [Bool.and_eq_true, decide_eq_true_eq, Option.isNone_iff_eq_none] at hseen
  have hrun : agent.Run (Agent.boot smallAgent 0) p := Loop.Run.refl.exec hp
  exact ⟨p, hrun, hseen.1.2, (served_in_turn hrun 0).1 hseen.1.1, hseen.2⟩

/-- An agent that went through the same two commands acknowledged both. -/
theorem serves_pair_both : ∃ p, agent.Run (Agent.boot smallAgent 0) p ∧ ∃ pair,
    serveEach { GpuPair.fresh ⟨600, 600⟩ with sent := (p.world.state.served.filter (·.gpu = 0)).map (·.point) }
      (p.world.state.served.filter (·.gpu = 0)) = some pair ∧ pair.prefillDone = [true, true] := by
  have hexec : ((agent.exec (Agent.boot smallAgent 0) (untilLocked ++ [.resume 0 assenting, .resume 1 assenting,
      .resume 1 assenting, .outside (.clock 4), .resume 1 assenting])).any fun p =>
        p.world.state.served.all (fun s => decide (s.task ≠ .reset)) &&
          decide ((p.world.state.served.filter (·.gpu = 0)).map (·.acked) = [true, true])) = true := by decide +kernel
  obtain ⟨p, hp, hseen⟩ := (Option.any_eq_true _ _).mp hexec
  simp only [Bool.and_eq_true, List.all_eq_true, decide_eq_true_eq] at hseen
  have hrun : agent.Run (Agent.boot smallAgent 0) p := Loop.Run.refl.exec hp
  obtain ⟨pair, hpair, hdone, -⟩ := serves_pair hrun 0 ⟨600, 600⟩ fun s hs _ => by
    cases htask : s.task with
    | lock mhz => exact ⟨mhz, rfl⟩
    | reset => exact absurd htask (hseen.1 s hs)
  exact ⟨p, hrun, pair, hpair, hdone.trans hseen.2⟩

/-- The first request has the GPU, the second one waits for it. -/
theorem locked_allowed_first : ∃ p, agent.Run (Agent.boot smallAgent 0) p ∧ (p.world.state.clocks 0).sm = some 1200 ∧
    1200 ∈ smallAgent.allowed 0 := by
  have hexec : ((agent.exec (Agent.boot smallAgent 0) untilLocked).any fun p =>
      decide ((p.world.state.clocks 0).sm = some 1200)) = true := by decide +kernel
  obtain ⟨p, hp, hlocked⟩ := (Option.any_eq_true _ _).mp hexec
  have hrun : agent.Run (Agent.boot smallAgent 0) p := Loop.Run.refl.exec hp
  exact ⟨p, hrun, of_decide_eq_true hlocked, (locked_allowed hrun (of_decide_eq_true hlocked)).2.1⟩

end Small
end CanaTune
