import CanaTune.Controller.Runtime
import CanaTune.Lib.Actuator

/-! The clocks the Router assumes of a group and the clocks in force. A change keeps the slower of old and new point
    until its locks are through; what it writes then is safe unless a slower change of the same group began after it. -/

namespace CanaTune
variable {K : Type} [Scalar K] {n : ℕ}

/-! ### Changes of one group -/

/-- The system and the changes of the group in progress. -/
structure Locking (K : Type) [Scalar K] (n : ℕ) where
  system : System K n
  calls : List (Tier × Call)

inductive LockEvent (K : Type) [Scalar K] (n : ℕ)
  | begin (tier : Tier)
  /-- P's or D's agent is through with its next command. -/
  | gpu (prefill applied acked : Bool)
  /-- The change at a position resumes, both its commands acknowledged or failed. -/
  | settle (i : ℕ)
  /-- It is cancelled where it awaits. -/
  | cancel (i : ℕ)
  /-- Everything else, away from the group's tier and clocks. -/
  | elsewhere (s : System K n)

/-- `u`, with the tier, the clocks and the agents of one group of `s`. -/
def System.besideGroup (s u : System K n) (g : Fin n) : System K n :=
  { u.setGroup g fun x => { x with tier := (s.group g).tier, effective := (s.group g).effective } with
    pairs := Function.update u.pairs g (s.pairs g) }

/-- What a change writes when it resumes with the group still at its tier. -/
def Call.writes (c : Call) (ok : Bool) : Option ClockPoint :=
  if ok then some c.target else c.old.map fun old => slower old c.target

/-- No faster on P nor on D. -/
def ClockPoint.Within (a b : ClockPoint) : Prop := a.prefillMhz ≤ b.prefillMhz ∧ a.decodeMhz ≤ b.decodeMhz

namespace Locking
variable (g : Fin n)

def pair (m : Locking K n) : GpuPair := m.system.pairs g

def effective (m : Locking K n) : Option ClockPoint := (m.system.group g).effective

def next (m : Locking K n) : LockEvent K n → Option (Locking K n)
  | .begin tier => (m.system.target tier).map fun target =>
      let (call, s) := m.system.beginTier g tier target
      ⟨s, m.calls ++ [(tier, call)]⟩
  | .gpu prefill applied acked => (m.system.gpuActs g prefill applied acked).map fun s => { m with system := s }
  | .settle i => m.calls[i]?.bind fun (tier, call) => ((m.pair g).answer call.index).map fun ok =>
      ⟨m.system.settleTier g tier call ok, m.calls.eraseIdx i⟩
  | .cancel i => m.calls[i]?.map fun _ => { m with calls := m.calls.eraseIdx i }
  | .elsewhere s => some { m with system := m.system.besideGroup s g }

/-- No change that began after the one at position `i` is slower than what that one writes as it resumes. -/
def Unslowed (m : Locking K n) (i : ℕ) : Prop :=
  ∀ tier call ok point, m.calls[i]? = some (tier, call) → (m.pair g).answer call.index = some ok → tier ≠ .park →
    (m.system.group g).tier = tier → call.writes ok = some point →
    ∀ j later, call.index < j → (m.pair g).sent[j]? = some later → point.Within later

/-- A run from `m₀` in which no change that resumes was followed by a slower one. -/
inductive Run (m₀ : Locking K n) : Locking K n → Prop
  | start : Run m₀ m₀
  | step {m m' : Locking K n} (e : LockEvent K n) (run : Run m₀ m) (unslowed : ∀ i, e = .settle i → m.Unslowed g i)
      (next : m.next g e = some m') : Run m₀ m'

def exec (m : Locking K n) (events : List (LockEvent K n)) : Option (Locking K n) := events.foldlM (next g) m

/-- No change in progress, and the Router assumes nothing or the clocks in force. -/
structure Fresh (m : Locking K n) : Prop where
  calls : m.calls = []
  pair : m.pair g = .fresh (m.pair g).inForce
  effective : ∀ e, m.effective g = some e → e = (m.pair g).inForce

end Locking

/-! ### The agents -/

namespace GpuPair

def prefillAgent (p : GpuPair) : Actuator ℕ := ⟨p.inForce.prefillMhz, p.sent.map (·.prefillMhz), p.prefillDone⟩

def decodeAgent (p : GpuPair) : Actuator ℕ := ⟨p.inForce.decodeMhz, p.sent.map (·.decodeMhz), p.decodeDone⟩

/-- Both agents keep their clocks at the point or above. -/
structure Floor (point : ClockPoint) (p : GpuPair) : Prop where
  prefill : p.prefillAgent.Floor point.prefillMhz
  decode : p.decodeAgent.Floor point.decodeMhz

/-- They do so up to a command. -/
structure FloorTo (k : ℕ) (point : ClockPoint) (p : GpuPair) : Prop where
  prefill : p.prefillAgent.FloorTo k point.prefillMhz
  decode : p.decodeAgent.FloorTo k point.decodeMhz

structure Honest (p : GpuPair) : Prop where
  prefill : p.prefillAgent.Honest
  decode : p.decodeAgent.Honest

variable {p p' : GpuPair} {point target : ClockPoint} {k : ℕ}

def send (p : GpuPair) (target : ClockPoint) : GpuPair := { p with sent := p.sent ++ [target] }

theorem prefillAgent_send (p : GpuPair) (target : ClockPoint) :
    (p.send target).prefillAgent = p.prefillAgent.send target.prefillMhz := by
  simp [prefillAgent, send, Actuator.send]

theorem decodeAgent_send (p : GpuPair) (target : ClockPoint) :
    (p.send target).decodeAgent = p.decodeAgent.send target.decodeMhz := by
  simp [decodeAgent, send, Actuator.send]

theorem slower_within (a b : ClockPoint) : (slower a b).Within a ∧ (slower a b).Within b :=
  ⟨⟨min_le_left _ _, min_le_left _ _⟩, min_le_right _ _, min_le_right _ _⟩

theorem Floor.within (h : p.Floor point) {below : ClockPoint} (hb : below.Within point) : p.Floor below :=
  ⟨h.prefill.le hb.1, h.decode.le hb.2⟩

theorem Floor.send (h : p.Floor point) (ht : point.Within target) : (p.send target).Floor point where
  prefill := p.prefillAgent_send target ▸ h.prefill.send ht.1
  decode := p.decodeAgent_send target ▸ h.decode.send ht.2

theorem Floor.sendTo (h : p.Floor point) (ht : point.Within target) : (p.send target).FloorTo p.sent.length point where
  prefill := by
    have hlen : p.prefillAgent.sent.length = p.sent.length := List.length_map _
    rw [prefillAgent_send, ← hlen]
    exact h.prefill.sendTo ht.1
  decode := by
    have hlen : p.decodeAgent.sent.length = p.sent.length := List.length_map _
    rw [decodeAgent_send, ← hlen]
    exact h.decode.sendTo ht.2

theorem FloorTo.send (h : p.FloorTo k point) (hk : k < p.sent.length) (target : ClockPoint) :
    (p.send target).FloorTo k point where
  prefill := p.prefillAgent_send target ▸ h.prefill.send (by simpa [prefillAgent] using hk) _
  decode := p.decodeAgent_send target ▸ h.decode.send (by simpa [decodeAgent] using hk) _

theorem Honest.send (h : p.Honest) (target : ClockPoint) : (p.send target).Honest where
  prefill := p.prefillAgent_send target ▸ h.prefill.send _
  decode := p.decodeAgent_send target ▸ h.decode.send _

theorem FloorTo.floor (h : p.FloorTo k point) (hlater : ∀ j later, k < j → p.sent[j]? = some later → point.Within later) :
    p.Floor point where
  prefill := h.prefill.floor fun j y hj hy => by
    obtain ⟨later, hl, rfl⟩ := Option.map_eq_some_iff.mp ((List.getElem?_map ..).symm.trans hy)
    exact (hlater j later hj hl).1
  decode := h.decode.floor fun j y hj hy => by
    obtain ⟨later, hl, rfl⟩ := Option.map_eq_some_iff.mp ((List.getElem?_map ..).symm.trans hy)
    exact (hlater j later hj hl).2

/-- One agent carries out its next command, the other keeps its clocks. -/
theorem act_cases {prefill applied acked : Bool} (h : p.act prefill applied acked = some p') :
    (acked = true → applied = true) ∧ p'.sent = p.sent ∧
      ((∃ y, p.prefillAgent.sent[p.prefillAgent.done.length]? = some y ∧
          p'.prefillAgent = p.prefillAgent.carryOut y applied acked ∧ p'.decodeAgent = p.decodeAgent) ∨
        ∃ y, p.decodeAgent.sent[p.decodeAgent.done.length]? = some y ∧
          p'.decodeAgent = p.decodeAgent.carryOut y applied acked ∧ p'.prefillAgent = p.prefillAgent) := by
  have hhonest {q : Option GpuPair} (h : (if (acked && !applied) = true then none else q) = some p') :
      (acked = true → applied = true) ∧ q = some p' := by
    split at h
    case isTrue => cases h
    case isFalse hno => exact ⟨fun ha => by simpa [ha] using hno, h⟩
  unfold act at h
  cases prefill with
  | true =>
    obtain ⟨ha, hstep⟩ := hhonest h
    obtain ⟨command, hc, rfl⟩ := Option.map_eq_some_iff.mp hstep
    refine ⟨ha, rfl, .inl ⟨command.prefillMhz, by simp [prefillAgent, hc], ?_, ?_⟩⟩ <;> cases applied <;> rfl
  | false =>
    obtain ⟨ha, hstep⟩ := hhonest h
    obtain ⟨command, hc, rfl⟩ := Option.map_eq_some_iff.mp hstep
    refine ⟨ha, rfl, .inr ⟨command.decodeMhz, by simp [decodeAgent, hc], ?_, ?_⟩⟩ <;> cases applied <;> rfl

section Act
variable {prefill applied acked : Bool} (h : p.act prefill applied acked = some p')
include h

theorem Floor.act (hp : p.Floor point) : p'.Floor point := by
  obtain ⟨-, -, ⟨y, hy, hl, hr⟩ | ⟨y, hy, hl, hr⟩⟩ := act_cases h
  · exact ⟨hl ▸ hp.prefill.carryOut hy _ _, hr ▸ hp.decode⟩
  · exact ⟨hr ▸ hp.prefill, hl ▸ hp.decode.carryOut hy _ _⟩

theorem FloorTo.act (hp : p.FloorTo k point) : p'.FloorTo k point := by
  obtain ⟨-, -, ⟨y, hy, hl, hr⟩ | ⟨y, hy, hl, hr⟩⟩ := act_cases h
  · exact ⟨hl ▸ hp.prefill.carryOut hy _ _, hr ▸ hp.decode⟩
  · exact ⟨hr ▸ hp.prefill, hl ▸ hp.decode.carryOut hy _ _⟩

theorem Honest.act (hp : p.Honest) : p'.Honest := by
  obtain ⟨ha, -, ⟨y, hy, hl, hr⟩ | ⟨y, hy, hl, hr⟩⟩ := act_cases h
  · exact ⟨hl ▸ hp.prefill.carryOut hy ha, hr ▸ hp.decode⟩
  · exact ⟨hr ▸ hp.prefill, hl ▸ hp.decode.carryOut hy ha⟩

end Act

/-- Both agents acknowledged the command: since then the clocks are its own or of a later one. -/
theorem Honest.answer (h : p.Honest) {call : ℕ} (ha : p.answer call = some true) (hs : p.sent[call]? = some target) :
    p.FloorTo call target := by
  unfold GpuPair.answer at ha
  split at ha
  case h_2 => cases ha
  case h_1 a b hp hd =>
    obtain ⟨rfl, rfl⟩ : a = true ∧ b = true := by simpa using ha
    exact ⟨h.prefill.acked _ _ hp (by simp [prefillAgent, hs]), h.decode.acked _ _ hd (by simp [decodeAgent, hs])⟩

end GpuPair

/-! ### What the Router assumes -/

namespace Locking
variable {g : Fin n} {m m' : Locking K n}

/-- The assumed clocks are a floor, and so is, up to its commands, what every change may still write. -/
structure Conservative (g : Fin n) (m : Locking K n) : Prop where
  honest : (m.pair g).Honest
  floor : ∀ e, m.effective g = some e → (m.pair g).Floor e
  sent : ∀ tier call, (tier, call) ∈ m.calls → (m.pair g).sent[call.index]? = some call.target
  old : ∀ tier call old, (tier, call) ∈ m.calls → call.old = some old →
    (m.pair g).FloorTo call.index (slower old call.target)

theorem Fresh.conservative (h : m.Fresh g) : m.Conservative g := by
  have hno (agent : Actuator ℕ) (hs : agent.sent = []) (hd : agent.done = []) : agent.Honest :=
    ⟨by simp [hs, hd], fun k x hk => by simp [hd] at hk⟩
  refine ⟨?_, fun e he => ?_, fun tier call hc => ?_, fun tier call old hc => ?_⟩
  · rw [h.pair]
    exact ⟨hno _ rfl rfl, hno _ rfl rfl⟩
  · rw [h.effective e he, h.pair]
    exact ⟨⟨le_rfl, fun j y _ hy => by simp [GpuPair.prefillAgent, GpuPair.fresh] at hy⟩,
      ⟨le_rfl, fun j y _ hy => by simp [GpuPair.decodeAgent, GpuPair.fresh] at hy⟩⟩
  · simp [h.calls] at hc
  · simp [h.calls] at hc

/-- The changes in progress shrink, and nothing else moves. -/
theorem Conservative.shrink (h : m.Conservative g) {calls : List (Tier × Call)} (hsub : ∀ c ∈ calls, c ∈ m.calls) :
    Conservative g { m with calls } :=
  ⟨h.honest, h.floor, fun tier call hc => h.sent tier call (hsub _ hc),
    fun tier call old hc => h.old tier call old (hsub _ hc)⟩

theorem Conservative.begin (h : m.Conservative g) (tier : Tier) (target : ClockPoint) :
    Conservative g ⟨(m.system.beginTier g tier target).2, m.calls ++ [(tier, (m.system.beginTier g tier target).1)]⟩ := by
  have hpair : ((m.system.beginTier g tier target).2).pairs g = (m.pair g).send target := Function.update_self ..
  have heffective : (((m.system.beginTier g tier target).2).group g).effective =
      if tier = .park then none else (m.effective g).map fun o => slower o target := by
    show ((Function.update m.system.router.groups g _) g).effective = _
    rw [Function.update_self]
    rfl
  refine ⟨?_, fun e he => ?_, fun tier' call hc => ?_, fun tier' call old hc hold => ?_⟩
  · show (((m.system.beginTier g tier target).2).pairs g).Honest
    rw [hpair]
    exact h.honest.send target
  · show (((m.system.beginTier g tier target).2).pairs g).Floor e
    rw [hpair]
    -- What is assumed from now on is the slower of the old and the new clocks.
    have he := heffective.symm.trans he
    split at he
    · cases he
    · obtain ⟨o, ho, rfl⟩ := Option.map_eq_some_iff.mp he
      exact ((h.floor o ho).within (GpuPair.slower_within o target).1).send (GpuPair.slower_within o target).2
  · show (((m.system.beginTier g tier target).2).pairs g).sent[call.index]? = _
    rw [hpair]
    rcases List.mem_append.mp hc with hc | hc
    · rw [GpuPair.send, List.getElem?_append_left (List.getElem?_eq_some_iff.mp (h.sent tier' call hc)).1,
        h.sent tier' call hc]
    · obtain ⟨rfl, rfl⟩ := Prod.mk.inj (List.mem_singleton.mp hc)
      exact List.getElem?_concat_length ..
  · show (((m.system.beginTier g tier target).2).pairs g).FloorTo call.index _
    rw [hpair]
    rcases List.mem_append.mp hc with hc | hc
    · exact (h.old tier' call old hc hold).send (List.getElem?_eq_some_iff.mp (h.sent tier' call hc)).1 target
    · obtain ⟨rfl, rfl⟩ := Prod.mk.inj (List.mem_singleton.mp hc)
      exact ((h.floor old hold).within (GpuPair.slower_within old target).1).sendTo (GpuPair.slower_within old target).2

/-- As it resumes, a change writes only while the group is at its tier. -/
theorem settleTier_group (s : System K n) (g : Fin n) (tier : Tier) (call : Call) (ok : Bool) :
    (s.settleTier g tier call ok).pairs = s.pairs ∧ ((s.settleTier g tier call ok).group g).effective =
      if tier ≠ .park ∧ (s.group g).tier = tier then (call.writes ok).or (s.group g).effective
      else (s.group g).effective := by
  have hset (u : System K n) (point : ClockPoint) :
      ((u.setGroup g fun x => { x with effective := some point }).group g).effective = some point := by
    show (Function.update u.router.groups g _ g).effective = _
    rw [Function.update_self]
  unfold System.settleTier
  generalize hv : (if (s.group g).tier = tier then s.setRetry g _ else s) = v
  have hsame : v.pairs = s.pairs ∧ v.group g = s.group g := by
    rw [← hv]
    split <;> exact ⟨rfl, rfl⟩
  dsimp only
  rw [hsame.2]
  split_ifs with hwrites hok
  · refine ⟨hsame.1, ?_⟩
    rw [Call.writes, if_pos hok]
    exact hset v call.target
  · cases hold : call.old with
    | none => exact ⟨hsame.1, by rw [Call.writes, if_neg hok, hold]; exact congrArg (·.effective) hsame.2⟩
    | some old =>
      refine ⟨hsame.1, ?_⟩
      rw [Call.writes, if_neg hok, hold]
      exact hset v (slower old call.target)
  · exact ⟨hsame.1, congrArg (·.effective) hsame.2⟩

theorem Conservative.settle (h : m.Conservative g) {i : ℕ} (hun : m.Unslowed g i) {tier : Tier} {call : Call} {ok : Bool}
    (hi : m.calls[i]? = some (tier, call)) (hok : (m.pair g).answer call.index = some ok) :
    Conservative g ⟨m.system.settleTier g tier call ok, m.calls.eraseIdx i⟩ := by
  obtain ⟨hpairs, heffective⟩ := settleTier_group m.system g tier call ok
  have hpair : (m.system.settleTier g tier call ok).pairs g = m.pair g := congrFun hpairs g
  have hmem : (tier, call) ∈ m.calls := List.mem_of_getElem? hi
  have hsub : ∀ c ∈ m.calls.eraseIdx i, c ∈ m.calls := fun c hc => List.mem_of_mem_eraseIdx hc
  refine ⟨?_, fun e he => ?_, fun tier' call' hc => ?_, fun tier' call' old hc hold => ?_⟩
  · show ((m.system.settleTier g tier call ok).pairs g).Honest
    rw [hpair]
    exact h.honest
  · show ((m.system.settleTier g tier call ok).pairs g).Floor e
    rw [hpair]
    have he := heffective.symm.trans he
    split at he
    case isFalse => exact h.floor e he
    case isTrue hwrites =>
      cases hw : call.writes ok with
      | none =>
        rw [hw] at he
        exact h.floor e he
      | some point =>
        rw [hw, Option.some_or] at he
        obtain rfl : point = e := Option.some.inj he
        -- What is written was a floor up to the change's own commands, and no later one is below it.
        have hto : (m.pair g).FloorTo call.index point := by
          cases ok with
          | true =>
            cases hw
            exact h.honest.answer hok (h.sent tier call hmem)
          | false =>
            obtain ⟨old, hold, rfl⟩ := Option.map_eq_some_iff.mp hw
            exact h.old tier call old hmem hold
        exact hto.floor (hun tier call ok point hi hok hwrites.1 hwrites.2 hw)
  · show ((m.system.settleTier g tier call ok).pairs g).sent[call'.index]? = _
    rw [hpair]
    exact h.sent tier' call' (hsub _ hc)
  · show ((m.system.settleTier g tier call ok).pairs g).FloorTo call'.index _
    rw [hpair]
    exact h.old tier' call' old (hsub _ hc) hold

/-- One step keeps the invariant, unless a change that resumes was followed by a slower one. -/
theorem Conservative.next (h : m.Conservative g) {e : LockEvent K n} (hun : ∀ i, e = .settle i → m.Unslowed g i)
    (hn : m.next g e = some m') : m'.Conservative g := by
  cases e with
  | begin tier =>
    obtain ⟨target, -, rfl⟩ := Option.map_eq_some_iff.mp hn
    exact h.begin tier target
  | gpu prefill applied acked =>
    obtain ⟨s, hs, rfl⟩ := Option.map_eq_some_iff.mp hn
    obtain ⟨pair, hact, rfl⟩ := Option.map_eq_some_iff.mp hs
    have hpair : Function.update m.system.pairs g pair g = pair := Function.update_self ..
    have hsent : pair.sent = (m.pair g).sent := (GpuPair.act_cases hact).2.1
    refine ⟨?_, fun e he => ?_, fun tier call hc => ?_, fun tier call old hc hold => ?_⟩
    · show (Function.update m.system.pairs g pair g).Honest
      rw [hpair]
      exact h.honest.act hact
    · show (Function.update m.system.pairs g pair g).Floor e
      rw [hpair]
      exact (h.floor e he).act hact
    · show (Function.update m.system.pairs g pair g).sent[call.index]? = _
      rw [hpair, hsent]
      exact h.sent tier call hc
    · show (Function.update m.system.pairs g pair g).FloorTo call.index _
      rw [hpair]
      exact (h.old tier call old hc hold).act hact
  | settle i =>
    obtain ⟨⟨tier, call⟩, hi, hn⟩ := Option.bind_eq_some_iff.mp hn
    obtain ⟨ok, hok, rfl⟩ := Option.map_eq_some_iff.mp hn
    exact h.settle (hun i rfl) hi hok
  | cancel i =>
    obtain ⟨c, -, rfl⟩ := Option.map_eq_some_iff.mp hn
    exact h.shrink fun c hc => List.mem_of_mem_eraseIdx hc
  | elsewhere s =>
    cases hn
    -- Whatever happens elsewhere leaves this group its pair and its effective clocks.
    have hpair : (m.system.besideGroup s g).pairs g = m.pair g := Function.update_self ..
    have heffective : ((m.system.besideGroup s g).group g).effective = m.effective g := by
      show (Function.update s.router.groups g _ g).effective = _
      rw [Function.update_self]
      rfl
    refine ⟨?_, fun e he => ?_, fun tier call hc => ?_, fun tier call old hc hold => ?_⟩
    · show ((m.system.besideGroup s g).pairs g).Honest
      rw [hpair]
      exact h.honest
    · show ((m.system.besideGroup s g).pairs g).Floor e
      rw [hpair]
      exact h.floor e (heffective.symm.trans he)
    · show ((m.system.besideGroup s g).pairs g).sent[call.index]? = _
      rw [hpair]
      exact h.sent tier call hc
    · show ((m.system.besideGroup s g).pairs g).FloorTo call.index _
      rw [hpair]
      exact h.old tier call old hc hold

/-- The Router never assumes clocks above those in force, where no change that resumes was followed by a slower one. -/
theorem effective_within {m₀ : Locking K n} (fresh : m₀.Fresh g) (run : Run g m₀ m) :
    ∀ e, m.effective g = some e → e.Within (m.pair g).inForce := by
  have hinv : m.Conservative g := by
    induction run with
    | start => exact fresh.conservative
    | step e _ unslowed next ih => exact ih.next unslowed next
  exact fun e he => ⟨(hinv.floor e he).prefill.value, (hinv.floor e he).decode.value⟩

/-- Without a change that resumes there is nothing to ask of a run. -/
theorem Run.exec {m₀ : Locking K n} : ∀ {events : List (LockEvent K n)} {m : Locking K n}, Run g m₀ m →
    (∀ i, LockEvent.settle i ∉ events) → m.exec g events = some m' → Run g m₀ m'
  | [], _, run, _, h => by
    cases h
    exact run
  | e :: events, m, run, hno, h => by
    obtain ⟨m₁, hn, h⟩ := Option.bind_eq_some_iff.mp ((List.foldlM_cons ..).symm.trans h)
    refine Run.exec (run.step e (fun i he => ?_) hn) (fun i hi => hno i (List.mem_cons_of_mem _ hi)) h
    exact absurd (he ▸ List.mem_cons_self) (hno i)

/-- The newest change of the group is followed by none. -/
theorem unslowed_of_last {i : ℕ} (h : ∀ c, m.calls[i]? = some c → (m.pair g).sent.length ≤ c.2.index + 1) :
    m.Unslowed g i := by
  intro tier call ok point hi _ _ _ _ j later hj hl
  have hlen : (m.pair g).sent.length ≤ call.index + 1 := h _ hi
  have hlt := (List.getElem?_eq_some_iff.mp hl).1
  omega

section Small

/-- One pair at MAX, the table of its tiers published. -/
def smallLocking : Locking ℚ 1 where
  system := { smallSystem (smallServing 1) with pairs := fun _ => .fresh smallMax }
  calls := []

/-- The working point goes down. -/
def slowed : LockEvent ℚ 1 :=
  .elsewhere (smallSystem { smallServing 1 with tiers := { (smallServing 1).tiers with working := some ⟨900, 1000⟩ } })

/-- Both agents carry out a command. -/
def bothGpus : List (LockEvent ℚ 1) := [.gpu true true true, .gpu false true true]

theorem fresh_smallLocking : smallLocking.Fresh 0 := ⟨rfl, rfl, by decide +kernel⟩

/-- One change at a time. -/
theorem effective_within_smallLocking : ∃ m : Locking ℚ 1, m.effective 0 = some ⟨1200, 1100⟩ ∧
    ∀ e, m.effective 0 = some e → e.Within (m.pair 0).inForce := by
  have hexec : (smallLocking.exec 0 (.begin .h :: bothGpus)).any (fun m =>
      m.calls.all (fun c => decide ((m.pair 0).sent.length ≤ c.2.index + 1)) &&
        (m.next 0 (.settle 0)).any fun m' => m'.effective 0 == some ⟨1200, 1100⟩) = true := by decide +kernel
  obtain ⟨m, hm, h⟩ := (Option.any_eq_true _ _).mp hexec
  obtain ⟨hlast, h⟩ := (Bool.and_eq_true ..).mp h
  obtain ⟨m', hn, heffective⟩ := (Option.any_eq_true _ _).mp h
  have hrun : Run 0 smallLocking m := Run.start.exec (fun i hi => by simp [bothGpus] at hi) hm
  refine ⟨m', beq_iff_eq.mp heffective, effective_within fresh_smallLocking (hrun.step (.settle 0) (fun i hi => ?_) hn)⟩
  cases hi
  exact unslowed_of_last fun c hc => of_decide_eq_true (List.all_eq_true.mp hlast c (List.mem_of_getElem? hc))

/-- Two changes of one tier overlap, the second to a slower point, and the first resumes last. -/
theorem effective_above : ∃ m : Locking ℚ 1, smallLocking.Fresh 0 ∧
    smallLocking.exec 0 ([.begin .h, slowed, .begin .h] ++ bothGpus ++ bothGpus ++ [.settle 1, .settle 0]) = some m ∧
    m.effective 0 = some ⟨1200, 1100⟩ ∧ (m.pair 0).inForce = ⟨900, 1000⟩ := by
  have hexec : (smallLocking.exec 0 ([.begin .h, slowed, .begin .h] ++ bothGpus ++ bothGpus ++ [.settle 1, .settle 0])).any
      (fun m => m.effective 0 == some ⟨1200, 1100⟩ && (m.pair 0).inForce == ⟨900, 1000⟩) = true := by decide +kernel
  obtain ⟨m, hm, h⟩ := (Option.any_eq_true _ _).mp hexec
  rw [Bool.and_eq_true, beq_iff_eq, beq_iff_eq] at h
  exact ⟨m, fresh_smallLocking, hm, h⟩

end Small
end Locking
end CanaTune
