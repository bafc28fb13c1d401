import CanaTune.Lib.Coroutine
import Mathlib.Data.List.Basic
import Mathlib.Order.Defs.Unbundled

/-! One event loop: tasks that run coroutines over a shared state, begun and resumed in any order, and an
    outside that acts between their segments. What each task relies on and guarantees gives an invariant of
    every run. -/

namespace CanaTune

/-- Tasks by number: what each runs, which have not begun, which are asked to stop, which are over. -/
structure Tasks (L : Type) where
  labels : List L
  fresh : List ℕ
  stopping : List ℕ
  ended : List ℕ

structure World (L σ : Type) where
  state : σ
  tasks : Tasks L

namespace World
variable {L σ : Type}

/-- `create_task`: it begins later. -/
def spawn (w : World L σ) (l : L) : World L σ :=
  { w with tasks := { w.tasks with
      labels := w.tasks.labels ++ [l], fresh := w.tasks.fresh ++ [w.tasks.labels.length] } }

/-- `task.cancel()`: the task is stopped where it awaits, or before it begins; a task that is over stays so. -/
def stop (w : World L σ) (id : ℕ) : World L σ :=
  if id ∈ w.tasks.ended then w else { w with tasks := { w.tasks with stopping := id :: w.tasks.stopping } }

/-- `task.done()`. -/
def isOver (w : World L σ) (id : ℕ) : Bool := decide (id ∈ w.tasks.ended)

def begun (w : World L σ) (id : ℕ) : World L σ :=
  { w with tasks := { w.tasks with fresh := w.tasks.fresh.filter (· ≠ id) } }

def resumed (w : World L σ) (id : ℕ) : World L σ :=
  { w with tasks := { w.tasks with stopping := w.tasks.stopping.filter (· ≠ id) } }

def finished (w : World L σ) (id : ℕ) : World L σ :=
  { w.resumed id with tasks := { (w.resumed id).tasks with ended := id :: w.tasks.ended } }

/-- The state part of a world changes. -/
def map (f : σ → σ) (w : World L σ) : World L σ := { w with state := f w.state }

@[simp] theorem map_state (f : σ → σ) (w : World L σ) : (w.map f).state = f w.state := rfl
@[simp] theorem map_tasks (f : σ → σ) (w : World L σ) : (w.map f).tasks = w.tasks := rfl
@[simp] theorem begun_state (w : World L σ) (id : ℕ) : (w.begun id).state = w.state := rfl
@[simp] theorem begun_labels (w : World L σ) (id : ℕ) : (w.begun id).tasks.labels = w.tasks.labels := rfl
@[simp] theorem begun_ended (w : World L σ) (id : ℕ) : (w.begun id).tasks.ended = w.tasks.ended := rfl
@[simp] theorem resumed_state (w : World L σ) (id : ℕ) : (w.resumed id).state = w.state := rfl
@[simp] theorem resumed_labels (w : World L σ) (id : ℕ) : (w.resumed id).tasks.labels = w.tasks.labels := rfl
@[simp] theorem resumed_fresh (w : World L σ) (id : ℕ) : (w.resumed id).tasks.fresh = w.tasks.fresh := rfl
@[simp] theorem resumed_ended (w : World L σ) (id : ℕ) : (w.resumed id).tasks.ended = w.tasks.ended := rfl
@[simp] theorem begun_stopping (w : World L σ) (id : ℕ) : (w.begun id).tasks.stopping = w.tasks.stopping := rfl
theorem resumed_stopping {w : World L σ} (h : w.tasks.stopping = []) (id : ℕ) : (w.resumed id).tasks.stopping = [] := by
  simp [resumed, h]
theorem finished_stopping {w : World L σ} (h : w.tasks.stopping = []) (id : ℕ) : (w.finished id).tasks.stopping = [] :=
  resumed_stopping h id
@[simp] theorem finished_state (w : World L σ) (id : ℕ) : (w.finished id).state = w.state := rfl
@[simp] theorem finished_labels (w : World L σ) (id : ℕ) : (w.finished id).tasks.labels = w.tasks.labels := rfl
@[simp] theorem finished_fresh (w : World L σ) (id : ℕ) : (w.finished id).tasks.fresh = w.tasks.fresh := rfl
@[simp] theorem finished_ended (w : World L σ) (id : ℕ) : (w.finished id).tasks.ended = id :: w.tasks.ended := rfl
@[simp] theorem spawn_state (w : World L σ) (l : L) : (w.spawn l).state = w.state := rfl
@[simp] theorem stop_state (w : World L σ) (id : ℕ) : (w.stop id).state = w.state := by
  unfold stop
  split_ifs <;> rfl

end World

/-- The bodies of the tasks, the steps of the outside, and the answers an operation may get. -/
structure Loop (L σ Op : Type) (Ans : Op → Type) (ε E : Type) where
  code : ℕ → L → Co (World L σ) Op Ans ε Unit
  outside : E → World L σ → Option (World L σ)
  answers : World L σ → (op : Op) → Except ε (Ans op) → Bool
  /-- The exception of a task that is asked to stop. -/
  stopped : ε

/-- What happens next. -/
inductive Choice (Op : Type) (Ans : Op → Type) (ε E : Type)
  | begin (id : ℕ)
  /-- A task that is asked to stop before it begins never runs. -/
  | skip (id : ℕ)
  | resume (id : ℕ) (x : ∀ op : Op, Except ε (Ans op))
  | outside (e : E)

structure Pool (L σ Op : Type) (Ans : Op → Type) (ε : Type) where
  world : World L σ
  parked : ℕ → Option (Co.Parked (World L σ) Op Ans ε Unit)

namespace Loop
variable {L σ Op : Type} {Ans : Op → Type} {ε E : Type} [DecidableEq ε]

/-- A task that is asked to stop gets nothing but that exception. -/
def accepts (loop : Loop L σ Op Ans ε E) (w : World L σ) (id : ℕ) (op : Op) (x : Except ε (Ans op)) : Bool :=
  if id ∈ w.tasks.stopping then
    match x with
    | .error e => decide (e = loop.stopped)
    | .ok _ => false
  else loop.answers w op x

theorem answers_of_accepts {loop : Loop L σ Op Ans ε E} {w : World L σ} (hstopping : w.tasks.stopping = [])
    {id : ℕ} {op : Op} {x : Except ε (Ans op)} (h : loop.accepts w id op x = true) : loop.answers w op x = true := by
  unfold accepts at h
  rwa [hstopping, if_neg List.not_mem_nil] at h

/-- A task parks at its await, or is over. -/
def settle (p : Pool L σ Op Ans ε) (id : ℕ) :
    (Except ε Unit ⊕ Co.Parked (World L σ) Op Ans ε Unit) × World L σ → Pool L σ Op Ans ε
  | (.inl _, w) => ⟨w.finished id, fun i => if i = id then none else p.parked i⟩
  | (.inr k, w) => ⟨w, fun i => if i = id then some k else p.parked i⟩

def next (loop : Loop L σ Op Ans ε E) (p : Pool L σ Op Ans ε) : Choice Op Ans ε E → Option (Pool L σ Op Ans ε)
  | .begin id =>
    match p.world.tasks.labels[id]? with
    | some l =>
      if id ∈ p.world.tasks.fresh ∧ id ∉ p.world.tasks.stopping then
        some (settle p id ((loop.code id l).run (p.world.begun id)))
      else none
    | none => none
  | .skip id =>
    if id < p.world.tasks.labels.length ∧ id ∈ p.world.tasks.fresh ∧ id ∈ p.world.tasks.stopping then
      some (settle p id (.inl (.ok ()), p.world.begun id))
    else none
  | .resume id x =>
    match p.parked id with
    | some k =>
      if loop.accepts p.world id k.op (x k.op) then
        some (settle p id ((k.resume (x k.op)).run (p.world.resumed id)))
      else none
    | none => none
  | .outside e => (loop.outside e p.world).map fun w => { p with world := w }

/-- A run of the loop. -/
inductive Run (loop : Loop L σ Op Ans ε E) (p₀ : Pool L σ Op Ans ε) : Pool L σ Op Ans ε → Prop
  | refl : Run loop p₀ p₀
  | step {p p' : Pool L σ Op Ans ε} (c : Choice Op Ans ε E) (run : Run loop p₀ p) (next : loop.next p c = some p') :
      Run loop p₀ p'

/-- A list of choices, one after the other. -/
def exec (loop : Loop L σ Op Ans ε E) (p : Pool L σ Op Ans ε) : List (Choice Op Ans ε E) → Option (Pool L σ Op Ans ε)
  | [] => some p
  | c :: cs => (loop.next p c).bind fun p' => exec loop p' cs

theorem Run.exec {loop : Loop L σ Op Ans ε E} {p₀ p p' : Pool L σ Op Ans ε} (h : Run loop p₀ p) :
    ∀ {cs : List (Choice Op Ans ε E)}, loop.exec p cs = some p' → Run loop p₀ p'
  | [], he => Option.some.inj he ▸ h
  | c :: cs, he => by
    obtain ⟨q, hq, he⟩ := Option.bind_eq_some_iff.mp he
    exact Run.exec (h.step c hq) he

/-! ### The invariant of a run -/

/-- What every task relies on and guarantees, around an invariant. -/
structure Contract (loop : Loop L σ Op Ans ε E) where
  inv : World L σ → Prop
  rely : ℕ → L → World L σ → World L σ → Prop
  guar : ℕ → L → World L σ → World L σ → Prop

variable {loop : Loop L σ Op Ans ε E}

def Contract.conduct (c : Contract loop) (id : ℕ) (l : L) : Co.Conduct (World L σ) Op Ans ε where
  rely w w' := c.inv w' ∧ w'.tasks.labels[id]? = some l ∧ c.rely id l w w'
  guar := c.guar id l
  answers w op x := loop.accepts w id op x = true
  resume w := w.resumed id

/-- The contract holds: whoever acts keeps the invariant and what the others rely on. -/
structure Contract.Sound (c : Contract loop) : Prop where
  refl : ∀ id l w, c.rely id l w w
  trans : ∀ {id l w w' w''}, c.rely id l w w' → c.rely id l w' w'' → c.rely id l w w''
  code : ∀ {id l w}, c.inv w → w.tasks.labels[id]? = some l → id ∈ w.tasks.fresh →
    (loop.code id l).wp (c.conduct id l) (fun w₀ w _ => c.guar id l w₀ (w.finished id)) w (w.begun id)
  skip : ∀ {id l w}, c.inv w → w.tasks.labels[id]? = some l → c.guar id l w ((w.begun id).finished id)
  guar : ∀ {id l w w'}, c.inv w → w.tasks.labels[id]? = some l → c.guar id l w w' →
    c.inv w' ∧ w.tasks.labels <+: w'.tasks.labels ∧
      ∀ {id' l'}, id' ≠ id → w.tasks.labels[id']? = some l' → c.rely id' l' w w'
  outside : ∀ {e w w'}, c.inv w → loop.outside e w = some w' →
    c.inv w' ∧ w.tasks.labels <+: w'.tasks.labels ∧ ∀ {id l}, w.tasks.labels[id]? = some l → c.rely id l w w'

/-- The invariant holds, and every parked task goes on as it may from here. -/
structure Contract.Holds (c : Contract loop) (p : Pool L σ Op Ans ε) : Prop where
  inv : c.inv p.world
  parked : ∀ id k, p.parked id = some k → ∃ l w, p.world.tasks.labels[id]? = some l ∧ c.rely id l w p.world ∧
    ∀ x w', (c.conduct id l).rely w w' → (c.conduct id l).answers w' k.op x →
      (k.resume x).wp (c.conduct id l) (fun w₀ w _ => c.guar id l w₀ (w.finished id)) w' (w'.resumed id)

theorem label_of_prefix {l l' : List L} (h : l <+: l') {i : ℕ} {a : L} (hi : l[i]? = some a) : l'[i]? = some a := by
  obtain ⟨hlt, rfl⟩ := List.getElem?_eq_some_iff.mp hi
  exact List.prefix_iff_getElem?.mp h i hlt

namespace Contract
variable {c : Contract loop} {p p' : Pool L σ Op Ans ε}

/-- Where a segment stops, it has guaranteed what it must. -/
theorem guar_settle {id : ℕ} {l : L} {q : Co (World L σ) Op Ans ε Unit} {w₀ w : World L σ}
    (hq : q.wp (c.conduct id l) (fun w₀ w _ => c.guar id l w₀ (w.finished id)) w₀ w) :
    c.guar id l w₀ (Loop.settle p id (q.run w)).world := by
  have hrun := Co.wp_run hq
  rcases hr : q.run w with ⟨r | k, w'⟩ <;> rw [hr] at hrun
  · exact hrun
  · exact hrun.1

/-- A segment of task `id` that keeps to the contract leaves every task able to go on. -/
theorem Sound.settle (h : c.Sound) (hp : c.Holds p) {id : ℕ} {l : L} (hl : p.world.tasks.labels[id]? = some l)
    {q : Co (World L σ) Op Ans ε Unit} {w : World L σ}
    (hq : q.wp (c.conduct id l) (fun w₀ w _ => c.guar id l w₀ (w.finished id)) p.world w) :
    c.Holds (Loop.settle p id (q.run w)) := by
  have hrun := Co.wp_run hq
  -- Every other task's parked segment stays usable.
  have hothers : ∀ {w'}, c.guar id l p.world w' → ∀ i k, i ≠ id → p.parked i = some k →
      ∃ l wp, w'.tasks.labels[i]? = some l ∧ c.rely i l wp w' ∧
        ∀ x w'', (c.conduct i l).rely wp w'' → (c.conduct i l).answers w'' k.op x →
          (k.resume x).wp (c.conduct i l) (fun w₀ w _ => c.guar i l w₀ (w.finished i)) w'' (w''.resumed i) := by
    intro w' hg i k hi hk
    obtain ⟨li, wp, hli, hrely, hres⟩ := hp.parked i k hk
    obtain ⟨-, hlabels, hrelies⟩ := h.guar hp.inv hl hg
    exact ⟨li, wp, label_of_prefix hlabels hli, h.trans hrely (hrelies hi hli), hres⟩
  rcases hr : q.run w with ⟨r | k, w'⟩ <;> rw [hr] at hrun
  · obtain ⟨hinv, -, -⟩ := h.guar hp.inv hl hrun
    refine ⟨hinv, fun i k hk => ?_⟩
    simp only [Loop.settle] at hk
    split_ifs at hk with hi
    exact hothers hrun i k hi hk
  · obtain ⟨hg, hres⟩ := hrun
    obtain ⟨hinv, hlabels, -⟩ := h.guar hp.inv hl hg
    refine ⟨hinv, fun i k' hk => ?_⟩
    simp only [Loop.settle] at hk
    split_ifs at hk with hi
    · subst hi
      obtain rfl := Option.some.inj hk
      exact ⟨l, w', label_of_prefix hlabels hl, h.refl _ _ _, hres⟩
    · exact hothers hg i k' hi hk

theorem Sound.next (h : c.Sound) (hp : c.Holds p) {ch : Choice Op Ans ε E} (hn : loop.next p ch = some p') :
    c.Holds p' := by
  cases ch with
  | begin id =>
    cases hl : p.world.tasks.labels[id]? with
    | none => simp [Loop.next, hl] at hn
    | some l =>
      simp only [Loop.next, hl, Option.ite_none_right_eq_some] at hn
      obtain ⟨hfresh, rfl⟩ := hn.imp_right Option.some.inj
      exact h.settle hp hl (h.code hp.inv hl hfresh.1)
  | skip id =>
    simp only [Loop.next, Option.ite_none_right_eq_some] at hn
    obtain ⟨⟨hlt, -⟩, rfl⟩ := hn.imp_right Option.some.inj
    have hl := List.getElem?_eq_getElem hlt
    exact h.settle (q := .ret ()) hp hl (h.skip hp.inv hl)
  | resume id x =>
    cases hk : p.parked id with
    | none => simp [Loop.next, hk] at hn
    | some k =>
      simp only [Loop.next, hk, Option.ite_none_right_eq_some] at hn
      obtain ⟨hacc, rfl⟩ := hn.imp_right Option.some.inj
      obtain ⟨l, w, hl, hrely, hres⟩ := hp.parked id k hk
      exact h.settle hp hl (hres _ _ ⟨hp.inv, hl, hrely⟩ hacc)
  | outside e =>
    obtain ⟨w, hw, rfl⟩ := Option.map_eq_some_iff.mp hn
    obtain ⟨hinv, hlabels, hrelies⟩ := h.outside hp.inv hw
    refine ⟨hinv, fun i k hk => ?_⟩
    obtain ⟨li, wp, hli, hrely, hres⟩ := hp.parked i k hk
    exact ⟨li, wp, label_of_prefix hlabels hli, h.trans hrely (hrelies hli), hres⟩

/-- One step of a run is a segment of a task, or the outside acts. -/
theorem Sound.acted (h : c.Sound) (hp : c.Holds p) {ch : Choice Op Ans ε E} (hn : loop.next p ch = some p') :
    (∃ id l, p.world.tasks.labels[id]? = some l ∧ c.guar id l p.world p'.world) ∨
      ∃ e, ch = .outside e ∧ loop.outside e p.world = some p'.world := by
  cases ch with
  | begin id =>
    cases hl : p.world.tasks.labels[id]? with
    | none => simp [Loop.next, hl] at hn
    | some l =>
      simp only [Loop.next, hl, Option.ite_none_right_eq_some] at hn
      obtain ⟨hfresh, rfl⟩ := hn.imp_right Option.some.inj
      exact .inl ⟨id, l, hl, guar_settle (h.code hp.inv hl hfresh.1)⟩
  | skip id =>
    simp only [Loop.next, Option.ite_none_right_eq_some] at hn
    obtain ⟨⟨hlt, -⟩, rfl⟩ := hn.imp_right Option.some.inj
    have hl := List.getElem?_eq_getElem hlt
    exact .inl ⟨id, _, hl, h.skip hp.inv hl⟩
  | resume id x =>
    cases hk : p.parked id with
    | none => simp [Loop.next, hk] at hn
    | some k =>
      simp only [Loop.next, hk, Option.ite_none_right_eq_some] at hn
      obtain ⟨hacc, rfl⟩ := hn.imp_right Option.some.inj
      obtain ⟨l, w, hl, hrely, hres⟩ := hp.parked id k hk
      exact .inl ⟨id, l, hl, guar_settle (hres _ _ ⟨hp.inv, hl, hrely⟩ hacc)⟩
  | outside e =>
    obtain ⟨w, hw, rfl⟩ := Option.map_eq_some_iff.mp hn
    exact .inr ⟨e, rfl, hw⟩

/-- A body that keeps to a guarantee which the loop's own books do not matter to. -/
theorem wp_begun {id : ℕ} {l : L} {q : Co (World L σ) Op Ans ε Unit} {w : World L σ}
    (hbegun : ∀ u, c.guar id l (w.begun id) u → c.guar id l w u)
    (hfinished : ∀ {w u}, c.guar id l w u → c.guar id l w (u.finished id))
    (hq : q.wp (c.conduct id l) (fun w₀ w _ => c.guar id l w₀ w) (w.begun id) (w.begun id)) :
    q.wp (c.conduct id l) (fun w₀ w _ => c.guar id l w₀ (w.finished id)) w (w.begun id) := by
  suffices hgo : ∀ {u}, q.wp (c.conduct id l) (fun w₀ w _ => c.guar id l w₀ w) (w.begun id) u →
      q.wp (c.conduct id l) (fun w₀ w _ => c.guar id l w₀ (w.finished id)) w u from hgo hq
  clear hq
  induction q with
  | ret a => exact fun {u} h => hbegun _ (hfinished h)
  | fail e => exact fun {u} h => hbegun _ (hfinished h)
  | act f k ih => exact fun {u} h => ih u h
  | await op k ih => exact fun {u} h =>
    ⟨hbegun _ h.1, fun y w' hr ha => Co.wp_mono (h.2 y w' hr ha) fun _ _ _ hg => hfinished hg⟩

/-- What holds at first and is kept holds in every run. -/
theorem Sound.run (h : c.Sound) {p₀ : Pool L σ Op Ans ε} (hp : c.Holds p₀) (hrun : Run loop p₀ p) : c.Holds p := by
  induction hrun with
  | refl => exact hp
  | step ch _ hn ih => exact h.next ih hn

end Contract
end Loop

/-! ### A relation that every act keeps -/

section Acts
variable {L σ Op : Type} {Ans : Op → Type} {ε E α β : Type}

/-- Nothing is known of the answers and of what happens before them. -/
def loosest (G : World L σ → World L σ → Prop) : Co.Conduct (World L σ) Op Ans ε where
  rely _ _ := True
  guar := G
  answers _ _ _ := True
  resume w := w

/-- Whatever happens at its awaits, a coroutine keeps `G` from one to the next. -/
def Acts (G : World L σ → World L σ → Prop) (p : Co (World L σ) Op Ans ε α) : Prop :=
  ∀ w₀ w, G w₀ w → p.wp (loosest G) (fun w₀ w _ => G w₀ w) w₀ w

namespace Acts
variable {G : World L σ → World L σ → Prop} {p : Co (World L σ) Op Ans ε α}

theorem wp_bind {g : α → Co (World L σ) Op Ans ε β} {w₀ w : World L σ}
    (h : p.wp (loosest G) (fun w₀ w _ => G w₀ w) w₀ w)
    (hg : ∀ a w₀ w, G w₀ w → (g a).wp (loosest G) (fun w₀ w _ => G w₀ w) w₀ w) :
    (p.bind g).wp (loosest G) (fun w₀ w _ => G w₀ w) w₀ w := by
  refine Co.wp_bind'.mpr (Co.wp_mono h fun w₀ w r hr => ?_)
  cases r with
  | ok a => exact hg a w₀ w hr
  | error e => exact hr

protected theorem bind {g : α → Co (World L σ) Op Ans ε β} (h : Acts G p) (hg : ∀ a, Acts G (g a)) : Acts G (p >>= g) :=
  fun w₀ w hw => wp_bind (h w₀ w hw) fun a => hg a

theorem pure (a : α) : Acts G (Pure.pure a : Co (World L σ) Op Ans ε α) := fun _ _ hw => hw

theorem raise (e : ε) : Acts G (Co.raise e : Co (World L σ) Op Ans ε α) := fun _ _ hw => hw

theorem ofExcept (r : Except ε α) : Acts G (Co.ofExcept r : Co (World L σ) Op Ans ε α) := fun _ _ hw => by
  cases r <;> exact hw

theorem read : Acts G (Co.read : Co (World L σ) Op Ans ε (World L σ)) := fun _ _ hw => hw

theorem call [Std.Refl G] (op : Op) : Acts G (Co.call op : Co (World L σ) Op Ans ε (Ans op)) := fun _ _ hw =>
  Co.wp_call.mpr ⟨hw, fun _ w' _ _ => refl_of G w'⟩

theorem atomic [IsTrans _ G] {f : World L σ → α × World L σ} (h : ∀ w, G w (f w).2) :
    Acts G (Co.atomic f : Co (World L σ) Op Ans ε α) := fun _ w hw => trans_of G hw (h w)

theorem update [IsTrans _ G] {f : World L σ → World L σ} (h : ∀ w, G w (f w)) :
    Acts G (Co.update f : Co (World L σ) Op Ans ε Unit) := fun _ w hw => trans_of G hw (h w)

protected theorem handle {h : ε → Co (World L σ) Op Ans ε α} (hp : Acts G p) (hh : ∀ e, Acts G (h e)) :
    Acts G (p.handle h) :=
  fun w₀ w hw => Co.wp_handle.mpr (Co.wp_mono (hp w₀ w hw) fun w₀ w r hr => by
    cases r with
    | ok a => exact hr
    | error e => exact hh e w₀ w hr)

protected theorem attempt (hp : Acts G p) : Acts G p.attempt := fun w₀ w hw => Co.wp_attempt.mpr (hp w₀ w hw)

protected theorem ensure {cleanup : Co (World L σ) Op Ans ε Unit} (hp : Acts G p) (hc : Acts G cleanup) :
    Acts G (p.ensure cleanup) :=
  hp.attempt.bind fun r => hc.bind fun _ => ofExcept r

theorem each {body : β → Co (World L σ) Op Ans ε Unit} (h : ∀ x, Acts G (body x)) : ∀ l, Acts G (Co.each l body)
  | [] => pure ()
  | x :: l => (h x).bind fun _ => each h l

/-- Such a coroutine fits every conduct whose guarantee absorbs `G`, and what is stable under `G` and under the
    others stays true. -/
theorem triple [Std.Refl G] (hp : Acts G p) {c : Co.Conduct (World L σ) Op Ans ε} {X : World L σ → Prop}
    (habsorb : ∀ {w₀ w w'}, c.guar w₀ w → X w → G w w' → c.guar w₀ w')
    (hresume : ∀ {w w'}, X w → c.rely w w' → c.guar w' (c.resume w'))
    (hstable : ∀ {w w'}, X w → G w w' → X w') (hrely : ∀ {w w'}, X w → c.rely w w' → X (c.resume w')) :
    Co.Triple c X p (fun _ => X) (fun _ => X) := fun w₀ w hw hX => by
  -- A segment of `p` that started in `v` and is now in `u` goes on, for `c`, from where `c` came to `v`.
  suffices hgo : ∀ {q : Co (World L σ) Op Ans ε α} {v₀ v u}, c.guar v₀ v → X v →
      q.wp (loosest G) (fun w w' _ => G w w') v u → q.wp c (fun w₀ w _ => c.guar w₀ w ∧ X w) v₀ u from
    Co.wp_mono (hgo hw hX (hp w w (refl_of G w))) fun w₀ w r hr => by
      cases r <;> exact hr
  intro q
  induction q with
  | ret a => exact fun hv hX hq => ⟨habsorb hv hX hq, hstable hX hq⟩
  | fail e => exact fun hv hX hq => ⟨habsorb hv hX hq, hstable hX hq⟩
  | act f k ih => exact fun {v₀ v u} hv hX hq => ih u hv hX hq
  | await op k ih =>
    exact fun {v₀ v u} hv hX hq => ⟨habsorb hv hX hq.1, fun x w' hr _ =>
      ih x (hresume (hstable hX hq.1) hr) (hrely (hstable hX hq.1) hr) (hq.2 x (c.resume w') trivial trivial)⟩

end Acts

/-- Tasks are only added, all of them of the kind `new`, and yet to begin. -/
structure Grows (new : L → Prop) (t t' : Tasks L) : Prop where
  labels : ∃ added, t'.labels = t.labels ++ added ∧ ∀ l ∈ added, new l
  fresh : ∀ id ∈ t'.fresh, id ∈ t.fresh ∨ t.labels.length ≤ id
  ended : t'.ended = t.ended

namespace Grows
variable {new : L → Prop} {t t' u : Tasks L}

theorem refl (t : Tasks L) : Grows new t t := ⟨⟨[], by simp⟩, fun _ h => .inl h, rfl⟩

theorem prefix_labels (h : Grows new t t') : t.labels <+: t'.labels := by
  obtain ⟨added, hadded, -⟩ := h.labels
  exact hadded ▸ List.prefix_append _ _

theorem trans (h₁ : Grows new t t') (h₂ : Grows new t' u) : Grows new t u where
  labels := by
    obtain ⟨a, ha, hnew⟩ := h₁.labels
    obtain ⟨b, hb, hnew'⟩ := h₂.labels
    refine ⟨a ++ b, by rw [hb, ha, List.append_assoc], fun l hl => ?_⟩
    exact (List.mem_append.mp hl).elim (hnew l) (hnew' l)
  fresh id hid := by
    rcases h₂.fresh id hid with h | h
    · exact h₁.fresh id h
    · exact .inr (Nat.le_trans h₁.prefix_labels.length_le h)
  ended := h₂.ended.trans h₁.ended

theorem spawn (w : World L σ) {l : L} (h : new l) : Grows new w.tasks (w.spawn l).tasks where
  labels := ⟨[l], rfl, by simpa using h⟩
  fresh id hid := by
    rcases List.mem_append.mp hid with hid | hid
    · exact .inl hid
    · exact .inr (Nat.le_of_eq (List.mem_singleton.mp hid).symm)
  ended := rfl

theorem stop (w : World L σ) (id : ℕ) : Grows new w.tasks (w.stop id).tasks := by
  unfold World.stop
  split_ifs
  · exact .refl _
  · exact ⟨⟨[], by simp⟩, fun _ h => .inl h, rfl⟩

/-- Where a label is found after, it was there or is new. -/
theorem label (h : Grows new t t') {id : ℕ} {l : L} (hl : t'.labels[id]? = some l) : t.labels[id]? = some l ∨ new l := by
  obtain ⟨added, hadded, hnew⟩ := h.labels
  rw [hadded] at hl
  rcases Nat.lt_or_ge id t.labels.length with hid | hid
  · rw [List.getElem?_append_left hid] at hl
    exact .inl hl
  · rw [List.getElem?_append_right hid] at hl
    exact .inr (hnew l (List.mem_of_getElem? hl))

end Grows

/-- The states keep `R`, and only tasks of one kind are added. -/
def Keeps (new : L → Prop) (R : σ → σ → Prop) (w w' : World L σ) : Prop := R w.state w'.state ∧ Grows new w.tasks w'.tasks

instance {new : L → Prop} {R : σ → σ → Prop} [IsPreorder σ R] : IsPreorder (World L σ) (Keeps new R) where
  refl w := ⟨refl_of R w.state, .refl _⟩
  trans _ _ _ h₁ h₂ := ⟨trans_of R h₁.1 h₂.1, h₁.2.trans h₂.2⟩

end Acts
end CanaTune
