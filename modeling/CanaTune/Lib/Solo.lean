import CanaTune.Lib.EventLoop

/-! A loop with one task: the outside acts between its segments, and nobody else. -/

namespace CanaTune

/-- Where the task begins, what it keeps, and what may happen meanwhile. -/
structure Solo (σ : Type) where
  start : σ → Prop
  inv : σ → Prop
  meanwhile : σ → σ → Prop
  refl : ∀ s, meanwhile s s
  trans : ∀ {s s' s''}, meanwhile s s' → meanwhile s' s'' → meanwhile s s''
  start_inv : ∀ {s}, start s → inv s
  start_meanwhile : ∀ {s s'}, start s → meanwhile s s' → start s'
  inv_meanwhile : ∀ {s s'}, inv s → meanwhile s s' → inv s'

namespace Solo
variable {L σ Op : Type} {Ans : Op → Type} {ε E α : Type} [DecidableEq ε] {loop : Loop L σ Op Ans ε E} {x : Solo σ}

/-- The invariant holds, the task runs `l` alone, and nobody asks it to stop. -/
structure Holds (x : Solo σ) (l : L) (w : World L σ) : Prop where
  inv : x.inv w.state
  labels : w.tasks.labels = [l]
  stopping : w.tasks.stopping = []

def contract (loop : Loop L σ Op Ans ε E) (x : Solo σ) (l : L) : Loop.Contract loop where
  inv w := x.Holds l w ∧ (0 ∈ w.tasks.fresh → x.start w.state)
  rely _ _ w w' := x.meanwhile w.state w'.state ∧ w'.tasks.fresh = w.tasks.fresh
  guar _ _ _ w := x.Holds l w ∧ 0 ∉ w.tasks.fresh

/-- From states in `P` the task ends in `Q`, or with an exception in `R`. -/
def Does (loop : Loop L σ Op Ans ε E) (x : Solo σ) (l : L) (P : σ → Prop) (p : Co (World L σ) Op Ans ε α)
    (Q : α → σ → Prop) (R : ε → σ → Prop) : Prop :=
  Co.Triple ((contract loop x l).conduct 0 l) (fun w => P w.state) p (fun a w => Q a w.state) fun e w => R e w.state

/-- What an end, or an exception, has to reach. -/
def Outcome (Q : α → σ → Prop) (R : ε → σ → Prop) : Except ε α → σ → Prop
  | .ok a => Q a
  | .error e => R e

/-- What happens meanwhile changes nothing about it. -/
def Stable (x : Solo σ) (P : σ → Prop) : Prop := ∀ ⦃s s'⦄, P s → x.meanwhile s s' → P s'

theorem Holds.resumed {l : L} {w : World L σ} (h : x.Holds l w) (id : ℕ) : x.Holds l (w.resumed id) :=
  ⟨h.inv, h.labels, World.resumed_stopping h.stopping id⟩

theorem Holds.finished {l : L} {w : World L σ} (h : x.Holds l w) (id : ℕ) : x.Holds l (w.finished id) :=
  ⟨h.inv, h.labels, World.finished_stopping h.stopping id⟩

theorem contract_sound {l : L} (code : Does loop x l x.start (loop.code 0 l) (fun _ _ => True) fun _ _ => True)
    (outside : ∀ {e w w'}, loop.outside e w = some w' → w'.tasks = w.tasks ∧ x.meanwhile w.state w'.state) :
    (contract loop x l).Sound where
  refl _ _ w := ⟨x.refl w.state, rfl⟩
  trans h h' := ⟨x.trans h.1 h'.1, h'.2.trans h.2⟩
  code {id l' w} hinv hl hfresh := by
    rw [hinv.1.labels] at hl
    obtain ⟨hid, hl⟩ := List.getElem?_eq_some_iff.mp hl
    obtain rfl : id = 0 := by simpa using hid
    obtain rfl : l = l' := hl
    have hbegun : (contract loop x l).guar 0 l (w.begun 0) (w.begun 0) :=
      ⟨⟨hinv.1.inv, hinv.1.labels, hinv.1.stopping⟩, by simp [World.begun]⟩
    exact Loop.Contract.wp_begun (fun _ h => h) (fun h => ⟨h.1.finished 0, h.2⟩)
      (Co.wp_mono (code (w.begun 0) (w.begun 0) hbegun (hinv.2 hfresh)) fun _ _ _ h => h.1)
  skip {id _ w} hinv hl := by
    obtain rfl : id = 0 := by simpa [hinv.1.labels] using (List.getElem?_eq_some_iff.mp hl).1
    exact ⟨Holds.finished (w := w.begun 0) ⟨hinv.1.inv, hinv.1.labels, hinv.1.stopping⟩ 0, by simp [World.begun]⟩
  guar {id l w w'} hinv hl hg := by
    refine ⟨⟨hg.1, fun h => absurd h hg.2⟩, hg.1.labels.symm ▸ hinv.1.labels ▸ List.prefix_rfl, fun {id' l'} hne hl' => ?_⟩
    have hid : id < 1 := by simpa [hinv.1.labels] using (List.getElem?_eq_some_iff.mp hl).1
    have hid' : id' < 1 := by simpa [hinv.1.labels] using (List.getElem?_eq_some_iff.mp hl').1
    omega
  outside hinv ho := by
    obtain ⟨htasks, hmeanwhile⟩ := outside ho
    refine ⟨⟨⟨x.inv_meanwhile hinv.1.inv hmeanwhile, htasks ▸ hinv.1.labels, htasks ▸ hinv.1.stopping⟩, fun hfresh => ?_⟩,
      htasks ▸ List.prefix_rfl, fun _ => ⟨hmeanwhile, by rw [htasks]⟩⟩
    exact x.start_meanwhile (hinv.2 (htasks ▸ hfresh)) hmeanwhile

/-- The invariant holds in every run of the loop with its one task. -/
theorem inv_of_run {l : L} (hsound : (contract loop x l).Sound) {s : σ} (hs : x.start s) {p : Pool L σ Op Ans ε}
    (hrun : loop.Run ⟨⟨s, ⟨[l], [0], [], []⟩⟩, fun _ => none⟩ p) : x.inv p.world.state :=
  (hsound.run ⟨⟨⟨x.start_inv hs, rfl, rfl⟩, fun _ => hs⟩, fun id k hk => by cases hk⟩ hrun).inv.1.inv

/-! ### Rules -/

namespace Does
variable {β : Type} {l : L} {P P' : σ → Prop} {Q Q' : α → σ → Prop} {S : β → σ → Prop} {R R' : ε → σ → Prop}
  {p : Co (World L σ) Op Ans ε α}

theorem conseq (h : Does loop x l P p Q R) (hP : ∀ s, P' s → P s) (hQ : ∀ a s, Q a s → Q' a s)
    (hR : ∀ e s, R e s → R' e s) :
    Does loop x l P' p Q' R' := Co.Triple.conseq h (fun _ => hP _) (fun _ _ => hQ _ _) fun _ _ => hR _ _

theorem pre (h : Does loop x l P p Q R) (hP : ∀ s, P' s → P s) : Does loop x l P' p Q R :=
  h.conseq hP (fun _ _ h => h) fun _ _ h => h

theorem pure {a : α} (h : ∀ s, P s → Q a s) : Does loop x l P (Pure.pure a) Q R := Co.Triple.pure fun _ => h _

theorem raise {e : ε} (h : ∀ s, P s → R e s) : Does loop x l P (Co.raise e : Co (World L σ) Op Ans ε α) Q R :=
  Co.Triple.raise fun _ => h _

protected theorem bind {g : α → Co (World L σ) Op Ans ε β} (h : Does loop x l P p Q R)
    (hg : ∀ a, Does loop x l (Q a) (g a) S R) :
    Does loop x l P (p >>= g) S R := Co.Triple.bind h hg

protected theorem handle {h : ε → Co (World L σ) Op Ans ε α} (hp : Does loop x l P p Q R)
    (hh : ∀ e, Does loop x l (R e) (h e) Q R') :
    Does loop x l P (p.handle h) Q R' := Co.Triple.handle hp hh

protected theorem attempt (hp : Does loop x l P p Q R) : Does loop x l P p.attempt (Outcome Q R) R' :=
  (Co.Triple.attempt hp).conseq (fun _ hw => hw) (fun r _ hr => by cases r <;> exact hr) fun _ _ hr => hr

/-- The clean-up of an end, and of an exception, after which the exception goes on. -/
protected theorem ensure {cleanup : Co (World L σ) Op Ans ε Unit} (hp : Does loop x l P p Q R)
    (hok : ∀ a, Does loop x l (Q a) cleanup (fun _ => Q' a) R')
    (herror : ∀ e, Does loop x l (R e) cleanup (fun _ => R' e) R') :
    Does loop x l P (p.ensure cleanup) Q' R' :=
  hp.attempt.bind fun r => by
    cases r with
    | ok a => exact (hok a).bind fun _ => pure fun _ h => h
    | error e => exact (herror e).bind fun _ => raise fun _ h => h

theorem each {body : β → Co (World L σ) Op Ans ε Unit} {P : List β → σ → Prop}
    (h : ∀ b bs, Does loop x l (P (b :: bs)) (body b) (fun _ => P bs) R) :
    ∀ bs, Does loop x l (P bs) (Co.each bs body) (fun _ => P []) R
  | [] => pure fun _ hp => hp
  | b :: bs => (h b bs).bind fun _ => each h bs

theorem call {op : Op} {Q : Ans op → σ → Prop} (hP : x.Stable P)
    (hok : ∀ w a, P w.state → loop.answers w op (.ok a) = true → Q a w.state)
    (herror : ∀ w e, P w.state → loop.answers w op (.error e) = true → R e w.state) : Does loop x l P (Co.call op) Q R :=
  fun _ w hw hp => Co.wp_call.mpr ⟨hw, fun y w' hr ha => by
    obtain ⟨hinv, -, hmeanwhile, hfresh⟩ := hr
    have hanswer := Loop.answers_of_accepts hinv.1.stopping ha
    refine ⟨⟨hinv.1.resumed 0, fun h => hw.2 (hfresh ▸ h)⟩, ?_⟩
    cases y with
    | ok a => exact hok w' a (hP hp hmeanwhile) hanswer
    | error e => exact herror w' e (hP hp hmeanwhile) hanswer⟩

theorem update {f : σ → σ} {Q : σ → Prop} (h : ∀ s, x.inv s → P s → x.inv (f s) ∧ Q (f s)) :
    Does loop x l P (Co.update fun w => w.map f) (fun _ => Q) R :=
  Co.Triple.update fun _ w hw hp => by
    obtain ⟨hinv, hq⟩ := h w.state hw.1.inv hp
    exact ⟨⟨⟨hinv, hw.1.labels, hw.1.stopping⟩, hw.2⟩, hq⟩

/-- The invariant may be used. -/
theorem of_inv (h : Does loop x l (fun s => P s ∧ x.inv s) p Q R) : Does loop x l P p Q R := fun w₀ w hw hp =>
  h w₀ w hw ⟨hp, hw.1.inv⟩

/-- What is known from the start, whatever the state. -/
theorem fact {A : Prop} (h : A → Does loop x l P p Q R) : Does loop x l (fun s => A ∧ P s) p Q R := fun w₀ w hw hp =>
  h hp.1 w₀ w hw hp.2

/-- The invariant holds in the end. -/
theorem post_inv (h : Does loop x l P p Q R) : Does loop x l P p (fun a s => Q a s ∧ x.inv s) fun e s => R e s ∧ x.inv s :=
  fun w₀ w hw hp => Co.wp_mono (h w₀ w hw hp) fun _ _ r hr => ⟨hr.1, by
    cases r with
    | ok a => exact ⟨hr.2, hr.1.1.inv⟩
    | error e => exact ⟨hr.2, hr.1.1.inv⟩⟩

end Does
end Solo
end CanaTune
