import Mathlib.Logic.Relation

/-! Coroutines of one event loop. A coroutine runs alone from one await to the next; there the loop may run any
    other task or the outside before it answers. A task is reasoned about with what it relies on of the others
    and what it guarantees to them. -/

namespace CanaTune

/-- A coroutine over a shared world `W`: it acts on the world, or awaits the answer to an operation, which may be
    an exception. -/
inductive Co (W Op : Type) (Ans : Op → Type) (ε α : Type)
  | ret (a : α)
  | fail (e : ε)
  | act (f : W → W) (k : W → Co W Op Ans ε α)
  | await (op : Op) (k : Except ε (Ans op) → Co W Op Ans ε α)

namespace Co
variable {W Op : Type} {Ans : Op → Type} {ε α β : Type}

/-! ### Programs -/

def bind : Co W Op Ans ε α → (α → Co W Op Ans ε β) → Co W Op Ans ε β
  | ret a, g => g a
  | fail e, _ => fail e
  | act f k, g => act f fun w => (k w).bind g
  | await op k, g => await op fun x => (k x).bind g

instance : Monad (Co W Op Ans ε) where
  pure := ret
  bind := bind

/-- `try … except`. -/
def handle : Co W Op Ans ε α → (ε → Co W Op Ans ε α) → Co W Op Ans ε α
  | ret a, _ => ret a
  | fail e, h => h e
  | act f k, h => act f fun w => (k w).handle h
  | await op k, h => await op fun x => (k x).handle h

/-- The result of a coroutine, an exception included. -/
def attempt : Co W Op Ans ε α → Co W Op Ans ε (Except ε α)
  | ret a => ret (.ok a)
  | fail e => ret (.error e)
  | act f k => act f fun w => (k w).attempt
  | await op k => await op fun x => (k x).attempt

def ofExcept : Except ε α → Co W Op Ans ε α
  | .ok a => ret a
  | .error e => fail e

/-- `try … finally`: an exception goes on once the clean-up is over. -/
def ensure (p : Co W Op Ans ε α) (cleanup : Co W Op Ans ε Unit) : Co W Op Ans ε α :=
  p.attempt.bind fun r => cleanup.bind fun _ => ofExcept r

def raise (e : ε) : Co W Op Ans ε α := fail e

/-- Reads the world. -/
def read : Co W Op Ans ε W := act id ret

/-- Writes the world. -/
def update (f : W → W) : Co W Op Ans ε Unit := act f fun _ => ret ()

/-- Reads and writes the world at once. -/
def atomic (f : W → α × W) : Co W Op Ans ε α := act (fun w => (f w).2) fun w => ret (f w).1

def call (op : Op) : Co W Op Ans ε (Ans op) := await op ofExcept

/-- `for x in l`. -/
def each (l : List β) (body : β → Co W Op Ans ε Unit) : Co W Op Ans ε Unit :=
  match l with
  | [] => ret ()
  | x :: l => (body x).bind fun _ => each l body

/-! ### Execution -/

/-- A coroutine that waits for an answer. -/
structure Parked (W Op : Type) (Ans : Op → Type) (ε α : Type) where
  op : Op
  resume : Except ε (Ans op) → Co W Op Ans ε α

/-- Up to the next await, or to the end. -/
def run : Co W Op Ans ε α → W → (Except ε α ⊕ Parked W Op Ans ε α) × W
  | ret a, w => (.inl (.ok a), w)
  | fail e, w => (.inl (.error e), w)
  | act f k, w => (k w).run (f w)
  | await op k, w => (.inr ⟨op, k⟩, w)

/-! ### Rely and guarantee -/

/-- What a task relies on between its awaits, what it guarantees from one await to the next, and which answers
    it may get. `resume` is the loop's own bookkeeping as it answers. -/
structure Conduct (W Op : Type) (Ans : Op → Type) (ε : Type) where
  rely : W → W → Prop
  guar : W → W → Prop
  answers : W → (op : Op) → Except ε (Ans op) → Prop
  resume : W → W

/-- From a segment that started in `w₀` and is now in `w`, every segment guarantees what it must, and the last one
    ends in `Q`. -/
def wp (c : Conduct W Op Ans ε) : Co W Op Ans ε α → (W → W → Except ε α → Prop) → W → W → Prop
  | ret a, Q, w₀, w => Q w₀ w (.ok a)
  | fail e, Q, w₀, w => Q w₀ w (.error e)
  | act f k, Q, w₀, w => (k w).wp c Q w₀ (f w)
  | await op k, Q, w₀, w => c.guar w₀ w ∧ ∀ x w', c.rely w w' → c.answers w' op x → (k x).wp c Q w' (c.resume w')

section
variable {c : Conduct W Op Ans ε} {Q Q' : W → W → Except ε α → Prop} {w₀ w : W}

theorem wp_mono {p : Co W Op Ans ε α} (h : p.wp c Q w₀ w) (hQ : ∀ w₀ w r, Q w₀ w r → Q' w₀ w r) : p.wp c Q' w₀ w := by
  induction p generalizing w₀ w with
  | ret a => exact hQ _ _ _ h
  | fail e => exact hQ _ _ _ h
  | act f k ih => exact ih w h
  | await op k ih => exact ⟨h.1, fun x w' hr ha => ih x (h.2 x w' hr ha)⟩

@[simp] theorem wp_ret (a : α) : wp c (ret a) Q w₀ w ↔ Q w₀ w (.ok a) := Iff.rfl
@[simp] theorem wp_pure (a : α) : wp c (pure a) Q w₀ w ↔ Q w₀ w (.ok a) := Iff.rfl
@[simp] theorem wp_raise (e : ε) : wp c (raise e) Q w₀ w ↔ Q w₀ w (.error e) := Iff.rfl
@[simp] theorem wp_fail (e : ε) : wp c (fail e) Q w₀ w ↔ Q w₀ w (.error e) := Iff.rfl
@[simp] theorem wp_read {Q : W → W → Except ε W → Prop} : wp c read Q w₀ w ↔ Q w₀ w (.ok w) := Iff.rfl
@[simp] theorem wp_update {Q : W → W → Except ε Unit → Prop} (f : W → W) :
    wp c (update f) Q w₀ w ↔ Q w₀ (f w) (.ok ()) := Iff.rfl
@[simp] theorem wp_atomic (f : W → α × W) : wp c (atomic f) Q w₀ w ↔ Q w₀ (f w).2 (.ok (f w).1) := Iff.rfl

/-- What a sequence has to reach first. -/
def andThen (c : Conduct W Op Ans ε) (g : α → Co W Op Ans ε β) (Q : W → W → Except ε β → Prop) :
    W → W → Except ε α → Prop
  | w₀, w, .ok a => (g a).wp c Q w₀ w
  | w₀, w, .error e => Q w₀ w (.error e)

@[simp] theorem andThen_ok {g : α → Co W Op Ans ε β} {Q : W → W → Except ε β → Prop} (a : α) :
    andThen c g Q w₀ w (.ok a) ↔ (g a).wp c Q w₀ w := Iff.rfl
@[simp] theorem andThen_error {g : α → Co W Op Ans ε β} {Q : W → W → Except ε β → Prop} (e : ε) :
    andThen c g Q w₀ w (.error e) ↔ Q w₀ w (.error e) := Iff.rfl

@[simp] theorem wp_bind' {p : Co W Op Ans ε α} {g : α → Co W Op Ans ε β} {Q : W → W → Except ε β → Prop} :
    wp c (p.bind g) Q w₀ w ↔ p.wp c (andThen c g Q) w₀ w := by
  induction p generalizing w₀ w with
  | ret a => rfl
  | fail e => rfl
  | act f k ih => exact ih w
  | await op k ih => exact and_congr_right fun _ => forall₄_congr fun x w' _ _ => ih x

@[simp] theorem wp_bind {p : Co W Op Ans ε α} {g : α → Co W Op Ans ε β} {Q : W → W → Except ε β → Prop} :
    wp c (p >>= g) Q w₀ w ↔ p.wp c (andThen c g Q) w₀ w := wp_bind'

theorem wp_handle {p : Co W Op Ans ε α} {h : ε → Co W Op Ans ε α} :
    wp c (p.handle h) Q w₀ w ↔ p.wp c (fun w₀ w r => match r with
      | .ok a => Q w₀ w (.ok a)
      | .error e => (h e).wp c Q w₀ w) w₀ w := by
  induction p generalizing w₀ w with
  | ret a => rfl
  | fail e => rfl
  | act f k ih => exact ih w
  | await op k ih => exact and_congr_right fun _ => forall₄_congr fun x w' _ _ => ih x

theorem wp_call {op : Op} {Q : W → W → Except ε (Ans op) → Prop} :
    wp c (call op) Q w₀ w ↔ c.guar w₀ w ∧ ∀ x w', c.rely w w' → c.answers w' op x → Q w' (c.resume w') x := by
  refine and_congr_right fun _ => forall₄_congr fun x w' _ _ => ?_
  cases x <;> rfl

theorem wp_attempt {p : Co W Op Ans ε α} {Q : W → W → Except ε (Except ε α) → Prop} :
    wp c p.attempt Q w₀ w ↔ p.wp c (fun w₀ w r => Q w₀ w (.ok r)) w₀ w := by
  induction p generalizing w₀ w with
  | ret a => rfl
  | fail e => rfl
  | act f k ih => exact ih w
  | await op k ih => exact and_congr_right fun _ => forall₄_congr fun x w' _ _ => ih x

@[simp] theorem wp_ofExcept (r : Except ε α) : wp c (ofExcept r) Q w₀ w ↔ Q w₀ w r := by
  cases r <;> rfl

/-- Where a segment stands when it stops: at its end, or at an await it can be resumed from. -/
theorem wp_run {p : Co W Op Ans ε α} (h : p.wp c Q w₀ w) :
    match p.run w with
    | (.inl r, w') => Q w₀ w' r
    | (.inr k, w') => c.guar w₀ w' ∧ ∀ x w'', c.rely w' w'' → c.answers w'' k.op x →
        (k.resume x).wp c Q w'' (c.resume w'') := by
  induction p generalizing w with
  | ret a => exact h
  | fail e => exact h
  | act f k ih => exact ih w h
  | await op k ih => exact h

/-! ### Executions to the end -/

/-- A coroutine that runs to its end, through awaits whose answers and whose meantime the conduct allows. -/
inductive Ends (c : Conduct W Op Ans ε) : Co W Op Ans ε α → W → Except ε α → W → Prop
  | ret (a : α) (w : W) : Ends c (ret a) w (.ok a) w
  | fail (e : ε) (w : W) : Ends c (fail e) w (.error e) w
  | act {f : W → W} {k : W → Co W Op Ans ε α} {w w' : W} {r : Except ε α} (rest : Ends c (k w) (f w) r w') :
      Ends c (act f k) w r w'
  | await {op : Op} {k : Except ε (Ans op) → Co W Op Ans ε α} {w w' w'' : W} {x : Except ε (Ans op)} {r : Except ε α}
      (meantime : c.rely w w') (answer : c.answers w' op x) (rest : Ends c (k x) (c.resume w') r w'') :
      Ends c (await op k) w r w''

/-- Where it ends, it has reached what was to be reached. -/
theorem Ends.reaches {p : Co W Op Ans ε α} {r : Except ε α} {w' : W} (h : Ends c p w r w') {w₀ : W} (hp : p.wp c Q w₀ w) :
    ∃ w₁, Q w₁ w' r := by
  induction h generalizing w₀ with
  | ret a w => exact ⟨w₀, hp⟩
  | fail e w => exact ⟨w₀, hp⟩
  | act rest ih => exact ih hp
  | await meantime answer rest ih => exact ih (hp.2 _ _ meantime answer)

/-- The execution in which every operation has one answer, and the same happens during each. -/
def play (x : ∀ op, Except ε (Ans op)) (meantime : W → W) : Co W Op Ans ε α → W → Except ε α × W
  | ret a, w => (.ok a, w)
  | fail e, w => (.error e, w)
  | act f k, w => (k w).play x meantime (f w)
  | await op k, w => (k (x op)).play x meantime (meantime w)

theorem ends_play {x : ∀ op, Except ε (Ans op)} {meantime : W → W} (hrely : ∀ w, c.rely w (meantime w))
    (hanswer : ∀ w op, c.answers w op (x op)) (hresume : ∀ w, c.resume w = w) (p : Co W Op Ans ε α) (w : W) :
    Ends c p w (p.play x meantime w).1 (p.play x meantime w).2 := by
  induction p generalizing w with
  | ret a => exact .ret a w
  | fail e => exact .fail e w
  | act f k ih => exact .act (ih w (f w))
  | await op k ih => exact .await (hrely w) (hanswer _ op) ((hresume (meantime w)).symm ▸ ih (x op) (meantime w))

/-! ### Triples -/

/-- Where the segment so far keeps to the conduct and `P` holds, the coroutine keeps to it and ends in `Q`, or with
    an exception in `E`. -/
def Triple (c : Conduct W Op Ans ε) (P : W → Prop) (p : Co W Op Ans ε α) (Q : α → W → Prop) (E : ε → W → Prop) : Prop :=
  ∀ w₀ w, c.guar w₀ w → P w → p.wp c (fun w₀ w r => c.guar w₀ w ∧ match r with
    | .ok a => Q a w
    | .error e => E e w) w₀ w

namespace Triple
variable {P A : W → Prop} {R : α → W → Prop} {S : β → W → Prop} {E B : ε → W → Prop} {p : Co W Op Ans ε α}

theorem conseq {R' : α → W → Prop} (h : Triple c P p R E) (hP : ∀ w, A w → P w) (hR : ∀ a w, R a w → R' a w)
    (hE : ∀ e w, E e w → B e w) : Triple c A p R' B := fun w₀ w hw hp =>
  wp_mono (h w₀ w hw (hP w hp)) fun w₀ w r hr => by
    cases r with
    | ok a => exact ⟨hr.1, hR a w hr.2⟩
    | error e => exact ⟨hr.1, hE e w hr.2⟩

theorem pure {a : α} (h : ∀ w, P w → R a w) : Triple c P (Pure.pure a) R E := fun _ w hw hp => ⟨hw, h w hp⟩

theorem raise {e : ε} (h : ∀ w, P w → E e w) : Triple c P (Co.raise e) R E := fun _ w hw hp => ⟨hw, h w hp⟩

theorem ofExcept {r : Except ε α} (hok : ∀ a w, r = .ok a → P w → R a w) (herror : ∀ e w, r = .error e → P w → E e w) :
    Triple c P (Co.ofExcept r) R E := by
  cases r with
  | ok a => exact pure fun w => hok a w rfl
  | error e => exact raise fun w => herror e w rfl

protected theorem bind {g : α → Co W Op Ans ε β} (h : Triple c P p R E) (hg : ∀ a, Triple c (R a) (g a) S E) :
    Triple c P (p >>= g) S E := fun w₀ w hw hp =>
  Co.wp_bind.mpr (wp_mono (h w₀ w hw hp) fun w₀ w r hr => by
    cases r with
    | ok a => exact hg a w₀ w hr.1 hr.2
    | error e => exact hr)

protected theorem handle {h : ε → Co W Op Ans ε α} (hp : Triple c P p R E) (hh : ∀ e, Triple c (E e) (h e) R B) :
    Triple c P (p.handle h) R B := fun w₀ w hw hP =>
  wp_handle.mpr (wp_mono (hp w₀ w hw hP) fun w₀ w r hr => by
    cases r with
    | ok a => exact hr
    | error e => exact hh e w₀ w hr.1 hr.2)

protected theorem attempt (hp : Triple c P p R E) :
    Triple c P p.attempt (fun r w => match r with
      | .ok a => R a w
      | .error e => E e w) B := fun w₀ w hw hP => wp_attempt.mpr (hp w₀ w hw hP)

protected theorem ensure {cleanup : Co W Op Ans ε Unit} (hp : Triple c P p R E)
    (hok : ∀ a, Triple c (R a) cleanup (fun _ => R a) B) (herror : ∀ e, Triple c (E e) cleanup (fun _ => E e) B)
    (hE : ∀ e w, E e w → B e w) : Triple c P (p.ensure cleanup) R B := by
  refine hp.attempt.bind fun r => ?_
  cases r with
  | ok a => exact (hok a).bind fun _ => pure fun w h => h
  | error e => exact (herror e).bind fun _ => raise fun w h => hE e w h

theorem read {R : W → W → Prop} (h : ∀ w, P w → R w w) : Triple c P Co.read R E := fun _ w hw hp => ⟨hw, h w hp⟩

theorem update {f : W → W} {R : Unit → W → Prop} (h : ∀ w₀ w, c.guar w₀ w → P w → c.guar w₀ (f w) ∧ R () (f w)) :
    Triple c P (Co.update f) R E := fun w₀ w hw hp => h w₀ w hw hp

theorem atomic {f : W → α × W} (h : ∀ w₀ w, c.guar w₀ w → P w → c.guar w₀ (f w).2 ∧ R (f w).1 (f w).2) :
    Triple c P (Co.atomic f) R E := fun w₀ w hw hp => h w₀ w hw hp

theorem call {op : Op} {R : Ans op → W → Prop} (hresume : ∀ w w', P w → c.rely w w' → c.guar w' (c.resume w'))
    (hok : ∀ w w' a, P w → c.rely w w' → c.answers w' op (.ok a) → R a (c.resume w'))
    (herror : ∀ w w' e, P w → c.rely w w' → c.answers w' op (.error e) → E e (c.resume w')) :
    Triple c P (Co.call op) R E := fun w₀ w hw hp =>
  wp_call.mpr ⟨hw, fun x w' hr ha => by
    cases x with
    | ok a => exact ⟨hresume w w' hp hr, hok w w' a hp hr ha⟩
    | error e => exact ⟨hresume w w' hp hr, herror w w' e hp hr ha⟩⟩

/-- What holds of the rest of a list before each of its rounds. -/
theorem each {body : β → Co W Op Ans ε Unit} {P : List β → W → Prop}
    (h : ∀ x l, Triple c (P (x :: l)) (body x) (fun _ => P l) E) : ∀ l, Triple c (P l) (Co.each l body) (fun _ => P []) E
  | [] => pure fun _ hp => hp
  | x :: l => (h x l).bind fun _ => each h l

end Triple
end
end Co
end CanaTune
