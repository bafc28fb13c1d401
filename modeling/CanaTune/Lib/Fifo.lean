import Mathlib

/-! A queue that serves its head only. A caller joins at its first call and may call again, be served at a
    call, leave at a call or be taken out; whatever the order of these events, nobody is served while
    somebody who called first is still waiting. -/

namespace Fifo
variable {W : Type*} [DecidableEq W]

/-- What a call is answered. -/
inductive Answer
  | wait
  | served
  | left
  deriving DecidableEq

inductive Event (W : Type*)
  | call (w : W) (answer : Answer)
  | cancel (w : W)
  deriving DecidableEq

/-- The caller joins at the end, unless it waits already. -/
def join (q : List W) (w : W) : List W := if w ∈ q then q else q ++ [w]

/-- One event; only the head is served. -/
inductive Step : List W → Event W → List W → Prop
  | wait (q : List W) (w : W) : Step q (.call w .wait) (join q w)
  | serve (q : List W) (w : W) (head : (join q w).head? = some w) : Step q (.call w .served) ((join q w).erase w)
  | leave (q : List W) (w : W) : Step q (.call w .left) (q.erase w)
  | cancel (q : List W) (w : W) : Step q (.cancel w) (q.erase w)

/-- The events of a run from the empty queue, and the queue they leave. -/
inductive Run : List (Event W) → List W → Prop
  | nil : Run [] []
  | step {tr : List (Event W)} {q q' : List W} {e : Event W} (run : Run tr q) (next : Step q e q') : Run (tr ++ [e]) q'

def Called (tr : List (Event W)) (w : W) : Prop := ∃ answer, .call w answer ∈ tr

/-- Served, sent away or taken out. -/
def Left (tr : List (Event W)) (w : W) : Prop := .call w .served ∈ tr ∨ .call w .left ∈ tr ∨ .cancel w ∈ tr

/-- The first call of `a` comes before any call of `b`. -/
def CallsFirst (tr : List (Event W)) (a b : W) : Prop := ∃ l₁ l₂, tr = l₁ ++ l₂ ∧ Called l₁ a ∧ ¬Called l₁ b

/-! ### Waiting ahead -/

/-- `a` waits ahead of `b`. -/
def Ahead (q : List W) (a b : W) : Prop := a ∈ q.takeWhile (· ≠ b)

section Ahead
variable {q : List W} {a b w : W}

theorem Ahead.mem (h : Ahead q a b) : a ∈ q := (List.takeWhile_subset _) h

@[simp] theorem ahead_nil : ¬Ahead [] a b := by simp [Ahead]

@[simp] theorem ahead_cons {x : W} : Ahead (x :: q) a b ↔ x ≠ b ∧ (a = x ∨ Ahead q a b) := by
  by_cases hx : x = b <;> simp [Ahead, hx]

theorem not_ahead_of_head (h : q.head? = some b) : ¬Ahead q a b := by
  obtain ⟨rest, rfl⟩ := List.head?_eq_some_iff.mp h
  simp

theorem ahead_of_not_mem (ha : a ∈ q) (hb : b ∉ q) : Ahead q a b := by
  induction q with
  | nil => simp at ha
  | cons x q ih =>
    rw [List.mem_cons, not_or] at hb
    exact ahead_cons.mpr ⟨fun hx => hb.1 hx.symm, (List.mem_cons.mp ha).imp id fun ha => ih ha hb.2⟩

theorem Ahead.append (h : Ahead q a b) : Ahead (q ++ [w]) a b := by
  induction q with
  | nil => simp at h
  | cons x q ih =>
    rw [ahead_cons] at h
    exact ahead_cons.mpr ⟨h.1, h.2.imp id ih⟩

theorem Ahead.join (h : Ahead q a b) : Ahead (Fifo.join q w) a b := by
  unfold Fifo.join
  split_ifs
  exacts [h, h.append]

theorem Ahead.erase (h : Ahead q a b) (hw : a ≠ w) : Ahead (q.erase w) a b := by
  induction q with
  | nil => simp at h
  | cons x q ih =>
    rw [ahead_cons] at h
    by_cases hxw : x = w
    · rw [hxw, List.erase_cons_head]
      exact h.2.resolve_left fun ha => hw (ha.trans hxw)
    · rw [List.erase_cons_tail (by simpa using hxw)]
      exact ahead_cons.mpr ⟨h.1, h.2.imp id ih⟩

theorem mem_join : a ∈ join q w ↔ a ∈ q ∨ a = w := by
  unfold join
  split_ifs with hw
  · exact ⟨.inl, fun h => h.elim id fun he => he ▸ hw⟩
  · simp

end Ahead

/-! ### The order of a run -/

/-- Only callers wait, and who called first and has not left waits ahead. -/
structure Ordered (tr : List (Event W)) (q : List W) : Prop where
  called : ∀ w ∈ q, Called tr w
  ahead : ∀ a b, CallsFirst tr a b → ¬Left tr a → Ahead q a b

theorem Step.mem {q q' : List W} {e : Event W} (h : Step q e q') {w : W} (hw : w ∈ q') : w ∈ q ∨ Called [e] w := by
  cases h with
  | wait v => exact (mem_join.mp hw).imp id fun he => ⟨.wait, by simp [he]⟩
  | serve v => exact (mem_join.mp (List.mem_of_mem_erase hw)).imp id fun he => ⟨.served, by simp [he]⟩
  | leave v => exact .inl (List.mem_of_mem_erase hw)
  | cancel v => exact .inl (List.mem_of_mem_erase hw)

theorem Step.head {q q' : List W} {w : W} (h : Step q (.call w .served) q') : (join q w).head? = some w := by
  cases h with
  | serve head => assumption

/-- Who does not leave at an event keeps its place. -/
theorem Step.ahead {q q' : List W} {e : Event W} (h : Step q e q') {a b : W} (ha : Ahead q a b) (hleft : ¬Left [e] a) :
    Ahead q' a b := by
  cases h with
  | wait v => exact ha.join
  | serve v => exact ha.join.erase fun he => hleft (by simp [Left, he])
  | leave v => exact ha.erase fun he => hleft (by simp [Left, he])
  | cancel v => exact ha.erase fun he => hleft (by simp [Left, he])

/-- Who calls and does not leave at the event waits afterwards. -/
theorem Step.waits {q q' : List W} {e : Event W} (h : Step q e q') {a : W} (ha : Called [e] a ∨ a ∈ q)
    (hleft : ¬Left [e] a) : a ∈ q' := by
  have hne (v : W) (he : e = .call v .served ∨ e = .call v .left ∨ e = .cancel v) : a ≠ v := fun hav => hleft (by
    subst hav
    rcases he with rfl | rfl | rfl <;> simp [Left])
  cases h with
  | wait v => exact mem_join.mpr (ha.symm.imp id fun hc => by simpa [Called] using hc)
  | serve v =>
    have hav := hne v (.inl rfl)
    exact (List.mem_erase_of_ne hav).mpr (mem_join.mpr (ha.symm.imp id fun hc => by simpa [Called] using hc))
  | leave v =>
    have hav := hne v (.inr (.inl rfl))
    exact (List.mem_erase_of_ne hav).mpr (ha.resolve_left fun hc => hav (by simpa [Called] using hc))
  | cancel v =>
    have hav := hne v (.inr (.inr rfl))
    exact (List.mem_erase_of_ne hav).mpr (ha.resolve_left fun hc => by simp [Called] at hc)

omit [DecidableEq W] in
theorem called_append {l₁ l₂ : List (Event W)} {w : W} : Called (l₁ ++ l₂) w ↔ Called l₁ w ∨ Called l₂ w := by
  simp only [Called, List.mem_append, exists_or]

omit [DecidableEq W] in
theorem left_append {l₁ l₂ : List (Event W)} {w : W} : Left (l₁ ++ l₂) w ↔ Left l₁ w ∨ Left l₂ w := by
  simp only [Left, List.mem_append]
  tauto

theorem Run.ordered {tr : List (Event W)} {q : List W} (h : Run tr q) : Ordered tr q := by
  induction h with
  | nil => exact ⟨by simp, fun a b ⟨l₁, l₂, he, ⟨answer, hc⟩, _⟩ _ => by
      obtain ⟨rfl, rfl⟩ := List.append_eq_nil_iff.mp he.symm
      simp at hc⟩
  | @step tr q q' e _ next ih =>
    refine ⟨fun w hw => ?_, fun a b hfirst hleft => ?_⟩
    · exact called_append.mpr ((next.mem hw).imp (ih.called w) id)
    · rw [left_append, not_or] at hleft
      obtain ⟨l₁, l₂, he, ha, hb⟩ := hfirst
      rcases List.eq_nil_or_concat l₂ with rfl | ⟨l₂, e', rfl⟩
      · -- The whole run is before any call of `b`, which therefore does not wait.
        rw [List.append_nil] at he
        subst he
        have hqb : b ∉ q' := fun hbq => hb (called_append.mpr ((next.mem hbq).imp (ih.called b) id))
        refine ahead_of_not_mem (next.waits ?_ hleft.2) hqb
        rcases called_append.mp ha with ha | ha
        · have hfirst : CallsFirst tr a b :=
            ⟨tr, [], (List.append_nil _).symm, ha, fun h => hb (called_append.mpr (.inl h))⟩
          exact .inr (ih.ahead a b hfirst hleft.1).mem
        · exact .inl ha
      · rw [List.concat_eq_append, ← List.append_assoc] at he
        obtain ⟨rfl, -⟩ := List.append_inj' he rfl
        exact next.ahead (ih.ahead a b ⟨l₁, l₂, rfl, ha, hb⟩ hleft.1) hleft.2

/-- Who is served finds everybody gone who called first. -/
theorem Run.left_of_served {tr : List (Event W)} {q : List W} (h : Run tr q) {a b : W} (hfirst : CallsFirst tr a b)
    (hhead : (join q b).head? = some b) : Left tr a := by
  by_contra hleft
  exact not_ahead_of_head hhead (h.ordered.ahead a b hfirst hleft).join

end Fifo
