import CanaTune.Lib.EventLoop

/-! Shared state behind one lock per key: only who holds a key's lock changes what the lock guards. Threads that keep to
    this leave each other undisturbed, whatever they do in between. -/

namespace CanaTune

/-- Who holds each key's lock, and what the lock guards. -/
structure Guarded (σ κ V : Type) where
  holder : σ → κ → Option ℕ
  view : σ → κ → V

namespace Guarded
variable {σ κ V : Type} {x : Guarded σ κ V} {id other : ℕ} {s s' s'' : σ}

/-- A step of thread `id`: the other threads keep their locks, and what these guard. -/
structure Respects (x : Guarded σ κ V) (id : ℕ) (s s' : σ) : Prop where
  holder : ∀ k other, other ≠ id → (x.holder s' k = some other ↔ x.holder s k = some other)
  view : ∀ k other, other ≠ id → x.holder s k = some other → x.view s' k = x.view s k

/-- Steps of the other threads, as thread `id` sees them. -/
structure Undisturbed (x : Guarded σ κ V) (id : ℕ) (s s' : σ) : Prop where
  holder : ∀ k, x.holder s' k = some id ↔ x.holder s k = some id
  view : ∀ k, x.holder s k = some id → x.view s' k = x.view s k

theorem Respects.refl (x : Guarded σ κ V) (id : ℕ) (s : σ) : x.Respects id s s := ⟨fun _ _ _ => Iff.rfl, fun _ _ _ _ => rfl⟩

theorem Respects.trans (h : x.Respects id s s') (h' : x.Respects id s' s'') : x.Respects id s s'' where
  holder k other hne := (h'.holder k other hne).trans (h.holder k other hne)
  view k other hne hk := (h'.view k other hne ((h.holder k other hne).mpr hk)).trans (h.view k other hne hk)

theorem Undisturbed.refl (x : Guarded σ κ V) (id : ℕ) (s : σ) : x.Undisturbed id s s := ⟨fun _ => Iff.rfl, fun _ _ => rfl⟩

theorem Undisturbed.trans (h : x.Undisturbed id s s') (h' : x.Undisturbed id s' s'') : x.Undisturbed id s s'' where
  holder k := (h'.holder k).trans (h.holder k)
  view k hk := (h'.view k ((h.holder k).mpr hk)).trans (h.view k hk)

theorem Respects.undisturbed (h : x.Respects id s s') (hne : other ≠ id) : x.Undisturbed other s s' :=
  ⟨fun k => h.holder k other hne, fun k => h.view k other hne⟩

/-- A thread takes, gives or uses the lock of one key, which no other thread holds. -/
theorem Respects.of_key {k : κ} (before : ∀ other, other ≠ id → x.holder s k ≠ some other)
    (after : ∀ other, other ≠ id → x.holder s' k ≠ some other)
    (elsewhere : ∀ k', k' ≠ k → x.holder s' k' = x.holder s k' ∧ x.view s' k' = x.view s k') : x.Respects id s s' where
  holder k' other hne := by
    by_cases hk : k' = k
    · subst hk
      exact iff_of_false (after other hne) (before other hne)
    · rw [(elsewhere k' hk).1]
  view k' other hne hk' := by
    by_cases hk : k' = k
    · subst hk
      exact absurd hk' (before other hne)
    · exact (elsewhere k' hk).2

/-! ### Threads on a loop -/

section Threads
variable {L Op : Type} {Ans : Op → Type} {ε E α : Type} [DecidableEq ε] {loop : Loop L σ Op Ans ε E} {inv : σ → Prop}

/-- Each thread keeps `inv`, respects the locks of the others, and asks none of them to stop. -/
def contract (loop : Loop L σ Op Ans ε E) (x : Guarded σ κ V) (inv : σ → Prop) : Loop.Contract loop where
  inv w := inv w.state ∧ w.tasks.stopping = []
  rely id _ w w' := x.Undisturbed id w.state w'.state
  guar id _ w w' := (inv w'.state ∧ w'.tasks.stopping = []) ∧ x.Respects id w.state w'.state ∧
    w.tasks.labels <+: w'.tasks.labels

/-- The contract holds once every thread's code and the outside keep to it. -/
theorem contract_sound
    (code : ∀ {id l w}, inv w.state → w.tasks.stopping = [] →
      (loop.code id l).wp ((contract loop x inv).conduct id l) (fun w₀ w _ => (contract loop x inv).guar id l w₀ w) w w)
    (outside : ∀ {e w w'}, inv w.state → loop.outside e w = some w' → inv w'.state ∧ w'.tasks.stopping = w.tasks.stopping ∧
      w.tasks.labels <+: w'.tasks.labels ∧ ∀ id, x.Undisturbed id w.state w'.state) : (contract loop x inv).Sound where
  refl _ _ w := .refl x _ w.state
  trans h h' := h.trans h'
  code {id l w} hinv _ _ :=
    Loop.Contract.wp_begun (fun _ h => h) (fun h => ⟨⟨h.1.1, World.finished_stopping h.1.2 id⟩, h.2⟩)
    (code (w := w.begun id) hinv.1 hinv.2)
  skip {id _ w} hinv _ := ⟨⟨hinv.1, World.finished_stopping (w := w.begun id) hinv.2 id⟩, .refl x _ _, List.prefix_rfl⟩
  guar _ _ hg := ⟨hg.1, hg.2.2, fun hne _ => hg.2.1.undisturbed hne⟩
  outside hinv ho := by
    obtain ⟨hi, hstopping, hlabels, hundisturbed⟩ := outside hinv.1 ho
    exact ⟨⟨hi, hstopping.trans hinv.2⟩, hlabels, fun {id _} _ => hundisturbed id⟩

/-- What a thread knows of a key it holds stays true over an await. -/
theorem triple_call {id : ℕ} {l : L} {k : κ} {φ : V → Prop} {op : Op} {R : Ans op → World L σ → Prop}
    {E : ε → World L σ → Prop} (hheld : ∀ s, φ (x.view s k) → x.holder s k = some id)
    (hok : ∀ w a, inv w.state → φ (x.view w.state k) → loop.answers w op (.ok a) = true → R a (w.resumed id))
    (herror : ∀ w e, inv w.state → φ (x.view w.state k) → loop.answers w op (.error e) = true → E e (w.resumed id)) :
    Co.Triple ((contract loop x inv).conduct id l) (fun w => φ (x.view w.state k)) (Co.call op) R E := by
  refine Co.Triple.call (fun w w' _ hr => ?_) (fun w w' a hφ hr ha => ?_) fun w w' e hφ hr ha => ?_
  · exact ⟨⟨hr.1.1, World.resumed_stopping hr.1.2 id⟩, .refl x _ _, List.prefix_rfl⟩
  · refine hok w' a hr.1.1 ?_ (Loop.answers_of_accepts hr.1.2 ha)
    rw [hr.2.2.view k (hheld _ hφ)]
    exact hφ
  · refine herror w' e hr.1.1 ?_ (Loop.answers_of_accepts hr.1.2 ha)
    rw [hr.2.2.view k (hheld _ hφ)]
    exact hφ

/-- A thread that needs no lock awaits an answer. -/
theorem triple_answer {id : ℕ} {l : L} {P : World L σ → Prop} {op : Op} {R : Ans op → World L σ → Prop}
    {E : ε → World L σ → Prop} (hok : ∀ w a, inv w.state → loop.answers w op (.ok a) = true → R a (w.resumed id))
    (herror : ∀ w e, inv w.state → loop.answers w op (.error e) = true → E e (w.resumed id)) :
    Co.Triple ((contract loop x inv).conduct id l) P (Co.call op) R E :=
  Co.Triple.call (fun _ _ _ hr => ⟨⟨hr.1.1, World.resumed_stopping hr.1.2 id⟩, .refl x _ _, List.prefix_rfl⟩)
    (fun _ w' a _ hr ha => hok w' a hr.1.1 (Loop.answers_of_accepts hr.1.2 ha))
    fun _ w' e _ hr ha => herror w' e hr.1.1 (Loop.answers_of_accepts hr.1.2 ha)

/-- A thread changes the state as it may. -/
theorem triple_update {id : ℕ} {l : L} {P Q : World L σ → Prop} {E : ε → World L σ → Prop} {f : σ → σ}
    (h : ∀ w, inv w.state → P w → inv (f w.state) ∧ x.Respects id w.state (f w.state) ∧ Q (w.map f)) :
    Co.Triple ((contract loop x inv).conduct id l) P (Co.update fun w => w.map f) (fun _ => Q) E := by
  refine Co.Triple.update fun w₀ w hw hp => ?_
  obtain ⟨hinv, hrespects, hq⟩ := h w hw.1.1 hp
  exact ⟨⟨⟨hinv, hw.1.2⟩, hw.2.1.trans hrespects, hw.2.2⟩, hq⟩

end Threads
end Guarded
end CanaTune
