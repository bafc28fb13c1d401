import Mathlib.Data.List.Basic

/-! Properties of a trace that compare each of its events with what was told before it. -/

namespace CanaTune
variable {α : Type} {P Q : List α → α → Prop} {trace rest : List α} {e : α}

/-- `P` holds of every event and of the events before it. -/
def Along (P : List α → α → Prop) (trace : List α) : Prop := ∀ before e after, trace = before ++ e :: after → P before e

namespace Along

theorem nil : Along P [] := fun before e after h => by simp at h

theorem append (h : Along P trace) (he : P trace e) : Along P (trace ++ [e]) := by
  intro before e' after heq
  rcases List.eq_nil_or_concat after with rfl | ⟨rest, last, rfl⟩
  · obtain ⟨rfl, hlast⟩ := List.append_inj' heq rfl
    obtain rfl := List.singleton_inj.mp hlast
    exact he
  · rw [List.concat_eq_append, ← List.cons_append, ← List.append_assoc] at heq
    exact h before e' rest (List.append_inj' heq rfl).1

theorem of_append (h : Along P (trace ++ rest)) : Along P trace := fun before e after heq =>
  h before e (after ++ rest) (by rw [heq, List.append_assoc, List.cons_append])

theorem last (h : Along P (trace ++ [e])) : P trace e := h trace e [] rfl

/-- A part of the events decides, where the others neither ask nor answer. -/
theorem filter_iff (keep : α → Bool) (hkept : ∀ before e, keep e = true → (P (before.filter keep) e ↔ P before e))
    (hother : ∀ before e, keep e = false → P before e) : Along P (trace.filter keep) ↔ Along P trace := by
  constructor
  · rintro h before e after rfl
    cases hk : keep e with
    | true => exact (hkept before e hk).mp (h _ e (after.filter keep) (by simp [hk]))
    | false => exact hother before e hk
  · intro h before e after heq
    obtain ⟨front, back, rfl, rfl, hback⟩ := List.filter_eq_append_iff.mp heq
    obtain ⟨skipped, after', rfl, hskipped, hk, -⟩ := List.filter_eq_cons_iff.mp hback
    have hP := (hkept (front ++ skipped) e hk).mpr (h _ e after' (by simp))
    rwa [List.filter_append, List.filter_eq_nil_iff.mpr fun x hx => hskipped x hx, List.append_nil] at hP

end Along
end CanaTune
