import Mathlib.Data.List.Basic
import Mathlib.Order.Basic

/-! A value set by commands that are carried out in the order they were sent. Each may be applied or not, and only an
    applied one is acknowledged. What lies below every value that may come is kept until a lower one is sent. -/

namespace CanaTune

/-- The value, the commands sent, and for each one carried out whether it was acknowledged. -/
structure Actuator (α : Type) where
  value : α
  sent : List α
  done : List Bool

namespace Actuator
variable {α : Type}

def send (a : Actuator α) (x : α) : Actuator α := { a with sent := a.sent ++ [x] }

/-- The next command, `x`, is carried out. -/
def carryOut (a : Actuator α) (x : α) (applied acked : Bool) : Actuator α :=
  { a with value := if applied then x else a.value, done := a.done ++ [acked] }

theorem sent_send {a : Actuator α} {x y : α} {j : ℕ} (h : (a.send x).sent[j]? = some y) :
    a.sent[j]? = some y ∨ (j = a.sent.length ∧ y = x) := by
  rcases Nat.lt_or_ge j a.sent.length with hj | hj
  · exact .inl (by rwa [send, List.getElem?_append_left hj] at h)
  · rw [send, List.getElem?_append_right hj, List.getElem?_singleton] at h
    split at h
    · exact .inr ⟨by omega, (Option.some.inj h).symm⟩
    · cases h

theorem sent_of_sent {a : Actuator α} {x y : α} {j : ℕ} (h : a.sent[j]? = some y) : (a.send x).sent[j]? = some y := by
  rw [send, List.getElem?_append_left (List.getElem?_eq_some_iff.mp h).1, h]

variable [Preorder α] {a : Actuator α} {x y : α} {k : ℕ} {applied acked : Bool}

/-- The value is `x` or more, whatever commands are applied. -/
structure Floor (x : α) (a : Actuator α) : Prop where
  value : x ≤ a.value
  pending : ∀ j y, a.done.length ≤ j → a.sent[j]? = some y → x ≤ y

/-- The value is `x` or more up to command `k`; later commands may have changed it. -/
structure FloorTo (k : ℕ) (x : α) (a : Actuator α) : Prop where
  value : x ≤ a.value ∨ ∃ j, k < j ∧ a.sent[j]? = some a.value
  pending : ∀ j y, a.done.length ≤ j → j ≤ k → a.sent[j]? = some y → x ≤ y

/-- Only sent commands are carried out, and an acknowledged one set the value. -/
structure Honest (a : Actuator α) : Prop where
  length : a.done.length ≤ a.sent.length
  acked : ∀ k x, a.done[k]? = some true → a.sent[k]? = some x → FloorTo k x a

theorem Floor.le (h : Floor x a) (hyx : y ≤ x) : Floor y a :=
  ⟨hyx.trans h.value, fun j z hj hz => hyx.trans (h.pending j z hj hz)⟩

/-- Where no later command is lower, the value stays above. -/
theorem FloorTo.floor (h : FloorTo k x a) (hlater : ∀ j y, k < j → a.sent[j]? = some y → x ≤ y) : Floor x a where
  value := by
    rcases h.value with hv | ⟨j, hk, hj⟩
    · exact hv
    · exact hlater j _ hk hj
  pending j y hd hj := by
    rcases Nat.lt_or_ge k j with hk | hk
    · exact hlater j y hk hj
    · exact h.pending j y hd hk hj

/-! ### Sending -/

theorem Floor.send (h : Floor x a) (hxy : x ≤ y) : Floor x (a.send y) where
  value := h.value
  pending j z hd hj := by
    rcases sent_send hj with hj | ⟨-, rfl⟩
    · exact h.pending j z hd hj
    · exact hxy

theorem FloorTo.send (h : FloorTo k x a) (hk : k < a.sent.length) (y : α) : FloorTo k x (a.send y) where
  value := by
    rcases h.value with hv | ⟨j, hj, hs⟩
    · exact .inl hv
    · exact .inr ⟨j, hj, sent_of_sent hs⟩
  pending j z hd hjk hj := by
    rcases sent_send hj with hj | ⟨rfl, -⟩
    · exact h.pending j z hd hjk hj
    · omega

/-- What lay below before a command and lies below the command lies below up to it. -/
theorem Floor.sendTo (h : Floor x a) (hxy : x ≤ y) : FloorTo a.sent.length x (a.send y) where
  value := .inl h.value
  pending j z hd _ hj := (h.send hxy).pending j z hd hj

theorem Honest.send (h : Honest a) (y : α) : Honest (a.send y) where
  length := by
    have hlen := h.length
    simp only [Actuator.send, List.length_append]
    omega
  acked k x hk hx := by
    have hlt : k < a.sent.length := Nat.lt_of_lt_of_le (List.getElem?_eq_some_iff.mp hk).1 h.length
    rcases sent_send hx with hx | ⟨rfl, -⟩
    · exact (h.acked k x hk hx).send hlt y
    · omega

/-! ### Carrying out -/

theorem Floor.carryOut (h : Floor x a) (hy : a.sent[a.done.length]? = some y) (applied acked : Bool) :
    Floor x (a.carryOut y applied acked) where
  value := by
    cases applied
    · exact h.value
    · exact h.pending _ _ (Nat.le_refl _) hy
  pending j z hd hj := h.pending j z (by simp [Actuator.carryOut] at hd; omega) hj

theorem FloorTo.carryOut (h : FloorTo k x a) (hy : a.sent[a.done.length]? = some y) (applied acked : Bool) :
    FloorTo k x (a.carryOut y applied acked) where
  value := by
    cases applied
    · exact h.value
    · rcases Nat.lt_or_ge k a.done.length with hk | hk
      · exact .inr ⟨_, hk, hy⟩
      · exact .inl (h.pending _ _ (Nat.le_refl _) hk hy)
  pending j z hd hjk hj := h.pending j z (by simp [Actuator.carryOut] at hd; omega) hjk hj

theorem Honest.carryOut (h : Honest a) (hy : a.sent[a.done.length]? = some y) (hacked : acked = true → applied = true) :
    Honest (a.carryOut y applied acked) where
  length := by
    have hlt := (List.getElem?_eq_some_iff.mp hy).1
    simp only [Actuator.carryOut, List.length_append, List.length_singleton]
    omega
  acked k x hk hx := by
    rcases Nat.lt_or_ge k a.done.length with hlt | hge
    · rw [Actuator.carryOut, List.getElem?_append_left hlt] at hk
      exact (h.acked k x hk hx).carryOut hy applied acked
    · -- the command just carried out was acknowledged, so it is the value now
      rw [Actuator.carryOut, List.getElem?_append_right hge, List.getElem?_singleton] at hk
      split at hk
      case isFalse => cases hk
      case isTrue hzero =>
        obtain rfl : k = a.done.length := by omega
        obtain rfl : y = x := Option.some.inj (hy.symm.trans hx)
        have happlied : applied = true := hacked (Option.some.inj hk)
        exact ⟨.inl (by simp [Actuator.carryOut, happlied]), fun j z hd hjk => by simp [Actuator.carryOut] at hd; omega⟩

end Actuator
end CanaTune
