import Mathlib

/-! Ledgers. Every entry of a list has a share at each place. A book balances when the amount it shows at a
    place is the sum of the shares there: booking an entry and replacing one keep the balance. -/

namespace Ledger
variable {P E M : Type*}

section Group
variable [AddCommGroup M]

/-- The sum of the shares at a place. -/
def held (share : E → P → M) (entries : List E) (p : P) : M := (entries.map fun e => share e p).sum

/-- The book shows at each place what is held there. -/
def Balanced (share : E → P → M) (entries : List E) (book : P → M) : Prop := ∀ p, book p = held share entries p

variable {share : E → P → M} {entries : List E} {book book' : P → M} {e e' : E} {i : ℕ} {p : P}

@[simp] theorem held_nil : held share [] p = 0 := rfl

@[simp] theorem held_append_singleton : held share (entries ++ [e]) p = held share entries p + share e p := by
  simp [held]

theorem held_set (he : entries[i]? = some e) :
    held share (entries.set i e') p = held share entries p - share e p + share e' p := by
  obtain ⟨hi, rfl⟩ := List.getElem?_eq_some_iff.mp he
  simp only [held, List.map_set]
  rw [List.sum_set', dif_pos (by simpa using hi), List.getElem_map]
  abel

theorem Balanced.nil (h : ∀ p, book p = 0) : Balanced share [] book := fun p => by rw [h p, held_nil]

/-- A new entry is booked with its share. -/
theorem Balanced.append (h : Balanced share entries book) (hb : ∀ p, book' p = book p + share e p) :
    Balanced share (entries ++ [e]) book' := fun p => by
  rw [hb p, h p, held_append_singleton]

/-- An entry is replaced: its old share leaves the book, its new one enters. -/
theorem Balanced.replace (h : Balanced share entries book) (he : entries[i]? = some e)
    (hb : ∀ p, book' p = book p - share e p + share e' p) : Balanced share (entries.set i e') book' := fun p => by
  rw [hb p, h p, held_set he]

/-- One column of a ledger is a ledger. -/
theorem Balanced.map {N : Type*} [AddCommGroup N] (h : Balanced share entries book) (f : M →+ N) :
    Balanced (fun e p => f (share e p)) entries (fun p => f (book p)) := fun p => by
  show f (book p) = _
  rw [h p, held, map_list_sum, List.map_map]
  rfl

theorem held_eq_zero (h : ∀ e ∈ entries, share e p = 0) : held share entries p = 0 :=
  List.sum_eq_zero (by simpa using h)

end Group

/-! ### Shares that are zero or an amount -/

/-- Of the entries that count at a place, the amounts are added up. -/
theorem held_ite [AddCommGroup M] (counts : E → P → Bool) (amount : E → M) (entries : List E) (p : P) :
    held (fun e p => if counts e p then amount e else 0) entries p =
      ((entries.filter fun e => counts e p).map amount).sum := by
  rw [held, List.sum_map_ite]
  simp

/-- Counted once each, they are as many as there are. -/
theorem held_count (counts : E → P → Bool) (entries : List E) (p : P) :
    held (fun e p => if counts e p then (1 : ℤ) else 0) entries p = entries.countP fun e => counts e p := by
  rw [held_ite, List.map_const', List.sum_replicate, List.countP_eq_length_filter]
  simp

/-! ### Shares that are not negative -/

section Order
variable [AddCommGroup M] [PartialOrder M] [IsOrderedAddMonoid M]
variable {share : E → P → M} {entries : List E} {e : E} {p : P}

/-- What one entry holds is covered by the whole. -/
theorem share_le_held (share : E → P → M) (h : ∀ e ∈ entries, 0 ≤ share e p) (he : e ∈ entries) :
    share e p ≤ held share entries p :=
  List.single_le_sum (by simpa using h) _ (List.mem_map.mpr ⟨e, he, rfl⟩)

end Order
end Ledger
