import CanaTune.Lib.Dict

/-! Counting in a dictionary: how often each key came, and how often with a mark. -/

namespace CanaTune.Dict
variable {κ ν : Type} [DecidableEq κ]

/-- One more of a key, with or without the mark. -/
def tallied (d : Dict κ (ℕ × ℕ)) (e : κ × Bool) : Dict κ (ℕ × ℕ) :=
  let old := (d.lookup e.1).getD (0, 0)
  d.insert e.1 (old.1 + 1, old.2 + e.2.toNat)

def tally (l : List (κ × Bool)) : Dict κ (ℕ × ℕ) := l.foldl tallied ∅

theorem tally_append_singleton (l : List (κ × Bool)) (e : κ × Bool) : tally (l ++ [e]) = tallied (tally l) e := by
  rw [tally, tally, List.foldl_append, List.foldl_cons, List.foldl_nil]

/-- A key is counted once it came. -/
theorem lookup_tally (l : List (κ × Bool)) (k : κ) : (tally l).lookup k =
    if l.countP (·.1 = k) = 0 then none else some (l.countP (·.1 = k), l.countP fun e => e.1 = k ∧ e.2 = true) := by
  induction l using List.reverseRecOn with
  | nil => rfl
  | append_singleton l e ih =>
    obtain ⟨k', v⟩ := e
    rw [tally_append_singleton, tallied]
    dsimp only
    by_cases hk : k = k'
    · subst hk
      have hmarked : l.countP (·.1 = k) = 0 → l.countP (fun e => e.1 = k ∧ e.2 = true) = 0 := fun h =>
        Nat.eq_zero_of_le_zero (h ▸ List.countP_mono_left fun e _ he => by
          simp only [decide_eq_true_eq] at he ⊢
          exact he.1)
      have hone : [(k, v)].countP (·.1 = k) = 1 := by simp
      have hmark : [(k, v)].countP (fun e => e.1 = k ∧ e.2 = true) = v.toNat := by cases v <;> simp
      rw [AList.lookup_insert, ih, List.countP_append, List.countP_append, hone, hmark, if_neg (Nat.succ_ne_zero _)]
      split_ifs with h
      · rw [h, hmarked h, Option.getD_none]
      · rw [Option.getD_some]
    · have hone : [(k', v)].countP (·.1 = k) = 0 := by simp [Ne.symm hk]
      have hmark : [(k', v)].countP (fun e => e.1 = k ∧ e.2 = true) = 0 := by simp [Ne.symm hk]
      rw [AList.lookup_insert_ne hk, ih, List.countP_append, List.countP_append, hone, hmark, add_zero, add_zero]

theorem sum_kerase (f : ν → ℕ) (k : κ) : ∀ l : List (Sigma fun _ : κ => ν),
    (l.map fun e => f e.2).sum = ((l.kerase k).map fun e => f e.2).sum + ((l.dlookup k).map f).getD 0
  | [] => rfl
  | ⟨k', v⟩ :: l => by
    by_cases hk : k = k'
    · subst hk
      rw [List.kerase_cons_eq (show k = (⟨k, v⟩ : Sigma fun _ : κ => ν).1 from rfl), List.dlookup_cons_eq, List.map_cons,
        List.sum_cons, Option.map_some, Option.getD_some, add_comm]
    · rw [List.kerase_cons_ne hk, List.dlookup_cons_ne _ _ hk, List.map_cons, List.sum_cons, List.map_cons, List.sum_cons,
        sum_kerase f k l, add_assoc]

theorem sum_items_insert (f : ν → ℕ) (d : Dict κ ν) (k : κ) (v : ν) :
    ((items (d.insert k v)).map fun e => f e.2).sum + ((d.lookup k).map f).getD 0
      = (d.items.map fun e => f e.2).sum + f v := by
  have h := sum_kerase f k d.entries
  simp only [items, List.map_map, Function.comp_def, AList.entries_insert, List.map_cons, List.sum_cons]
  rw [h, AList.lookup]
  ring

/-- Each element is counted once. -/
theorem sum_tally (l : List (κ × Bool)) : ((tally l).items.map (·.2.1)).sum = l.length ∧
    ((tally l).items.map (·.2.2)).sum = l.countP (·.2) := by
  induction l using List.reverseRecOn with
  | nil => exact ⟨rfl, rfl⟩
  | append_singleton l e ih =>
    rw [tally_append_singleton, List.length_append, List.countP_append]
    have hn := sum_items_insert (·.1) (tally l) e.1
      ((((tally l).lookup e.1).getD (0, 0)).1 + 1, (((tally l).lookup e.1).getD (0, 0)).2 + e.2.toNat)
    have hk := sum_items_insert (·.2) (tally l) e.1
      ((((tally l).lookup e.1).getD (0, 0)).1 + 1, (((tally l).lookup e.1).getD (0, 0)).2 + e.2.toNat)
    rw [ih.1] at hn
    rw [ih.2] at hk
    have hmark : [e].countP (·.2) = e.2.toNat := by cases he : e.2 <;> simp [he]
    rw [hmark, List.length_singleton]
    unfold tallied
    cases hold : (tally l).lookup e.1 <;>
      simp only [hold, Option.map_none, Option.map_some, Option.getD_none, Option.getD_some] at hn hk ⊢ <;>
      omega

theorem sum_sorted (f : ν → ℕ) (d : Dict ℕ ν) : (d.sorted.map fun e => f e.2).sum = (d.items.map fun e => f e.2).sum :=
  ((List.perm_insertionSort _ d.items).map _).sum_eq

end CanaTune.Dict
