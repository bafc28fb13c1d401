import Mathlib

/-! Round robin over `n` places. Each turn goes to the first place that is ready at or after the cursor, and the
    cursor moves on behind it. A place that is passed over comes closer to the cursor, so a place that stays ready
    has its turn within `n` turns, whatever the others do. -/

namespace CanaTune
namespace RoundRobin
variable {n : ℕ}

/-- The steps from the cursor on to a place. -/
def distance (n cursor place : ℕ) : ℕ := (place + n - cursor % n) % n

theorem distance_eq {cursor place : ℕ} (h : place < n) :
    distance n cursor place = if cursor % n ≤ place then place - cursor % n else place + n - cursor % n := by
  have hc : cursor % n < n := Nat.mod_lt _ (Nat.zero_lt_of_lt h)
  unfold distance
  split_ifs with hle
  · rw [show place + n - cursor % n = place - cursor % n + n by omega, Nat.add_mod_right, Nat.mod_eq_of_lt (by omega)]
  · exact Nat.mod_eq_of_lt (by omega)

theorem distance_lt {cursor place : ℕ} (h : place < n) : distance n cursor place < n :=
  Nat.mod_lt _ (Nat.zero_lt_of_lt h)

/-- The place a number of steps on. -/
theorem distance_of_steps {cursor place i : ℕ} (hi : i < n) (h : (i + cursor) % n = place) :
    distance n cursor place = i := by
  have hn : 0 < n := Nat.zero_lt_of_lt hi
  have hc : cursor % n < n := Nat.mod_lt _ hn
  have hp : place < n := h ▸ Nat.mod_lt _ hn
  rw [Nat.add_mod, Nat.mod_eq_of_lt hi] at h
  rw [distance_eq hp]
  by_cases hwrap : i + cursor % n < n
  · rw [Nat.mod_eq_of_lt hwrap] at h
    rw [if_pos (by omega)]
    omega
  · rw [Nat.mod_eq_sub_mod (by omega), Nat.mod_eq_of_lt (by omega)] at h
    rw [if_neg (by omega)]
    omega

/-! ### Turns -/

/-- Which places were ready, and which one took the turn. -/
structure Turn (n : ℕ) where
  ready : Set (Fin n)
  taken : Fin n

namespace Turn

/-- No ready place comes before the one taken. -/
def First (t : Turn n) (cursor : ℕ) : Prop := ∀ g ∈ t.ready, distance n cursor t.taken ≤ distance n cursor g

def next (t : Turn n) : ℕ := (t.taken + 1) % n

/-- A ready place that is passed over comes closer. -/
theorem distance_next {t : Turn n} {cursor : ℕ} (h : t.First cursor) {g : Fin n} (hg : g ∈ t.ready) (hne : t.taken ≠ g) :
    distance n t.next g < distance n cursor g := by
  have hle := h g hg
  have hne' : t.taken.val ≠ g.val := fun heq => hne (Fin.ext heq)
  have hc : cursor % n < n := Nat.mod_lt _ (Nat.zero_lt_of_lt g.isLt)
  have htaken := t.taken.isLt
  have hplace := g.isLt
  rw [distance_eq htaken, distance_eq hplace] at hle
  rw [distance_eq hplace, distance_eq hplace, next, Nat.mod_mod]
  rcases Nat.lt_or_ge (t.taken.val + 1) n with hlast | hlast
  · rw [Nat.mod_eq_of_lt hlast]
    split_ifs at hle ⊢ <;> omega
  · rw [show t.taken.val + 1 = n by omega, Nat.mod_self]
    split_ifs at hle ⊢ <;> omega

end Turn

/-- The cursor after some turns. -/
def cursorAfter (cursor : ℕ) (ts : List (Turn n)) : ℕ := ts.foldl (fun _ t => t.next) cursor

/-- Turns taken in rotation from the cursor on. -/
def Rotates : ℕ → List (Turn n) → Prop
  | _, [] => True
  | cursor, t :: ts => t.First cursor ∧ Rotates t.next ts

theorem rotates_append {ts us : List (Turn n)} : ∀ {cursor : ℕ},
    Rotates cursor (ts ++ us) ↔ Rotates cursor ts ∧ Rotates (cursorAfter cursor ts) us := by
  induction ts with
  | nil => exact fun {_} => (and_iff_right trivial).symm
  | cons t ts ih =>
    intro cursor
    rw [List.cons_append, Rotates, Rotates, ih, and_assoc]
    rfl

/-- A place that stays ready has its turn before the turns outnumber its distance. -/
theorem Rotates.taken_of_distance {g : Fin n} {ts : List (Turn n)} : ∀ {cursor : ℕ}, Rotates cursor ts →
    (∀ t ∈ ts, g ∈ t.ready) → distance n cursor g < ts.length → ∃ t ∈ ts, t.taken = g := by
  induction ts with
  | nil => exact fun _ _ hlen => absurd hlen (Nat.not_lt_zero _)
  | cons t ts ih =>
    intro cursor h hready hlen
    obtain ⟨hfirst, hrest⟩ := h
    by_cases htaken : t.taken = g
    · exact ⟨t, List.mem_cons_self, htaken⟩
    · have hcloser := Turn.distance_next hfirst (hready t List.mem_cons_self) htaken
      rw [List.length_cons] at hlen
      obtain ⟨u, hu, hug⟩ := ih hrest (fun u hu => hready u (List.mem_cons_of_mem t hu)) (by omega)
      exact ⟨u, List.mem_cons_of_mem t hu, hug⟩

/-! ### Runs -/

/-- A run with the turns of one path noted; whatever else happens leaves its cursor alone. -/
inductive TurnRun {S : Type} (cursor : S → ℕ) (admits : S → Turn n → S → Prop) (s₀ : S) : List (Turn n) → S → Prop
  | start : TurnRun cursor admits s₀ [] s₀
  | turn {ts : List (Turn n)} {s s' : S} {t : Turn n} : TurnRun cursor admits s₀ ts s → admits s t s' →
      TurnRun cursor admits s₀ (ts ++ [t]) s'
  | elsewhere {ts : List (Turn n)} {s s' : S} : TurnRun cursor admits s₀ ts s → cursor s' = cursor s →
      TurnRun cursor admits s₀ ts s'

variable {S : Type} {cursor : S → ℕ} {admits : S → Turn n → S → Prop}

theorem TurnRun.rotates (hadmits : ∀ s t s', admits s t s' → t.First (cursor s) ∧ cursor s' = t.next) {s₀ s : S}
    {ts : List (Turn n)} (h : TurnRun cursor admits s₀ ts s) :
    Rotates (cursor s₀) ts ∧ cursor s = cursorAfter (cursor s₀) ts := by
  induction h with
  | start => exact ⟨trivial, rfl⟩
  | @turn ts s s' t _ hadmit ih =>
    obtain ⟨hrotates, hcursor⟩ := ih
    obtain ⟨hfirst, hnext⟩ := hadmits s t s' hadmit
    refine ⟨rotates_append.mpr ⟨hrotates, hcursor ▸ hfirst, trivial⟩, ?_⟩
    rw [hnext, cursorAfter, List.foldl_append]
    rfl
  | elsewhere _ hsame ih => exact ⟨ih.1, hsame.trans ih.2⟩

/-- No place that is ready at `n` consecutive turns goes without. -/
theorem TurnRun.taken (hadmits : ∀ s t s', admits s t s' → t.First (cursor s) ∧ cursor s' = t.next) {s₀ s : S}
    {ts window : List (Turn n)} (h : TurnRun cursor admits s₀ ts s) (hwindow : window <:+: ts)
    (hlen : window.length = n) {g : Fin n} (hready : ∀ t ∈ window, g ∈ t.ready) : ∃ t ∈ window, t.taken = g := by
  obtain ⟨before, behind, rfl⟩ := hwindow
  have hrotates := (rotates_append.mp (rotates_append.mp (h.rotates hadmits).1).1).2
  exact hrotates.taken_of_distance hready (by rw [hlen]; exact distance_lt g.isLt)

end RoundRobin
end CanaTune
