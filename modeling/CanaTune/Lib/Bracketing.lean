import Mathlib

/-! Searches that test one point after the other and keep the best point that passed and the last that failed. -/

namespace CanaTune
variable {α : Type} [LinearOrder α]

/-- What a search knows: a point that passed, and one above it that did not. -/
structure Bracketing (α : Type) where
  good : Option α
  bad : Option α

namespace Bracketing

/-- A point was tested; the end of its verdict moves to it. -/
def test (b : Bracketing α) (x : α) (passes : Bool) : Bracketing α :=
  if passes then { b with good := some x } else { b with bad := some x }

/-- A point worth testing: above the good end, not above the bad one. -/
structure Inside (b : Bracketing α) (x : α) : Prop where
  above : ∀ g ∈ b.good, g < x
  below : ∀ h ∈ b.bad, x ≤ h

/-- The bracket sums up the points tested, although passing need not be monotone. -/
structure Sound (passes : α → Bool) (b : Bracketing α) (tested : List α) : Prop where
  good : ∀ g ∈ b.good, passes g = true ∧ g ∈ tested
  bad : ∀ h ∈ b.bad, passes h = false
  order : ∀ g ∈ b.good, ∀ h ∈ b.bad, g < h
  passed : ∀ x ∈ tested, passes x = true → b.good.isSome
  failed : ∀ x ∈ tested, passes x = false → ∃ h ∈ b.bad, h ≤ x

variable {passes : α → Bool} {b : Bracketing α} {tested : List α} {x : α}

theorem sound_empty (passes : α → Bool) : Sound passes ⟨none, none⟩ ([] : List α) :=
  ⟨fun _ h => by simp at h, fun _ h => by simp at h, fun _ h => by simp at h, fun _ h => by simp at h,
    fun _ h => by simp at h⟩

/-- One test keeps the bracket sound. -/
theorem Sound.test (hs : Sound passes b tested) (hx : b.Inside x) : Sound passes (b.test x (passes x)) (tested ++ [x]) := by
  cases hpass : passes x with
  | true =>
    refine ⟨?_, hs.bad, ?_, fun _ _ _ => rfl, ?_⟩
    · rintro g hg
      obtain rfl : x = g := Option.some.inj hg
      exact ⟨hpass, by simp⟩
    · intro g hg h hh
      obtain rfl : x = g := Option.some.inj hg
      refine lt_of_le_of_ne (hx.below h hh) ?_
      rintro rfl
      rw [hs.bad x hh] at hpass
      cases hpass
    · intro y hy hfail
      rcases List.mem_append.mp hy with hy | hy
      · exact hs.failed y hy hfail
      · rw [List.mem_singleton.mp hy, hpass] at hfail
        cases hfail
  | false =>
    refine ⟨?_, ?_, ?_, ?_, ?_⟩
    · intro g hg
      exact ⟨(hs.good g hg).1, List.mem_append_left _ (hs.good g hg).2⟩
    · intro h hh
      obtain rfl : x = h := Option.some.inj hh
      exact hpass
    · intro g hg h hh
      obtain rfl : x = h := Option.some.inj hh
      exact hx.above g hg
    · intro y hy hok
      rcases List.mem_append.mp hy with hy | hy
      · exact hs.passed y hy hok
      · rw [List.mem_singleton.mp hy, hpass] at hok
        cases hok
    · intro y hy hfail
      rcases List.mem_append.mp hy with hy | hy
      · obtain ⟨h, hh, hle⟩ := hs.failed y hy hfail
        exact ⟨x, rfl, (hx.below h hh).trans hle⟩
      · exact ⟨x, rfl, (List.mem_singleton.mp hy).ge⟩

/-- Whatever failed lies above what is good. -/
theorem Sound.good_lt (hs : Sound passes b tested) {g : α} (hg : g ∈ b.good) (hx : x ∈ tested)
    (hfail : passes x = false) : g < x := by
  obtain ⟨h, hh, hle⟩ := hs.failed x hx hfail
  exact (hs.order g hg h hh).trans_le hle

theorem Sound.good_eq_none (hs : Sound passes b tested) : b.good = none ↔ ∀ x ∈ tested, passes x = false := by
  constructor
  · intro hnone x hx
    cases hpass : passes x with
    | false => rfl
    | true =>
      have hsome := hs.passed x hx hpass
      rw [hnone] at hsome
      cases hsome
  · intro hall
    cases hg : b.good with
    | none => rfl
    | some g =>
      obtain ⟨hpass, hmem⟩ := hs.good g hg
      rw [hall g hmem] at hpass
      cases hpass

end Bracketing
end CanaTune
