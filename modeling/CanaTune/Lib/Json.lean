import CanaTune.Lib.Scalar

/-! JSON values as the decoder returns them: integers apart from floats, objects with their fields in order. -/

namespace CanaTune

/-- An exception of the Python runtime. -/
inductive PyError
  | value
  | attribute
  | type
  | key
  | recursion
  deriving DecidableEq

theorem bind_eq_ok {ε α β : Type} {x : Except ε α} {f : α → Except ε β} {b : β} :
    x >>= f = .ok b ↔ ∃ a, x = .ok a ∧ f a = .ok b := by
  cases x with
  | error e => simp [bind, Except.bind]
  | ok a => simp [bind, Except.bind]

/-- A field that is looked up and read. -/
theorem field_eq_ok {ε α β γ : Type} {x : Except ε α} {f : α → Except ε β} {g : β → Except ε γ} {c : γ} :
    (x >>= fun v => f v >>= g) = .ok c ↔ ∃ b, x >>= f = .ok b ∧ g b = .ok c := by
  rw [← bind_assoc]
  exact bind_eq_ok

theorem exists_ok_of_any {ε α : Type} {x : Except ε α} {p : α → Bool} (h : x.toOption.any p = true) :
    ∃ a, x = .ok a ∧ p a = true := by
  cases x with
  | error e => cases h
  | ok a => exact ⟨a, rfl, h⟩

/-- A float that is no number of `K`. -/
inductive Special
  | nan
  | inf
  | negInf
  deriving DecidableEq

inductive Json (K : Type)
  | null
  | bool (b : Bool)
  | int (z : ℤ)
  | float (x : K)
  | special (x : Special)
  | str (s : String)
  | arr (items : List (Json K))
  | obj (fields : List (String × Json K))

namespace Json
variable {K : Type}

/-- The fields of an object; `none` for any other value. -/
def fields? : Json K → Option (List (String × Json K))
  | obj fields => some fields
  | _ => none

def str? : Json K → Option String
  | str s => some s
  | _ => none

def bool? : Json K → Option Bool
  | bool b => some b
  | _ => none

def isNull : Json K → Bool
  | null => true
  | _ => false

/-- `bool(value)`. -/
def truthy [Scalar K] : Json K → Bool
  | null => false
  | bool b => b
  | int z => z != 0
  | float x => x != 0
  | special _ => true
  | str s => s != ""
  | arr items => !items.isEmpty
  | obj fields => !fields.isEmpty

/-- `v == w` of a decoded value and a written one: integers equal floats, and objects equal by key. -/
inductive Same [Scalar K] : Json K → Json K → Prop
  | refl (v : Json K) : Same v v
  | number (z : ℤ) : Same (int z) (float z)
  | obj {fs gs : List (String × Json K)} (keys : ∀ key, (fs.lookup key).isSome = (gs.lookup key).isSome)
      (values : ∀ key v w, fs.lookup key = some v → gs.lookup key = some w → Same v w) : Same (obj fs) (obj gs)

end Json

/-- `dict.get` of an object's fields: `null` where the key is missing. -/
def getField {K : Type} (fields : List (String × Json K)) (key : String) : Json K := (fields.lookup key).getD .null

end CanaTune
