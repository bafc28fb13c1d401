import CanaTune.Lib.Dict
import CanaTune.Lib.Json

/-! Python values built of dictionaries, lists and records, and what is left of them after their JSON text. -/

namespace CanaTune

/-! ### Integers in text -/

def parseNat (cs : List Char) : Option ℕ :=
  if cs ≠ [] ∧ cs.all Char.isDigit then some (Nat.ofDigitChars 10 cs 0) else none

/-- `int(text)` of a decimal text, as `str` writes it. -/
def parseInt (s : String) : Option ℤ :=
  match s.toList with
  | '-' :: cs => (parseNat cs).map fun n => -(n : ℤ)
  | cs => (parseNat cs).map fun n => (n : ℤ)

theorem parseNat_repr (n : ℕ) : parseNat n.repr.toList = some n := by
  rw [Nat.toList_repr, parseNat, if_pos]
  · rw [Nat.ofDigitChars_toDigits (by omega) (by omega)]
  · exact ⟨by simp, List.all_eq_true.mpr fun c hc => Nat.isDigit_of_mem_toDigits (by omega) (by omega) hc⟩

theorem parseInt_repr (z : ℤ) : parseInt z.repr = some z := by
  cases z with
  | ofNat n =>
    unfold parseInt
    split
    case h_1 cs hcs =>
      have hdigit : Char.isDigit '-' = true := by
        refine Nat.isDigit_of_mem_toDigits (b := 10) (n := n) (by omega) (by omega) ?_
        rw [← Nat.toList_repr]
        exact hcs ▸ List.mem_cons_self
      cases hdigit
    case h_2 =>
      rw [Int.repr, parseNat_repr]
      rfl
  | negSucc n =>
    have hlist : (Int.negSucc n).repr.toList = '-' :: n.succ.repr.toList := String.toList_append
    rw [parseInt, hlist]
    simp only [parseNat_repr]
    rfl

/-! ### Values -/

/-- A key of a dictionary. -/
inductive Key
  | int (z : ℤ)
  | str (s : String)
  deriving DecidableEq

namespace Key

/-- The name of a key in JSON text. -/
def text : Key → String
  | int z => z.repr
  | str s => s

def isInt : Key → Bool
  | int _ => true
  | str _ => false

/-- The order of `sort_keys`; an integer and a string do not compare. -/
def le : Key → Key → Bool
  | int a, int b => a ≤ b
  | str a, str b => a ≤ b
  | _, _ => true

/-- `int(key)`. -/
def toInt : Key → Except PyError ℤ
  | int z => .ok z
  | str s => (parseInt s).elim (.error .value) .ok

/-- `int(key)` of a clock, a length or a bin. -/
def toNat (k : Key) : Except PyError ℕ := do
  let z ← k.toInt
  if 0 ≤ z then .ok z.toNat else .error .value

/-- The key itself, of a dictionary that is keyed by strings. -/
def toStr : Key → Except PyError String
  | int _ => .error .type
  | str s => .ok s

end Key

/-- A value; a record is an instance of a dataclass. -/
inductive PyValue (K : Type)
  | none
  | bool (b : Bool)
  | int (z : ℤ)
  | float (x : K)
  | str (s : String)
  | list (items : List (PyValue K))
  | dict (entries : List (Key × PyValue K))
  | record (fields : List (String × PyValue K))

namespace PyValue
variable {K : Type}

/-! ### The round trip through text -/

/-- The entries in the order of `sort_keys`. -/
def sortKeys (entries : List (Key × PyValue K)) : List (Key × PyValue K) := entries.insertionSort fun a b => a.1.le b.1

mutual

/-- `json.loads(json.dumps(asdict(v), sort_keys=True))`: keys become strings, and records become dictionaries. -/
def restore : PyValue K → PyValue K
  | list items => list (restoreItems items)
  | dict entries => dict ((sortKeys (restoreEntries entries)).map fun e => (.str e.1.text, e.2))
  | record fields => dict ((sortKeys (restoreFields fields)).map fun e => (.str e.1.text, e.2))
  | v => v

def restoreItems : List (PyValue K) → List (PyValue K)
  | [] => []
  | v :: vs => restore v :: restoreItems vs

def restoreEntries : List (Key × PyValue K) → List (Key × PyValue K)
  | [] => []
  | (k, v) :: es => (k, restore v) :: restoreEntries es

def restoreFields : List (String × PyValue K) → List (Key × PyValue K)
  | [] => []
  | (k, v) :: fs => (.str k, restore v) :: restoreFields fs

end

mutual

/-- `json.dumps(..., sort_keys=True)` does not raise: no dictionary mixes integer and string keys. -/
def sortable : PyValue K → Bool
  | list items => sortableItems items
  | dict entries => ((entries.all fun e => e.1.isInt) || entries.all fun e => !e.1.isInt) && sortableEntries entries
  | record fields => sortableFields fields
  | _ => true

def sortableItems : List (PyValue K) → Bool
  | [] => true
  | v :: vs => sortable v && sortableItems vs

def sortableEntries : List (Key × PyValue K) → Bool
  | [] => true
  | (_, v) :: es => sortable v && sortableEntries es

def sortableFields : List (String × PyValue K) → Bool
  | [] => true
  | (_, v) :: fs => sortable v && sortableFields fs

end

/-- The value that is read back from the text, if the text can be written. -/
def reload (v : PyValue K) : Except PyError (PyValue K) := if v.sortable then .ok v.restore else .error .type

theorem restoreItems_eq (vs : List (PyValue K)) : restoreItems vs = vs.map restore := by
  induction vs with
  | nil => rfl
  | cons v vs ih => rw [restoreItems, ih, List.map_cons]

theorem restoreEntries_eq (es : List (Key × PyValue K)) : restoreEntries es = es.map fun e => (e.1, restore e.2) := by
  induction es with
  | nil => rfl
  | cons e es ih => rw [restoreEntries, ih, List.map_cons]

/-! ### Reading -/

section
variable [Scalar K]

/-- `bool(value)`. -/
def truthy : PyValue K → Bool
  | none => false
  | bool b => b
  | int z => z != 0
  | float x => x != 0
  | str s => s != ""
  | list items => !items.isEmpty
  | dict entries => !entries.isEmpty
  | record _ => true

/-- `value or {}`. -/
def orEmpty (v : PyValue K) : PyValue K := if v.truthy then v else dict []

/-- `float(value)` of a number. -/
def toFloat : PyValue K → Except PyError K
  | bool b => .ok (if b then 1 else 0)
  | int z => .ok z
  | float x => .ok x
  | str _ => .error .value
  | _ => .error .type

/-- `int(value)` of a number. -/
def toInt : PyValue K → Except PyError ℤ
  | bool b => .ok (if b then 1 else 0)
  | int z => .ok z
  | float x => .ok (Scalar.toInt x)
  | str _ => .error .value
  | _ => .error .type

/-- A float as it is; an integer is the same number. -/
def asFloat : PyValue K → Except PyError K
  | int z => .ok z
  | float x => .ok x
  | _ => .error .type

end

/-- An integer as it is. -/
def asInt : PyValue K → Except PyError ℤ
  | int z => .ok z
  | _ => .error .type

def isNone : PyValue K → Bool
  | none => true
  | _ => false

/-- `None` as it is. -/
def readOption {α : Type} (f : PyValue K → Except PyError α) (v : PyValue K) : Except PyError (Option α) :=
  if v.isNone then .ok Option.none else some <$> f v

/-- A value that counts only if it is true. -/
def readTruthy {α : Type} [Scalar K] (f : PyValue K → Except PyError α) (v : PyValue K) : Except PyError (Option α) :=
  if v.truthy then some <$> f v else .ok Option.none

/-- `value.items()`. -/
def items : PyValue K → Except PyError (List (Key × PyValue K))
  | dict entries => .ok entries
  | _ => .error .attribute

/-- The entries of a list. -/
def elems : PyValue K → Except PyError (List (PyValue K))
  | list items => .ok items
  | _ => .error .type

/-- `value.get(name)`. -/
def get (v : PyValue K) (name : String) : Except PyError (PyValue K) := do
  let entries ← v.items
  return (entries.lookup (.str name)).getD none

/-- `value[name]`. -/
def getItem (v : PyValue K) (name : String) : Except PyError (PyValue K) := do
  let entries ← v.items
  (entries.lookup (.str name)).elim (.error .key) .ok

/-- `{key(k): f(v) for k, v in value.items()}`. -/
def readDict {κ α : Type} [DecidableEq κ] (key : Key → Except PyError κ) (f : PyValue K → Except PyError α)
    (v : PyValue K) : Except PyError (Dict κ α) := do
  let entries ← v.items
  let pairs ← entries.mapM fun e => do
    let k ← key e.1
    let x ← f e.2
    return (k, x)
  return Dict.ofList pairs

/-- `[f(v) for v in value]`. -/
def readList {α : Type} (f : PyValue K → Except PyError α) (v : PyValue K) : Except PyError (List α) := do
  let items ← v.elems
  items.mapM f

/-- A value without parts. -/
def IsScalar : PyValue K → Prop
  | list _ | dict _ | record _ => False
  | _ => True

theorem restore_scalar {v : PyValue K} (h : v.IsScalar) : v.restore = v := by
  cases v with
  | list | dict | record => exact h.elim
  | _ => rfl

/-! ### Tidy values -/

/-- Keys as programs make them: all integers or all strings, each once, and a string that reads as an integer is the way
    that integer is written. -/
structure TidyKeys (ks : List Key) : Prop where
  uniform : (∀ k ∈ ks, k.isInt = true) ∨ ∀ k ∈ ks, k.isInt = false
  nodup : ks.Nodup
  canonical : ∀ s, Key.str s ∈ ks → ∀ z, parseInt s = some z → s = z.repr

/-- A value with tidy keys all the way down. -/
inductive Tidy : PyValue K → Prop
  | none : Tidy none
  | bool (b : Bool) : Tidy (bool b)
  | int (z : ℤ) : Tidy (int z)
  | float (x : K) : Tidy (float x)
  | str (s : String) : Tidy (str s)
  | list {items : List (PyValue K)} (h : ∀ v ∈ items, Tidy v) : Tidy (list items)
  | dict {entries : List (Key × PyValue K)} (keys : TidyKeys (entries.map (·.1))) (h : ∀ e ∈ entries, Tidy e.2) :
      Tidy (dict entries)
  | record {fields : List (String × PyValue K)} (h : ∀ e ∈ fields, Tidy e.2) : Tidy (record fields)

theorem tidyKeys_iff {ks : List Key} : TidyKeys ks ↔ ((∀ k ∈ ks, k.isInt = true) ∨ ∀ k ∈ ks, k.isInt = false) ∧ ks.Nodup ∧
    ∀ k ∈ ks, k.isInt = false → ∀ z ∈ parseInt k.text, k.text = z.repr := by
  constructor
  · intro h
    refine ⟨h.uniform, h.nodup, fun k hk hstr z hz => ?_⟩
    cases k with
    | int z => cases hstr
    | str s => exact h.canonical s hk z hz
  · rintro ⟨huniform, hnodup, hcanonical⟩
    exact ⟨huniform, hnodup, fun s hs z hz => hcanonical _ hs rfl z hz⟩

instance (ks : List Key) : Decidable (TidyKeys ks) := decidable_of_iff' _ tidyKeys_iff

mutual

/-- Whether a value is tidy. -/
def isTidy : PyValue K → Bool
  | list items => isTidyItems items
  | dict entries => decide (TidyKeys (entries.map (·.1))) && isTidyEntries entries
  | record fields => isTidyFields fields
  | _ => true

def isTidyItems : List (PyValue K) → Bool
  | [] => true
  | v :: vs => isTidy v && isTidyItems vs

def isTidyEntries : List (Key × PyValue K) → Bool
  | [] => true
  | (_, v) :: es => isTidy v && isTidyEntries es

def isTidyFields : List (String × PyValue K) → Bool
  | [] => true
  | (_, v) :: fs => isTidy v && isTidyFields fs

end

mutual

theorem tidy_of_isTidy : ∀ v : PyValue K, v.isTidy = true → v.Tidy
  | none, _ => .none
  | bool b, _ => .bool b
  | int z, _ => .int z
  | float x, _ => .float x
  | str s, _ => .str s
  | list items, h => by
    rw [isTidy] at h
    exact .list (tidy_of_isTidyItems items h)
  | dict entries, h => by
    rw [isTidy, Bool.and_eq_true, decide_eq_true_eq] at h
    exact .dict h.1 (tidy_of_isTidyEntries entries h.2)
  | record fields, h => by
    rw [isTidy] at h
    exact .record (tidy_of_isTidyFields fields h)

theorem tidy_of_isTidyItems : ∀ vs : List (PyValue K), isTidyItems vs = true → ∀ v ∈ vs, v.Tidy
  | [], _ => by simp
  | v :: vs, h => by
    rw [isTidyItems, Bool.and_eq_true] at h
    exact List.forall_mem_cons.mpr ⟨tidy_of_isTidy v h.1, tidy_of_isTidyItems vs h.2⟩

theorem tidy_of_isTidyEntries : ∀ es : List (Key × PyValue K), isTidyEntries es = true → ∀ e ∈ es, e.2.Tidy
  | [], _ => by simp
  | (k, v) :: es, h => by
    rw [isTidyEntries, Bool.and_eq_true] at h
    exact List.forall_mem_cons.mpr ⟨tidy_of_isTidy v h.1, tidy_of_isTidyEntries es h.2⟩

theorem tidy_of_isTidyFields : ∀ fs : List (String × PyValue K), isTidyFields fs = true → ∀ e ∈ fs, e.2.Tidy
  | [], _ => by simp
  | (k, v) :: fs, h => by
    rw [isTidyFields, Bool.and_eq_true] at h
    exact List.forall_mem_cons.mpr ⟨tidy_of_isTidy v h.1, tidy_of_isTidyFields fs h.2⟩

end
theorem TidyKeys.text_injective {ks : List Key} (h : TidyKeys ks) {k k' : Key} (hk : k ∈ ks) (hk' : k' ∈ ks)
    (ht : k.text = k'.text) : k = k' := by
  rcases h.uniform with hint | hstr
  · cases k with
    | str s => simpa [Key.isInt] using hint _ hk
    | int z =>
      cases k' with
      | str s => simpa [Key.isInt] using hint _ hk'
      | int z' => rw [Int.repr_injective ht]
  · cases k with
    | int z => simpa [Key.isInt] using hstr _ hk
    | str s =>
      cases k' with
      | int z => simpa [Key.isInt] using hstr _ hk'
      | str s' => exact congrArg Key.str ht

theorem sortableItems_eq (vs : List (PyValue K)) : sortableItems vs = vs.all sortable := by
  induction vs with
  | nil => rfl
  | cons v vs ih => rw [sortableItems, ih, List.all_cons]

theorem sortableEntries_eq (es : List (Key × PyValue K)) : sortableEntries es = es.all fun e => e.2.sortable := by
  induction es with
  | nil => rfl
  | cons e es ih => rw [sortableEntries, ih, List.all_cons]

theorem sortableFields_eq (fs : List (String × PyValue K)) : sortableFields fs = fs.all fun f => f.2.sortable := by
  induction fs with
  | nil => rfl
  | cons f fs ih => rw [sortableFields, ih, List.all_cons]

theorem sortable_of_tidy {v : PyValue K} (h : v.Tidy) : v.sortable = true := by
  induction h with
  | list _ ih => rwa [sortable, sortableItems_eq, List.all_eq_true]
  | dict keys _ ih =>
    rw [sortable, sortableEntries_eq, List.all_eq_true.mpr ih, Bool.and_true, Bool.or_eq_true, List.all_eq_true,
      List.all_eq_true]
    rcases keys.uniform with hint | hstr
    · exact .inl fun e he => hint _ (List.mem_map_of_mem he)
    · exact .inr fun e he => by rw [hstr _ (List.mem_map_of_mem he)]; rfl
  | record _ ih => rwa [sortable, sortableFields_eq, List.all_eq_true]
  | _ => rfl

theorem reload_of_tidy {v : PyValue K} (h : v.Tidy) : v.reload = .ok v.restore := by
  rw [reload, sortable_of_tidy h, if_pos rfl]

/-- The entries that are read back, in some order. -/
theorem restore_dict_perm (entries : List (Key × PyValue K)) :
    ∃ entries', restore (dict entries) = dict entries' ∧
      (entries.map fun e => (Key.str e.1.text, e.2.restore)).Perm entries' := by
  refine ⟨_, by rw [restore], ?_⟩
  rw [restoreEntries_eq, sortKeys]
  have hperm := (List.perm_insertionSort (fun a b : Key × PyValue K => a.1.le b.1)
    (entries.map fun e => (e.1, e.2.restore))).symm.map fun e => (Key.str e.1.text, e.2)
  rwa [List.map_map] at hperm

theorem TidyKeys.nodup_text {entries : List (Key × PyValue K)} (h : TidyKeys (entries.map (·.1))) :
    ((entries.map fun e => (Key.str e.1.text, e.2.restore)).map (·.1)).Nodup := by
  rw [List.map_map]
  have := List.Nodup.map_on (f := fun k : Key => Key.str k.text)
    (fun k hk k' hk' he => h.text_injective hk hk' (Key.str.inj he)) h.nodup
  rwa [List.map_map] at this

/-- A name is not the text of an integer. -/
def IsName (s : String) : Prop := parseInt s = Option.none

instance (s : String) : Decidable (IsName s) := inferInstanceAs (Decidable (parseInt s = Option.none))

/-- The entry of a name is the restored one. -/
theorem lookup_restore {entries entries' : List (Key × PyValue K)} (h : TidyKeys (entries.map (·.1)))
    (he : restore (dict entries) = dict entries') {name : String} (hname : IsName name) :
    entries'.lookup (.str name) = (entries.lookup (.str name)).map restore := by
  obtain ⟨_, heq, hperm⟩ := restore_dict_perm entries
  obtain rfl : entries' = _ := dict.inj (he.symm.trans heq)
  have hnodup := (hperm.map (·.1)).nodup_iff.mp h.nodup_text
  have hkeys : (entries.map (·.1)).Nodup := h.nodup
  ext w
  rw [Dict.lookup_eq_some hnodup, ← hperm.mem_iff, List.mem_map, Option.map_eq_some_iff]
  simp only [Prod.mk.injEq, Key.str.injEq, Dict.lookup_eq_some hkeys]
  constructor
  · rintro ⟨⟨k, v⟩, hv, htext, rfl⟩
    cases k with
    | int z => rw [IsName, ← htext, Key.text, parseInt_repr] at hname; cases hname
    | str s => exact ⟨v, htext ▸ hv, rfl⟩
  · rintro ⟨v, hv, rfl⟩
    exact ⟨_, hv, rfl, rfl⟩

/-- Distinct names are tidy keys. -/
theorem tidyKeys_names {ks : List Key} (hn : ks.Nodup) (h : ∀ k ∈ ks, k.isInt = false ∧ IsName k.text) : TidyKeys ks where
  uniform := .inr fun k hk => (h k hk).1
  nodup := hn
  canonical s hs z hz := by
    have hname := (h _ hs).2
    rw [IsName, Key.text, hz] at hname
    cases hname

/-- An entry that is there is there after the text. -/
theorem entry_restore {entries entries' : List (Key × PyValue K)} (h : TidyKeys (entries.map (·.1)))
    (he : restore (dict entries) = dict entries') {name : String} {x : PyValue K}
    (hx : entries.lookup (.str name) = some x) : entries'.lookup (.str name) = some x.restore := by
  obtain ⟨_, heq, hperm⟩ := restore_dict_perm entries
  obtain rfl : entries' = _ := dict.inj (he.symm.trans heq)
  have hnodup := (hperm.map (·.1)).nodup_iff.mp h.nodup_text
  have hkeys : (entries.map (·.1)).Nodup := h.nodup
  rw [Dict.lookup_eq_some hnodup, ← hperm.mem_iff]
  exact List.mem_map.mpr ⟨_, (Dict.lookup_eq_some hkeys).mp hx, rfl⟩

theorem get_entry {entries : List (Key × PyValue K)} (h : TidyKeys (entries.map (·.1))) {name : String} {x : PyValue K}
    (hx : entries.lookup (.str name) = some x) :
    (restore (dict entries)).getItem name = .ok x.restore ∧ (restore (dict entries)).get name = .ok x.restore := by
  obtain ⟨entries', he, -⟩ := restore_dict_perm entries
  simp only [he, getItem, get, items, bind, Except.bind, pure, Except.pure, entry_restore h he hx]
  exact ⟨rfl, rfl⟩

/-! ### Readers that do not see the text -/

/-- Whatever a reader finds in a tidy value it finds again, up to `R`, in the value that comes back from the text. -/
def Agrees {α : Type} (f : PyValue K → Except PyError α) (R : α → α → Prop) : Prop :=
  ∀ v : PyValue K, v.Tidy → ∀ a, f v = .ok a → ∃ b, f v.restore = .ok b ∧ R a b

variable {α κ : Type} [DecidableEq κ] {f : PyValue K → Except PyError α} {R : α → α → Prop}

theorem get_restore {v x : PyValue K} (hv : v.Tidy) {name : String} (hname : IsName name) (h : v.get name = .ok x) :
    x.Tidy ∧ v.restore.get name = .ok x.restore := by
  cases hv with
  | dict keys hvalues =>
    rename_i entries
    obtain ⟨entries', he, -⟩ := restore_dict_perm entries
    obtain rfl := Except.ok.inj h
    simp only [he, get, items, bind, Except.bind, pure, Except.pure, lookup_restore keys he hname]
    cases hl : entries.lookup (.str name) with
    | none => exact ⟨.none, rfl⟩
    | some w => exact ⟨hvalues _ ((Dict.lookup_eq_some keys.nodup).mp hl), rfl⟩
  | _ => cases h

theorem getItem_restore {v x : PyValue K} (hv : v.Tidy) {name : String} (h : v.getItem name = .ok x) :
    x.Tidy ∧ v.restore.getItem name = .ok x.restore := by
  cases hv with
  | dict keys hvalues =>
    rename_i entries
    simp only [getItem, items, bind, Except.bind] at h
    cases hl : entries.lookup (.str name) with
    | none => simp [hl] at h
    | some w =>
      rw [hl] at h
      obtain rfl := Except.ok.inj h
      exact ⟨hvalues _ ((Dict.lookup_eq_some keys.nodup).mp hl), (get_entry keys hl).1⟩
  | _ => cases h

/-- An entry that is read, and the same entry after the text. -/
theorem Agrees.entry (hf : Agrees f R) {v : PyValue K} {a : α} (hv : v.Tidy) {name : String} (hname : IsName name)
    (h : v.get name >>= f = .ok a) : ∃ b, v.restore.get name >>= f = .ok b ∧ R a b := by
  obtain ⟨x, hx, ha⟩ := bind_eq_ok.mp h
  obtain ⟨htidy, hrestore⟩ := get_restore hv hname hx
  obtain ⟨b, hb, hR⟩ := hf x htidy a ha
  exact ⟨b, bind_eq_ok.mpr ⟨_, hrestore, hb⟩, hR⟩

theorem Agrees.item (hf : Agrees f R) {v : PyValue K} {a : α} (hv : v.Tidy) {name : String}
    (h : v.getItem name >>= f = .ok a) : ∃ b, v.restore.getItem name >>= f = .ok b ∧ R a b := by
  obtain ⟨x, hx, ha⟩ := bind_eq_ok.mp h
  obtain ⟨htidy, hrestore⟩ := getItem_restore hv hx
  obtain ⟨b, hb, hR⟩ := hf x htidy a ha
  exact ⟨b, bind_eq_ok.mpr ⟨_, hrestore, hb⟩, hR⟩

/-- A reader of keys that reads a key and its text alike, and no two tidy keys as one. -/
structure KeyReader (key : Key → Except PyError κ) : Prop where
  text : ∀ k a, key k = .ok a → key (.str k.text) = .ok a
  injective : ∀ ks, TidyKeys ks → ∀ k ∈ ks, ∀ k' ∈ ks, ∀ a, key k = .ok a → key k' = .ok a → k = k'

theorem keyReader_toInt : KeyReader Key.toInt where
  text k a h := by
    cases k with
    | int z => rw [Key.text, Key.toInt, parseInt_repr]; exact h
    | str s => exact h
  injective ks hks k hk k' hk' a h h' := by
    refine hks.text_injective hk hk' ?_
    have htext : ∀ k ∈ ks, k.toInt = .ok a → k.text = a.repr := by
      intro k hk h
      cases k with
      | int z => rw [Except.ok.inj h]; rfl
      | str s =>
        cases hs : parseInt s with
        | none => simp [Key.toInt, hs] at h
        | some z =>
          rw [Key.toInt, hs] at h
          obtain rfl := Except.ok.inj h
          exact hks.canonical s hk _ hs
    rw [htext k hk h, htext k' hk' h']

theorem keyReader_toNat : KeyReader Key.toNat := by
  have hint : ∀ k a, Key.toNat k = .ok a → k.toInt = .ok (a : ℤ) := by
    intro k a h
    rw [Key.toNat, bind_eq_ok] at h
    obtain ⟨z, hz, h⟩ := h
    split at h
    · rw [hz, ← Except.ok.inj h, Int.toNat_of_nonneg (by assumption)]
    · cases h
  refine ⟨fun k a h => ?_, fun ks hks k hk k' hk' a h h' => ?_⟩
  · rw [Key.toNat, keyReader_toInt.text k a (hint k a h)]
    simp [bind, Except.bind]
  · exact keyReader_toInt.injective ks hks k hk k' hk' a (hint k a h) (hint k' a h')

theorem keyReader_toStr : KeyReader Key.toStr where
  text k a h := by
    cases k with
    | int z => cases h
    | str s => exact h
  injective ks _ k _ k' _ a h h' := by
    cases k with
    | int z => cases h
    | str s =>
      cases k' with
      | int z => cases h'
      | str s' => rw [Except.ok.inj h, ← Except.ok.inj h']

omit [DecidableEq κ] in
/-- Keys that are read apart stay apart. -/
theorem nodup_keys {key : Key → Except PyError κ} (hkey : KeyReader key) {ks : List Key} (hks : TidyKeys ks)
    {entries : List (Key × PyValue K)} {pairs : List (κ × α)}
    (h : List.Forall₂ (fun e p => key e.1 = .ok p.1 ∧ f e.2 = .ok p.2) entries pairs) (hin : ∀ e ∈ entries, e.1 ∈ ks)
    (hn : (entries.map (·.1)).Nodup) : (pairs.map (·.1)).Nodup := by
  induction h with
  | nil => exact List.nodup_nil
  | @cons e p entries pairs hep hrest ih =>
    rw [List.map_cons, List.nodup_cons] at hn ⊢
    refine ⟨fun hp => hn.1 ?_, ih (fun e he => hin e (List.mem_cons_of_mem _ he)) hn.2⟩
    obtain ⟨q, hq, hqp⟩ := List.mem_map.mp hp
    obtain ⟨e', he', hkey', -⟩ := Dict.forall₂_mem hrest.flip hq
    rw [hkey.injective ks hks e.1 (hin e List.mem_cons_self) e'.1 (hin e' (List.mem_cons_of_mem _ he')) p.1 hep.1
      (hqp ▸ hkey')]
    exact List.mem_map_of_mem he'

/-- A dictionary that comes back from the text is read as the dictionary of the pairs its old entries stand for. -/
theorem readDict_restore {key : Key → Except PyError κ} {entries : List (Key × PyValue K)} {pairs : List (κ × α)}
    (hn : (pairs.map (·.1)).Nodup)
    (h : List.Forall₂ (fun e p => key (.str e.1.text) = .ok p.1 ∧ ∃ b, f e.2.restore = .ok b ∧ R p.2 b) entries pairs) :
    ∃ d, readDict key f (restore (dict entries)) = .ok d ∧ (Dict.ofList pairs).Rel R d := by
  obtain ⟨entries', he, hperm⟩ := restore_dict_perm entries
  let read : Key × PyValue K → Except PyError (κ × α) := fun e => do
    let k ← key e.1
    let x ← f e.2
    return (k, x)
  obtain ⟨pairs', hpairs', hrel⟩ : ∃ pairs' : List (κ × α),
      (entries.map fun e => (Key.str e.1.text, e.2.restore)).mapM read = .ok pairs' ∧
      List.Forall₂ (fun a b => a.1 = b.1 ∧ R a.2 b.2) pairs pairs' := by
    simp only [mapM_ok_iff, List.forall₂_map_left_iff]
    clear hn he hperm
    induction h with
    | nil => exact ⟨[], .nil, .nil⟩
    | @cons e p entries pairs hep _ ih =>
      obtain ⟨pairs', h₁, h₂⟩ := ih
      obtain ⟨hk, b, hb, hR⟩ := hep
      refine ⟨(p.1, b) :: pairs', .cons ?_ h₁, .cons ⟨rfl, hR⟩ h₂⟩
      simp only [read, bind_eq_ok]
      exact ⟨p.1, hk, b, hb, rfl⟩
  -- The reader goes through the restored entries in their own order, which the dictionary forgets.
  obtain ⟨pairs'', hmap, hperm'⟩ := mapM_perm hperm hpairs'
  refine ⟨Dict.ofList pairs'', ?_, Dict.rel_ofList hn hrel hperm'⟩
  rw [he]
  simp only [readDict, items, bind_eq_ok]
  exact ⟨_, rfl, pairs'', hmap, rfl⟩

theorem agrees_readDict {key : Key → Except PyError κ} (hkey : KeyReader key) (hf : Agrees f R) :
    Agrees (readDict key f) (Dict.Rel R) := by
  intro v hv d h
  cases hv with
  | dict keys hvalues =>
    rename_i entries
    simp only [readDict, bind_eq_ok] at h
    obtain ⟨_, ⟨⟩, pairs, hpairs, h⟩ := h
    obtain rfl := Except.ok.inj h
    have hall : List.Forall₂ (fun e p => key e.1 = .ok p.1 ∧ f e.2 = .ok p.2) entries pairs := by
      refine (mapM_ok_iff.mp hpairs).imp fun e p hp => ?_
      simp only [bind_eq_ok] at hp
      obtain ⟨k, hk, x, hx, hp⟩ := hp
      obtain rfl := Except.ok.inj hp
      exact ⟨hk, hx⟩
    refine readDict_restore (nodup_keys hkey keys hall (fun e he => List.mem_map_of_mem he) keys.nodup) ?_
    refine ((List.forall₂_and_left entries pairs).mpr ⟨hvalues, hall⟩).imp fun e p hep => ?_
    exact ⟨hkey.text e.1 p.1 hep.2.1, hf e.2 hep.1 p.2 hep.2.2⟩
  | _ => cases h

theorem agrees_readList (hf : Agrees f Eq) : Agrees (readList f) Eq := by
  intro v hv l h
  cases hv with
  | list hvalues =>
    rename_i vs
    simp only [readList, bind_eq_ok] at h
    obtain ⟨_, ⟨⟩, h⟩ := h
    refine ⟨l, ?_, rfl⟩
    simp only [restore, restoreItems_eq, readList, elems, bind_eq_ok]
    refine ⟨_, rfl, mapM_ok_iff.mpr ?_⟩
    rw [List.forall₂_map_left_iff]
    refine ((List.forall₂_and_left vs l).mpr ⟨hvalues, mapM_ok_iff.mp h⟩).imp fun v a hva => ?_
    obtain ⟨b, hb, rfl⟩ := hf v hva.1 a hva.2
    exact hb
  | _ => cases h

section
variable [Scalar K]

theorem agrees_toFloat : Agrees (toFloat (K := K)) Eq := by
  intro v _ a h
  cases v with
  | bool | int | float => exact ⟨a, h, rfl⟩
  | _ => cases h

theorem agrees_toInt : Agrees (toInt (K := K)) Eq := by
  intro v _ a h
  cases v with
  | bool | int | float => exact ⟨a, h, rfl⟩
  | _ => cases h

theorem agrees_asFloat : Agrees (asFloat (K := K)) Eq := by
  intro v _ a h
  cases v with
  | int | float => exact ⟨a, h, rfl⟩
  | _ => cases h

omit [Scalar K] in
theorem agrees_asInt : Agrees (asInt (K := K)) Eq := by
  intro v _ a h
  cases v with
  | int => exact ⟨a, h, rfl⟩
  | _ => cases h

theorem truthy_restore {v : PyValue K} (h : ∀ fields, v ≠ record fields) : v.restore.truthy = v.truthy := by
  cases v with
  | list vs =>
    rw [restore, restoreItems_eq]
    cases vs <;> rfl
  | dict es =>
    obtain ⟨es', he, hperm⟩ := restore_dict_perm es
    have hlen := hperm.length_eq
    rw [List.length_map] at hlen
    rw [he, truthy, truthy, Bool.not_inj_iff, Bool.eq_iff_iff, List.isEmpty_iff_length_eq_zero,
      List.isEmpty_iff_length_eq_zero, hlen]
  | record fields => exact (h fields rfl).elim
  | _ => rfl

theorem orEmpty_dict (entries : List (Key × PyValue K)) : (dict entries).orEmpty = dict entries := by
  cases entries <;> rfl

theorem restore_orEmpty (v : PyValue K) : v.restore.orEmpty = v.orEmpty.restore := by
  by_cases h : ∃ fields, v = record fields
  · obtain ⟨fields, rfl⟩ := h
    exact orEmpty_dict _
  · rw [orEmpty, truthy_restore (not_exists.mp h), orEmpty]
    split <;> rfl

theorem Tidy.orEmpty {v : PyValue K} (h : v.Tidy) : v.orEmpty.Tidy := by
  unfold PyValue.orEmpty
  split
  · exact h
  · exact .dict ⟨.inl (by simp), List.nodup_nil, by simp⟩ (by simp)

theorem agrees_orEmpty (hf : Agrees f R) : Agrees (fun v => f v.orEmpty) R := by
  intro v hv a h
  obtain ⟨b, hb, hR⟩ := hf _ hv.orEmpty a h
  exact ⟨b, by rw [← hb, ← restore_orEmpty], hR⟩

end

/-- A reader of records would see the difference, but none reads one. -/
theorem agrees_readTruthy {α : Type} [Scalar K] {f : PyValue K → Except PyError α} {R : α → α → Prop} (hf : Agrees f R)
    (hrecord : ∀ fields a, f (record fields) ≠ .ok a) : Agrees (readTruthy f) (Option.Rel R) := by
  intro v hv o h
  unfold readTruthy at h ⊢
  by_cases hr : ∃ fields, v = record fields
  · obtain ⟨fields, rfl⟩ := hr
    cases hx : f (record fields) with
    | error e => simp [truthy, hx] at h
    | ok a => exact (hrecord fields a hx).elim
  · rw [truthy_restore (not_exists.mp hr)]
    split at h
    · cases hx : f v with
      | error e => simp [hx] at h
      | ok a =>
        rw [hx] at h
        obtain rfl := Except.ok.inj h
        obtain ⟨b, hb, hR⟩ := hf v hv a hx
        exact ⟨some b, by rw [if_pos (by assumption), hb]; rfl, .some hR⟩
    · obtain rfl := Except.ok.inj h
      exact ⟨Option.none, by rw [if_neg (by assumption)], .none⟩

theorem agrees_readOption {α : Type} {f : PyValue K → Except PyError α} {R : α → α → Prop} (hf : Agrees f R) :
    Agrees (readOption f) (Option.Rel R) := by
  intro v hv o h
  have hnone : v.restore.isNone = v.isNone := by cases v <;> rfl
  unfold readOption at h ⊢
  rw [hnone]
  split at h
  · obtain rfl := Except.ok.inj h
    exact ⟨Option.none, by rw [if_pos (by assumption)], .none⟩
  · cases hx : f v with
    | error e => simp [hx] at h
    | ok a =>
      rw [hx] at h
      obtain rfl := Except.ok.inj h
      obtain ⟨b, hb, hR⟩ := hf v hv a hx
      exact ⟨some b, by rw [if_neg (by assumption), hb]; rfl, .some hR⟩

end PyValue
end CanaTune
