import CanaTune.Lib.Scalar

/-! Dictionaries with unique keys, sorted views of them, bounded windows and selection by a key. -/

namespace CanaTune

/-- A dictionary: at most one value a key. -/
abbrev Dict (κ ν : Type) := AList (fun _ : κ => ν)

theorem rel_eq_iff {α : Type} {a b : Option α} : Option.Rel Eq a b ↔ a = b := by
  constructor
  · rintro (h | _)
    · rw [h]
    · rfl
  · rintro rfl
    cases a with
    | none => exact .none
    | some v => exact .some rfl

namespace Dict
variable {κ ν μ : Type} [DecidableEq κ]

/-- The (key, value) pairs. -/
def items (d : Dict κ ν) : List (κ × ν) := d.entries.map fun e => (e.1, e.2)

/-- The dictionary of a list of pairs; a later pair replaces an earlier one of its key. -/
def ofList (l : List (κ × ν)) : Dict κ ν := l.foldl (fun d e => d.insert e.1 e.2) ∅

/-- The entries that pass a test. -/
def filter (d : Dict κ ν) (p : κ → ν → Bool) : Dict κ ν where
  entries := d.entries.filter fun e => p e.1 e.2
  nodupKeys := d.nodupKeys.sublist List.filter_sublist

omit [DecidableEq κ] in
/-- `{k: f(k, v) for k, v in d.items()}`. -/
def mapValues (f : κ → ν → μ) (d : Dict κ ν) : Dict κ μ where
  entries := d.entries.map fun e => ⟨e.1, f e.1 e.2⟩
  nodupKeys := by
    have h := d.nodupKeys
    rwa [List.NodupKeys, List.keys, List.map_map]

theorem mem_items {d : Dict κ ν} {k : κ} {v : ν} : (k, v) ∈ d.items ↔ d.lookup k = some v := by
  rw [← Option.mem_def, AList.mem_lookup_iff]
  constructor
  · intro h
    obtain ⟨⟨k', v'⟩, hx, he⟩ := List.mem_map.mp h
    obtain ⟨rfl, rfl⟩ := Prod.mk.inj he
    exact hx
  · exact fun h => List.mem_map.mpr ⟨_, h, rfl⟩

omit [DecidableEq κ] in
theorem nodup_items (d : Dict κ ν) : (d.items.map (·.1)).Nodup := by
  have h := d.nodupKeys
  rw [items, List.map_map]
  exact h

theorem mem_keys_items {d : Dict κ ν} {k : κ} : k ∈ d.items.map (·.1) ↔ (d.lookup k).isSome := by
  rw [Option.isSome_iff_exists]
  constructor
  · intro h
    obtain ⟨⟨k', v⟩, hx, rfl⟩ := List.mem_map.mp h
    exact ⟨v, mem_items.mp hx⟩
  · rintro ⟨v, hv⟩
    exact List.mem_map.mpr ⟨(k, v), mem_items.mpr hv, rfl⟩

@[simp] theorem lookup_mapValues (f : κ → ν → μ) (d : Dict κ ν) (k : κ) :
    (d.mapValues f).lookup k = (d.lookup k).map (f k) := by
  ext v
  rw [← mem_items, Option.map_eq_some_iff]
  simp only [← mem_items, items, mapValues, List.map_map, List.mem_map, Function.comp_apply, Prod.mk.injEq]
  constructor
  · rintro ⟨e, he, rfl, rfl⟩
    exact ⟨e.2, ⟨e, he, rfl, rfl⟩, rfl⟩
  · rintro ⟨w, ⟨e, he, rfl, rfl⟩, rfl⟩
    exact ⟨e, he, rfl, rfl⟩

/-- Updates of different keys, one after the other. -/
theorem lookup_foldl {u : Dict κ ν → κ × μ → Dict κ ν} {g : μ → Option ν → ν}
    (hupd : ∀ d e k, (u d e).lookup k = if k = e.1 then some (g e.2 (d.lookup k)) else d.lookup k) {k : κ} :
    ∀ {l : List (κ × μ)} {d : Dict κ ν}, (l.map (·.1)).Nodup →
      ((∀ v, (k, v) ∉ l) → (l.foldl u d).lookup k = d.lookup k) ∧
      (∀ v, (k, v) ∈ l → (l.foldl u d).lookup k = some (g v (d.lookup k)))
  | [], d, _ => ⟨fun _ => rfl, fun v hv => by simp at hv⟩
  | e :: l, d, hl => by
    rw [List.map_cons, List.nodup_cons] at hl
    obtain ⟨hrest, hmem⟩ := lookup_foldl hupd (k := k) (d := u d e) hl.2
    refine ⟨fun hno => ?_, fun v hv => ?_⟩
    · rw [List.foldl_cons, hrest fun v hv => hno v (List.mem_cons_of_mem e hv), hupd, if_neg]
      rintro rfl
      exact hno e.2 List.mem_cons_self
    · rw [List.foldl_cons]
      rcases List.mem_cons.mp hv with rfl | hv
      · rw [hrest fun v' hv' => hl.1 (List.mem_map.mpr ⟨_, hv', rfl⟩), hupd, if_pos rfl]
      · rw [hmem v hv, hupd, if_neg]
        rintro rfl
        exact hl.1 (List.mem_map.mpr ⟨_, hv, rfl⟩)

theorem mem_items_insert {d : Dict κ ν} {k : κ} {v : ν} {e : κ × ν} (h : e ∈ items (d.insert k v)) :
    e = (k, v) ∨ e ∈ d.items := by
  simp only [items, List.mem_map, AList.entries_insert, List.mem_cons] at h ⊢
  obtain ⟨x, rfl | hx, rfl⟩ := h
  · exact .inl rfl
  · exact .inr ⟨x, (List.kerase_sublist k d.entries).subset hx, rfl⟩

theorem mem_items_foldl {l : List (κ × ν)} : ∀ {d : Dict κ ν} {e : κ × ν},
    e ∈ items (l.foldl (fun d e => d.insert e.1 e.2) d) → e ∈ l ∨ e ∈ d.items := by
  induction l with
  | nil => exact fun h => .inr h
  | cons a l ih =>
    intro d e h
    rcases ih h with h | h
    · exact .inl (List.mem_cons_of_mem a h)
    · rcases mem_items_insert h with rfl | h
      · exact .inl List.mem_cons_self
      · exact .inr h

theorem mem_of_mem_ofList {l : List (κ × ν)} {e : κ × ν} (h : e ∈ (ofList l).items) : e ∈ l :=
  (mem_items_foldl h).resolve_right fun he => by simp [items] at he

/-- The pairs in the order of their keys. -/
def sorted (d : Dict ℕ ν) : List (ℕ × ν) := d.items.insertionSort fun a b => a.1 ≤ b.1

theorem mem_sorted {d : Dict ℕ ν} {e : ℕ × ν} : e ∈ d.sorted ↔ e ∈ d.items := (List.perm_insertionSort _ _).mem_iff

theorem nodup_sorted (d : Dict ℕ ν) : (d.sorted.map (·.1)).Nodup :=
  ((List.perm_insertionSort (fun a b : ℕ × ν => a.1 ≤ b.1) d.items).map (·.1)).nodup_iff.mpr d.nodup_items

theorem lookup_foldl_sorted {u : Dict ℕ ν → ℕ × μ → Dict ℕ ν} {g : μ → Option ν → ν}
    (hupd : ∀ d e k, (u d e).lookup k = if k = e.1 then some (g e.2 (d.lookup k)) else d.lookup k) (k : ℕ)
    (c : Dict ℕ μ) (d : Dict ℕ ν) :
    (c.sorted.foldl u d).lookup k = match c.lookup k with
      | none => d.lookup k
      | some v => some (g v (d.lookup k)) := by
  obtain ⟨hno, hmem⟩ := lookup_foldl hupd (k := k) (d := d) c.nodup_sorted
  cases hc : c.lookup k with
  | none => exact hno fun v hv => by simp [mem_items.mp (mem_sorted.mp hv)] at hc
  | some v => exact hmem v (mem_sorted.mpr (mem_items.mpr hc))

theorem lookup_ofList_sorted (d : Dict ℕ ν) (k : ℕ) : (ofList d.sorted).lookup k = d.lookup k := by
  have h := lookup_foldl_sorted (g := fun v _ => v) (u := fun d e => d.insert e.1 e.2) (fun d e k => by
    split_ifs with hk
    · rw [hk, AList.lookup_insert]
    · rw [AList.lookup_insert_ne hk]) k d ∅
  rw [ofList, h]
  cases d.lookup k <;> rfl

/-! ### Dictionaries that differ in their order -/

section
variable {κ ν : Type} [DecidableEq κ]

theorem lookup_eq_some {l : List (κ × ν)} (h : (l.map (·.1)).Nodup) {k : κ} {v : ν} :
    l.lookup k = some v ↔ (k, v) ∈ l := by
  induction l with
  | nil => simp
  | cons e l ih =>
    obtain ⟨k', v'⟩ := e
    rw [List.map_cons, List.nodup_cons] at h
    by_cases hk : k = k'
    · subst hk
      rw [List.lookup_cons_self, List.mem_cons, Prod.mk.injEq, Option.some.injEq]
      constructor
      · exact fun hv => .inl ⟨rfl, hv.symm⟩
      · rintro (⟨-, hv⟩ | hv)
        · exact hv.symm
        · exact (h.1 (List.mem_map.mpr ⟨_, hv, rfl⟩)).elim
    · have hbeq : (k == k') = false := by simpa using hk
      rw [List.lookup_cons, hbeq, List.mem_cons, Prod.mk.injEq]
      exact (ih h.2).trans (or_iff_right fun he => hk he.1).symm

/-- With unique keys a list of pairs is the dictionary it makes. -/
theorem lookup_ofList {l : List (κ × ν)} (h : (l.map (·.1)).Nodup) {k : κ} {v : ν} :
    (ofList l).lookup k = some v ↔ (k, v) ∈ l := by
  have hfold := lookup_foldl (g := fun v _ => v) (u := fun (d : Dict κ ν) e => d.insert e.1 e.2) (fun d e k => by
    split_ifs with hk
    · rw [hk, AList.lookup_insert]
    · rw [AList.lookup_insert_ne hk]) (k := k) (d := ∅) h
  constructor
  · intro hv
    by_contra hno
    by_cases hany : ∃ w, (k, w) ∈ l
    · obtain ⟨w, hw⟩ := hany
      have := hfold.2 w hw
      rw [ofList] at hv
      rw [hv] at this
      exact hno (Option.some.inj this ▸ hw)
    · have := hfold.1 (not_exists.mp hany)
      rw [ofList] at hv
      rw [hv] at this
      simp at this
  · exact hfold.2 v

theorem ofList_eq_none {l : List (κ × ν)} (h : (l.map (·.1)).Nodup) {k : κ} :
    (ofList l).lookup k = none ↔ ∀ v, (k, v) ∉ l := by
  rw [Option.eq_none_iff_forall_ne_some]
  exact forall_congr' fun v => not_congr (lookup_ofList h)

theorem lookup_ofList_items (d : Dict κ ν) (k : κ) : (ofList d.items).lookup k = d.lookup k := by
  ext v
  rw [lookup_ofList d.nodup_items, mem_items]

/-- The same keys, with related values. -/
def Rel (R : ν → ν → Prop) (d d' : Dict κ ν) : Prop := ∀ k, Option.Rel R (d.lookup k) (d'.lookup k)

variable {R : ν → ν → Prop}

theorem rel_eq {d d' : Dict κ ν} : d.Rel Eq d' ↔ ∀ k, d.lookup k = d'.lookup k := forall_congr' fun _ => rel_eq_iff

theorem items_eq_nil {d : Dict κ ν} : d.items = [] ↔ ∀ k, d.lookup k = none := by
  rw [List.eq_nil_iff_forall_not_mem]
  constructor
  · intro h k
    rw [Option.eq_none_iff_forall_ne_some]
    exact fun v hv => h (k, v) (mem_items.mpr hv)
  · rintro h ⟨k, v⟩ hv
    have hk := mem_items.mp hv
    rw [h k] at hk
    cases hk

theorem items_eq_nil_of_rel {d d' : Dict κ ν} (h : d.Rel R d') : d.items = [] ↔ d'.items = [] := by
  rw [items_eq_nil, items_eq_nil]
  refine forall_congr' fun k => ?_
  have hk := h k
  generalize d.lookup k = a, d'.lookup k = b at hk ⊢
  cases hk <;> simp

theorem forall₂_mem {α β : Type} {S : α → β → Prop} {l : List α} {l' : List β} (h : List.Forall₂ S l l') {a : α}
    (ha : a ∈ l) : ∃ b ∈ l', S a b := by
  induction h with
  | nil => simp at ha
  | cons hab _ ih =>
    rcases List.mem_cons.mp ha with rfl | ha
    · exact ⟨_, List.mem_cons_self, hab⟩
    · obtain ⟨b, hb, hS⟩ := ih ha
      exact ⟨b, List.mem_cons_of_mem _ hb, hS⟩

theorem perm_of_rel {d d' : Dict κ ν} (h : d.Rel Eq d') : d.items.Perm d'.items := by
  refine (List.perm_ext_iff_of_nodup d.nodup_items.of_map d'.nodup_items.of_map).mpr fun e => ?_
  obtain ⟨k, v⟩ := e
  rw [mem_items, mem_items, rel_eq.mp h k]

/-- The order of insertion is not seen in the sorted pairs. -/
theorem sorted_eq_of_rel {d d' : Dict ℕ ν} (h : d.Rel Eq d') : d.sorted = d'.sorted := by
  have hperm : d.sorted.Perm d'.sorted :=
    (List.perm_insertionSort _ _).trans ((perm_of_rel h).trans (List.perm_insertionSort _ _).symm)
  have hsorted : ∀ d : Dict ℕ ν, d.sorted.Pairwise fun a b => a.1 ≤ b.1 := fun d =>
    List.pairwise_insertionSort (fun a b : ℕ × ν => a.1 ≤ b.1) d.items
  refine hperm.eq_of_pairwise (fun a b ha hb hab hba => ?_) (hsorted d) (hsorted d')
  obtain ⟨k, v⟩ := a
  obtain ⟨k', w⟩ := b
  obtain rfl : k = k' := le_antisymm hab hba
  have hv := mem_items.mp (mem_sorted.mp ha)
  have hw := mem_items.mp (mem_sorted.mp hb)
  rw [rel_eq.mp h, hw] at hv
  rw [Option.some.inj hv]

/-- Lists of pairs with related values make related dictionaries, in whatever order the second one is. -/
theorem rel_ofList {l l' m : List (κ × ν)} (hl : (l.map (·.1)).Nodup)
    (h : List.Forall₂ (fun a b => a.1 = b.1 ∧ R a.2 b.2) l l') (hm : l'.Perm m) : (ofList l).Rel R (ofList m) := by
  have hkeys : l.map (·.1) = l'.map (·.1) := by
    clear hm hl
    induction h with
    | nil => rfl
    | cons hab _ ih => rw [List.map_cons, List.map_cons, hab.1, ih]
  -- Both lists have the same keys, each once, so a lookup finds the one entry of its key.
  have hl' : (m.map (·.1)).Nodup := (hm.map (·.1)).nodup_iff.mp (hkeys ▸ hl)
  intro k
  cases hk : (ofList l).lookup k with
  | none =>
    rw [(ofList_eq_none hl').mpr]
    · exact .none
    · intro v hv
      obtain ⟨a, ha, rfl, -⟩ := forall₂_mem h.flip (hm.mem_iff.mpr hv)
      exact (ofList_eq_none hl).mp hk a.2 ha
  | some v =>
    obtain ⟨b, hb, hkb, hR⟩ := forall₂_mem h ((lookup_ofList hl).mp hk)
    obtain ⟨k', w⟩ := b
    obtain rfl : k = k' := hkb
    rw [(lookup_ofList hl').mpr (hm.mem_iff.mp hb)]
    exact .some hR

end

end Dict

/-- The last `n` entries of a list: a queue of bounded length. -/
def keepLast {α : Type} (n : ℕ) (l : List α) : List α := l.drop (l.length - n)

/-- `bisect_left`: the number of leading edges below a value. -/
def bisectLeft (edges : List ℕ) (value : ℤ) : ℕ := (edges.takeWhile fun e : ℕ => (e : ℤ) < value).length

/-! ### A fallible function along a list -/

section MapM
variable {ε α β : Type} {f : α → Except ε β}

theorem mapM_ok_iff {l : List α} {l' : List β} : l.mapM f = .ok l' ↔ List.Forall₂ (fun a b => f a = .ok b) l l' := by
  induction l generalizing l' with
  | nil => cases l' <;> simp [pure, Except.pure]
  | cons a l ih =>
    rw [List.mapM_cons]
    cases ha : f a with
    | error e => cases l' <;> simp [ha, bind, Except.bind]
    | ok b =>
      cases hl : l.mapM f with
      | error e =>
        simp only [bind, Except.bind, reduceCtorEq, false_iff]
        intro hall
        cases hall with
        | cons _ hrest => simp [ih.mpr hrest] at hl
      | ok rest =>
        have hrest := ih.mp hl
        simp only [bind, Except.bind, pure, Except.pure, Except.ok.injEq]
        constructor
        · rintro rfl
          exact .cons ha hrest
        · intro hall
          cases hall with
          | cons hb htail =>
            rw [ih.mpr htail] at hl
            rw [Except.ok.inj (ha.symm.trans hb), ← Except.ok.inj hl]

/-- Where it fails nowhere, it maps every entry. -/
theorem mapM_total {l : List α} (h : ∀ a ∈ l, ∃ b, f a = .ok b) : ∃ l', l.mapM f = .ok l' ∧ l'.length = l.length := by
  induction l with
  | nil => exact ⟨[], rfl, rfl⟩
  | cons a l ih =>
    obtain ⟨b, hb⟩ := h a List.mem_cons_self
    obtain ⟨l', hl', hlen⟩ := ih fun x hx => h x (List.mem_cons_of_mem a hx)
    exact ⟨b :: l', mapM_ok_iff.mpr (.cons hb (mapM_ok_iff.mp hl')), by simp [hlen]⟩

theorem exists_of_mapM_ok {l : List α} {l' : List β} (h : l.mapM f = .ok l') {b : β} (hb : b ∈ l') :
    ∃ a ∈ l, f a = .ok b := by
  have hall := mapM_ok_iff.mp h
  induction hall with
  | nil => simp at hb
  | cons hab hrest ih =>
    rcases List.mem_cons.mp hb with rfl | hb
    · exact ⟨_, List.mem_cons_self, hab⟩
    · obtain ⟨a, ha, hfa⟩ := ih (mapM_ok_iff.mpr hrest) hb
      exact ⟨a, List.mem_cons_of_mem _ ha, hfa⟩

/-- A reordered list is mapped to the same values, reordered. -/
theorem mapM_perm {l m : List α} (hp : l.Perm m) {l' : List β} (h : l.mapM f = .ok l') :
    ∃ m', m.mapM f = .ok m' ∧ l'.Perm m' := by
  obtain ⟨m', hall, hperm⟩ := List.perm_comp_forall₂ hp.symm (mapM_ok_iff.mp h)
  exact ⟨m', mapM_ok_iff.mpr hall, hperm.symm⟩

theorem forall_of_mapM_ok {l : List α} {l' : List β} (h : l.mapM f = .ok l') {a : α} (ha : a ∈ l) :
    ∃ b ∈ l', f a = .ok b := Dict.forall₂_mem (mapM_ok_iff.mp h) ha

end MapM
end CanaTune
