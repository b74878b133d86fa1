import Mathlib.Data.List.Nodup

/-!
# Support — Dict

Python dictionaries: finite maps that keep their entries in the order the keys were first
assigned.  The invariant, that no key occurs twice, is a field.

* `get?_set`, `get?_merge`: an assignment, and the display `{**d, **e}` in which `e` overrides
  `d`.
* `mem_items_iff`: the entries are exactly the lookups.
* `lists_merge_iff`: the override, on dictionaries of lists.
-/

namespace Py

/-- A dictionary: its entries in insertion order, each key once. -/
structure Dict (κ ν : Type) where
  items : List (κ × ν)
  nodup : (items.map Prod.fst).Nodup

namespace Dict

variable {κ ν : Type}

/-- `d.keys()`. -/
def keys (d : Dict κ ν) : List κ := d.items.map Prod.fst

/-- `{}`. -/
def empty : Dict κ ν := ⟨[], List.nodup_nil⟩

@[ext] theorem ext {d e : Dict κ ν} (h : d.items = e.items) : d = e := by
  cases d; cases e; cases h; rfl

variable [DecidableEq κ]

instance [DecidableEq ν] : DecidableEq (Dict κ ν) := fun d e =>
  decidable_of_iff (d.items = e.items) ⟨ext, fun h => h ▸ rfl⟩

/-- `d.get(k)`. -/
def get? (d : Dict κ ν) (k : κ) : Option ν := d.items.lookup k

/-- The entries after `d[k] = v`: in place when the key is there, else at the end. -/
def assign (k : κ) (v : ν) : List (κ × ν) → List (κ × ν)
  | [] => [(k, v)]
  | (k', v') :: l => if k' = k then (k, v) :: l else (k', v') :: assign k v l

theorem fst_assign (k : κ) (v : ν) (l : List (κ × ν)) : (assign k v l).map Prod.fst =
    if k ∈ l.map Prod.fst then l.map Prod.fst else l.map Prod.fst ++ [k] := by
  induction l with
  | nil => rfl
  | cons e l ih =>
      obtain ⟨k', v'⟩ := e
      by_cases h : k' = k
      · simp [assign, h]
      · simp only [assign, if_neg h, List.map_cons, ih, List.mem_cons, Ne.symm h, false_or]
        split <;> simp

theorem nodup_assign (k : κ) (v : ν) {l : List (κ × ν)} (h : (l.map Prod.fst).Nodup) :
    ((assign k v l).map Prod.fst).Nodup := by
  rw [fst_assign]
  split
  case isTrue => exact h
  case isFalse hk => exact h.append (List.nodup_singleton k) (by simpa using hk)

/-- `d[k] = v`. -/
def set (d : Dict κ ν) (k : κ) (v : ν) : Dict κ ν := ⟨assign k v d.items, nodup_assign k v d.nodup⟩

/-- `d` without the key `k`. -/
def erase (d : Dict κ ν) (k : κ) : Dict κ ν :=
  ⟨d.items.filter fun e => e.1 ≠ k,
    d.nodup.sublist ((List.filter_sublist (l := d.items)).map Prod.fst)⟩

/-- `{**d, **e}`. -/
def merge (d e : Dict κ ν) : Dict κ ν := e.items.foldl (fun d kv => d.set kv.1 kv.2) d

/-- The display `{k: v, …}`; a key given twice keeps its last value. -/
def ofList (l : List (κ × ν)) : Dict κ ν := l.foldl (fun d kv => d.set kv.1 kv.2) empty

/-! ### Lookups -/

@[simp] theorem get?_empty (k : κ) : (empty : Dict κ ν).get? k = none := rfl

theorem lookup_cons_ne {k k₀ : κ} (h : k ≠ k₀) (v : ν) (l : List (κ × ν)) :
    ((k₀, v) :: l).lookup k = l.lookup k := by
  rw [List.lookup_cons, beq_false_of_ne h]

theorem lookup_assign (k k' : κ) (v : ν) (l : List (κ × ν)) :
    (assign k v l).lookup k' = if k' = k then some v else l.lookup k' := by
  induction l with
  | nil =>
      by_cases h : k' = k
      · simp [assign, h]
      · rw [assign, lookup_cons_ne h, if_neg h]
  | cons e l ih =>
      obtain ⟨k₀, v₀⟩ := e
      by_cases h : k₀ = k
      · subst h
        by_cases h' : k' = k₀
        · simp [assign, h']
        · rw [assign, if_pos rfl, lookup_cons_ne h', lookup_cons_ne h', if_neg h']
      · by_cases h' : k' = k₀
        · subst h'
          simp [assign, h]
        · rw [assign, if_neg h, lookup_cons_ne h', lookup_cons_ne h', ih]

/-- An assignment is seen at its key and nowhere else. -/
theorem get?_set (d : Dict κ ν) (k k' : κ) (v : ν) :
    (d.set k v).get? k' = if k' = k then some v else d.get? k' :=
  lookup_assign k k' v d.items

@[simp] theorem get?_set_self (d : Dict κ ν) (k : κ) (v : ν) : (d.set k v).get? k = some v := by
  rw [get?_set, if_pos rfl]

theorem get?_set_of_ne (d : Dict κ ν) {k k' : κ} (v : ν) (h : k' ≠ k) :
    (d.set k v).get? k' = d.get? k' := by
  rw [get?_set, if_neg h]

theorem lookup_filter_ne {k k' : κ} (h : k' ≠ k) (l : List (κ × ν)) :
    (l.filter fun e => e.1 ≠ k).lookup k' = l.lookup k' := by
  induction l with
  | nil => rfl
  | cons e l ih =>
      obtain ⟨k₀, v₀⟩ := e
      by_cases hk : k₀ = k
      · rw [List.filter_cons_of_neg (by simpa using hk), ih, lookup_cons_ne fun e => h (e.trans hk)]
      · rw [List.filter_cons_of_pos (by simpa using hk)]
        by_cases hk' : k' = k₀
        · simp [hk']
        · rw [lookup_cons_ne hk', lookup_cons_ne hk', ih]

theorem get?_erase_of_ne (d : Dict κ ν) {k k' : κ} (h : k' ≠ k) :
    (d.erase k).get? k' = d.get? k' :=
  lookup_filter_ne h d.items

theorem get?_erase_self (d : Dict κ ν) (k : κ) : (d.erase k).get? k = none := by
  refine List.lookup_eq_none_iff.mpr fun e he => ?_
  have hne : e.1 ≠ k := by simpa using (List.mem_filter.mp he).2
  exact bne_iff_ne.mpr hne.symm

theorem get?_erase (d : Dict κ ν) (k k' : κ) :
    (d.erase k).get? k' = if k' = k then none else d.get? k' := by
  split
  case isTrue h => rw [h, get?_erase_self]
  case isFalse h => exact get?_erase_of_ne d h

theorem lookup_of_mem {k : κ} {v : ν} {l : List (κ × ν)} (hl : (l.map Prod.fst).Nodup)
    (h : (k, v) ∈ l) : l.lookup k = some v := by
  induction l with
  | nil => cases h
  | cons e l ih =>
      obtain ⟨k₀, v₀⟩ := e
      rw [List.map_cons, List.nodup_cons] at hl
      rcases List.mem_cons.mp h with h | h
      · cases h
        simp
      · have hk : k ≠ k₀ := fun hk => hl.1 (List.mem_map.mpr ⟨_, h, hk⟩)
        rw [lookup_cons_ne hk, ih hl.2 h]

/-- **The entries are exactly the lookups.** -/
theorem mem_items_iff (d : Dict κ ν) {k : κ} {v : ν} :
    (k, v) ∈ d.items ↔ d.get? k = some v := by
  refine ⟨lookup_of_mem d.nodup, fun h => ?_⟩
  obtain ⟨l₁, l₂, hl, -⟩ := List.lookup_eq_some_iff.mp h
  rw [hl]
  simp

theorem mem_keys_iff (d : Dict κ ν) {k : κ} : k ∈ d.keys ↔ ∃ v, d.get? k = some v := by
  simp only [keys, List.mem_map, Prod.exists, exists_and_right, exists_eq_right, mem_items_iff]

theorem get?_foldl_set (k : κ) : ∀ (l : List (κ × ν)), (l.map Prod.fst).Nodup →
    ∀ d : Dict κ ν, (l.foldl (fun d kv => d.set kv.1 kv.2) d).get? k = (l.lookup k).or (d.get? k)
  | [], _, d => rfl
  | (k₀, v₀) :: l, hl, d => by
      rw [List.map_cons, List.nodup_cons] at hl
      rw [List.foldl_cons, get?_foldl_set k l hl.2, get?_set]
      by_cases h : k = k₀
      · subst h
        have hn : l.lookup k = none := List.lookup_eq_none_iff.mpr fun e he => by
          have : k ≠ e.1 := fun hk => hl.1 (List.mem_map.mpr ⟨e, he, hk.symm⟩)
          simpa using this
        simp [hn]
      · rw [if_neg h, lookup_cons_ne h]

/-- In `{**d, **e}` the entries of `e` override those of `d`. -/
theorem get?_merge (d e : Dict κ ν) (k : κ) : (d.merge e).get? k = (e.get? k).or (d.get? k) :=
  get?_foldl_set k e.items e.nodup d

theorem get?_ofList {l : List (κ × ν)} (hl : (l.map Prod.fst).Nodup) (k : κ) :
    (ofList l).get? k = l.lookup k := by
  rw [ofList, get?_foldl_set k l hl, get?_empty, Option.or_none]

/-! ### Dictionaries of lists -/

variable {α : Type}

/-- `x` is listed under `k`. -/
def Lists (d : Dict κ (List α)) (k : κ) (x : α) : Prop := ∃ l, d.get? k = some l ∧ x ∈ l

/-- `k in d and x in d[k]`. -/
def lists [DecidableEq α] (d : Dict κ (List α)) (k : κ) (x : α) : Bool :=
  match d.get? k with
  | none => false
  | some l => decide (x ∈ l)

@[simp] theorem lists_iff [DecidableEq α] {d : Dict κ (List α)} {k : κ} {x : α} :
    d.lists k x = true ↔ d.Lists k x := by
  cases h : d.get? k <;> simp [lists, Lists, h]

instance [DecidableEq α] (d : Dict κ (List α)) (k : κ) (x : α) : Decidable (d.Lists k x) :=
  decidable_of_iff _ lists_iff

/-- **The override, on lists**: under a key of `e`, what `d` lists there is lost. -/
theorem lists_merge_iff {d e : Dict κ (List α)} {k : κ} {x : α} :
    (d.merge e).Lists k x ↔ e.Lists k x ∨ (e.get? k = none ∧ d.Lists k x) := by
  rw [Lists, get?_merge]
  cases h : e.get? k <;> simp [Lists, h]

end Dict

end Py
