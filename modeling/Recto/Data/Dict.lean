import Mathlib.Data.List.Nodup
import Mathlib.Tactic

/-!
# Insertion-ordered dictionaries

A dictionary keeps its keys distinct and iterates in the order of first
insertion: writing a key it already holds replaces the value in place, and a
new key goes to the end. The distinctness of the keys travels with the value,
so that no lookup lemma below carries it as a hypothesis.
-/

namespace Recto

universe u v
variable {κ : Type u} {ν : Type v} [DecidableEq κ]

/-- Replace the value of `k` where it stands, or append the pair. -/
def setItem (k : κ) (v : ν) : List (κ × ν) → List (κ × ν)
  | [] => [(k, v)]
  | (k', v') :: rest => if k' = k then (k, v) :: rest else (k', v') :: setItem k v rest

theorem map_fst_setItem (k : κ) (v : ν) (items : List (κ × ν)) :
    (setItem k v items).map Prod.fst =
      if k ∈ items.map Prod.fst then items.map Prod.fst else items.map Prod.fst ++ [k] := by
  induction items with
  | nil => simp [setItem]
  | cons p rest ih =>
    obtain ⟨k', v'⟩ := p
    by_cases h : k' = k
    · simp [setItem, h]
    · have hne : k ≠ k' := fun e => h e.symm
      simp only [setItem, if_neg h, List.map_cons, ih, List.mem_cons, hne, false_or]
      split_ifs <;> simp

theorem nodup_setItem (k : κ) (v : ν) {items : List (κ × ν)} (h : (items.map Prod.fst).Nodup) :
    ((setItem k v items).map Prod.fst).Nodup := by
  rw [map_fst_setItem]
  split_ifs with hk
  · exact h
  · exact h.append (List.nodup_singleton k) (by simpa using hk)

theorem lookup_setItem_self (k : κ) (v : ν) (items : List (κ × ν)) :
    (setItem k v items).lookup k = some v := by
  induction items with
  | nil => simp [setItem]
  | cons p rest ih =>
    obtain ⟨k', v'⟩ := p
    by_cases h : k' = k
    · simp [setItem, h]
    · have hne : (k == k') = false := by simpa using fun e => h e.symm
      simp [setItem, h, List.lookup_cons, hne, ih]

theorem lookup_setItem_of_ne {k k' : κ} (h : k' ≠ k) (v : ν) (items : List (κ × ν)) :
    (setItem k v items).lookup k' = items.lookup k' := by
  induction items with
  | nil => simp [setItem, h]
  | cons p rest ih =>
    obtain ⟨k₀, v₀⟩ := p
    by_cases h₀ : k₀ = k
    · have hne : (k' == k) = false := by simpa using h
      simp [setItem, h₀, List.lookup_cons, hne]
    · simp only [setItem, if_neg h₀, List.lookup_cons, ih]

/-- A dictionary: its items in insertion order, every key once. -/
structure Dict (κ : Type u) (ν : Type v) where
  items : List (κ × ν)
  nodup : (items.map Prod.fst).Nodup

namespace Dict

omit [DecidableEq κ] in
@[ext] theorem ext {d e : Dict κ ν} (h : d.items = e.items) : d = e := by
  cases d
  cases e
  simpa using h

instance [DecidableEq ν] : DecidableEq (Dict κ ν) := fun d e =>
  decidable_of_iff (d.items = e.items) ⟨ext, fun h => h ▸ rfl⟩

/-- The empty dictionary. -/
def empty : Dict κ ν := ⟨[], List.nodup_nil⟩

instance : EmptyCollection (Dict κ ν) := ⟨empty⟩
instance : Inhabited (Dict κ ν) := ⟨empty⟩

def keys (d : Dict κ ν) : List κ := d.items.map Prod.fst

def values (d : Dict κ ν) : List ν := d.items.map Prod.snd

def get? (d : Dict κ ν) (k : κ) : Option ν := d.items.lookup k

def contains (d : Dict κ ν) (k : κ) : Prop := k ∈ d.keys

instance : Membership κ (Dict κ ν) := ⟨fun d k => d.contains k⟩

instance (d : Dict κ ν) (k : κ) : Decidable (k ∈ d) :=
  inferInstanceAs (Decidable (k ∈ d.keys))

/-- `d[k] = v` -/
def set (d : Dict κ ν) (k : κ) (v : ν) : Dict κ ν :=
  ⟨setItem k v d.items, nodup_setItem k v d.nodup⟩

/-- The items whose key and value pass the test, in their order. -/
def filter (p : κ → ν → Bool) (d : Dict κ ν) : Dict κ ν :=
  ⟨d.items.filter fun i => p i.1 i.2, d.nodup.sublist (List.Sublist.map _ List.filter_sublist)⟩

/-- `del d[k]` -/
def erase (d : Dict κ ν) (k : κ) : Dict κ ν := d.filter fun k' _ => decide (k' ≠ k)

/-- Every value replaced by its image. -/
def mapValues {μ : Type v} (f : ν → μ) (d : Dict κ ν) : Dict κ μ :=
  ⟨d.items.map fun i => (i.1, f i.2), by simpa [List.map_map, Function.comp_def] using d.nodup⟩

def length (d : Dict κ ν) : ℕ := d.items.length

omit [DecidableEq κ] in
@[simp] theorem items_empty : (∅ : Dict κ ν).items = [] := rfl

omit [DecidableEq κ] in
theorem mem_def {d : Dict κ ν} {k : κ} : k ∈ d ↔ k ∈ d.items.map Prod.fst := Iff.rfl

omit [DecidableEq κ] in
@[simp] theorem mem_keys {d : Dict κ ν} {k : κ} : k ∈ d.keys ↔ k ∈ d := Iff.rfl

omit [DecidableEq κ] in
@[simp] theorem not_mem_empty (k : κ) : k ∉ (∅ : Dict κ ν) := by simp [mem_def]

omit [DecidableEq κ] in
theorem nodup_keys (d : Dict κ ν) : d.keys.Nodup := d.nodup

omit [DecidableEq κ] in
@[simp] theorem length_keys (d : Dict κ ν) : d.keys.length = d.length := by
  simp [keys, length]

theorem get?_eq_some_iff {d : Dict κ ν} {k : κ} {v : ν} :
    d.get? k = some v ↔ (k, v) ∈ d.items := by
  obtain ⟨items, hd⟩ := d
  simp only [get?]
  induction items with
  | nil => simp
  | cons p rest ih =>
    obtain ⟨k', v'⟩ := p
    have hrest : (rest.map Prod.fst).Nodup := (List.nodup_cons.mp hd).2
    have hk' : k' ∉ rest.map Prod.fst := (List.nodup_cons.mp hd).1
    by_cases h : k = k'
    · subst h
      have hno : (k, v) ∉ rest := fun hm => hk' (List.mem_map.mpr ⟨(k, v), hm, rfl⟩)
      simp [hno, eq_comm]
    · have hne : (k == k') = false := by simpa using h
      simp [List.lookup_cons, hne, h, ih hrest]

theorem mem_iff {d : Dict κ ν} {k : κ} : k ∈ d ↔ ∃ v, d.get? k = some v := by
  simp [get?_eq_some_iff, mem_def]

theorem get?_eq_none_iff {d : Dict κ ν} {k : κ} : d.get? k = none ↔ k ∉ d := by
  rw [mem_iff, Option.eq_none_iff_forall_not_mem]
  simp

theorem mem_of_get? {d : Dict κ ν} {k : κ} {v : ν} (h : d.get? k = some v) : k ∈ d :=
  mem_iff.mpr ⟨v, h⟩

@[simp] theorem get?_empty (k : κ) : (∅ : Dict κ ν).get? k = none := rfl

@[simp] theorem get?_set_self (d : Dict κ ν) (k : κ) (v : ν) : (d.set k v).get? k = some v :=
  lookup_setItem_self k v d.items

theorem get?_set_of_ne (d : Dict κ ν) {k k' : κ} (h : k' ≠ k) (v : ν) :
    (d.set k v).get? k' = d.get? k' :=
  lookup_setItem_of_ne h v d.items

theorem get?_set (d : Dict κ ν) (k k' : κ) (v : ν) :
    (d.set k v).get? k' = if k' = k then some v else d.get? k' := by
  split_ifs with h
  · rw [h, get?_set_self]
  · exact get?_set_of_ne d h v

@[simp] theorem mem_set {d : Dict κ ν} {k k' : κ} {v : ν} : k' ∈ d.set k v ↔ k' = k ∨ k' ∈ d := by
  simp only [mem_iff, get?_set]
  split_ifs with h <;> simp [h]

theorem get?_filter {p : κ → ν → Bool} {d : Dict κ ν} {k : κ} {v : ν} :
    (d.filter p).get? k = some v ↔ d.get? k = some v ∧ p k v = true := by
  simp [get?_eq_some_iff, filter]

theorem get?_erase (d : Dict κ ν) (k k' : κ) :
    (d.erase k).get? k' = if k' = k then none else d.get? k' := by
  apply Option.ext
  intro v
  split_ifs with h <;> simp [erase, get?_filter, h]

@[simp] theorem mem_erase {d : Dict κ ν} {k k' : κ} : k' ∈ d.erase k ↔ k' ≠ k ∧ k' ∈ d := by
  simp only [mem_iff, get?_erase]
  split_ifs with h <;> simp [h]

theorem get?_mapValues {μ : Type v} (f : ν → μ) (d : Dict κ ν) (k : κ) :
    (d.mapValues f).get? k = (d.get? k).map f := by
  obtain ⟨items, hd⟩ := d
  simp only [get?, mapValues]
  clear hd
  induction items with
  | nil => rfl
  | cons p rest ih =>
    obtain ⟨k', v'⟩ := p
    rw [List.map_cons, List.lookup_cons, List.lookup_cons, ih]
    cases k == k' <;> rfl

theorem mapValues_set {μ : Type v} (f : ν → μ) (d : Dict κ ν) (k : κ) (v : ν) :
    (d.set k v).mapValues f = (d.mapValues f).set k (f v) := by
  obtain ⟨items, hd⟩ := d
  apply ext
  simp only [set, mapValues]
  clear hd
  induction items with
  | nil => rfl
  | cons p rest ih =>
    obtain ⟨k', v'⟩ := p
    simp only [setItem, List.map_cons]
    split_ifs <;> simp [ih]

omit [DecidableEq κ] in
theorem values_mapValues {μ : Type v} (f : ν → μ) (d : Dict κ ν) :
    (d.mapValues f).values = d.values.map f := by
  simp [values, mapValues, Function.comp_def]

omit [DecidableEq κ] in
theorem mem_values {d : Dict κ ν} {v : ν} : v ∈ d.values ↔ ∃ k, (k, v) ∈ d.items := by
  simp [values]

theorem mem_values_iff {d : Dict κ ν} {v : ν} : v ∈ d.values ↔ ∃ k, d.get? k = some v := by
  simp [mem_values, get?_eq_some_iff]

omit [DecidableEq κ] in
theorem items_eq_nil_iff {d : Dict κ ν} : d.items = [] ↔ ∀ k, k ∉ d := by
  simp [mem_def, List.eq_nil_iff_forall_not_mem]

omit [DecidableEq κ] in
theorem items_ne_nil_iff {d : Dict κ ν} : d.items ≠ [] ↔ ∃ k, k ∈ d := by
  simp [items_eq_nil_iff]

end Dict

/-- Lists of the same items, every key once, look the same up. -/
theorem lookup_eq_of_perm {xs ys : List (κ × ν)} (h : xs.Perm ys) (hx : (xs.map Prod.fst).Nodup)
    (k : κ) : xs.lookup k = ys.lookup k := by
  have hy : (ys.map Prod.fst).Nodup := (h.map Prod.fst).nodup_iff.mp hx
  have hget : (Dict.mk xs hx).get? k = (Dict.mk ys hy).get? k := by
    apply Option.ext
    intro v
    rw [Dict.get?_eq_some_iff, Dict.get?_eq_some_iff]
    exact h.mem_iff
  exact hget

end Recto
