import Mathlib.Data.List.TakeWhile
import Mathlib.Data.Nat.Digits.Lemmas
import Mathlib.Tactic

/-!
# Digits from one base to another

A list of digits, the highest first, is its leading zeros and a number. Written
in another base with as many leading zeros, it is read back as it was.
-/

namespace Recto
namespace Positional

variable {a b : ℕ}

/-- The number a list of digits writes. -/
def value (base : ℕ) (ds : List ℕ) : ℕ := ds.foldl (fun n d => n * base + d) 0

/-- The digits that division takes off a number, the lowest first. `n` turns are enough. -/
def digits (base : ℕ) : ℕ → ℕ → List ℕ
  | 0, _ => []
  | turns + 1, n => if n = 0 then [] else n % base :: digits base turns (n / base)

/-- The leading zeros. -/
def zeros (ds : List ℕ) : ℕ := (ds.takeWhile (· = 0)).length

/-- The digits of base `a` in base `b`, with as many leading zeros. -/
def rebase (a b : ℕ) (ds : List ℕ) : List ℕ :=
  List.replicate (zeros ds) 0 ++ (digits b (value a ds) (value a ds)).reverse

theorem value_append (xs ys : List ℕ) :
    value a (xs ++ ys) = ys.foldl (fun n d => n * a + d) (value a xs) := List.foldl_append

theorem value_eq (ds : List ℕ) : value a ds = Nat.ofDigits a ds.reverse := by
  induction ds using List.reverseRecOn with
  | nil => simp [value]
  | append_singleton ds d ih =>
    rw [value_append, List.reverse_append, List.reverse_singleton, List.singleton_append,
      Nat.ofDigits_cons, ← ih, List.foldl_cons, List.foldl_nil, Nat.mul_comm, Nat.add_comm]

theorem digits_eq (hb : 1 < b) : ∀ turns n, n ≤ turns → digits b turns n = Nat.digits b n := by
  intro turns
  induction turns with
  | zero =>
    intro n hn
    simp [digits, Nat.le_zero.mp hn]
  | succ turns ih =>
    intro n hn
    by_cases hzero : n = 0
    · simp [digits, hzero]
    · have hless : n / b < n := Nat.div_lt_self (by omega) hb
      rw [digits, if_neg hzero, ih (n / b) (by omega), ← Nat.digits_def' hb (by omega)]

/-! ## Leading zeros -/

/-- Digits are their leading zeros and a rest that has none. -/
theorem exists_rest (ds : List ℕ) :
    ∃ rest, ds = List.replicate (zeros ds) 0 ++ rest ∧ rest.head? ≠ some 0 := by
  refine ⟨ds.dropWhile (· = 0), ?_, ?_⟩
  · have hall : ds.takeWhile (· = 0) = List.replicate (zeros ds) 0 := by
      refine List.eq_replicate_iff.mpr ⟨rfl, fun d hd => ?_⟩
      simpa using List.mem_takeWhile_imp hd
    rw [← hall, List.takeWhile_append_dropWhile]
  · intro h
    have hnot := List.head?_dropWhile_not (· = 0) ds
    rw [h] at hnot
    simp at hnot

theorem zeros_replicate_append (k : ℕ) {rest : List ℕ} (h : rest.head? ≠ some 0) :
    zeros (List.replicate k 0 ++ rest) = k := by
  have hrest : rest.takeWhile (· = 0) = [] := by
    cases rest with
    | nil => rfl
    | cons d rest =>
      have : d ≠ 0 := fun e => h (by rw [e, List.head?_cons])
      simp [this]
  rw [zeros, List.takeWhile_append_of_pos (by simp), hrest, List.append_nil,
    List.length_replicate]

theorem value_replicate_append (k : ℕ) (rest : List ℕ) :
    value a (List.replicate k 0 ++ rest) = value a rest := by
  rw [value_eq, value_eq, List.reverse_append, List.reverse_replicate,
    Nat.ofDigits_append_replicate_zero]

theorem head_reverse_digits (n : ℕ) : (Nat.digits b n).reverse.head? ≠ some 0 := by
  intro h
  rw [List.head?_reverse, List.getLast?_eq_some_iff] at h
  obtain ⟨front, hfront⟩ := h
  have hne : n ≠ 0 := by
    rintro rfl
    simp at hfront
  have hlast := Nat.getLast_digit_ne_zero b hne
  simp [hfront] at hlast

/-! ## There and back -/

theorem rebase_lt (hb : 1 < b) (ds : List ℕ) : ∀ d ∈ rebase a b ds, d < b := by
  intro d hd
  rw [rebase, digits_eq hb _ _ le_rfl, List.mem_append, List.mem_reverse] at hd
  rcases hd with hd | hd
  · rw [List.eq_of_mem_replicate hd]
    omega
  · exact Nat.digits_lt_base hb hd

theorem rebase_rebase (ha : 1 < a) (hb : 1 < b) {ds : List ℕ} (h : ∀ d ∈ ds, d < a) :
    rebase b a (rebase a b ds) = ds := by
  obtain ⟨rest, hds, hrest⟩ := exists_rest ds
  have hbase : ∀ d ∈ rest.reverse, d < a := by
    intro d hd
    rw [List.mem_reverse] at hd
    exact h d (by rw [hds]; exact List.mem_append_right _ hd)
  have hzeros : zeros (rebase a b ds) = zeros ds := by
    rw [rebase, digits_eq hb _ _ le_rfl, zeros_replicate_append _ (head_reverse_digits _)]
  have hvalue : value b (rebase a b ds) = Nat.ofDigits a rest.reverse := by
    rw [rebase, value_replicate_append, value_eq, List.reverse_reverse, digits_eq hb _ _ le_rfl,
      Nat.ofDigits_digits, hds, value_replicate_append, value_eq]
  have hlast : ∀ hne : rest.reverse ≠ [], rest.reverse.getLast hne ≠ 0 := by
    intro hne hzero
    refine hrest ?_
    rw [List.head?_eq_getLast?_reverse, List.getLast?_eq_some_getLast hne, hzero]
  rw [rebase, hzeros, hvalue, digits_eq ha _ _ le_rfl, Nat.digits_ofDigits a ha _ hbase hlast,
    List.reverse_reverse]
  exact hds.symm

end Positional
end Recto
