import Mathlib.Data.List.Sort
import Mathlib.Tactic

/-!
# Sorting by a key

Items that each have a key of their own sort to one list. Under two orders of
the keys they sort to the same list exactly when the orders agree on the keys
that occur.
-/

namespace Recto

universe u v
variable {α : Type u} {κ : Type v} {key : α → κ}

/-- The items in the order of their keys. -/
def sortBy (order : LinearOrder κ) (key : α → κ) (xs : List α) : List α :=
  xs.insertionSort (r := fun a b => order.le (key a) (key b))

theorem perm_sortBy (order : LinearOrder κ) (key : α → κ) (xs : List α) :
    (sortBy order key xs).Perm xs :=
  List.perm_insertionSort _ xs

@[simp] theorem mem_sortBy {order : LinearOrder κ} {xs : List α} {a : α} :
    a ∈ sortBy order key xs ↔ a ∈ xs :=
  (perm_sortBy order key xs).mem_iff

theorem pairwise_sortBy (order : LinearOrder κ) (key : α → κ) (xs : List α) :
    (sortBy order key xs).Pairwise fun a b => order.le (key a) (key b) := by
  have : Std.Total fun a b : α => order.le (key a) (key b) := ⟨fun _ _ => order.le_total _ _⟩
  have : IsTrans α fun a b => order.le (key a) (key b) := ⟨fun _ _ _ => order.le_trans _ _ _⟩
  exact List.pairwise_insertionSort _ xs

theorem le_iff_not_le_of_ne (o : LinearOrder κ) {a b : κ} (hne : a ≠ b) :
    o.le a b ↔ ¬o.le b a :=
  ⟨fun hab hba => hne (o.le_antisymm _ _ hab hba), (o.le_total a b).resolve_right⟩

theorem sortBy_eq_sortBy_iff {o p : LinearOrder κ} {xs ys : List α} (hperm : xs.Perm ys)
    (hkey : ∀ a ∈ xs, ∀ b ∈ xs, key a = key b → a = b) :
    sortBy o key xs = sortBy p key ys ↔
      ∀ a ∈ xs, ∀ b ∈ xs, o.le (key a) (key b) ↔ p.le (key a) (key b) := by
  have ho := pairwise_sortBy o key xs
  have hp := pairwise_sortBy p key ys
  constructor
  · intro heq a ha b hb
    by_cases hab : key a = key b
    · rw [hab]
      exact iff_of_true (o.le_refl _) (p.le_refl _)
    rw [← heq] at hp
    obtain ⟨i, hi, rfl⟩ := List.mem_iff_getElem.mp (mem_sortBy.mpr ha : a ∈ sortBy o key xs)
    obtain ⟨j, hj, rfl⟩ := List.mem_iff_getElem.mp (mem_sortBy.mpr hb : b ∈ sortBy o key xs)
    rcases lt_trichotomy i j with hij | rfl | hij
    · exact iff_of_true (List.pairwise_iff_getElem.mp ho i j hi hj hij)
        (List.pairwise_iff_getElem.mp hp i j hi hj hij)
    · exact absurd rfl hab
    · rw [le_iff_not_le_of_ne o hab, le_iff_not_le_of_ne p hab]
      exact iff_of_false (not_not.mpr (List.pairwise_iff_getElem.mp ho j i hj hi hij))
        (not_not.mpr (List.pairwise_iff_getElem.mp hp j i hj hi hij))
  · intro hagree
    have hsame : (sortBy o key xs).Perm (sortBy p key ys) :=
      (perm_sortBy o key xs).trans (hperm.trans (perm_sortBy p key ys).symm)
    have hp' : (sortBy p key ys).Pairwise fun a b => o.le (key a) (key b) := by
      refine hp.imp_of_mem fun {a b} ha hb hab => ?_
      exact (hagree a (mem_sortBy.mp (hsame.mem_iff.mpr ha)) b
        (mem_sortBy.mp (hsame.mem_iff.mpr hb))).mpr hab
    refine List.Perm.eq_of_pairwise (fun a b ha hb hab hba => ?_) ho hp' hsame
    exact hkey a (mem_sortBy.mp ha) b (mem_sortBy.mp (hsame.mem_iff.mpr hb))
      (o.le_antisymm _ _ hab hba)

end Recto
