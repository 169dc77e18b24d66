import Mathlib.Tactic

/-!
# Chains linked by hashes

In a linked list every item names the hash of the one before it. Where the hash
is injective on what the items say, the hash of one item pins everything up to
it: two linked lists that agree at one hash agree on the whole prefix.
-/

namespace Recto

universe u v w
variable {α : Type u} {η : Type v} {ι : Type w} (hash : α → η) (prev : α → Option η)

/-- Every item names the hash of the one before it, and the first names none. -/
structure Linked (xs : List α) : Prop where
  first : ∀ a, xs[0]? = some a → prev a = none
  next : ∀ i a b, xs[i]? = some a → xs[i + 1]? = some b → prev b = some (hash a)

variable {hash prev}

theorem Linked.take {xs : List α} (h : Linked hash prev xs) (n : ℕ) :
    Linked hash prev (xs.take n) where
  first a ha := by
    rw [List.getElem?_take] at ha
    split_ifs at ha
    exact h.first a ha
  next i a b ha hb := by
    rw [List.getElem?_take] at ha hb
    split_ifs at ha hb
    exact h.next i a b ha hb

variable {identity : α → ι} {xs ys : List α}

/-- Agreement at one hash goes down to every earlier item. -/
theorem Linked.identity_eq (hx : Linked hash prev xs) (hy : Linked hash prev ys)
    (hinj : ∀ a ∈ xs, ∀ b ∈ ys, hash a = hash b → identity a = identity b)
    (hprev : ∀ a b, identity a = identity b → prev a = prev b) :
    ∀ {n : ℕ} {a b : α}, xs[n]? = some a → ys[n]? = some b → hash a = hash b →
      ∀ i ≤ n, (xs[i]?).map identity = (ys[i]?).map identity := by
  intro n
  induction n with
  | zero =>
    intro a b ha hb hab i hi
    obtain rfl : i = 0 := by omega
    simp [ha, hb, hinj a (List.mem_of_getElem? ha) b (List.mem_of_getElem? hb) hab]
  | succ n ih =>
    intro a b ha hb hab i hi
    have hsame := hinj a (List.mem_of_getElem? ha) b (List.mem_of_getElem? hb) hab
    rcases Nat.lt_or_ge n i with hlast | hearlier
    · obtain rfl : i = n + 1 := by omega
      simp [ha, hb, hsame]
    · obtain ⟨a', ha'⟩ : ∃ a', xs[n]? = some a' := by
        have := (List.getElem?_eq_some_iff.mp ha).1
        exact ⟨_, List.getElem?_eq_getElem (by omega)⟩
      obtain ⟨b', hb'⟩ : ∃ b', ys[n]? = some b' := by
        have := (List.getElem?_eq_some_iff.mp hb).1
        exact ⟨_, List.getElem?_eq_getElem (by omega)⟩
      have hlink : some (hash a') = some (hash b') := by
        rw [← hx.next n a' a ha' ha, ← hy.next n b' b hb' hb, hprev a b hsame]
      exact ih ha' hb' (Option.some.inj hlink) i hearlier

/-- Two linked lists that agree at one hash agree on the prefix that ends there. -/
theorem Linked.take_map_identity (hx : Linked hash prev xs) (hy : Linked hash prev ys)
    (hinj : ∀ a ∈ xs, ∀ b ∈ ys, hash a = hash b → identity a = identity b)
    (hprev : ∀ a b, identity a = identity b → prev a = prev b) {n : ℕ} {a b : α}
    (ha : xs[n]? = some a) (hb : ys[n]? = some b) (hab : hash a = hash b) :
    (xs.take (n + 1)).map identity = (ys.take (n + 1)).map identity := by
  apply List.ext_getElem?
  intro i
  simp only [List.getElem?_map, List.getElem?_take]
  split_ifs with hi
  · exact hx.identity_eq hy hinj hprev ha hb hab i (by omega)
  · rfl

end Recto
