import Recto.Data.Dict

/-!
# Tallies of a queue

A dictionary of counters beside a queue: an item that enters is counted, an item
that leaves is counted down, and a counter that reaches zero leaves too. A queue in
order of age loses its old items from the front.
-/

namespace Recto

variable {α β : Type*}

section Tallies

variable [DecidableEq β]

/-- The counters hold how often each item stands in the queue, and nothing else. -/
def Tallies (queue : List β) (counts : Dict β ℤ) : Prop :=
  ∀ b, counts.get? b = if queue.count b = 0 then none else some (queue.count b : ℤ)

theorem Tallies.nil : Tallies ([] : List β) ∅ := by
  intro b
  simp

theorem Tallies.getD {queue : List β} {counts : Dict β ℤ} (h : Tallies queue counts) (b : β) :
    (counts.get? b).getD 0 = queue.count b := by
  rw [h b]
  split_ifs with hzero <;> simp [hzero]

/-- An item enters. -/
theorem Tallies.enter {queue : List β} {counts : Dict β ℤ} (h : Tallies queue counts) (b : β) :
    Tallies (queue ++ [b]) (counts.set b ((counts.get? b).getD 0 + 1)) := by
  intro k
  rw [Dict.get?_set, h.getD b]
  by_cases hk : k = b
  · subst hk
    simp
  · have hnone : [b].count k = 0 := List.count_eq_zero_of_not_mem (by simpa using hk)
    rw [if_neg hk, h k, List.count_append, hnone, add_zero]

/-- The first item leaves. -/
theorem Tallies.leave {queue : List β} {counts : Dict β ℤ} {b : β}
    (h : Tallies (b :: queue) counts) :
    ∃ n, counts.get? b = some n ∧
      Tallies queue (if n - 1 ≠ 0 then counts.set b (n - 1) else counts.erase b) := by
  refine ⟨(queue.count b : ℤ) + 1, by simp [h b], ?_⟩
  rw [add_sub_cancel_right]
  intro k
  by_cases hk : k = b
  · subst hk
    by_cases hzero : queue.count k = 0 <;> simp [hzero, Dict.get?_erase]
  · rw [← List.count_cons_of_ne (Ne.symm hk), ← h k]
    split_ifs
    · rw [Dict.get?_set, if_neg hk]
    · rw [Dict.get?_erase, if_neg hk]

end Tallies

/-! ## Queues in order of age -/

/-- Where nothing young stands before something old, what is left at the front's first young item
is young. -/
theorem not_of_mem_dropWhile {p : α → Bool} {queue : List α}
    (hsorted : queue.Pairwise fun a b => p b = true → p a = true) {x : α}
    (hx : x ∈ queue.dropWhile p) : p x = false := by
  induction queue with
  | nil => simp at hx
  | cons y queue ih =>
    rw [List.dropWhile_cons] at hx
    obtain ⟨hy, hrest⟩ := List.pairwise_cons.mp hsorted
    split_ifs at hx with hold
    · exact ih hrest hx
    · rw [Bool.not_eq_true] at hold
      rcases List.mem_cons.mp hx with rfl | hx
      · exact hold
      · by_contra hne
        rw [hy x hx (by simpa using hne)] at hold
        exact Bool.noConfusion hold

end Recto
