import Recto.Data.Lockstep

/-!
# Double and add

A multiple is built from the low bit of the factor up. The addition may fail, and
works on what stands for the elements of a monoid; on what stands for elements it
does not fail, and neither does the loop.
-/

namespace Recto

variable {ε α M : Type}

/-- The bits of `k` from the lowest, `fuel` of them at most. -/
def doubleAndAdd (add : α → α → Except ε α) : ℕ → ℕ → α → α → Except ε α
  | 0, _, result, _ => .ok result
  | fuel + 1, k, result, addend =>
      if k = 0 then .ok result
      else do
        let result ← (if k % 2 = 1 then add result addend else .ok result)
        let addend ← add addend addend
        doubleAndAdd add fuel (k / 2) result addend

theorem doubleAndAdd_stands [AddCommMonoid M] {add : α → α → Except ε α} {Stands : α → M → Prop}
    (hadd : ∀ a b x y, Stands a x → Stands b y → ∃ c, add a b = .ok c ∧ Stands c (x + y)) :
    ∀ {fuel k : ℕ} {result addend : α} {x y : M}, k < 2 ^ fuel → Stands result x →
      Stands addend y → ∃ c, doubleAndAdd add fuel k result addend = .ok c ∧ Stands c (x + k • y) := by
  intro fuel
  induction fuel with
  | zero =>
    intro k result addend x y hk hx hy
    obtain rfl : k = 0 := by omega
    exact ⟨result, rfl, by simpa using hx⟩
  | succ fuel ih =>
    intro k result addend x y hk hx hy
    rw [doubleAndAdd]
    by_cases hzero : k = 0
    · rw [if_pos hzero, hzero]
      exact ⟨result, rfl, by simpa using hx⟩
    · rw [if_neg hzero]
      obtain ⟨double, hdouble, hdoubled⟩ := hadd addend addend y y hy hy
      have hhalf : k / 2 < 2 ^ fuel := by omega
      have hdoubles : (k / 2) • (y + y) = (2 * (k / 2)) • y := by
        rw [← two_nsmul, mul_comm, mul_nsmul']
      by_cases hodd : k % 2 = 1
      · obtain ⟨sum, hsum, hsummed⟩ := hadd result addend x y hx hy
        obtain ⟨c, hc, hstands⟩ := ih hhalf hsummed hdoubled
        have htotal : x + y + (k / 2) • (y + y) = x + k • y := by
          have hk : k = 2 * (k / 2) + 1 := by omega
          rw [hdoubles, add_assoc]
          conv_rhs => rw [hk, succ_nsmul']
        rw [if_pos hodd, hsum, ok_bind, hdouble, ok_bind]
        exact ⟨c, hc, htotal ▸ hstands⟩
      · obtain ⟨c, hc, hstands⟩ := ih hhalf hx hdoubled
        have htotal : x + (k / 2) • (y + y) = x + k • y := by
          have hk : k = 2 * (k / 2) := by omega
          rw [hdoubles, ← hk]
        rw [if_neg hodd, ok_bind, hdouble, ok_bind]
        exact ⟨c, hc, htotal ▸ hstands⟩

end Recto
