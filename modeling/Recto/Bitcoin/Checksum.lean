import Mathlib.Tactic
import Recto.Bitcoin.Bech32

/-!
# The bech32 checksum

One turn of the checksum is linear in exclusive or, up to the value it takes in,
and only shifts a number of 25 bits or fewer. So the six groups of a created
checksum come out at the other end as the very number they were cut from.
-/

namespace Recto
namespace Bech32

/-! ## One turn, taken apart -/

/-- What the bits above the twenty-fifth add. -/
def mix (b : ℕ) : List (ℕ × ℕ) → ℕ
  | [] => 0
  | g :: gs => (if b.testBit g.2 then g.1 else 0) ^^^ mix b gs

/-- A turn that takes in zero. -/
def advance (c : ℕ) : ℕ := ((c &&& 0x1FFFFFF) <<< 5) ^^^ mix (c >>> 25) generator.zipIdx

theorem foldl_mix (b chk : ℕ) (gs : List (ℕ × ℕ)) :
    gs.foldl (fun chk g => if (b >>> g.2) &&& 1 ≠ 0 then chk ^^^ g.1 else chk) chk =
      chk ^^^ mix b gs := by
  induction gs generalizing chk with
  | nil => simp [mix]
  | cons g gs ih =>
    have hbit : ((b >>> g.2) &&& 1 ≠ 0) ↔ b.testBit g.2 = true := by
      rw [Nat.testBit, Nat.and_comm]
      simp
    rw [List.foldl_cons, ih, mix]
    by_cases h : b.testBit g.2 = true
    · rw [if_pos (hbit.mpr h), if_pos h, Nat.xor_assoc]
    · rw [if_neg (hbit.not.mpr h), if_neg h, Nat.zero_xor]

theorem polymodStep_eq (c v : ℕ) : polymodStep c v = advance c ^^^ v := by
  rw [polymodStep, foldl_mix, advance, Nat.xor_assoc, Nat.xor_comm v, ← Nat.xor_assoc]

theorem mix_xor (a b : ℕ) (gs : List (ℕ × ℕ)) : mix (a ^^^ b) gs = mix a gs ^^^ mix b gs := by
  induction gs with
  | nil => simp [mix]
  | cons g gs ih =>
    have hhead : (if (a ^^^ b).testBit g.2 then g.1 else 0) =
        (if a.testBit g.2 then g.1 else 0) ^^^ (if b.testBit g.2 then g.1 else 0) := by
      rw [Nat.testBit_xor]
      cases a.testBit g.2 <;> cases b.testBit g.2 <;> simp
    simp only [mix, hhead, ih]
    ac_rfl

theorem advance_xor (a b : ℕ) : advance (a ^^^ b) = advance a ^^^ advance b := by
  simp only [advance, Nat.and_xor_distrib_right, Nat.shiftLeft_xor_distrib,
    Nat.shiftRight_xor_distrib, mix_xor]
  ac_rfl

/-- A number below the mixed bits only moves up. -/
theorem advance_of_lt {n : ℕ} (h : n < 2 ^ 25) : advance n = n <<< 5 := by
  have hlow : n &&& 0x1FFFFFF = n := by
    have : (0x1FFFFFF : ℕ) = 2 ^ 25 - 1 := by norm_num
    rw [this, Nat.and_two_pow_sub_one_eq_mod, Nat.mod_eq_of_lt h]
  have hhigh : n >>> 25 = 0 := by rw [Nat.shiftRight_eq_div_pow, Nat.div_eq_of_lt h]
  have hnone : mix 0 generator.zipIdx = 0 := by decide
  rw [advance, hlow, hhigh, hnone, Nat.xor_zero]

theorem mix_lt (b : ℕ) {gs : List (ℕ × ℕ)} (h : ∀ g ∈ gs, g.1 < 2 ^ 30) : mix b gs < 2 ^ 30 := by
  induction gs with
  | nil => simp [mix]
  | cons g gs ih =>
    refine Nat.xor_lt_two_pow ?_ (ih fun g' hg' => h g' (List.mem_cons_of_mem g hg'))
    split_ifs
    · exact h g (by simp)
    · norm_num

theorem advance_lt (c : ℕ) : advance c < 2 ^ 30 := by
  refine Nat.xor_lt_two_pow ?_ (mix_lt _ (by decide))
  have hlow : c &&& 0x1FFFFFF < 2 ^ 25 :=
    lt_of_le_of_lt Nat.and_le_right (by norm_num)
  rw [Nat.shiftLeft_eq]
  omega

/-! ## The created checksum -/

/-- A group taken in under the bits above it: both move up, and the group takes the place left. -/
theorem polymodStep_group (c p k : ℕ) (h : p >>> (k + 5) < 2 ^ 25) :
    polymodStep (c ^^^ (p >>> (k + 5))) ((p >>> k) &&& 31) = advance c ^^^ (p >>> k) := by
  have hjoin : ((p >>> (k + 5)) <<< 5) ^^^ ((p >>> k) &&& 31) = p >>> k := by
    have hmask : (31 : ℕ) = 2 ^ 5 - 1 := by norm_num
    refine Nat.eq_of_testBit_eq fun i => ?_
    rw [hmask, Nat.testBit_xor, Nat.testBit_shiftLeft, Nat.testBit_and,
      Nat.testBit_two_pow_sub_one, Nat.testBit_shiftRight, Nat.testBit_shiftRight]
    by_cases hi : 5 ≤ i
    · have hshift : k + 5 + (i - 5) = k + i := by omega
      simp [hi, hshift, Nat.not_lt.mpr hi]
    · simp [hi, Nat.not_le.mp hi]
  rw [polymodStep_eq, advance_xor, advance_of_lt h, Nat.xor_assoc, hjoin]

theorem polymodStep_zero (c : ℕ) : polymodStep c 0 = advance c := by
  rw [polymodStep_eq, Nat.xor_zero]

/-- The groups cut from `p`, as `createChecksum` cuts them. -/
def cut (p : ℕ) : List ℕ := (List.range 6).map fun i => (p >>> (5 * (5 - i))) &&& 31

/-- Taken in, the six groups of a number stand where six zeros stood. -/
theorem foldl_cut (c : ℕ) {p : ℕ} (h : p < 2 ^ 30) :
    (cut p).foldl polymodStep c = [0, 0, 0, 0, 0, 0].foldl polymodStep c ^^^ p := by
  have hlow : ∀ k, p >>> (k + 5) < 2 ^ 25 := by
    intro k
    rw [Nat.shiftRight_eq_div_pow]
    refine Nat.div_lt_of_lt_mul (lt_of_lt_of_le h ?_)
    calc (2 : ℕ) ^ 30 = 2 ^ 5 * 2 ^ 25 := by norm_num
      _ ≤ 2 ^ (k + 5) * 2 ^ 25 := Nat.mul_le_mul_right _ (Nat.pow_le_pow_right (by norm_num) (by omega))
  have hstart : c ^^^ (p >>> (25 + 5)) = c := by
    rw [Nat.shiftRight_eq_div_pow, Nat.div_eq_of_lt h, Nat.xor_zero]
  have hcut : cut p = [(p >>> 25) &&& 31, (p >>> 20) &&& 31, (p >>> 15) &&& 31,
      (p >>> 10) &&& 31, (p >>> 5) &&& 31, (p >>> 0) &&& 31] := rfl
  simp only [hcut, List.foldl_cons, List.foldl_nil, polymodStep_zero]
  rw [← hstart, polymodStep_group _ _ _ (hlow 25), polymodStep_group _ _ 20 (hlow 20),
    polymodStep_group _ _ 15 (hlow 15), polymodStep_group _ _ 10 (hlow 10),
    polymodStep_group _ _ 5 (hlow 5), polymodStep_group _ _ 0 (hlow 0), hstart, Nat.shiftRight_zero]

theorem polymod_append (xs ys : List ℕ) :
    polymod (xs ++ ys) = ys.foldl polymodStep (polymod xs) := List.foldl_append

/-- The checksum of data that ends in its created checksum is the constant. -/
theorem polymod_createChecksum (hrp : List Char) (data : List ℕ) {specConst : ℕ}
    (h : specConst < 2 ^ 30) :
    polymod (hrpExpand hrp ++ (data ++ createChecksum hrp data specConst)) = specConst := by
  have hzeros : ∀ values, polymod (values ++ [0, 0, 0, 0, 0, 0]) < 2 ^ 30 := by
    intro values
    simp only [polymod_append, List.foldl_cons, List.foldl_nil, polymodStep_zero]
    exact advance_lt _
  have hcreate : createChecksum hrp data specConst =
      cut (polymod ((hrpExpand hrp ++ data) ++ [0, 0, 0, 0, 0, 0]) ^^^ specConst) := rfl
  rw [← List.append_assoc, polymod_append, hcreate,
    foldl_cut _ (Nat.xor_lt_two_pow (hzeros _) h), ← polymod_append, ← Nat.xor_assoc,
    Nat.xor_self, Nat.zero_xor]

/-- Six groups are cut from the number they write. -/
theorem exists_cut {gs : List ℕ} (hlength : gs.length = 6) (h : ∀ g ∈ gs, g < 32) :
    ∃ p < 2 ^ 30, cut p = gs := by
  match gs, hlength with
  | [a, b, c, d, e, f], _ =>
    simp only [List.mem_cons, List.not_mem_nil, or_false, forall_eq_or_imp, forall_eq] at h
    have hmask : (31 : ℕ) = 2 ^ 5 - 1 := by norm_num
    refine ⟨((((a * 32 + b) * 32 + c) * 32 + d) * 32 + e) * 32 + f, by omega, ?_⟩
    have hcut : ∀ p, cut p = [(p >>> 25) &&& 31, (p >>> 20) &&& 31, (p >>> 15) &&& 31,
        (p >>> 10) &&& 31, (p >>> 5) &&& 31, (p >>> 0) &&& 31] := fun _ => rfl
    simp only [hcut, hmask, Nat.and_two_pow_sub_one_eq_mod, Nat.shiftRight_eq_div_pow,
      List.cons.injEq, and_true]
    omega

/-- Only the created checksum makes the checksum the constant. -/
theorem eq_createChecksum {hrp : List Char} {data checksum : List ℕ} {specConst : ℕ}
    (hlength : checksum.length = 6) (hgroups : ∀ d ∈ checksum, d < 32)
    (h : polymod (hrpExpand hrp ++ (data ++ checksum)) = specConst) :
    checksum = createChecksum hrp data specConst := by
  obtain ⟨p, hp, rfl⟩ := exists_cut hlength hgroups
  rw [← List.append_assoc, polymod_append, foldl_cut _ hp, ← polymod_append] at h
  have hvalue : p = polymod ((hrpExpand hrp ++ data) ++ [0, 0, 0, 0, 0, 0]) ^^^ specConst := by
    rw [← h, ← Nat.xor_assoc, Nat.xor_self, Nat.zero_xor]
  rw [hvalue]
  rfl

theorem createChecksum_lt (hrp : List Char) (data : List ℕ) (specConst : ℕ) :
    ∀ d ∈ createChecksum hrp data specConst, d < 32 := by
  intro d hd
  obtain ⟨i, -, rfl⟩ := List.mem_map.mp hd
  exact lt_of_le_of_lt Nat.and_le_right (by norm_num)

@[simp] theorem length_createChecksum (hrp : List Char) (data : List ℕ) (specConst : ℕ) :
    (createChecksum hrp data specConst).length = 6 := by
  simp [createChecksum]

end Bech32
end Recto
