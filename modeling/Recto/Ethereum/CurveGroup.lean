import Mathlib.AlgebraicGeometry.EllipticCurve.Affine.Point
import Mathlib.FieldTheory.Finite.Basic
import Recto.Ethereum.Secp256k1

/-!
# The group behind the points

An affine point with reduced coordinates on the curve stands for a point of the
elliptic curve over the field of `p` elements. Addition and multiplication of
affine points are those of the group, infinity and equal abscissas included.
-/

namespace Recto
namespace Secp256k1

/-! ## Powers and inverses -/

theorem modPow_eq {m : ℤ} : ∀ {fuel e : ℕ} (b : ℤ), e < 2 ^ fuel → modPow m fuel b e = b ^ e % m := by
  intro fuel
  induction fuel with
  | zero =>
    intro e b he
    obtain rfl : e = 0 := by omega
    rw [modPow, pow_zero]
  | succ fuel ih =>
    intro e b he
    have hhalf : e / 2 < 2 ^ fuel := by omega
    have hsquare : modPow m fuel (b * b % m) (e / 2) ≡ b ^ (2 * (e / 2)) [ZMOD m] := by
      rw [ih _ hhalf, pow_mul, sq]
      exact (Int.mod_modEq _ _).trans ((Int.mod_modEq _ _).pow _)
    rw [modPow]
    split_ifs with hzero hodd
    · rw [hzero, pow_zero]
    · have he' : e = 2 * (e / 2) + 1 := by omega
      conv_rhs => rw [he', pow_succ']
      exact hsquare.mul_left b
    · have he' : e = 2 * (e / 2) := by omega
      conv_rhs => rw [he']
      rw [← hsquare, ih _ hhalf, Int.emod_emod_of_dvd _ dvd_rfl]

theorem rootOf_eq (p : ℕ) (rhs : ℤ) : rootOf p rhs = rhs ^ ((p + 1) / 4) % p :=
  modPow_eq rhs Nat.lt_log2_self

theorem modInv_eq {m : ℕ} [hm : Fact m.Prime] {a : ℤ} (ha : (a : ZMod m) ≠ 0) :
    ∃ b, modInv a m = .ok b ∧ (0 ≤ b ∧ b < m) ∧ (b : ZMod m) = (a : ZMod m)⁻¹ := by
  have hgcd : Int.gcd a m = 1 := by
    rw [Int.gcd_comm]
    refine (Nat.Prime.coprime_iff_not_dvd hm.out).mpr ?_
    intro hdvd
    apply ha
    rw [ZMod.intCast_zmod_eq_zero_iff_dvd]
    exact Int.natCast_dvd.mpr hdvd
  have hpos : (0 : ℤ) < m := by exact_mod_cast hm.out.pos
  refine ⟨Int.gcdA a m % m, if_pos hgcd, ⟨Int.emod_nonneg _ hpos.ne', Int.emod_lt_of_pos _ hpos⟩, ?_⟩
  have hbezout := congrArg (Int.cast : ℤ → ZMod m) (Int.gcd_eq_gcd_ab a m)
  rw [hgcd] at hbezout
  push_cast at hbezout
  rw [ZMod.natCast_self, zero_mul, add_zero] at hbezout
  rw [ZMod.intCast_mod]
  exact eq_inv_of_mul_eq_one_right hbezout.symm

namespace Curve

variable (c : Curve)

/-- `y² = x³ + 7` over the field of `p` elements. -/
def curve : WeierstrassCurve.Affine (ZMod c.p) := { a₁ := 0, a₂ := 0, a₃ := 0, a₄ := 0, a₆ := 7 }

variable [hp : Fact c.p.Prime]

abbrev Group : Type := c.curve.Point

variable {c}

theorem natCast_ne_zero {k : ℕ} (h0 : 0 < k) (hk : k < c.p) : (k : ZMod c.p) ≠ 0 := by
  rw [Ne, ZMod.natCast_eq_zero_iff]
  exact Nat.not_dvd_of_pos_of_lt h0 hk

theorem discriminant_ne_zero : c.curve.Δ ≠ 0 := by
  have hgt := c.p_gt
  have htwo : (2 : ZMod c.p) ≠ 0 := by exact_mod_cast natCast_ne_zero (c := c) (k := 2) (by omega) (by omega)
  have hthree : (3 : ZMod c.p) ≠ 0 := by exact_mod_cast natCast_ne_zero (c := c) (k := 3) (by omega) (by omega)
  have hseven : (7 : ZMod c.p) ≠ 0 := by exact_mod_cast natCast_ne_zero (c := c) (k := 7) (by omega) (by omega)
  have hfactors : c.curve.Δ = -(2 ^ 4 * 3 ^ 3 * 7 ^ 2) := by
    simp only [curve, WeierstrassCurve.Δ, WeierstrassCurve.b₂, WeierstrassCurve.b₄,
      WeierstrassCurve.b₆, WeierstrassCurve.b₈]
    ring
  rw [hfactors, neg_ne_zero]
  exact mul_ne_zero (mul_ne_zero (pow_ne_zero _ htwo) (pow_ne_zero _ hthree)) (pow_ne_zero _ hseven)

theorem nonsingular_iff {x y : ZMod c.p} : c.curve.Nonsingular x y ↔ y * y = x * x * x + 7 := by
  rw [← WeierstrassCurve.Affine.equation_iff_nonsingular_of_Δ_ne_zero discriminant_ne_zero,
    WeierstrassCurve.Affine.equation_iff]
  simp only [curve]
  constructor
  · intro h
    linear_combination h
  · intro h
    linear_combination h

/-! ## Affine points -/

def Reduced (c : Curve) (z : ℤ) : Prop := 0 ≤ z ∧ z < c.p

theorem reduced_emod (z : ℤ) : c.Reduced (z % c.p) := by
  have hpos : (0 : ℤ) < c.p := by exact_mod_cast hp.out.pos
  exact ⟨Int.emod_nonneg _ hpos.ne', Int.emod_lt_of_pos _ hpos⟩

theorem Reduced.eq_iff {z w : ℤ} (hz : c.Reduced z) (hw : c.Reduced w) :
    (z : ZMod c.p) = w ↔ z = w := by
  rw [ZMod.intCast_eq_intCast_iff']
  rw [Int.emod_eq_of_lt hz.1 hz.2, Int.emod_eq_of_lt hw.1 hw.2]

/-- The point of the group that affine coordinates are of. -/
inductive Stands : AffinePoint → c.Group → Prop where
  | infinity : Stands none 0
  | affine {x y : ℤ} (hx : c.Reduced x) (hy : c.Reduced y)
      (h : c.curve.Nonsingular (x : ZMod c.p) (y : ZMod c.p)) :
      Stands (some (x, y)) (.some _ _ h)

theorem Stands.of_eq {x y : ℤ} {X Y : ZMod c.p} {h : c.curve.Nonsingular X Y} (hx : c.Reduced x)
    (hy : c.Reduced y) (hX : (x : ZMod c.p) = X) (hY : (y : ZMod c.p) = Y) :
    Stands (some (x, y)) (.some X Y h) := by
  subst hX hY
  exact .affine hx hy h

section
variable {x₁ y₁ x₂ y₂ : ℤ} {h₁ : c.curve.Nonsingular (x₁ : ZMod c.p) (y₁ : ZMod c.p)}
  {h₂ : c.curve.Nonsingular (x₂ : ZMod c.p) (y₂ : ZMod c.p)}

theorem opposite_iff :
    (y₁ : ZMod c.p) = c.curve.negY x₂ y₂ ↔ (y₁ + y₂) % c.p = 0 := by
  rw [← Int.dvd_iff_emod_eq_zero, ← ZMod.intCast_zmod_eq_zero_iff_dvd]
  push_cast
  simp only [WeierstrassCurve.Affine.negY, curve, zero_mul, sub_zero]
  exact eq_neg_iff_add_eq_zero

/-- Where two points are not opposite, the inverse exists and gives the slope of the group law. -/
theorem slopeOf_eq (hx₁ : c.Reduced x₁) (hx₂ : c.Reduced x₂)
    (h₁ : c.curve.Nonsingular (x₁ : ZMod c.p) (y₁ : ZMod c.p))
    (h₂ : c.curve.Nonsingular (x₂ : ZMod c.p) (y₂ : ZMod c.p))
    (hxy : ¬((x₁ : ZMod c.p) = x₂ ∧ (y₁ : ZMod c.p) = c.curve.negY x₂ y₂)) :
    ∃ lam, c.slopeOf x₁ y₁ x₂ y₂ = .ok lam ∧
      (lam : ZMod c.p) = c.curve.slope (x₁ : ZMod c.p) x₂ y₁ y₂ := by
  unfold slopeOf
  split_ifs with heq
  · have hxs : (x₁ : ZMod c.p) = x₂ := by rw [heq]
    have hy : (y₁ : ZMod c.p) ≠ c.curve.negY x₂ y₂ := fun hy => hxy ⟨hxs, hy⟩
    have hys : (y₁ : ZMod c.p) = y₂ := WeierstrassCurve.Affine.Y_eq_of_Y_ne h₁.1 h₂.1 hxs hy
    have hdouble : (y₁ : ZMod c.p) - c.curve.negY x₁ y₁ = 2 * y₁ := by
      simp only [WeierstrassCurve.Affine.negY, curve]
      ring
    have hne : ((2 * y₁ % c.p : ℤ) : ZMod c.p) ≠ 0 := by
      rw [ZMod.intCast_mod]
      push_cast
      rw [← hdouble, sub_ne_zero]
      rw [← hys, ← hxs] at hy
      exact hy
    obtain ⟨b, hb, -, hinverse⟩ := modInv_eq hne
    rw [hb]
    refine ⟨_, rfl, ?_⟩
    rw [WeierstrassCurve.Affine.slope_of_Y_ne hxs hy, hdouble, ZMod.intCast_mod]
    push_cast
    rw [hinverse, ZMod.intCast_mod]
    simp only [curve]
    push_cast
    rw [div_eq_mul_inv]
    ring
  · have hxs : (x₁ : ZMod c.p) ≠ x₂ := fun h => heq ((hx₁.eq_iff hx₂).mp h)
    have hne : (((x₂ - x₁) % c.p : ℤ) : ZMod c.p) ≠ 0 := by
      rw [ZMod.intCast_mod]
      push_cast
      exact sub_ne_zero.mpr hxs.symm
    obtain ⟨b, hb, -, hinverse⟩ := modInv_eq hne
    rw [hb]
    refine ⟨_, rfl, ?_⟩
    rw [WeierstrassCurve.Affine.slope_of_X_ne hxs, ZMod.intCast_mod]
    push_cast
    rw [hinverse, ZMod.intCast_mod]
    push_cast
    rw [← neg_sub (y₂ : ZMod c.p), ← neg_sub (x₂ : ZMod c.p), neg_div_neg_eq, div_eq_mul_inv]

end

/-- The sum of two affine points stands for the sum. -/
theorem ecAdd_stands (a b : AffinePoint) (P Q : c.Group) (ha : Stands a P) (hb : Stands b Q) :
    ∃ s, c.ecAdd a b = .ok s ∧ Stands s (P + Q) := by
  cases ha with
  | infinity => exact ⟨b, by cases b <;> rfl, by rwa [zero_add]⟩
  | affine hx₁ hy₁ h₁ =>
    rename_i x₁ y₁
    cases hb with
    | infinity => exact ⟨_, rfl, by rw [add_zero]; exact .affine hx₁ hy₁ h₁⟩
    | affine hx₂ hy₂ h₂ =>
      rename_i x₂ y₂
      have hxs : ((x₁ : ZMod c.p) = x₂) ↔ x₁ = x₂ := hx₁.eq_iff hx₂
      by_cases hopposite : x₁ = x₂ ∧ (y₁ + y₂) % c.p = 0
      · refine ⟨none, by simp only [ecAdd, if_pos hopposite], ?_⟩
        rw [WeierstrassCurve.Affine.Point.add_of_Y_eq (hxs.mpr hopposite.1)
          (opposite_iff.mpr hopposite.2)]
        exact .infinity
      · have hxy : ¬((x₁ : ZMod c.p) = x₂ ∧ (y₁ : ZMod c.p) = c.curve.negY x₂ y₂) := by
          rwa [hxs, opposite_iff]
        obtain ⟨lam, hlam, hslope⟩ := slopeOf_eq hx₁ hx₂ h₁ h₂ hxy
        refine ⟨_, by simp only [ecAdd, if_neg hopposite, hlam, ok_bind]; rfl, ?_⟩
        rw [WeierstrassCurve.Affine.Point.add_some hxy]
        refine .of_eq (reduced_emod _) (reduced_emod _) ?_ ?_
        · rw [ZMod.intCast_mod]
          push_cast
          rw [hslope]
          simp only [WeierstrassCurve.Affine.addX, curve]
          ring
        · rw [ZMod.intCast_mod]
          push_cast
          rw [hslope]
          simp only [WeierstrassCurve.Affine.addY, WeierstrassCurve.Affine.negAddY,
            WeierstrassCurve.Affine.negY, WeierstrassCurve.Affine.addX, curve]
          ring

theorem negate_stands {pt : ℤ × ℤ} {P : c.Group} (h : Stands (some pt) P) :
    Stands (some (c.negate pt)) (-P) := by
  cases h with
  | affine hx hy h =>
    rw [WeierstrassCurve.Affine.Point.neg_some]
    refine .of_eq hx (reduced_emod _) rfl ?_
    rw [ZMod.intCast_mod]
    push_cast
    simp only [WeierstrassCurve.Affine.negY, curve]
    ring

/-- A multiple of an affine point stands for the multiple, when `n` kills the group. -/
theorem ecMul_stands (hkill : ∀ P : c.Group, c.n • P = 0) (k : ℕ) {a : AffinePoint} {P : c.Group}
    (ha : Stands a P) : ∃ s, c.ecMul k a = .ok s ∧ Stands s (k • P) := by
  cases a with
  | none =>
    cases ha
    have hzero : k • (0 : c.Group) = 0 := nsmul_zero k
    exact ⟨none, rfl, by rw [hzero]; exact .infinity⟩
  | some pt =>
    by_cases hzero : (k : ℤ) % c.n = 0
    · obtain ⟨m, rfl⟩ : c.n ∣ k := by exact_mod_cast Int.dvd_of_emod_eq_zero hzero
      refine ⟨none, by simp only [ecMul, if_pos hzero], ?_⟩
      have hmultiple : (c.n * m) • P = 0 := by
        rw [mul_nsmul, hkill]
        exact nsmul_zero m
      rw [hmultiple]
      exact .infinity
    · obtain ⟨s, hs, hstands⟩ := doubleAndAdd_stands ecAdd_stands (Nat.lt_log2_self (n := k))
        (Stands.infinity (c := c)) ha
      refine ⟨s, ?_, by rwa [zero_add] at hstands⟩
      have hnonneg : ¬(k : ℤ) < 0 := by omega
      simpa only [ecMul, if_neg hzero, if_neg hnonneg, Int.natAbs_natCast] using hs

/-! ## Abscissas -/

/-- The root of a square is one of its two. -/
theorem rootOf_square {rhs : ℤ} {y : ZMod c.p} (h : (rhs : ZMod c.p) = y * y) :
    ((rootOf c.p rhs : ℤ) : ZMod c.p) * (rootOf c.p rhs : ℤ) = y * y := by
  have hmod := c.p_mod
  have hexponent : 2 * ((c.p + 1) / 4 + (c.p + 1) / 4) = c.p + 1 := by omega
  rw [rootOf_eq, ZMod.intCast_mod]
  push_cast
  rw [h, ← pow_add, ← sq, ← pow_mul, hexponent, pow_succ, ZMod.pow_card, sq]

theorem reduced_rootOf (rhs : ℤ) : c.Reduced (rootOf c.p rhs) := by
  rw [rootOf_eq]
  exact reduced_emod _

/-- The ordinate found is one of a point. -/
theorem yFromX_nonsingular {x y : ℤ} {odd : Bool} (h : c.yFromX x odd = some y) :
    c.Reduced y ∧ c.curve.Nonsingular (x : ZMod c.p) (y : ZMod c.p) := by
  have hroot : ∀ {z : ℤ}, z * z % c.p = (x * x * x + 7) % c.p →
      (z : ZMod c.p) * z = (x : ZMod c.p) * x * x + 7 := by
    intro z hz
    have hcast := (ZMod.intCast_eq_intCast_iff' _ _ c.p).mpr hz
    push_cast at hcast
    exact hcast
  simp only [yFromX] at h
  rw [nonsingular_iff]
  by_cases hsquare : rootOf c.p ((x * x * x + 7) % c.p) * rootOf c.p ((x * x * x + 7) % c.p) % c.p =
      (x * x * x + 7) % c.p
  · rw [if_neg (not_not.mpr hsquare)] at h
    by_cases hparity : rootOf c.p ((x * x * x + 7) % c.p) % 2 ≠ if odd then 1 else 0
    · rw [if_pos hparity] at h
      obtain rfl := Option.some.inj h
      refine ⟨reduced_emod _, ?_⟩
      rw [ZMod.intCast_mod]
      push_cast
      rw [neg_mul_neg]
      exact hroot hsquare
    · rw [if_neg hparity] at h
      obtain rfl := Option.some.inj h
      exact ⟨reduced_rootOf _, hroot hsquare⟩
  · rw [if_pos hsquare] at h
    cases h

/-- A point is found from its abscissa and the parity of its ordinate. -/
theorem yFromX_eq {x y : ℤ} (hy : c.Reduced y)
    (h : c.curve.Nonsingular (x : ZMod c.p) (y : ZMod c.p)) :
    c.yFromX x (decide (y % 2 = 1)) = some y := by
  have hcast : (((x * x * x + 7) % c.p : ℤ) : ZMod c.p) = (y : ZMod c.p) * y := by
    rw [ZMod.intCast_mod]
    push_cast
    exact (nonsingular_iff.mp h).symm
  have hsquare := rootOf_square hcast
  obtain ⟨z, hz⟩ : ∃ z, z = rootOf c.p ((x * x * x + 7) % c.p) := ⟨_, rfl⟩
  have hreduced : c.Reduced z := hz ▸ reduced_rootOf _
  rw [← hz] at hsquare
  have hroot : z * z % c.p = (x * x * x + 7) % c.p := by
    rw [← ZMod.intCast_eq_intCast_iff', ← ZMod.intCast_mod (x * x * x + 7), hcast]
    push_cast
    exact hsquare
  have hodd := c.p_mod
  have hneg : c.Reduced (-z % c.p) := reduced_emod _
  have hnegate : (-z % c.p : ℤ) = if z = 0 then 0 else c.p - z := by
    split_ifs with hzero
    · rw [hzero, neg_zero, Int.zero_emod]
    · have h0 := hreduced.1
      have hlt := hreduced.2
      rw [← Int.add_emod_right, Int.emod_eq_of_lt (by omega) (by omega)]
      omega
  have hroots : z = y ∨ -z % c.p = y := by
    rcases mul_self_eq_mul_self_iff.mp hsquare with hsame | hopposite
    · exact .inl ((hreduced.eq_iff hy).mp hsame)
    · refine .inr ((hneg.eq_iff hy).mp ?_)
      rw [ZMod.intCast_mod]
      push_cast
      rw [hopposite, neg_neg]
  have hparity : ∀ w : ℤ, w % 2 = (if decide (w % 2 = 1) then 1 else 0) := by
    intro w
    by_cases hw : w % 2 = 1
    · simp [hw]
    · simp only [hw, decide_false, Bool.false_eq_true, if_false]
      omega
  simp only [yFromX, ← hz]
  rw [if_neg (not_not.mpr hroot)]
  rcases hroots with rfl | hroots
  · rw [if_neg (not_not.mpr (hparity z))]
  · by_cases hzero : z = 0
    · rw [hnegate, if_pos hzero] at hroots
      rw [← hroots, hzero]
      simp
    · have hdiffers : z % 2 ≠ y % 2 := by
        rw [hnegate, if_neg hzero] at hroots
        omega
      rw [if_pos (by rwa [← hparity y]), hroots]

theorem Stands.of_point {x y : ZMod c.p} (h : c.curve.Nonsingular x y) :
    Stands (some ((x.val : ℤ), (y.val : ℤ))) (.some x y h) := by
  have hreduced : ∀ z : ZMod c.p, c.Reduced (z.val : ℤ) := by
    intro z
    exact ⟨by omega, by exact_mod_cast ZMod.val_lt z⟩
  have hcast : ∀ z : ZMod c.p, ((z.val : ℤ) : ZMod c.p) = z := by
    intro z
    rw [Int.cast_natCast, ZMod.natCast_zmod_val]
  exact .of_eq (hreduced x) (hreduced y) (hcast x) (hcast y)

theorem yFromX_point {x y : ZMod c.p} (h : c.curve.Nonsingular x y) :
    c.yFromX (x.val : ℤ) (decide (y.val % 2 = 1)) = some (y.val : ℤ) := by
  have hparity : decide (y.val % 2 = 1) = decide ((y.val : ℤ) % 2 = 1) :=
    decide_eq_decide.mpr (by omega)
  rw [hparity]
  refine yFromX_eq ⟨by omega, by exact_mod_cast ZMod.val_lt y⟩ ?_
  rw [Int.cast_natCast, Int.cast_natCast, ZMod.natCast_zmod_val, ZMod.natCast_zmod_val]
  exact h

/-- No point of the group has abscissa 0. -/
theorem abscissa_ne_zero {x y : ZMod c.p} (h : c.curve.Nonsingular x y) : x ≠ 0 := by
  rintro rfl
  have hgt := c.p_gt
  have hcast : ((7 : ℤ) : ZMod c.p) = y * y := by
    rw [nonsingular_iff.mp h]
    push_cast
    ring
  have hsquare := rootOf_square hcast
  have hseven : (7 : ℤ) % c.p = 7 := Int.emod_eq_of_lt (by norm_num) (by exact_mod_cast hgt)
  apply c.seven
  rw [← hseven, ← ZMod.intCast_eq_intCast_iff', hseven, hcast]
  push_cast
  exact hsquare

end Curve
end Secp256k1
end Recto
