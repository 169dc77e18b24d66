import Recto.Ethereum.CurveGroup

/-!
# What recovery recovers

A key that `recover_public_key` returns satisfies the verification equation, and
the key a signature was made with is returned for it. The two primes and the order
of the group are assumed, as the module assumes them.
-/

namespace Recto
namespace Secp256k1

open Rlp TypedData

/-! ## Multiples in a group of prime order -/

section
variable {A : Type} [AddCommGroup A] {n : ℕ} (hkill : ∀ P : A, n • P = 0)
include hkill

theorem smul_congr {i j : ℕ} (h : i ≡ j [MOD n]) (P : A) : i • P = j • P := by
  have hmod : ∀ i : ℕ, (i % n) • P = i • P := by
    intro i
    conv_rhs => rw [← Nat.mod_add_div i n, add_nsmul, mul_nsmul, hkill, nsmul_zero, add_zero]
  rw [← hmod i, ← hmod j, h]

theorem smul_ne_zero_of_not_dvd (hn : n.Prime) {P : A} (hP : P ≠ 0) {i : ℕ} (hi : ¬n ∣ i) :
    i • P ≠ 0 := by
  have := Fact.mk hn
  have horder : addOrderOf P = n := addOrderOf_eq_prime (hkill P) hP
  rwa [Ne, ← addOrderOf_dvd_iff_nsmul_eq_zero, horder]

/-- With `ks = e + rd` the difference `sR - eG` is `rd` times the generator, and `r⁻¹` leaves `d`. -/
theorem difference_of_signed {k s e r d : ℕ} (hsign : k * s ≡ e + r * d [MOD n]) (G : A) :
    s • k • G - (e % n) • G = (r * d) • G := by
  rw [← mul_nsmul, smul_congr hkill hsign, add_nsmul, smul_congr hkill (Nat.mod_modEq e n)]
  abel

theorem key_of_difference {r t : ℕ} (ht : r * t ≡ 1 [MOD n]) (d : ℕ) (G : A) :
    t • (r * d) • G = d • G := by
  have hscale : r * d * t ≡ d [MOD n] := by
    calc r * d * t = r * t * d := by ring
      _ ≡ 1 * d [MOD n] := ht.mul_right d
      _ = d := one_mul d
  rw [← mul_nsmul, smul_congr hkill hscale]

end

namespace Curve

variable {c : Curve} [hp : Fact c.p.Prime]

theorem nonsingular_generator : c.curve.Nonsingular (c.gx : ZMod c.p) (c.gy : ZMod c.p) := by
  have hcast := (ZMod.intCast_eq_intCast_iff' _ _ c.p).mpr c.on_curve
  push_cast at hcast
  exact nonsingular_iff.mpr hcast

variable (c) in
def generator : c.Group := .some _ _ (nonsingular_generator (c := c))

theorem generator_stands : Stands (some (c.gx, c.gy)) c.generator :=
  .affine c.gx_mem c.gy_mem nonsingular_generator

theorem Stands.ne_zero {q : ℤ × ℤ} {P : c.Group} (h : Stands (some q) P) : P ≠ 0 := by
  cases h with
  | affine hx hy h => exact WeierstrassCurve.Affine.Point.some_ne_zero h

theorem Stands.eq_zero {P : c.Group} (h : Stands none P) : P = 0 := by
  cases h
  rfl

/-- The 64 bytes of a point. -/
def Encodes (key : Bytes) (Q : c.Group) : Prop :=
  ∃ x y : ℤ, Stands (some (x, y)) Q ∧ key = toBytesBig 32 x.toNat ++ toBytesBig 32 y.toNat

/-- The verification equation of ECDSA, for the hash `e`. -/
def Verifies (e r s : ℕ) (Q : c.Group) : Prop :=
  (1 ≤ r ∧ r < c.n) ∧ (1 ≤ s ∧ s < c.n) ∧ ∃ w : ℕ, s * w % c.n = 1 ∧
    ∃ x y h, (e * w % c.n) • c.generator + (r * w % c.n) • Q = .some x y h ∧ x.val % c.n = r

theorem raised_ok {α : Type} (a : α) : raised (.ok a) = .ok a := rfl

/-- The computed point is `r⁻¹(sR - eG)`, where no step of it is at infinity. -/
theorem recoverPoint_spec (hn : c.n.Prime) (hkill : ∀ P : c.Group, c.n • P = 0) {r s e : ℕ} {ry : ℤ}
    {R : c.Group} (hR : Stands (some ((r : ℤ), ry)) R) (hr : ¬c.n ∣ r) :
    ∃ t : ℕ, r * t ≡ 1 [MOD c.n] ∧
      (∀ q, c.recoverPoint r s e ry = .ok q →
        Stands (some q) (t • (s • R - e • c.generator))) ∧
      (e • c.generator ≠ 0 → s • R - e • c.generator ≠ 0 →
        t • (s • R - e • c.generator) ≠ 0 → ∃ q, c.recoverPoint r s e ry = .ok q) := by
  have := Fact.mk hn
  have hrne : ((r : ℤ) : ZMod c.n) ≠ 0 := by
    rw [Int.cast_natCast, Ne, ZMod.natCast_eq_zero_iff]
    exact hr
  obtain ⟨inverse, hinverse, ⟨hnonneg, -⟩, hvalue⟩ := modInv_eq hrne
  lift inverse to ℕ using hnonneg with t
  have hcongr : r * t ≡ 1 [MOD c.n] := by
    rw [← ZMod.natCast_eq_natCast_iff]
    push_cast at hvalue hrne ⊢
    rw [hvalue, mul_inv_cancel₀ hrne]
  obtain ⟨sR, hsR, hsRs⟩ := ecMul_stands hkill s hR
  obtain ⟨eG, heG, heGs⟩ := ecMul_stands hkill e (generator_stands (c := c))
  refine ⟨t, hcongr, ?_⟩
  unfold recoverPoint
  simp only [hinverse, hsR, heG, raised_ok, ok_bind]
  cases eG with
  | none => exact ⟨nofun, fun hne => absurd heGs.eq_zero hne⟩
  | some eG =>
    obtain ⟨difference, hdifference, hstands⟩ := ecAdd_stands _ _ _ _ hsRs (negate_stands heGs)
    rw [← sub_eq_add_neg] at hstands
    simp only [hdifference, raised_ok, ok_bind]
    cases difference with
    | none => exact ⟨nofun, fun _ hne => absurd hstands.eq_zero hne⟩
    | some difference =>
      obtain ⟨q, hq, hqs⟩ := ecMul_stands hkill t hstands
      simp only [hq, raised_ok, ok_bind]
      cases q with
      | none => exact ⟨nofun, fun _ _ hne => absurd hqs.eq_zero hne⟩
      | some q =>
        refine ⟨fun q' h => ?_, fun _ _ _ => ⟨q, rfl⟩⟩
        obtain rfl := Except.ok.inj h
        exact hqs

/-- The point `r⁻¹(sR - eG)` satisfies the verification equation. -/
theorem verifies_of_recovered (hn : c.n.Prime) (hkill : ∀ P : c.Group, c.n • P = 0) {r s e t : ℕ}
    {x y : ZMod c.p} {h : c.curve.Nonsingular x y} (hx : x.val = r) (hr : 1 ≤ r ∧ r < c.n)
    (hs : 1 ≤ s ∧ s < c.n) (ht : r * t ≡ 1 [MOD c.n]) :
    c.Verifies e r s (t • (s • .some x y h - e • c.generator)) := by
  have hcoprime : Nat.Coprime s c.n :=
    (Nat.coprime_of_lt_prime (by omega) hs.2 hn).symm
  obtain ⟨w, -, hw⟩ := Nat.exists_mul_mod_eq_one_of_coprime hcoprime hn.one_lt
  refine ⟨hr, hs, w, hw, x, y, h, ?_, by rw [hx, Nat.mod_eq_of_lt hr.2]⟩
  have hws : w * s ≡ 1 [MOD c.n] := by
    rw [mul_comm, Nat.ModEq, hw, Nat.mod_eq_of_lt hn.one_lt]
  have hscale : r * w % c.n * t ≡ w [MOD c.n] := by
    calc r * w % c.n * t ≡ r * w * t [MOD c.n] := (Nat.mod_modEq _ _).mul_right t
      _ = (r * t) * w := by ring
      _ ≡ 1 * w [MOD c.n] := ht.mul_right w
      _ = w := one_mul w
  have hpoint : (w * s) • (WeierstrassCurve.Affine.Point.some x y h : c.Group) = .some x y h :=
    (smul_congr hkill hws _).trans (one_nsmul _)
  rw [← mul_nsmul', smul_congr hkill hscale, smul_congr hkill (Nat.mod_modEq (e * w) c.n), nsmul_sub,
    ← mul_nsmul', ← mul_nsmul', hpoint, mul_comm w e]
  abel

omit hp in
theorem toBytes32_reduced {z : ℤ} (h : c.Reduced z) : toBytes32 z = .ok (toBytesBig 32 z.toNat) := by
  have hle : (c.p : ℤ) ≤ 2 ^ 256 := by exact_mod_cast c.p_le
  exact if_pos ⟨h.1, h.2.trans_le hle⟩

theorem Stands.reduced {x y : ℤ} {P : c.Group} (h : Stands (some (x, y)) P) :
    c.Reduced x ∧ c.Reduced y := by
  cases h with
  | affine hx hy h => exact ⟨hx, hy⟩

/-- A returned key is a point that verifies. -/
theorem verifies_of_recover (hn : c.n.Prime) (hkill : ∀ P : c.Group, c.n • P = 0)
    {msgHash signature key : Bytes} (h : c.recoverPublicKey msgHash signature = .ok key) :
    ∃ Q : c.Group, Q ≠ 0 ∧ Encodes key Q ∧
      c.Verifies (fromBytesBig msgHash % c.n) (fromBytesBig (signature.take 32))
        (fromBytesBig ((signature.drop 32).take 32)) Q := by
  simp only [recoverPublicKey, parseSignatureRsv, Except.bind_eq_ok, ensure_eq_ok] at h
  obtain ⟨-, -, rsv, ⟨-, -, hrsv⟩, -, ⟨hr, hs⟩, -, -, h⟩ := h
  obtain rfl := Except.pure_eq_ok.mp hrsv
  simp only at h hr hs
  split at h
  · cases h
  · rename_i ry hry
    obtain ⟨hreduced, hpoint⟩ := yFromX_nonsingular hry
    have hrlt := c.n_lt
    have hR : Stands (some (((fromBytesBig (signature.take 32) : ℕ) : ℤ), ry)) _ :=
      .affine ⟨by omega, by omega⟩ hreduced hpoint
    have hdvd : ¬c.n ∣ fromBytesBig (signature.take 32) := Nat.not_dvd_of_pos_of_lt hr.1 hr.2
    obtain ⟨t, ht, hstands, -⟩ :=
      recoverPoint_spec (s := fromBytesBig ((signature.drop 32).take 32))
        (e := fromBytesBig msgHash % c.n) hn hkill hR hdvd
    simp only [Except.bind_eq_ok] at h
    obtain ⟨q, hq, x, hx, y, hy, hkey⟩ := h
    obtain rfl := Except.pure_eq_ok.mp hkey
    have hqs := hstands q hq
    obtain ⟨hqx, hqy⟩ := hqs.reduced
    rw [toBytes32_reduced hqx, raised_ok] at hx
    rw [toBytes32_reduced hqy, raised_ok] at hy
    refine ⟨_, hqs.ne_zero, ⟨q.1, q.2, hqs, ?_⟩, verifies_of_recovered hn hkill ?_ hr hs ht⟩
    · rw [← Except.ok.inj hx, ← Except.ok.inj hy]
    · rw [Int.cast_natCast, ZMod.val_natCast, Nat.mod_eq_of_lt (by omega)]

/-! ## Signatures of a key -/

/-- The bytes of `r || s || v`. -/
def signatureBytes (r s v : ℕ) : Bytes := toBytesBig 32 r ++ toBytesBig 32 s ++ [UInt8.ofNat v]

theorem parse_signatureBytes {r s v : ℕ} (hr : r < 2 ^ 256) (hs : s < 2 ^ 256) (hv : v < 256) :
    parseSignatureRsv (signatureBytes r s v) = .ok (r, s, v) := by
  have hr' : fromBytesBig (toBytesBig 32 r) = r := fromBytesBig_toBytesBig hr
  have hs' : fromBytesBig (toBytesBig 32 s) = s := fromBytesBig_toBytesBig hs
  have hfirst : (signatureBytes r s v).take 32 = toBytesBig 32 r := by
    rw [signatureBytes, List.append_assoc]
    exact List.take_left' (length_toBytesBig 32 r)
  have hrest : (signatureBytes r s v).drop 32 = toBytesBig 32 s ++ [UInt8.ofNat v] := by
    rw [signatureBytes, List.append_assoc]
    exact List.drop_left' (length_toBytesBig 32 r)
  have hsecond : ((signatureBytes r s v).drop 32).take 32 = toBytesBig 32 s := by
    rw [hrest]
    exact List.take_left' (length_toBytesBig 32 s)
  have hlast : (signatureBytes r s v).getD 64 0 = UInt8.ofNat v := by
    simp [signatureBytes]
  have hlength : (signatureBytes r s v).length = 65 := by simp [signatureBytes]
  unfold parseSignatureRsv
  rw [hfirst, hsecond, hlast, hr', hs', toNat_ofNat_small hv]
  simp only [Except.bind_eq_ok, ensure_eq_ok]
  exact ⟨(), hlength, rfl⟩

/-- With the parity of the nonce's point the key of the signer is found. -/
theorem recover_of_signed (hn : c.n.Prime) (hkill : ∀ P : c.Group, c.n • P = 0) {msgHash : Bytes}
    (hlength : msgHash.length = 32) {d k s v : ℕ} {x y : ZMod c.p} {h : c.curve.Nonsingular x y}
    (hd : 1 ≤ d ∧ d < c.n) (hk : k • c.generator = .some x y h) (hx : x.val < c.n)
    (he : fromBytesBig msgHash % c.n ≠ 0) (hs : s ≠ 0 ∧ s < c.n)
    (hsign : k * s ≡ fromBytesBig msgHash + x.val * d [MOD c.n])
    (hv : v ∈ [y.val % 2, 27 + y.val % 2]) :
    ∃ key, c.recoverPublicKey msgHash (signatureBytes x.val s v) = .ok key ∧
      Encodes key (d • c.generator) := by
  have hxne : x.val ≠ 0 := by
    rw [Ne, ZMod.val_eq_zero]
    exact abscissa_ne_zero h
  have hR : Stands (some ((x.val : ℤ), (y.val : ℤ))) (k • c.generator) := by
    rw [hk]
    exact .of_point h
  have hdvd : ∀ {i : ℕ}, 0 < i → i < c.n → ¬c.n ∣ i := Nat.not_dvd_of_pos_of_lt
  have hgenerator : c.generator ≠ 0 := generator_stands.ne_zero
  obtain ⟨t, ht, hstands, hfound⟩ := recoverPoint_spec (s := s)
    (e := fromBytesBig msgHash % c.n) hn hkill hR (hdvd (by omega) hx)
  rw [difference_of_signed hkill hsign] at hstands hfound
  rw [key_of_difference hkill ht] at hstands hfound
  have hdne : d • c.generator ≠ 0 :=
    smul_ne_zero_of_not_dvd hkill hn hgenerator (hdvd (by omega) hd.2)
  have hhash : (fromBytesBig msgHash % c.n) • c.generator ≠ 0 :=
    smul_ne_zero_of_not_dvd hkill hn hgenerator
      (hdvd (by omega) (Nat.mod_lt _ hn.pos))
  have hproduct : (x.val * d) • c.generator ≠ 0 := by
    refine smul_ne_zero_of_not_dvd hkill hn hgenerator ?_
    rw [hn.dvd_mul]
    exact fun hor => hor.elim (hdvd (by omega) hx) (hdvd (by omega) hd.2)
  obtain ⟨q, hq⟩ := hfound hhash hproduct hdne
  have hqs := hstands q hq
  obtain ⟨hqx, hqy⟩ := hqs.reduced
  have hid : (if 27 ≤ v then v - 27 else v) = y.val % 2 := by
    simp only [List.mem_cons, List.not_mem_nil, or_false] at hv
    split_ifs <;> omega
  have hroot : c.yFromX (x.val : ℤ) (decide (y.val % 2 = 1)) = some (y.val : ℤ) := yFromX_point h
  have hple := c.p_le
  have hnlt := c.n_lt
  have hparse : parseSignatureRsv (signatureBytes x.val s v) = .ok (x.val, s, v) := by
    refine parse_signatureBytes (by omega) (by omega) ?_
    simp only [List.mem_cons, List.not_mem_nil, or_false] at hv
    omega
  refine ⟨toBytesBig 32 q.1.toNat ++ toBytesBig 32 q.2.toNat, ?_, q.1, q.2, hqs, rfl⟩
  simp only [recoverPublicKey, hparse, Except.bind_eq_ok, ensure_eq_ok]
  refine ⟨(), hlength, _, rfl, (), ⟨⟨Nat.pos_of_ne_zero hxne, hx⟩, Nat.pos_of_ne_zero hs.1, hs.2⟩, ?_⟩
  simp only [hid, hroot, hq, ok_bind, toBytes32_reduced hqx, toBytes32_reduced hqy, raised_ok]
  refine ⟨(), ?_, rfl⟩
  simp only [List.mem_cons, List.not_mem_nil, or_false]
  omega

/-- Where `p` and `n` are prime and the group has order `n`: a recovered key is a point other than
infinity that verifies the signature, and for the key and the nonce of a signature recovery by the
parity of the nonce's point returns the key. -/
theorem recovery_sound_complete (c : Curve) [Fact c.p.Prime] (hn : c.n.Prime)
    (horder : Nat.card c.Group = c.n) :
    (∀ msgHash signature key : Bytes, c.recoverPublicKey msgHash signature = .ok key →
      ∃ Q : c.Group, Q ≠ 0 ∧ Encodes key Q ∧
        c.Verifies (fromBytesBig msgHash % c.n) (fromBytesBig (signature.take 32))
          (fromBytesBig ((signature.drop 32).take 32)) Q) ∧
      ∀ (msgHash : Bytes) (d k s v : ℕ) (x y : ZMod c.p) (h : c.curve.Nonsingular x y),
        msgHash.length = 32 → 1 ≤ d ∧ d < c.n → k • c.generator = .some x y h → x.val < c.n →
        fromBytesBig msgHash % c.n ≠ 0 → s ≠ 0 ∧ s < c.n →
        k * s ≡ fromBytesBig msgHash + x.val * d [MOD c.n] → v ∈ [y.val % 2, 27 + y.val % 2] →
        ∃ key, c.recoverPublicKey msgHash (signatureBytes x.val s v) = .ok key ∧
          Encodes key (d • c.generator) := by
  have hkill : ∀ P : c.Group, c.n • P = 0 := by
    intro P
    rw [← horder]
    exact card_nsmul_eq_zero'
  refine ⟨fun msgHash signature key h => verifies_of_recover hn hkill h, ?_⟩
  intro msgHash d k s v x y h hlength hd hk hx he hs hsign hv
  exact recover_of_signed hn hkill hlength hd hk hx he hs hsign hv

/-! ## A small curve -/

/-- The same equation over 43 elements, with a group of 31 points. -/
def smallCurve : Curve where
  p := 43
  n := 31
  gx := 2
  gy := 12
  p_mod := by decide
  p_gt := by decide
  p_le := by decide
  n_lt := by decide
  gx_mem := by decide
  gy_mem := by decide
  on_curve := by decide
  seven := by decide +kernel

instance : Fact smallCurve.p.Prime := ⟨by norm_num [smallCurve]⟩

theorem card_smallCurve : Nat.card smallCurve.Group = smallCurve.n := by
  have hpoints : Nat.card {xy : ZMod 43 × ZMod 43 // xy.2 * xy.2 = xy.1 * xy.1 * xy.1 + 7} = 30 := by
    rw [Nat.card_eq_fintype_card]
    decide +kernel
  have hequiv : smallCurve.Group ≃
      Option {xy : ZMod 43 × ZMod 43 // xy.2 * xy.2 = xy.1 * xy.1 * xy.1 + 7} :=
    (WeierstrassCurve.Affine.nonsingularPointEquiv smallCurve.curve).trans
      (Equiv.optionCongr (Equiv.subtypeEquivRight fun _ => nonsingular_iff))
  rw [Nat.card_congr hequiv, Finite.card_option, hpoints]
  rfl

/-- A hash that is 5. -/
def smallHash : Bytes := List.replicate 31 0 ++ [5]

theorem recovery_sound_complete_sample :
    ∃ key, smallCurve.recoverPublicKey smallHash (signatureBytes 2 11 27) = .ok key ∧
      Encodes key (3 • smallCurve.generator) ∧
        ∃ Q : smallCurve.Group, Encodes key Q ∧ smallCurve.Verifies 5 2 11 Q := by
  obtain ⟨hsound, hcomplete⟩ :=
    recovery_sound_complete smallCurve (by norm_num [smallCurve]) card_smallCurve
  have hx : ((smallCurve.gx : ℤ) : ZMod smallCurve.p).val = 2 := by decide
  obtain ⟨key, hkey, hencodes⟩ := hcomplete smallHash 3 1 11 27 _ _ nonsingular_generator (by decide)
    (by decide) (one_nsmul _) (by decide) (by decide +kernel) (by decide) (by decide +kernel)
    (by decide)
  rw [hx] at hkey
  obtain ⟨Q, -, hQ, hverifies⟩ := hsound _ _ _ hkey
  have hhash : fromBytesBig smallHash % smallCurve.n = 5 := by decide +kernel
  have hr : fromBytesBig ((signatureBytes 2 11 27).take 32) = 2 := by decide +kernel
  have hs : fromBytesBig (((signatureBytes 2 11 27).drop 32).take 32) = 11 := by decide +kernel
  rw [hhash, hr, hs] at hverifies
  exact ⟨key, hkey, hencodes, Q, hQ, hverifies⟩

end Curve
end Secp256k1
end Recto
