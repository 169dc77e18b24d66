import Mathlib.Data.Nat.Bitwise
import Recto.Text.Chars

/-!
# Cyclic redundancy checks

A register that is fed the bits of a message, the highest bit of each byte
first. Feeding is linear over "exclusive or", and it loses nothing of the
register when the polynomial has a constant term.
-/

namespace Recto
namespace Crc

variable {w : ℕ} {poly : BitVec w}

/-- One step of the register. -/
def shift (poly r : BitVec w) : BitVec w := if r.msb then (r <<< 1) ^^^ poly else r <<< 1

def shifts (poly : BitVec w) : ℕ → BitVec w → BitVec w
  | 0, r => r
  | n + 1, r => shifts poly n (shift poly r)

/-- A byte added to the top of the register, and eight steps. -/
def feed (poly r : BitVec w) (byte : UInt8) : BitVec w :=
  shifts poly 8 (r ^^^ (BitVec.ofNat w byte.toNat <<< (w - 8)))

/-- The register after a message. -/
def feedAll (poly r : BitVec w) (message : Bytes) : BitVec w := message.foldl (feed poly) r

theorem feedAll_append (poly r : BitVec w) (xs ys : Bytes) :
    feedAll poly r (xs ++ ys) = feedAll poly (feedAll poly r xs) ys := List.foldl_append

/-! ## Differences -/

theorem shift_xor (poly a b : BitVec w) :
    shift poly (a ^^^ b) = shift poly a ^^^ shift poly b := by
  simp only [shift, BitVec.msb_xor, BitVec.shiftLeft_xor_distrib]
  cases a.msb <;> cases b.msb
  · rfl
  · exact (BitVec.xor_assoc _ _ _)
  · simp only [Bool.xor_false, if_true, Bool.false_eq_true, if_false]
    rw [BitVec.xor_assoc, BitVec.xor_comm (b <<< 1), ← BitVec.xor_assoc]
  · simp only [Bool.xor_self, if_true, Bool.false_eq_true, if_false]
    rw [BitVec.xor_assoc, BitVec.xor_comm poly, BitVec.xor_assoc, BitVec.xor_self, BitVec.xor_zero]

theorem shifts_xor (poly : BitVec w) (n : ℕ) (a b : BitVec w) :
    shifts poly n (a ^^^ b) = shifts poly n a ^^^ shifts poly n b := by
  induction n generalizing a b with
  | zero => rfl
  | succ n ih => rw [shifts, shift_xor, ih, shifts, shifts]

theorem ofNat_xor (x y : UInt8) : BitVec.ofNat w (x ^^^ y).toNat =
    BitVec.ofNat w x.toNat ^^^ BitVec.ofNat w y.toNat := by
  rw [UInt8.toNat_xor, BitVec.ofNat_xor]

theorem feed_xor (poly a b : BitVec w) (x y : UInt8) :
    feed poly (a ^^^ b) (x ^^^ y) = feed poly a x ^^^ feed poly b y := by
  rw [feed, ofNat_xor, BitVec.shiftLeft_xor_distrib, feed, feed, ← shifts_xor]
  congr 1
  rw [BitVec.xor_assoc, BitVec.xor_assoc, ← BitVec.xor_assoc b, BitVec.xor_comm b,
    BitVec.xor_assoc]

/-- The register of a difference is the difference of the registers. -/
theorem feedAll_xor (poly : BitVec w) : ∀ (a b : BitVec w) {xs ys : Bytes}, xs.length = ys.length →
    feedAll poly (a ^^^ b) (List.zipWith (· ^^^ ·) xs ys) = feedAll poly a xs ^^^ feedAll poly b ys := by
  intro a b xs
  induction xs generalizing a b with
  | nil =>
    intro ys hlength
    rw [List.eq_nil_of_length_eq_zero hlength.symm]
    rfl
  | cons x xs ih =>
    intro ys hlength
    cases ys with
    | nil => cases hlength
    | cons y ys =>
      have hstep := ih (feed poly a x) (feed poly b y) (Nat.succ.inj hlength)
      rw [← feed_xor] at hstep
      exact hstep

/-! ## Nothing of the register is lost -/

theorem shift_eq_zero (hpoly : poly.getLsbD 0 = true) {r : BitVec w} (h : shift poly r = 0) :
    r = 0 := by
  have hlow : (r <<< 1).getLsbD 0 = false := by simp
  unfold shift at h
  split_ifs at h with hmsb
  · rw [BitVec.xor_eq_zero_iff.mp h, hpoly] at hlow
    cases hlow
  · refine BitVec.eq_of_getLsbD_eq fun i hi => ?_
    have hzero : (0 : BitVec w).getLsbD i = false := BitVec.getLsbD_zero
    rw [hzero]
    by_cases htop : i = w - 1
    · rw [htop, ← BitVec.msb_eq_getLsbD_last]
      exact Bool.eq_false_of_not_eq_true hmsb
    · have hbit := congrArg (fun v : BitVec w => v.getLsbD (i + 1)) h
      rw [BitVec.getLsbD_eq_getElem hi]
      simpa [BitVec.getLsbD_shiftLeft, show i + 1 < w by omega] using hbit

theorem shift_injective (hpoly : poly.getLsbD 0 = true) : Function.Injective (shift poly) := by
  intro a b h
  rw [← BitVec.xor_eq_zero_iff, ← shift_xor] at h
  exact BitVec.xor_eq_zero_iff.mp (shift_eq_zero hpoly h)

theorem shifts_injective (hpoly : poly.getLsbD 0 = true) (n : ℕ) :
    Function.Injective (shifts poly n) := by
  induction n with
  | zero => exact fun _ _ h => h
  | succ n ih => exact ih.comp (shift_injective hpoly)

theorem feedAll_injective (hpoly : poly.getLsbD 0 = true) (message : Bytes) {a b : BitVec w}
    (h : feedAll poly a message = feedAll poly b message) : a = b := by
  induction message generalizing a b with
  | nil => exact h
  | cons x message ih =>
    have hfeed : feed poly a x = feed poly b x := ih h
    exact (BitVec.xor_left_inj _).mp (shifts_injective hpoly 8 hfeed)

end Crc
end Recto
