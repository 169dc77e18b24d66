import Recto.Data.DoubleAndAdd
import Recto.Ethereum.EncodeValue

/-!
# Key recovery

The verify side of secp256k1 in `recto/ethereum.py`: addition and multiplication
of affine points, the root that gives `y` from `x`, and the recovery of a public
key from a signature. The constants of the curve are a parameter, with what the
module relies on of them.
-/

namespace Recto
namespace Secp256k1

open Rlp TypedData

/-! ## Arithmetic of Python -/

/-- `pow(b, e, m)`, with as much fuel as `e` has bits. -/
def modPow (m : ℤ) : ℕ → ℤ → ℕ → ℤ
  | 0, _, _ => 1 % m
  | fuel + 1, b, e =>
      if e = 0 then 1 % m
      else if e % 2 = 1 then b * modPow m fuel (b * b % m) (e / 2) % m
      else modPow m fuel (b * b % m) (e / 2)

/-- `_modinv`: `pow(a, -1, m)` -/
def modInv (a m : ℤ) : Except PyError ℤ :=
  if Int.gcd a m = 1 then .ok (Int.gcdA a m % m) else .error .valueError

/-- The root of a residue, when `p` is 3 modulo 4. -/
def rootOf (p : ℕ) (rhs : ℤ) : ℤ := modPow p (((p + 1) / 4).log2 + 1) rhs ((p + 1) / 4)

/-! ## The curve -/

/-- `_SECP256K1_P`, `_SECP256K1_N`, `_SECP256K1_GX`, `_SECP256K1_GY` -/
structure Curve where
  p : ℕ
  n : ℕ
  gx : ℤ
  gy : ℤ
  p_mod : p % 4 = 3
  p_gt : 7 < p
  p_le : p ≤ 2 ^ 256
  n_lt : n < p
  gx_mem : 0 ≤ gx ∧ gx < p
  gy_mem : 0 ≤ gy ∧ gy < p
  on_curve : gy * gy % p = (gx * gx * gx + 7) % p
  /-- No point lies over `x = 0`. -/
  seven : rootOf p 7 * rootOf p 7 % p ≠ 7

def secp256k1 : Curve where
  p := 0xFFFFFFFFFFFFFFFFFFFFFFFFFFFFFFFFFFFFFFFFFFFFFFFFFFFFFFFEFFFFFC2F
  n := 0xFFFFFFFFFFFFFFFFFFFFFFFFFFFFFFFEBAAEDCE6AF48A03BBFD25E8CD0364141
  gx := 0x79BE667EF9DCBBAC55A06295CE870B07029BFCDB2DCE28D959F2815B16F81798
  gy := 0x483ADA7726A3C4655DA4FBFC0E1108A8FD17B448A68554199C47D08FFB10D4B8
  p_mod := by decide +kernel
  p_gt := by decide +kernel
  p_le := by decide +kernel
  n_lt := by decide +kernel
  gx_mem := by decide +kernel
  gy_mem := by decide +kernel
  on_curve := by decide +kernel
  seven := by decide +kernel

/-- A point in affine coordinates; `None` is the point at infinity. -/
abbrev AffinePoint := Option (ℤ × ℤ)

namespace Curve

variable (c : Curve)

/-- `lam`, of the tangent where the abscissas are equal and of the secant elsewhere. -/
def slopeOf (x1 y1 x2 y2 : ℤ) : Except PyError ℤ :=
  if x1 = x2 then do
    let inverse ← modInv (2 * y1 % c.p) c.p
    pure (3 * x1 * x1 * inverse % c.p)
  else do
    let inverse ← modInv ((x2 - x1) % c.p) c.p
    pure ((y2 - y1) * inverse % c.p)

/-- `_ec_add` -/
def ecAdd (p1 p2 : AffinePoint) : Except PyError AffinePoint :=
  match p1, p2 with
  | none, p2 => .ok p2
  | some p1, none => .ok (some p1)
  | some (x1, y1), some (x2, y2) =>
      if x1 = x2 ∧ (y1 + y2) % c.p = 0 then .ok none
      else do
        let lam ← c.slopeOf x1 y1 x2 y2
        let x3 := (lam * lam - x1 - x2) % c.p
        pure (some (x3, (lam * (x1 - x3) - y1) % c.p))

/-- `(p[0], (-p[1]) % _SECP256K1_P)` -/
def negate (pt : ℤ × ℤ) : ℤ × ℤ := (pt.1, -pt.2 % c.p)

/-- `_ec_mul` -/
def ecMul (k : ℤ) (pt : AffinePoint) : Except PyError AffinePoint :=
  match pt with
  | none => .ok none
  | some pt =>
      if k % c.n = 0 then .ok none
      else doubleAndAdd c.ecAdd (k.natAbs.log2 + 1) k.natAbs none
        (some (if k < 0 then c.negate pt else pt))

/-- `_y_from_x` -/
def yFromX (x : ℤ) (yIsOdd : Bool) : Option ℤ :=
  let rhs := (x * x * x + 7) % c.p
  let y := rootOf c.p rhs
  if y * y % c.p ≠ rhs then none
  else if y % 2 ≠ (if yIsOdd then 1 else 0) then some (-y % c.p)
  else some y

end Curve

/-! ## Recovery -/

/-- The `ValueError`s of `recover_public_key`. -/
inductive RecoverFault where
  | hashLength (length : ℕ)
  | signatureLength (length : ℕ)
  | outOfRange
  | recoveryId (id : ℕ)
  | notACoordinate
  | hashAtInfinity
  | differenceAtInfinity
  | keyAtInfinity
  deriving DecidableEq, Repr

/-- What Python's own arithmetic raises. -/
def raised {α : Type} (x : Except PyError α) : Except (Refused RecoverFault) α :=
  x.mapError .raised

/-- `parse_signature_rsv`, of bytes. -/
def parseSignatureRsv (signature : Bytes) : Except (Refused RecoverFault) (ℕ × ℕ × ℕ) := do
  ensure (signature.length = 65) (.named (.signatureLength signature.length))
  pure (fromBytesBig (signature.take 32), fromBytesBig ((signature.drop 32).take 32),
    (signature.getD 64 0).toNat)

namespace Curve

variable (c : Curve)

/-- The point `r^-1 * (s*R - e*G)`. -/
def recoverPoint (r s e : ℕ) (ry : ℤ) : Except (Refused RecoverFault) (ℤ × ℤ) := do
  let rInv ← raised (modInv r c.n)
  let sR ← raised (c.ecMul s (some ((r : ℤ), ry)))
  match ← raised (c.ecMul e (some (c.gx, c.gy))) with
  | none => .error (.named .hashAtInfinity)
  | some eG =>
      match ← raised (c.ecAdd sR (some (c.negate eG))) with
      | none => .error (.named .differenceAtInfinity)
      | some difference =>
          match ← raised (c.ecMul rInv (some difference)) with
          | none => .error (.named .keyAtInfinity)
          | some q => pure q

/-- `recover_public_key`, of a signature in bytes. -/
def recoverPublicKey (msgHash signature : Bytes) : Except (Refused RecoverFault) Bytes := do
  ensure (msgHash.length = 32) (.named (.hashLength msgHash.length))
  let rsv ← parseSignatureRsv signature
  ensure ((1 ≤ rsv.1 ∧ rsv.1 < c.n) ∧ 1 ≤ rsv.2.1 ∧ rsv.2.1 < c.n) (.named .outOfRange)
  let recId := if 27 ≤ rsv.2.2 then rsv.2.2 - 27 else rsv.2.2
  ensure (recId ∈ [0, 1]) (.named (.recoveryId recId))
  match c.yFromX rsv.1 (recId = 1) with
  | none => .error (.named .notACoordinate)
  | some ry => do
      let q ← c.recoverPoint rsv.1 rsv.2.1 (fromBytesBig msgHash % c.n) ry
      let x ← raised (toBytes32 q.1)
      let y ← raised (toBytes32 q.2)
      pure (x ++ y)

end Curve

end Secp256k1
end Recto
