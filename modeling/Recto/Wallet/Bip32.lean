import Recto.Ethereum.RlpCanonical
import Recto.Ethereum.Secp256k1
import Recto.Wallet.DerivationPath

/-!
# Derived keys of the phone

A key derived along a path is the master key plus the left halves of the hashes
met on the way, modulo the order of the curve. The hash and the multiplication of
the generator are parameters.
-/

namespace Recto
namespace Wallet

open Rlp Secp256k1

/-- HMAC-SHA512 and the curve library. -/
structure Primitives where
  /-- `new HMACSHA512(key).ComputeHash(data)` -/
  hmacSha512 : Bytes → Bytes → Bytes
  length_hmacSha512 : ∀ key data, (hmacSha512 key data).length = 64
  /-- The affine coordinates of `G.Multiply(d).Normalize()`. -/
  multiply : ℕ → ℕ × ℕ

/-- `Secp256k1.N` -/
def order : ℕ := secp256k1.n

/-- `Bip32.ExtendedKey` -/
structure ExtendedKey where
  privateKey : Bytes
  chainCode : Bytes
  length_privateKey : privateKey.length = 32
  length_chainCode : chainCode.length = 32

/-- The constructor, with its checks. -/
def extendedKey (privateKey chainCode : Bytes) : Except Bip32Error ExtendedKey :=
  if hkey : privateKey.length = 32 then
    if hcode : chainCode.length = 32 then .ok ⟨privateKey, chainCode, hkey, hcode⟩
    else .error (.argument "BIP-32 chain code must be 32 bytes.")
  else .error (.argument "BIP-32 private key must be 32 bytes.")

/-- The private key as a number. -/
def ExtendedKey.secret (key : ExtendedKey) : ℕ := fromBytesBig key.privateKey

/-- `UnsignedFixed32` -/
def unsignedFixed32 (value : ℕ) : Except Bip32Error Bytes :=
  if value < 256 ^ 32 then .ok (toBytesBig 32 value)
  else .error (.invalidOperation "Value exceeds 32 bytes.")

/-- `ValidateInRange` -/
def validateInRange (privateKey : Bytes) : Except Bip32Error Unit :=
  ensure (fromBytesBig privateKey ≠ 0 ∧ fromBytesBig privateKey < order)
    (.invalidOperation ("BIP-32 master derivation produced an out-of-range key. " ++
      "Regenerate from a fresh seed."))

section
variable (P : Primitives)

/-- `Bip32.MasterFromSeed` -/
def masterFromSeed (seed : Bytes) : Except Bip32Error ExtendedKey := do
  ensure (seed.length = 64) (.argument "BIP-32 seed must be 64 bytes.")
  let i := P.hmacSha512 (utf8 "Bitcoin seed") seed
  validateInRange (i.take 32)
  extendedKey (i.take 32) (i.drop 32)

/-- `CompressedPublicKey` -/
def compressedPublicKey (privateKey : Bytes) : Except Bip32Error Bytes := do
  let q := P.multiply (fromBytesBig privateKey)
  let x ← unsignedFixed32 q.1
  return (if q.2 % 2 = 1 then 3 else 2) :: x

/-- What is hashed for a child. -/
def childData (parent : ExtendedKey) (index : ℕ) : Except Bip32Error Bytes :=
  if index &&& hardenedOffset ≠ 0 then .ok (0 :: parent.privateKey ++ toBytesBig 4 index)
  else do
    let compressedPub ← compressedPublicKey P parent.privateKey
    return compressedPub ++ toBytesBig 4 index

/-- The hash of a child. -/
def childHash (parent : ExtendedKey) (index : ℕ) : Except Bip32Error Bytes := do
  return P.hmacSha512 parent.chainCode (← childData P parent index)

/-- `Bip32.DeriveChild` -/
def deriveChild (parent : ExtendedKey) (index : ℕ) : Except Bip32Error ExtendedKey := do
  let i ← childHash P parent index
  let il := fromBytesBig (i.take 32)
  ensure (il < order) (.invalidOperation ("BIP-32 child derivation: IL ≥ n at index " ++
    toString index ++ ". Skip to next index per BIP-32 spec."))
  let child := (il + parent.secret) % order
  ensure (child ≠ 0) (.invalidOperation ("BIP-32 child derivation: child private key = 0 at index " ++
    toString index ++ ". Skip to next index."))
  extendedKey (← unsignedFixed32 child) (i.drop 32)

/-- The loop of `DeriveAtPath`. -/
def deriveAlong (node : ExtendedKey) (indices : List ℕ) : Except Bip32Error ExtendedKey :=
  indices.foldlM (deriveChild P) node

/-- `Bip32.DeriveAtPath` -/
def deriveAtPath (seed : Bytes) (path : String) : Except Bip32Error ExtendedKey := do
  let indices ← parsePath path
  let node ← masterFromSeed P seed
  deriveAlong P node indices

/-- The left halves met along a path, as numbers. -/
def ilsAlong : ExtendedKey → List ℕ → Except Bip32Error (List ℕ)
  | _, [] => .ok []
  | node, index :: indices => do
      let i ← childHash P node index
      let next ← deriveChild P node index
      return fromBytesBig (i.take 32) :: (← ilsAlong next indices)

end

/-- A private key the curve accepts. -/
def ExtendedKey.InRange (key : ExtendedKey) : Prop := 1 ≤ key.secret ∧ key.secret < order

theorem extendedKey_eq_ok {privateKey chainCode : Bytes} {key : ExtendedKey}
    (h : extendedKey privateKey chainCode = .ok key) : key.privateKey = privateKey := by
  unfold extendedKey at h
  split_ifs at h
  obtain rfl := Except.ok.inj h
  rfl

theorem order_lt : order < 256 ^ 32 := by decide +kernel

section
variable {P : Primitives} {seed : Bytes} {node key : ExtendedKey} {index : ℕ} {indices : List ℕ}
  {path : String}

theorem masterFromSeed_inRange (h : masterFromSeed P seed = .ok key) : key.InRange := by
  simp only [masterFromSeed, validateInRange, Except.bind_eq_ok, ensure_eq_ok] at h
  obtain ⟨_, -, _, ⟨hne, hlt⟩, hkey⟩ := h
  rw [ExtendedKey.InRange, ExtendedKey.secret, extendedKey_eq_ok hkey]
  exact ⟨Nat.one_le_iff_ne_zero.mpr hne, hlt⟩

/-- One step: the key in range, and the sum modulo the order. -/
theorem deriveChild_secret (h : deriveChild P node index = .ok key) :
    key.InRange ∧ ∃ i, childHash P node index = .ok i ∧
      key.secret = (fromBytesBig (i.take 32) + node.secret) % order := by
  simp only [deriveChild, unsignedFixed32, Except.bind_eq_ok, ensure_eq_ok] at h
  obtain ⟨i, hi, _, -, _, hne, raw, hraw, hkey⟩ := h
  have hlt : (fromBytesBig (i.take 32) + node.secret) % order < order :=
    Nat.mod_lt _ (by decide +kernel)
  rw [if_pos (hlt.trans order_lt)] at hraw
  have hsecret : key.secret = (fromBytesBig (i.take 32) + node.secret) % order := by
    rw [ExtendedKey.secret, extendedKey_eq_ok hkey, ← Except.ok.inj hraw,
      fromBytesBig_toBytesBig (hlt.trans order_lt)]
  rw [ExtendedKey.InRange, hsecret]
  exact ⟨⟨Nat.one_le_iff_ne_zero.mpr hne, hlt⟩, i, hi, rfl⟩

/-- Along a path the key stays in range and adds up the left halves. -/
theorem deriveAlong_secret (hnode : node.InRange) (h : deriveAlong P node indices = .ok key) :
    key.InRange ∧ ∃ ils, ilsAlong P node indices = .ok ils ∧
      key.secret = (node.secret + ils.sum) % order := by
  induction indices generalizing node with
  | nil =>
    obtain rfl := Except.ok.inj h
    exact ⟨hnode, [], rfl, (Nat.mod_eq_of_lt hnode.2).symm⟩
  | cons index indices ih =>
    rw [deriveAlong, List.foldlM_cons, Except.bind_eq_ok] at h
    obtain ⟨next, hnext, hrest⟩ := h
    obtain ⟨hrange, i, hi, hsecret⟩ := deriveChild_secret hnext
    obtain ⟨hkey, ils, hils, hsum⟩ := ih hrange hrest
    refine ⟨hkey, fromBytesBig (i.take 32) :: ils, ?_, ?_⟩
    · rw [ilsAlong, hi, ok_bind, hnext, ok_bind, hils]
      rfl
    · rw [hsum, hsecret, List.sum_cons, Nat.mod_add_mod]
      congr 1
      omega

theorem deriveAtPath_secret (h : deriveAtPath P seed path = .ok key) :
    ∃ indices master ils, parsePath path = .ok indices ∧ masterFromSeed P seed = .ok master ∧
      ilsAlong P master indices = .ok ils ∧ key.InRange ∧
      key.secret = (master.secret + ils.sum) % order := by
  simp only [deriveAtPath, Except.bind_eq_ok] at h
  obtain ⟨indices, hpath, master, hmaster, halong⟩ := h
  obtain ⟨hrange, ils, hils, hsum⟩ := deriveAlong_secret (masterFromSeed_inRange hmaster) halong
  exact ⟨indices, master, ils, hpath, hmaster, hils, hrange, hsum⟩

end

/-- A path means what the documentation says exactly when it has no tolerated spelling, or is
refused on both sides; and a derived key is always in range and the sum along the path. -/
theorem derivationPath_documented_iff (P : Primitives) (path : String) :
    ((parsePath path).toOption = documentedPath path ∧
        ∀ seed key, deriveAtPath P seed path = .ok key →
          ∃ indices master ils, parsePath path = .ok indices ∧ masterFromSeed P seed = .ok master ∧
            ilsAlong P master indices = .ok ils ∧ (1 ≤ key.secret ∧ key.secret < order) ∧
            key.secret = (master.secret + ils.sum) % order) ↔
      trim (chars path) = [] ∨ Garbled (trim (chars path)) ∨ TidyPath (trim (chars path)) := by
  rw [toOption_parsePath_eq_iff]
  exact and_iff_left fun seed key => deriveAtPath_secret

/-- A doubled separator and a sign are let through. -/
theorem parsePath_tolerates : ¬∀ path : String, (parsePath path).toOption = documentedPath path := by
  intro h
  exact absurd (h "m/44'//+5") (by decide +kernel)

end Wallet
end Recto
