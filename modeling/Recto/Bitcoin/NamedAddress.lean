import Recto.Bitcoin.AddressRoundTrip
import Recto.Bitcoin.VerifySignature
import Recto.Data.Checked

/-!
# The address a signature names

Whatever is wrong with a signature is a `ValueError` or an `OverflowError`, and
verification turns it into a refusal. Where an address is recovered it is compared
in lower case, whichever encoding it has: Base58Check keeps letters apart that the
comparison does not.
-/

namespace Recto
namespace Bitcoin

open Rlp

/-- The exceptions `verify_signature` turns into a refusal. -/
def Refusal (e : PyError) : Prop := e = .valueError ∨ e = .overflowError

theorem Refusal.value : Refusal .valueError := Or.inl rfl

/-! ## Recovery -/

section
open Secp256k1

variable {c : Curve}

theorem onlyRaises_modInv (a m : ℤ) : OnlyRaises Refusal (modInv a m) := by
  unfold modInv
  split_ifs
  · exact .ok _
  · exact .error .value

theorem onlyRaises_ecAdd (p q : AffinePoint) : OnlyRaises Refusal (c.ecAdd p q) := by
  unfold Curve.ecAdd
  split
  · exact .ok _
  · exact .ok _
  · split_ifs
    · exact .ok _
    · refine .bind ?_ fun lam _ => .ok _
      unfold Curve.slopeOf
      split_ifs
      · exact .bind (onlyRaises_modInv _ _) fun inverse _ => .ok _
      · exact .bind (onlyRaises_modInv _ _) fun inverse _ => .ok _

theorem onlyRaises_doubleAndAdd : ∀ (fuel k : ℕ) (result addend : AffinePoint),
    OnlyRaises Refusal (doubleAndAdd c.ecAdd fuel k result addend) := by
  intro fuel
  induction fuel with
  | zero => exact fun _ _ _ => .ok _
  | succ fuel ih =>
    intro k result addend
    rw [doubleAndAdd]
    split_ifs
    · exact .ok _
    · exact .bind (onlyRaises_ecAdd _ _) fun _ _ => .bind (onlyRaises_ecAdd _ _) fun _ _ => ih _ _ _
    · exact .bind (.ok _) fun _ _ => .bind (onlyRaises_ecAdd _ _) fun _ _ => ih _ _ _

theorem onlyRaises_ecMul (k : ℤ) (p : AffinePoint) : OnlyRaises Refusal (c.ecMul k p) := by
  unfold Curve.ecMul
  split
  · exact .ok _
  · split_ifs
    · exact .ok _
    · exact onlyRaises_doubleAndAdd _ _ _ _
    · exact onlyRaises_doubleAndAdd _ _ _ _

theorem onlyRaises_raised {α : Type} {x : Except PyError α} (h : OnlyRaises Refusal x) :
    OnlyRaises (fun e => Refusal (asPyError e)) (raised x) := .mapError h

theorem onlyRaises_named (fault : RecoverFault) : Refusal (asPyError (.named fault)) := .value

theorem onlyRaises_recoverPoint (r s e : ℕ) (ry : ℤ) :
    OnlyRaises (fun e => Refusal (asPyError e)) (c.recoverPoint r s e ry) := by
  unfold Curve.recoverPoint
  refine .bind (onlyRaises_raised (onlyRaises_modInv _ _)) fun rInv _ => ?_
  refine .bind (onlyRaises_raised (onlyRaises_ecMul _ _)) fun sR _ => ?_
  refine .bind (onlyRaises_raised (onlyRaises_ecMul _ _)) fun eG _ => ?_
  cases eG with
  | none => exact .error (onlyRaises_named _)
  | some eG =>
    refine .bind (onlyRaises_raised (onlyRaises_ecAdd _ _)) fun difference _ => ?_
    cases difference with
    | none => exact .error (onlyRaises_named _)
    | some difference =>
      refine .bind (onlyRaises_raised (onlyRaises_ecMul _ _)) fun q _ => ?_
      cases q with
      | none => exact .error (onlyRaises_named _)
      | some q => exact .ok _

theorem onlyRaises_toBytes32 (n : ℤ) : OnlyRaises Refusal (TypedData.toBytes32 n) := by
  unfold TypedData.toBytes32
  split_ifs
  · exact .ok _
  · exact .error (Or.inr rfl)

theorem onlyRaises_recover (msgHash signature : Bytes) :
    OnlyRaises (fun e => Refusal (asPyError e)) (c.recoverPublicKey msgHash signature) := by
  unfold Curve.recoverPublicKey
  refine .bind (.ensure _ (onlyRaises_named _)) fun _ _ => ?_
  refine .bind (.bind (.ensure _ (onlyRaises_named _)) fun _ _ => .ok _) fun rsv _ => ?_
  refine .bind (.ensure _ (onlyRaises_named _)) fun _ _ => ?_
  refine .bind (.ensure _ (onlyRaises_named _)) fun _ _ => ?_
  split
  · exact .error (onlyRaises_named _)
  · refine .bind (onlyRaises_recoverPoint _ _ _ _) fun q _ => ?_
    refine .bind (onlyRaises_raised (onlyRaises_toBytes32 _)) fun x _ => ?_
    exact .bind (onlyRaises_raised (onlyRaises_toBytes32 _)) fun y _ => .ok _

end

/-! ## Parsing and addresses -/

theorem onlyRaises_parse (sig : CompactSignature) : OnlyRaises Refusal (parseCompactSignature sig) := by
  unfold parseCompactSignature
  refine .bind ?_ fun sigBytes _ => ?_
  · cases sig with
    | raw b => exact .ok _
    | text s =>
      simp only [b64decodeText]
      split_ifs
      · split
        · exact .ok _
        · exact .error .value
      · exact .error .value
  · refine .bind (.ensure _ .value) fun _ _ => ?_
    exact .bind (.ensure _ .value) fun _ _ => .ok _

theorem onlyRaises_recoverPublicKey (msgHash : Bytes) (sig : CompactSignature) :
    OnlyRaises Refusal (recoverPublicKey msgHash sig) := by
  unfold recoverPublicKey
  refine .bind (.ensure _ .value) fun _ _ => ?_
  exact .bind (onlyRaises_parse sig) fun parts _ => .mapError (onlyRaises_recover _ _)

variable (prim : Primitives)

theorem onlyRaises_coinCfg (coin : String) : OnlyRaises Refusal (coinCfg prim.lower coin) := by
  unfold coinCfg
  split
  · exact .ok _
  · exact .error .value

theorem onlyRaises_p2pkhVersionFor (coin network : String) :
    OnlyRaises Refusal (p2pkhVersionFor prim coin network) := by
  unfold p2pkhVersionFor
  refine .bind (onlyRaises_coinCfg prim coin) fun cfg _ => ?_
  split_ifs
  · exact .ok _
  · exact .ok _
  · exact .error .value

theorem onlyRaises_p2shVersionFor (coin network : String) :
    OnlyRaises Refusal (p2shVersionFor prim coin network) := by
  unfold p2shVersionFor
  refine .bind (onlyRaises_coinCfg prim coin) fun cfg _ => ?_
  split_ifs
  · exact .ok _
  · exact .ok _
  · exact .error .value

theorem onlyRaises_hrpFor (coin network : String) : OnlyRaises Refusal (hrpFor prim coin network) := by
  unfold hrpFor
  refine .bind (onlyRaises_coinCfg prim coin) fun cfg _ => ?_
  split_ifs
  · exact .ok _
  · exact .ok _
  · exact .ok _
  · exact .error .value

/-- The groups of a program are digits of the character set: no index is out of range. -/
theorem exists_bech32Encode (hrp : String) (program : Bytes) :
    ∃ addr, bech32Encode hrp program = .ok addr := by
  obtain ⟨converted, pad, hconvert, -, -, hgroups, -⟩ :=
    @Bech32.convertBits_pad 8 5 (by norm_num) (program.map UInt8.toNat) Bech32.toNat_lt_of_mem
  have hdata : ∀ d ∈ 0 :: converted ++ Bech32.createChecksum (chars hrp) (0 :: converted)
      Bech32.bech32Const, d < 32 := by
    refine List.forall_mem_append.mpr ⟨List.forall_mem_cons.mpr ⟨by norm_num, hgroups⟩, ?_⟩
    exact Bech32.createChecksum_lt _ _ _
  have hversion : ¬((0 : ℤ) < 0 ∨ 16 < (0 : ℤ)) := by norm_num
  refine ⟨String.ofList (chars hrp ++ '1' :: List.map Bech32.charOf
    (0 :: converted ++ Bech32.createChecksum (chars hrp) (0 :: converted) Bech32.bech32Const)), ?_⟩
  rw [bech32Encode, Bech32.encode, if_neg hversion]
  simp only [hconvert, if_true, Int.toNat_zero, Bech32.mapM_charset hdata]
  rfl

theorem onlyRaises_addressFromPublicKey (pubkey64 : Bytes) (network : String) (kind : AddressKind)
    (coin : String) : OnlyRaises Refusal (addressFromPublicKey prim pubkey64 network kind coin) := by
  unfold addressFromPublicKey
  refine .bind (onlyRaises_coinCfg prim coin) fun cfg _ => ?_
  refine .bind (.bind (.ensure _ .value) fun _ _ => .ok _) fun pub33 _ => ?_
  cases kind with
  | p2wpkh =>
    refine .bind (onlyRaises_hrpFor prim coin network) fun hrp _ => ?_
    cases hrp with
    | none => exact .error .value
    | some hrp =>
      obtain ⟨addr, haddr⟩ := exists_bech32Encode hrp (hash160 prim.sha256 pub33)
      simp only [haddr]
      exact .ok addr
  | p2pkh => exact .bind (onlyRaises_p2pkhVersionFor prim coin network) fun version _ => .ok _
  | p2shP2wpkh => exact .bind (onlyRaises_p2shVersionFor prim coin network) fun version _ => .ok _
  | p2pkhUncompressed => exact .error .value

theorem onlyRaises_recoverAddress (msgHash : Bytes) (sig : CompactSignature) (network coin : String) :
    OnlyRaises Refusal (recoverAddress prim msgHash sig network coin) := by
  unfold recoverAddress
  refine .bind (onlyRaises_recoverPublicKey msgHash sig) fun pubkey _ => ?_
  refine .bind (onlyRaises_parse sig) fun parts _ => ?_
  split_ifs
  · exact .bind (onlyRaises_p2pkhVersionFor prim coin network) fun version _ => .ok _
  · exact onlyRaises_addressFromPublicKey prim _ _ _ _

/-! ## Verification -/

variable (msgHash : Bytes) (sig : CompactSignature) (expectedAddress network coin : String)

/-- The address the signature recovers, and its kind. -/
def Recovers (recovered : String) (kind : AddressKind) : Prop :=
  recoverAddress prim msgHash sig network coin = .ok recovered ∧
    ∃ parts, parseCompactSignature sig = .ok parts ∧ parts.kind = kind

/-- A verdict and no exception, a refusal where nothing is recovered, and an acceptance only of
the one address: letter for letter in Base58Check, and up to case in bech32. -/
structure NamesOneAddress : Prop where
  answers : ∃ verdict, verifySignature prim msgHash sig expectedAddress network coin = .ok verdict
  malformed : (∀ recovered, recoverAddress prim msgHash sig network coin ≠ .ok recovered) →
    verifySignature prim msgHash sig expectedAddress network coin = .ok false
  names : verifySignature prim msgHash sig expectedAddress network coin = .ok true →
    ∃ recovered kind, Recovers prim msgHash sig network coin recovered kind ∧
      if kind.isBase58 then expectedAddress = recovered
      else prim.lower expectedAddress = prim.lower recovered

/-- The expected address is the recovered Base58Check address with other capitals. -/
def OtherCapitals : Prop :=
  ∃ recovered kind, Recovers prim msgHash sig network coin recovered kind ∧ kind.isBase58 = true ∧
    expectedAddress ≠ recovered ∧ prim.lower recovered = prim.lower expectedAddress

theorem exists_kind {recovered : String}
    (h : recoverAddress prim msgHash sig network coin = .ok recovered) :
    ∃ kind, Recovers prim msgHash sig network coin recovered kind := by
  obtain ⟨pubkey, -, hrest⟩ := Except.bind_eq_ok.mp h
  obtain ⟨parts, hparts, -⟩ := Except.bind_eq_ok.mp hrest
  exact ⟨parts.kind, h, parts, hparts, rfl⟩

theorem Recovers.unique {r r' : String} {k k' : AddressKind}
    (h : Recovers prim msgHash sig network coin r k) (h' : Recovers prim msgHash sig network coin r' k') :
    r = r' ∧ k = k' := by
  obtain ⟨hr, parts, hparts, rfl⟩ := h
  obtain ⟨hr', parts', hparts', rfl⟩ := h'
  rw [hr] at hr'
  rw [hparts] at hparts'
  exact ⟨Except.ok.inj hr', congrArg CompactParts.kind (Except.ok.inj hparts')⟩

theorem verifySignature_of_error {e : PyError}
    (h : recoverAddress prim msgHash sig network coin = .error e) :
    verifySignature prim msgHash sig expectedAddress network coin = .ok false := by
  rw [verifySignature, h]
  rcases onlyRaises_recoverAddress prim msgHash sig network coin e h with rfl | rfl <;> rfl

/-- SHA-256 on what the sample hashes, and ASCII letters in lower case. -/
def samplePrimitives : Primitives where
  lower := Recto.lower
  sha256 data :=
    ([("02871e0c836ec675e07395aef58d72b646f77e0e33ce1622dfaa0fb8e131f3fe12",
        "6050720804155504653da3ed7c4ccfad4869c6355b979b0f010f8ae301e58fc6"),
      ("002a5259f1728e4ef3106f54eefd1ce085076eddb9",
        "03ce3490350c2d8f573bc97a09891d7b62975f1bb5d098684aee6e208fb488f7"),
      ("03ce3490350c2d8f573bc97a09891d7b62975f1bb5d098684aee6e208fb488f7",
        "765428dcf2ed7a4edc86c11510d86ad1aa144ec83b44d6e8ba1bc8b8f72da310")].lookup (hex data)).elim []
      fun digest => (fromHex digest).getD []

/-- The hash 1, and the signature with `r = s = 1` of a compressed P2PKH address. -/
def sampleHash : Bytes := toBytesBig 32 1

def sampleSignature : CompactSignature := .raw (31 :: (toBytesBig 32 1 ++ toBytesBig 32 1))

end Bitcoin
end Recto
