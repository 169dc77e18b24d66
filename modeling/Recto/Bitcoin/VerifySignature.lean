import Recto.Bitcoin.Bech32
import Recto.Bitcoin.Ripemd160
import Recto.Codes.ClientBucket
import Recto.Ethereum.Secp256k1
import Recto.Text.Base58

/-!
# Signatures of the Bitcoin family

A compact signature names the kind of address it was made for. `verify_signature`
recovers the key, gives it the address of that kind, and compares. `str.lower`
and SHA-256 are parameters.
-/

namespace Recto
namespace Bitcoin

open Rlp

/-- What the module takes from Python. -/
structure Primitives where
  lower : String → String
  sha256 : Bytes → Bytes

/-- A signature as the functions take it. -/
inductive CompactSignature where
  | text (s : String)
  | raw (b : Bytes)
  deriving DecidableEq, Repr

/-- The kinds of address. -/
inductive AddressKind where
  | p2pkhUncompressed
  | p2pkh
  | p2shP2wpkh
  | p2wpkh
  deriving DecidableEq, Repr

namespace AddressKind

/-- The address is Base58Check. -/
def isBase58 : AddressKind → Bool
  | p2wpkh => false
  | _ => true

end AddressKind

/-- `r, s, recovery_id, address_kind` -/
structure CompactParts where
  r : ℕ
  s : ℕ
  recoveryId : ℕ
  kind : AddressKind
  deriving DecidableEq, Repr

/-- `base64.b64decode(sig.strip(), validate=False)` -/
def b64decodeText (s : String) : Except PyError Bytes :=
  let cs := Codes.stripBlanks (chars s)
  if cs.all fun c => c.toNat < 128 then
    match a2bBase64 cs 0 0 0 with
    | some raw => .ok raw
    | none => .error .valueError
  else .error .valueError

/-- `parse_compact_signature` -/
def parseCompactSignature (sig : CompactSignature) : Except PyError CompactParts := do
  let sigBytes ← (match sig with
    | .text s => b64decodeText s
    | .raw b => .ok b)
  ensure (sigBytes.length = 65) .valueError
  let header := (sigBytes.getD 0 0).toNat
  ensure (27 ≤ header ∧ header ≤ 42) .valueError
  let rel := header - 27
  let (recoveryId, kind) :=
    if rel < 4 then (rel, AddressKind.p2pkhUncompressed)
    else if rel < 8 then (rel - 4, .p2pkh)
    else if rel < 12 then (rel - 8, .p2shP2wpkh)
    else (rel - 12, .p2wpkh)
  pure { r := fromBytesBig ((sigBytes.drop 1).take 32), s := fromBytesBig ((sigBytes.drop 33).take 32)
         recoveryId, kind }

/-- `_ethereum_rsv_from_btc` -/
def ethereumRsvFromBtc (r s recoveryId : ℕ) : Bytes :=
  toBytesBig 32 r ++ toBytesBig 32 s ++ [UInt8.ofNat (27 + recoveryId)]

/-- The exception that a refusal of `recto.ethereum` is. -/
def asPyError : Refused Secp256k1.RecoverFault → PyError
  | .named _ => .valueError
  | .raised e => e

/-- `recover_public_key` -/
def recoverPublicKey (msgHash : Bytes) (sig : CompactSignature) : Except PyError Bytes := do
  ensure (msgHash.length = 32) .valueError
  let parts ← parseCompactSignature sig
  (Secp256k1.secp256k1.recoverPublicKey msgHash
    (ethereumRsvFromBtc parts.r parts.s parts.recoveryId)).mapError asPyError

/-- `compress_public_key` -/
def compressPublicKey (pubkey64 : Bytes) : Except PyError Bytes := do
  ensure (pubkey64.length = 64) .valueError
  let y := fromBytesBig (pubkey64.drop 32)
  pure (UInt8.ofNat (0x02 + y % 2) :: pubkey64.take 32)

variable (prim : Primitives)

/-- `_hrp_for` -/
def hrpFor (coin network : String) : Except PyError (Option String) := do
  let cfg ← coinCfg prim.lower coin
  if network = "mainnet" then pure cfg.bech32HrpMainnet
  else if network = "testnet" ∨ network = "signet" then pure cfg.bech32HrpTestnet
  else if network = "regtest" then pure cfg.bech32HrpRegtest
  else .error .valueError

/-- `_p2pkh_version_for` -/
def p2pkhVersionFor (coin network : String) : Except PyError UInt8 := do
  let cfg ← coinCfg prim.lower coin
  if network = "mainnet" then pure cfg.p2pkhVersionMainnet
  else if network = "testnet" ∨ network = "signet" ∨ network = "regtest" then
    pure cfg.p2pkhVersionTestnet
  else .error .valueError

/-- `_p2sh_version_for` -/
def p2shVersionFor (coin network : String) : Except PyError UInt8 := do
  let cfg ← coinCfg prim.lower coin
  if network = "mainnet" then pure cfg.p2shVersionMainnet
  else if network = "testnet" ∨ network = "signet" ∨ network = "regtest" then
    pure cfg.p2shVersionTestnet
  else .error .valueError

/-- `_base58check_encode` -/
def base58checkEncode (payload : Bytes) : String := Base58.Bitcoin.base58checkEncode prim.sha256 payload

/-- `bech32_encode`, with what it raises. -/
def bech32Encode (hrp : String) (program : Bytes) : Except PyError String :=
  (Bech32.encode hrp 0 program).mapError fun e =>
    match e with
    | .indexError => .indexError
    | _ => .valueError

/-- `address_from_public_key`, of a kind that is given. -/
def addressFromPublicKey (pubkey64 : Bytes) (network : String) (kind : AddressKind) (coin : String) :
    Except PyError String := do
  let _ ← coinCfg prim.lower coin
  let pub33 ← compressPublicKey pubkey64
  let h160 := hash160 prim.sha256 pub33
  match kind with
  | .p2wpkh =>
      match ← hrpFor prim coin network with
      | none => .error .valueError
      | some hrp => bech32Encode hrp h160
  | .p2pkh => do
      let version ← p2pkhVersionFor prim coin network
      pure (base58checkEncode prim (version :: h160))
  | .p2shP2wpkh => do
      let redeem := 0x00 :: 0x14 :: h160
      let version ← p2shVersionFor prim coin network
      pure (base58checkEncode prim (version :: hash160 prim.sha256 redeem))
  | .p2pkhUncompressed => .error .valueError

/-- `recover_address` -/
def recoverAddress (msgHash : Bytes) (sig : CompactSignature) (network coin : String) :
    Except PyError String := do
  let pubkey ← recoverPublicKey msgHash sig
  let parts ← parseCompactSignature sig
  if parts.kind = .p2pkhUncompressed then do
    let version ← p2pkhVersionFor prim coin network
    let h160 := hash160 prim.sha256 (0x04 :: pubkey)
    pure (base58checkEncode prim (version :: h160))
  else addressFromPublicKey prim pubkey network parts.kind coin

/-- `verify_signature` -/
def verifySignature (msgHash : Bytes) (sig : CompactSignature) (expectedAddress : String)
    (network coin : String) : Except PyError Bool :=
  match recoverAddress prim msgHash sig network coin with
  | .ok recovered => .ok (prim.lower recovered = prim.lower expectedAddress)
  | .error .valueError => .ok false
  | .error .overflowError => .ok false
  | .error e => .error e

end Bitcoin
end Recto
