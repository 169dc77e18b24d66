import Recto.Ethereum.Rlp
import Recto.Phone.CanonicalJson
import Recto.Text.Encoding

/-!
# EIP-1559 transactions

The host and the phone hash the same nine fields of a transaction, each with its
own readers of JSON values. The phone also signs the hash and appends the
signature to the fields. The readers of numbers in texts, Keccak-256 and the
elliptic curve are parameters.
-/

namespace Recto
namespace Ethereum

/-- What the two sides take from their platforms. -/
structure TxPlatform where
  /-- `int(s, 0)`; nothing where it raises. -/
  ofLiteral : String → Option ℤ
  /-- `str(value)` of a value that is no text. -/
  strOf : Json → String
  /-- `new BigInteger(s, radix)`; nothing where it throws. -/
  bigInteger : ℕ → List Char → Option ℤ

/-- A property of an object: the last of its name, as in a dictionary and as `TryGetProperty`. -/
def property (fields : List (String × Json)) (name : String) : Option Json :=
  fields.reverse.lookup name

/-- A text without the `0x` or `0X` it may start with. -/
def stripHex : List Char → List Char
  | '0' :: x :: rest => if x = 'x' ∨ x = 'X' then rest else '0' :: x :: rest
  | cs => cs

/-- The nine fields that are hashed. -/
structure TxFields where
  chainId : ℤ
  nonce : ℤ
  maxPriorityFeePerGas : ℤ
  maxFeePerGas : ℤ
  gas : ℤ
  toBytes : Bytes
  value : ℤ
  data : Bytes
  accessList : List (Bytes × List Bytes)
  deriving DecidableEq, Repr

/-- How one side reads the values of a transaction; nothing where it refuses. -/
structure FieldReaders where
  int : Bool → Option Json → Option (Option ℤ)
  toBytes : Option Json → Option Bytes
  data : Option Json → Option Bytes
  accessList : Option Json → Option (List (Bytes × List Bytes))

namespace FieldReaders
variable (F : FieldReaders) (tx : List (String × Json))

/-- A number that has to be there. -/
def required (name : String) : Option ℤ := (F.int true (property tx name)).join

/-- `gas`, or else `gasLimit` -/
def gas : Option ℤ := do
  match ← F.int false (property tx "gas") with
  | some n => some n
  | none => F.required tx "gasLimit"

/-- `value`, or else zero -/
def value : Option ℤ := (F.int false (property tx "value")).map fun n => n.getD 0

/-- What both functions read before they encode. -/
def fields : Option TxFields := do
  let chainId ← F.required tx "chainId"
  let nonce ← F.required tx "nonce"
  let maxPriority ← F.required tx "maxPriorityFeePerGas"
  let maxFee ← F.required tx "maxFeePerGas"
  let gas ← F.gas tx
  let value ← F.value tx
  let toBytes ← F.toBytes (property tx "to")
  let data ← F.data (property tx "data")
  let accessList ← F.accessList (property tx "accessList")
  return ⟨chainId, nonce, maxPriority, maxFee, gas, toBytes, value, data, accessList⟩

end FieldReaders

/-! ## The host -/

section
variable (R : TxPlatform)

/-- `_int_field` -/
def intField (required : Bool) : Option Json → Option (Option ℤ)
  | none | some .null => if required then none else some none
  | some (.bool b) => some (some (if b then 1 else 0))
  | some (.int n) => some (some n)
  | some (.str s) => (R.ofLiteral s).map some
  | some _ => none

/-- `str(value)` -/
def textOf : Json → String
  | .str s => s
  | v => R.strOf v

/-- `to` of `transaction_hash_eip1559` -/
def hostTo : Option Json → Option Bytes
  | none | some .null => some []
  | some v =>
      if v = .str "" then some []
      else
        let cleaned := stripHex (chars (textOf R v))
        if cleaned.length = 40 then fromHexChars cleaned else none

/-- `data` of `transaction_hash_eip1559` -/
def hostData : Option Json → Option Bytes
  | none => some []
  | some v => if v.truthy then fromHexChars (stripHex (chars (textOf R v))) else some []

/-- A text of so many hexadecimal digits; `startswith` raises for any other value. -/
def hostHex (length : ℕ) : Json → Option Bytes
  | .str s =>
      let cleaned := stripHex (chars s)
      if cleaned.length = length then fromHexChars cleaned else none
  | _ => none

/-- What a `for` loop runs over. -/
def iterate : Json → Option (List Json)
  | .arr xs => some xs
  | .str s => some ((chars s).map fun c => .str (String.ofList [c]))
  | .obj fields => some ((fields.map Prod.fst).eraseDups.map .str)
  | _ => none

def hostPair (addr storage : Json) : Option (Bytes × List Bytes) := do
  let addrBytes ← hostHex 40 addr
  let keys ← iterate storage
  let storageBytes ← keys.mapM (hostHex 64)
  return (addrBytes, storageBytes)

/-- An entry of `_normalize_access_list` -/
def hostEntry : Json → Option (Bytes × List Bytes)
  | .obj entry => hostPair ((property entry "address").getD (.str ""))
      ((property entry "storageKeys").getD (.arr []))
  | .arr [addr, storage] => hostPair addr storage
  | _ => none

/-- `_normalize_access_list` of `accessList`, or of an empty list. -/
def hostAccessList : Option Json → Option (List (Bytes × List Bytes))
  | none => some []
  | some (.arr entries) => entries.mapM hostEntry
  | some v => if v.truthy then none else some []

def hostReaders : FieldReaders where
  int := intField R
  toBytes := hostTo R
  data := hostData R
  accessList := hostAccessList

/-! ## The phone -/

/-- The number of a text. -/
def numberOf (s : String) : Option ℤ :=
  match chars s with
  | '0' :: x :: rest =>
      if x = 'x' ∨ x = 'X' then R.bigInteger 16 rest else R.bigInteger 10 ('0' :: x :: rest)
  | cs => R.bigInteger 10 cs

/-- `ReadIntField`; numbers are read by `GetInt64`. -/
def readIntField (required : Bool) : Option Json → Option (Option ℤ)
  | none | some .null => if required then none else some none
  | some (.int n) => if -2 ^ 63 ≤ n ∧ n < 2 ^ 63 then some (some n) else none
  | some (.str s) => (numberOf R s).map some
  | some _ => none

/-- `Convert.FromHexString`, which takes no white space. -/
def convertFromHexString (cs : List Char) : Option Bytes :=
  if cs.any isAsciiSpace then none else fromHexChars cs

/-- `string.Length` -/
def utf16Length (cs : List Char) : ℕ := (cs.flatMap Phone.utf16Units).length

/-- `to` of `TransactionHashEip1559` -/
def phoneTo : Option Json → Option Bytes
  | some (.str s) =>
      if s = "" then some []
      else
        let cleaned := stripHex (chars s)
        if utf16Length cleaned = 40 then convertFromHexString cleaned else none
  | _ => some []

/-- `data` of `TransactionHashEip1559` -/
def phoneData : Option Json → Option Bytes
  | some (.str s) => convertFromHexString (stripHex (chars s))
  | _ => some []

/-- A text of so many hexadecimal digits; null is refused as an empty text or as no text. -/
def phoneHex (length : ℕ) : Json → Option Bytes
  | .str s =>
      let cleaned := stripHex (chars s)
      if utf16Length cleaned = length then convertFromHexString cleaned else none
  | _ => none

/-- `EnumerateArray` -/
def enumerate : Json → Option (List Json)
  | .arr xs => some xs
  | _ => none

def phonePair (addr storage : Json) : Option (Bytes × List Bytes) := do
  let addrBytes ← phoneHex 40 addr
  let keys ← enumerate storage
  let storageBytes ← keys.mapM (phoneHex 64)
  return (addrBytes, storageBytes)

/-- An entry of the access list of `TransactionHashEip1559` -/
def phoneEntry : Json → Option (Bytes × List Bytes)
  | .obj entry => do phonePair (← property entry "address") (← property entry "storageKeys")
  | .arr (addr :: storage :: _) => phonePair addr storage
  | _ => none

/-- The access list of `TransactionHashEip1559`; what is no array is passed over. -/
def phoneAccessList : Option Json → Option (List (Bytes × List Bytes))
  | some (.arr entries) => entries.mapM phoneEntry
  | _ => some []

def phoneReaders : FieldReaders where
  int := readIntField R
  toBytes := phoneTo
  data := phoneData
  accessList := phoneAccessList

end

/-! ## Hashing -/

/-- The payload of the fields. -/
def payload (f : TxFields) : List Rlp.Item :=
  [.int f.chainId, .int f.nonce, .int f.maxPriorityFeePerGas, .int f.maxFeePerGas, .int f.gas, .bytes f.toBytes,
    .int f.value, .bytes f.data,
    .list (f.accessList.map fun e => .list [.bytes e.1, .list (e.2.map .bytes)])]

/-- The RLP list of some items behind the type byte; nothing where an item cannot be encoded.
`RlpEncode` of the phone writes what `rlp_encode` writes: the same headers, and numbers without leading
zeros. -/
def typed (items : List Rlp.Item) : Option Bytes := (Rlp.encode (.list items)).toOption.map (0x02 :: ·)

/-- What is hashed. -/
def FieldReaders.preimage (F : FieldReaders) (tx : List (String × Json)) : Option Bytes :=
  (F.fields tx).bind fun f => typed (payload f)

/-- `transaction_hash_eip1559` and `TransactionHashEip1559`, by their readers. -/
def FieldReaders.transactionHash (F : FieldReaders) (keccak : Bytes → Bytes)
    (tx : List (String × Json)) : Option Bytes := (F.preimage tx).map keccak

/-! ## Signing -/

/-- The elliptic curve, as the phone uses it. -/
structure Curve where
  /-- `Secp256k1.N` -/
  order : ℕ
  /-- `ECDsaSigner.GenerateSignature` -/
  generateSignature : Bytes → Bytes → ℕ × ℕ
  /-- `PublicKeyFromPrivate` -/
  publicKey : Bytes → Bytes
  /-- `TryRecoverPublicKey` -/
  recover : Bytes → ℕ → ℕ → ℕ → Option Bytes

section
variable (C : Curve)

/-- `s` in its lower form. -/
def lowS (s : ℕ) : ℕ := if C.order / 2 < s then C.order - s else s

/-- `SignWithRecovery` -/
def signWithRecovery (msgHash privateKey : Bytes) : Option Bytes :=
  if msgHash.length ≠ 32 ∨ privateKey.length ≠ 32 then none
  else
    let r := (C.generateSignature msgHash privateKey).1
    let s := lowS C (C.generateSignature msgHash privateKey).2
    match [0, 1].find? fun recId => C.recover msgHash r s recId = some (C.publicKey privateKey) with
    | none => none
    | some recId =>
        -- `CopyFixed32` throws for what has more than 32 bytes.
        if r < 256 ^ 32 ∧ s < 256 ^ 32 then
          some (Rlp.toBytesBig 32 r ++ Rlp.toBytesBig 32 s ++ [UInt8.ofNat (27 + recId)])
        else none

/-- `SignTransactionEip1559` -/
def signTransactionEip1559 (msgHash privateKey : Bytes) : Option Bytes :=
  (signWithRecovery C msgHash privateKey).map fun rsv =>
    if 27 ≤ (rsv.getD 64 0).toNat then rsv.set 64 (rsv.getD 64 0 - 27) else rsv

/-- `SignAndEncodeTransactionEip1559` -/
def signAndEncode (R : TxPlatform) (keccak : Bytes → Bytes) (tx : List (String × Json))
    (privateKey : Bytes) : Option Bytes := do
  let f ← (phoneReaders R).fields tx
  let hashInput ← typed (payload f)
  let rsv ← signTransactionEip1559 C (keccak hashInput) privateKey
  let sigR := rsv.take 32
  let sigS := (rsv.drop 32).take 32
  let yParity := (rsv.getD 64 0).toNat
  typed (payload f ++ [.int yParity, .int (Rlp.fromBytesBig sigR), .int (Rlp.fromBytesBig sigS)])

end

/-- `AddressFromPublicKey`, before its bytes are written in hexadecimal. -/
def addressBytes (keccak : Bytes → Bytes) (pubkey64 : Bytes) : Bytes := ((keccak pubkey64).drop 12).take 20

end Ethereum
end Recto
