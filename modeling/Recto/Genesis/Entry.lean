import Recto.Text.Repr
import Recto.Data.Checked
import Recto.Data.Attribution

/-!
# Entries of the genesis chain

An entry, the canonical bytes it is anchored by, the message its signers sign,
and the reader that builds entries from stored values. What lies outside the
repository (SHA-256, the signature verifier, the key loaders, the curve of the
operator key, Unicode's printable characters) is a parameter.
-/

namespace Recto
namespace Genesis

/-- What the code calls outside its own source. -/
structure Primitives where
  /-- `hashlib.sha256(raw).digest()` -/
  sha256 : Bytes → Bytes
  /-- `verify_signature(payload, signature_b64u, public_key_b64u, algorithm)`; `none` when it
  raises. -/
  verifySignature : Bytes → String → String → String → Option Bool
  /-- `Ed25519PublicKey.from_public_bytes(raw)`, with the text of what it raises. -/
  loadEd25519 : Bytes → Except String Unit
  /-- The public key of the P-256 point with these coordinates, `X ++ Y`. -/
  loadP256 : Bytes → Except String Unit
  /-- Is `X ++ Y` a point on secp256k1? -/
  onSecp256k1 : Bytes → Bool
  /-- `c.isprintable()`, asked beyond ASCII only. -/
  printable : Char → Bool

/-- The operations of an entry. -/
inductive Op where
  | add
  | remove
  | sealId
  | rotateOperator
  | reset
  deriving DecidableEq, Repr

/-- The text an entry records for its operation. -/
def Op.name : Op → String
  | .add => "add"
  | .remove => "remove"
  | .sealId => "seal-id"
  | .rotateOperator => "rotate-operator"
  | .reset => "reset"

/-- The operation of a text, when it is one. -/
def Op.ofName? (s : String) : Option Op :=
  [Op.add, .remove, .sealId, .rotateOperator, .reset].find? fun op => op.name = s

theorem Op.ofName?_eq_some_iff {s : String} {op : Op} : Op.ofName? s = some op ↔ s = op.name := by
  constructor
  · intro h
    have := List.find?_some h
    simpa using (of_decide_eq_true this).symm
  · rintro rfl
    cases op <;> rfl

structure ChainEntry where
  seq : ℤ
  op : String
  kind : String
  pubkey : Bytes
  algorithm : String
  prev : Option String
  signatures : List Bytes
  /-- `meta`: canonical JSON, signed with the entry. -/
  metaText : Option String
  deriving DecidableEq, Repr

namespace ChainEntry

/-- The operation the entry names; `none` for a text that is no operation. -/
def op? (entry : ChainEntry) : Option Op := Op.ofName? entry.op

theorem op?_eq_some_iff {entry : ChainEntry} {op : Op} : entry.op? = some op ↔ entry.op = op.name :=
  Op.ofName?_eq_some_iff

end ChainEntry

/-- `CHAIN_DOMAIN` -/
def chainDomain : String := "recto-genesis-chain-v1"

/-- `_VALUE_ALGORITHM`: seal-id and rotate-operator carry a value, not a signer. -/
def valueAlgorithm : String := "none"

/-- `_RESET_CHALLENGE_PREFIX` -/
def resetChallengePrefix : String := "recto-reset-v1:"

/-- `PASSPHRASE_KIND` -/
def passphraseKind : String := "passphrase"

/-- `DEVICE_KINDS` -/
def deviceKinds : List String := ["recovery-phone", "primary-phone"]

/-- `SUPPORTED_ALGORITHMS` -/
def supportedAlgorithms : List String := ["ed25519", "ecdsa-p256"]

/-- `_SLOT_KIND` -/
def slotKind (slot : String) : Option String :=
  [("primary", "primary-phone"), ("recovery", "recovery-phone")].lookup slot

theorem passphraseKind_not_device : passphraseKind ∉ deviceKinds := by decide

/-! ## What is signed and hashed -/

/-- The fields of an entry's canonical object, in the order they join it. -/
def signingFields (seq : ℤ) (op kind : String) (pubkey : Bytes) (algorithm : String)
    (prev metaText sealedId : Option String) : List (String × Json) :=
  [("algorithm", .str algorithm), ("kind", .str kind), ("op", .str op),
      ("prev", prev.elim .null .str), ("pubkey", .str (hex pubkey)), ("seq", .int seq)] ++
    (metaText.elim [] fun m => [("meta", .str m)]) ++
    (sealedId.elim [] fun s => [("sealed_id", .str s)])

def signingBytes (seq : ℤ) (op kind : String) (pubkey : Bytes) (algorithm : String)
    (prev metaText sealedId : Option String) : Bytes :=
  utf8 chainDomain ++ 0 :: encodeUtf8 (Json.dumps
    (.obj (signingFields seq op kind pubkey algorithm prev metaText sealedId)))

/-- The raw signing bytes before the seal, their digest from the seal-id entry on. -/
def actMessage (env : Primitives) (seq : ℤ) (op kind : String) (pubkey : Bytes)
    (algorithm : String) (prev metaText sealedId : Option String) : Bytes :=
  let raw := signingBytes seq op kind pubkey algorithm prev metaText sealedId
  if sealedId = none then raw else env.sha256 raw

/-- The identity bytes of an entry: everything it says, the sealed id and its signatures apart. -/
def ChainEntry.signingBytes (entry : ChainEntry) : Bytes :=
  Genesis.signingBytes entry.seq entry.op entry.kind entry.pubkey entry.algorithm entry.prev
    entry.metaText none

def entryHash (env : Primitives) (entry : ChainEntry) : String :=
  hex (env.sha256 entry.signingBytes)

/-- `_message`: what the set signs for an entry. -/
def ChainEntry.message (env : Primitives) (entry : ChainEntry) (sealedId : Option String) : Bytes :=
  actMessage env entry.seq entry.op entry.kind entry.pubkey entry.algorithm entry.prev
    entry.metaText sealedId

/-- `_verifier_for`: a verifier that raises has not verified. -/
def verifierFor (env : Primitives) (pubkey : Bytes) (algorithm : String) (sig msg : Bytes) : Bool :=
  (env.verifySignature msg (b64u sig) (b64u pubkey) algorithm).getD false

/-! ## Refusals -/

/-- Why `validate_genesis_pubkey` refuses a key. -/
inductive KeyFault where
  | unknownAlgorithm (algorithm : String)
  | wrongLength (algorithm : String) (valid got : ℕ)
  | unusable (algorithm : String) (text : String)
  deriving DecidableEq, Repr

/-- `ChainError`, by what it names. -/
inductive ChainError where
  | unknownOp (op : String)
  | valueAlgorithm (seq : ℤ) (op : String)
  | unsupportedAlgorithm (seq : ℤ) (algorithm : String)
  | memberKey (seq : ℤ) (fault : KeyFault)
  | operatorKey (seq : ℤ)
  | sequence (index : ℕ) (seq : ℤ)
  | prevMismatch (seq : ℤ) (prev expected : Option String)
  | genesisOp (op : String)
  | genesisSigned
  | sealedTwice (seq : ℤ)
  | sealNoDevice (seq : ℤ)
  | resetUnsealed (seq : ℤ)
  | emptySet (seq : ℤ)
  | noPassphrase (seq : ℤ) (op kind : String) (satisfied : List String)
  | noDevice (seq : ℤ) (op kind : String) (held : List String)
  | noMajority (seq : ℤ) (op kind : String) (satisfied : List String) (members needed : ℕ)
  | resetNoPassphrase (seq : ℤ)
  | resetNotSigned (seq : ℤ) (kind : String)
  | resetMeta (seq : ℤ)
  | resetChallenge (seq : ℤ)
  | freshNotSigned (seq : ℤ)
  | resetKind (seq : ℤ) (kind : String)
  | resetSlot (seq : ℤ) (slot : Json) (kind : String)
  | seatTwice (seq : ℤ) (intentId slot : Json)
  | sharedKey (seq : ℤ) (kind twin : String)
  | removeAbsent (seq : ℤ) (kind : String)
  | removeOtherKey (seq : ℤ) (kind : String)
  | removePassphrase (seq : ℤ)
  | removeLastMember (seq : ℤ)
  | removeLastDevice (seq : ℤ)
  | rotateShape (seq : ℤ)
  | idNotAscii (seq : ℤ)
  | idShape (seq : ℤ)
  | sealMeta (seq : ℤ)
  | markDeleted
  | markMalformed
  | markUnsealed
  | markOtherId (chain : String) (recorded : Json)
  | markTruncated (held : ℕ) (accepted : ℤ)
  | markReplaced (index : ℤ)
  | markSealEntry
  | markNeitherSide (reasons : List String)
  | markUnresolved
  | malformedRecord (e : PyError)
  deriving DecidableEq, Repr

/-- What the chain's functions raise: their own error, or one of Python's. -/
inductive Failure where
  | chain (e : ChainError)
  | python (e : PyError)
  deriving DecidableEq, Repr

/-- Carry one of Python's errors through. -/
def orRaise {α : Type} : Except PyError α → Except Failure α
  | .ok a => .ok a
  | .error e => .error (.python e)

@[simp] theorem orRaise_eq_ok {α : Type} {x : Except PyError α} {a : α} :
    orRaise x = .ok a ↔ x = .ok a := by
  cases x <;> simp [orRaise]

/-- `try … except (…): raise e`: the listed errors become `e`, the others pass through. -/
def exceptAs {α : Type} (caught : List PyError) (e : ChainError) :
    Except PyError α → Except Failure α
  | .ok a => .ok a
  | .error p => if p ∈ caught then .error (.chain e) else .error (.python p)

@[simp] theorem exceptAs_eq_ok {α : Type} {caught : List PyError} {e : ChainError}
    {x : Except PyError α} {a : α} : exceptAs caught e x = .ok a ↔ x = .ok a := by
  cases x with
  | ok b => simp [exceptAs]
  | error p =>
    simp only [exceptAs]
    split_ifs <;> simp

/-- Refuse with a `ChainError` unless the condition holds. -/
abbrev require (p : Prop) [Decidable p] (e : ChainError) : Except Failure Unit :=
  ensure p (.chain e)

/-! ## Building entries -/

/-- `GENESIS_ALGORITHMS`: the byte length of a key under each algorithm. -/
def genesisAlgorithms (algorithm : String) : Option ℕ :=
  [("ed25519", 32), ("ecdsa-p256", 64)].lookup algorithm

/-- `s.strip().lower()`, on ASCII. -/
def normaliseAlgorithm (s : String) : String :=
  let stripped := (((chars s).dropWhile Json.isSpace).reverse.dropWhile Json.isSpace).reverse
  String.ofList (stripped.map Char.toLower)

/-- `_public_key_from_b64u` on the raw bytes its argument encodes. -/
def loadPublicKey (env : Primitives) (raw : Bytes) (algorithm : String) : Except String Unit :=
  if algorithm = "ed25519" then
    if raw.length ≠ 32 then
      .error ("ed25519 public key must decode to 32 bytes; got " ++ toString raw.length)
    else env.loadEd25519 raw
  else if algorithm = "ecdsa-p256" then
    if raw.length = 65 ∧ raw.head? = some 4 then env.loadP256 raw.tail
    else if raw.length = 64 then env.loadP256 raw
    else .error ("ecdsa-p256 public key must decode to 64 bytes (X||Y) " ++
      "or 65 bytes (0x04||X||Y); got " ++ toString raw.length)
  else .error ("unsupported algorithm: " ++
    String.ofList (Json.reprStr env.printable algorithm))

/-- A member is a key the verifier can load under the algorithm it names. -/
def validateGenesisPubkey (env : Primitives) (pubkey : Bytes) (algorithm : String) :
    Except KeyFault String :=
  let algo := normaliseAlgorithm algorithm
  match genesisAlgorithms algo with
  | none => .error (.unknownAlgorithm algorithm)
  | some valid =>
      if pubkey.length ≠ valid then .error (.wrongLength algo valid pubkey.length)
      else
        match loadPublicKey env pubkey algo with
        | .ok _ => .ok algo
        | .error text => .error (.unusable algo text)

/-- `_require_secp256k1_point` -/
def requireSecp256k1Point (env : Primitives) (value : Bytes) (seq : ℤ) : Except Failure Unit :=
  require (value.length = 64 ∧ env.onSecp256k1 value = true) (.operatorKey seq)

/-- The algorithm an entry may declare. -/
def checkAlgorithm (seq : ℤ) (op algorithm : String) : Except Failure Unit :=
  if op = Op.sealId.name ∨ op = Op.rotateOperator.name then
    require (algorithm = valueAlgorithm) (.valueAlgorithm seq op)
  else require (algorithm ∈ supportedAlgorithms) (.unsupportedAlgorithm seq algorithm)

/-- The key an entry may carry. -/
def checkEntryKey (env : Primitives) (seq : ℤ) (op : String) (pubkey : Bytes) (algorithm : String) :
    Except Failure Unit := do
  if op = Op.add.name ∨ op = Op.reset.name then
    match validateGenesisPubkey env pubkey algorithm with
    | .ok _ => pure ()
    | .error fault => .error (.chain (.memberKey seq fault))
  if op = Op.rotateOperator.name then
    requireSecp256k1Point env pubkey seq

def buildEntry (env : Primitives) (entry : ChainEntry) : Except Failure ChainEntry := do
  require (entry.op? ≠ none) (.unknownOp entry.op)
  checkAlgorithm entry.seq entry.op entry.algorithm
  checkEntryKey env entry.seq entry.op entry.pubkey entry.algorithm
  pure entry

/-- An entry is built as it was asked for, or not at all. -/
theorem buildEntry_eq {env : Primitives} {entry built : ChainEntry}
    (h : buildEntry env entry = .ok built) : built = entry := by
  simp only [buildEntry, Except.bind_eq_ok, Except.pure_eq_ok] at h
  obtain ⟨_, _, _, _, _, _, h⟩ := h
  exact h.symm

end Genesis
end Recto
