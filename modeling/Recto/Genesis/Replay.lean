import Recto.Genesis.Entry
import Recto.Json.Loads

/-!
# Replaying the genesis chain

`replayState` reads a chain from its genesis entry and returns everything it
says, or the first break. One entry is read in three parts, in the order the
source checks them: that it follows the chain, that the set as it stands
authorised it, and what it changes. A mark in flight reports the reasons both of
its sides were refused for, so the text of each refusal is data of the model.
-/

namespace Recto
namespace Genesis

/-! ## The texts of chain errors -/

/-- `repr(s)` -/
def quoted (env : Primitives) (s : String) : String := String.ofList (Json.reprStr env.printable s)

/-- `repr(s)` where `s` may be `None`. -/
def quotedOption (env : Primitives) : Option String → String
  | none => "None"
  | some s => quoted env s

/-- `sorted(names)` joined by commas, or a word for none of them. -/
def joinSorted (names : List String) (ifNone : String) : String :=
  let joined := String.intercalate ", " (names.insertionSort (· ≤ ·))
  if joined = "" then ifNone else joined

def KeyFault.text (env : Primitives) : KeyFault → String
  | .unknownAlgorithm algorithm =>
      "unknown genesis member algorithm " ++ quoted env algorithm ++
        "; known: ecdsa-p256, ed25519"
  | .wrongLength algorithm valid got =>
      "genesis member pubkey for " ++ algorithm ++ " must be " ++ toString valid ++
        " bytes; got " ++ toString got
  | .unusable algorithm text =>
      "genesis member pubkey is not a usable " ++ algorithm ++ " key: " ++ text ++
        ". It is the right length but the verifier cannot load it, so " ++
        "sealing it would produce a member that can never sign."

/-- The entry an error is about. -/
def atEntry (seq : ℤ) : String := "entry " ++ toString seq

/-- The name of the exception, standing for the text Python gives it. -/
def pyErrorText : PyError → String
  | .typeError => "TypeError"
  | .valueError => "ValueError"
  | .keyError => "KeyError"
  | .indexError => "IndexError"
  | .attributeError => "AttributeError"
  | .overflowError => "OverflowError"
  | .unicodeEncodeError => "UnicodeEncodeError"
  | .stopIteration => "StopIteration"
  | .osError => "OSError"
  | .runtimeError => "RuntimeError"

/-- `str(exc)` -/
def ChainError.text (env : Primitives) : ChainError → String
  | .unknownOp op =>
      "unknown chain op " ++ quoted env op ++
        "; expected one of ('add', 'remove', 'seal-id', 'rotate-operator', 'reset')"
  | .valueAlgorithm seq op =>
      atEntry seq ++ ": a " ++ op ++ " entry carries a value, so its algorithm is 'none'"
  | .unsupportedAlgorithm seq algorithm =>
      atEntry seq ++ " declares algorithm " ++ quoted env algorithm ++
        ", which no verifier supports; it could be written and never used"
  | .memberKey seq fault => atEntry seq ++ ": " ++ fault.text env
  | .operatorKey seq =>
      atEntry seq ++ ": the operator key is not a secp256k1 point (64 bytes, X||Y)"
  | .sequence index seq =>
      "chain sequence broken: entry at position " ++ toString index ++ " declares seq " ++
        toString seq ++ ". A gap or reorder means an entry was removed."
  | .prevMismatch seq prev expected =>
      atEntry seq ++ " does not follow entry " ++ toString (seq - 1) ++ ": prev=" ++
        quotedOption env prev ++ " but the previous entry hashes to " ++
        quotedOption env expected ++ ". An earlier entry was altered."
  | .genesisOp op => "the genesis entry must be an 'add', got " ++ quoted env op
  | .genesisSigned =>
      "the genesis entry must carry no signatures: there is no prior set to have signed it, " ++
        "so a signature here is a claim nothing can check"
  | .sealedTwice seq => atEntry seq ++ " seals the id a second time; the id is sealed once"
  | .sealNoDevice seq =>
      atEntry seq ++ " seals the id with no device sealed - the seal is a top-plane act, " ++
        "signed by the passphrase and a device"
  | .resetUnsealed seq =>
      atEntry seq ++ ": a reset is recorded only after the bootloader id is sealed"
  | .emptySet seq => atEntry seq ++ " follows an empty set; nothing could have authorised it"
  | .noPassphrase seq op kind satisfied =>
      atEntry seq ++ " (" ++ op ++ " " ++ quoted env kind ++
        ") carries no valid passphrase signature. Every roster change needs the passphrase " ++
        "(hard rule 14.7). Signed by: " ++ joinSorted satisfied "nobody" ++ "."
  | .noDevice seq op kind held =>
      atEntry seq ++ " (" ++ op ++ " " ++ quoted env kind ++
        ") carries the passphrase but no device signature; once a device has been sealed (" ++
        joinSorted held "none now" ++
        "), the set changes only under the passphrase AND a device (hard rule 14.7)."
  | .noMajority seq op kind satisfied members needed =>
      atEntry seq ++ " (" ++ op ++ " " ++ quoted env kind ++ ") carries " ++
        toString satisfied.length ++ " valid member signature(s); a set of " ++
        toString members ++ " requires " ++ toString needed ++ ". Signed by: " ++
        joinSorted satisfied "nobody" ++ ". Membership changes require a majority of the set " ++
        "as it stands, so no single member can alter the roster alone."
  | .resetNoPassphrase seq => atEntry seq ++ ": a reset needs a sealed passphrase"
  | .resetNotSigned seq kind =>
      atEntry seq ++ " (reset " ++ quoted env kind ++
        ") carries no valid passphrase signature (hard rule 14.7)"
  | .resetMeta seq =>
      atEntry seq ++ ": a reset carries meta with the intent id, the challenge, not_before and " ++
        "the phones named lost"
  | .resetChallenge seq => atEntry seq ++ ": the reset's challenge is not bound to its intent"
  | .freshNotSigned seq =>
      atEntry seq ++ ": the fresh device did not sign the reset's challenge - possession of the " ++
        "new key is the reset's device leg"
  | .resetKind seq kind =>
      atEntry seq ++ ": a reset seats an owner device, not " ++ quoted env kind
  | .resetSlot seq slot kind =>
      atEntry seq ++ ": the reset's slot " ++ String.ofList (slot.pyRepr env.printable) ++
        " is not the slot of " ++ quoted env kind
  | .seatTwice seq intentId slot =>
      atEntry seq ++ ": reset intent " ++ String.ofList (intentId.pyRepr env.printable) ++
        " already seated the " ++ slot.pyStr env.printable ++
        " slot - an intent seats each of its slots once"
  | .sharedKey seq kind twin =>
      atEntry seq ++ ": " ++ quoted env kind ++ " would share its key with " ++ quoted env twin ++
        " - every member is its own key, or the passphrase and a device collapse into one factor"
  | .removeAbsent seq kind =>
      atEntry seq ++ " removes " ++ quoted env kind ++
        ", which is not a member at that point in the chain"
  | .removeOtherKey seq kind =>
      atEntry seq ++ " removes " ++ quoted env kind ++
        " under a key that is not that member's own - a removal names the member it removes"
  | .removePassphrase seq =>
      atEntry seq ++ " removes the passphrase. The passphrase is replaced (an add of its kind), " ++
        "never removed: a set without it can never act again (hard rule 14.7)."
  | .removeLastMember seq =>
      atEntry seq ++ " removes the last member. A set with no members can never authorise " ++
        "another change -- the vault would be permanently unmanageable."
  | .removeLastDevice seq =>
      atEntry seq ++ " removes the last device. A set left with the passphrase alone could only " ++
        "act by the passphrase alone, which the rule forbids; a lost last device is the owner " ++
        "reset's job (hard rule 14.4)."
  | .rotateShape seq =>
      atEntry seq ++ ": a rotate-operator entry names kind 'operator' and a 64-byte key"
  | .idNotAscii seq => atEntry seq ++ ": the sealed id is not ASCII"
  | .idShape seq =>
      atEntry seq ++ ": a seal-id entry names kind 'bootloader-id' and a printable id"
  | .sealMeta seq =>
      atEntry seq ++ ": a seal-id entry records the operator key (operator_pubkey, 128 hex) and " ++
        "the identity members (identity_members, a list of hex keys) in its meta"
  | .markDeleted =>
      "the genesis chain is SEALED but no seal mark is recorded - the mark was deleted"
  | .markMalformed => "the seal mark is empty or malformed"
  | .markUnsealed =>
      "the genesis chain is UNSEALED but a seal was recorded - the chain was truncated or replaced"
  | .markOtherId chain recorded =>
      "the chain seals " ++ quoted env chain ++ " but " ++
        String.ofList (recorded.pyRepr env.printable) ++ " was recorded"
  | .markTruncated held accepted =>
      "the chain holds " ++ toString held ++ " entries but " ++ toString accepted ++
        " were accepted - it was truncated"
  | .markReplaced index =>
      "the chain differs at entry " ++ toString index ++
        " from the one accepted - it was replaced"
  | .markSealEntry => "the seal entry differs from the one recorded"
  | .markNeitherSide reasons =>
      "the chain matches neither side of the seal mark in flight: " ++
        String.intercalate "; " reasons
  | .markUnresolved => "the chain matches neither side of the seal mark in flight"
  | .malformedRecord e => "entry is not a well-formed record: " ++ pyErrorText e

/-! ## The replay -/

variable (env : Primitives)

/-- What a whole chain says, after it replayed clean. -/
structure ChainState where
  members : Dict String ChainEntry
  sealedId : Option String
  operatorPubkey : Option Bytes
  deviceEver : Bool
  tipHash : Option String
  length : ℕ
  resets : List Json
  sealedOperatorPubkey : Option Bytes
  deriving DecidableEq

/-- The operator key the chain holds now: the latest rotation's, else the one the seal recorded. -/
def ChainState.currentOperatorPubkey (state : ChainState) : Option Bytes :=
  match state.operatorPubkey with
  | some key => some key
  | none => state.sealedOperatorPubkey

/-- The variables of the replay loop. -/
structure Replay where
  members : Dict String ChainEntry
  previous : Option ChainEntry
  sealedId : Option String
  operatorPubkey : Option Bytes
  sealedOperatorPubkey : Option Bytes
  deviceEver : Bool
  resets : List Json
  seats : List (Json.Key × Json.Key)
  count : ℕ
  deriving DecidableEq

/-- The loop before its first entry. -/
def Replay.start : Replay where
  members := ∅
  previous := none
  sealedId := none
  operatorPubkey := none
  sealedOperatorPubkey := none
  deviceEver := false
  resets := []
  seats := []
  count := 0

/-- What the loop returns. -/
def Replay.finish (r : Replay) : ChainState where
  members := r.members
  sealedId := r.sealedId
  operatorPubkey := r.operatorPubkey
  deviceEver := r.deviceEver
  tipHash := r.previous.map (entryHash env)
  length := r.count
  resets := r.resets
  sealedOperatorPubkey := r.sealedOperatorPubkey

/-! ## Values the entries carry -/

/-- `value.isprintable()` on ASCII. -/
def asciiPrintable (s : String) : Bool := (chars s).all fun c => 32 ≤ c.toNat && c.toNat ≤ 126

/-- `_decode_id` -/
def decodeId (entry : ChainEntry) : Except Failure String := do
  match decodeAscii entry.pubkey with
  | none => .error (.chain (.idNotAscii entry.seq))
  | some value =>
      require (entry.kind = "bootloader-id" ∧ value ≠ "" ∧ asciiPrintable value = true)
        (.idShape entry.seq)
      pure value

/-- Every identity member is the hexadecimal text of a key. -/
def checkIdentityMembers : List Json → Except PyError Unit
  | [] => .ok ()
  | .str s :: rest =>
      match fromHex s with
      | some _ => checkIdentityMembers rest
      | none => .error .valueError
  | _ :: _ => .error .typeError

/-- The operator key of a seal's meta, with the identity members beside it checked. -/
def readSealMeta (entry : ChainEntry) : Except PyError Bytes := do
  let record ← Json.loads (entry.metaText.getD "")
  let text ← record.getItem "operator_pubkey"
  match fromHex (text.pyStr env.printable) with
  | none => .error .valueError
  | some value =>
      match ← record.getItem "identity_members" with
      | .arr members =>
          checkIdentityMembers members
          pure value
      | _ => .error .typeError

/-- `_seal_operator_key` -/
def sealOperatorKey (entry : ChainEntry) : Except Failure Bytes := do
  let value ← exceptAs [.valueError, .unicodeEncodeError, .keyError, .typeError]
    (.sealMeta entry.seq) (readSealMeta env entry)
  requireSecp256k1Point env value entry.seq
  pure value

/-! ## The threshold -/

def requiredSignatures (memberCount : ℕ) : ℕ := memberCount / 2 + 1

/-- `_satisfied_kinds`: the member kinds whose signature on this entry verifies. -/
def satisfiedKinds (members : Dict String ChainEntry) (entry : ChainEntry) (message : Bytes) :
    List String :=
  attribution members.items Prod.fst
    (fun signature item => verifierFor env item.2.pubkey item.2.algorithm signature message)
    entry.signatures

/-- `_require_majority` -/
def requireMajority (members : Dict String ChainEntry) (entry : ChainEntry) (message : Bytes) :
    Except Failure Unit :=
  let satisfied := satisfiedKinds env members entry message
  require (requiredSignatures members.length ≤ satisfied.length)
    (.noMajority entry.seq entry.op entry.kind satisfied members.length
      (requiredSignatures members.length))

/-- `_require_threshold` -/
def requireThreshold (members : Dict String ChainEntry) (entry : ChainEntry) (message : Bytes)
    (deviceEver : Bool) : Except Failure Unit := do
  require (members.items ≠ []) (.emptySet entry.seq)
  if passphraseKind ∉ members then
    requireMajority env members entry message
  else
    let satisfied := satisfiedKinds env members entry message
    require (passphraseKind ∈ satisfied) (.noPassphrase entry.seq entry.op entry.kind satisfied)
    require (deviceEver = true → ∃ kind ∈ satisfied, kind ∈ deviceKinds)
      (.noDevice entry.seq entry.op entry.kind (members.keys.filter (· ∈ deviceKinds)))

/-- The challenge and the intent id of a reset's meta, with the rest of it checked. -/
def readResetMeta (entry : ChainEntry) : Except PyError (Json × Json) := do
  let record ← Json.loads (entry.metaText.getD "")
  let challenge ← record.getItem "challenge"
  let intentId ← record.getItem "intent_id"
  let notBefore ← record.getItem "not_before"
  let _ ← notBefore.toInt
  let lost ← record.getItem "lost"
  lost.checkList
  pure (challenge, intentId)

/-- Does the challenge start with the reset prefix, the intent's id and a colon? -/
def boundToIntent (challenge : String) (intentId : Json) : Prop :=
  chars (resetChallengePrefix ++ intentId.pyStr env.printable ++ ":") <+: chars challenge

instance (challenge : String) (intentId : Json) : Decidable (boundToIntent env challenge intentId) :=
  inferInstanceAs (Decidable (_ <+: _))

/-- Did one of the signatures sign the challenge under the entry's own key? -/
def freshSigned (entry : ChainEntry) (challenge : String) : Except PyError Bool :=
  entry.signatures.anyM fun sig => do
    let message ← encodeAscii challenge
    pure (verifierFor env entry.pubkey entry.algorithm sig message)

/-- `_require_reset` -/
def requireReset (members : Dict String ChainEntry) (entry : ChainEntry) (message : Bytes) :
    Except Failure Unit := do
  match members.get? passphraseKind with
  | none => .error (.chain (.resetNoPassphrase entry.seq))
  | some passphrase =>
      let alone := (∅ : Dict String ChainEntry).set passphraseKind passphrase
      require (passphraseKind ∈ satisfiedKinds env alone entry message)
        (.resetNotSigned entry.seq entry.kind)
      let (challenge, intentId) ← exceptAs
        [.valueError, .unicodeEncodeError, .keyError, .typeError] (.resetMeta entry.seq)
        (readResetMeta entry)
      match challenge with
      | .str challenge =>
          require (boundToIntent env challenge intentId) (.resetChallenge entry.seq)
          let signed ← orRaise (freshSigned env entry challenge)
          require (signed = true) (.freshNotSigned entry.seq)
      | _ => .error (.chain (.resetChallenge entry.seq))

namespace Replay

/-! ## One entry -/

/-- The entry stands where it says, and names the hash of the one before it. -/
def follow (r : Replay) (entry : ChainEntry) : Except Failure Unit := do
  require (entry.seq = r.count) (.sequence r.count entry.seq)
  require (entry.prev = r.previous.map (entryHash env))
    (.prevMismatch entry.seq entry.prev (r.previous.map (entryHash env)))

/-- The sealed id inside the signed bytes: a seal-id entry is signed over its own. -/
def entrySeal (r : Replay) (entry : ChainEntry) : Except Failure (Option String) := do
  match entry.op? with
  | some .sealId =>
      require (r.sealedId = none) (.sealedTwice entry.seq)
      require (∃ kind ∈ r.members.keys, kind ∈ deviceKinds) (.sealNoDevice entry.seq)
      let value ← decodeId entry
      pure (some value)
  | some .reset =>
      require (r.sealedId ≠ none) (.resetUnsealed entry.seq)
      pure r.sealedId
  | _ => pure r.sealedId

/-- The set as it stands signed the entry. The genesis entry has no prior set, so it is an
unsigned `add`. -/
def authorise (r : Replay) (entry : ChainEntry) : Except Failure Unit := do
  if entry.seq = 0 then
    require (entry.op? = some .add) (.genesisOp entry.op)
    require (entry.signatures = []) .genesisSigned
  else
    let entrySeal ← r.entrySeal entry
    let message := entry.message env entrySeal
    if entry.op? = some .reset then requireReset env r.members entry message
    else requireThreshold env r.members entry message r.deviceEver

/-- The kind of the owner slot a JSON value names. -/
def slotKindOf : Json → Option String
  | .str slot => slotKind slot
  | _ => none

/-- A reset names an owner device of its slot, and seats a slot of its intent once. -/
def recordReset (r : Replay) (entry : ChainEntry) : Except Failure Replay := do
  require (entry.kind ∈ deviceKinds) (.resetKind entry.seq entry.kind)
  let record ← orRaise (Json.loads
    (if entry.metaText.getD "" = "" then "{}" else entry.metaText.getD ""))
  let slot ← orRaise (record.get "slot")
  let slotKey ← orRaise slot.hashKey
  require (slotKindOf slot = some entry.kind) (.resetSlot entry.seq slot entry.kind)
  let intentId ← orRaise (record.get "intent_id")
  let intentKey ← orRaise intentId.hashKey
  require ((intentKey, slotKey) ∉ r.seats) (.seatTwice entry.seq intentId slot)
  let named ← orRaise (record.getOr "intent_id" (.str ""))
  pure { r with
    seats := r.seats ++ [(intentKey, slotKey)]
    resets := if r.resets.any (fun id => id.hashKey = .ok intentKey) then r.resets
      else r.resets ++ [named] }

/-- `members[entry.kind] = entry`, refused when another kind already holds the key. -/
def seat (r : Replay) (entry : ChainEntry) : Except Failure Replay := do
  match r.members.items.find? fun item =>
      item.1 ≠ entry.kind && decide (item.2.pubkey = entry.pubkey) with
  | some twin => .error (.chain (.sharedKey entry.seq entry.kind twin.1))
  | none =>
      pure { r with
        members := r.members.set entry.kind entry
        deviceEver := r.deviceEver || decide (entry.kind ∈ deviceKinds) }

/-- `del members[entry.kind]`, with the last member and the last device guarded. -/
def remove (r : Replay) (entry : ChainEntry) : Except Failure Replay := do
  match r.members.get? entry.kind with
  | none => .error (.chain (.removeAbsent entry.seq entry.kind))
  | some removed =>
      require (entry.pubkey = removed.pubkey ∧ entry.algorithm = removed.algorithm)
        (.removeOtherKey entry.seq entry.kind)
      require (entry.kind ≠ passphraseKind) (.removePassphrase entry.seq)
      let members := r.members.erase entry.kind
      require (members.items ≠ []) (.removeLastMember entry.seq)
      require (¬(r.deviceEver = true ∧ passphraseKind ∈ members ∧
        ¬∃ kind ∈ members.keys, kind ∈ deviceKinds)) (.removeLastDevice entry.seq)
      pure { r with members := members }

/-- What the entry changes. -/
def apply (r : Replay) (entry : ChainEntry) : Except Failure Replay := do
  match entry.op? with
  | some .add => r.seat entry
  | some .reset =>
      let r ← r.recordReset entry
      r.seat entry
  | some .remove => r.remove entry
  | some .sealId =>
      let value ← decodeId entry
      let operator ← sealOperatorKey env entry
      pure { r with sealedId := some value, sealedOperatorPubkey := some operator }
  | some .rotateOperator =>
      require (entry.kind = "operator" ∧ entry.pubkey.length = 64) (.rotateShape entry.seq)
      pure { r with operatorPubkey := some entry.pubkey }
  | none => pure r

/-- One turn of the loop. -/
def step (r : Replay) (entry : ChainEntry) : Except Failure Replay := do
  r.follow env entry
  r.authorise env entry
  let r ← r.apply env entry
  pure { r with previous := some entry, count := r.count + 1 }

end Replay

/-- The loop over a list of entries. -/
def replayLoop (entries : List ChainEntry) : Except Failure Replay :=
  entries.foldlM (Replay.step env) Replay.start

def replayState (entries : List ChainEntry) : Except Failure ChainState := do
  let r ← replayLoop env entries
  pure (r.finish env)

/-- The membership a chain results in, keyed by kind. -/
def replay (entries : List ChainEntry) : Except Failure (Dict String ChainEntry) := do
  let state ← replayState env entries
  pure state.members

end Genesis
end Recto
