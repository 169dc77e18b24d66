import Recto.Genesis.SealMark
import Recto.Data.Refusals

/-!
# The chain as arbitrary JSON

What `genesis_members.json` and `genesis_seal_mark.json` hold may be any JSON at
all. Here the chain's functions are read once more, on entries whose sequence
number, kind, `prev` and meta are whatever the file says, with the exception that
each of Python's operations raises on values it is not meant for.
-/

namespace Recto
namespace Genesis
namespace Stored

variable (env : Primitives)

/-- `ChainError`, by what it names. -/
inductive Break where
  | unparseable
  | chainNotList
  | unknownOp
  | valueAlgorithm
  | unsupportedAlgorithm
  | memberKey
  | operatorKey
  | sequence
  | prevMismatch
  | genesisOp
  | genesisSigned
  | sealedTwice
  | sealNoDevice
  | resetUnsealed
  | emptySet
  | noPassphrase
  | noDevice
  | noMajority
  | resetNoPassphrase
  | resetNotSigned
  | resetMeta
  | resetChallenge
  | freshNotSigned
  | resetKind
  | resetSlot
  | seatTwice
  | sharedKey
  | removeAbsent
  | removeOtherKey
  | removePassphrase
  | removeLastMember
  | removeLastDevice
  | rotateShape
  | idNotAscii
  | idShape
  | sealMeta
  | markDeleted
  | markMalformed
  | markUnsealed
  | markOtherId
  | markTruncated
  | markReplaced
  | markSealEntry
  | markNeitherSide
  deriving DecidableEq, Repr

/-- An exception of Python's, let through. -/
def raising {α : Type} (x : Except PyError α) : Except (Refused Break) α := x.mapError .raised

/-- `try … except (…): raise ChainError`: the listed exceptions are named, the others let through. -/
def naming {α : Type} (caught : List PyError) (b : Break) (x : Except PyError α) :
    Except (Refused Break) α :=
  x.mapError fun e => if e ∈ caught then .named b else .raised e

/-- `sys.get_int_max_str_digits()` -/
def maxStrDigits : ℕ := 4300

/-- `int(value)`, which takes texts of so many digits only. -/
def readInt (value : Json) : Except PyError ℤ :=
  match value with
  | .str s => if maxStrDigits < (chars s).countP Char.isDigit then .error .valueError
      else value.toInt
  | _ => value.toInt

/-- What the readers of a meta catch. -/
def metaCaught : List PyError := [.valueError, .unicodeEncodeError, .keyError, .typeError]

/-! ## Entries -/

structure ChainEntry where
  seq : Json
  op : Op
  kind : Json
  pubkey : Bytes
  algorithm : String
  prev : Json
  signatures : List Bytes
  /-- `meta`: text where it was written by this code, any value where it was not. -/
  metaValue : Json
  deriving DecidableEq

/-- One element of `signatures`, decoded. -/
def readSignature : Json → Except PyError Bytes
  | .str s =>
      match unb64u s with
      | some raw => .ok raw
      | none => .error .valueError
  | _ => .error .typeError

/-- `[decode(s) for s in (value or [])]`: text gives its characters, an object its keys. -/
def readSignatures (value : Json) : Except PyError (List Bytes) :=
  if value.truthy then
    match value with
    | .arr xs => xs.mapM readSignature
    | .str s => (chars s).mapM fun c => readSignature (.str (String.ofList [c]))
    | .obj fields => fields.mapM fun field => readSignature (.str field.1)
    | _ => .error .typeError
  else .ok []

/-- `bytes.fromhex(value)` -/
def readHex : Json → Except PyError Bytes
  | .str s =>
      match fromHex s with
      | some raw => .ok raw
      | none => .error .valueError
  | _ => .error .typeError

/-- What `build_entry` admits, on the members it looks at. -/
def checkEntry (op : Op) (pubkey : Bytes) (algorithm : String) : Except (Refused Break) Unit := do
  ensure (op = .sealId ∨ op = .rotateOperator → algorithm = valueAlgorithm) (.named .valueAlgorithm)
  ensure (¬(op = .sealId ∨ op = .rotateOperator) → algorithm ∈ supportedAlgorithms)
    (.named .unsupportedAlgorithm)
  ensure (op = .add ∨ op = .reset → (validateGenesisPubkey env pubkey algorithm).isOk = true)
    (.named .memberKey)
  ensure (op = .rotateOperator → pubkey.length = 64 ∧ env.onSecp256k1 pubkey = true)
    (.named .operatorKey)

/-- `build_entry`: `op not in _OPS` and `algorithm not in SUPPORTED_ALGORITHMS` compare, so any
value that is no text is refused by name. -/
def buildEntry (seq op kind : Json) (pubkey : Bytes) (algorithm prev : Json)
    (signatures : List Bytes) (metaValue : Json) : Except (Refused Break) ChainEntry :=
  match op with
  | .str name =>
      match Op.ofName? name with
      | none => .error (.named .unknownOp)
      | some op =>
          match algorithm with
          | .str algorithm => do
              checkEntry env op pubkey algorithm
              pure { seq, op, kind, pubkey, algorithm, prev, signatures, metaValue }
          | _ =>
              if op = .sealId ∨ op = .rotateOperator then .error (.named .valueAlgorithm)
              else .error (.named .unsupportedAlgorithm)
  | _ => .error (.named .unknownOp)

/-- One turn of `entries_from_records`. -/
def entryFromRecord (record : Json) : Except (Refused Break) ChainEntry := do
  let seq ← raising (record.getItem "seq")
  let op ← raising (record.getItem "op")
  let kind ← raising (record.getItem "kind")
  let pubkey ← raising (record.getItem "pubkey" >>= readHex)
  let algorithm ← raising (record.getItem "algorithm")
  let prev ← raising (record.get "prev")
  let signatures ← raising (record.get "signatures" >>= readSignatures)
  let metaValue ← raising (record.get "meta")
  buildEntry env seq op kind pubkey algorithm prev signatures metaValue

def entriesFromRecords (records : List Json) : Except (Refused Break) (List ChainEntry) :=
  records.mapM (entryFromRecord env)

/-! ## What is signed and hashed -/

/-- The fields of an entry's canonical object. -/
def ChainEntry.signingFields (entry : ChainEntry) (sealedId : Option String) :
    List (String × Json) :=
  [("algorithm", .str entry.algorithm), ("kind", entry.kind), ("op", .str entry.op.name),
      ("prev", entry.prev), ("pubkey", .str (hex entry.pubkey)), ("seq", entry.seq)] ++
    (if entry.metaValue = .null then [] else [("meta", entry.metaValue)]) ++
    (sealedId.elim [] fun s => [("sealed_id", .str s)])

def ChainEntry.signingBytes (entry : ChainEntry) (sealedId : Option String) : Bytes :=
  utf8 chainDomain ++ 0 :: encodeUtf8 (Json.dumps (.obj (entry.signingFields sealedId)))

/-- `_message` -/
def ChainEntry.message (entry : ChainEntry) (sealedId : Option String) : Bytes :=
  if sealedId = none then entry.signingBytes sealedId
  else env.sha256 (entry.signingBytes sealedId)

def entryHash (entry : ChainEntry) : String := hex (env.sha256 (entry.signingBytes none))

/-! ## The loop -/

/-- The variables of the replay loop; members and seats are kept by what `hash` and `==` see. -/
structure Replay where
  members : Dict Json.Key ChainEntry
  previous : Option ChainEntry
  sealedId : Option String
  operatorPubkey : Option Bytes
  sealedOperatorPubkey : Option Bytes
  deviceEver : Bool
  resets : List Json
  seats : List (Json.Key × Json.Key)
  count : ℕ
  deriving DecidableEq

/-- The loop before its first entry. -/
def Replay.start : Replay where
  members := ∅
  previous := none
  sealedId := none
  operatorPubkey := none
  sealedOperatorPubkey := none
  deviceEver := false
  resets := []
  seats := []
  count := 0

/-- `kind in DEVICE_KINDS` -/
def IsDevice (kind : Json.Key) : Prop := ∃ name ∈ deviceKinds, kind = .str name

instance : DecidablePred IsDevice := fun kind =>
  inferInstanceAs (Decidable (∃ name ∈ deviceKinds, kind = .str name))

/-- `PASSPHRASE_KIND` as a key. -/
def passphraseKey : Json.Key := .str passphraseKind

/-- `json.loads(entry.meta or fallback)` -/
def ChainEntry.loadMeta (entry : ChainEntry) (fallback : String) : Except PyError Json :=
  if entry.metaValue.truthy then
    match entry.metaValue with
    | .str s => Json.loads s
    | _ => .error .typeError
  else Json.loads fallback

/-- `_decode_id` -/
def decodeId (entry : ChainEntry) : Except (Refused Break) String :=
  match decodeAscii entry.pubkey with
  | none => .error (.named .idNotAscii)
  | some value => do
      ensure (entry.kind = .str "bootloader-id" ∧ value ≠ "" ∧ asciiPrintable value = true)
        (.named .idShape)
      pure value

/-- The operator key of a seal's meta, with the identity members beside it checked. -/
def readSealMeta (entry : ChainEntry) : Except PyError Bytes := do
  let record ← entry.loadMeta ""
  let text ← record.getItem "operator_pubkey"
  match fromHex (text.pyStr env.printable) with
  | none => .error .valueError
  | some value =>
      match ← record.getItem "identity_members" with
      | .arr members =>
          checkIdentityMembers members
          pure value
      | _ => .error .typeError

/-- `_seal_operator_key` -/
def sealOperatorKey (entry : ChainEntry) : Except (Refused Break) Bytes := do
  let value ← naming metaCaught .sealMeta (readSealMeta env entry)
  ensure (value.length = 64 ∧ env.onSecp256k1 value = true) (.named .operatorKey)
  pure value

/-- `_satisfied_kinds` -/
def satisfiedKinds (members : Dict Json.Key ChainEntry) (entry : ChainEntry) (message : Bytes) :
    List Json.Key :=
  attribution members.items Prod.fst
    (fun signature item => verifierFor env item.2.pubkey item.2.algorithm signature message)
    entry.signatures

def isText : Json.Key → Bool
  | .str _ => true
  | _ => false

/-- Kinds that are all text, as a sorted list of them joined by commas needs them. -/
def AllText (kinds : List Json.Key) : Prop := ∀ kind ∈ kinds, isText kind = true

instance (kinds : List Json.Key) : Decidable (AllText kinds) :=
  inferInstanceAs (Decidable (∀ kind ∈ kinds, isText kind = true))

/-- A refusal whose text lists who signed: `', '.join(sorted(satisfied))`. -/
def refuseSigned (satisfied : List Json.Key) (b : Break) : Except (Refused Break) Unit :=
  if AllText satisfied then .error (.named b) else .error (.raised .typeError)

/-- `_require_majority` -/
def requireMajority (members : Dict Json.Key ChainEntry) (entry : ChainEntry) (message : Bytes) :
    Except (Refused Break) Unit :=
  let satisfied := satisfiedKinds env members entry message
  if satisfied.length < requiredSignatures members.length then refuseSigned satisfied .noMajority
  else pure ()

/-- `_require_threshold` -/
def requireThreshold (members : Dict Json.Key ChainEntry) (entry : ChainEntry) (message : Bytes)
    (deviceEver : Bool) : Except (Refused Break) Unit := do
  ensure (members.items ≠ []) (.named .emptySet)
  if passphraseKey ∉ members then requireMajority env members entry message
  else
    let satisfied := satisfiedKinds env members entry message
    if passphraseKey ∉ satisfied then refuseSigned satisfied .noPassphrase
    else
      ensure (deviceEver = true → ∃ kind ∈ satisfied, IsDevice kind) (.named .noDevice)

/-- The challenge and the intent id of a reset's meta, with the rest of it checked. -/
def readResetMeta (entry : ChainEntry) : Except PyError (Json × Json) := do
  let record ← entry.loadMeta ""
  let challenge ← record.getItem "challenge"
  let intentId ← record.getItem "intent_id"
  let notBefore ← record.getItem "not_before"
  let _ ← readInt notBefore
  let lost ← record.getItem "lost"
  lost.checkList
  pure (challenge, intentId)

/-- Did one of the signatures sign the challenge under the entry's own key? -/
def freshSigned (entry : ChainEntry) (challenge : String) : Except PyError Bool :=
  entry.signatures.anyM fun sig => do
    let message ← encodeAscii challenge
    pure (verifierFor env entry.pubkey entry.algorithm sig message)

/-- `_require_reset` -/
def requireReset (members : Dict Json.Key ChainEntry) (entry : ChainEntry) (message : Bytes) :
    Except (Refused Break) Unit :=
  match members.get? passphraseKey with
  | none => .error (.named .resetNoPassphrase)
  | some passphrase => do
      let alone := (∅ : Dict Json.Key ChainEntry).set passphraseKey passphrase
      ensure (passphraseKey ∈ satisfiedKinds env alone entry message) (.named .resetNotSigned)
      let (challenge, intentId) ← naming metaCaught .resetMeta (readResetMeta entry)
      match challenge with
      | .str challenge => do
          ensure (boundToIntent env challenge intentId) (.named .resetChallenge)
          let signed ← raising (freshSigned env entry challenge)
          ensure (signed = true) (.named .freshNotSigned)
      | _ => .error (.named .resetChallenge)

namespace Replay

/-- The entry stands where it says, and names the hash of the one before it. `==` takes `1.0` and
`True` for `1`. -/
def follow (r : Replay) (entry : ChainEntry) : Except (Refused Break) Unit := do
  ensure (entry.seq.hashKey = .ok (.number r.count)) (.named .sequence)
  ensure (entry.prev = (r.previous.map (entryHash env)).elim .null .str) (.named .prevMismatch)

/-- The sealed id inside the signed bytes. -/
def entrySeal (r : Replay) (entry : ChainEntry) : Except (Refused Break) (Option String) :=
  match entry.op with
  | .sealId => do
      ensure (r.sealedId = none) (.named .sealedTwice)
      ensure (∃ kind ∈ r.members.keys, IsDevice kind) (.named .sealNoDevice)
      let value ← decodeId entry
      pure (some value)
  | .reset => do
      ensure (r.sealedId ≠ none) (.named .resetUnsealed)
      pure r.sealedId
  | _ => pure r.sealedId

/-- The set as it stands signed the entry; the genesis entry is an unsigned `add`. -/
def authorise (r : Replay) (entry : ChainEntry) : Except (Refused Break) Unit := do
  if r.count = 0 then
    ensure (entry.op = .add) (.named .genesisOp)
    ensure (entry.signatures = []) (.named .genesisSigned)
  else
    let entrySeal ← r.entrySeal entry
    let message := entry.message env entrySeal
    if entry.op = .reset then requireReset env r.members entry message
    else requireThreshold env r.members entry message r.deviceEver

-- Named, so that no definition holds a proof of its own.
local instance lawfulSeat : LawfulBEq (Json.Key × Json.Key) := inferInstance

/-- A reset names an owner device of its slot, and seats a slot of its intent once. -/
def recordReset (r : Replay) (entry : ChainEntry) : Except (Refused Break) Replay := do
  let kind ← raising entry.kind.hashKey
  ensure (IsDevice kind) (.named .resetKind)
  let record ← raising (entry.loadMeta "\x7b\x7d")
  let slot ← raising (record.get "slot")
  let slotKey ← raising slot.hashKey
  ensure ((Genesis.Replay.slotKindOf slot).map Json.str = some entry.kind) (.named .resetSlot)
  let intentId ← raising (record.get "intent_id")
  let intentKey ← raising intentId.hashKey
  ensure ((intentKey, slotKey) ∉ r.seats) (.named .seatTwice)
  let named ← raising (record.getOr "intent_id" (.str ""))
  pure { r with
    seats := r.seats ++ [(intentKey, slotKey)]
    resets := if r.resets.any (fun id => id.hashKey = .ok intentKey) then r.resets
      else r.resets ++ [named] }

/-- `k != entry.kind`: a list differs from every key, and `nan` from itself. -/
def Differs (key : Json.Key) (kind : Json) : Prop := key = .nan ∨ kind.hashKey ≠ .ok key

instance (key : Json.Key) (kind : Json) : Decidable (Differs key kind) :=
  inferInstanceAs (Decidable (_ ∨ _))

/-- A member of another kind with the entry's key. -/
def twin (r : Replay) (entry : ChainEntry) : Option (Json.Key × ChainEntry) :=
  r.members.items.find? fun item => Differs item.1 entry.kind ∧ item.2.pubkey = entry.pubkey

/-- `members[entry.kind] = entry`, refused when another kind already holds the key. -/
def seat (r : Replay) (entry : ChainEntry) : Except (Refused Break) Replay := do
  ensure (r.twin entry = none) (.named .sharedKey)
  let kind ← raising entry.kind.hashKey
  pure { r with
    members := r.members.set kind entry
    deviceEver := r.deviceEver || decide (IsDevice kind) }

/-- `del members[entry.kind]`, with the last member and the last device guarded. -/
def remove (r : Replay) (entry : ChainEntry) : Except (Refused Break) Replay := do
  let kind ← raising entry.kind.hashKey
  match r.members.get? kind with
  | none => .error (.named .removeAbsent)
  | some removed => do
      ensure (entry.pubkey = removed.pubkey ∧ entry.algorithm = removed.algorithm)
        (.named .removeOtherKey)
      ensure (kind ≠ passphraseKey) (.named .removePassphrase)
      let members := r.members.erase kind
      ensure (members.items ≠ []) (.named .removeLastMember)
      ensure (¬(r.deviceEver = true ∧ passphraseKey ∈ members ∧
        ¬∃ kind ∈ members.keys, IsDevice kind)) (.named .removeLastDevice)
      pure { r with members := members }

/-- What the entry changes. -/
def apply (r : Replay) (entry : ChainEntry) : Except (Refused Break) Replay :=
  match entry.op with
  | .add => r.seat entry
  | .reset => do
      let r ← r.recordReset entry
      r.seat entry
  | .remove => r.remove entry
  | .sealId => do
      let value ← decodeId entry
      let operator ← sealOperatorKey env entry
      pure { r with sealedId := some value, sealedOperatorPubkey := some operator }
  | .rotateOperator => do
      ensure (entry.kind = .str "operator" ∧ entry.pubkey.length = 64) (.named .rotateShape)
      pure { r with operatorPubkey := some entry.pubkey }

/-- One turn of the loop. -/
def step (r : Replay) (entry : ChainEntry) : Except (Refused Break) Replay := do
  r.follow env entry
  r.authorise env entry
  let r ← r.apply env entry
  pure { r with previous := some entry, count := r.count + 1 }

end Replay

def replayLoop (entries : List ChainEntry) : Except (Refused Break) Replay :=
  entries.foldlM (Replay.step env) Replay.start

/-- What a whole chain says. -/
structure ChainState where
  members : Dict Json.Key ChainEntry
  sealedId : Option String
  operatorPubkey : Option Bytes
  deviceEver : Bool
  tipHash : Option String
  length : ℕ
  resets : List Json
  sealedOperatorPubkey : Option Bytes
  deriving DecidableEq

/-- What the loop returns. -/
def Replay.finish (r : Replay) : ChainState where
  members := r.members
  sealedId := r.sealedId
  operatorPubkey := r.operatorPubkey
  deviceEver := r.deviceEver
  tipHash := r.previous.map (entryHash env)
  length := r.count
  resets := r.resets
  sealedOperatorPubkey := r.sealedOperatorPubkey

def replayState (entries : List ChainEntry) : Except (Refused Break) ChainState :=
  (replayLoop env entries).map (Replay.finish env)

/-! ## The mark -/

/-- `_check_one_mark` -/
def checkOneMark (entries : List ChainEntry) (state : Option ChainState) (mark : Json) :
    Except (Refused Break) Unit :=
  match mark with
  | .obj fields => do
      let value (key : String) : Json := (fields.lookup key).getD .null
      ensure ((value "sealed_id").truthy = true) (.named .markMalformed)
      match state with
      | none => .error (.named .markUnsealed)
      | some state =>
          match state.sealedId with
          | none => .error (.named .markUnsealed)
          | some sealedId => do
              ensure (value "sealed_id" = .str sealedId) (.named .markOtherId)
              let length ← raising (readInt ((fields.lookup "length").getD (.int 0)))
              ensure (length ≤ state.length) (.named .markTruncated)
              let last ← raising (pyIndex entries (length - 1))
              ensure (value "tip" = .str (entryHash env last)) (.named .markReplaced)
              let seq ← raising (readInt ((fields.lookup "seal_seq").getD (.int (-1))))
              ensure (0 ≤ seq ∧ (entries[seq.toNat]?).map (fun e => Json.str (entryHash env e)) =
                some (value "seal_hash")) (.named .markSealEntry)
  | _ => .error (.named .markMalformed)

/-- The sides of a mark in flight in turn: the first the chain answers to is enough. -/
def checkSides (entries : List ChainEntry) (state : Option ChainState) :
    List Json → Except (Refused Break) Unit
  | [] => .error (.named .markNeitherSide)
  | side :: sides =>
      if side = .null then
        if state.bind ChainState.sealedId = none then .ok () else checkSides entries state sides
      else
        match checkOneMark env entries state side with
        | .ok _ => .ok ()
        | .error (.named _) => checkSides entries state sides
        | .error (.raised e) => .error (.raised e)

/-- `check_seal_mark` -/
def checkSealMark (entries : List ChainEntry) (state : Option ChainState) (mark : Json) :
    Except (Refused Break) Unit :=
  match mark with
  | .null => ensure (state.bind ChainState.sealedId = none) (.named .markDeleted)
  | .obj [] => .error (.named .markMalformed)
  | .obj fields =>
      match fields.lookup "next" with
      | some next => checkSides env entries state [next, (fields.lookup "prev").getD .null]
      | none => checkOneMark env entries state mark
  | _ => .error (.named .markMalformed)

/-! ## The store's reads -/

/-- `_read_chain_locked`; `none` is a file that is not there. -/
def readChain : Option Json → Except (Refused Break) (List Json)
  | none => pure []
  | some raw => do
      match ← raising (raw.get "chain") with
      | .null => pure []
      | .arr records => pure records
      | _ => .error (.named .chainNotList)

/-- The state of a chain, `none` for one without entries. -/
def stateOf (entries : List ChainEntry) : Except (Refused Break) (Option ChainState) :=
  if entries = [] then pure none else (replayState env entries).map some

/-- `genesis_chain_state`, of the two documents; a mark that is not there is `null`. -/
def genesisChainState (members : Option Json) (mark : Json) :
    Except (Refused Break) (Option ChainState) := do
  let records ← readChain members
  let entries ← entriesFromRecords env records
  let state ← stateOf env entries
  checkSealMark env entries state mark
  pure state

structure GenesisMember where
  kind : Json.Key
  pubkey : Bytes
  algorithm : String
  deriving DecidableEq

/-- The members that can be read, and the names of those that cannot. -/
structure Members where
  readable : List GenesisMember
  unreadable : List String
  deriving DecidableEq

/-- The records of a stored value, as `entries_from_records(stored or [])` goes through them; what
it raises is caught. -/
def storedRecords (stored : Json) : Option (List Json) :=
  if stored.truthy then
    match stored with
    | .arr records => some records
    | .str s => some ((chars s).map fun c => .str (String.ofList [c]))
    | .obj fields => some (fields.map fun field => .str field.1)
    | _ => none
  else some []

/-- `_replay_stored_chain`: whatever the reader of the entries raises is caught, and the replay's
`ChainError`. -/
def replayStoredChain (stored : Json) : Except PyError Members :=
  match (storedRecords stored).map (entriesFromRecords env) with
  | some (.ok entries) =>
      if entries = [] then .ok ⟨[], []⟩
      else
        match replayState env entries with
        | .ok state =>
            .ok ⟨state.members.items.map fun item => ⟨item.1, item.2.pubkey, item.2.algorithm⟩, []⟩
        | .error (.named _) => .ok ⟨[], ["<chain>"]⟩
        | .error (.raised e) => .error e
  | _ => .ok ⟨[], ["<chain>"]⟩

/-- `GENESIS_LEGACY_ALGORITHM` -/
def legacyAlgorithm : String := "ed25519"

/-- The hexadecimal key and the algorithm of a stored entry, in either form. -/
def storedKey : Json → Option (String × String)
  | .str hexed => some (hexed, legacyAlgorithm)
  | .obj fields =>
      let algorithm := (fields.lookup "algorithm").getD .null
      match (fields.lookup "pubkey").getD .null,
          if algorithm.truthy then algorithm else .str legacyAlgorithm with
      | .str hexed, .str algorithm => some (hexed, algorithm)
      | _, _ => none
  | _ => none

/-- The member of a stored entry; `none` for one that cannot be read. -/
def flatMember (kind : String) (stored : Json) : Option GenesisMember := do
  let (hexed, algorithm) ← storedKey stored
  let pubkey ← fromHex hexed
  let algorithm ← (validateGenesisPubkey env pubkey algorithm).toOption
  pure { kind := .str kind, pubkey, algorithm }

/-- The flat map of members, one by one. -/
def flatMembers (fields : List (String × Json)) : Members where
  readable := fields.filterMap fun field => flatMember env field.1 field.2
  unreadable := (fields.filter fun field => flatMember env field.1 field.2 = none).map Prod.fst

/-- `_read_genesis_members` -/
def readGenesisMembers : Option Json → Except PyError Members
  | none => .ok ⟨[], []⟩
  | some raw => do
      let chain ← raw.get "chain"
      if chain ≠ .null then replayStoredChain env chain
      else
        let members ← raw.get "members"
        if members.truthy then
          match members with
          | .obj fields => pure (flatMembers env fields)
          | _ => .error .attributeError
        else pure ⟨[], []⟩

/-- `list_genesis_members_full` -/
def listGenesisMembersFull (document : Option Json) : Except PyError (List GenesisMember) :=
  (readGenesisMembers env document).map Members.readable

/-- `list_unreadable_genesis_members` -/
def listUnreadableGenesisMembers (document : Option Json) : Except PyError (List String) :=
  (readGenesisMembers env document).map Members.unreadable

end Stored
end Genesis
end Recto
