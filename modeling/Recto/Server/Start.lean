import Recto.Server.Finish

/-!
# The start of a process

The memory begins empty, the identity is settled against the chain, and then the
records are taken up where the last process left them: dead reset codes are
cleared, committed work is finished, open resets are carded again.
-/

namespace Recto
namespace Server

open Genesis

variable (env : Host)

/-! ## Cards -/

/-- `f"top-plane:{record_id}"` -/
def topPlaneSecret (recordId : String) : String := "top-plane:" ++ recordId

/-- `_card_devices`: one card per phone. A phone in `recorded` keeps the card it already shows. -/
def cardDevices (recorded : Dict String String) (recordId : String) (message : Bytes) (ttl : ℤ) :
    List PhoneRegistration → Dict String String → Served (Dict String String)
  | [], cards => pure cards
  | phone :: phones, cards => do
      let drawn ← drawToken env
      let s ← Faulty.get
      let requestId := (recorded.get? phone.phoneId).getD drawn
      addPending
        { requestId := requestId, secret := topPlaneSecret recordId, phoneId := phone.phoneId
          payloadHash := message, requestedAt := s.clock, expiresAt := s.clock + ttl }
      cardDevices recorded recordId message ttl phones (cards.set requestId phone.phoneId)

/-! ## The identity -/

/-- `BOOTLOADER_ID_PREFIX` -/
def bootloaderIdPrefix : String := "rb1-"

/-- `len(k).to_bytes(4, "big")` -/
def bigEndian4 (n : ℕ) : Bytes :=
  [UInt8.ofNat (n / 2 ^ 24), UInt8.ofNat (n / 2 ^ 16), UInt8.ofNat (n / 2 ^ 8), UInt8.ofNat n]

/-- `derive_bootloader_id`, for a set of keys that is not empty. -/
def deriveBootloaderId (operatorPubkey : Bytes) (memberPubkeys : List Bytes) : String :=
  let keys := (operatorPubkey :: memberPubkeys).dedup.insertionSort (· ≤ ·)
  let message := utf8 "recto-bootloader-id-v1" ++ keys.flatMap fun k => bigEndian4 k.length ++ k
  bootloaderIdPrefix ++ String.ofList ((chars (hex (env.sha256 message))).take 32)

/-- `IDENTITY_MEMBER_KINDS`, among the members that can be read. -/
def identityMemberPubkeys (s : Store) : List Bytes :=
  (((s.genesisMembers env).get? OwnerSlot.recovery.kind).map fun m => m.pubkey).toList

/-- The keys a seal-id entry records for its id. -/
def sealInputs (record : Record) : Option (Bytes × List Bytes) :=
  match Json.loads (record.metaText.getD "") with
  | .ok (.obj fields) =>
      match fields.lookup "operator_pubkey", fields.lookup "identity_members" with
      | some (.str operator), some (.arr members) => do
          let operator ← fromHex operator
          let members ← members.mapM fun member =>
            match member with
            | .str text => fromHex text
            | _ => none
          pure (operator, members)
      | _, _ => none
  | _ => none

/-- `_seal_time_identity_inputs`: do the recorded keys recompute the sealed id? -/
def sealInputsRecompute (chain : List Record) (sealedId : String) : Bool :=
  match (chain.find? fun record => record.op = Op.sealId.name).bind sealInputs with
  | some (operator, members) =>
      decide (operator ≠ []) && decide (deriveBootloaderId env operator members = sealedId)
  | none => false

/-- What the launcher passes to `create_server`. -/
structure Launch where
  bootloaderId : Option String
  operatorPubkey : Option Bytes
  ownerResetWindowSeconds : ℤ
  ownerApprovalTtlSeconds : ℤ
  expectSealedId : Option String
  deriving DecidableEq, Repr

/-- `RuntimeError`, `BootloaderError`: the start is refused. -/
def startRefused : Refusal := .bootloader .refused

/-- GATE 5a: the launcher's operator key and the sealed one never disagree. -/
def operatorKeyAtStart (s : Store) (launch : Launch) : Except Refusal (Option Bytes) :=
  match launch.operatorPubkey, s.operatorFile with
  | none, sealedKey => .ok sealedKey
  | some key, none => .ok (some key)
  | some key, some sealedKey => if sealedKey = key then .ok (some key) else .error startRefused

/-- GATE 5d: the id a start serves, once the chain settled. -/
def servedId (s : Store) (launch : Launch) (configuredId unsealedId : String)
    (operatorKey : Option Bytes) : Except Refusal String := do
  let cs ← match genesisChainState env.toPrimitives s.chain with
    | .ok cs => .ok cs
    | .error _ => .error startRefused
  match launch.expectSealedId with
  | some expected =>
      ensure (expected = "" ∨ cs.bind ChainState.sealedId = some expected) startRefused
  | none => pure ()
  match cs with
  | none => pure unsealedId
  | some cs =>
      match cs.sealedId with
      | none => pure unsealedId
      | some sealedId =>
          ensure (¬((chars bootloaderIdPrefix).isPrefixOf (chars configuredId) = true ∧
            configuredId ≠ sealedId)) startRefused
          ensure (sealInputsRecompute env s.chain.chain sealedId = true) startRefused
          ensure (∀ key ∈ cs.currentOperatorPubkey, key = operatorKey.getD []) startRefused
          pure sealedId

/-- The memory of a new process over the same files. -/
def Store.reloaded (s : Store) : Store :=
  { s with
    up := false
    macKey := ""
    revocations := s.revocationsFile
    sessions := s.sessionsFile
    pending := Dict.empty
    ownerEnrolls := Dict.empty
    challenges := Dict.empty
    ownerChallenges := Dict.empty
    memberChallenges := Dict.empty
    pairingCodes := Dict.empty
    memberPairingCodes := Dict.empty }

/-- The identity gates, and the configuration they end in. -/
def settleIdentity (launch : Launch) : Served PUnit := do
  let drawn ← drawToken env
  let s ← Faulty.get
  let operatorKey ← Faulty.ofExcept (operatorKeyAtStart s launch)
  let configuredId := launch.bootloaderId.getD drawn
  let derivedId := match operatorKey with
    | some key =>
        if key = [] then none else some (deriveBootloaderId env key (identityMemberPubkeys env s))
    | none => none
  onChain (settleSealMark env.toPrimitives)
  let s ← Faulty.get
  let bootloaderId ← Faulty.ofExcept
    (servedId env s launch configuredId (derivedId.getD configuredId) operatorKey)
  let macKey ← drawToken env
  Faulty.modify fun s =>
    { s with
      config :=
        { bootloaderId := bootloaderId
          derivedBootloaderId := derivedId
          operatorPubkey := operatorKey
          ownerResetWindowSeconds := launch.ownerResetWindowSeconds
          ownerApprovalTtlSeconds := launch.ownerApprovalTtlSeconds
          expectSealedId := launch.expectSealedId.filter fun id => id ≠ "" }
      macKey := macKey }

/-! ## The records -/

/-- What a record's codes become once the process that issued them is gone. -/
def ResetRecord.withoutCodes (r : ResetRecord) : ResetRecord :=
  { r with codeHash := none, codeExpiresAt := 0, challengeMac := none, challengeExpiresAt := 0 }

def clearDeadCodes (r : ResetRecord) : Served PUnit :=
  if r.state = .armed ∧ (r.codeHash ≠ none ∨ r.challengeMac ≠ none) then putReset r.withoutCodes
  else pure ⟨⟩

/-- `_clear_dead_reset_codes` -/
def clearDeadResetCodes : Served PUnit := do
  let s ← Faulty.get
  Faulty.forEach clearDeadCodes s.listResets

def rollForwardRecord : TopPlaneRecord → Served PUnit
  | .reset r => do
      let s ← Faulty.get
      if r.state = .registered then
        let committed ← Faulty.ofExcept (resetEntryOnChain s r)
        if committed then
          let _ ← finishResetSeat env r none
          pure ⟨⟩
        else pure ⟨⟩
      else pure ⟨⟩
  | .act r => do
      let s ← Faulty.get
      if r.state ≠ .appended ∧ actEntryOnChain s r.draft then finishAct env r none none
      else pure ⟨⟩

/-- `_roll_forward_committed`: one record never stops the start. -/
def rollForwardCommitted : Served PUnit := do
  let s ← Faulty.get
  match genesisChainState env.toPrimitives s.chain with
  | .error _ => pure ⟨⟩
  | .ok _ =>
      Faulty.forEach (fun record => (rollForwardRecord env record).handle fun _ => pure ⟨⟩)
        s.listTopPlaneRecords

/-- The phones a record's cards went to, each with its card. -/
def recordedCards (cards : Dict String String) : Dict String String :=
  cards.items.foldl (fun recorded item => recorded.set item.2 item.1) Dict.empty

def recardReset (r : ResetRecord) : Served PUnit := do
  let s ← Faulty.get
  if r.state = .waiting ∧ s.ResetOpen r ∧ s.clock < r.intent.notBefore then
    let cards ← cardDevices env (recordedCards r.cards) r.id r.message
      (max 60 (r.intent.notBefore - s.clock)) s.owners Dict.empty
    putReset { r with cards := cards }
  else pure ⟨⟩

/-- `_recard_open_resets`: every owner phone registered now, until the reset's not_before. -/
def recardOpenResets : Served PUnit := do
  let s ← Faulty.get
  Faulty.forEach (recardReset env) s.listResets

/-- An absent marker is decided once; an open one beside an owner phone is closed. -/
def decideOwnerGenesis : Served PUnit := do
  let s ← Faulty.get
  match s.ownerGenesis with
  | none =>
      setOwnerGenesis (if s.listPhones = [] ∧ s.sessions.items = [] then .opened else .closed)
  | some .opened => if s.owners = [] then pure ⟨⟩ else setOwnerGenesis .closed
  | some .closed => pure ⟨⟩

/-- `create_server`: a start that raises serves nothing. -/
def start (launch : Launch) : Served PUnit := do
  Faulty.modify Store.reloaded
  settleIdentity env launch
  clearDeadResetCodes
  rollForwardCommitted env
  recardOpenResets env
  decideOwnerGenesis
  Faulty.modify fun s => { s with up := true }

end Server
end Recto
