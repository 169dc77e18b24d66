import Recto.Genesis.ChainStore
import Recto.State.Revocations

/-!
# The bootloader's store

What a serving process holds: the files of its state dir, the memory beside
them, the clock and the random draws. Reads answer from memory, and every write
of a file may fail: the phone registry and the genesis marker change in memory
only after the file landed, the revocations and the pending queue before it.
Requests are served one at a time, under the registry lock, and each reads the
clock once.
-/

namespace Recto
namespace Server

open Genesis

/-- What the process draws and computes outside the source. -/
structure Host extends Primitives where
  /-- The random tokens and uuids, in the order they are drawn. -/
  token : ℕ → String
  /-- The six-digit codes, in the order they are drawn. -/
  code : ℕ → String
  /-- `hmac.new(key, message, sha256).hexdigest()` -/
  hmac : String → String → String

/-- `SLOTS` -/
inductive OwnerSlot where
  | primary
  | recovery
  deriving DecidableEq, Repr

namespace OwnerSlot

def name : OwnerSlot → String
  | primary => "primary"
  | recovery => "recovery"

/-- `SLOT_KIND` -/
def kind : OwnerSlot → String
  | primary => "primary-phone"
  | recovery => "recovery-phone"

def ofName? (s : String) : Option OwnerSlot := [primary, recovery].find? fun slot => slot.name = s

theorem name_injective : Function.Injective name := by
  intro a b
  cases a <;> cases b <;> decide

end OwnerSlot

/-- Where a phone is registered: in an owner slot, or beside the slots (`MEMBER_SLOT`). -/
inductive Slot where
  | owner (slot : OwnerSlot)
  | member
  deriving DecidableEq, Repr

structure PhoneRegistration where
  phoneId : String
  deviceLabel : String
  publicKey : String
  supportedAlgorithms : List String
  registeredAt : ℤ
  lastSeen : ℤ
  pushToken : Option String
  pushPlatform : Option String
  pollPublicKey : Option String
  slot : Slot
  memberBindings : List (String × String)
  deriving DecidableEq, Repr

/-- `p.slot in SLOTS` -/
def PhoneRegistration.IsOwner (p : PhoneRegistration) : Prop := p.slot ≠ .member

instance (p : PhoneRegistration) : Decidable p.IsOwner := inferInstanceAs (Decidable (_ ≠ _))

/-- A card on a phone's queue. -/
structure PendingRequest where
  requestId : String
  secret : String
  phoneId : String
  payloadHash : Bytes
  requestedAt : ℤ
  expiresAt : ℤ
  deriving DecidableEq, Repr

/-! ## Top-plane records -/

/-- An act as a chain entry before its signatures. -/
structure Draft where
  op : String
  kind : String
  value : Bytes
  algorithm : String
  seq : ℤ
  prev : Option String
  metaText : Option String
  deriving DecidableEq, Repr

inductive ActState where
  | pending
  | refused
  | appended
  deriving DecidableEq, Repr

structure ActRecord where
  id : String
  state : ActState
  draft : Draft
  message : Bytes
  passphraseSig : String
  /-- The phone each card was queued for. -/
  cards : Dict String String
  createdUnix : ℤ
  expiresAtUnix : ℤ
  deriving DecidableEq

/-- What the passphrase signs to start an owner reset. -/
structure Intent where
  intentId : String
  bootloaderId : String
  slots : List OwnerSlot
  lost : List String
  notBefore : ℤ
  startedAt : ℤ
  deriving DecidableEq, Repr

/-- The device that answered a reset's code. -/
structure Fresh where
  publicKey : String
  algorithm : String
  proof : String
  pollPublicKey : String
  deviceLabel : String
  pushToken : Option String
  pushPlatform : Option String
  deriving DecidableEq, Repr

inductive ResetState where
  | waiting
  | armed
  | registered
  | completed
  | cancelled
  | aborted
  deriving DecidableEq, Repr

/-- `OPEN_RESET_STATES` -/
def ResetState.IsOpen : ResetState → Prop
  | waiting => True
  | armed => True
  | registered => True
  | _ => False

instance (state : ResetState) : Decidable state.IsOpen := by
  cases state <;> unfold ResetState.IsOpen <;> infer_instance

structure ResetRecord where
  state : ResetState
  intent : Intent
  message : Bytes
  passphraseSig : String
  cards : Dict String String
  createdUnix : ℤ
  slot : Option OwnerSlot
  codeHash : Option String
  codeExpiresAt : ℤ
  codeAttempts : ℕ
  challenge : Option String
  challengeMac : Option String
  challengeExpiresAt : ℤ
  fresh : Option Fresh
  completedSlots : List OwnerSlot
  armNonces : List String
  abortNonces : List String
  cancelledBy : Option String
  deriving DecidableEq

/-- The record's `id` is its intent's. -/
def ResetRecord.id (r : ResetRecord) : String := r.intent.intentId

inductive TopPlaneRecord where
  | act (r : ActRecord)
  | reset (r : ResetRecord)
  deriving DecidableEq

namespace TopPlaneRecord

def id : TopPlaneRecord → String
  | act r => r.id
  | reset r => r.id

def cards : TopPlaneRecord → Dict String String
  | act r => r.cards
  | reset r => r.cards

def message : TopPlaneRecord → Bytes
  | act r => r.message
  | reset r => r.message

def reset? : TopPlaneRecord → Option ResetRecord
  | reset r => some r
  | act _ => none

end TopPlaneRecord

/-! ## Owner-enroll records -/

inductive EnrollState where
  | pending
  | approved
  | refused
  deriving DecidableEq, Repr

/-- The chain entry of a slot entry, once the plane is sealed. -/
structure EnrollAct where
  draft : Draft
  message : Bytes
  passphraseSig : Option String
  approverSig : Option String
  deriving DecidableEq, Repr

structure OwnerEnroll where
  requestId : String
  cards : Dict String String
  incomingPubkey : String
  incomingRef : String
  slot : OwnerSlot
  approverRefs : List String
  occupantRef : Option String
  createdUnix : ℤ
  notAfter : ℤ
  state : EnrollState
  approvedBy : Option String
  approvedUntil : ℤ
  expiresAtUnix : ℤ
  topPlane : Option EnrollAct
  deriving DecidableEq

/-! ## The store -/

/-- What the launcher gives a process, and what the process makes of it at its start. -/
structure Config where
  bootloaderId : String
  derivedBootloaderId : Option String
  operatorPubkey : Option Bytes
  ownerResetWindowSeconds : ℤ
  ownerApprovalTtlSeconds : ℤ
  /-- `RECTO_EXPECT_SEALED_ID`, held outside the state dir. -/
  expectSealedId : Option String
  deriving DecidableEq, Repr

/-- The marker of owner genesis. -/
inductive OwnerGenesis where
  | opened
  | closed
  deriving DecidableEq, Repr

structure Store where
  /-- phones.json -/
  phones : Dict String PhoneRegistration
  /-- top_plane.json -/
  topPlane : Dict String TopPlaneRecord
  /-- genesis_members.json and genesis_seal_mark.json -/
  chain : ChainStore
  /-- owner_genesis.json -/
  ownerGenesis : Option OwnerGenesis
  /-- revocations.json -/
  revocationsFile : State.Revocations
  /-- sessions.json: the phone of each (service, secret). -/
  sessionsFile : Dict (String × String) String
  /-- vault_root.json -/
  operatorFile : Option Bytes
  /-- Is a process serving the store? What follows but the clock and the draws is its memory. -/
  up : Bool
  config : Config
  macKey : String
  revocations : State.Revocations
  sessions : Dict (String × String) String
  pending : Dict String PendingRequest
  ownerEnrolls : Dict String OwnerEnroll
  challenges : Dict String ℤ
  ownerChallenges : Dict String ℤ
  memberChallenges : Dict String (ℤ × Option (String × String))
  pairingCodes : Dict String ℤ
  memberPairingCodes : Dict String (ℤ × Option (String × String))
  /-- `int(time.time())` -/
  clock : ℤ
  /-- How many tokens and codes were drawn. -/
  draws : ℕ

/-- `BootloaderError` and its kinds. -/
inductive BootloaderError where
  | refused
  | registrationExpired
  | unknownPhone
  | pendingNotFound
  deriving DecidableEq, Repr

/-- Why a request is not served. -/
inductive Refusal where
  /-- A refusal answered under a stable name: sent, or raised as `TopPlaneRefused`. -/
  | named (status : ℕ) (error : String)
  | bootloader (e : BootloaderError)
  /-- `verify_signature` raised. -/
  | unverifiable
  /-- `ChainError`, or one of Python's own errors. -/
  | store (e : Failure)
  deriving DecidableEq, Repr

abbrev Refusal.osError : Refusal := .store (.python .osError)

abbrev Served := Faulty Store Refusal

namespace Store

/-! ## Phones -/

/-- `list_phones()` -/
def listPhones (s : Store) : List PhoneRegistration := s.phones.values

/-- `get_phone(phone_id)` -/
def getPhone (s : Store) (phoneId : String) : Option PhoneRegistration := s.phones.get? phoneId

def findByPubkey (s : Store) (publicKey : String) : Option PhoneRegistration :=
  s.listPhones.find? fun p => p.publicKey = publicKey

/-- The phones in the owner slots. -/
def owners (s : Store) : List PhoneRegistration := s.listPhones.filter fun p => p.IsOwner

end Store

/-- `phone_ref_of` -/
def phoneRef (env : Host) (publicKey : String) : String :=
  let raw := (unb64u publicKey).getD (utf8 publicKey)
  "pk_" ++ String.ofList ((chars (hex (env.sha256 raw))).take 16)

/-- One key, one phone: what the registry keeps when a key it holds registers again. -/
def mergeOntoExisting (existing : Option PhoneRegistration) (incoming : PhoneRegistration) :
    PhoneRegistration :=
  match existing with
  | none => incoming
  | some e => { incoming with phoneId := e.phoneId, registeredAt := e.registeredAt }

/-- `_write_phones`, and the memory after it. -/
def writePhones (phones : Dict String PhoneRegistration) : Served PUnit :=
  Faulty.write (fun s => { s with phones := phones }) .osError

/-- pending.json is written whole and never read back. -/
def savePending : Served PUnit := Faulty.write id .osError

def saveSessions : Served PUnit :=
  Faulty.write (fun s => { s with sessionsFile := s.sessions }) .osError

/-- Once phones.json landed the act is done: a failed save after it is logged. -/
def saveAfterPhones : Served PUnit := do
  saveSessions.handle fun _ => pure ⟨⟩
  savePending.handle fun _ => pure ⟨⟩

/-- The sessions and the queue of a phone that left. -/
def Store.dropPhone (s : Store) (phoneId : String) : Store :=
  { s with
    sessions := s.sessions.filter fun _ p => p ≠ phoneId
    pending := s.pending.filter fun _ p => p.phoneId ≠ phoneId }

def registerPhone (reg : PhoneRegistration) : Served PhoneRegistration := do
  let s ← Faulty.get
  let stored := mergeOntoExisting (s.findByPubkey reg.publicKey) reg
  writePhones (s.phones.set stored.phoneId stored)
  pure stored

def revokePhone (phoneId : String) : Served Bool := do
  let s ← Faulty.get
  if phoneId ∈ s.phones then
    writePhones (s.phones.erase phoneId)
    Faulty.modify fun s => s.dropPhone phoneId
    saveAfterPhones
    pure true
  else pure false

/-- One write: the occupant goes and the incoming key lands together. -/
def replacePhone (occupantPhoneId : String) (reg : PhoneRegistration) :
    Served (Option PhoneRegistration) := do
  let s ← Faulty.get
  if occupantPhoneId ∈ s.phones then
    let phones := s.phones.erase occupantPhoneId
    let stored := mergeOntoExisting (phones.values.find? fun p => p.publicKey = reg.publicKey) reg
    writePhones (phones.set stored.phoneId stored)
    Faulty.modify fun s => s.dropPhone occupantPhoneId
    saveAfterPhones
    pure (some stored)
  else pure none

/-! ## The pending queue -/

def PendingRequest.isExpired (p : PendingRequest) (now : ℤ) : Bool := p.expiresAt ≤ now

def addPending (card : PendingRequest) : Served PUnit := do
  Faulty.modify fun s => { s with pending := s.pending.set card.requestId card }
  savePending

/-- `take_pending`: popped in memory, then saved. -/
def takePending (requestId : String) : Served PUnit := do
  let s ← Faulty.get
  if requestId ∈ s.pending then
    Faulty.modify fun s => { s with pending := s.pending.erase requestId }
    savePending
  else pure ⟨⟩

def Store.listPendingForPhone (s : Store) (phoneId : String) : List PendingRequest :=
  s.pending.values.filter fun p => !p.isExpired s.clock && p.phoneId = phoneId

/-- The cards of a record are withdrawn. -/
def takeCards (cards : Dict String String) : Served PUnit := Faulty.forEach takePending cards.keys

/-! ## Revocations -/

/-- `is_revoked`: an entry counts until the original expiry. -/
def Store.isRevoked (s : Store) (jti : String) : Bool :=
  match s.revocations.get? jti with
  | some e => s.clock < e.originalExp
  | none => false

theorem Store.isRevoked_iff (s : Store) (jti : String) :
    s.isRevoked jti = true ↔ jti ∈ State.purgeExpiredRevocations s.revocations s.clock := by
  simp only [Dict.mem_iff, State.get?_purge, Store.isRevoked]
  cases s.revocations.get? jti with
  | none => simp
  | some e => simp

/-- The first entry of a jti stands. -/
def addRevocation (entry : State.RevocationEntry) : Served PUnit := do
  let s ← Faulty.get
  if s.isRevoked entry.jti then pure ⟨⟩
  else
    Faulty.modify fun s => { s with revocations := s.revocations.set entry.jti entry }
    Faulty.write (fun s => { s with revocationsFile := s.revocations }) .osError

/-! ## Top-plane records -/

/-- `list_top_plane_records()`: the file is written with its keys sorted. -/
def Store.listTopPlaneRecords (s : Store) : List TopPlaneRecord :=
  (s.topPlane.items.insertionSort fun a b => a.1 ≤ b.1).map Prod.snd

/-- The reset records among them. -/
def Store.listResets (s : Store) : List ResetRecord :=
  s.listTopPlaneRecords.filterMap TopPlaneRecord.reset?

def Store.getTopPlaneRecord (s : Store) (id : String) : Option TopPlaneRecord := s.topPlane.get? id

/-- `get_top_plane_record(id)` where a reset is asked for. -/
def Store.getReset (s : Store) (id : String) : Option ResetRecord :=
  (s.getTopPlaneRecord id).bind TopPlaneRecord.reset?

def putTopPlaneRecord (record : TopPlaneRecord) : Served PUnit :=
  Faulty.write (fun s => { s with topPlane := s.topPlane.set record.id record }) .osError

abbrev putReset (r : ResetRecord) : Served PUnit := putTopPlaneRecord (.reset r)

/-! ## Owner-enroll records, in memory only -/

def Store.listOwnerEnrolls (s : Store) : List OwnerEnroll :=
  s.ownerEnrolls.values.filter fun r => s.clock < r.expiresAtUnix

def putOwnerEnroll (r : OwnerEnroll) : Served PUnit :=
  Faulty.modify fun s => { s with ownerEnrolls := s.ownerEnrolls.set r.requestId r }

/-- `delete_owner_enroll`: whether a live record went. -/
def deleteOwnerEnroll (requestId : String) : Served Bool := do
  let s ← Faulty.get
  if s.listOwnerEnrolls.any fun r => r.requestId = requestId then
    Faulty.modify fun s => { s with ownerEnrolls := s.ownerEnrolls.erase requestId }
    pure true
  else pure false

/-- A removed phone's approvals, and the requests that name it as the occupant, are refused. A card
that fails to go is logged. -/
def voidOwnerEnroll (phoneId : String) (r : OwnerEnroll) : Served PUnit := do
  if r.state ≠ .refused ∧ (r.approvedBy = some phoneId ∨ r.occupantRef = some phoneId) then
    putOwnerEnroll { r with state := .refused }
    Faulty.forEach (fun card => (takePending card).handle fun _ => pure ⟨⟩) r.cards.keys
  else pure ⟨⟩

def voidOwnerEnrollsFor (phoneId : String) : Served PUnit := do
  let s ← Faulty.get
  Faulty.forEach (voidOwnerEnroll phoneId) s.listOwnerEnrolls

/-! ## One-time challenges and codes -/

/-- `secrets.token_hex`, `uuid.uuid4` -/
def drawToken (env : Host) : Served String := do
  let s ← Faulty.get
  Faulty.modify fun s => { s with draws := s.draws + 1 }
  pure (env.token s.draws)

def drawCode (env : Host) : Served String := do
  let s ← Faulty.get
  Faulty.modify fun s => { s with draws := s.draws + 1 }
  pure (env.code s.draws)

/-- Owner and member codes share one space. -/
def uniqueCode (env : Host) : ℕ → Served String
  | 0 => Faulty.raise (.store (.python .runtimeError))
  | fuel + 1 => do
      let code ← drawCode env
      let s ← Faulty.get
      if code ∈ s.pairingCodes ∨ code ∈ s.memberPairingCodes then uniqueCode env fuel
      else pure code

/-- Live in the dictionary: `exp is not None and time.time() < exp`. -/
def live (d : Dict String ℤ) (now : ℤ) (value : String) : Bool :=
  match d.get? value with
  | some exp => now < exp
  | none => false

def consumeChallenge (challenge : String) : Served Bool := do
  let s ← Faulty.get
  Faulty.modify fun s => { s with challenges := s.challenges.erase challenge }
  pure (live s.challenges s.clock challenge)

def consumeOwnerChallenge (challenge : String) : Served Bool := do
  let s ← Faulty.get
  Faulty.modify fun s => { s with ownerChallenges := s.ownerChallenges.erase challenge }
  pure (live s.ownerChallenges s.clock challenge)

def consumePairingCode (code : String) : Served Bool := do
  let s ← Faulty.get
  Faulty.modify fun s => { s with pairingCodes := s.pairingCodes.erase code }
  pure (live s.pairingCodes s.clock code)

/-- The binding of a live member code or challenge. -/
def liveBinding (d : Dict String (ℤ × Option (String × String))) (now : ℤ) (value : String) :
    Option (String × String) :=
  match d.get? value with
  | some (exp, binding) => if now < exp then binding else none
  | none => none

def consumeMemberPairingCode (code : String) : Served (Option (String × String)) := do
  let s ← Faulty.get
  Faulty.modify fun s => { s with memberPairingCodes := s.memberPairingCodes.erase code }
  pure (liveBinding s.memberPairingCodes s.clock code)

def consumeMemberChallenge (challenge : String) : Served (Option (String × String)) := do
  let s ← Faulty.get
  Faulty.modify fun s => { s with memberChallenges := s.memberChallenges.erase challenge }
  pure (liveBinding s.memberChallenges s.clock challenge)

/-- `is_member_challenge` -/
def Store.isMemberChallenge (s : Store) (challenge : String) : Bool :=
  match s.memberChallenges.get? challenge with
  | some (exp, _) => s.clock < exp
  | none => false

/-- `is_owner_challenge` -/
def Store.isOwnerChallenge (s : Store) (challenge : String) : Bool :=
  live s.ownerChallenges s.clock challenge

/-! ## The genesis marker and the chain -/

def setOwnerGenesis (state : OwnerGenesis) : Served PUnit :=
  Faulty.write (fun s => { s with ownerGenesis := some state }) .osError

/-- A call on the chain's two files. -/
def onChain {α : Type} (m : Chained α) : Served α :=
  Faulty.zoom Store.chain (fun s chain => { s with chain := chain }) .store m

end Server
end Recto
