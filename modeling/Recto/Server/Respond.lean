import Recto.Server.Register

/-!
# Answers to cards

A card is answered by a verified approve and by nothing else. An owner-slot card
approves a slot entry, an act's card is its device leg and appends its entry, and
a reset's card cancels it.
-/

namespace Recto
namespace Server

open Genesis

variable (env : Host)

/-- The body of an answer. -/
structure Answer where
  approved : Bool
  signature : String
  /-- Does the answer take a card of another subsystem? -/
  takesOther : Bool
  deriving DecidableEq, Repr

inductive Responded where
  /-- An owner-slot card was approved. -/
  | approved
  /-- A reset was cancelled. -/
  | cancelled
  /-- An act was appended, and its registry work finished or left to the next start. -/
  | appended (finished : Bool)
  /-- A card of another subsystem. -/
  | other
  deriving DecidableEq, Repr

/-- `PendingRequestNotFoundError` -/
def pendingNotFound : Refusal := .bootloader .pendingNotFound

/-- `UnknownPhoneError` -/
def unknownPhone : Refusal := .bootloader .unknownPhone

/-! ## Owner-slot cards -/

/-- `_owner_enroll_for_card` -/
def Store.ownerEnrollForCard (s : Store) (requestId : String) : Option OwnerEnroll :=
  s.listOwnerEnrolls.find? fun r => requestId ∈ r.cards

/-- The card of an open request and the phone it waits on. -/
def enrollCard (s : Store) (r : OwnerEnroll) (requestId : String) :
    Except Refusal (PendingRequest × PhoneRegistration) := do
  let approverId := (r.cards.get? requestId).getD ""
  let card ← match (s.listPendingForPhone approverId).find? fun p => p.requestId = requestId with
    | some card => .ok card
    | none => .error pendingNotFound
  ensure (card.isExpired s.clock = false ∧ s.clock < r.notAfter) pendingNotFound
  demand (r.state = .pending) 409 "owner_enroll_closed"
  match s.getPhone approverId with
  | none => .error unknownPhone
  | some approver =>
      ensure approver.IsOwner unknownPhone
      pure (card, approver)

/-- Does the phone the request displaces still hold the slot? -/
def OwnerEnroll.OccupantHolds (r : OwnerEnroll) (s : Store) : Prop :=
  ∀ ref ∈ r.occupantRef, ∃ p ∈ s.getPhone ref, p.slot = .owner r.slot

instance (r : OwnerEnroll) (s : Store) : Decidable (r.OccupantHolds s) :=
  inferInstanceAs (Decidable (∀ ref ∈ r.occupantRef, ∃ p ∈ s.getPhone ref, p.slot = .owner r.slot))

/-- The record once its approver signed. -/
def OwnerEnroll.approvedAt (r : OwnerEnroll) (approver : String) (signature : String)
    (until_ : ℤ) : OwnerEnroll :=
  { r with
    state := .approved
    approvedBy := some approver
    approvedUntil := until_
    expiresAtUnix := max r.expiresAtUnix until_
    topPlane := r.topPlane.map fun act => { act with approverSig := some signature } }

/-- `_respond_owner_enroll` -/
def respondOwnerEnroll (requestId : String) (answer : Answer) : Served Responded := do
  Faulty.ofExcept (demand (answer.approved = true) 409 "owner_enroll_not_denied_unsigned")
  let s ← Faulty.get
  match s.ownerEnrollForCard requestId with
  | none => Faulty.raise pendingNotFound
  | some r =>
      let (card, approver) ← Faulty.ofExcept (enrollCard s r requestId)
      let verified ← Faulty.ofExcept (verify env card.payloadHash answer.signature
        approver.publicKey (registeredAlgorithm approver))
      Faulty.ofExcept (ensure (verified = true) (.bootloader .refused))
      if r.OccupantHolds s then
        takeCards r.cards
        putOwnerEnroll (r.approvedAt approver.phoneId answer.signature
          (s.clock + s.config.ownerApprovalTtlSeconds))
        pure .approved
      else
        refuseOwnerEnroll r
        Faulty.raise (.named 409 "owner_enroll_closed")

/-! ## Top-plane cards -/

/-- A record whose cards still count. -/
def TopPlaneRecord.Answerable (record : TopPlaneRecord) (now : ℤ) : Prop :=
  match record with
  | .act r => r.state = .pending ∧ now < r.expiresAtUnix
  | .reset r => r.state = .waiting

instance (record : TopPlaneRecord) (now : ℤ) : Decidable (record.Answerable now) := by
  cases record <;> unfold TopPlaneRecord.Answerable <;> infer_instance

/-- `_top_plane_record_for_card` -/
def Store.topPlaneRecordForCard (s : Store) (requestId : String) : Option TopPlaneRecord :=
  s.listTopPlaneRecords.find? fun record =>
    requestId ∈ record.cards ∧ record.Answerable s.clock

/-- The phone a card was queued for, once its signature over the record verified. -/
def cardSigner (s : Store) (record : TopPlaneRecord) (requestId signature : String) :
    Except Refusal PhoneRegistration := do
  match (record.cards.get? requestId).bind s.getPhone with
  | none => .error unknownPhone
  | some phone =>
      let verified ← verify env record.message signature phone.publicKey (registeredAlgorithm phone)
      ensure (verified = true) (.bootloader .refused)
      pure phone

/-- The entry of a reset on the revocation list. -/
def Intent.revocation (intent : Intent) (reason : String) (now : ℤ) : State.RevocationEntry where
  jti := intent.jti
  revokedAt := now
  originalExp := intent.notBefore + 365 * 86400
  reason := some reason

def cancelReset (r : ResetRecord) (phone : PhoneRegistration) : Served PUnit := do
  let s ← Faulty.get
  takeCards r.cards
  addRevocation (r.intent.revocation "cancelled: owner reset, by an owner phone" s.clock)
  putReset { r with state := .cancelled, cancelledBy := some phone.phoneId }

/-- `verify_top_plane(...).met`: the passphrase and a sealed device both signed. A set that cannot
act has not met the rule. -/
def topPlaneMet (s : Store) (message : Bytes) (signatures : List Bytes) : Bool :=
  let members := s.genesisMembers env
  let devices := members.items.filter fun item => item.1 ∈ deviceKinds
  match members.get? passphraseKind with
  | none => false
  | some passphrase =>
      let gate := (passphraseKind, passphrase) :: devices
      let satisfied := attribution gate Prod.fst
        (fun signature item =>
          verifierFor env.toPrimitives item.2.pubkey item.2.algorithm signature message) signatures
      decide (devices ≠ [] ∧ (∀ item ∈ gate, item.2.algorithm ∈ supportedAlgorithms) ∧
        passphraseKind ∈ satisfied ∧ ∃ kind ∈ satisfied, kind ∈ deviceKinds)

/-- Text that must decode. -/
def decodeSignature (signature : String) : Except Refusal Bytes :=
  match unb64u signature with
  | some raw => .ok raw
  | none => .error (.store (.python .valueError))

/-- An act that is refused stays so. -/
def refuseAct {α : Type} (r : ActRecord) (status : ℕ) (error : String) : Served α := do
  putTopPlaneRecord (.act { r with state := .refused })
  Faulty.raise (.named status error)

/-- What an act meets before it is appended. -/
def checkAct (r : ActRecord) (signature : String) : Served PUnit := do
  let s ← Faulty.get
  if r.draft.op = Op.sealId.name then
    if decodeReplace r.draft.value = s.config.bootloaderId then pure ⟨⟩
    else refuseAct r 409 "top_plane_seal_mismatch"
  else
    let passphraseLeg ← Faulty.ofExcept (decodeSignature r.passphraseSig)
    let deviceLeg ← Faulty.ofExcept (decodeSignature signature)
    if topPlaneMet env s r.message [passphraseLeg, deviceLeg] then pure ⟨⟩
    else refuseAct r 403 "top_plane_gate_refused"

/-- The entry of an act lands, or the act is refused. -/
def appendAct (r : ActRecord) (signature : String) : Served ChainState :=
  Faulty.handle
    (onChain (appendGenesisChainEntry env.toPrimitives
      (recordOf r.draft [r.passphraseSig, signature])))
    fun e => match e with
      | .store (.chain _) => refuseAct r 409 "top_plane_chain_refused"
      | e => Faulty.raise e

/-- The device leg of an act. Once the entry is on the chain a fault only leaves work behind. -/
def respondAct (r : ActRecord) (phone : PhoneRegistration) (signature : String) :
    Served Responded := do
  let s ← Faulty.get
  let committed := actEntryOnChain s r.draft
  takeCards r.cards
  if committed then
    Faulty.handle
      (do
        finishAct env r (some phone.phoneId) none
        pure (.appended true))
      fun e => match e with
        | .named status error => Faulty.raise (.named status error)
        | _ => pure (.appended false)
  else
    checkAct env r signature
    let post ← appendAct env r signature
    Faulty.handle
      (do
        finishAct env r (some phone.phoneId) (some post)
        pure (.appended true))
      fun _ => pure (.appended false)

/-- `_respond_top_plane_card` -/
def respondTopPlaneCard (requestId : String) (answer : Answer) : Served Responded := do
  Faulty.ofExcept (demand (answer.approved = true) 409 "top_plane_not_denied_unsigned")
  let s ← Faulty.get
  match s.topPlaneRecordForCard requestId with
  | none => Faulty.raise pendingNotFound
  | some record =>
      let phone ← Faulty.ofExcept (cardSigner env s record requestId answer.signature)
      match record with
      | .reset r =>
          Faulty.ofExcept (ensure phone.IsOwner unknownPhone)
          cancelReset r phone
          pure .cancelled
      | .act r => respondAct env r phone answer.signature

/-! ## The dispatch -/

/-- A card no top-plane record is read for. -/
def Store.IsOrdinaryCard (s : Store) (requestId : String) : Prop :=
  ∃ card ∈ s.pending.get? requestId,
    (chars "top-plane:").isPrefixOf (chars card.secret) = false

instance (s : Store) (requestId : String) : Decidable (s.IsOrdinaryCard requestId) :=
  inferInstanceAs (Decidable (∃ card ∈ s.pending.get? requestId, _))

/-- A card of another subsystem, whose answer touches the queue alone. -/
def respondOther (requestId : String) (answer : Answer) : Served Responded := do
  let s ← Faulty.get
  if s.pending.get? requestId = none then Faulty.raise pendingNotFound
  else if answer.takesOther then
    takePending requestId
    pure .other
  else Faulty.raise (.bootloader .refused)

/-- `_handle_respond` -/
def respond (requestId : String) (answer : Answer) : Served Responded := do
  let s ← Faulty.get
  if s.ownerEnrollForCard requestId ≠ none then respondOwnerEnroll env requestId answer
  else if s.IsOrdinaryCard requestId then respondOther requestId answer
  else if s.topPlaneRecordForCard requestId ≠ none then respondTopPlaneCard env requestId answer
  else if ∃ record ∈ s.listTopPlaneRecords, requestId ∈ record.cards then do
    takePending requestId
    Faulty.raise (.named 410 "top_plane_card_expired")
  else respondOther requestId answer

end Server
end Recto
