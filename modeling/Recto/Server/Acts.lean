import Recto.Server.Start
import Recto.Server.Respond

/-!
# Opening an act, and removing a phone

The host opens an act it drafted on the chain's tip and signed with the
passphrase; every sealed device is carded with its message. A phone is removed by
a phone only while no reset is open and no chain entry is needed for it.
-/

namespace Recto
namespace Server

open Genesis

variable (env : Host)

/-! ## Opening an act -/

/-- The operations the host opens. -/
def openedOps : List String :=
  [Op.sealId.name, Op.rotateOperator.name, Op.add.name, Op.remove.name]

/-- A removal names the member it removes by its own key and algorithm. -/
def checkRemoveDraft (cs : ChainState) (draft : Draft) : Except Refusal Unit :=
  match cs.members.get? draft.kind with
  | some member => demand (member.pubkey = draft.value ∧ member.algorithm = draft.algorithm) 400
      "top_plane_remove_mismatch"
  | none => .error (.named 400 "top_plane_remove_mismatch")

/-- A field of a draft's meta, where an unreadable meta has none. -/
def Draft.metaField (draft : Draft) (key : String) : Option Json :=
  match Json.loads (draft.metaText.getD "") with
  | .ok (.obj fields) => fields.lookup key
  | _ => none

/-- The identity members a seal records. -/
def recordedMembers (draft : Draft) : Option (List Bytes) :=
  match draft.metaField "identity_members" with
  | some (.arr members) => members.mapM fun member =>
      match member with
      | .str text => fromHex text
      | _ => none
  | _ => none

/-- The id to seal is the one this start derived, from the keys the seal records. -/
def checkSealDraft (s : Store) (draft : Draft) : Except Refusal Unit := do
  demand (decodeReplace draft.value = s.config.bootloaderId) 403 "top_plane_seal_mismatch"
  demand (s.config.derivedBootloaderId = some s.config.bootloaderId) 403
    "top_plane_seal_not_derived"
  let operatorKey := s.config.operatorPubkey.getD []
  demand (operatorKey ≠ [] ∧ draft.metaField "operator_pubkey" = some (.str (hex operatorKey))) 400
    "top_plane_seal_operator_mismatch"
  demand ((recordedMembers draft).map (deriveBootloaderId env operatorKey) =
    some s.config.bootloaderId) 400 "top_plane_seal_inputs_mismatch"

/-- A device member is a registered owner phone in that kind's slot. -/
def checkDeviceDraft (s : Store) (draft : Draft) : Except Refusal Unit :=
  match s.findByPubkey (b64u draft.value) with
  | some owner =>
      demand ((∃ slot ∈ [OwnerSlot.primary, .recovery], slot.kind = draft.kind ∧
        owner.slot = .owner slot) ∧ registeredAlgorithm owner = draft.algorithm) 400
        "top_plane_device_unregistered"
  | none => .error (.named 400 "top_plane_device_unregistered")

/-- What a draft meets before its signature is looked at. -/
def checkDraft (s : Store) (draft : Draft) : Except Refusal ChainState := do
  demand (draft.op ∈ openedOps) 400 "top_plane_op_refused"
  demand (draft.op = Op.add.name → draft.kind ∈ deviceKinds ∨ draft.kind = passphraseKind) 400
    "top_plane_kind_refused"
  demand (draft.op = Op.remove.name → draft.kind ∈ deviceKinds) 400 "top_plane_kind_refused"
  let cs ← requireSealed env s (decide (draft.op = Op.sealId.name))
  if draft.op = Op.remove.name then checkRemoveDraft cs draft else pure ()
  if draft.op = Op.sealId.name then checkSealDraft env s draft else pure ()
  if draft.op = Op.add.name ∧ draft.kind ∈ deviceKinds then checkDeviceDraft s draft else pure ()
  actFreshness env draft s.clock
  pure cs

/-- The phones that can sign an act: never the one it removes. -/
def actPhones (s : Store) (cs : ChainState) (draft : Draft) : List PhoneRegistration :=
  (deviceMemberPhones s cs).filter fun p =>
    ¬(draft.op = Op.remove.name ∧ p.publicKey = b64u draft.value)

/-- The act to open: its message, and the phones to card. -/
def checkOpen (s : Store) (draft : Draft) (passphraseSig : String) :
    Except Refusal (Bytes × List PhoneRegistration) := do
  let cs ← checkDraft env s draft
  let message ← draftMessage env cs draft
  demand (verifyPassphrase env cs message passphraseSig = true) 403 "top_plane_passphrase_invalid"
  let phones := actPhones s cs draft
  demand (phones ≠ []) 403 "top_plane_no_device_phone"
  -- A digest opens once.
  demand (∀ record ∈ s.listTopPlaneRecords, record.reset? = none → record.message ≠ message) 409
    "top_plane_draft_used"
  pure (message, phones)

/-- `_handle_top_plane_open`: the id of the act. -/
def openAct (draft : Draft) (passphraseSig : String) : Served String := do
  let s ← Faulty.get
  let (message, phones) ← Faulty.ofExcept (checkOpen env s draft passphraseSig)
  let token ← drawToken env
  let recordId := "act-" ++ token
  let cards ← cardDevices env Dict.empty recordId message actCardTtlSeconds phones Dict.empty
  putTopPlaneRecord (.act
    { id := recordId, state := .pending, draft := draft, message := message
      passphraseSig := passphraseSig, cards := cards, createdUnix := s.clock
      expiresAtUnix := s.clock + actCardTtlSeconds })
  pure recordId

/-! ## The passphrase's leg of a slot entry -/

/-- The slot entry an id names, and the act its passphrase leg is over. -/
def checkEnrollPassphrase (s : Store) (requestId signature : String) :
    Except Refusal (OwnerEnroll × EnrollAct) := do
  let cs ← requireSealed env s false
  match (s.listOwnerEnrolls.find? fun r => r.requestId = requestId ∧ r.topPlane ≠ none) with
  | none => .error (.named 404 "owner_enroll_unknown")
  | some r =>
      match r.topPlane with
      | none => .error (.named 404 "owner_enroll_unknown")
      | some act =>
          demand (r.state = .pending ∨ r.state = .approved) 404 "owner_enroll_unknown"
          demand (orNone act.passphraseSig = none) 409 "top_plane_draft_used"
          actFreshness env act.draft s.clock
          let message ← draftMessage env cs act.draft
          demand (verifyPassphrase env cs message signature = true) 403
            "top_plane_passphrase_invalid"
          pure (r, act)

/-- `_handle_owner_enroll_passphrase` -/
def signEnroll (requestId signature : String) : Served PUnit := do
  let s ← Faulty.get
  let (r, act) ← Faulty.ofExcept (checkEnrollPassphrase env s requestId signature)
  putOwnerEnroll { r with topPlane := some { act with passphraseSig := some signature } }

/-! ## Revoking a phone -/

/-- The body of a revoke. -/
structure Revoke where
  revoker : String
  target : String
  challenge : String
  signature : String
  deriving DecidableEq, Repr

/-- The bytes a revoking phone signs. -/
def revokePayload (revoke : Revoke) : Bytes := utf8 (revoke.challenge ++ ":" ++ revoke.target)

/-- What keeps an owner phone from being removed by another phone. -/
def checkSibling (s : Store) (target : PhoneRegistration) : Except Refusal Unit := do
  demand (¬s.AnyResetOpen) 409 "owner_reset_open"
  match ← sealedChainOrNone env s with
  | some cs => demand (deviceKindOf cs target = none) 409 "top_plane_revoke_required"
  | none => pure ()

/-- The revoke plane. -/
def checkRevoke (s : Store) (revoker target : PhoneRegistration) (isSelf : Bool) :
    Except Refusal Unit := do
  demand (revoker.IsOwner ∨ isSelf = true) 403 "revoke_plane"
  if isSelf = false ∧ target.IsOwner then checkSibling env s target else pure ()
  demand (target.IsOwner → 1 < s.owners.length) 403 "last_owner"

/-- `_handle_revoke_phone` -/
def revoke (r : Revoke) : Served PUnit := do
  let s ← Faulty.get
  Faulty.ofExcept (ensure (r.revoker ≠ "" ∧ r.target ≠ "" ∧ r.challenge ≠ "" ∧ r.signature ≠ "")
    (.bootloader .refused))
  match s.getPhone r.revoker, s.getPhone r.target with
  | some revoker, some target =>
      let live ← consumeChallenge r.challenge
      Faulty.ofExcept (ensure (live = true) registrationExpired)
      let verified ← Faulty.ofExcept (verify env (revokePayload r) r.signature revoker.publicKey
        (registeredAlgorithm revoker))
      Faulty.ofExcept (demand (verified = true) 401 "revoke_signature_invalid")
      Faulty.ofExcept (checkRevoke env s revoker target (decide (r.revoker = r.target)))
      revokeAndVoid r.target
  | _, _ => Faulty.raise unknownPhone

end Server
end Recto
