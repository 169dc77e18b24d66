import Recto.Server.Store

/-!
# The rules of the top plane

What the chain says to a request, the digests an act and a reset are signed
over, freshness, and the one predicate of an open reset.
-/

namespace Recto
namespace Server

open Genesis

variable (env : Host)

/-- `canonical_meta` -/
def canonicalMeta (x : Json) : String := String.ofList (Json.dumps x)

/-- The verifier, where what it raises is not caught. -/
def verify (payload : Bytes) (signature publicKey algorithm : String) : Except Refusal Bool :=
  match env.verifySignature payload signature publicKey algorithm with
  | some ok => .ok ok
  | none => .error .unverifiable

/-- Refuse under a name unless the condition holds. -/
abbrev demand (p : Prop) [Decidable p] (status : ℕ) (error : String) : Except Refusal Unit :=
  ensure p (.named status error)

/-! ## The chain a request reads -/

/-- `genesis_chain_unreadable` -/
def chainUnreadable : Refusal := .named 503 "genesis_chain_unreadable"

/-- `state.genesis_chain_state()` as the top plane reads it: a chain error is a named refusal. -/
def readChainState (s : Store) : Except Refusal (Option ChainState) :=
  match genesisChainState env.toPrimitives s.chain with
  | .ok cs => .ok cs
  | .error (.chain _) => .error chainUnreadable
  | .error e => .error (.store e)

/-- `chain_state`: a chain that is not sealed with the expected id refuses too. -/
def chainState (s : Store) : Except Refusal (Option ChainState) := do
  let cs ← readChainState env s
  match s.config.expectSealedId with
  | none => pure cs
  | some expected =>
      if cs.bind ChainState.sealedId = some expected then pure cs else .error chainUnreadable

/-- `_sealed_chain_or_none` -/
def sealedChainOrNone (s : Store) : Except Refusal (Option ChainState) := do
  match ← chainState env s with
  | none => pure none
  | some cs =>
      if cs.sealedId = none ∨ passphraseKind ∉ cs.members then pure none else pure (some cs)

/-- `require_sealed` -/
def requireSealed (s : Store) (forSeal : Bool) : Except Refusal ChainState := do
  match ← chainState env s with
  | none => .error (.named 404 "top_plane_unavailable")
  | some cs =>
      demand (passphraseKind ∈ cs.members) 403 "top_plane_no_passphrase"
      demand (∃ kind ∈ cs.members.keys, kind ∈ deviceKinds) 403 "top_plane_no_device"
      if forSeal then demand (cs.sealedId = none) 409 "top_plane_already_sealed"
      else demand (cs.sealedId ≠ none) 409 "top_plane_unsealed"
      pure cs

/-- `list_genesis_members_full`: a chain that does not replay has no member, and its seal mark is
not asked. -/
def Store.genesisMembers (s : Store) : Dict String ChainEntry :=
  match entriesFromRecords env.toPrimitives s.chain.chain with
  | .ok [] => Dict.empty
  | .ok entries =>
      match replay env.toPrimitives entries with
      | .ok members => members
      | .error _ => Dict.empty
  | .error _ => Dict.empty

/-- `value.decode("ascii", "replace")` -/
def decodeReplace (raw : Bytes) : String :=
  String.ofList (raw.map fun b => if b.toNat < 128 then Char.ofNat b.toNat else Char.ofNat 65533)

/-- `draft_message`: what an act on the chain's tip is signed over. -/
def draftMessage (cs : ChainState) (draft : Draft) : Except Refusal Bytes := do
  demand (draft.seq = cs.length ∧ draft.prev = cs.tipHash) 409 "top_plane_chain_moved"
  let sealedId := if draft.op = Op.sealId.name then some (decodeReplace draft.value) else cs.sealedId
  pure (actMessage env.toPrimitives draft.seq draft.op draft.kind draft.value draft.algorithm
    draft.prev draft.metaText sealedId)

/-- `verify_passphrase`: a malformed signature has not verified. -/
def verifyPassphrase (cs : ChainState) (message : Bytes) (signature : String) : Bool :=
  match cs.members.get? passphraseKind with
  | none => false
  | some member =>
      signature ≠ "" &&
        env.verifySignature message signature (b64u member.pubkey) member.algorithm = some true

/-- `device_kind_of` -/
def deviceKindOf (cs : ChainState) (phone : PhoneRegistration) : Option String :=
  (cs.members.items.find? fun item =>
    decide (item.1 ∈ deviceKinds) && decide (b64u item.2.pubkey = phone.publicKey)).map Prod.fst

def deviceMemberPhones (s : Store) (cs : ChainState) : List PhoneRegistration :=
  s.listPhones.filter fun p => decide (deviceKindOf cs p ≠ none)

/-- `_registered_algorithm` -/
def registeredAlgorithm (phone : PhoneRegistration) : String :=
  phone.supportedAlgorithms.headD "ed25519"

def recordOf (draft : Draft) (signatures : List String) : Record where
  seq := draft.seq
  op := draft.op
  kind := draft.kind
  pubkey := hex draft.value
  algorithm := draft.algorithm
  prev := draft.prev
  signatures := signatures
  metaText := draft.metaText

/-! ## Freshness -/

/-- `ACT_FRESH_SECONDS` -/
def actFreshSeconds : ℤ := 900

/-- `ACT_CARD_TTL_SECONDS` -/
def actCardTtlSeconds : ℤ := 300

/-- `RESET_ARM_GRACE_SECONDS` -/
def resetArmGraceSeconds : ℤ := 24 * 3600

/-- A nonce long enough, and a deadline ahead but not too far. -/
def freshLeg (nonce : String) (notAfter now : ℤ) : Prop :=
  16 ≤ (chars nonce).length ∧ now < notAfter ∧ notAfter ≤ now + actFreshSeconds

instance (nonce : String) (notAfter now : ℤ) : Decidable (freshLeg nonce notAfter now) :=
  inferInstanceAs (Decidable (_ ∧ _))

/-- The nonce and the deadline inside an act's meta. -/
def readActMeta (draft : Draft) : Except PyError (String × ℤ) := do
  let fields ← Json.loads (draft.metaText.getD "")
  let nonce ← fields.getItem "nonce"
  let notAfter ← fields.getItem "not_after"
  let deadline ← notAfter.toInt
  pure (nonce.pyStr env.printable, deadline)

/-- `act_freshness`, and the name its refusal is answered under. -/
def actFreshness (draft : Draft) (now : ℤ) : Except Refusal Unit :=
  match readActMeta env draft with
  | .ok (nonce, notAfter) => demand (freshLeg nonce notAfter now) 400 "top_plane_draft_stale"
  | .error e =>
      if e ∈ [PyError.valueError, .keyError, .typeError] then
        .error (.named 400 "top_plane_draft_stale")
      else .error (.store (.python e))

/-! ## Owner resets -/

/-- `REVOKED_RESET_PREFIX` -/
def revokedResetPrefix : String := "ownerreset:"

/-- The moment the grace of a reset counts from. -/
def ResetRecord.anchor (r : ResetRecord) : ℤ :=
  if r.state = .registered then
    if r.codeExpiresAt = 0 then r.intent.notBefore else r.codeExpiresAt
  else r.intent.notBefore

/-- `reset_expired` -/
def ResetRecord.Expired (r : ResetRecord) (now : ℤ) : Prop :=
  r.state.IsOpen ∧ r.anchor + resetArmGraceSeconds < now

instance (r : ResetRecord) (now : ℤ) : Decidable (r.Expired now) :=
  inferInstanceAs (Decidable (_ ∧ _))

/-- The revocation a cancel or an abort leaves. -/
def Intent.jti (intent : Intent) : String := revokedResetPrefix ++ intent.intentId

/-- `reset_open_in`: the one predicate of an open reset. -/
def Store.ResetOpen (s : Store) (r : ResetRecord) : Prop :=
  r.state.IsOpen ∧ s.isRevoked r.intent.jti = false ∧ ¬r.Expired s.clock

instance (s : Store) (r : ResetRecord) : Decidable (s.ResetOpen r) :=
  inferInstanceAs (Decidable (_ ∧ _))

/-- Is any reset open? -/
def Store.AnyResetOpen (s : Store) : Prop := ∃ r ∈ s.listResets, s.ResetOpen r

instance (s : Store) : Decidable s.AnyResetOpen :=
  inferInstanceAs (Decidable (∃ r ∈ s.listResets, s.ResetOpen r))

def Intent.toJson (intent : Intent) : Json :=
  .obj [("intent_id", .str intent.intentId), ("bootloader_id", .str intent.bootloaderId),
    ("slots", .arr (intent.slots.map fun slot => .str slot.name)),
    ("lost", .arr (intent.lost.map .str)), ("not_before", .int intent.notBefore),
    ("started_at", .int intent.startedAt)]

/-- `reset_intent_digest` -/
def resetIntentDigest (intent : Intent) : Bytes :=
  env.sha256 (utf8 "recto-owner-reset-intent-v1|" ++ utf8 (canonicalMeta intent.toJson))

/-- What the passphrase signs to arm a reset. -/
structure Arm where
  intentId : String
  slot : String
  nonce : String
  notAfter : ℤ
  deriving DecidableEq, Repr

/-- `reset_arm_digest` -/
def resetArmDigest (arm : Arm) : Bytes :=
  env.sha256 (utf8 "recto-owner-reset-arm-v1|" ++ utf8 (canonicalMeta
    (.obj [("intent_id", .str arm.intentId), ("slot", .str arm.slot), ("nonce", .str arm.nonce),
      ("not_after", .int arm.notAfter)])))

/-- What the passphrase signs to abort a reset. -/
structure Abort where
  intentId : String
  nonce : String
  notAfter : ℤ
  deriving DecidableEq, Repr

/-- `reset_abort_digest` -/
def resetAbortDigest (abort : Abort) : Bytes :=
  env.sha256 (utf8 "recto-owner-reset-abort-v1|" ++ utf8 (canonicalMeta
    (.obj [("intent_id", .str abort.intentId), ("nonce", .str abort.nonce),
      ("not_after", .int abort.notAfter)])))

/-- What the reset entry of a slot carries. -/
def resetFields (intent : Intent) (slot : OwnerSlot) (challenge : Option String) :
    List (String × Json) :=
  [("intent_id", .str intent.intentId), ("slot", .str slot.name),
    ("lost", .arr (intent.lost.map .str)), ("not_before", .int intent.notBefore),
    ("challenge", challenge.elim .null .str)]

/-- `reset_meta` -/
def resetMeta (intent : Intent) (slot : OwnerSlot) (challenge : Option String) : String :=
  canonicalMeta (.obj (resetFields intent slot challenge))

/-- The keyed hash a live code or challenge is stored as. -/
def Store.mac (s : Store) (use value : String) : String := env.hmac s.macKey (use ++ "|" ++ value)

end Server
end Recto
