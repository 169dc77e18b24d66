import Recto.Profiles.Paths
import Recto.Capability.ReadBack
import Recto.Data.Threads

/-!
# What an approval was signed for

A request for a profile queues a card with the fields the phone is to sign. An
answer brings the key the phone derived and the operator key's signature over
the fields with that key; what verifies is persisted by the same call that every
direct operation makes, on a file that other threads replace as well.
-/

namespace Recto
namespace Profiles
namespace Approval

open Capability

structure Config where
  env : TokenPrimitives
  operatorPubkey : Option Bytes

/-- A pending request of the kind `profile_create`. -/
structure CreateRequest where
  card : Card
  /-- The characters of `cap_payload_b64`. -/
  capPayloadB64 : List Char
  deriving DecidableEq, Repr

def optionalStr : Option String → Json
  | some s => .str s
  | none => .null

/-- The fields that `_handle_profile_create` stashes for the phone to sign. -/
def candidateFields (card : Card) (masterPubkeyHex : String) : List (String × Json) :=
  [("candidate_profile_id", .str card.candidateProfileId), ("kind", .str card.candidateKind),
    ("display_name", .str card.candidateDisplayName), ("derivation_purpose", .int bip32Purpose),
    ("derivation_coin_type", .int (resolveCoinType card.candidateKind)),
    ("derivation_index", .int card.candidateDerivationIndex),
    ("theme_hint", optionalStr card.candidateThemeHint),
    ("scim_provider", optionalStr card.candidateScimProvider),
    ("master_pubkey_hex", .str masterPubkeyHex)]

/-- The request that is queued for a body. -/
def newProfileCreate (body : CreateBody) (mi : MasterIdentity) : CreateRequest where
  card := body.card mi
  capPayloadB64 :=
    b64uChars (canonicalJson (.obj (candidateFields (body.card mi) mi.masterPubkeyHex)))

/-- The signature, as it came, is the operator key's over the fields. -/
def Attested (cfg : Config) (capSignature : String) (fields : List (String × Json)) : Prop :=
  ∃ signature ∈ unb64u capSignature, signature.length = 64 ∧ ∃ key ∈ cfg.operatorPubkey,
    recoversTo cfg.env (cfg.env.sha256 (canonicalJson (.obj fields))) signature key

instance (cfg : Config) (capSignature : String) (fields : List (String × Json)) :
    Decidable (Attested cfg capSignature fields) := by
  unfold Attested
  infer_instance

/-- The fields as they are signed, once the phone has added its key. -/
def signedFields (req : CreateRequest) (childPubkey : String) : Option (List (String × Json)) :=
  match segmentJson req.capPayloadB64 with
  | .ok (.obj fields) =>
      if "child_pubkey_hex" ∈ fields.map Prod.fst then none
      else some (setItem "child_pubkey_hex" (.str childPubkey) fields)
  | _ => none

/-- The key that an answer to the request attests; `none` where a check fails. -/
def attestedKey (cfg : Config) (req : CreateRequest) (childPubkeyHex capSignature : String) :
    Option String :=
  match cleanPubkey childPubkeyHex with
  | .error _ => none
  | .ok key =>
      if ∃ fields ∈ signedFields req key, Attested cfg capSignature fields then some key else none

/-! ## Calls -/

inductive CreateResult where
  | approved (profileId : String)
  | signatureError
  deriving DecidableEq, Repr

structure Shared where
  file : Option MasterIdentity
  pending : Dict String CreateRequest

structure Moment where
  /-- Whether a save lands. -/
  lands : Bool
  /-- Whether the phone's envelope signature verifies. -/
  envelope : Bool

inductive Query where
  | loadMasterIdentity
  | saveMasterIdentity (mi : MasterIdentity)
  | addPending (requestId : String) (req : CreateRequest)
  | peekPending (requestId : String)
  | verifyEnvelope
  | takePending (requestId : String)
  | storeResult (result : CreateResult)

abbrev Answer : Query → Type
  | .loadMasterIdentity => Option MasterIdentity
  | .saveMasterIdentity _ => Bool
  | .addPending _ _ => Unit
  | .peekPending _ => Option CreateRequest
  | .verifyEnvelope => Bool
  | .takePending _ => Option CreateRequest
  | .storeResult _ => Unit

abbrev Handler := Calls Query Answer Unit

def exec (q : Query) (m : Moment) (s : Shared) : Answer q × Shared :=
  match q with
  | .loadMasterIdentity => (loadMasterIdentity s.file, { s with file := loadMasterIdentity s.file })
  | .saveMasterIdentity mi => if m.lands then (true, { s with file := some mi }) else (false, s)
  | .addPending requestId req => ((), { s with pending := s.pending.set requestId req })
  | .peekPending requestId => (s.pending.get? requestId, s)
  | .verifyEnvelope => (m.envelope, s)
  | .takePending requestId =>
      (s.pending.get? requestId, { s with pending := s.pending.erase requestId })
  | .storeResult _ => ((), s)

/-! ## Requests -/

/-- `_handle_profile_create`, for the id the queue gives the request. -/
def handleCreate (requestId : String) (body : CreateBody) : Handler :=
  if body.Complete then
    .call .loadMasterIdentity fun (loaded : Option MasterIdentity) =>
      if ∃ mi ∈ loaded, (mi.find? body.candidateProfileId).isSome = true then .done ()
      else .call .loadMasterIdentity fun (loaded : Option MasterIdentity) =>
        match loaded with
        | none => .done ()
        | some mi => .call (.addPending requestId (newProfileCreate body mi)) .done
  else .done ()

/-- The call of `create_child_profile` for a key that was attested, and its result. -/
def persistChild (card : Card) (childPubkey : String) (now : ℤ) : Handler :=
  .call .loadMasterIdentity fun (loaded : Option MasterIdentity) =>
    match (Operation.create (card.args childPubkey) now "").apply loaded with
    | .error _ => .call (.storeResult .signatureError) .done
    | .ok (existing, none) => .call (.storeResult (.approved existing.profileId)) .done
    | .ok (new, some mi) => .call (.saveMasterIdentity mi) fun (saved : Bool) =>
        if saved then .call (.storeResult (.approved new.profileId)) .done
        else .call (.storeResult .signatureError) .done

/-- `_handle_respond` for an approved `profile_create` card. -/
def handleRespond (cfg : Config) (requestId childPubkeyHex capSignature : String) (now : ℤ) :
    Handler :=
  .call (.peekPending requestId) fun (found : Option CreateRequest) =>
    match found with
    | none => .done ()
    | some req => .call .verifyEnvelope fun (verified : Bool) =>
        if verified then
          .call (.takePending requestId) fun (taken : Option CreateRequest) =>
            match taken with
            | none => .done ()
            | some _ =>
                match attestedKey cfg req childPubkeyHex capSignature with
                | none => .call (.storeResult .signatureError) .done
                | some key => persistChild req.card key now
        else .done ()

/-- A direct call: load, compute, save. -/
def handleDirect (op : Operation) : Handler :=
  .call .loadMasterIdentity fun (loaded : Option MasterIdentity) =>
    match op.saved loaded with
    | none => .done ()
    | some mi => .call (.saveMasterIdentity mi) fun _ => .done ()

/-- A bootstrap, which replaces an identity that exists only by force. -/
def handleBootstrap (bootstrap : Option MasterIdentity → Except PyError MasterIdentity) : Handler :=
  .call .loadMasterIdentity fun (loaded : Option MasterIdentity) =>
    match bootstrap loaded with
    | .error _ => .done ()
    | .ok mi => .call (.saveMasterIdentity mi) fun _ => .done ()

inductive Request where
  | create (requestId : String) (body : CreateBody)
  | respond (requestId childPubkeyHex capSignature : String) (now : ℤ)
  | direct (op : Operation)
  | bootstrap (masterPubkeyHex displayName : String) (label : Option String) (force : Bool) (now : ℤ)
      (uuid : String)

namespace Request

def handler (cfg : Config) : Request → Handler
  | create requestId body => handleCreate requestId body
  | respond requestId childPubkeyHex capSignature now =>
      handleRespond cfg requestId childPubkeyHex capSignature now
  | direct op => handleDirect op
  | bootstrap masterPubkeyHex displayName label force now uuid =>
      handleBootstrap (bootstrapMaster masterPubkeyHex displayName label force now uuid)

end Request

abbrev Server (ι : Type) := Serving ι Query Answer Moment Shared Unit

section
variable {ι : Type}

/-- What an event loaded. -/
def loadedIn : Event ι Query Answer Moment → Option (Option MasterIdentity)
  | ⟨_, _, .loadMasterIdentity, (loaded : Option MasterIdentity)⟩ => some loaded
  | _ => none

/-- The id of the profile a call reports as approved. -/
def approvedBy : Query → Option String
  | .storeResult (.approved profileId) => some profileId
  | _ => none

/-- The request an event read. -/
def peekedIn : Event ι Query Answer Moment → Option CreateRequest
  | ⟨_, _, .peekPending _, (found : Option CreateRequest)⟩ => found
  | _ => none

/-- The profile is the one the card asks for, with the key. -/
def Describes (card : Card) (key : String) (p : Profile) : Prop :=
  p.profileId = card.candidateProfileId ∧ p.revoked = false ∧ p.kind = card.candidateKind ∧
    p.displayName = card.candidateDisplayName ∧
    p.derivation.profileIndex = card.candidateDerivationIndex ∧ p.derivedPubkeyHex = some key

instance (card : Card) (key : String) (p : Profile) : Decidable (Describes card key p) :=
  inferInstanceAs (Decidable (_ ∧ _))

/-- The operator key's signature on the answer covers the profile's fields. -/
def CoversProfile (cfg : Config) (capSignature : String) (p : Profile) : Prop :=
  ∃ fields key, Attested cfg capSignature fields ∧ p.derivedPubkeyHex = some key ∧
    fields.lookup "candidate_profile_id" = some (.str p.profileId) ∧
    fields.lookup "kind" = some (.str p.kind) ∧
    fields.lookup "display_name" = some (.str p.displayName) ∧
    fields.lookup "derivation_index" = some (.int p.derivation.profileIndex) ∧
    fields.lookup "child_pubkey_hex" = some (.str key) ∧
    ∃ raw, fromHex key = some raw ∧ raw.length = 64

/-- Where a request stores an approved result, the file holds the profile, and it is the signed
one. -/
def StoresSigned (cfg : Config) (requests : ι → Request) (c : Server ι) (turn : ι × Moment) : Prop :=
  ∀ q ∈ c.next? turn.1, ∀ profileId ∈ approvedBy q,
    ∃ requestId childPubkeyHex capSignature now,
      requests turn.1 = .respond requestId childPubkeyHex capSignature now ∧
      (∃ e ∈ c.trace, e.thread = turn.1 ∧ ∃ req ∈ peekedIn e,
        req.card.candidateProfileId = profileId) ∧
      ∃ mi, loadMasterIdentity c.shared.file = some mi ∧ ∃ p ∈ mi.profiles,
        p.profileId = profileId ∧ p.revoked = false ∧ CoversProfile cfg capSignature p

/-- The key has no whitespace between its digits. -/
def Unspaced (key : String) : Prop := ∀ c ∈ chars key, isAsciiSpace c = false

instance (key : String) : Decidable (Unspaced key) :=
  List.decidableBAll (fun c => isAsciiSpace c = false) (chars key)

/-- A save replaces the file its request loaded, and neither a revocation of a profile nor a bootstrap
comes between its approval and the result. An approval whose name the identity holds already finds
the very profile it asks for, and its key has no whitespace between the digits. -/
def Undisturbed (cfg : Config) (requests : ι → Request) (c : Server ι) (turn : ι × Moment) : Prop :=
  match c.next? turn.1 with
  | some (.saveMasterIdentity _) =>
      (∀ e ∈ c.trace, e.thread = turn.1 → ∀ loaded ∈ loadedIn e,
        loadMasterIdentity c.shared.file = loaded) ∧
      match requests turn.1 with
      | .direct (.markRevoked profileId) =>
          ∀ j, ∀ q ∈ c.next? j, approvedBy q ≠ some profileId
      | .bootstrap _ _ _ _ _ _ => ∀ j, ∀ q ∈ c.next? j, approvedBy q = none
      | _ => True
  | some .loadMasterIdentity =>
      match requests turn.1 with
      | .respond _ childPubkeyHex capSignature _ => ∀ e ∈ c.trace, e.thread = turn.1 →
          ∀ req ∈ peekedIn e, ∀ key ∈ attestedKey cfg req childPubkeyHex capSignature,
            Unspaced key ∧ ∀ mi ∈ loadMasterIdentity c.shared.file,
              ∀ p ∈ mi.named? req.card.candidateKind req.card.candidateDisplayName,
                Describes req.card key p
      | _ => True
  | _ => True

end

end Approval
end Profiles
end Recto
