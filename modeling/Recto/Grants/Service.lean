import Recto.Capability.Claims
import Recto.Connections.Store
import Recto.UserVault.GrantRecord
import Recto.State.Revocations
import Recto.Data.Threads

/-!
# What grant requests share

The revocation list, the user-vault grants and the connections, with the calls
the request handlers make of them. A handler runs on its own thread; each call
of the state store is one step, made at a moment that supplies the clock, the
phones registered then and what the world answers.
-/

namespace Recto
namespace Grants

open Capability Connections UserVault State

/-- A registered phone, as far as a grant reads it. -/
structure BoundPhone where
  phoneId : String
  publicKeyB64u : String
  algorithm : String
  memberBindings : List (String × String)
  deriving DecidableEq, Repr

/-- An admitted user-vault grant as the store keeps it. -/
structure VaultGrant where
  grantId : String
  record : GrantRecord
  signature : Json
  signerPhoneRef : String
  admittedAtUnix : ℤ
  deriving DecidableEq, Repr

/-- What is posted to the consumer of a pairing. -/
structure PairingRelay where
  forwardUrl : String
  webhookToken : String
  code : String
  masterPubkeyHex : String
  capabilityJws : String
  record : PairRecord
  fingerprint : String
  attestation : Option CapabilityClaims

inductive ConsumerReply where
  | answered (status : ℕ) (body : Json)
  | unreachable
  | failed
  deriving DecidableEq, Repr

/-- What a request is answered. -/
inductive Reply where
  | refused (status : ℕ) (error : String)
  | acted (answer : ActAnswer) (verb : ActVerb) (jti : String)
  | relayed (status : ℕ) (body : Json)
  | value (value service secretName jti : String)
  | capabilityRevoked (jti : String) (already : Bool)
  | admitted (grantId : String) (notAfter : ℤ)
  | grantRevoked (grantId : String)
  | stopped (grantIds : List String)
  | grants (listed : List VaultGrant)
  deriving DecidableEq, Repr

/-- What the world supplies for one step. -/
structure Moment where
  now : ℤ
  phones : List BoundPhone
  vaultRefuses : Bool
  consumerReply : ConsumerReply
  token : String

structure Shared where
  revocations : Revocations
  grants : List VaultGrant
  connections : ConnectionStore

inductive Query where
  | time
  | uuid
  | isRevoked (jti : String)
  | addRevocation (entry : RevocationEntry)
  | consumeSingleUse (entry : RevocationEntry)
  | getConnectionMeta (service key : String)
  | carryOut (record : ActRecord) (value : Option String)
  | forward (relay : PairingRelay)
  | listPhones
  | listGrants (consumer subject : String)
  | getGrant (grantId : String)
  | putGrant (grant : VaultGrant)
  | send (reply : Reply)

/-- What each call answers: `none` for what the store raises. -/
abbrev Answer : Query → Type
  | .time => ℤ
  | .uuid => String
  | .isRevoked _ => Bool
  | .addRevocation _ => Option Unit
  | .consumeSingleUse _ => Option Bool
  | .getConnectionMeta _ _ => Option ConnectionMeta
  | .carryOut _ _ => Except (Refused ActRefusal) ActAnswer
  | .forward _ => ConsumerReply
  | .listPhones => List BoundPhone
  | .listGrants _ _ => List VaultGrant
  | .getGrant _ => Option VaultGrant
  | .putGrant _ => Unit
  | .send _ => Unit

abbrev Handler := Calls Query Answer Unit

def ask (q : Query) : Calls Query Answer (Answer q) := Calls.ask q

def refuse (status : ℕ) (error : String) : Handler := ask (.send (.refused status error))

/-- What the dispatcher answers when a handler raises `BootloaderError`. -/
def badRequest : Handler := refuse 400 "bootloader_error"

/-- What the dispatcher answers when a handler raises anything else. -/
def internalError : Handler := refuse 500 "internal"

/-! ## The store's calls -/

section
variable (backend : RevocationBackend)

def isRevoked (now : ℤ) (jti : String) (s : Revocations) : Bool × Revocations :=
  match backend s now (.isRevoked jti) with
  | (.revoked b, s') => (b, s')
  | (_, s') => (false, s')

def addRevocation (now : ℤ) (entry : RevocationEntry) (s : Revocations) :
    Option Unit × Revocations :=
  match backend s now (.add entry) with
  | (.added, s') => (some (), s')
  | (_, s') => (none, s')

/-- `consume_single_use_capability`: the check and the insert under one lock. -/
def consumeSingleUse (now : ℤ) (entry : RevocationEntry) (s : Revocations) :
    Option Bool × Revocations :=
  match isRevoked backend now entry.jti s with
  | (true, s') => (some false, s')
  | (false, s') =>
      match addRevocation backend now entry s' with
      | (some (), s'') => (some true, s'')
      | (none, s'') => (none, s'')

/-- `put_user_vault_grant`: the grant replaces the one of its slot, and what has expired goes. -/
def putUserVaultGrant (now : ℤ) (grant : VaultGrant) (grants : List VaultGrant) :
    List VaultGrant :=
  grants.filter (fun g => g.record.slot ≠ grant.record.slot ∧ now < g.record.notAfter) ++ [grant]

/-- `list_user_vault_grants` -/
def listUserVaultGrants (consumer subject : String) (grants : List VaultGrant) :
    List VaultGrant :=
  grants.filter fun g => g.record.consumer = consumer ∧ g.record.subject = subject

/-- `get_user_vault_grant` -/
def getUserVaultGrant (grantId : String) (grants : List VaultGrant) : Option VaultGrant :=
  grants.find? fun g => g.grantId = grantId

/-- One call, at a moment. -/
def exec (q : Query) (m : Moment) (s : Shared) : Answer q × Shared :=
  match q with
  | .time => (m.now, s)
  | .uuid => (m.token, s)
  | .isRevoked jti =>
      let r := isRevoked backend m.now jti s.revocations
      (r.1, { s with revocations := r.2 })
  | .addRevocation entry =>
      let r := addRevocation backend m.now entry s.revocations
      (r.1, { s with revocations := r.2 })
  | .consumeSingleUse entry =>
      let r := consumeSingleUse backend m.now entry s.revocations
      (r.1, { s with revocations := r.2 })
  | .getConnectionMeta service key => (s.connections.getMeta service key, s)
  | .carryOut record value =>
      match Connections.carryOut s.connections record value m.now m.vaultRefuses with
      | .error e => (.error e, s)
      | .ok r => (.ok r.1, { s with connections := r.2 })
  | .forward _ => (m.consumerReply, s)
  | .listPhones => (m.phones, s)
  | .listGrants consumer subject => (listUserVaultGrants consumer subject s.grants, s)
  | .getGrant grantId => (getUserVaultGrant grantId s.grants, s)
  | .putGrant grant => ((), { s with grants := putUserVaultGrant m.now grant s.grants })
  | .send _ => ((), s)

end

/-- Requests being served against one store. -/
abbrev Server (ι : Type) := Serving ι Query Answer Moment Shared Unit

/-! ## The revocation list's promise -/

/-- The jti counts as revoked until after the time. -/
def HeldPast (s : Revocations) (jti : String) (time : ℤ) : Prop :=
  ∃ e, s.get? jti = some e ∧ time < e.originalExp

end Grants
end Recto
