import Recto.Grants.Handlers

/-!
# The user-vault handlers

`/v0.4/user-vault/grant`, `/revoke`, `/revoke-key` and `/grants`: each finds the
phone the subject is bound to, checks that phone's signature and only then reads
or changes the grants. The cards a platform may ring are no part of it.
-/

namespace Recto
namespace UserVault

open Capability Grants State

/-- `_UV_GRANT_JTI_PREFIX + grant_id` -/
def grantJti (grantId : String) : String := "uvgrant:" ++ grantId

/-- `_UV_REVOKE_KEY_JTI_PREFIX + act_id` -/
def stopJti (actId : String) : String := "uvrevokekey:" ++ actId

-- Named, so that no definition holds a proof of its own.
local instance lawfulBinding : LawfulBEq (String × String) := inferInstance

/-- `_bound_phone_for` -/
def boundPhoneFor (consumer subject : String) (phones : List BoundPhone) : Option BoundPhone :=
  phones.find? fun p => (consumer, subject) ∈ p.memberBindings

/-- `_bound_verifier` -/
def boundVerifier (cfg : Config) (phone : BoundPhone) (message : Bytes) (sig : String) : Bool :=
  cfg.verifySignature message sig phone.publicKeyB64u phone.algorithm

/-- The entry that ends a grant: it lasts as long as the grant would. -/
def endEntry (grant : VaultGrant) (now : ℤ) (reason : String) : RevocationEntry :=
  { jti := grantJti grant.grantId, revokedAt := now, originalExp := grant.record.notAfter
    reason := some reason }

/-! ## The grant -/

/-- The listed grants that the record replaces. -/
def replaced (record : GrantRecord) (grantId : String) (listed : List VaultGrant) :
    List VaultGrant :=
  listed.filter fun old =>
    (old.record.agentHandle, old.record.key) = (record.agentHandle, record.key) ∧
      old.grantId ≠ grantId

/-- Every replaced grant is revoked before the rest goes on. -/
def supersede (rest : Handler) : List VaultGrant → Handler
  | [] => rest
  | old :: olds => .call .time fun (now : ℤ) =>
      .call (.addRevocation (endEntry old now
        "revoked: user-vault grant replaced by a newer one for the same slot"))
        fun (added : Option Unit) =>
          match added with
          | none => internalError
          | some () => supersede rest olds

/-- The grant is stored and answered. -/
def storeGrant (record : GrantRecord) (grantId : String) (signature : Json)
    (signerPhoneRef : String) : Handler :=
  .call .time fun (admittedAtUnix : ℤ) =>
    .call (.putGrant { grantId, record, signature, signerPhoneRef, admittedAtUnix }) fun _ =>
      .call (.send (.admitted grantId record.notAfter)) .done

/-- A verified grant: refused once revoked, else it replaces the grants of its slot. -/
def admitGrant (record : GrantRecord) (grantId : String) (signature : Json) (phone : BoundPhone) :
    Handler :=
  .call (.isRevoked (grantJti grantId)) fun (revoked : Bool) =>
    if revoked then refuse 403 "grant_revoked"
    else .call (.listGrants record.consumer record.subject) fun (listed : List VaultGrant) =>
      supersede (storeGrant record grantId signature phone.phoneId)
        (replaced record grantId listed)

/-- `_handle_user_vault_grant` -/
def handleGrant (cfg : Config) (body : Json) : Handler :=
  if cfg.userVault = false then refuse 404 "unknown_endpoint"
  else
    match GrantRecord.fromDict (at? body "record") with
    | .error refusal => refuse 400 refusal.name
    | .ok record => .call .listPhones fun (phones : List BoundPhone) =>
        match boundPhoneFor record.consumer record.subject phones with
        | none => refuse 403 "grant_subject_unbound"
        | some phone => .call .time fun (now : ℤ) =>
            match verifyGrant cfg.env record (at? body "signature_b64u") cfg.bootloaderId now
                (boundVerifier cfg phone) with
            | .error refusal => refuse 403 refusal.name
            | .ok grantId => admitGrant record grantId (at? body "signature_b64u") phone

/-! ## The revoke -/

/-- A verified revoke: the grant is this subject's, and joins the list. -/
def revokeGrant (record : RevokeRecord) : Handler :=
  .call (.getGrant record.grantId) fun (found : Option VaultGrant) =>
    match found with
    | none => refuse 404 "grant_unknown"
    | some grant =>
        if (grant.record.consumer, grant.record.subject) ≠ (record.consumer, record.subject) then
          refuse 404 "grant_unknown"
        else .call .time fun (now : ℤ) =>
          .call (.addRevocation { endEntry grant now "revoked: user-vault grant, by the bound phone"
                                    with jti := grantJti record.grantId })
            fun (added : Option Unit) =>
              match added with
              | none => internalError
              | some () => .call (.send (.grantRevoked record.grantId)) .done

/-- `_handle_user_vault_revoke` -/
def handleRevoke (cfg : Config) (body : Json) : Handler :=
  if cfg.userVault = false then refuse 404 "unknown_endpoint"
  else
    match RevokeRecord.fromDict (at? body "record") with
    | .error refusal => refuse 400 refusal.name
    | .ok record => .call .listPhones fun (phones : List BoundPhone) =>
        match boundPhoneFor record.consumer record.subject phones with
        | none => refuse 403 "grant_subject_unbound"
        | some phone =>
            match verifyRevoke record (at? body "signature_b64u") cfg.bootloaderId
                (boundVerifier cfg phone) with
            | .error refusal => refuse 403 refusal.name
            | .ok _ => revokeGrant record

/-! ## The stop-all -/

/-- The loop of `_live_grants`: each grant in its window is looked up on the revocation list. -/
def keepLive (now : ℤ) (rest : List VaultGrant → Handler) :
    List VaultGrant → List VaultGrant → Handler
  | [], live => rest live
  | g :: gs, live =>
      if now < g.record.notAfter then
        .call (.isRevoked (grantJti g.grantId)) fun (revoked : Bool) =>
          keepLive now rest gs (if revoked then live else live ++ [g])
      else keepLive now rest gs live

/-- `_live_grants` -/
def liveGrants (consumer subject : String) (rest : List VaultGrant → Handler) : Handler :=
  .call .time fun (now : ℤ) =>
    .call (.listGrants consumer subject) fun (listed : List VaultGrant) =>
      keepLive now rest listed []

/-- The live grants of the key join the list, one after the other. -/
def stopEach (now : ℤ) : List VaultGrant → List String → Handler
  | [], stopped => .call (.send (.stopped stopped)) .done
  | g :: gs, stopped =>
      .call (.addRevocation (endEntry g now
        "revoked: user-vault grant, stop-all for its key by the bound phone"))
        fun (added : Option Unit) =>
          match added with
          | none => internalError
          | some () => stopEach now gs (stopped ++ [g.grantId])

/-- A verified stop-all: marked used, then every live grant of its key ends. -/
def stopAll (record : RevokeKeyRecord) (actId : String) (now : ℤ) : Handler :=
  .call (.isRevoked (stopJti actId)) fun (used : Bool) =>
    if used then refuse 403 "grant_act_used"
    else
      .call (.addRevocation
        { jti := stopJti actId, revokedAt := now, originalExp := record.notAfter
          reason := some "used: user-vault stop-all for one key" })
        fun (added : Option Unit) =>
          match added with
          | none => internalError
          | some () => liveGrants record.consumer record.subject fun live =>
              stopEach now (live.filter fun g => g.record.key = record.key) []

/-- `_handle_user_vault_revoke_key` -/
def handleRevokeKey (cfg : Config) (body : Json) : Handler :=
  if cfg.userVault = false then refuse 404 "unknown_endpoint"
  else
    match RevokeKeyRecord.fromDict (at? body "record") with
    | .error refusal => refuse 400 refusal.name
    | .ok record => .call .listPhones fun (phones : List BoundPhone) =>
        match boundPhoneFor record.consumer record.subject phones with
        | none => refuse 403 "grant_subject_unbound"
        | some phone => .call .time fun (now : ℤ) =>
            match verifyRevokeKey cfg.env record (at? body "signature_b64u") cfg.bootloaderId now
                (boundVerifier cfg phone) with
            | .error refusal => refuse 403 refusal.name
            | .ok actId => stopAll record actId now

/-! ## Requests -/

inductive VaultRequest where
  | grant (body : Json)
  | revoke (body : Json)
  | revokeKey (body : Json)

namespace VaultRequest

def handler (cfg : Config) : VaultRequest → Handler
  | grant body => handleGrant cfg body
  | revoke body => handleRevoke cfg body
  | revokeKey body => handleRevokeKey cfg body

def body : VaultRequest → Json
  | grant body => body
  | revoke body => body
  | revokeKey body => body

/-- The grant record a request presents. -/
def grantRecord : VaultRequest → Option GrantRecord
  | grant body => (GrantRecord.fromDict (at? body "record")).toOption
  | _ => none

/-- The revoke record a request presents. -/
def revokeRecord : VaultRequest → Option RevokeRecord
  | revoke body => (RevokeRecord.fromDict (at? body "record")).toOption
  | _ => none

/-- The stop-all record a request presents. -/
def stopRecord : VaultRequest → Option RevokeKeyRecord
  | revokeKey body => (RevokeKeyRecord.fromDict (at? body "record")).toOption
  | _ => none

end VaultRequest

/-- A stored grant counts: it is in its window and its id is not revoked. -/
def Live (backend : RevocationBackend) (shared : Shared) (now : ℤ) (g : VaultGrant) : Prop :=
  g ∈ shared.grants ∧ now < g.record.notAfter ∧
    (isRevoked backend now (grantJti g.grantId) shared.revocations).1 = false

instance (backend : RevocationBackend) (shared : Shared) (now : ℤ) (g : VaultGrant) :
    Decidable (Live backend shared now g) := inferInstanceAs (Decidable (_ ∧ _ ∧ _))

end UserVault
end Recto
