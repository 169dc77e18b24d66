import Recto.Grants.Service

/-!
# The handlers that spend a grant

`/v0.4/connections/act`, `/v0.4/devices/pair` and `/v0.4/secrets/read`, and the
operator's `/v0.4/capability/revoke`: each a program of calls of the store. A
grant's jti is spent by joining the revocation list.
-/

namespace Recto
namespace Grants

open Capability Connections State

/-- What of the server's configuration the handlers read. -/
structure Config where
  env : TokenPrimitives
  verifySignature : Bytes → String → String → String → Bool
  bootloaderId : String
  connections : Bool
  operatorPubkey : Option Bytes
  consumerTokens : Dict String String
  relayUrls : Dict String String
  signsResults : Bool
  vaultSecrets : Dict (String × String) String
  manifest : Option ActionManifest
  operatorToken : Option String
  userVault : Bool

/-- `body.get(name)` -/
def at? (body : Json) (name : String) : Json := (field body name).getD .null

/-- The jti of verified claims: `verify_jws` has checked that it is a string. -/
def jtiText (claims : CapabilityClaims) : String :=
  match claims.jti with
  | .str s => s
  | _ => ""

/-- `reserved_reset_jti` -/
def reservedResetJti (jti : String) : Bool := startsWith jti "ownerreset:"

/-- The entry that spends a grant. -/
def spentEntry (claims : CapabilityClaims) (now : ℤ) (reason : String) : RevocationEntry :=
  { jti := jtiText claims, revokedAt := now, originalExp := claims.exp, reason := some reason }

/-! ## Connection acts -/

/-- The act of a spent grant: the row exists, or the verb makes it. -/
def carryOutAct (record : ActRecord) (value : Option String) (jti : String) : Handler :=
  let perform : Handler := .call (.carryOut record value)
    fun (r : Except (Refused ActRefusal) ActAnswer) =>
      match r with
      | .error (.named refusal) => refuse 403 refusal.name
      | .error (.raised _) => internalError
      | .ok answer => .call (.send (.acted answer record.verb jti)) .done
  if record.verb = .set then perform
  else .call (.getConnectionMeta record.service record.key) fun (row : Option ConnectionMeta) =>
    match row with
    | none => refuse 404 "connection_not_found"
    | some _ => perform

/-- A verified grant: its jti is looked up, then spent, and only then held against the record. -/
def actOnGrant (cfg : Config) (claims : CapabilityClaims) (record : ActRecord) (value : Json) :
    Handler :=
  if reservedResetJti (jtiText claims) then refuse 403 "grant_jti_reserved"
  else .call (.isRevoked (jtiText claims)) fun (revoked : Bool) =>
    if revoked then refuse 403 "grant_replayed"
    else .call .time fun (now : ℤ) =>
      .call (.addRevocation (spentEntry claims now ("spent: connections:" ++ record.verb.name)))
        fun (added : Option Unit) =>
          match added with
          | none => internalError
          | some () =>
              match verifyActGrant cfg.env claims record cfg.bootloaderId true with
              | .error (.named refusal) => refuse 403 refusal.name
              | .error (.raised _) => internalError
              | .ok _ =>
                  match checkActValue cfg.env record value with
                  | .error refusal => refuse 403 refusal.name
                  | .ok checked => carryOutAct record checked (jtiText claims)

/-- `_handle_connections_act` -/
def handleConnectionsAct (cfg : Config) (body : Json) : Handler :=
  if cfg.connections = false then refuse 404 "unknown_endpoint"
  else
    match cfg.operatorPubkey with
    | none => refuse 503 "operator_pubkey_not_configured"
    | some operatorKey =>
        match nonBlank (at? body "jws") with
        | none => badRequest
        | some jws =>
            if isDict (at? body "record") = false then refuse 400 "record_required"
            else
              match ActRecord.fromDict (at? body "record") with
              | .error (.named refusal) => refuse 400 refusal.name
              | .error (.raised _) => internalError
              | .ok record => .call .time fun (now : ℤ) =>
                  match verifyJws cfg.env jws operatorKey (some cfg.bootloaderId) none now with
                  | .error .valueError => refuse 403 "grant_signature_invalid"
                  | .error _ => internalError
                  | .ok claims => actOnGrant cfg claims record (at? body "value")

/-! ## Pairings -/

/-- `url.rstrip("/")` -/
def stripSlashes (url : String) : String :=
  String.ofList ((chars url).reverse.dropWhile (· = '/')).reverse

/-- The claims of the bootloader's own attestation that it verified a pairing. -/
def pairResultClaims (cfg : Config) (claims : CapabilityClaims) (record : PairRecord)
    (fingerprint url uuid : String) (now : ℤ) : CapabilityClaims :=
  let audiences := claims.aud.filter (· ≠ .str cfg.bootloaderId)
  { iss := .str ("bootloader:" ++ cfg.bootloaderId)
    sub := .str ("user:" ++ record.subject)
    aud := if audiences = [] then [.str (stripSlashes url)] else audiences
    iat := now
    nbf := now - 60
    exp := now + 300
    jti := .str ("pair-result-" ++ uuid)
    cap :=
      { tier := .int 0
        registryVersion := claims.cap.registryVersion
        groups := []
        scope :=
          { env := [], services := [], repos := [], createForOwner := .null, chatRoomId := .null
            targetUserId := .null, pairingCode := .str record.code
            payloadSha256 := .str fingerprint }
        allowActions := [.str "devices:pair_result"]
        denyActions := []
        limits := ⟨[], [], []⟩ }
    purpose := .str "devices:pair result"
    parentCap := .null
    maxUses := .int 1
    parentProfile := .null }

/-- The relay of a spent grant to the consumer it names, when that one is registered. -/
def forwardPairing (cfg : Config) (record : PairRecord) (fingerprint url jws : String)
    (attestation : Option CapabilityClaims) : Handler :=
  let normalized := stripSlashes url
  match (cfg.consumerTokens.get? normalized).or (cfg.consumerTokens.get? (normalized ++ "/")) with
  | none => refuse 404 "unknown_consumer"
  | some webhookToken =>
      let relay : PairingRelay :=
        { forwardUrl := (cfg.relayUrls.get? normalized).getD normalized ++
            "/api/v1/devices/pairing/complete"
          webhookToken
          code := record.code
          masterPubkeyHex := record.phonePubkey
          capabilityJws := jws
          record
          fingerprint
          attestation }
      .call (.forward relay) fun (reply : ConsumerReply) =>
        match reply with
        | .answered status body => .call (.send (.relayed status body)) .done
        | .unreachable => refuse 502 "consumer_unreachable"
        | .failed => refuse 502 "consumer_forwarding_failed"

/-- A verified grant: its jti is looked up, the grant is held against the record, and then it is
spent. -/
def pairOnGrant (cfg : Config) (claims : CapabilityClaims) (record : PairRecord)
    (url jws : String) : Handler :=
  if reservedResetJti (jtiText claims) then refuse 403 "grant_jti_reserved"
  else .call (.isRevoked (jtiText claims)) fun (revoked : Bool) =>
    if revoked then refuse 403 "grant_replayed"
    else .call .time fun (now : ℤ) =>
      match verifyPairGrant cfg.env claims record record.phonePubkey cfg.bootloaderId now
          pairAction with
      | .error (.named refusal) => refuse 403 refusal.name
      | .error (.raised _) => internalError
      | .ok fingerprint =>
          .call (.addRevocation (spentEntry claims now "spent: devices:pair"))
            fun (added : Option Unit) =>
              match added with
              | none => internalError
              | some () =>
                  if cfg.signsResults then .call .uuid fun (uuid : String) =>
                    forwardPairing cfg record fingerprint url jws
                      (some (pairResultClaims cfg claims record fingerprint url uuid now))
                  else forwardPairing cfg record fingerprint url jws none

/-- `_handle_devices_pair` -/
def handleDevicesPair (cfg : Config) (body : Json) : Handler :=
  if cfg.consumerTokens.items = [] then refuse 404 "unknown_endpoint"
  else
    match nonBlank (at? body "consumer_base_url"), nonBlank (at? body "user_jws") with
    | some url, some jws =>
        if isDict (at? body "record") = false then refuse 400 "record_required"
        else
          match PairRecord.fromDict (at? body "record") with
          | .error refusal => refuse 400 refusal.name
          | .ok record =>
              if record.bootloaderId ≠ cfg.bootloaderId then refuse 403 "record_bootloader_mismatch"
              else if normalizeSubject (.str record.subject) = none then
                refuse 400 "record_subject_invalid"
              else .call .time fun (now : ℤ) =>
                match verifyJws cfg.env jws ((fromHex record.phonePubkey).getD [])
                    (some cfg.bootloaderId) none now with
                | .error .valueError => refuse 403 "grant_signature_invalid"
                | .error _ => internalError
                | .ok claims => pairOnGrant cfg claims record url jws
    | _, _ => badRequest

/-! ## Reads -/

/-- A non-empty string. -/
def nonEmpty : Json → Option String
  | .str s => if s = "" then none else some s
  | _ => none

/-- The answer of a read. -/
def returnValue (value service secretName jti : String) : Handler :=
  .call (.send (.value value service secretName jti)) .done

/-- A verified read that nothing refuses: a single use is consumed, last. -/
def readOnGrant (cfg : Config) (claims : CapabilityClaims) (service secretName : String) :
    Handler :=
  .call (.isRevoked (jtiText claims)) fun (revoked : Bool) =>
    if revoked then refuse 401 "capability_revoked"
    else
      match cfg.manifest with
      | none => internalError
      | some manifest =>
          if evaluateScope "secret:read" claims.cap manifest = false then refuse 403 "scope_denied"
          else if claims.cap.scope.services ≠ [] ∧ .str service ∉ claims.cap.scope.services then
            refuse 403 "scope_service_denied"
          else
            match cfg.vaultSecrets.get? (service, secretName) with
            | none => refuse 404 "secret_not_found"
            | some value =>
                if isOne claims.maxUses then .call .time fun (now : ℤ) =>
                  .call (.consumeSingleUse (spentEntry claims now "single-use capability spent"))
                    fun (spent : Option Bool) =>
                      match spent with
                      | none => internalError
                      | some false => refuse 401 "capability_revoked"
                      | some true => returnValue value service secretName (jtiText claims)
                else returnValue value service secretName (jtiText claims)

/-- `_handle_secret_read` -/
def handleSecretRead (cfg : Config) (body : Json) : Handler :=
  if cfg.vaultSecrets.items = [] then refuse 404 "unknown_endpoint"
  else
    match cfg.operatorPubkey with
    | none => refuse 503 "operator_pubkey_not_configured"
    | some operatorKey =>
        if cfg.manifest.isNone then refuse 503 "manifest_not_configured"
        else
          match nonEmpty (at? body "capability_jws"), nonEmpty (at? body "service"),
              nonEmpty (at? body "secret_name") with
          | some jws, some service, some secretName => .call .time fun (now : ℤ) =>
              match verifyJws cfg.env jws operatorKey (some "recto:vault") none now with
              | .error .valueError => refuse 401 "capability_jws_invalid"
              | .error _ => internalError
              | .ok claims =>
                  if claims.maxUses ≠ .null ∧ isOne claims.maxUses = false then
                    refuse 401 "capability_jws_invalid"
                  else readOnGrant cfg claims service secretName
          | _, _, _ => badRequest

/-! ## The operator's revocation -/

/-- `_handle_capability_revoke`, with the token header it came with. -/
def handleCapabilityRevoke (cfg : Config) (token : String) (body : Json) : Handler :=
  match cfg.operatorToken.filter (· ≠ "") with
  | none => refuse 404 "unknown_endpoint"
  | some operatorToken =>
      if strip token = "" then refuse 401 "operator_token_required"
      else if strip token ≠ operatorToken then refuse 401 "operator_token_invalid"
      else
        match nonEmpty (at? body "jti") with
        | none => badRequest
        | some jti =>
            if reservedResetJti jti then refuse 403 "revoke_jti_reserved"
            else
              -- `isinstance(x, int)` admits a bool
              match at? body "original_exp_unix" with
              | .int originalExp => revoke jti originalExp
              | .bool b => revoke jti (if b then 1 else 0)
              | _ => badRequest
where
  revoke (jti : String) (originalExp : ℤ) : Handler :=
    match at? body "reason" with
    | .null => record jti originalExp none
    | .str reason => record jti originalExp (some reason)
    | _ => badRequest
  record (jti : String) (originalExp : ℤ) (reason : Option String) : Handler :=
    .call (.isRevoked jti) fun (already : Bool) => .call .time fun (now : ℤ) =>
      .call (.addRevocation { jti, revokedAt := now, originalExp, reason })
        fun (added : Option Unit) =>
          match added with
          | none => internalError
          | some () => .call (.send (.capabilityRevoked jti already)) .done

end Grants
end Recto
