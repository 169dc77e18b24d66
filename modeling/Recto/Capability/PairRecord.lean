import Recto.Capability.Jwt
import Recto.Text.Handles

/-!
# Pairing records

`recto.capability.pair_record`: the tuple a phone signs when it binds to a
consumer, and the check that admits a grant for exactly that tuple.
-/

namespace Recto
namespace Capability

/-- `PAIR_ACTION` -/
def pairAction : String := "devices:pair"

/-- `PAIR_WINDOW_CEILING_SECONDS` -/
def pairWindowCeilingSeconds : ℤ := 3600

/-- The named refusals of `PairRefused`. -/
inductive PairRefusal where
  | recordPubkeyMalformed
  | recordFieldEmpty
  | recordNotAfterMalformed
  | recordExpired
  | grantActionNotPair
  | grantScopeMissingFingerprint
  | grantScopeFingerprintMismatch
  | grantCodeMismatch
  | grantSignerNotRecordPhone
  | grantWindowExceedsCeiling
  | grantAudienceNotBootloader
  deriving DecidableEq, Repr

def PairRefusal.name : PairRefusal → String
  | recordPubkeyMalformed => "record_pubkey_malformed"
  | recordFieldEmpty => "record_field_empty"
  | recordNotAfterMalformed => "record_not_after_malformed"
  | recordExpired => "record_expired"
  | grantActionNotPair => "grant_action_not_pair"
  | grantScopeMissingFingerprint => "grant_scope_missing_fingerprint"
  | grantScopeFingerprintMismatch => "grant_scope_fingerprint_mismatch"
  | grantCodeMismatch => "grant_code_mismatch"
  | grantSignerNotRecordPhone => "grant_signer_not_record_phone"
  | grantWindowExceedsCeiling => "grant_window_exceeds_ceiling"
  | grantAudienceNotBootloader => "grant_audience_not_bootloader"

structure PairRecord where
  bootloaderId : String
  subject : String
  phonePubkey : String
  code : String
  notAfter : ℤ
  deriving DecidableEq, Repr

namespace PairRecord

def toDict (r : PairRecord) : Json :=
  .obj [("bootloader_id", .str r.bootloaderId), ("code", .str r.code), ("not_after", .int r.notAfter),
    ("phone_pubkey", .str r.phonePubkey), ("subject", .str r.subject)]

/-- `fingerprint`: SHA-256 hex of the canonical bytes. -/
def fingerprint (env : TokenPrimitives) (r : PairRecord) : String :=
  hex (env.sha256 (canonicalJson r.toDict))

end PairRecord

/-- The key without `0x` and without the `04` of an uncompressed point. -/
def bareKey (key : String) : String :=
  let s := lower (strip key)
  let s := if startsWith s "0x" then String.ofList ((chars s).drop 2) else s
  if (chars s).length = 130 ∧ startsWith s "04" then String.ofList ((chars s).drop 2) else s

/-- `pinned.strip().lower()` of a string. -/
def textOf : Json → String
  | .str s => lower (strip s)
  | _ => ""

/-- A non-blank string. -/
def nonBlank : Json → Option String
  | .str s => if strip s = "" then none else some s
  | _ => none

/-- A whole number of seconds: an integer, or its decimal digits. -/
def readSeconds : Json → Json
  | .str s => if s ≠ "" ∧ (chars s).all Char.isDigit then
      match Json.intOfString s with
      | some n => .int n
      | none => .str s
    else .str s
  | x => x

/-- `PairRecord.from_dict`, with the checks of the constructor. -/
def PairRecord.fromDict (d : Json) : Except PairRefusal PairRecord :=
  let read name := (field d name).getD .null
  match nonBlank (read "bootloader_id"), nonBlank (read "subject"), nonBlank (read "code") with
  | some bootloaderId, some subject, some code =>
      match read "phone_pubkey" with
      | .str key =>
          let phonePubkey := bareKey key
          if isRun isLowerHex 128 phonePubkey then
            match readSeconds (read "not_after") with
            | .int notAfter =>
                if 0 < notAfter then .ok { bootloaderId, subject, phonePubkey, code, notAfter }
                else .error .recordNotAfterMalformed
            | _ => .error .recordNotAfterMalformed
          else .error .recordPubkeyMalformed
      | _ => .error .recordPubkeyMalformed
  | _, _, _ => .error .recordFieldEmpty

/-- `verify_pair_grant`, the signer being the key the token recovered to. -/
def verifyPairGrant (env : TokenPrimitives) (claims : CapabilityClaims) (record : PairRecord)
    (signerPubkeyHex bootloaderId : String) (now : ℤ) (action : String) :
    Except (Refused PairRefusal) String := do
  ensure (.str action ∈ claims.cap.allowActions) (.named .grantActionNotPair)
  ensure (.str bootloaderId ∈ claims.aud) (.named .grantAudienceNotBootloader)
  ensure (bareKey signerPubkeyHex = record.phonePubkey) (.named .grantSignerNotRecordPhone)
  ensure (now < record.notAfter) (.named .recordExpired)
  ensure (claims.exp - claims.nbf ≤ pairWindowCeilingSeconds) (.named .grantWindowExceedsCeiling)
  let expected := record.fingerprint env
  let pinned := claims.cap.scope.payloadSha256
  ensure pinned.truthy (.named .grantScopeMissingFingerprint)
  -- `pinned.strip()`: the type of a scope field is not among those `verify_jws` checks
  ensure (isStr pinned) (.raised .attributeError)
  ensure (textOf pinned = expected) (.named .grantScopeFingerprintMismatch)
  ensure (claims.cap.scope.pairingCode = .null ∨ claims.cap.scope.pairingCode = .str record.code)
    (.named .grantCodeMismatch)
  pure expected

end Capability
end Recto
