import Recto.Capability.PairRecord

/-!
# Connection acts

`recto.connections.act_record` and `act_set`: the tuple an operator signs to
enable, disable, delete or set one connection, the one grant admitted for it,
and the value a set may store.
-/

namespace Recto
namespace Connections

open Capability

/-- `ACT_ACTIONS` -/
inductive ActVerb where
  | enable
  | disable
  | delete
  | set
  deriving DecidableEq, Repr

namespace ActVerb

def name : ActVerb → String
  | enable => "enable"
  | disable => "disable"
  | delete => "delete"
  | set => "set"

/-- `verb.upper()` -/
def upper : ActVerb → String
  | enable => "ENABLE"
  | disable => "DISABLE"
  | delete => "DELETE"
  | set => "SET"

def all : List ActVerb := [enable, disable, delete, set]

def ofName? (s : String) : Option ActVerb := all.find? fun v => v.name = s

/-- The one action a grant for the verb carries. -/
def action (v : ActVerb) : String := "connections:" ++ v.name

end ActVerb

/-- The named refusals of `ActRefused`. -/
inductive ActRefusal where
  | recordFieldEmpty
  | recordKeyMalformed
  | recordVerbUnknown
  | recordNotAfterMalformed
  | recordFieldsUnexpected
  | recordValueSha256Malformed
  | purposeTooLong
  | actionNotAdmitted
  | groupsNotAdmitted
  | notSingleUse
  | audienceMismatch
  | windowExceedsCeiling
  | tupleMismatch
  | payloadMismatch
  | purposeMismatch
  | scopeServiceDenied
  | scopeNotAdmitted
  | profileNotAdmitted
  | valueNotAdmitted
  | valueMissing
  | valueNotString
  | valueEmpty
  | valueTooLarge
  | valueFingerprintMismatch
  | valueStoreFailed
  deriving DecidableEq, Repr

def ActRefusal.name : ActRefusal → String
  | recordFieldEmpty => "record_field_empty"
  | recordKeyMalformed => "record_key_malformed"
  | recordVerbUnknown => "record_verb_unknown"
  | recordNotAfterMalformed => "record_not_after_malformed"
  | recordFieldsUnexpected => "record_fields_unexpected"
  | recordValueSha256Malformed => "record_value_sha256_malformed"
  | purposeTooLong => "purpose_too_long"
  | actionNotAdmitted => "action_not_admitted"
  | groupsNotAdmitted => "groups_not_admitted"
  | notSingleUse => "not_single_use"
  | audienceMismatch => "audience_mismatch"
  | windowExceedsCeiling => "window_exceeds_ceiling"
  | tupleMismatch => "tuple_mismatch"
  | payloadMismatch => "payload_mismatch"
  | purposeMismatch => "purpose_mismatch"
  | scopeServiceDenied => "scope_service_denied"
  | scopeNotAdmitted => "scope_not_admitted"
  | profileNotAdmitted => "profile_not_admitted"
  | valueNotAdmitted => "value_not_admitted"
  | valueMissing => "value_missing"
  | valueNotString => "value_not_string"
  | valueEmpty => "value_empty"
  | valueTooLarge => "value_too_large"
  | valueFingerprintMismatch => "value_fingerprint_mismatch"
  | valueStoreFailed => "value_store_failed"

/-- `ACT_WINDOW_SECONDS` -/
def actWindowSeconds : ℤ := 300

/-- `PURPOSE_MAX_CHARS` -/
def purposeMaxChars : ℕ := 240

/-- `VALUE_FINGERPRINT_HEX` -/
def valueFingerprintHex : ℕ := 12

/-- `VALUE_MAX_BYTES` -/
def valueMaxBytes : ℕ := 16 * 1024

structure ActRecord where
  bootloaderId : String
  service : String
  key : String
  verb : ActVerb
  notAfter : ℤ
  valueSha256 : Option String
  deriving DecidableEq, Repr

namespace ActRecord

def toDict (r : ActRecord) : Json :=
  .obj ([("bootloader_id", .str r.bootloaderId), ("key", .str r.key), ("not_after", .int r.notAfter),
    ("service", .str r.service), ("verb", .str r.verb.name)] ++
    if r.verb = .set then [("value_sha256", (r.valueSha256.map Json.str).getD .null)] else [])

/-- `fingerprint`: SHA-256 hex of the canonical bytes. -/
def fingerprint (env : TokenPrimitives) (r : ActRecord) : String :=
  hex (env.sha256 (canonicalJson r.toDict))

/-- `value_fingerprint` -/
def valueFingerprint (r : ActRecord) : String :=
  match r.valueSha256 with
  | some digest => "sha256:" ++ String.ofList ((chars digest).take valueFingerprintHex)
  | none => "None"

/-- `purpose`: every field, in words. -/
def purpose (r : ActRecord) : Except PyError String := do
  let named := r.service ++ "/" ++ r.key
  let named := if r.verb = .set then named ++ " = " ++ r.valueFingerprint ++ "..." else named
  let minute ← utcMinute r.notAfter
  pure ("Vault " ++ r.verb.upper ++ ": " ++ named ++ " on " ++ r.bootloaderId ++ " - until " ++ minute)

end ActRecord

def isKeyChar (c : Char) : Bool :=
  ('a' ≤ c && c ≤ 'z') || ('0' ≤ c && c ≤ '9') || c = '_' || c = '-'

/-- `normalize_connection_key(key) == key` -/
def isConnectionKey (key : String) : Bool :=
  match chars key with
  | [] => false
  | c :: cs => isKeyChar c && c ≠ '_' && c ≠ '-' && cs.all isKeyChar && cs.length ≤ 63

/-- A string that is not blank and has no space around it. -/
def exactText (x : Json) : Except (Refused ActRefusal) String :=
  match x with
  | .str s => if strip s = s ∧ s ≠ "" then .ok s else .error (.named .recordFieldEmpty)
  | _ => .error (.named .recordFieldEmpty)

/-- `ACT_RECORD_FIELDS` -/
def actRecordFields : List String := ["bootloader_id", "key", "not_after", "service", "verb"]

/-- `SET_RECORD_FIELDS` -/
def setRecordFields : List String :=
  ["bootloader_id", "key", "not_after", "service", "value_sha256", "verb"]

/-- What a set's record signs of its value, and no other verb's. -/
def readValueSha256 (verb : ActVerb) (x : Json) : Except (Refused ActRefusal) (Option String) :=
  if verb = .set then
    match x with
    | .null => .error (.named .recordFieldEmpty)
    | .str s =>
        if s = "" then .error (.named .recordFieldEmpty)
        else if isRun isLowerHex 64 s then .ok (some s)
        else .error (.named .recordValueSha256Malformed)
    | _ => .error (.named .recordValueSha256Malformed)
  else if x = .null then .ok none
  else .error (.named .recordFieldsUnexpected)

/-- `ActRecord.from_dict`, with the checks of the constructor. -/
def ActRecord.fromDict (d : Json) : Except (Refused ActRefusal) ActRecord :=
  match d with
  | .obj fields => do
      let read name := (field d name).getD .null
      let known := if read "verb" = .str "set" then setRecordFields else actRecordFields
      ensure (∀ f ∈ fields, f.1 ∈ known) (.named .recordFieldsUnexpected)
      let bootloaderId ← exactText (read "bootloader_id")
      let service ← exactText (read "service")
      let key ← exactText (read "key")
      let verbName ← exactText (read "verb")
      ensure (isConnectionKey key) (.named .recordKeyMalformed)
      match ActVerb.ofName? verbName with
      | none => .error (.named .recordVerbUnknown)
      | some verb =>
          match read "not_after" with
          | .int notAfter =>
              ensure (0 < notAfter) (.named .recordNotAfterMalformed)
              let valueSha256 ← readValueSha256 verb (read "value_sha256")
              let record : ActRecord := { bootloaderId, service, key, verb, notAfter, valueSha256 }
              match record.purpose with
              | .error e => .error (.raised e)
              | .ok purpose =>
                  ensure ((chars purpose).length ≤ purposeMaxChars) (.named .purposeTooLong)
                  pure record
          | _ => .error (.named .recordNotAfterMalformed)
  | _ => .error (.named .recordFieldEmpty)

/-- `x == 1`: the integer, `True` and the float. -/
def isOne : Json → Bool
  | .int n => n = 1
  | .bool b => b
  | .float (.decimal m e) => m = 1 && e = 0
  | _ => false

/-- `x in (None, [], {}, "")` -/
def isUnset (x : Json) : Bool := x = .null || x = .arr [] || x = .obj [] || x = .str ""

/-- The scope fields a connection grant may not carry. -/
def otherScopeFields (scope : CapabilityScope) : List Json :=
  [.arr scope.env, .arr scope.repos, scope.createForOwner, scope.chatRoomId, scope.targetUserId,
    scope.pairingCode]

/-- The one allowed action, when the clause names exactly one connection action and denies none. -/
def soleAction (cap : CapabilityClause) : Option String :=
  match cap.allowActions, cap.denyActions with
  | [.str action], [] => if startsWith action "connections:" then some action else none
  | _, _ => none

/-- `verify_act_grant` -/
def verifyActGrant (env : TokenPrimitives) (claims : CapabilityClaims) (record : ActRecord)
    (bootloaderId : String) (admitSet : Bool) : Except (Refused ActRefusal) String := do
  let cap := claims.cap
  ensure (cap.groups = []) (.named .groupsNotAdmitted)
  let action := (soleAction cap).getD ""
  ensure (soleAction cap ≠ none) (.named .actionNotAdmitted)
  ensure (∃ v ∈ ActVerb.all, action = v.action) (.named .actionNotAdmitted)
  ensure (action = ActVerb.set.action → admitSet) (.named .actionNotAdmitted)
  ensure (isOne claims.maxUses) (.named .notSingleUse)
  ensure (claims.parentProfile = .null) (.named .profileNotAdmitted)
  ensure (claims.aud = [.str bootloaderId]) (.named .audienceMismatch)
  ensure (claims.exp - claims.iat ≤ actWindowSeconds ∧ claims.iat < claims.exp)
    (.named .windowExceedsCeiling)
  ensure (action = record.verb.action) (.named .tupleMismatch)
  ensure (record.bootloaderId = bootloaderId) (.named .tupleMismatch)
  ensure (record.notAfter = claims.exp) (.named .tupleMismatch)
  let pinned := cap.scope.payloadSha256
  ensure (isStr pinned ∧ textOf pinned = record.fingerprint env) (.named .payloadMismatch)
  match record.purpose with
  | .error e => .error (.raised e)
  | .ok purpose =>
      ensure (claims.purpose = .str purpose) (.named .purposeMismatch)
      ensure (cap.scope.services = [.str record.service]) (.named .scopeServiceDenied)
      ensure ((otherScopeFields cap.scope).all isUnset) (.named .scopeNotAdmitted)
      pure (record.fingerprint env)

/-- `check_act_value`: the value a verified record may act with. -/
def checkActValue (env : TokenPrimitives) (record : ActRecord) (value : Json) :
    Except ActRefusal (Option String) :=
  if record.verb = .set then
    match value with
    | .null => .error .valueMissing
    | .str s => do
        ensure (s ≠ "") .valueEmpty
        ensure ((chars s).length ≤ valueMaxBytes) .valueTooLarge
        ensure ((utf8 s).length ≤ valueMaxBytes) .valueTooLarge
        ensure (hex (env.sha256 (utf8 s)) = record.valueSha256.getD "") .valueFingerprintMismatch
        pure (some s)
    | _ => .error .valueNotString
  else if value = .null then .ok none
  else .error .valueNotAdmitted

end Connections
end Recto
