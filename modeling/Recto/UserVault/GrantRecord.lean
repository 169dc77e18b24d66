import Recto.Connections.ActRecord
import Recto.Json.RoundTrip

/-!
# User-vault records

`recto.user_vault.grant_record`: the tuples a user's bound phone signs to let an
agent use one of the user's keys, to take that back, and to end every grant of
one key.
-/

namespace Recto
namespace UserVault

open Capability Connections

/-- `ACT_WINDOW_SECONDS` -/
def actWindowSeconds : ℤ := 600

/-- `GRANT_MAX_SECONDS` -/
def grantMaxSeconds : ℤ := 365 * 86400

/-- The named refusals of `GrantRefused`. -/
inductive GrantRefusal where
  | recordInvalid
  | recordFieldsUnexpected
  | agentHandleInvalid
  | bootloaderMismatch
  | expired
  | tooLong
  | signatureInvalid
  | actWindowInvalid
  deriving DecidableEq, Repr

def GrantRefusal.name : GrantRefusal → String
  | recordInvalid => "grant_record_invalid"
  | recordFieldsUnexpected => "grant_record_fields_unexpected"
  | agentHandleInvalid => "grant_agent_handle_invalid"
  | bootloaderMismatch => "grant_bootloader_mismatch"
  | expired => "grant_expired"
  | tooLong => "grant_too_long"
  | signatureInvalid => "grant_signature_invalid"
  | actWindowInvalid => "grant_act_window_invalid"

/-! ## Readers -/

/-- `_text`: a non-empty string without surrounding space. -/
def text (x : Json) : Except GrantRefusal String :=
  match x with
  | .str s => if strip s = s ∧ s ≠ "" then .ok s else .error .recordInvalid
  | _ => .error .recordInvalid

/-- `_positive_int` -/
def positiveInt (x : Json) : Except GrantRefusal ℤ :=
  match x with
  | .int n => if 0 < n then .ok n else .error .recordInvalid
  | _ => .error .recordInvalid

/-- `_from_wire`: an object with exactly these fields. -/
def fromWire (d : Json) (names : List String) : Except GrantRefusal (String → Json) :=
  match d with
  | .obj fields => do
      ensure (∀ f ∈ fields, f.1 ∈ names) .recordFieldsUnexpected
      ensure (∀ name ∈ names, name ∈ fields.map Prod.fst) .recordInvalid
      pure fun name => (fields.lookup name).getD .null
  | _ => .error .recordInvalid

def isScopeChar (c : Char) : Bool :=
  c.isAlphanum || c = '_' || c = '.' || c = ':' || c = '-'

/-- A word of `lo` to `hi` characters of a class. -/
def isWord (p : Char → Bool) (lo hi : ℕ) (s : String) : Bool :=
  lo ≤ (chars s).length && (chars s).length ≤ hi && (chars s).all p

/-- A subject handle exactly as `normalize_subject` returns it. -/
def isHandle (s : String) : Bool := normalizeSubject (.str s) = some s

def isNonce (s : String) : Bool := isWord isB64uChar 16 64 s

/-! ## The records -/

structure GrantRecord where
  bootloaderId : String
  consumer : String
  subject : String
  agentHandle : String
  key : String
  scope : String
  notAfter : ℤ
  nonce : String
  deriving DecidableEq, Repr

namespace GrantRecord

/-- `to_dict` -/
def toDict (r : GrantRecord) : Json :=
  .obj [("agent_handle", .str r.agentHandle), ("bootloader_id", .str r.bootloaderId),
    ("consumer", .str r.consumer), ("key", .str r.key), ("nonce", .str r.nonce),
    ("not_after", .int r.notAfter), ("scope", .str r.scope), ("subject", .str r.subject)]

/-- `grant_id`: SHA-256 hex of the canonical bytes. -/
def grantId (env : TokenPrimitives) (r : GrantRecord) : String :=
  hex (env.sha256 (canonicalJson r.toDict))

def signedMessage (r : GrantRecord) : Bytes :=
  utf8 "recto-user-vault-grant-v1|" ++ canonicalJson r.toDict

/-- `from_dict`, with the checks of the constructor. -/
def fromDict (d : Json) : Except GrantRefusal GrantRecord := do
  let read ← fromWire d
    ["agent_handle", "bootloader_id", "consumer", "key", "nonce", "not_after", "scope", "subject"]
  let bootloaderId ← text (read "bootloader_id")
  let consumer ← text (read "consumer")
  let subject ← text (read "subject")
  let agentHandle ← text (read "agent_handle")
  let key ← text (read "key")
  let scope ← text (read "scope")
  let nonce ← text (read "nonce")
  ensure (isHandle subject) .recordInvalid
  ensure (isHandle agentHandle) .agentHandleInvalid
  ensure (isConnectionKey key) .recordInvalid
  ensure (isWord isScopeChar 1 64 scope) .recordInvalid
  ensure (isNonce nonce) .recordInvalid
  let notAfter ← positiveInt (read "not_after")
  pure { bootloaderId, consumer, subject, agentHandle, key, scope, notAfter, nonce }

/-- The slot a grant fills: one is live for each. -/
def slot (r : GrantRecord) : String × String × String × String :=
  (r.consumer, r.subject, r.agentHandle, r.key)

/-- The canonical bytes say every field of the record. -/
theorem toDict_injective {r r' : GrantRecord}
    (h : canonicalJson r.toDict = canonicalJson r'.toDict) : r = r' := by
  have hdumps : Json.dumps r.toDict = Json.dumps r'.toDict := encodeUtf8_injective h
  have hplain : ∀ r : GrantRecord, Json.Plain r.toDict := fun r => by
    simp [toDict, Json.Plain, Json.PlainFields]
  have hcanon := Json.canon_eq_of_dumps_eq (hplain r).proper (hplain r').proper hdumps
  simp only [toDict, Json.canon, Json.canonFields, Json.obj.injEq] at hcanon
  have hlookup := lookup_eq_of_perm
    ((Json.sortFields_perm _).symm.trans (hcanon ▸ Json.sortFields_perm _)) (by simp)
  cases r
  cases r'
  simp only [mk.injEq]
  refine ⟨?_, ?_, ?_, ?_, ?_, ?_, ?_, ?_⟩
  · simpa [List.lookup_cons] using (hlookup "bootloader_id").symm
  · simpa [List.lookup_cons] using (hlookup "consumer").symm
  · simpa [List.lookup_cons] using (hlookup "subject").symm
  · simpa [List.lookup_cons] using (hlookup "agent_handle").symm
  · simpa [List.lookup_cons] using (hlookup "key").symm
  · simpa [List.lookup_cons] using (hlookup "scope").symm
  · simpa [List.lookup_cons] using (hlookup "not_after").symm
  · simpa [List.lookup_cons] using (hlookup "nonce").symm

end GrantRecord

structure RevokeRecord where
  bootloaderId : String
  consumer : String
  subject : String
  grantId : String
  nonce : String
  deriving DecidableEq, Repr

namespace RevokeRecord

def toDict (r : RevokeRecord) : Json :=
  .obj [("bootloader_id", .str r.bootloaderId), ("consumer", .str r.consumer),
    ("grant_id", .str r.grantId), ("nonce", .str r.nonce), ("subject", .str r.subject)]

def signedMessage (r : RevokeRecord) : Bytes :=
  utf8 "recto-user-vault-revoke-v1|" ++ canonicalJson r.toDict

def fromDict (d : Json) : Except GrantRefusal RevokeRecord := do
  let read ← fromWire d ["bootloader_id", "consumer", "grant_id", "nonce", "subject"]
  let bootloaderId ← text (read "bootloader_id")
  let consumer ← text (read "consumer")
  let subject ← text (read "subject")
  let grantId ← text (read "grant_id")
  let nonce ← text (read "nonce")
  ensure (isHandle subject) .recordInvalid
  ensure (isRun isLowerHex 64 grantId) .recordInvalid
  ensure (isNonce nonce) .recordInvalid
  pure { bootloaderId, consumer, subject, grantId, nonce }

end RevokeRecord

/-- "Stop all" for one key. -/
structure RevokeKeyRecord where
  bootloaderId : String
  consumer : String
  subject : String
  key : String
  notAfter : ℤ
  nonce : String
  deriving DecidableEq, Repr

namespace RevokeKeyRecord

def toDict (r : RevokeKeyRecord) : Json :=
  .obj [("bootloader_id", .str r.bootloaderId), ("consumer", .str r.consumer), ("key", .str r.key),
    ("nonce", .str r.nonce), ("not_after", .int r.notAfter), ("subject", .str r.subject)]

/-- `act_id`: SHA-256 hex of the canonical bytes. -/
def actId (env : TokenPrimitives) (r : RevokeKeyRecord) : String :=
  hex (env.sha256 (canonicalJson r.toDict))

def signedMessage (r : RevokeKeyRecord) : Bytes :=
  utf8 "recto-user-vault-revoke-key-v1|" ++ canonicalJson r.toDict

def fromDict (d : Json) : Except GrantRefusal RevokeKeyRecord := do
  let read ← fromWire d ["bootloader_id", "consumer", "key", "nonce", "not_after", "subject"]
  let bootloaderId ← text (read "bootloader_id")
  let consumer ← text (read "consumer")
  let subject ← text (read "subject")
  let key ← text (read "key")
  let nonce ← text (read "nonce")
  ensure (isHandle subject) .recordInvalid
  ensure (isConnectionKey key) .recordInvalid
  ensure (isNonce nonce) .recordInvalid
  let notAfter ← positiveInt (read "not_after")
  pure { bootloaderId, consumer, subject, key, notAfter, nonce }

end RevokeKeyRecord

/-! ## Verification -/

/-- A signature is a non-empty string that verifies over the message. -/
def isSigned (verify : Bytes → String → Bool) (message : Bytes) (signature : Json) : Bool :=
  match signature with
  | .str sig => sig ≠ "" && verify message sig
  | _ => false

/-- `verify_grant`, for the key the caller bound into `verify`: the grant's id. -/
def verifyGrant (env : TokenPrimitives) (record : GrantRecord) (signature : Json)
    (bootloaderId : String) (now : ℤ) (verify : Bytes → String → Bool) :
    Except GrantRefusal String := do
  ensure (record.bootloaderId = bootloaderId) .bootloaderMismatch
  ensure (now < record.notAfter) .expired
  ensure (record.notAfter ≤ now + grantMaxSeconds) .tooLong
  ensure (isSigned verify record.signedMessage signature) .signatureInvalid
  pure (record.grantId env)

/-- `verify_revoke`: the id of the grant it takes back. -/
def verifyRevoke (record : RevokeRecord) (signature : Json) (bootloaderId : String)
    (verify : Bytes → String → Bool) : Except GrantRefusal String := do
  ensure (record.bootloaderId = bootloaderId) .bootloaderMismatch
  ensure (isSigned verify record.signedMessage signature) .signatureInvalid
  pure record.grantId

/-- `verify_revoke_key`: the id the act is marked used by. -/
def verifyRevokeKey (env : TokenPrimitives) (record : RevokeKeyRecord) (signature : Json)
    (bootloaderId : String) (now : ℤ) (verify : Bytes → String → Bool) :
    Except GrantRefusal String := do
  ensure (record.bootloaderId = bootloaderId) .bootloaderMismatch
  ensure (now < record.notAfter ∧ record.notAfter ≤ now + actWindowSeconds) .actWindowInvalid
  ensure (isSigned verify record.signedMessage signature) .signatureInvalid
  pure (record.actId env)

section
variable {env : TokenPrimitives} {signature : Json} {bootloaderId id : String} {now : ℤ}
  {verify : Bytes → String → Bool}

theorem verifyGrant_eq_ok {record : GrantRecord} :
    verifyGrant env record signature bootloaderId now verify = .ok id ↔
      record.bootloaderId = bootloaderId ∧ now < record.notAfter ∧
        record.notAfter ≤ now + grantMaxSeconds ∧
        isSigned verify record.signedMessage signature = true ∧ record.grantId env = id := by
  simp only [verifyGrant, Except.bind_eq_ok, ensure_eq_ok, Except.pure_eq_ok, exists_const]

theorem verifyRevoke_eq_ok {record : RevokeRecord} :
    verifyRevoke record signature bootloaderId verify = .ok id ↔
      record.bootloaderId = bootloaderId ∧
        isSigned verify record.signedMessage signature = true ∧ record.grantId = id := by
  simp only [verifyRevoke, Except.bind_eq_ok, ensure_eq_ok, Except.pure_eq_ok, exists_const]

theorem verifyRevokeKey_eq_ok {record : RevokeKeyRecord} :
    verifyRevokeKey env record signature bootloaderId now verify = .ok id ↔
      record.bootloaderId = bootloaderId ∧
        (now < record.notAfter ∧ record.notAfter ≤ now + actWindowSeconds) ∧
        isSigned verify record.signedMessage signature = true ∧ record.actId env = id := by
  simp only [verifyRevokeKey, Except.bind_eq_ok, ensure_eq_ok, Except.pure_eq_ok, exists_const]

end

end UserVault
end Recto
