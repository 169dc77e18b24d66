import Recto.Json.Loads
import Recto.Phone.Verifier

/-!
# Stale and forged replies

The phone checks what its bootloader answers against the key pinned at pairing.
A reply that is only too old is reported as stale, and the caller may fetch a
fresh one; any other fault is a refusal.
-/

namespace Recto
namespace Phone

/-- `BootloaderAttestation.Action` -/
def attestAction : String := "bootloader:attest"

/-- `BootloaderAttestation.PendingAction` -/
def pendingAction : String := "bootloader:pending"

/-- `BootloaderAttestation.Audience` -/
def phoneAudience : String := "recto-phone"

/-- `AttestResponse` -/
structure AttestResponse where
  bootloaderId : Option String
  nonce : Option String
  attestJws : Option String

/-- `PendingRequestsResponse` -/
structure PendingRequestsResponse where
  pendingJws : Option String
  requestsRawJson : Option String

/-- `AttestationResult` -/
inductive AttestationResult where
  | ok
  | fail (error : String)
  | stale (error : String)
  deriving DecidableEq, Repr

/-- `verified.Error` -/
def VerificationResult.error : VerificationResult → String
  | .ok _ => ""
  | .fail error => error
  | .failExpired error => error

/-- A null or a text between quotes in a message. -/
def shown (text : Option String) : String := text.getD ""

/-- The text of a pinned key that is not there. -/
def pinMissing : String := "pin: no bootloader signing key pinned at pairing (re-pair once)"

/-- `Convert.FromHexString`, which takes no white space. -/
def convertFromHex (s : String) : Option Bytes := if (chars s).any isAsciiSpace then none else fromHex s

/-- The pinned key, or what is wrong with it. -/
def pinnedKey (expectedPubkeyHex : String) : Except String Bytes :=
  match convertFromHex expectedPubkeyHex with
  | none => .error "pin: pinned pubkey is not hex"
  | some key =>
      if key.length = 64 then .ok key
      else .error ("pin: pinned pubkey is " ++ toString key.length ++ " bytes, expected 64")

/-- `string.Equals(…, StringComparison.OrdinalIgnoreCase)` with a hexadecimal text. -/
def sameIgnoringCase (s : Option String) (expected : String) : Bool :=
  s.any fun s => (chars s).map Char.toLower = (chars expected).map Char.toLower

section
variable (P : Platform)

/-- The claims of a payload, when they can be read. -/
def claimsOf (token : Option String) : Option Claims :=
  (parseJws P token).toOption.bind fun parts => (payloadToClaims parts.payloadRoot).toOption

/-- `SignedClaims` -/
def signedClaims (token : Option String) : VerificationResult → Option Claims
  | .ok claims => some claims
  | .failExpired _ => claimsOf P token
  | .fail _ => none

/-- `cap.scope.payload_sha256` of the payload as it was signed. -/
def coveredSha (token : Option String) : Except Fault (Option String) := do
  let parts ← parseJws P token
  match ← tryGetProperty "cap" parts.payloadRoot with
  | none => return none
  | some cap =>
      match ← tryGetProperty "scope" cap with
      | none => return none
      | some scope => stringProperty "payload_sha256" scope

/-- `Passed` -/
def passed : VerificationResult → AttestationResult
  | .ok _ => .ok
  | verified => .stale ("stale: " ++ verified.error)

/-- What both checks do once the key is there: the verifier, and then the bindings. -/
def answer (key : Bytes) (token : Option String) (now : ℤ) (bindingError : Claims → Option String) :
    Except Fault AttestationResult := do
  let verified ← verifyJws P key token phoneAudience now
  match signedClaims P token verified with
  | none => return .fail ("signature: " ++ verified.error)
  | some claims =>
      match bindingError claims with
      | some error => return .fail error
      | none => return passed verified

/-- What an attest reply is refused for after its signature. -/
def attestBindingError (token : Option String) (expectedBootloaderId nonceB64u : String)
    (claims : Claims) : Option String :=
  let expectedIss := "bootloader:" ++ expectedBootloaderId
  if claims.iss ≠ some expectedIss then
    some ("claims: iss '" ++ shown claims.iss ++ "' != '" ++ expectedIss ++ "'")
  else if claims.cap.allowActions ≠ [attestAction] then
    some "claims: allow_actions is not exactly [bootloader:attest]"
  else
    match coveredSha P token with
    | .error fault => some ("shape: " ++ P.message fault)
    | .ok payloadSha =>
        match base64UrlDecode P (chars nonceB64u) with
        | .error _ => some "nonce: not base64url"
        | .ok nonceBytes =>
            if sameIgnoringCase payloadSha (hex (P.sha256 nonceBytes)) = true then none
            else some "nonce: signature does not cover this nonce"

/-- `BootloaderAttestation.Verify` -/
def verifyAttest (response : Option AttestResponse) (expectedPubkeyHex : Option String)
    (expectedBootloaderId nonceB64u : String) (now : ℤ) : Except Fault AttestationResult :=
  match response with
  | none => .ok (.fail "shape: no response")
  | some response =>
      if expectedPubkeyHex.getD "" = "" then .ok (.fail pinMissing)
      else if response.nonce ≠ some nonceB64u then
        .ok (.fail "nonce: response echoes a different nonce")
      else if response.bootloaderId ≠ some expectedBootloaderId then
        .ok (.fail ("identity: bootloader_id '" ++ shown response.bootloaderId ++ "' != pinned '" ++
          expectedBootloaderId ++ "'"))
      else
        match pinnedKey (expectedPubkeyHex.getD "") with
        | .error error => .ok (.fail error)
        | .ok key => answer P key response.attestJws now
            (attestBindingError P response.attestJws expectedBootloaderId nonceB64u)

/-- What an envelope is refused for after its signature. -/
def pendingBindingError (token : Option String) (expectedBootloaderId phoneId requests : String)
    (claims : Claims) : Option String :=
  let expectedIss := "bootloader:" ++ expectedBootloaderId
  let expectedSub := "phone:" ++ phoneId
  if claims.iss ≠ some expectedIss then
    some ("claims: iss '" ++ shown claims.iss ++ "' != '" ++ expectedIss ++ "'")
  else if claims.sub ≠ some expectedSub then
    some ("claims: sub '" ++ shown claims.sub ++ "' != '" ++ expectedSub ++ "' (another phone's envelope)")
  else if claims.cap.allowActions ≠ [pendingAction] then
    some "claims: allow_actions is not exactly [bootloader:pending]"
  else
    match coveredSha P token with
    | .error fault => some ("shape: " ++ P.message fault)
    | .ok payloadSha =>
        if sameIgnoringCase payloadSha (hex (P.sha256 (utf8 requests))) = true then none
        else some "envelope: the signature does not cover these cards"

/-- `BootloaderAttestation.VerifyPendingEnvelope` -/
def verifyPendingEnvelope (response : Option PendingRequestsResponse)
    (expectedPubkeyHex : Option String) (expectedBootloaderId phoneId : String) (now : ℤ) :
    Except Fault AttestationResult :=
  match response with
  | none => .ok (.fail "shape: no response")
  | some response =>
      if expectedPubkeyHex.getD "" = "" then .ok (.fail pinMissing)
      else if response.pendingJws.getD "" = "" then
        .ok (.fail "envelope: the bootloader sent unsigned cards (pending_jws missing)")
      else
        match response.requestsRawJson with
        | none => .ok (.fail "envelope: the raw requests text was not captured")
        | some requests =>
            match pinnedKey (expectedPubkeyHex.getD "") with
            | .error error => .ok (.fail error)
            | .ok key => answer P key response.pendingJws now
                (pendingBindingError P response.pendingJws expectedBootloaderId phoneId requests)

end

/-! ## The two checks as one -/

/-- A reply with what the phone expects of it. -/
inductive Reply where
  | attest (response : AttestResponse) (nonceB64u : String)
  | pending (response : PendingRequestsResponse) (phoneId : String)

def Reply.token : Reply → Option String
  | .attest response _ => response.attestJws
  | .pending response _ => response.pendingJws

/-- The check of a reply against the pinned key and id. -/
def Reply.check (P : Platform) (pin : Option String) (bootloaderId : String) (now : ℤ) :
    Reply → Except Fault AttestationResult
  | .attest response nonce => verifyAttest P (some response) pin bootloaderId nonce now
  | .pending response phoneId => verifyPendingEnvelope P (some response) pin bootloaderId phoneId now

/-- What stands between a reply and its verifier: the pinned key, and what the reply echoes. -/
def Reply.Prepared (pin : Option String) (bootloaderId : String) (key : Bytes) : Reply → Prop
  | .attest response nonce => pinnedKey (pin.getD "") = .ok key ∧ response.nonce = some nonce ∧
      response.bootloaderId = some bootloaderId
  | .pending response _ => pinnedKey (pin.getD "") = .ok key ∧ response.pendingJws.getD "" ≠ "" ∧
      response.requestsRawJson.isSome = true

/-- What the reply is refused for after its signature. -/
def Reply.bindingError (P : Platform) (bootloaderId : String) : Reply → Claims → Option String
  | .attest response nonce => attestBindingError P response.attestJws bootloaderId nonce
  | .pending response phoneId => pendingBindingError P response.pendingJws bootloaderId phoneId
      (response.requestsRawJson.getD "")

/-- `Verified` -/
def Reply.Verified (P : Platform) (pin : Option String) (bootloaderId : String) (reply : Reply)
    (now : ℤ) : Prop := reply.check P pin bootloaderId now = .ok .ok

/-- `Expired` -/
def Reply.Expired (P : Platform) (pin : Option String) (bootloaderId : String) (reply : Reply)
    (now : ℤ) : Prop := ∃ error, reply.check P pin bootloaderId now = .ok (.stale error)

/-- What a reply covers: the nonce the phone sent, or the phone and the text of the cards. -/
def Reply.Covers (P : Platform) (bootloaderId : String) (claims : Claims) : Reply → Prop
  | .attest response nonce => response.nonce = some nonce ∧ response.bootloaderId = some bootloaderId ∧
      claims.cap.allowActions = [attestAction] ∧ ∃ raw sha, base64UrlDecode P (chars nonce) = .ok raw ∧
        coveredSha P response.attestJws = .ok (some sha) ∧
        sameIgnoringCase (some sha) (hex (P.sha256 raw)) = true
  | .pending response phoneId => claims.sub = some ("phone:" ++ phoneId) ∧
      claims.cap.allowActions = [pendingAction] ∧ ∃ requests sha,
        response.requestsRawJson = some requests ∧ coveredSha P response.pendingJws = .ok (some sha) ∧
        sameIgnoringCase (some sha) (hex (P.sha256 (utf8 requests))) = true

/-- Signed by the pinned key for this bootloader, this request and this phone; whatever the time. -/
def Reply.Bound (P : Platform) (pin : Option String) (bootloaderId : String) (reply : Reply)
    (claims : Claims) : Prop :=
  ∃ key parts, pinnedKey (pin.getD "") = .ok key ∧ Genuine P key reply.token phoneAudience parts claims ∧
    claims.iss = some ("bootloader:" ++ bootloaderId) ∧ reply.Covers P bootloaderId claims

section
variable {P : Platform} {key : Bytes} {token pin : Option String} {bootloaderId nonce phoneId : String}
  {claims : Claims} {parts : JwsParts} {now : ℤ} {bindingError : Claims → Option String} {reply : Reply}

theorem claimsOf_genuine (h : Genuine P key token phoneAudience parts claims) :
    claimsOf P token = some claims := by
  rw [claimsOf, h.parse]
  show (payloadToClaims parts.payloadRoot).toOption = some claims
  rw [h.claims]
  rfl

/-- A genuine token is answered by its bindings and the time. -/
theorem answer_genuine (now : ℤ) (bindingError : Claims → Option String)
    (h : Genuine P key token phoneAudience parts claims) :
    ∃ early late, answer P key token now bindingError = .ok
      (if now < claims.nbf then .fail early
        else match bindingError claims with
          | some error => .fail error
          | none => if claims.exp ≤ now then .stale late else .ok) := by
  obtain ⟨early, late, hverify⟩ := verifyJws_eq now h
  rw [answer, hverify, ok_bind]
  by_cases hearly : now < claims.nbf
  · simp only [if_pos hearly]
    exact ⟨_, "", rfl⟩
  · simp only [if_neg hearly]
    by_cases hlate : claims.exp ≤ now
    · simp only [if_pos hlate, signedClaims, claimsOf_genuine h]
      refine ⟨"", "stale: " ++ late, ?_⟩
      cases bindingError claims <;> rfl
    · simp only [if_neg hlate, signedClaims]
      refine ⟨"", "", ?_⟩
      cases bindingError claims <;> rfl

/-- What is not refused is genuine, bound as it should be and not too early. -/
theorem genuine_of_answer {result : AttestationResult} (h : answer P key token now bindingError = .ok result)
    (hresult : ∀ error, result ≠ .fail error) :
    ∃ parts claims, Genuine P key token phoneAudience parts claims ∧ bindingError claims = none ∧
      claims.nbf ≤ now ∧ (result = .ok → now < claims.exp) ∧ (result ≠ .ok → claims.exp ≤ now) := by
  obtain ⟨verified, hverify, hrest⟩ := Except.bind_eq_ok.mp h
  obtain ⟨parts, claims, hgenuine⟩ :
      ∃ parts claims, Genuine P key token phoneAudience parts claims := by
    cases verified with
    | fail error => exact absurd (Except.pure_eq_ok.mp hrest).symm (hresult _)
    | ok claims => exact genuine_of_verifyJws hverify trivial
    | failExpired error => exact genuine_of_verifyJws hverify trivial
  obtain ⟨early, late, heq⟩ := answer_genuine now bindingError hgenuine
  rw [heq, Except.ok.injEq] at h
  refine ⟨parts, claims, hgenuine, ?_⟩
  by_cases hearly : now < claims.nbf
  · rw [if_pos hearly] at h
    exact absurd h.symm (hresult early)
  · rw [if_neg hearly] at h
    cases hbinding : bindingError claims with
    | some error =>
      rw [hbinding] at h
      exact absurd h.symm (hresult error)
    | none =>
      rw [hbinding] at h
      dsimp only at h
      by_cases hlate : claims.exp ≤ now
      · rw [if_pos hlate] at h
        exact ⟨rfl, not_lt.mp hearly, fun hok => absurd (h.trans hok) nofun, fun _ => hlate⟩
      · rw [if_neg hlate] at h
        exact ⟨rfl, not_lt.mp hearly, fun _ => not_le.mp hlate, fun hne => absurd h.symm hne⟩

theorem answer_eq_ok : answer P key token now bindingError = .ok .ok ↔
    ∃ parts claims, Genuine P key token phoneAudience parts claims ∧ bindingError claims = none ∧
      claims.nbf ≤ now ∧ now < claims.exp := by
  constructor
  · intro h
    obtain ⟨parts, claims, hgenuine, hbinding, hnbf, hexp, -⟩ := genuine_of_answer h nofun
    exact ⟨parts, claims, hgenuine, hbinding, hnbf, hexp rfl⟩
  · rintro ⟨parts, claims, hgenuine, hbinding, hnbf, hexp⟩
    obtain ⟨early, late, heq⟩ := answer_genuine now bindingError hgenuine
    rw [heq, if_neg (not_lt.mpr hnbf), hbinding]
    dsimp only
    rw [if_neg (not_le.mpr hexp)]

theorem answer_stale : (∃ error, answer P key token now bindingError = .ok (.stale error)) ↔
    ∃ parts claims, Genuine P key token phoneAudience parts claims ∧ bindingError claims = none ∧
      claims.nbf ≤ now ∧ claims.exp ≤ now := by
  constructor
  · rintro ⟨error, h⟩
    obtain ⟨parts, claims, hgenuine, hbinding, hnbf, -, hexp⟩ := genuine_of_answer h nofun
    exact ⟨parts, claims, hgenuine, hbinding, hnbf, hexp nofun⟩
  · rintro ⟨parts, claims, hgenuine, hbinding, hnbf, hexp⟩
    obtain ⟨early, late, heq⟩ := answer_genuine now bindingError hgenuine
    refine ⟨late, ?_⟩
    rw [heq, if_neg (not_lt.mpr hnbf), hbinding]
    dsimp only
    rw [if_pos hexp]

theorem attestBindingError_eq_none : attestBindingError P token bootloaderId nonce claims = none ↔
    claims.iss = some ("bootloader:" ++ bootloaderId) ∧ claims.cap.allowActions = [attestAction] ∧
      ∃ raw sha, base64UrlDecode P (chars nonce) = .ok raw ∧ coveredSha P token = .ok (some sha) ∧
        sameIgnoringCase (some sha) (hex (P.sha256 raw)) = true := by
  unfold attestBindingError
  dsimp only
  by_cases hiss : claims.iss = some ("bootloader:" ++ bootloaderId)
  · rw [if_neg (not_not.mpr hiss)]
    by_cases hallow : claims.cap.allowActions = [attestAction]
    · rw [if_neg (not_not.mpr hallow)]
      cases hsha : coveredSha P token with
      | error fault => simp
      | ok sha =>
        cases hraw : base64UrlDecode P (chars nonce) with
        | error message => simp
        | ok raw =>
          cases sha with
          | none => simp [sameIgnoringCase]
          | some sha => simp [hiss, hallow]
    · simp [hallow]
  · simp [hiss]

theorem pendingBindingError_eq_none {requests : String} :
    pendingBindingError P token bootloaderId phoneId requests claims = none ↔
      claims.iss = some ("bootloader:" ++ bootloaderId) ∧ claims.sub = some ("phone:" ++ phoneId) ∧
        claims.cap.allowActions = [pendingAction] ∧ ∃ sha, coveredSha P token = .ok (some sha) ∧
          sameIgnoringCase (some sha) (hex (P.sha256 (utf8 requests))) = true := by
  unfold pendingBindingError
  dsimp only
  by_cases hiss : claims.iss = some ("bootloader:" ++ bootloaderId)
  · rw [if_neg (not_not.mpr hiss)]
    by_cases hsub : claims.sub = some ("phone:" ++ phoneId)
    · rw [if_neg (not_not.mpr hsub)]
      by_cases hallow : claims.cap.allowActions = [pendingAction]
      · rw [if_neg (not_not.mpr hallow)]
        cases hsha : coveredSha P token with
        | error fault => simp
        | ok sha =>
          cases sha with
          | none => simp [sameIgnoringCase]
          | some sha => simp [hiss, hsub, hallow]
      · simp [hallow]
    · simp [hsub]
  · simp [hiss]

theorem pin_ne_empty (h : pinnedKey (pin.getD "") = .ok key) : pin.getD "" ≠ "" := by
  intro hempty
  have hnone : (pinnedKey "").toOption = none := by
    simp [pinnedKey, convertFromHex, fromHex, fromHexChars, Except.toOption]
  rw [← hempty, h] at hnone
  cases hnone

theorem check_of_prepared (h : reply.Prepared pin bootloaderId key) :
    reply.check P pin bootloaderId now =
      answer P key reply.token now (reply.bindingError P bootloaderId) := by
  cases reply with
  | attest response nonce =>
    obtain ⟨hkey, hnonce, hid⟩ := h
    rw [Reply.check, verifyAttest, if_neg (pin_ne_empty hkey), if_neg (not_not.mpr hnonce),
      if_neg (not_not.mpr hid), hkey]
    rfl
  | pending response phoneId =>
    obtain ⟨hkey, htoken, hraw⟩ := h
    obtain ⟨requests, hrequests⟩ := Option.isSome_iff_exists.mp hraw
    rw [Reply.check, verifyPendingEnvelope, if_neg (pin_ne_empty hkey), if_neg htoken, hrequests, hkey]
    simp only [Reply.bindingError, hrequests, Option.getD_some]
    rfl

theorem prepared_of_check {result : AttestationResult}
    (h : reply.check P pin bootloaderId now = .ok result) (hresult : ∀ error, result ≠ .fail error) :
    ∃ key, reply.Prepared pin bootloaderId key := by
  have hrefused : ∀ {error}, Except.ok (AttestationResult.fail error) = Except.ok (ε := Fault) result →
      False := fun heq => hresult _ (Except.ok.inj heq).symm
  cases reply with
  | attest response nonce =>
    rw [Reply.check, verifyAttest] at h
    by_cases hpin : pin.getD "" = ""
    · rw [if_pos hpin] at h
      exact (hrefused h).elim
    rw [if_neg hpin] at h
    by_cases hnonce : response.nonce ≠ some nonce
    · rw [if_pos hnonce] at h
      exact (hrefused h).elim
    rw [if_neg hnonce] at h
    by_cases hid : response.bootloaderId ≠ some bootloaderId
    · rw [if_pos hid] at h
      exact (hrefused h).elim
    rw [if_neg hid] at h
    cases hkey : pinnedKey (pin.getD "") with
    | error error =>
      rw [hkey] at h
      exact (hrefused h).elim
    | ok key => exact ⟨key, hkey, not_not.mp hnonce, not_not.mp hid⟩
  | pending response phoneId =>
    rw [Reply.check, verifyPendingEnvelope] at h
    by_cases hpin : pin.getD "" = ""
    · rw [if_pos hpin] at h
      exact (hrefused h).elim
    rw [if_neg hpin] at h
    by_cases htoken : response.pendingJws.getD "" = ""
    · rw [if_pos htoken] at h
      exact (hrefused h).elim
    rw [if_neg htoken] at h
    cases hraw : response.requestsRawJson with
    | none =>
      rw [hraw] at h
      exact (hrefused h).elim
    | some requests =>
      rw [hraw] at h
      cases hkey : pinnedKey (pin.getD "") with
      | error error =>
        rw [hkey] at h
        exact (hrefused h).elim
      | ok key => exact ⟨key, hkey, htoken, by rw [hraw]; rfl⟩

/-- An empty token is no token. -/
theorem token_ne_empty (h : parseJws P token = .ok parts) : token.getD "" ≠ "" := by
  intro hempty
  cases token with
  | none => cases h
  | some text =>
    obtain rfl : text = "" := hempty
    rw [parseJws, show (chars "").splitOn '.' = [[]] by simp] at h
    cases h

/-- The checks around the verifier, together. -/
theorem bound_iff : reply.Bound P pin bootloaderId claims ↔
    ∃ key parts, reply.Prepared pin bootloaderId key ∧
      Genuine P key reply.token phoneAudience parts claims ∧
      reply.bindingError P bootloaderId claims = none := by
  cases reply with
  | attest response nonce =>
    simp only [Reply.Bound, Reply.Prepared, Reply.bindingError, Reply.Covers,
      attestBindingError_eq_none]
    constructor
    · rintro ⟨key, parts, hkey, hgenuine, hiss, hnonce, hid, hallow, hsha⟩
      exact ⟨key, parts, ⟨hkey, hnonce, hid⟩, hgenuine, hiss, hallow, hsha⟩
    · rintro ⟨key, parts, ⟨hkey, hnonce, hid⟩, hgenuine, hiss, hallow, hsha⟩
      exact ⟨key, parts, hkey, hgenuine, hiss, hnonce, hid, hallow, hsha⟩
  | pending response phoneId =>
    simp only [Reply.Bound, Reply.Prepared, Reply.bindingError, Reply.Covers,
      pendingBindingError_eq_none]
    constructor
    · rintro ⟨key, parts, hkey, hgenuine, hiss, hsub, hallow, requests, sha, hraw, hsha⟩
      refine ⟨key, parts, ⟨hkey, token_ne_empty hgenuine.parse, by rw [hraw]; rfl⟩, hgenuine, hiss, hsub,
        hallow, sha, ?_⟩
      rw [hraw]
      exact hsha
    · rintro ⟨key, parts, ⟨hkey, -, hraw⟩, hgenuine, hiss, hsub, hallow, sha, hsha⟩
      obtain ⟨requests, hrequests⟩ := Option.isSome_iff_exists.mp hraw
      rw [hrequests] at hsha
      exact ⟨key, parts, hkey, hgenuine, hiss, hsub, hallow, requests, sha, hrequests, hsha⟩

/-- Verified: bound as it should be, and in its window. -/
theorem verified_iff : reply.Verified P pin bootloaderId now ↔
    ∃ claims, reply.Bound P pin bootloaderId claims ∧ claims.nbf ≤ now ∧ now < claims.exp := by
  simp only [bound_iff]
  constructor
  · intro h
    obtain ⟨key, hprepared⟩ := prepared_of_check h nofun
    rw [Reply.Verified, check_of_prepared hprepared] at h
    obtain ⟨parts, claims, hgenuine, hbinding, hwindow⟩ := answer_eq_ok.mp h
    exact ⟨claims, ⟨key, parts, hprepared, hgenuine, hbinding⟩, hwindow⟩
  · rintro ⟨claims, ⟨key, parts, hprepared, hgenuine, hbinding⟩, hwindow⟩
    rw [Reply.Verified, check_of_prepared hprepared]
    exact answer_eq_ok.mpr ⟨parts, claims, hgenuine, hbinding, hwindow⟩

/-- Expired: bound as it should be, not before its window, and at or past its end. -/
theorem expired_iff : reply.Expired P pin bootloaderId now ↔
    ∃ claims, reply.Bound P pin bootloaderId claims ∧ claims.nbf ≤ now ∧ claims.exp ≤ now := by
  simp only [bound_iff]
  constructor
  · rintro ⟨error, h⟩
    obtain ⟨key, hprepared⟩ := prepared_of_check h nofun
    rw [check_of_prepared hprepared] at h
    obtain ⟨parts, claims, hgenuine, hbinding, hwindow⟩ := answer_stale.mp ⟨error, h⟩
    exact ⟨claims, ⟨key, parts, hprepared, hgenuine, hbinding⟩, hwindow⟩
  · rintro ⟨claims, ⟨key, parts, hprepared, hgenuine, hbinding⟩, hwindow⟩
    rw [Reply.Expired, check_of_prepared hprepared]
    exact answer_stale.mpr ⟨parts, claims, hgenuine, hbinding, hwindow⟩

theorem bound_claims (h : reply.Bound P pin bootloaderId claims) :
    claimsOf P reply.token = some claims := by
  obtain ⟨key, parts, -, hgenuine, -⟩ := h
  exact claimsOf_genuine hgenuine

end

/-- A stale reply is told from a forged one. Where the window of the reply's claims is not empty, it
is expired exactly when it would have been verified earlier and is now at or past its expiry; with an
empty window it is never verified; and whatever is verified or expired is signed by the pinned key
and bound to the id, the action, and the nonce or the phone and the cards. -/
theorem stale_told_from_forged (P : Platform) (pin : Option String) (bootloaderId : String)
    (reply : Reply) (now : ℤ) :
    (∀ claims, claimsOf P reply.token = some claims → claims.nbf < claims.exp →
      (reply.Expired P pin bootloaderId now ↔
        claims.exp ≤ now ∧ ∃ earlier < now, reply.Verified P pin bootloaderId earlier)) ∧
    (∀ claims, claimsOf P reply.token = some claims → claims.exp ≤ claims.nbf →
      ¬reply.Verified P pin bootloaderId now) ∧
    (reply.Verified P pin bootloaderId now ∨ reply.Expired P pin bootloaderId now →
      ∃ claims, claimsOf P reply.token = some claims ∧ reply.Bound P pin bootloaderId claims) := by
  refine ⟨fun claims hclaims hwindow => ?_, fun claims hclaims hempty => ?_, ?_⟩
  · constructor
    · intro h
      obtain ⟨claims', hbound, hnbf, hexp⟩ := expired_iff.mp h
      obtain rfl := Option.some.inj ((bound_claims hbound).symm.trans hclaims)
      exact ⟨hexp, claims'.nbf, lt_of_lt_of_le hwindow hexp,
        verified_iff.mpr ⟨claims', hbound, le_rfl, hwindow⟩⟩
    · rintro ⟨hexp, earlier, hearlier, h⟩
      obtain ⟨claims', hbound, hnbf, -⟩ := verified_iff.mp h
      obtain rfl := Option.some.inj ((bound_claims hbound).symm.trans hclaims)
      exact expired_iff.mpr ⟨claims', hbound, hnbf.trans hearlier.le, hexp⟩
  · intro h
    obtain ⟨claims', hbound, hnbf, hexp⟩ := verified_iff.mp h
    obtain rfl := Option.some.inj ((bound_claims hbound).symm.trans hclaims)
    omega
  · rintro (h | h)
    · obtain ⟨claims, hbound, -⟩ := verified_iff.mp h
      exact ⟨claims, bound_claims hbound, hbound⟩
    · obtain ⟨claims, hbound, -⟩ := expired_iff.mp h
      exact ⟨claims, bound_claims hbound, hbound⟩

/-- A platform whose readers are those of the host, and whose key signs everything. -/
def samplePlatform : Platform where
  sha256 data := data
  fromBase64 cs := match unb64uChars ((cs.filter fun c => c ≠ '=').map fun c =>
      if c = '+' then '-' else if c = '/' then '_' else c) with
    | some raw => .ok raw
    | none => .error "not base64"
  parseJson raw := match Json.parse (decodeUtf8 raw) with
    | some x => .ok x
    | none => .error "not JSON"
  recoverPublicKey _ _ := some (List.replicate 64 7)
  longTryParse _ := none
  message _ := ""
  text _ := ""

/-- The payload of an attest token over the nonce `AQID`. -/
def samplePayload (nbf exp : String) : List Char :=
  chars "\x7b\"iss\":\"bootloader:b\",\"sub\":\"bootloader:b\",\"aud\":[\"recto-phone\"]," ++
    (chars "\"iat\":1,\"nbf\":" ++ (chars nbf ++ (chars ",\"exp\":" ++ (chars exp ++
      (chars ",\"jti\":\"j\",\"purpose\":\"p\",\"cap\":\x7b\"tier\":0,\"registry_version\":\"0\"," ++
        chars ("\"allow_actions\":[\"bootloader:attest\"]," ++
          "\"scope\":\x7b\"payload_sha256\":\"010203\"\x7d\x7d\x7d"))))))

def sampleSegments (nbf exp : String) : List (List Char) :=
  [b64uChars (utf8 "\x7b\"alg\":\"ES256K\",\"typ\":\"JWT\"\x7d"),
    b64uChars (encodeUtf8 (samplePayload nbf exp)), b64uChars (List.replicate 64 0)]

def sampleReply (nbf exp : String) : Reply :=
  .attest ⟨some "b", some "AQID",
    some (String.ofList (['.'].intercalate (sampleSegments nbf exp)))⟩ "AQID"

def samplePin : Option String := some (hex (List.replicate 64 7))

/-- What the reader makes of the payload. -/
def sampleClaims (nbf exp : ℤ) : Json :=
  .obj [("iss", .str "bootloader:b"), ("sub", .str "bootloader:b"), ("aud", .arr [.str phoneAudience]),
    ("iat", .int 1), ("nbf", .int nbf), ("exp", .int exp), ("jti", .str "j"), ("purpose", .str "p"),
    ("cap", .obj [("tier", .int 0), ("registry_version", .str "0"),
      ("allow_actions", .arr [.str attestAction]),
      ("scope", .obj [("payload_sha256", .str "010203")])])]

/-- The sample is bound, whatever its window. -/
theorem sample_bound {nbf exp : String} (low high : ℤ) {claims : Claims}
    (hdot : ∀ segment ∈ sampleSegments nbf exp, '.' ∉ segment)
    (hparse : (parseSegments samplePlatform (sampleSegments nbf exp)).toOption.map
      (fun parts => (parts.headerRoot, parts.payloadRoot, parts.signature)) =
        some (.obj [("alg", .str "ES256K"), ("typ", .str "JWT")], sampleClaims low high,
          List.replicate 64 0))
    (hclaims : payloadToClaims (sampleClaims low high) = .ok claims)
    (hiss : claims.iss = some "bootloader:b") (hallow : claims.cap.allowActions = [attestAction]) :
    (sampleReply nbf exp).Bound samplePlatform samplePin "b" claims := by
  have hsplit : parseJws samplePlatform (sampleReply nbf exp).token =
      parseSegments samplePlatform (sampleSegments nbf exp) := by
    simp only [sampleReply, Reply.token, parseJws, chars_ofList]
    rw [List.splitOn_intercalate '.' hdot nofun]
  cases hparts : parseSegments samplePlatform (sampleSegments nbf exp) with
  | error fault =>
    rw [hparts] at hparse
    cases hparse
  | ok parts =>
    rw [hparts] at hparse
    obtain ⟨hheader, hpayload, hsignature⟩ :
        parts.headerRoot = .obj [("alg", .str "ES256K"), ("typ", .str "JWT")] ∧
          parts.payloadRoot = sampleClaims low high ∧ parts.signature = List.replicate 64 0 := by
      obtain ⟨h₁, h₂⟩ := Prod.mk.inj (Option.some.inj hparse)
      exact ⟨h₁, Prod.mk.inj h₂⟩
    rw [hparts] at hsplit
    have hgenuine : Genuine samplePlatform (List.replicate 64 7) (sampleReply nbf exp).token
        phoneAudience parts claims :=
      { parse := hsplit
        header := by rw [hheader]; decide +kernel
        length := by rw [hsignature]; rfl
        master := by rw [hpayload]; rfl
        signed := by simp [recovers, samplePlatform]
        audience := by
          rw [hpayload]
          simp [audienceError, sampleClaims, tryGetProperty, ok_bind]
          rfl
        claims := by rw [hpayload]; exact hclaims }
    refine ⟨List.replicate 64 7, parts, by decide +kernel, hgenuine, hiss, rfl, rfl, hallow, [1, 2, 3],
      "010203", by decide +kernel, ?_, by decide +kernel⟩
    rw [coveredSha]
    show ((parseJws samplePlatform (sampleReply nbf exp).token).bind _) = _
    rw [hsplit]
    show (tryGetProperty "cap" parts.payloadRoot).bind _ = _
    rw [hpayload]
    rfl

/-- The claims of the sample. -/
def claimsOfSample (nbf exp : ℤ) : Claims :=
  ⟨some "bootloader:b", some "bootloader:b", [some phoneAudience], 1, nbf, exp, some "j",
    ⟨0, some "0", [], ⟨[], [], [], some "010203"⟩, [attestAction], [], {}⟩, some "p", none, none, none⟩

theorem sample_bound_window :
    (sampleReply "10" "20").Bound samplePlatform samplePin "b" (claimsOfSample 10 20) :=
  sample_bound 10 20 (by decide +kernel) (by decide +kernel) rfl rfl rfl

theorem sample_bound_empty :
    (sampleReply "10" "10").Bound samplePlatform samplePin "b" (claimsOfSample 10 10) :=
  sample_bound 10 10 (by decide +kernel) (by decide +kernel) rfl rfl rfl

theorem stale_told_from_forged_sample :
    (20 : ℤ) ≤ 30 ∧ ∃ earlier < (30 : ℤ),
      (sampleReply "10" "20").Verified samplePlatform samplePin "b" earlier :=
  ((stale_told_from_forged samplePlatform samplePin "b" (sampleReply "10" "20") 30).1
    (claimsOfSample 10 20) (bound_claims sample_bound_window) (by decide)).mp
      (expired_iff.mpr ⟨_, sample_bound_window, by decide, by decide⟩)

/-- A reply whose window is empty is expired, and was never verified. -/
theorem empty_window_is_stale :
    ¬∀ (P : Platform) (pin : Option String) (bootloaderId : String) (reply : Reply) (now : ℤ),
      reply.Expired P pin bootloaderId now →
        ∃ earlier < now, reply.Verified P pin bootloaderId earlier := by
  intro h
  have hstale : (sampleReply "10" "10").Expired samplePlatform samplePin "b" 30 :=
    expired_iff.mpr ⟨_, sample_bound_empty, by decide, by decide⟩
  obtain ⟨earlier, -, hverified⟩ := h _ _ _ _ _ hstale
  obtain ⟨claims, hbound, hlow, hhigh⟩ := verified_iff.mp hverified
  obtain rfl := Option.some.inj ((bound_claims hbound).symm.trans (bound_claims sample_bound_empty))
  exact absurd (hlow.trans_lt hhigh) (lt_irrefl (10 : ℤ))

end Phone
end Recto
