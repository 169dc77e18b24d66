import Recto.Data.Dict
import Recto.Data.Lockstep
import Recto.Json.Value
import Recto.Text.Encoding

/-!
# The verifier of the phone

`Es256kCapabilityVerifier.VerifyJws` reads a token, checks its signature and then
its times, its audience and its claims, in this order. A token that is only too
old is told apart from one that is wrong. The readers of the platform and the
recovery of a key are parameters.
-/

namespace Recto
namespace Phone

/-- What the readers of the platform throw. -/
inductive Fault where
  /-- `ArgumentNullException` -/
  | argumentNull
  /-- `InvalidOperationException`: an element of another kind. -/
  | invalidOperation
  /-- `KeyNotFoundException` -/
  | keyNotFound
  /-- `FormatException` -/
  | format (message : String)
  /-- `InvalidDataException` -/
  | invalidData (message : String)
  deriving DecidableEq, Repr

structure Platform where
  /-- `SHA256.HashData` -/
  sha256 : Bytes → Bytes
  /-- `Convert.FromBase64String`, with the message of its `FormatException`. -/
  fromBase64 : List Char → Except String Bytes
  /-- `JsonDocument.Parse`, with the message of its `JsonException`. Integers are numbers without
  fraction and exponent. -/
  parseJson : Bytes → Except String Json
  /-- `EthSigningOps.RecoverPublicKey`; `none` when it throws. -/
  recoverPublicKey : Bytes → Bytes → Option Bytes
  /-- `long.TryParse` -/
  longTryParse : String → Option ℤ
  /-- `ex.Message` -/
  message : Fault → String
  /-- `JsonElement.ToString()` -/
  text : Json → String

/-! ## JSON elements -/

/-- `TryGetProperty`: of several properties of a name, the last. -/
def tryGetProperty (name : String) : Json → Except Fault (Option Json)
  | .obj fields => .ok (fields.reverse.lookup name)
  | _ => .error .invalidOperation

/-- `GetProperty` -/
def getProperty (name : String) (x : Json) : Except Fault Json := do
  match ← tryGetProperty name x with
  | some v => return v
  | none => throw .keyNotFound

/-- `GetString`, which reads null as null. -/
def getString : Json → Except Fault (Option String)
  | .str s => .ok (some s)
  | .null => .ok none
  | _ => .error .invalidOperation

/-- `TryGetInt64` of a number -/
def int64? : Json → Option ℤ
  | .int n => if -2 ^ 63 ≤ n ∧ n < 2 ^ 63 then some n else none
  | _ => none

/-- `GetInt64`, and `GetInt32` with fewer bits. -/
def getInt (bits : ℕ) : Json → Except Fault ℤ
  | .int n => if -2 ^ (bits - 1) ≤ n ∧ n < 2 ^ (bits - 1) then .ok n else .error (.format "")
  | .float _ => .error (.format "")
  | _ => .error .invalidOperation

/-- `EnumerateArray` -/
def enumerateArray : Json → Except Fault (List Json)
  | .arr xs => .ok xs
  | _ => .error .invalidOperation

/-- A string property, and nothing when it is absent or of another kind. -/
def stringProperty (name : String) (x : Json) : Except Fault (Option String) := do
  match ← tryGetProperty name x with
  | some (.str s) => return some s
  | _ => return none

/-- `ReadStringList`: the strings of an array, and nothing else of it. -/
def readStringList (name : String) (x : Json) : Except Fault (List String) := do
  match ← tryGetProperty name x with
  | some (.arr xs) => return xs.filterMap fun v =>
      match v with
      | .str s => some s
      | _ => none
  | _ => return []

/-- The numbers of an object, the last of a name. -/
def longEntries (fields : List (String × Json)) : Dict String ℤ :=
  fields.foldl (fun dict f => (int64? f.2).elim dict fun n => dict.set f.1 n) Dict.empty

/-- `ReadStringLongDict` -/
def readStringLongDict (name : String) (x : Json) : Except Fault (Dict String ℤ) := do
  match ← tryGetProperty name x with
  | some (.obj fields) => return longEntries fields
  | _ => return Dict.empty

/-! ## Claims -/

/-- `CapabilityScope` -/
structure ScopeClause where
  env : List String := []
  services : List String := []
  repos : List String := []
  payloadSha256 : Option String := none

/-- `CapabilityLimits` -/
structure LimitsClause where
  perHour : Dict String ℤ := Dict.empty
  perDay : Dict String ℤ := Dict.empty
  perSession : Dict String ℤ := Dict.empty

/-- `CapabilityClause` -/
structure Clause where
  tier : ℤ
  registryVersion : Option String
  groups : List String
  scope : ScopeClause
  allowActions : List String
  denyActions : List String
  limits : LimitsClause

/-- `CapabilityClaims` -/
structure Claims where
  iss : Option String
  sub : Option String
  aud : List (Option String)
  iat : ℤ
  nbf : ℤ
  exp : ℤ
  jti : Option String
  cap : Clause
  purpose : Option String
  parentCap : Option String
  maxUses : Option ℤ
  parentProfile : Option String

/-- `ParseClause` -/
def parseClause (cap : Json) : Except Fault Clause := do
  let tier ← getInt 32 (← getProperty "tier" cap)
  let registryVersion ← getString (← getProperty "registry_version" cap)
  let groups ← readStringList "groups" cap
  let allow ← readStringList "allow_actions" cap
  let deny ← readStringList "deny_actions" cap
  let scope : ScopeClause ← match ← tryGetProperty "scope" cap with
    | some (.obj fields) => do
        let payloadSha256 ← stringProperty "payload_sha256" (.obj fields)
        let env ← readStringList "env" (.obj fields)
        let services ← readStringList "services" (.obj fields)
        let repos ← readStringList "repos" (.obj fields)
        pure ⟨env, services, repos, payloadSha256⟩
    | _ => pure {}
  let limits : LimitsClause ← match ← tryGetProperty "limits" cap with
    | some (.obj fields) => do
        let perHour ← readStringLongDict "per_hour" (.obj fields)
        let perDay ← readStringLongDict "per_day" (.obj fields)
        let perSession ← readStringLongDict "per_session" (.obj fields)
        pure ⟨perHour, perDay, perSession⟩
    | _ => pure {}
  return ⟨tier, registryVersion, groups, scope, allow, deny, limits⟩

/-- The claims every token has. -/
def requiredClaims : List String := ["iss", "sub", "aud", "iat", "nbf", "exp", "jti", "cap", "purpose"]

/-- `PayloadToClaims` -/
def payloadToClaims (payload : Json) : Except Fault Claims := do
  let missing ← requiredClaims.filterM fun name => do
    return (← tryGetProperty name payload).isNone
  if missing ≠ [] then
    throw (.invalidData ("Capability JWT missing required claims: [" ++
      ", ".intercalate (missing.insertionSort (· ≤ ·)) ++ "]"))
  let iss ← getString (← getProperty "iss" payload)
  let sub ← getString (← getProperty "sub" payload)
  let aud ← (← enumerateArray (← getProperty "aud" payload)).mapM getString
  let iat ← getInt 64 (← getProperty "iat" payload)
  let nbf ← getInt 64 (← getProperty "nbf" payload)
  let exp ← getInt 64 (← getProperty "exp" payload)
  let jti ← getString (← getProperty "jti" payload)
  let purpose ← getString (← getProperty "purpose" payload)
  let cap ← parseClause (← getProperty "cap" payload)
  let parentCap ← stringProperty "parent_cap" payload
  let maxUses := (← tryGetProperty "max_uses" payload).bind int64?
  let parentProfile ← stringProperty "parent_profile" payload
  return ⟨iss, sub, aud, iat, nbf, exp, jti, cap, purpose, parentCap, maxUses, parentProfile⟩

/-! ## Tokens -/

/-- `JwsParts` -/
structure JwsParts where
  headerRoot : Json
  payloadRoot : Json
  signature : Bytes
  signingInput : Bytes

section
variable (P : Platform)

/-- `Base64UrlDecode` -/
def base64UrlDecode (cs : List Char) : Except String Bytes :=
  P.fromBase64 ((cs.map fun c => if c = '-' then '+' else if c = '_' then '/' else c) ++
    List.replicate ((4 - cs.length % 4) % 4) '=')

/-- `Encoding.ASCII.GetBytes` -/
def asciiBytes (cs : List Char) : Bytes :=
  cs.map fun c => if c.toNat < 128 then UInt8.ofNat c.toNat else 63

/-- A failure as a `FormatException` with its message behind a text. -/
def malformed {α : Type} (text : String) : Except String α → Except Fault α
  | .ok a => .ok a
  | .error message => .error (.format (text ++ message))

/-- The three segments of a token, decoded. -/
def parseSegments (segments : List (List Char)) : Except Fault JwsParts :=
  match segments with
  | [header, payload, signature] => do
      let headerBytes ← malformed "Malformed JWS: " (base64UrlDecode P header)
      let payloadBytes ← malformed "Malformed JWS: " (base64UrlDecode P payload)
      let signatureBytes ← malformed "Malformed JWS: " (base64UrlDecode P signature)
      let headerRoot ← malformed "Malformed JWS: JSON parse failed: " (P.parseJson headerBytes)
      let payloadRoot ← malformed "Malformed JWS: JSON parse failed: " (P.parseJson payloadBytes)
      return ⟨headerRoot, payloadRoot, signatureBytes, asciiBytes (header ++ '.' :: payload)⟩
  | parts => .error (.format ("Malformed JWS: expected 3 dot-separated parts, got " ++
      toString parts.length))

/-- `ParseJws` -/
def parseJws : Option String → Except Fault JwsParts
  | none => .error .argumentNull
  | some token => parseSegments P ((chars token).splitOn '.')

/-! ## `VerifyJws` -/

/-- `CapabilityVerificationResult` -/
inductive VerificationResult where
  | ok (claims : Claims)
  | fail (error : String)
  /-- Refused for a past `exp` only. -/
  | failExpired (error : String)

/-- What the header is refused for. -/
def headerError (header : Json) : Except Fault (Option String) := do
  match ← tryGetProperty "alg" header with
  | some (.str "ES256K") =>
      match ← tryGetProperty "typ" header with
      | none | some (.str "JWT") => return none
      | some typ => return some ("shape: unsupported typ '" ++ P.text typ ++ "'")
  | some alg => return some ("shape: unsupported alg '" ++ P.text alg ++ "' (expected ES256K)")
  | none => return some "shape: unsupported alg '<missing>' (expected ES256K)"

/-- The claim that names another key, when it is not empty. -/
def parentProfileClaim (payload : Json) : Except Fault (Option String) := do
  return (← stringProperty "parent_profile" payload).filter fun s => s ≠ ""

/-- Does the signature recover to the key, under one of the two recovery ids? -/
def recovers (key : Bytes) (parts : JwsParts) : Bool :=
  [27, 28].any fun v =>
    P.recoverPublicKey (P.sha256 parts.signingInput) (parts.signature.take 64 ++ [v]) = some key

/-- `ReadLongClaim`, with the default zero. -/
def readLongClaim (name : String) (payload : Json) : Except Fault ℤ := do
  match ← tryGetProperty name payload with
  | some (.str s) => return (P.longTryParse s).getD 0
  | some v => return (int64? v).getD 0
  | none => return 0

/-- `AudienceError` -/
def audienceError (expectedAud : String) (payload : Json) : Except Fault (Option String) := do
  match ← tryGetProperty "aud" payload with
  | some (.arr items) =>
      if items.any fun item => item = .str expectedAud then return none
      else return some ("claims: expected_aud '" ++ expectedAud ++ "' not in token aud")
  | _ => return some ("claims: expected_aud '" ++ expectedAud ++ "' check failed; " ++
      "aud is missing or not an array")

/-- The times, the audience and the claims of a signed payload. -/
def judge (expectedAud : String) (now : ℤ) (payload : Json) : Except Fault VerificationResult := do
  let nbf ← readLongClaim P "nbf" payload
  let exp ← readLongClaim P "exp" payload
  if now < nbf then
    return .fail ("claims: token nbf=" ++ toString nbf ++ " is in the future (now=" ++ toString now ++ ")")
  else
    let audience ← audienceError expectedAud payload
    let claims := payloadToClaims payload
    if exp ≤ now then
      let expired := "claims: token exp=" ++ toString exp ++ " has passed (now=" ++ toString now ++ ")"
      match audience, claims with
      | none, .ok _ => return .failExpired expired
      | _, _ => return .fail expired
    else
      match audience, claims with
      | some error, _ => return .fail error
      | none, .error fault => return .fail ("claims: " ++ P.message fault)
      | none, .ok claims => return .ok claims

/-- `Es256kCapabilityVerifier.VerifyJws`, without a profile lookup. -/
def verifyJws (key : Bytes) (token : Option String) (expectedAud : String) (now : ℤ) :
    Except Fault VerificationResult :=
  match parseJws P token with
  | .error fault => .ok (.fail ("shape: " ++ P.message fault))
  | .ok parts => do
      match ← headerError P parts.headerRoot with
      | some error => return .fail error
      | none =>
          if parts.signature.length ≠ 64 then
            return .fail ("signature: expected 64-byte raw r||s, got " ++
              toString parts.signature.length ++ " bytes")
          else
            match ← parentProfileClaim parts.payloadRoot with
            | some profile => return .fail ("claims: JWS has parent_profile claim '" ++ profile ++
                "' but no IProfileLookup was supplied to the verifier at construction; verifier " ++
                "cannot resolve profile derived_pubkey_hex. Pass an IProfileLookup to " ++
                "Es256kCapabilityVerifier's constructor to enable parent_profile dispatch.")
            | none =>
                if recovers P key parts = true then judge P expectedAud now parts.payloadRoot
                else return .fail "signature: did not recover to expected operator public key"

end

/-! ## What passes -/

/-- A token signed by the key, for the audience, with these claims; its times are left out. -/
structure Genuine (P : Platform) (key : Bytes) (token : Option String) (expectedAud : String)
    (parts : JwsParts) (claims : Claims) : Prop where
  parse : parseJws P token = .ok parts
  header : headerError P parts.headerRoot = .ok none
  length : parts.signature.length = 64
  master : parentProfileClaim parts.payloadRoot = .ok none
  signed : recovers P key parts = true
  audience : audienceError expectedAud parts.payloadRoot = .ok none
  claims : payloadToClaims parts.payloadRoot = .ok claims

/-- Not refused, or for a past `exp` only. -/
def VerificationResult.Passes : VerificationResult → Prop
  | .fail _ => False
  | _ => True

section
variable {P : Platform} {key : Bytes} {token : Option String} {expectedAud name : String}
  {payload v : Json} {parts : JwsParts} {claims : Claims} {now n : ℤ} {r : VerificationResult}

theorem getProperty_eq_ok (h : getProperty name payload = .ok v) :
    tryGetProperty name payload = .ok (some v) := by
  obtain ⟨found, hfound, h⟩ := Except.bind_eq_ok.mp h
  cases found with
  | none => cases h
  | some w => rw [hfound, Except.pure_eq_ok.mp h]

theorem getInt_eq_ok (h : getInt 64 v = .ok n) : v = .int n ∧ int64? v = some n := by
  unfold getInt at h
  split at h
  · rename_i m
    split_ifs at h with hm
    obtain rfl := Except.ok.inj h
    exact ⟨rfl, if_pos hm⟩
  · cases h
  · cases h

/-- A claim that is read as an integer is what the reader of the times reads. -/
theorem readLongClaim_of_getInt (hget : getProperty name payload = .ok v) (hint : getInt 64 v = .ok n) :
    readLongClaim P name payload = .ok n := by
  obtain ⟨rfl, hn⟩ := getInt_eq_ok hint
  rw [readLongClaim, getProperty_eq_ok hget, ok_bind]
  exact congrArg (fun o => Except.ok (Option.getD o 0)) hn

theorem readLongClaim_of_claims (h : payloadToClaims payload = .ok claims) :
    readLongClaim P "nbf" payload = .ok claims.nbf ∧ readLongClaim P "exp" payload = .ok claims.exp := by
  unfold payloadToClaims at h
  obtain ⟨missing, -, h⟩ := Except.bind_eq_ok.mp h
  split_ifs at h
  · obtain ⟨_, hthrow, -⟩ := Except.bind_eq_ok.mp h
    cases hthrow
  · simp only [Except.bind_eq_ok, Except.pure_eq_ok] at h
    obtain ⟨_, _, iss, hiss, _, hgetSub, sub, hsub, _, hgetAud, _, haud, aud, hmap, _, hgetIat, iat, hiat, nbfJson,
      hgetNbf, nbf, hnbf, expJson, hgetExp, exp, hexp, _, hgetJti, jti, hjti, _, hgetPurpose, purpose,
      hpurpose, _, hgetCap, cap, hcap, parentCap, hparentCap, _, hmaxUses, parentProfile,
      hparentProfile, rfl⟩ := h
    exact ⟨readLongClaim_of_getInt hgetNbf hnbf, readLongClaim_of_getInt hgetExp hexp⟩

/-- What the verifier answers for a genuine token depends on the time alone. -/
theorem judge_eq (P : Platform) (now : ℤ) (haudience : audienceError expectedAud payload = .ok none)
    (hclaims : payloadToClaims payload = .ok claims) :
    ∃ early late, judge P expectedAud now payload =
      .ok (if now < claims.nbf then .fail early
        else if claims.exp ≤ now then .failExpired late else .ok claims) := by
  obtain ⟨hnbf, hexp⟩ := readLongClaim_of_claims (P := P) hclaims
  rw [judge, hnbf, ok_bind, hexp, ok_bind]
  by_cases hearly : now < claims.nbf
  · simp only [if_pos hearly]
    exact ⟨_, "", rfl⟩
  · simp only [if_neg hearly]
    rw [haudience, ok_bind, hclaims]
    by_cases hlate : claims.exp ≤ now
    · simp only [if_pos hlate]
      exact ⟨"", _, rfl⟩
    · simp only [if_neg hlate]
      exact ⟨"", "", rfl⟩

theorem claims_of_judge (h : judge P expectedAud now payload = .ok r) (hr : r.Passes) :
    audienceError expectedAud payload = .ok none ∧ ∃ claims, payloadToClaims payload = .ok claims := by
  unfold judge at h
  obtain ⟨nbf, -, h⟩ := Except.bind_eq_ok.mp h
  obtain ⟨exp, -, h⟩ := Except.bind_eq_ok.mp h
  by_cases hearly : now < nbf
  · rw [if_pos hearly] at h
    obtain rfl := Except.pure_eq_ok.mp h
    exact hr.elim
  · rw [if_neg hearly] at h
    obtain ⟨audience, haudience, h⟩ := Except.bind_eq_ok.mp h
    dsimp only at h
    cases hclaims : payloadToClaims payload with
    | error fault =>
      rw [hclaims] at h
      cases audience <;> split_ifs at h <;> obtain rfl := Except.pure_eq_ok.mp h <;> exact hr.elim
    | ok claims =>
      cases audience with
      | none => exact ⟨haudience, claims, rfl⟩
      | some error =>
        rw [hclaims] at h
        split_ifs at h <;> obtain rfl := Except.pure_eq_ok.mp h <;> exact hr.elim

theorem genuine_of_verifyJws (h : verifyJws P key token expectedAud now = .ok r) (hr : r.Passes) :
    ∃ parts claims, Genuine P key token expectedAud parts claims := by
  unfold verifyJws at h
  cases hparse : parseJws P token with
  | error fault =>
    rw [hparse] at h
    obtain rfl := Except.ok.inj h
    exact hr.elim
  | ok parts =>
    rw [hparse] at h
    obtain ⟨header, hheader, h⟩ := Except.bind_eq_ok.mp h
    cases header with
    | some error =>
      obtain rfl := Except.pure_eq_ok.mp h
      exact hr.elim
    | none =>
      dsimp only at h
      by_cases hlength : parts.signature.length ≠ 64
      · rw [if_pos hlength] at h
        obtain rfl := Except.pure_eq_ok.mp h
        exact hr.elim
      rw [if_neg hlength] at h
      obtain ⟨profile, hprofile, h⟩ := Except.bind_eq_ok.mp h
      cases profile with
      | some profile =>
        obtain rfl := Except.pure_eq_ok.mp h
        exact hr.elim
      | none =>
        dsimp only at h
        by_cases hsigned : recovers P key parts = true
        · rw [if_pos hsigned] at h
          obtain ⟨haudience, claims, hclaims⟩ := claims_of_judge h hr
          exact ⟨parts, claims, hparse, hheader, not_not.mp hlength, hprofile, hsigned, haudience,
            hclaims⟩
        · rw [if_neg hsigned] at h
          obtain rfl := Except.pure_eq_ok.mp h
          exact hr.elim

theorem verifyJws_eq (now : ℤ) (h : Genuine P key token expectedAud parts claims) :
    ∃ early late, verifyJws P key token expectedAud now =
      .ok (if now < claims.nbf then .fail early
        else if claims.exp ≤ now then .failExpired late else .ok claims) := by
  obtain ⟨early, late, hjudge⟩ := judge_eq P now h.audience h.claims
  refine ⟨early, late, ?_⟩
  rw [verifyJws, h.parse]
  dsimp only
  rw [h.header, ok_bind]
  dsimp only
  rw [if_neg (not_not.mpr h.length), h.master, ok_bind]
  dsimp only
  rw [if_pos h.signed, hjudge]

end

end Phone
end Recto
