import Recto.Capability.Claims
import Recto.Json.Dumps
import Recto.Json.Loads
import Recto.Text.Encoding

/-!
# Capability tokens

`recto.capability.jwt`: the three parts of a token, the bytes that are signed,
and `verify_jws`. SHA-256 and the recovery of a secp256k1 key are parameters.
-/

namespace Recto
namespace Capability

/-- What the token code calls outside its own source. -/
structure TokenPrimitives where
  /-- `hashlib.sha256(raw).digest()` -/
  sha256 : Bytes → Bytes
  /-- `recover_public_key(digest, rsv)`; `none` when it raises. -/
  recoverPublicKey : Bytes → Bytes → Option Bytes

/-- A digest of 32 bytes for one message, and longer ones for the others. -/
theorem injective_of_digest {digest : Bytes} (hlength : digest.length = 32) (message : Bytes) :
    Function.Injective fun raw : Bytes =>
      if raw = message then digest else List.replicate 33 0 ++ raw := by
  have hother : ∀ raw : Bytes, digest ≠ List.replicate 33 0 ++ raw := by
    intro raw h
    have := congrArg List.length h
    simp only [hlength, List.length_append, List.length_replicate] at this
    omega
  intro a b h
  simp only at h
  split_ifs at h with ha hb hb
  · rw [ha, hb]
  · exact absurd h (hother b)
  · exact absurd h.symm (hother a)
  · exact List.append_cancel_left h

/-- `bytes.decode("utf-8")`: strict, so the characters encode to the bytes again. -/
def decodeStrict (raw : Bytes) : Option (List Char) :=
  if encodeUtf8 (decodeUtf8 raw) = raw then some (decodeUtf8 raw) else none

/-- `json.loads` of bytes: UTF-8, the byte order mark of it dropped. -/
def loadsBytes (raw : Bytes) : Except PyError Json :=
  let raw := if [0xEF, 0xBB, 0xBF] <+: raw then raw.drop 3 else raw
  match (decodeStrict raw).bind Json.parse with
  | some x => .ok x
  | none => .error .valueError

/-- `_canonical_json` -/
def canonicalJson (x : Json) : Bytes := encodeUtf8 (Json.dumps x)

/-- `{"alg": "ES256K", "typ": "JWT"}` -/
def jwsHeader : Json := .obj [("alg", .str "ES256K"), ("typ", .str "JWT")]

/-- `token.split(".")`, each part by its characters. -/
def segments (token : String) : List (List Char) := (chars token).splitOn '.'

/-- `f"{header_b64}.{payload_b64}".encode("ascii")` -/
def signingInput (headerB64 payloadB64 : List Char) : Bytes :=
  encodeUtf8 (headerB64 ++ '.' :: payloadB64)

/-- `build_signing_input`: the digest, the header and the payload. -/
def buildSigningInput (env : TokenPrimitives) (claims : CapabilityClaims) :
    Bytes × String × String :=
  let headerB64 := b64u (canonicalJson jwsHeader)
  let payloadB64 := b64u (canonicalJson (claimsToDict claims))
  (env.sha256 (signingInput (chars headerB64) (chars payloadB64)), headerB64, payloadB64)

/-- The JSON value of a base64 segment. -/
def segmentJson (segment : List Char) : Except PyError Json :=
  match unb64uChars segment with
  | some raw => loadsBytes raw
  | none => .error .valueError

structure ParsedJws where
  header : Json
  payload : Json
  signature : Bytes
  signingInput : Bytes

/-- `isinstance(x, dict)` -/
def isDict : Json → Bool
  | .obj _ => true
  | _ => false

/-- `parse_jws` -/
def parseJws (token : String) : Except PyError ParsedJws :=
  match segments token with
  | [headerB64, payloadB64, sigB64] => do
      let header ← segmentJson headerB64
      let payload ← segmentJson payloadB64
      match unb64uChars sigB64 with
      | none => .error .valueError
      | some signature =>
          ensure (isDict header ∧ isDict payload) .valueError
          pure { header, payload, signature, signingInput := signingInput headerB64 payloadB64 }
  | _ => .error .valueError

/-! ## The types of the claims -/

def isStr : Json → Bool
  | .str _ => true
  | _ => false

/-- `isinstance(x, int) and not isinstance(x, bool)` -/
def isInt : Json → Bool
  | .int _ => true
  | _ => false

/-- `isinstance(x, list) and all(isinstance(x, str) for x in value)` -/
def isStrList : Json → Bool
  | .arr xs => xs.all isStr
  | _ => false

/-- `d.get(name)` on what is known to be a dictionary. -/
def field (d : Json) (name : String) : Option Json :=
  match d with
  | .obj fields => fields.lookup name
  | _ => none

/-- A field that may be absent passes the check where it is there. -/
def absentOr (check : Json → Bool) (d : Json) (name : String) : Bool := (field d name).all check

/-- `_require_claim_types`: the types of the README's claim table. -/
def requireClaimTypes (payload : Json) : Except PyError Unit := do
  ensure (["iss", "sub", "jti", "purpose"].all fun name => (field payload name).any isStr) .valueError
  ensure ((field payload "aud").any isStrList) .valueError
  ensure (["iat", "nbf", "exp"].all fun name => (field payload name).any isInt) .valueError
  let cap := (field payload "cap").getD .null
  ensure (isDict cap) .valueError
  ensure ((field cap "tier").any isInt ∧ (field cap "registry_version").any isStr) .valueError
  ensure (["groups", "allow_actions", "deny_actions"].all fun name => absentOr isStrList cap name)
    .valueError
  let scope := (field cap "scope").getD (.obj [])
  ensure (isDict scope) .valueError
  ensure (["env", "services", "repos"].all fun name => absentOr isStrList scope name) .valueError
  let limits := (field cap "limits").getD (.obj [])
  ensure (isDict limits) .valueError
  ensure (["per_hour", "per_day", "per_session"].all fun name => absentOr isDict limits name)
    .valueError

/-! ## Verification -/

/-- The key a signature must recover to: the expected one, or that of the profile the payload
names, which needs the profiles of a state dir. -/
def targetKey (expectedKey : Bytes) (profiles : Option (String → Except PyError Bytes))
    (payload : Json) : Except PyError Bytes :=
  match (field payload "parent_profile").getD .null with
  | .null => .ok expectedKey
  | .str name =>
      match profiles with
      | some derivedKey => if name = "" then .error .valueError else derivedKey name
      | none => .error .valueError
  | _ => .error .valueError

/-- One of the two recovery ids gives the key. -/
def recoversTo (env : TokenPrimitives) (digest signature key : Bytes) : Prop :=
  ∃ v ∈ ([27, 28] : List UInt8), env.recoverPublicKey digest (signature ++ [v]) = some key

instance (env : TokenPrimitives) (digest signature key : Bytes) :
    Decidable (recoversTo env digest signature key) :=
  inferInstanceAs (Decidable (∃ v ∈ ([27, 28] : List UInt8), _))

/-- An integer claim whose type has been checked. -/
def intClaim (payload : Json) (name : String) : ℤ :=
  match field payload name with
  | some (.int n) => n
  | _ => 0

/-- `verify_jws`, at the time `now`. -/
def verifyJws (env : TokenPrimitives) (token : String) (expectedKey : Bytes)
    (expectedAud : Option String) (profiles : Option (String → Except PyError Bytes)) (now : ℤ) :
    Except PyError CapabilityClaims := do
  let jws ← parseJws token
  ensure (field jws.header "alg" = some (.str "ES256K")) .valueError
  ensure ((field jws.header "typ").getD .null = .str "JWT" ∨
    (field jws.header "typ").getD .null = .null) .valueError
  ensure (jws.signature.length = 64) .valueError
  let key ← targetKey expectedKey profiles jws.payload
  ensure (recoversTo env (env.sha256 jws.signingInput) jws.signature key) .valueError
  requireClaimTypes jws.payload
  ensure (intClaim jws.payload "nbf" ≤ now) .valueError
  ensure (now < intClaim jws.payload "exp") .valueError
  ensure (expectedAud.all fun aud => (field jws.payload "aud").any fun x =>
    match x with
    | .arr xs => .str aud ∈ xs
    | _ => false) .valueError
  dictToClaims jws.payload

/-- The claims the token carries, whoever signed it. -/
def tokenClaims (token : String) : Option CapabilityClaims :=
  match parseJws token with
  | .ok jws => (dictToClaims jws.payload).toOption
  | .error _ => none

variable {env : TokenPrimitives} {token : String} {key : Bytes} {aud : Option String}
  {profiles : Option (String → Except PyError Bytes)} {now : ℤ} {claims : CapabilityClaims}

/-- A verified token's claims are those it carries, signed by the target key. -/
theorem verifyJws_eq_ok (h : verifyJws env token key aud profiles now = .ok claims) :
    ∃ jws target, parseJws token = .ok jws ∧ targetKey key profiles jws.payload = .ok target ∧
      recoversTo env (env.sha256 jws.signingInput) jws.signature target ∧
      requireClaimTypes jws.payload = .ok () ∧ dictToClaims jws.payload = .ok claims := by
  unfold verifyJws at h
  simp only [Except.bind_eq_ok, ensure_eq_ok] at h
  obtain ⟨jws, hparse, -, -, -, -, -, -, target, htarget, -, hrecover, ⟨⟩, htypes, -, -, -, -, -, -,
    hclaims⟩ := h
  exact ⟨jws, target, hparse, htarget, hrecover, htypes, hclaims⟩

theorem tokenClaims_of_verifyJws (h : verifyJws env token key aud profiles now = .ok claims) :
    tokenClaims token = some claims := by
  obtain ⟨jws, target, hparse, -, -, -, hclaims⟩ := verifyJws_eq_ok h
  simp [tokenClaims, hparse, hclaims, Except.toOption]

end Capability
end Recto
