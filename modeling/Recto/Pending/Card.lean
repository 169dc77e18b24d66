import Recto.Capability.Jwt

/-!
# Capability cards

A queued request, the claims a capability card carries for the phone to sign, and
the window that is stamped on them when the card is opened.
-/

namespace Recto
namespace Pending

open Capability

/-- `PendingRequest`, as far as the queue's handlers read it; `rest` is what only the wire form
carries. -/
structure PendingRequest where
  requestId : String
  kind : String
  secret : String
  phoneId : String
  payloadHashB64u : String
  requestedAtUnix : ℤ
  expiresAtUnix : ℤ
  capHeaderB64 : Option String
  capPayloadB64 : Option String
  capGrantTtlSeconds : Option ℤ
  capWindowStampedAtUnix : Option ℤ
  rest : List (String × Json)
  deriving DecidableEq, Repr

namespace PendingRequest

/-- A capability card that carries claims. -/
def isCapability (req : PendingRequest) : Bool :=
  req.kind = "capability_request" && req.capPayloadB64.any (· ≠ "")

/-- The claims of the card as `json.loads` gives them. -/
def payload? (req : PendingRequest) : Except PyError Json :=
  segmentJson (chars (req.capPayloadB64.getD ""))

/-- The claims of the card, read back. -/
def claims? (req : PendingRequest) : Option CapabilityClaims :=
  (req.payload? >>= dictToClaims).toOption

/-- The bytes the phone signs: the header and the payload, and their digest. -/
def signingBytes (req : PendingRequest) : Option String × Option String × String :=
  (req.capHeaderB64, req.capPayloadB64, req.payloadHashB64u)

/-- The card declares a grant window and none is stamped on it yet. -/
def needsStamp (req : PendingRequest) : Bool :=
  req.isCapability && req.capGrantTtlSeconds.isSome && req.capWindowStampedAtUnix.isNone

/-- `exp` of the claims; `none` where they cannot be read. -/
def authorityExp (req : PendingRequest) : Option ℤ :=
  (do (← (← req.payload?).getItem "exp").toInt : Except PyError ℤ).toOption

/-- The card over new claims. -/
def withClaims (env : TokenPrimitives) (claims : CapabilityClaims) (req : PendingRequest) :
    PendingRequest :=
  let input := buildSigningInput env claims
  { req with
    capHeaderB64 := some input.2.1
    capPayloadB64 := some input.2.2
    payloadHashB64u := b64u input.1 }

end PendingRequest

/-- The claims with their window set from the clock. -/
def windowFrom (now ttl : ℤ) (claims : CapabilityClaims) : CapabilityClaims :=
  { claims with iat := now, nbf := now, exp := now + ttl }

/-- `payload["iat"] = payload["nbf"] = now; payload["exp"] = now + ttl` -/
def setWindow (now ttl : ℤ) : Json → Except PyError Json
  | .obj fields => .ok (.obj
      (setItem "exp" (.int (now + ttl)) (setItem "nbf" (.int now) (setItem "iat" (.int now) fields))))
  | _ => .error .typeError

/-- The card that `_restamp_grant_window` puts in the place of one that needs a stamp. -/
def stamp (env : TokenPrimitives) (now : ℤ) (req : PendingRequest) : Except PyError PendingRequest :=
  do
    let payload ← setWindow now (req.capGrantTtlSeconds.getD 0) (← req.payload?)
    let claims ← dictToClaims payload
    pure { req.withClaims env claims with capWindowStampedAtUnix := some now }

/-- A capability card as `_handle_capability_request` queues it. -/
def newCapabilityCard (env : TokenPrimitives) (claims : CapabilityClaims) (req : PendingRequest) :
    PendingRequest :=
  { req.withClaims env claims with kind := "capability_request", capWindowStampedAtUnix := none }

end Pending
end Recto
