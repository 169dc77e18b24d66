import Recto.Json.Value
import Recto.Data.Checked

/-!
# Capability claims

The payload of a capability token as `recto.capability` holds it, the reader
that builds it from a dictionary and the dictionary that is signed. Until
`verify_jws` has checked their types the claims are whatever JSON stood at their
names, so the fields that are copied unread are JSON values here.
-/

namespace Recto
namespace Capability

structure CapabilityScope where
  env : List Json
  services : List Json
  repos : List Json
  createForOwner : Json
  chatRoomId : Json
  targetUserId : Json
  pairingCode : Json
  payloadSha256 : Json
  deriving DecidableEq, Repr

structure CapabilityLimits where
  perHour : List (String × Json)
  perDay : List (String × Json)
  perSession : List (String × Json)
  deriving DecidableEq, Repr

structure CapabilityClause where
  tier : Json
  registryVersion : Json
  groups : List Json
  scope : CapabilityScope
  allowActions : List Json
  denyActions : List Json
  limits : CapabilityLimits
  deriving DecidableEq, Repr

structure CapabilityClaims where
  iss : Json
  sub : Json
  aud : List Json
  iat : ℤ
  nbf : ℤ
  exp : ℤ
  jti : Json
  cap : CapabilityClause
  purpose : Json
  parentCap : Json
  maxUses : Json
  parentProfile : Json
  deriving DecidableEq, Repr

/-! ## Reading a dictionary -/

/-- `list(x)`: the elements of a list, the characters of a string, the keys of a dictionary. -/
def listOf : Json → Except PyError (List Json)
  | .arr xs => .ok xs
  | .str s => .ok ((chars s).map fun c => .str (String.singleton c))
  | .obj fields => .ok (fields.map fun f => .str f.1)
  | _ => .error .typeError

/-- The pair an element of `dict(pairs)` is, when its key is a string. -/
def pairOf : Json → Except PyError (String × Json)
  | .arr [.str k, v] => .ok (k, v)
  | .arr [_, _] => .error .typeError
  | .arr _ => .error .valueError
  | .str s =>
      match chars s with
      | [a, b] => .ok (String.singleton a, .str (String.singleton b))
      | _ => .error .valueError
  | .obj [f, g] => .ok (f.1, .str g.1)
  | .obj _ => .error .valueError
  | _ => .error .typeError

/-- `dict(x)`: a dictionary, or pairs whose last one of a key stands. -/
def dictOf : Json → Except PyError (List (String × Json))
  | .obj fields => .ok fields
  | .arr xs => do
      let pairs ← xs.mapM pairOf
      pure (pairs.foldl (fun d p => setItem p.1 p.2 d) [])
  | .str s => if s = "" then .ok [] else .error .valueError
  | _ => .error .typeError

/-- `{"iss", "sub", "aud", "iat", "nbf", "exp", "jti", "cap", "purpose"}` -/
def requiredClaims : List String :=
  ["iss", "sub", "aud", "iat", "nbf", "exp", "jti", "cap", "purpose"]

/-- `list(x.get(key, []))` -/
def listAt (x : Json) (key : String) : Except PyError (List Json) := do
  listOf (← x.getOr key (.arr []))

/-- `cap_raw.get(outer, {}).get(key)` -/
def innerGet (cap : Json) (outer key : String) : Except PyError Json := do
  (← cap.getOr outer (.obj [])).get key

/-- `list(cap_raw.get(outer, {}).get(key, []))` -/
def innerList (cap : Json) (outer key : String) : Except PyError (List Json) := do
  listAt (← cap.getOr outer (.obj [])) key

/-- `dict(cap_raw.get(outer, {}).get(key, {}))` -/
def innerDict (cap : Json) (outer key : String) : Except PyError (List (String × Json)) := do
  dictOf (← (← cap.getOr outer (.obj [])).getOr key (.obj []))

/-- The `CapabilityClause` part of `_dict_to_claims`. -/
def dictToClause (cap : Json) : Except PyError CapabilityClause := do
  let tier ← cap.getItem "tier"
  let registryVersion ← cap.getItem "registry_version"
  let groups ← listAt cap "groups"
  let env ← innerList cap "scope" "env"
  let services ← innerList cap "scope" "services"
  let repos ← innerList cap "scope" "repos"
  let createForOwner ← innerGet cap "scope" "create_for_owner"
  let chatRoomId ← innerGet cap "scope" "chat_room_id"
  let targetUserId ← innerGet cap "scope" "target_user_id"
  let pairingCode ← innerGet cap "scope" "pairing_code"
  let payloadSha256 ← innerGet cap "scope" "payload_sha256"
  let allowActions ← listAt cap "allow_actions"
  let denyActions ← listAt cap "deny_actions"
  let perHour ← innerDict cap "limits" "per_hour"
  let perDay ← innerDict cap "limits" "per_day"
  let perSession ← innerDict cap "limits" "per_session"
  pure
    { tier, registryVersion, groups, allowActions, denyActions
      scope := { env, services, repos, createForOwner, chatRoomId, targetUserId, pairingCode,
                 payloadSha256 }
      limits := { perHour, perDay, perSession } }

/-- `_dict_to_claims` -/
def dictToClaims (d : Json) : Except PyError CapabilityClaims := do
  match d with
  | .obj fields =>
      ensure (∀ name ∈ requiredClaims, name ∈ fields.map Prod.fst) PyError.valueError
      let cap ← dictToClause (← d.getItem "cap")
      let iss ← d.getItem "iss"
      let sub ← d.getItem "sub"
      let aud ← listOf (← d.getItem "aud")
      let iat ← (← d.getItem "iat").toInt
      let nbf ← (← d.getItem "nbf").toInt
      let exp ← (← d.getItem "exp").toInt
      let jti ← d.getItem "jti"
      let purpose ← d.getItem "purpose"
      let parentCap ← d.get "parent_cap"
      let maxUses ← d.get "max_uses"
      let parentProfile ← d.get "parent_profile"
      pure { iss, sub, aud, iat, nbf, exp, jti, cap, purpose, parentCap, maxUses, parentProfile }
  | _ => .error .attributeError

/-! ## The dictionary that is signed -/

mutual
/-- `_strip_none` -/
def stripNone : Json → Json
  | .obj fields => .obj (stripFields fields)
  | .arr xs => .arr (stripElements xs)
  | x => x
def stripElements : List Json → List Json
  | [] => []
  | x :: xs => stripNone x :: stripElements xs
def stripFields : List (String × Json) → List (String × Json)
  | [] => []
  | (k, x) :: fields =>
      if x = .null then stripFields fields else (k, stripNone x) :: stripFields fields
end

/-- `asdict(claims)`, in the order of the fields. -/
def CapabilityClaims.asdict (c : CapabilityClaims) : Json :=
  .obj
    [("iss", c.iss), ("sub", c.sub), ("aud", .arr c.aud), ("iat", .int c.iat), ("nbf", .int c.nbf),
      ("exp", .int c.exp), ("jti", c.jti),
      ("cap", .obj
        [("tier", c.cap.tier), ("registry_version", c.cap.registryVersion),
          ("groups", .arr c.cap.groups),
          ("scope", .obj
            [("env", .arr c.cap.scope.env), ("services", .arr c.cap.scope.services),
              ("repos", .arr c.cap.scope.repos), ("create_for_owner", c.cap.scope.createForOwner),
              ("chat_room_id", c.cap.scope.chatRoomId),
              ("target_user_id", c.cap.scope.targetUserId),
              ("pairing_code", c.cap.scope.pairingCode),
              ("payload_sha256", c.cap.scope.payloadSha256)]),
          ("allow_actions", .arr c.cap.allowActions), ("deny_actions", .arr c.cap.denyActions),
          ("limits", .obj
            [("per_hour", .obj c.cap.limits.perHour), ("per_day", .obj c.cap.limits.perDay),
              ("per_session", .obj c.cap.limits.perSession)])]),
      ("purpose", c.purpose), ("parent_cap", c.parentCap), ("max_uses", c.maxUses),
      ("parent_profile", c.parentProfile)]

/-- `_claims_to_dict` -/
def claimsToDict (claims : CapabilityClaims) : Json := stripNone claims.asdict

/-! ## The action manifest

`recto.capability.manifest`: what the groups and the actions of a clause permit. -/

/-- The declared actions, and the groups by name. -/
structure ActionManifest where
  version : String
  actions : List String
  groups : Dict String (List String)

/-- The actions of a group the manifest declares. -/
def ActionManifest.groupActions (m : ActionManifest) : Json → Option (List String)
  | .str name => m.groups.get? name
  | _ => none

/-- An action the manifest declares. -/
def ActionManifest.declared (m : ActionManifest) : Json → Option String
  | .str name => if name ∈ m.actions then some name else none
  | _ => none

/-- `resolve_actions`: the actions of the groups and those allowed, less those denied; `none` when
it raises. -/
def resolveActions (clause : CapabilityClause) (manifest : ActionManifest) :
    Option (List String) := do
  guard (clause.registryVersion = .str manifest.version)
  let ofGroups ← clause.groups.mapM manifest.groupActions
  let allowed ← clause.allowActions.mapM manifest.declared
  pure ((ofGroups.flatten ++ allowed).filter fun a => .str a ∉ clause.denyActions)

/-- `evaluate_scope`: what cannot be resolved permits nothing. -/
def evaluateScope (action : String) (clause : CapabilityClause) (manifest : ActionManifest) : Bool :=
  match resolveActions clause manifest with
  | some permitted => action ∈ permitted
  | none => false

end Capability
end Recto
