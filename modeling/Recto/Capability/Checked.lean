import Recto.Capability.Jwt
import Recto.Data.Lockstep
import Recto.Data.Checked

/-!
# What the checks of a payload establish

Past `_require_claim_types` every claim has the type of the claim table, so
`_dict_to_claims` reads each of them as it stands in the payload and raises
nothing.
-/

namespace Recto
namespace Capability

/-- The claims are those of the payload, field by field; what is absent reads as its default. -/
structure ClaimsOf (payload : Json) (c : CapabilityClaims) : Prop where
  iss : field payload "iss" = some c.iss
  sub : field payload "sub" = some c.sub
  aud : field payload "aud" = some (.arr c.aud)
  iat : field payload "iat" = some (.int c.iat)
  nbf : field payload "nbf" = some (.int c.nbf)
  exp : field payload "exp" = some (.int c.exp)
  jti : field payload "jti" = some c.jti
  purpose : field payload "purpose" = some c.purpose
  parentCap : (field payload "parent_cap").getD .null = c.parentCap
  maxUses : (field payload "max_uses").getD .null = c.maxUses
  parentProfile : (field payload "parent_profile").getD .null = c.parentProfile
  cap : ∃ cap, field payload "cap" = some cap ∧
    field cap "tier" = some c.cap.tier ∧
    field cap "registry_version" = some c.cap.registryVersion ∧
    (field cap "groups").getD (.arr []) = .arr c.cap.groups ∧
    (field cap "allow_actions").getD (.arr []) = .arr c.cap.allowActions ∧
    (field cap "deny_actions").getD (.arr []) = .arr c.cap.denyActions ∧
    (∃ scope, (field cap "scope").getD (.obj []) = scope ∧
      (field scope "env").getD (.arr []) = .arr c.cap.scope.env ∧
      (field scope "services").getD (.arr []) = .arr c.cap.scope.services ∧
      (field scope "repos").getD (.arr []) = .arr c.cap.scope.repos ∧
      (field scope "create_for_owner").getD .null = c.cap.scope.createForOwner ∧
      (field scope "chat_room_id").getD .null = c.cap.scope.chatRoomId ∧
      (field scope "target_user_id").getD .null = c.cap.scope.targetUserId ∧
      (field scope "pairing_code").getD .null = c.cap.scope.pairingCode ∧
      (field scope "payload_sha256").getD .null = c.cap.scope.payloadSha256) ∧
    ∃ limits, (field cap "limits").getD (.obj []) = limits ∧
      (field limits "per_hour").getD (.obj []) = .obj c.cap.limits.perHour ∧
      (field limits "per_day").getD (.obj []) = .obj c.cap.limits.perDay ∧
      (field limits "per_session").getD (.obj []) = .obj c.cap.limits.perSession

section
variable {x : Json} {fields : List (String × Json)} {name : String}

theorem isStr_iff : isStr x = true ↔ ∃ s, x = .str s := by
  cases x <;> simp [isStr]

theorem isInt_iff : isInt x = true ↔ ∃ n, x = .int n := by
  cases x <;> simp [isInt]

theorem isDict_iff : isDict x = true ↔ ∃ fields, x = .obj fields := by
  cases x <;> simp [isDict]

theorem exists_of_isStrList (h : isStrList x = true) : ∃ xs, x = .arr xs := by
  cases x with
  | arr xs => exact ⟨xs, rfl⟩
  | _ => cases h

theorem getItem_of_field {v : Json} (h : field (.obj fields) name = some v) :
    Json.getItem (.obj fields) name = .ok v := by
  rw [Json.getItem_obj]
  change fields.lookup name = some v at h
  rw [h]

/-- A field that is a list where it is there is read as that list. -/
theorem listAt_of_checked (h : absentOr isStrList (.obj fields) name = true) :
    ∃ xs, (field (.obj fields) name).getD (.arr []) = .arr xs ∧
      listAt (.obj fields) name = .ok xs := by
  have hlist : listAt (.obj fields) name = listOf ((fields.lookup name).getD (.arr [])) := rfl
  rw [hlist]
  rw [absentOr, field] at h
  rw [field]
  cases hv : fields.lookup name with
  | none => exact ⟨[], rfl, rfl⟩
  | some v =>
    rw [hv] at h
    obtain ⟨xs, rfl⟩ := exists_of_isStrList h
    exact ⟨xs, rfl, rfl⟩

/-- A field that is an object where it is there is read as that object. -/
theorem dictAt_of_checked (h : absentOr isDict (.obj fields) name = true) :
    ∃ fs, (field (.obj fields) name).getD (.obj []) = .obj fs ∧
      (do dictOf (← Json.getOr (.obj fields) name (.obj [])) : Except PyError _) = .ok fs := by
  have hdict : (do dictOf (← Json.getOr (.obj fields) name (.obj [])) : Except PyError _) =
      dictOf ((fields.lookup name).getD (.obj [])) := rfl
  rw [hdict]
  rw [absentOr, field] at h
  rw [field]
  cases hv : fields.lookup name with
  | none => exact ⟨[], rfl, rfl⟩
  | some v =>
    rw [hv] at h
    obtain ⟨fs, rfl⟩ := isDict_iff.mp h
    exact ⟨fs, rfl, rfl⟩

end

/-- What `_require_claim_types` checks, taken apart. -/
theorem requireClaimTypes_eq_ok {payload : Json} (h : requireClaimTypes payload = .ok ()) :
    (∀ name ∈ ["iss", "sub", "jti", "purpose"], ∃ s, field payload name = some (.str s)) ∧
      (∃ xs, field payload "aud" = some (.arr xs)) ∧
      (∀ name ∈ ["iat", "nbf", "exp"], ∃ n, field payload name = some (.int n)) ∧
      ∃ cap scope limits, field payload "cap" = some (.obj cap) ∧
        (∃ n, field (.obj cap) "tier" = some (.int n)) ∧
        (∃ s, field (.obj cap) "registry_version" = some (.str s)) ∧
        (∀ name ∈ ["groups", "allow_actions", "deny_actions"],
          absentOr isStrList (.obj cap) name = true) ∧
        (field (.obj cap) "scope").getD (.obj []) = .obj scope ∧
        (∀ name ∈ ["env", "services", "repos"], absentOr isStrList (.obj scope) name = true) ∧
        (field (.obj cap) "limits").getD (.obj []) = .obj limits ∧
        ∀ name ∈ ["per_hour", "per_day", "per_session"], absentOr isDict (.obj limits) name = true := by
  simp only [requireClaimTypes, Except.bind_eq_ok, ensure_eq_ok, exists_and_left, exists_const,
    List.all_eq_true, Option.any_eq_true] at h
  obtain ⟨hstr, haud, hint, hcap, ⟨htier, hversion⟩, hlists, hscope, hscopes, hlimits, hdicts⟩ := h
  obtain ⟨cap, hcap⟩ := isDict_iff.mp hcap
  have hfield : field payload "cap" = some (.obj cap) := by
    cases hc : field payload "cap" with
    | none =>
      rw [hc] at hcap
      cases hcap
    | some value =>
      rw [hc] at hcap
      exact congrArg some hcap
  rw [hcap] at htier hversion hlists hscope hscopes hlimits hdicts
  obtain ⟨scope, hscope⟩ := isDict_iff.mp hscope
  obtain ⟨limits, hlimits⟩ := isDict_iff.mp hlimits
  rw [hscope] at hscopes
  rw [hlimits] at hdicts
  refine ⟨fun name hname => ?_, ?_, fun name hname => ?_, cap, scope, limits, hfield, ?_, ?_, hlists,
    hscope, hscopes, hlimits, hdicts⟩
  · obtain ⟨v, hv, hs⟩ := hstr name hname
    obtain ⟨s, rfl⟩ := isStr_iff.mp hs
    exact ⟨s, hv⟩
  · obtain ⟨v, hv, hxs⟩ := haud
    obtain ⟨xs, rfl⟩ := exists_of_isStrList hxs
    exact ⟨xs, hv⟩
  · obtain ⟨v, hv, hn⟩ := hint name hname
    obtain ⟨n, rfl⟩ := isInt_iff.mp hn
    exact ⟨n, hv⟩
  · obtain ⟨v, hv, hn⟩ := htier
    obtain ⟨n, rfl⟩ := isInt_iff.mp hn
    exact ⟨n, hv⟩
  · obtain ⟨v, hv, hs⟩ := hversion
    obtain ⟨s, rfl⟩ := isStr_iff.mp hs
    exact ⟨s, hv⟩

/-- Checked claims are read, each as it stands. -/
theorem exists_claimsOf {payload : Json} (hdict : isDict payload = true)
    (h : requireClaimTypes payload = .ok ()) :
    ∃ c, dictToClaims payload = .ok c ∧ ClaimsOf payload c := by
  obtain ⟨fields, rfl⟩ := isDict_iff.mp hdict
  obtain ⟨hstr, ⟨aud, haud⟩, hint, cap, scope, limits, hcap, ⟨tier, htier⟩, ⟨version, hversion⟩,
    hlists, hscope, hscopes, hlimits, hdicts⟩ := requireClaimTypes_eq_ok h
  obtain ⟨iss, hiss⟩ := hstr "iss" (by simp)
  obtain ⟨sub, hsub⟩ := hstr "sub" (by simp)
  obtain ⟨jti, hjti⟩ := hstr "jti" (by simp)
  obtain ⟨purpose, hpurpose⟩ := hstr "purpose" (by simp)
  obtain ⟨iat, hiat⟩ := hint "iat" (by simp)
  obtain ⟨nbf, hnbf⟩ := hint "nbf" (by simp)
  obtain ⟨exp, hexp⟩ := hint "exp" (by simp)
  obtain ⟨groups, hgroups, hgroups'⟩ := listAt_of_checked (hlists "groups" (by simp))
  obtain ⟨allow, hallow, hallow'⟩ := listAt_of_checked (hlists "allow_actions" (by simp))
  obtain ⟨deny, hdeny, hdeny'⟩ := listAt_of_checked (hlists "deny_actions" (by simp))
  obtain ⟨env, henv, henv'⟩ := listAt_of_checked (hscopes "env" (by simp))
  obtain ⟨services, hservices, hservices'⟩ := listAt_of_checked (hscopes "services" (by simp))
  obtain ⟨repos, hrepos, hrepos'⟩ := listAt_of_checked (hscopes "repos" (by simp))
  obtain ⟨hour, hhour, hhour'⟩ := dictAt_of_checked (hdicts "per_hour" (by simp))
  obtain ⟨day, hday, hday'⟩ := dictAt_of_checked (hdicts "per_day" (by simp))
  obtain ⟨session, hsession, hsession'⟩ := dictAt_of_checked (hdicts "per_session" (by simp))
  have hscopeOr : Json.getOr (.obj cap) "scope" (.obj []) = .ok (.obj scope) :=
    congrArg Except.ok hscope
  have hlimitsOr : Json.getOr (.obj cap) "limits" (.obj []) = .ok (.obj limits) :=
    congrArg Except.ok hlimits
  have hrequired : ∀ name ∈ requiredClaims, name ∈ fields.map Prod.fst := by
    have hmem : ∀ {name : String} {v : Json}, field (.obj fields) name = some v →
        name ∈ fields.map Prod.fst := by
      intro name v hv
      obtain ⟨before, after, hsplit, -⟩ := List.lookup_eq_some_iff.mp hv
      simp [hsplit]
    simp only [requiredClaims, List.forall_mem_cons]
    exact ⟨hmem hiss, hmem hsub, hmem haud, hmem hiat, hmem hnbf, hmem hexp, hmem hjti, hmem hcap,
      hmem hpurpose, nofun⟩
  refine
    ⟨{ iss := .str iss, sub := .str sub, aud, iat, nbf, exp, jti := .str jti
       purpose := .str purpose
       parentCap := (fields.lookup "parent_cap").getD .null
       maxUses := (fields.lookup "max_uses").getD .null
       parentProfile := (fields.lookup "parent_profile").getD .null
       cap :=
         { tier := .int tier, registryVersion := .str version, groups, allowActions := allow
           denyActions := deny
           scope :=
             { env, services, repos
               createForOwner := (scope.lookup "create_for_owner").getD .null
               chatRoomId := (scope.lookup "chat_room_id").getD .null
               targetUserId := (scope.lookup "target_user_id").getD .null
               pairingCode := (scope.lookup "pairing_code").getD .null
               payloadSha256 := (scope.lookup "payload_sha256").getD .null }
           limits := { perHour := hour, perDay := day, perSession := session } } }, ?_, ?_⟩
  · simp only [dictToClaims, ensure, if_pos hrequired, getItem_of_field hcap,
      getItem_of_field hiss, getItem_of_field hsub, getItem_of_field haud, getItem_of_field hiat,
      getItem_of_field hnbf, getItem_of_field hexp, getItem_of_field hjti,
      getItem_of_field hpurpose, dictToClause, getItem_of_field htier, getItem_of_field hversion,
      hgroups', hallow', hdeny', innerList, innerGet, innerDict, hscopeOr, hlimitsOr, henv',
      hservices', hrepos', hhour', hday', hsession', Json.get_obj, Json.toInt, listOf, ok_bind]
    rfl
  · exact
      { iss := hiss, sub := hsub, aud := haud, iat := hiat, nbf := hnbf, exp := hexp, jti := hjti
        purpose := hpurpose, parentCap := rfl, maxUses := rfl, parentProfile := rfl
        cap := ⟨_, hcap, htier, hversion, hgroups, hallow, hdeny,
          ⟨_, hscope, henv, hservices, hrepos, rfl, rfl, rfl, rfl, rfl⟩,
          _, hlimits, hhour, hday, hsession⟩ }

end Capability
end Recto
