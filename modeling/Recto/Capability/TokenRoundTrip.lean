import Recto.Capability.ReadBack

/-!
# Claims through a token

`assemble_jws`, and what comes back of the claims that were signed. The writer
drops what is `None` and sorts the keys; the reader names every field again, so a
field that only one of the two knew would be lost here.
-/

namespace Recto
namespace Capability

/-- `assemble_jws` -/
def assembleJws (headerB64 payloadB64 : String) (signature : Bytes) : Except PyError String :=
  if signature.length ≠ 64 then .error .valueError
  else .ok (headerB64 ++ "." ++ payloadB64 ++ "." ++ b64u signature)

/-! ## What is written -/

mutual
theorem proper_stripNone : ∀ {x : Json}, Json.Proper x → Json.Proper (stripNone x)
  | .null, _ => trivial
  | .bool _, _ => trivial
  | .int _, _ => trivial
  | .float _, h => h
  | .str _, _ => trivial
  | .arr _, h => proper_stripElements h
  | .obj _, h => ⟨(map_fst_stripFields _).nodup h.1, proper_stripFields h.2⟩
theorem proper_stripElements : ∀ {xs : List Json}, Json.ProperElements xs →
    Json.ProperElements (stripElements xs)
  | [], _ => trivial
  | _ :: _, h => ⟨proper_stripNone h.1, proper_stripElements h.2⟩
theorem proper_stripFields : ∀ {fs : List (String × Json)}, Json.ProperFields fs →
    Json.ProperFields (stripFields fs)
  | [], _ => trivial
  | (k, x) :: fs, h => by
      unfold stripFields
      split_ifs
      · exact proper_stripFields h.2
      · exact ⟨proper_stripNone h.1, proper_stripFields h.2⟩
theorem map_fst_stripFields : ∀ (fs : List (String × Json)),
    ((stripFields fs).map Prod.fst).Sublist (fs.map Prod.fst)
  | [] => .slnil
  | (k, x) :: fs => by
      unfold stripFields
      split_ifs
      · exact (map_fst_stripFields fs).cons k
      · exact (map_fst_stripFields fs).cons_cons k
end

theorem lookup_stripFields {fs : List (String × Json)} (h : (fs.map Prod.fst).Nodup) (k : String) :
    (stripFields fs).lookup k =
      (fs.lookup k).bind fun x => if x = .null then none else some (stripNone x) := by
  induction fs with
  | nil => simp [stripFields]
  | cons f fs ih =>
    obtain ⟨l, x⟩ := f
    obtain ⟨hl, hfs⟩ := List.nodup_cons.mp h
    have hrest := ih hfs
    unfold stripFields
    by_cases hk : k = l
    · subst hk
      have habsent : fs.lookup k = none := by
        rw [List.lookup_eq_none_iff]
        intro f hf
        have hne : k ≠ f.1 := ne_of_mem_of_not_mem (List.mem_map_of_mem hf) hl |>.symm
        simpa using hne
      split_ifs with hx
      · rw [hrest, habsent]
        simp [hx]
      · simp [hx]
    · have hk' : (k == l) = false := by simpa using hk
      split_ifs with hx
      · rw [hrest, List.lookup_cons, hk']
      · rw [List.lookup_cons, List.lookup_cons, hk', hrest]

/-- A value as a token carries it: what is `None` left out, the keys in order. -/
def written (x : Json) : Json := Json.canon (stripNone x)

/-- The fields of an object as a token carries them. -/
def writtenFields (fs : List (String × Json)) : List (String × Json) :=
  Json.sortFields (Json.canonFields (stripFields fs))

theorem written_obj (fs : List (String × Json)) : written (.obj fs) = .obj (writtenFields fs) := by
  rw [written, stripNone, Json.canon, writtenFields]

section
variable {fs : List (String × Json)} {k : String} {x : Json}

theorem lookup_writtenFields (h : (fs.map Prod.fst).Nodup) (k : String) :
    (writtenFields fs).lookup k =
      (fs.lookup k).bind fun x => if x = .null then none else some (written x) := by
  rw [writtenFields,
    Json.lookup_sortFields_canonFields ((map_fst_stripFields fs).nodup h), lookup_stripFields h]
  cases fs.lookup k with
  | none => rfl
  | some x =>
    simp only [Option.bind_some]
    split_ifs <;> rfl

theorem mem_written (h : (fs.map Prod.fst).Nodup) (hk : fs.lookup k = some x) (hx : x ≠ .null) :
    k ∈ (writtenFields fs).map Prod.fst := by
  have hlookup := lookup_writtenFields h k
  rw [hk, Option.bind_some, if_neg hx] at hlookup
  by_contra hmem
  have hnone : (writtenFields fs).lookup k = none := by
    rw [List.lookup_eq_none_iff]
    intro f hf
    simpa using (ne_of_mem_of_not_mem (List.mem_map_of_mem hf) hmem).symm
  rw [hnone] at hlookup
  cases hlookup

theorem getItem_written (h : (fs.map Prod.fst).Nodup) (hk : fs.lookup k = some x) (hx : x ≠ .null) :
    (Json.obj (writtenFields fs)).getItem k = .ok (written x) := by
  simp [Json.getItem, Json.field?, lookup_writtenFields h, hk, hx]

theorem getOr_written (h : (fs.map Prod.fst).Nodup) (hk : fs.lookup k = some x) (hx : x ≠ .null)
    (fallback : Json) : (Json.obj (writtenFields fs)).getOr k fallback = .ok (written x) := by
  simp [Json.getOr, Json.field?, lookup_writtenFields h, hk, hx]

theorem get_written (h : (fs.map Prod.fst).Nodup) (hk : fs.lookup k = some x) :
    (Json.obj (writtenFields fs)).get k = .ok (written x) := by
  simp only [Json.get, Json.field?, lookup_writtenFields h, hk, Option.bind_some]
  split_ifs with hx
  · rw [hx]; rfl
  · rfl

end

/-! ## Declared types -/

/-- A text. -/
def IsText (x : Json) : Prop := ∃ s, x = .str s

/-- A text, or `None`. -/
def IsTextOrNone (x : Json) : Prop := x = .null ∨ IsText x

def IsNumber (x : Json) : Prop := ∃ n, x = .int n

/-- A dictionary from strings to integers. -/
structure IsNumberMap (d : List (String × Json)) : Prop where
  nodup : (d.map Prod.fst).Nodup
  numbers : ∀ f ∈ d, IsNumber f.2

theorem isNumberMap_iff {d : List (String × Json)} :
    IsNumberMap d ↔ (d.map Prod.fst).Nodup ∧ ∀ f ∈ d, IsNumber f.2 :=
  ⟨fun h => ⟨h.nodup, h.numbers⟩, fun h => ⟨h.1, h.2⟩⟩

/-- The fields have the types the dataclasses declare. -/
structure CapabilityClaims.Declared (c : CapabilityClaims) : Prop where
  iss : IsText c.iss
  sub : IsText c.sub
  aud : ∀ x ∈ c.aud, IsText x
  jti : IsText c.jti
  purpose : IsText c.purpose
  parentCap : IsTextOrNone c.parentCap
  maxUses : c.maxUses = .null ∨ IsNumber c.maxUses
  parentProfile : IsTextOrNone c.parentProfile
  tier : IsNumber c.cap.tier
  registryVersion : IsText c.cap.registryVersion
  groups : ∀ x ∈ c.cap.groups, IsText x
  allowActions : ∀ x ∈ c.cap.allowActions, IsText x
  denyActions : ∀ x ∈ c.cap.denyActions, IsText x
  env : ∀ x ∈ c.cap.scope.env, IsText x
  services : ∀ x ∈ c.cap.scope.services, IsText x
  repos : ∀ x ∈ c.cap.scope.repos, IsText x
  extensions : ∀ x ∈ [c.cap.scope.createForOwner, c.cap.scope.chatRoomId, c.cap.scope.targetUserId,
    c.cap.scope.pairingCode, c.cap.scope.payloadSha256], IsTextOrNone x
  perHour : IsNumberMap c.cap.limits.perHour
  perDay : IsNumberMap c.cap.limits.perDay
  perSession : IsNumberMap c.cap.limits.perSession

theorem IsText.written_eq {x : Json} (h : IsText x) : written x = x ∧ x ≠ .null := by
  obtain ⟨s, rfl⟩ := h
  exact ⟨rfl, nofun⟩

theorem IsTextOrNone.written_eq {x : Json} (h : IsTextOrNone x) : written x = x := by
  rcases h with rfl | h
  · rfl
  · exact h.written_eq.1

theorem IsNumber.written_eq {x : Json} (h : IsNumber x) : written x = x ∧ x ≠ .null := by
  obtain ⟨n, rfl⟩ := h
  exact ⟨rfl, nofun⟩

theorem written_texts {xs : List Json} (h : ∀ x ∈ xs, IsText x) : written (.arr xs) = .arr xs := by
  have helements : Json.canonElements (stripElements xs) = xs := by
    induction xs with
    | nil => rfl
    | cons x xs ih =>
      obtain ⟨hx, hxs⟩ := List.forall_mem_cons.mp h
      rw [stripElements, Json.canonElements, ih hxs]
      exact congrArg (· :: xs) hx.written_eq.1
  rw [written, stripNone, Json.canon, helements]

theorem IsNumberMap.writtenFields_eq {d : List (String × Json)} (h : IsNumberMap d) :
    writtenFields d = Json.sortFields d := by
  have hfields : Json.canonFields (stripFields d) = d := by
    have hnumbers := h.numbers
    clear h
    induction d with
    | nil => rfl
    | cons f d ih =>
      obtain ⟨hf, hd⟩ := List.forall_mem_cons.mp hnumbers
      obtain ⟨k, x⟩ := f
      obtain ⟨hx, hne⟩ := IsNumber.written_eq hf
      rw [stripFields, if_neg hne, Json.canonFields, ih hd]
      exact congrArg (fun y => (k, y) :: d) hx
  rw [writtenFields, hfields]

/-! ## What is read back -/

def DictEq (d d' : List (String × Json)) : Prop := ∀ k, d.lookup k = d'.lookup k

/-- `==`: a dictionary compares without the order of its keys. -/
structure CapabilityClaims.Same (c c' : CapabilityClaims) : Prop where
  fields : { c with cap := { c.cap with limits := c'.cap.limits } } = c'
  perHour : DictEq c.cap.limits.perHour c'.cap.limits.perHour
  perDay : DictEq c.cap.limits.perDay c'.cap.limits.perDay
  perSession : DictEq c.cap.limits.perSession c'.cap.limits.perSession

theorem IsNumberMap.dictEq {d : List (String × Json)} (h : IsNumberMap d) :
    DictEq (Json.sortFields d) d :=
  fun k => (lookup_eq_of_perm (Json.sortFields_perm d).symm h.nodup k).symm

def scopeFields (s : CapabilityScope) : List (String × Json) :=
  [("env", .arr s.env), ("services", .arr s.services), ("repos", .arr s.repos),
    ("create_for_owner", s.createForOwner), ("chat_room_id", s.chatRoomId),
    ("target_user_id", s.targetUserId), ("pairing_code", s.pairingCode),
    ("payload_sha256", s.payloadSha256)]

def limitFields (l : CapabilityLimits) : List (String × Json) :=
  [("per_hour", .obj l.perHour), ("per_day", .obj l.perDay), ("per_session", .obj l.perSession)]

def capFields (cap : CapabilityClause) : List (String × Json) :=
  [("tier", cap.tier), ("registry_version", cap.registryVersion), ("groups", .arr cap.groups),
    ("scope", .obj (scopeFields cap.scope)), ("allow_actions", .arr cap.allowActions),
    ("deny_actions", .arr cap.denyActions), ("limits", .obj (limitFields cap.limits))]

def claimFields (c : CapabilityClaims) : List (String × Json) :=
  [("iss", c.iss), ("sub", c.sub), ("aud", .arr c.aud), ("iat", .int c.iat), ("nbf", .int c.nbf),
    ("exp", .int c.exp), ("jti", c.jti), ("cap", .obj (capFields c.cap)), ("purpose", c.purpose),
    ("parent_cap", c.parentCap), ("max_uses", c.maxUses), ("parent_profile", c.parentProfile)]

theorem asdict_eq (c : CapabilityClaims) : c.asdict = .obj (claimFields c) := rfl

theorem nodup_scopeFields (s : CapabilityScope) : ((scopeFields s).map Prod.fst).Nodup := by
  simp [scopeFields]

theorem nodup_limitFields (l : CapabilityLimits) : ((limitFields l).map Prod.fst).Nodup := by
  simp [limitFields]

theorem nodup_capFields (cap : CapabilityClause) : ((capFields cap).map Prod.fst).Nodup := by
  simp [capFields]

theorem nodup_claimFields (c : CapabilityClaims) : ((claimFields c).map Prod.fst).Nodup := by
  simp [claimFields]

/-- The limits with their keys in order. -/
def CapabilityLimits.sorted (l : CapabilityLimits) : CapabilityLimits where
  perHour := Json.sortFields l.perHour
  perDay := Json.sortFields l.perDay
  perSession := Json.sortFields l.perSession

theorem listAt_written {fs : List (String × Json)} {k : String} {xs : List Json}
    (hfs : (fs.map Prod.fst).Nodup) (hk : fs.lookup k = some (.arr xs)) (hxs : ∀ x ∈ xs, IsText x) :
    listAt (.obj (writtenFields fs)) k = .ok xs := by
  have hlist := getOr_written hfs hk nofun (.arr [])
  rw [written_texts hxs] at hlist
  exact Except.bind_eq_ok.mpr ⟨_, hlist, rfl⟩

section
variable (cap : CapabilityClause) {k : String}

theorem getOr_scope : (Json.obj (writtenFields (capFields cap))).getOr "scope" (.obj []) =
    .ok (.obj (writtenFields (scopeFields cap.scope))) := by
  rw [← written_obj (scopeFields cap.scope)]
  exact getOr_written (nodup_capFields cap) rfl (by simp) _

theorem getOr_limits : (Json.obj (writtenFields (capFields cap))).getOr "limits" (.obj []) =
    .ok (.obj (writtenFields (limitFields cap.limits))) := by
  rw [← written_obj (limitFields cap.limits)]
  exact getOr_written (nodup_capFields cap) rfl (by simp) _

theorem innerList_scope {xs : List Json} (hk : (scopeFields cap.scope).lookup k = some (.arr xs))
    (hxs : ∀ x ∈ xs, IsText x) :
    innerList (.obj (writtenFields (capFields cap))) "scope" k = .ok xs :=
  Except.bind_eq_ok.mpr ⟨_, getOr_scope cap, listAt_written (nodup_scopeFields _) hk hxs⟩

theorem innerGet_scope {x : Json} (hk : (scopeFields cap.scope).lookup k = some x)
    (hx : IsTextOrNone x) :
    innerGet (.obj (writtenFields (capFields cap))) "scope" k = .ok x := by
  have hget := get_written (nodup_scopeFields cap.scope) hk
  rw [hx.written_eq] at hget
  exact Except.bind_eq_ok.mpr ⟨_, getOr_scope cap, hget⟩

theorem innerDict_limits {d : List (String × Json)}
    (hk : (limitFields cap.limits).lookup k = some (.obj d)) (hd : IsNumberMap d) :
    innerDict (.obj (writtenFields (capFields cap))) "limits" k = .ok (Json.sortFields d) := by
  have hmap := getOr_written (nodup_limitFields cap.limits) hk nofun (.obj [])
  rw [written_obj, hd.writtenFields_eq] at hmap
  exact Except.bind_eq_ok.mpr ⟨_, getOr_limits cap, Except.bind_eq_ok.mpr ⟨_, hmap, rfl⟩⟩

end

theorem getItem_fixed {fs : List (String × Json)} {k : String} {x : Json}
    (hfs : (fs.map Prod.fst).Nodup) (hk : fs.lookup k = some x) (hx : written x = x ∧ x ≠ .null) :
    (Json.obj (writtenFields fs)).getItem k = .ok x := by
  rw [getItem_written hfs hk hx.2, hx.1]

theorem get_fixed {fs : List (String × Json)} {k : String} {x : Json}
    (hfs : (fs.map Prod.fst).Nodup) (hk : fs.lookup k = some x) (hx : written x = x) :
    (Json.obj (writtenFields fs)).get k = .ok x := by
  rw [get_written hfs hk, hx]

section
variable {c : CapabilityClaims} (h : c.Declared)
include h

theorem dictToClause_written : dictToClause (.obj (writtenFields (capFields c.cap))) =
    .ok { c.cap with limits := c.cap.limits.sorted } := by
  have hcap := nodup_capFields c.cap
  have hextensions := h.extensions
  simp only [List.forall_mem_cons] at hextensions
  obtain ⟨howner, hroom, huser, hcode, hsha, -⟩ := hextensions
  simp only [dictToClause, Except.bind_eq_ok]
  exact ⟨_, getItem_fixed hcap rfl h.tier.written_eq,
    _, getItem_fixed hcap rfl h.registryVersion.written_eq,
    _, listAt_written hcap rfl h.groups,
    _, innerList_scope _ rfl h.env, _, innerList_scope _ rfl h.services,
    _, innerList_scope _ rfl h.repos,
    _, innerGet_scope _ rfl howner, _, innerGet_scope _ rfl hroom, _, innerGet_scope _ rfl huser,
    _, innerGet_scope _ rfl hcode, _, innerGet_scope _ rfl hsha,
    _, listAt_written hcap rfl h.allowActions, _, listAt_written hcap rfl h.denyActions,
    _, innerDict_limits _ rfl h.perHour, _, innerDict_limits _ rfl h.perDay,
    _, innerDict_limits _ rfl h.perSession, rfl⟩

/-- The reader takes the written dictionary for the claims, but for the order of keys. -/
theorem dictToClaims_written : dictToClaims (written c.asdict) =
    .ok { c with cap := { c.cap with limits := c.cap.limits.sorted } } := by
  have hclaims := nodup_claimFields c
  have hpresent : ∀ name ∈ requiredClaims, name ∈ (writtenFields (claimFields c)).map Prod.fst := by
    simp only [requiredClaims, List.forall_mem_cons]
    exact ⟨mem_written hclaims rfl h.iss.written_eq.2, mem_written hclaims rfl h.sub.written_eq.2,
      mem_written hclaims rfl (by simp), mem_written hclaims rfl (by simp),
      mem_written hclaims rfl (by simp), mem_written hclaims rfl (by simp),
      mem_written hclaims rfl h.jti.written_eq.2, mem_written hclaims rfl (by simp),
      mem_written hclaims rfl h.purpose.written_eq.2, by simp⟩
  have hmaxUses : written c.maxUses = c.maxUses := by
    rcases h.maxUses with hnull | hnumber
    · rw [hnull]; rfl
    · exact hnumber.written_eq.1
  have hcap : (Json.obj (writtenFields (claimFields c))).getItem "cap" =
      .ok (.obj (writtenFields (capFields c.cap))) := by
    rw [← written_obj (capFields c.cap)]
    exact getItem_written hclaims rfl (by simp)
  have haud : (Json.obj (writtenFields (claimFields c))).getItem "aud" = .ok (.arr c.aud) := by
    rw [getItem_written hclaims rfl (by simp), written_texts h.aud]
  rw [asdict_eq, written_obj]
  simp only [dictToClaims, Except.bind_eq_ok, ensure_eq_ok]
  exact ⟨(), hpresent, _, hcap, _, dictToClause_written h,
    _, getItem_fixed hclaims rfl h.iss.written_eq, _, getItem_fixed hclaims rfl h.sub.written_eq,
    _, haud, _, rfl,
    _, getItem_fixed hclaims rfl ⟨rfl, nofun⟩, _, rfl,
    _, getItem_fixed hclaims rfl ⟨rfl, nofun⟩, _, rfl,
    _, getItem_fixed hclaims rfl ⟨rfl, nofun⟩, _, rfl,
    _, getItem_fixed hclaims rfl h.jti.written_eq,
    _, getItem_fixed hclaims rfl h.purpose.written_eq,
    _, get_fixed hclaims rfl h.parentCap.written_eq, _, get_fixed hclaims rfl hmaxUses,
    _, get_fixed hclaims rfl h.parentProfile.written_eq, rfl⟩

end

/-! ## The token -/

theorem properElements_texts {xs : List Json} (h : ∀ x ∈ xs, IsText x) : Json.ProperElements xs := by
  induction xs with
  | nil => trivial
  | cons x xs ih =>
    obtain ⟨⟨s, rfl⟩, hxs⟩ := List.forall_mem_cons.mp h
    exact ⟨trivial, ih hxs⟩

theorem IsNumberMap.proper {d : List (String × Json)} (h : IsNumberMap d) : Json.Proper (.obj d) := by
  refine ⟨h.nodup, Json.properFields_iff.mpr fun f hf => ?_⟩
  obtain ⟨n, hn⟩ := h.numbers f hf
  rw [hn]
  trivial

theorem IsText.proper {x : Json} (h : IsText x) : Json.Proper x := by
  obtain ⟨s, rfl⟩ := h
  trivial

theorem IsTextOrNone.proper {x : Json} (h : IsTextOrNone x) : Json.Proper x := by
  rcases h with rfl | h
  · trivial
  · exact h.proper

theorem IsNumber.proper {x : Json} (h : IsNumber x) : Json.Proper x := by
  obtain ⟨n, rfl⟩ := h
  trivial

theorem CapabilityClaims.Declared.proper {c : CapabilityClaims} (h : c.Declared) :
    Json.Proper c.asdict := by
  have hextensions := h.extensions
  simp only [List.forall_mem_cons] at hextensions
  obtain ⟨howner, hroom, huser, hcode, hsha, -⟩ := hextensions
  have hscope : Json.Proper (.obj (scopeFields c.cap.scope)) :=
    ⟨nodup_scopeFields _, properElements_texts h.env, properElements_texts h.services,
      properElements_texts h.repos, howner.proper, hroom.proper, huser.proper, hcode.proper,
      hsha.proper, trivial⟩
  have hlimits : Json.Proper (.obj (limitFields c.cap.limits)) :=
    ⟨nodup_limitFields _, h.perHour.proper, h.perDay.proper, h.perSession.proper, trivial⟩
  have hcap : Json.Proper (.obj (capFields c.cap)) :=
    ⟨nodup_capFields _, h.tier.proper, h.registryVersion.proper, properElements_texts h.groups,
      hscope, properElements_texts h.allowActions, properElements_texts h.denyActions, hlimits,
      trivial⟩
  have hmaxUses : Json.Proper c.maxUses := by
    rcases h.maxUses with hnull | hnumber
    · rw [hnull]; trivial
    · exact hnumber.proper
  exact ⟨nodup_claimFields c, h.iss.proper, h.sub.proper, properElements_texts h.aud, trivial,
    trivial, trivial, h.jti.proper, hcap, h.purpose.proper, h.parentCap.proper, hmaxUses,
    h.parentProfile.proper, trivial⟩

/-- The payload segment carries the dictionary of the claims. -/
theorem segmentJson_proper (env : TokenPrimitives) {c : CapabilityClaims} (h : Json.Proper c.asdict) :
    segmentJson (chars (buildSigningInput env c).2.2) = .ok (written c.asdict) := by
  have hdict : claimsToDict c = .obj (stripFields (claimFields c)) := by
    rw [claimsToDict, asdict_eq, stripNone]
  have hparse : Json.parse (Json.dumps (.obj (stripFields (claimFields c)))) =
      some (written c.asdict) := by
    rw [← hdict]
    exact Json.parse_render (proper_stripNone h).canon
  simp only [buildSigningInput, hdict]
  exact segmentJson_b64u hparse

theorem segmentJson_payload (env : TokenPrimitives) {c : CapabilityClaims} (h : c.Declared) :
    segmentJson (chars (buildSigningInput env c).2.2) = .ok (written c.asdict) :=
  segmentJson_proper env h.proper

theorem segmentJson_header (env : TokenPrimitives) (c : CapabilityClaims) :
    segmentJson (chars (buildSigningInput env c).2.1) = .ok jwsHeader := by
  have hparse : Json.parse (Json.dumps jwsHeader) = some jwsHeader := by decide +kernel
  exact segmentJson_b64u hparse

theorem dot_not_mem_b64u (raw : Bytes) : '.' ∉ chars (b64u raw) := by
  intro hmem
  have hchars : ∀ c ∈ b64uChars raw, c ≠ '.' :=
    forall_mem_b64uChars (show ∀ n < 64, b64Char n ≠ '.' by decide) raw
  rw [b64u, chars_ofList] at hmem
  exact hchars _ hmem rfl

theorem segments_assembled {headerB64 payloadB64 sigB64 : String} (hh : '.' ∉ chars headerB64)
    (hp : '.' ∉ chars payloadB64) (hs : '.' ∉ chars sigB64) :
    segments (headerB64 ++ "." ++ payloadB64 ++ "." ++ sigB64) =
      [chars headerB64, chars payloadB64, chars sigB64] := by
  have htext : chars (headerB64 ++ "." ++ payloadB64 ++ "." ++ sigB64) =
      chars headerB64 ++ '.' :: (chars payloadB64 ++ '.' :: chars sigB64) := by
    simp
  rw [segments, htext, List.splitOn_append_cons_self, List.splitOn_append_cons_self,
    List.splitOn_eq_singleton hh, List.splitOn_eq_singleton hp, List.splitOn_eq_singleton hs]
  rfl

/-- Claims come back from the payload that was signed, and a token gives back its parts and the
bytes whose digest was signed. -/
theorem claims_survive (env : TokenPrimitives) (c : CapabilityClaims) (h : c.Declared) :
    ∃ payload c', segmentJson (chars (buildSigningInput env c).2.2) = .ok payload ∧
      dictToClaims payload = .ok c' ∧ c'.Same c ∧
      ∀ sig : Bytes, sig.length = 64 → ∃ token jws,
        assembleJws (buildSigningInput env c).2.1 (buildSigningInput env c).2.2 sig = .ok token ∧
        parseJws token = .ok jws ∧ jws.header = jwsHeader ∧ jws.payload = payload ∧
        jws.signature = sig ∧ env.sha256 jws.signingInput = (buildSigningInput env c).1 := by
  refine ⟨_, _, segmentJson_payload env h, dictToClaims_written h,
    ⟨rfl, h.perHour.dictEq, h.perDay.dictEq, h.perSession.dictEq⟩, fun sig hsig => ?_⟩
  have hheader : '.' ∉ chars (buildSigningInput env c).2.1 := dot_not_mem_b64u _
  have hpayload : '.' ∉ chars (buildSigningInput env c).2.2 := dot_not_mem_b64u _
  have hsegments := segments_assembled hheader hpayload (dot_not_mem_b64u sig)
  have hsig64 : unb64uChars (chars (b64u sig)) = some sig := by
    rw [← unb64u_eq]
    exact unb64u_b64u sig
  have hdict : isDict (written c.asdict) = true := by
    rw [asdict_eq, written_obj]
    rfl
  refine ⟨_, ⟨jwsHeader, written c.asdict, sig, signingInput (chars (buildSigningInput env c).2.1)
    (chars (buildSigningInput env c).2.2)⟩, if_neg (by simp [hsig]), ?_, rfl, rfl, rfl, rfl⟩
  unfold parseJws
  rw [hsegments]
  simp only [segmentJson_header, segmentJson_payload env h, hsig64, Except.bind_eq_ok, ensure_eq_ok]
  exact ⟨_, rfl, _, rfl, (), ⟨rfl, hdict⟩, rfl⟩

/-! ## One token -/

/-- Claims with a limit map out of order and one extension. -/
def sampleTokenClaims : CapabilityClaims where
  iss := .str "operator"
  sub := .str "console"
  aud := [.str "boot-1"]
  iat := 1760000000
  nbf := 1760000000
  exp := 1760000200
  jti := .str "jti-1"
  cap :=
    { tier := .int 1
      registryVersion := .str "v1"
      groups := [.str "docs"]
      scope :=
        { env := [.str "prod"], services := [], repos := [], createForOwner := .null,
          chatRoomId := .null, targetUserId := .null, pairingCode := .null,
          payloadSha256 := .str "ab" }
      allowActions := []
      denyActions := [.str "doc:drop"]
      limits := { perHour := [("b", .int 2), ("a", .int 1)], perDay := [], perSession := [] } }
  purpose := .str "edit"
  parentCap := .null
  maxUses := .int 1
  parentProfile := .null

theorem sampleTokenClaims_declared : sampleTokenClaims.Declared := by
  constructor <;>
    simp [sampleTokenClaims, IsText, IsTextOrNone, IsNumber, isNumberMap_iff]

/-- SHA-256 of the signing input of these claims, and nothing else. -/
def tokenPrimitives : TokenPrimitives where
  sha256 raw :=
    if raw = signingInput (b64uChars (canonicalJson jwsHeader))
        (b64uChars (canonicalJson (claimsToDict sampleTokenClaims))) then
      [46, 19, 249, 52, 18, 255, 98, 141, 115, 133, 64, 120, 183, 182, 127, 230, 132, 113, 88, 228,
        243, 126, 61, 30, 21, 22, 139, 207, 113, 76, 55, 185]
    else []
  recoverPublicKey _ _ := none

theorem claims_survive_sample :
    ∃ payload c', segmentJson (chars (buildSigningInput tokenPrimitives sampleTokenClaims).2.2) =
      .ok payload ∧ dictToClaims payload = .ok c' ∧ c'.Same sampleTokenClaims := by
  obtain ⟨payload, c', hpayload, hclaims, hsame, -⟩ :=
    claims_survive tokenPrimitives sampleTokenClaims sampleTokenClaims_declared
  exact ⟨payload, c', hpayload, hclaims, hsame⟩

end Capability
end Recto
