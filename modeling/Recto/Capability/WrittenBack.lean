import Recto.Capability.TokenRoundTrip
import Recto.Data.Lockstep

/-!
# Claims written a second time

Whatever JSON stands at the names of claims, writing them drops what is `None`
and sorts the keys, and writing what was read back changes nothing more. So a
payload that is rebuilt with another window carries the same claims as before.
-/

namespace Recto
namespace Capability

/-! ## Writing is idempotent -/

mutual
/-- No object has `None` for a value. -/
def Full : Json → Prop
  | .arr xs => FullElements xs
  | .obj fields => FullFields fields
  | _ => True
def FullElements : List Json → Prop
  | [] => True
  | x :: xs => Full x ∧ FullElements xs
def FullFields : List (String × Json) → Prop
  | [] => True
  | (_, x) :: fs => x ≠ .null ∧ Full x ∧ FullFields fs
end

theorem stripNone_eq_null {x : Json} : stripNone x = .null ↔ x = .null := by
  cases x <;> simp [stripNone]

theorem canon_eq_null {x : Json} : Json.canon x = .null ↔ x = .null := by
  cases x <;> simp [Json.canon]

theorem written_eq_null {x : Json} : written x = .null ↔ x = .null := by
  rw [written, canon_eq_null, stripNone_eq_null]

theorem fullFields_iff {fs : List (String × Json)} :
    FullFields fs ↔ ∀ f ∈ fs, f.2 ≠ .null ∧ Full f.2 := by
  induction fs with
  | nil => simp [FullFields]
  | cons f fs ih => simp [FullFields, ih, and_assoc]

mutual
theorem full_stripNone : ∀ x : Json, Full (stripNone x)
  | .null => trivial
  | .bool _ => trivial
  | .int _ => trivial
  | .float _ => trivial
  | .str _ => trivial
  | .arr xs => full_stripElements xs
  | .obj fs => full_stripFields fs
theorem full_stripElements : ∀ xs : List Json, FullElements (stripElements xs)
  | [] => trivial
  | x :: xs => ⟨full_stripNone x, full_stripElements xs⟩
theorem full_stripFields : ∀ fs : List (String × Json), FullFields (stripFields fs)
  | [] => trivial
  | (k, x) :: fs => by
      unfold stripFields
      split_ifs with hx
      · exact full_stripFields fs
      · exact ⟨fun h => hx (stripNone_eq_null.mp h), full_stripNone x, full_stripFields fs⟩
end

mutual
theorem Full.canon : ∀ {x : Json}, Full x → Full (Json.canon x)
  | .null, _ => trivial
  | .bool _, _ => trivial
  | .int _, _ => trivial
  | .float _, _ => trivial
  | .str _, _ => trivial
  | .arr _, h => FullElements.canon h
  | .obj fs, h => by
      have hperm := Json.sortFields_perm (Json.canonFields fs)
      refine fullFields_iff.mpr fun f hf => ?_
      exact fullFields_iff.mp (FullFields.canon h) f (hperm.mem_iff.mp hf)
theorem FullElements.canon : ∀ {xs : List Json}, FullElements xs →
    FullElements (Json.canonElements xs)
  | [], _ => trivial
  | _ :: _, h => ⟨Full.canon h.1, FullElements.canon h.2⟩
theorem FullFields.canon : ∀ {fs : List (String × Json)}, FullFields fs →
    FullFields (Json.canonFields fs)
  | [], _ => trivial
  | _ :: _, h => ⟨fun hx => h.1 (canon_eq_null.mp hx), Full.canon h.2.1, FullFields.canon h.2.2⟩
end

mutual
theorem stripNone_of_full : ∀ {x : Json}, Full x → stripNone x = x
  | .null, _ => rfl
  | .bool _, _ => rfl
  | .int _, _ => rfl
  | .float _, _ => rfl
  | .str _, _ => rfl
  | .arr _, h => congrArg Json.arr (stripElements_of_full h)
  | .obj _, h => congrArg Json.obj (stripFields_of_full h)
theorem stripElements_of_full : ∀ {xs : List Json}, FullElements xs → stripElements xs = xs
  | [], _ => rfl
  | _ :: _, h => by rw [stripElements, stripNone_of_full h.1, stripElements_of_full h.2]
theorem stripFields_of_full : ∀ {fs : List (String × Json)}, FullFields fs → stripFields fs = fs
  | [], _ => rfl
  | _ :: _, h => by
      rw [stripFields, if_neg h.1, stripNone_of_full h.2.1, stripFields_of_full h.2.2]
end

theorem sortFields_sortFields (fs : List (String × Json)) :
    Json.sortFields (Json.sortFields fs) = Json.sortFields fs := by
  have htotal : Std.Total Json.fieldLE := ⟨fun f g => String.le_total f.1 g.1⟩
  have htrans : IsTrans (String × Json) Json.fieldLE := ⟨fun _ _ _ => String.le_trans⟩
  exact (List.pairwise_insertionSort Json.fieldLE fs).insertionSort_eq

theorem canonFields_of_fixed {fs : List (String × Json)} (h : ∀ f ∈ fs, Json.canon f.2 = f.2) :
    Json.canonFields fs = fs := by
  induction fs with
  | nil => rfl
  | cons f fs ih =>
    obtain ⟨hf, hfs⟩ := List.forall_mem_cons.mp h
    rw [Json.canonFields, ih hfs, hf]

mutual
theorem canon_canon : ∀ x : Json, Json.canon (Json.canon x) = Json.canon x
  | .null => rfl
  | .bool _ => rfl
  | .int _ => rfl
  | .float _ => rfl
  | .str _ => rfl
  | .arr xs => congrArg Json.arr (canonElements_canonElements xs)
  | .obj fs => by
      have hfixed : ∀ f ∈ Json.sortFields (Json.canonFields fs), Json.canon f.2 = f.2 := by
        intro f hf
        exact canon_of_mem_canonFields fs f ((Json.sortFields_perm _).mem_iff.mp hf)
      rw [Json.canon, Json.canon, canonFields_of_fixed hfixed, sortFields_sortFields]
theorem canonElements_canonElements : ∀ xs : List Json,
    Json.canonElements (Json.canonElements xs) = Json.canonElements xs
  | [] => rfl
  | x :: xs => by
      rw [Json.canonElements, Json.canonElements, canon_canon x, canonElements_canonElements xs]
theorem canon_of_mem_canonFields : ∀ (fs : List (String × Json)), ∀ f ∈ Json.canonFields fs,
    Json.canon f.2 = f.2
  | [], _, h => by cases h
  | (k, x) :: fs, f, h => by
      rw [Json.canonFields, List.mem_cons] at h
      rcases h with rfl | h
      · exact canon_canon x
      · exact canon_of_mem_canonFields fs f h
end

/-- Writing what is written changes nothing. -/
theorem written_written (x : Json) : written (written x) = written x := by
  have hfull : stripNone (written x) = written x := stripNone_of_full (full_stripNone x).canon
  rw [written, hfull]
  exact canon_canon _

theorem written_arr (xs : List Json) : written (.arr xs) = .arr (xs.map written) := by
  have helements : Json.canonElements (stripElements xs) = xs.map written := by
    induction xs with
    | nil => rfl
    | cons x xs ih =>
      rw [stripElements, Json.canonElements, ih]
      rfl
  rw [written, stripNone, Json.canon, helements]

theorem canonFields_stripFields (fs : List (String × Json)) :
    Json.canonFields (stripFields fs) =
      (fs.map fun f => (f.1, written f.2)).filter fun f => f.2 ≠ .null := by
  induction fs with
  | nil => rfl
  | cons f fs ih =>
    obtain ⟨k, x⟩ := f
    rw [stripFields, List.map_cons]
    by_cases hx : x = .null
    · rw [if_pos hx, ih, List.filter_cons_of_neg (by simp [written_eq_null, hx])]
    · rw [if_neg hx, Json.canonFields, ih, List.filter_cons_of_pos (by simp [written_eq_null, hx])]
      rfl

/-- Fields that are written alike make objects that are written alike. -/
theorem writtenFields_congr {fs gs : List (String × Json)}
    (h : fs.map (fun f => (f.1, written f.2)) = gs.map fun f => (f.1, written f.2)) :
    writtenFields fs = writtenFields gs := by
  rw [writtenFields, writtenFields, canonFields_stripFields, canonFields_stripFields, h]

theorem writtenFields_writtenFields (fs : List (String × Json)) :
    writtenFields (writtenFields fs) = writtenFields fs := by
  have hobj := written_written (.obj fs)
  rw [written_obj, written_obj] at hobj
  exact Json.obj.inj hobj

/-! ## Claims read back -/

def CapabilityScope.carried (s : CapabilityScope) : CapabilityScope where
  env := s.env.map written
  services := s.services.map written
  repos := s.repos.map written
  createForOwner := written s.createForOwner
  chatRoomId := written s.chatRoomId
  targetUserId := written s.targetUserId
  pairingCode := written s.pairingCode
  payloadSha256 := written s.payloadSha256

def CapabilityLimits.carried (l : CapabilityLimits) : CapabilityLimits where
  perHour := writtenFields l.perHour
  perDay := writtenFields l.perDay
  perSession := writtenFields l.perSession

def CapabilityClause.carried (cap : CapabilityClause) : CapabilityClause where
  tier := written cap.tier
  registryVersion := written cap.registryVersion
  groups := cap.groups.map written
  scope := cap.scope.carried
  allowActions := cap.allowActions.map written
  denyActions := cap.denyActions.map written
  limits := cap.limits.carried

/-- The claims as the payload carries them. -/
def CapabilityClaims.carried (c : CapabilityClaims) : CapabilityClaims where
  iss := written c.iss
  sub := written c.sub
  aud := c.aud.map written
  iat := c.iat
  nbf := c.nbf
  exp := c.exp
  jti := written c.jti
  cap := c.cap.carried
  purpose := written c.purpose
  parentCap := written c.parentCap
  maxUses := written c.maxUses
  parentProfile := written c.parentProfile

section
variable (c : CapabilityClaims)

theorem map_written_map (xs : List Json) : (xs.map written).map written = xs.map written := by
  rw [List.map_map]
  exact List.map_congr_left fun x _ => written_written x

theorem written_scope_carried (s : CapabilityScope) :
    written (.obj (scopeFields s.carried)) = written (.obj (scopeFields s)) := by
  rw [written_obj, written_obj, writtenFields_congr]
  simp only [scopeFields, CapabilityScope.carried, List.map_cons, List.map_nil, written_arr,
    map_written_map, written_written]

theorem written_limits_carried (l : CapabilityLimits) :
    written (.obj (limitFields l.carried)) = written (.obj (limitFields l)) := by
  rw [written_obj, written_obj, writtenFields_congr]
  simp only [limitFields, CapabilityLimits.carried, List.map_cons, List.map_nil,
    written_obj, writtenFields_writtenFields]

theorem written_cap_carried (cap : CapabilityClause) :
    written (.obj (capFields cap.carried)) = written (.obj (capFields cap)) := by
  rw [written_obj, written_obj, writtenFields_congr]
  simp only [capFields, CapabilityClause.carried, List.map_cons, List.map_nil, written_arr,
    map_written_map, written_written, written_scope_carried, written_limits_carried]

/-- What is read back is written as it was. -/
theorem writtenFields_carried :
    writtenFields (claimFields c.carried) = writtenFields (claimFields c) := by
  rw [writtenFields_congr]
  simp only [claimFields, CapabilityClaims.carried, List.map_cons, List.map_nil, written_arr,
    map_written_map, written_written, written_cap_carried]

end

section
variable {fs : List (String × Json)} {k : String} {xs : List Json}

theorem listAt_carried (hfs : (fs.map Prod.fst).Nodup) (hk : fs.lookup k = some (.arr xs)) :
    listAt (.obj (writtenFields fs)) k = .ok (xs.map written) := by
  have hlist := getOr_written hfs hk nofun (.arr [])
  rw [written_arr] at hlist
  exact Except.bind_eq_ok.mpr ⟨_, hlist, rfl⟩

variable (cap : CapabilityClause)

theorem innerList_carried (hk : (scopeFields cap.scope).lookup k = some (.arr xs)) :
    innerList (.obj (writtenFields (capFields cap))) "scope" k = .ok (xs.map written) :=
  Except.bind_eq_ok.mpr ⟨_, getOr_scope cap, listAt_carried (nodup_scopeFields _) hk⟩

theorem innerGet_carried {x : Json} (hk : (scopeFields cap.scope).lookup k = some x) :
    innerGet (.obj (writtenFields (capFields cap))) "scope" k = .ok (written x) :=
  Except.bind_eq_ok.mpr ⟨_, getOr_scope cap, get_written (nodup_scopeFields cap.scope) hk⟩

theorem innerDict_carried {d : List (String × Json)}
    (hk : (limitFields cap.limits).lookup k = some (.obj d)) :
    innerDict (.obj (writtenFields (capFields cap))) "limits" k = .ok (writtenFields d) := by
  have hmap := getOr_written (nodup_limitFields cap.limits) hk nofun (.obj [])
  rw [written_obj] at hmap
  exact Except.bind_eq_ok.mpr ⟨_, getOr_limits cap, Except.bind_eq_ok.mpr ⟨_, hmap, rfl⟩⟩

theorem getItem_null (hfs : (fs.map Prod.fst).Nodup) (hk : fs.lookup k = some .null) :
    (Json.obj (writtenFields fs)).getItem k = .error .keyError := by
  simp [Json.getItem, Json.field?, lookup_writtenFields hfs, hk]

/-- The clause is read back as the payload carries it, or not at all. -/
theorem dictToClause_carried {clause : CapabilityClause}
    (h : dictToClause (.obj (writtenFields (capFields cap))) = .ok clause) :
    clause = cap.carried := by
  have hcap := nodup_capFields cap
  by_cases htier : cap.tier = .null
  · rw [dictToClause, getItem_null hcap (by rw [← htier]; rfl)] at h
    cases h
  by_cases hversion : cap.registryVersion = .null
  · rw [dictToClause, getItem_written hcap (x := cap.tier) rfl htier, ok_bind,
      getItem_null hcap (by rw [← hversion]; rfl)] at h
    cases h
  have hread : dictToClause (.obj (writtenFields (capFields cap))) = .ok cap.carried := by
    simp only [dictToClause, Except.bind_eq_ok]
    exact ⟨_, getItem_written hcap rfl htier, _, getItem_written hcap rfl hversion,
      _, listAt_carried hcap rfl,
      _, innerList_carried cap rfl, _, innerList_carried cap rfl, _, innerList_carried cap rfl,
      _, innerGet_carried cap rfl, _, innerGet_carried cap rfl, _, innerGet_carried cap rfl,
      _, innerGet_carried cap rfl, _, innerGet_carried cap rfl,
      _, listAt_carried hcap rfl, _, listAt_carried hcap rfl,
      _, innerDict_carried cap rfl, _, innerDict_carried cap rfl, _, innerDict_carried cap rfl, rfl⟩
  exact Except.ok.inj (h.symm.trans hread)

end

/-! ## Another window -/

/-- The fields of a payload with their window set. -/
def windowed (now ttl : ℤ) (fields : List (String × Json)) : List (String × Json) :=
  setItem "exp" (.int (now + ttl)) (setItem "nbf" (.int now) (setItem "iat" (.int now) fields))

/-- The claims that a window stands for. -/
def windowClaims : List String := ["iat", "nbf", "exp"]

theorem lookup_windowed {now ttl : ℤ} {fields : List (String × Json)} {k : String}
    (hk : k ∉ windowClaims) : (windowed now ttl fields).lookup k = fields.lookup k := by
  simp only [windowClaims, List.mem_cons, List.not_mem_nil, or_false, not_or] at hk
  rw [windowed, lookup_setItem_of_ne hk.2.2, lookup_setItem_of_ne hk.2.1, lookup_setItem_of_ne hk.1]

section
variable {c c' : CapabilityClaims} {now ttl : ℤ}

theorem lookup_claimFields_window {k : String} (hk : k ∉ windowClaims) :
    (claimFields { c with iat := now, nbf := now, exp := now + ttl }).lookup k =
      (claimFields c).lookup k := by
  simp only [windowClaims, List.mem_cons, List.not_mem_nil, or_false, not_or] at hk
  have hiat : (k == "iat") = false := by simpa using hk.1
  have hnbf : (k == "nbf") = false := by simpa using hk.2.1
  have hexp : (k == "exp") = false := by simpa using hk.2.2
  simp only [claimFields, List.lookup_cons, hiat, hnbf, hexp]

/-- A payload whose window was set is read back as it carries the claims, or not at all. -/
theorem dictToClaims_windowed
    (h : dictToClaims (.obj (windowed now ttl (writtenFields (claimFields c)))) = .ok c') :
    c' = { c.carried with iat := now, nbf := now, exp := now + ttl } := by
  have hclaims := nodup_claimFields c
  have hlookup : ∀ k, k ∉ windowClaims →
      (windowed now ttl (writtenFields (claimFields c))).lookup k =
        (writtenFields (claimFields c)).lookup k := fun k => lookup_windowed
  have hitem : ∀ k, k ∉ windowClaims →
      (Json.obj (windowed now ttl (writtenFields (claimFields c)))).getItem k =
        (Json.obj (writtenFields (claimFields c))).getItem k := by
    intro k hk
    rw [Json.getItem_obj, Json.getItem_obj, hlookup k hk]
  have hget : ∀ k x, k ∉ windowClaims → (claimFields c).lookup k = some x →
      (Json.obj (windowed now ttl (writtenFields (claimFields c)))).get k = .ok (written x) := by
    intro k x hk hx
    rw [← get_written hclaims hx, Json.get_obj, Json.get_obj, hlookup k hk]
  have hcap : (Json.obj (windowed now ttl (writtenFields (claimFields c)))).getItem "cap" =
      .ok (.obj (writtenFields (capFields c.cap))) := by
    rw [hitem "cap" (by decide), ← written_obj (capFields c.cap)]
    exact getItem_written hclaims rfl (by simp)
  have haud : (Json.obj (windowed now ttl (writtenFields (claimFields c)))).getItem "aud" =
      .ok (.arr (c.aud.map written)) := by
    rw [hitem "aud" (by decide), getItem_written hclaims rfl (by simp), written_arr]
  have hiat : (Json.obj (windowed now ttl (writtenFields (claimFields c)))).getItem "iat" =
      .ok (.int now) := by
    rw [Json.getItem_obj, windowed, lookup_setItem_of_ne (by decide),
      lookup_setItem_of_ne (by decide), lookup_setItem_self]
  have hnbf : (Json.obj (windowed now ttl (writtenFields (claimFields c)))).getItem "nbf" =
      .ok (.int now) := by
    rw [Json.getItem_obj, windowed, lookup_setItem_of_ne (by decide), lookup_setItem_self]
  have hexp : (Json.obj (windowed now ttl (writtenFields (claimFields c)))).getItem "exp" =
      .ok (.int (now + ttl)) := by
    rw [Json.getItem_obj, windowed, lookup_setItem_self]
  obtain ⟨hrequired, hclause⟩ : (∀ name ∈ requiredClaims,
      name ∈ (windowed now ttl (writtenFields (claimFields c))).map Prod.fst) ∧
        dictToClause (.obj (writtenFields (capFields c.cap))) = .ok c.cap.carried := by
    simp only [dictToClaims, hcap, Except.bind_eq_ok, ensure_eq_ok] at h
    obtain ⟨-, hrequired, -, ⟨⟩, clause, hclause, -⟩ := h
    exact ⟨hrequired, (dictToClause_carried c.cap hclause) ▸ hclause⟩
  -- what is required is there, so it is not `None`
  have hthere : ∀ k x, k ∈ requiredClaims → k ∉ windowClaims → (claimFields c).lookup k = some x →
      (Json.obj (windowed now ttl (writtenFields (claimFields c)))).getItem k = .ok (written x) := by
    intro k x hk hwindow hx
    rw [hitem k hwindow]
    refine getItem_written hclaims hx ?_
    rintro rfl
    have habsent : (writtenFields (claimFields c)).lookup k = none := by
      rw [lookup_writtenFields hclaims, hx]
      rfl
    rw [← hlookup k hwindow, List.lookup_eq_none_iff] at habsent
    obtain ⟨f, hf, hfk⟩ := List.mem_map.mp (hrequired k hk)
    have hne := habsent f hf
    rw [hfk] at hne
    simp at hne
  have hread : dictToClaims (.obj (windowed now ttl (writtenFields (claimFields c)))) =
      .ok { c.carried with iat := now, nbf := now, exp := now + ttl } := by
    simp only [dictToClaims, Except.bind_eq_ok, ensure_eq_ok]
    exact ⟨(), hrequired, _, hcap, _, hclause,
      _, hthere "iss" _ (by decide) (by decide) rfl, _, hthere "sub" _ (by decide) (by decide) rfl,
      _, haud, _, rfl, _, hiat, _, rfl, _, hnbf, _, rfl, _, hexp, _, rfl,
      _, hthere "jti" _ (by decide) (by decide) rfl,
      _, hthere "purpose" _ (by decide) (by decide) rfl,
      _, hget "parent_cap" _ (by decide) rfl, _, hget "max_uses" _ (by decide) rfl,
      _, hget "parent_profile" _ (by decide) rfl, rfl⟩
  exact Except.ok.inj (h.symm.trans hread)

/-- Every claim but the window is written as it was. -/
theorem lookup_rewritten {k : String} (hk : k ∉ windowClaims) :
    (writtenFields (claimFields { c.carried with iat := now, nbf := now, exp := now + ttl })).lookup k =
      (writtenFields (claimFields c)).lookup k := by
  rw [lookup_writtenFields (nodup_claimFields _), lookup_claimFields_window hk,
    ← lookup_writtenFields (nodup_claimFields _), writtenFields_carried]

end

/-! ## Claims of a body that `json.loads` gave -/

section
variable {x v : Json} {k : String} {fs : List (String × Json)}

theorem proper_lookup (h : Json.ProperFields fs) (hk : fs.lookup k = some v) : Json.Proper v := by
  obtain ⟨before, after, rfl, -⟩ := List.lookup_eq_some_iff.mp hk
  exact Json.properFields_iff.mp h (k, v) (by simp)

theorem proper_getD {d : Json} (h : Json.ProperFields fs) (hd : Json.Proper d) :
    Json.Proper ((fs.lookup k).getD d) := by
  cases hk : fs.lookup k with
  | none => exact hd
  | some v => exact proper_lookup h hk

theorem proper_getItem (h : Json.Proper x) (hv : x.getItem k = .ok v) : Json.Proper v := by
  cases x with
  | obj fs =>
    rw [Json.getItem_obj] at hv
    cases hk : fs.lookup k with
    | none =>
      rw [hk] at hv
      cases hv
    | some v' =>
      rw [hk] at hv
      obtain rfl := Except.ok.inj hv
      exact proper_lookup h.2 hk
  | _ => cases hv

theorem proper_getOr {d : Json} (h : Json.Proper x) (hd : Json.Proper d)
    (hv : x.getOr k d = .ok v) : Json.Proper v := by
  cases x with
  | obj fs =>
    obtain rfl := Except.ok.inj hv
    exact proper_getD h.2 hd
  | _ => cases hv

theorem proper_get (h : Json.Proper x) (hv : x.get k = .ok v) : Json.Proper v := by
  cases x with
  | obj fs =>
    obtain rfl := Except.ok.inj hv
    exact proper_getD h.2 trivial
  | _ => cases hv

theorem proper_emptyArr : Json.Proper (.arr []) := trivial

theorem proper_emptyObj : Json.Proper (.obj []) := ⟨List.nodup_nil, trivial⟩

theorem properElements_iff {xs : List Json} : Json.ProperElements xs ↔ ∀ x ∈ xs, Json.Proper x := by
  induction xs with
  | nil => simp [Json.ProperElements]
  | cons x xs ih => simp [Json.ProperElements, ih]

theorem proper_listOf {xs : List Json} (h : Json.Proper x) (hxs : listOf x = .ok xs) :
    Json.ProperElements xs := by
  cases x with
  | arr ys =>
    obtain rfl := Except.ok.inj hxs
    exact h
  | str s =>
    obtain rfl := Except.ok.inj hxs
    refine properElements_iff.mpr fun y hy => ?_
    obtain ⟨ch, -, rfl⟩ := List.mem_map.mp hy
    trivial
  | obj fs =>
    obtain rfl := Except.ok.inj hxs
    refine properElements_iff.mpr fun y hy => ?_
    obtain ⟨f, -, rfl⟩ := List.mem_map.mp hy
    trivial
  | _ => cases hxs

theorem proper_pairOf {p : String × Json} (h : Json.Proper x) (hp : pairOf x = .ok p) :
    Json.Proper p.2 := by
  unfold pairOf at hp
  split at hp
  · obtain rfl := Except.ok.inj hp
    exact h.2.1
  · cases hp
  · cases hp
  · split at hp
    · obtain rfl := Except.ok.inj hp
      trivial
    · cases hp
  · obtain rfl := Except.ok.inj hp
    trivial
  · cases hp
  · cases hp

theorem mem_setItem {κ ν : Type} [DecidableEq κ] {key : κ} {value : ν} {items : List (κ × ν)}
    {f : κ × ν} (h : f ∈ setItem key value items) : f = (key, value) ∨ f ∈ items := by
  induction items with
  | nil => exact .inl (List.mem_singleton.mp h)
  | cons g items ih =>
    obtain ⟨key', value'⟩ := g
    unfold setItem at h
    split_ifs at h with hkey
    · rcases List.mem_cons.mp h with h | h
      · exact .inl h
      · exact .inr (List.mem_cons_of_mem _ h)
    · rcases List.mem_cons.mp h with h | h
      · exact .inr (h ▸ List.mem_cons_self)
      · exact (ih h).imp_right (List.mem_cons_of_mem _)

theorem proper_foldl_setItem {ps d : List (String × Json)} (hps : ∀ p ∈ ps, Json.Proper p.2)
    (hnodup : (d.map Prod.fst).Nodup) (hd : ∀ f ∈ d, Json.Proper f.2) :
    Json.Proper (.obj (ps.foldl (fun d p => setItem p.1 p.2 d) d)) := by
  induction ps generalizing d with
  | nil => exact ⟨hnodup, Json.properFields_iff.mpr hd⟩
  | cons p ps ih =>
    obtain ⟨hp, hps⟩ := List.forall_mem_cons.mp hps
    refine ih hps (nodup_setItem _ _ hnodup) fun f hf => ?_
    rcases mem_setItem hf with rfl | hf
    · exact hp
    · exact hd f hf

theorem exists_of_mem_mapM {ε α β : Type} {f : α → Except ε β} {xs : List α} {ys : List β} {y : β}
    (h : xs.mapM f = .ok ys) (hy : y ∈ ys) : ∃ x ∈ xs, f x = .ok y := by
  induction xs generalizing ys with
  | nil =>
    obtain rfl := Except.pure_eq_ok.mp h
    cases hy
  | cons x xs ih =>
    rw [List.mapM_cons] at h
    obtain ⟨z, hz, h⟩ := Except.bind_eq_ok.mp h
    obtain ⟨zs, hzs, h⟩ := Except.bind_eq_ok.mp h
    obtain rfl := Except.pure_eq_ok.mp h
    rcases List.mem_cons.mp hy with rfl | hy
    · exact ⟨x, List.mem_cons_self, hz⟩
    · obtain ⟨x', hx', hy⟩ := ih hzs hy
      exact ⟨x', List.mem_cons_of_mem _ hx', hy⟩

theorem proper_dictOf (h : Json.Proper x) (hd : dictOf x = .ok fs) : Json.Proper (.obj fs) := by
  cases x with
  | obj gs =>
    obtain rfl := Except.ok.inj hd
    exact h
  | arr xs =>
    obtain ⟨pairs, hpairs, hfs⟩ := Except.bind_eq_ok.mp hd
    obtain rfl := Except.pure_eq_ok.mp hfs
    refine proper_foldl_setItem (fun p hp => ?_) List.nodup_nil nofun
    obtain ⟨y, hy, hyp⟩ := exists_of_mem_mapM hpairs hp
    exact proper_pairOf (properElements_iff.mp h y hy) hyp
  | str s =>
    simp only [dictOf] at hd
    split_ifs at hd
    obtain rfl := Except.ok.inj hd
    exact ⟨List.nodup_nil, trivial⟩
  | _ => cases hd

end

section
variable {cap raw : Json} {k outer : String}

theorem proper_listAt {xs : List Json} (h : Json.Proper cap) (hxs : listAt cap k = .ok xs) :
    Json.ProperElements xs := by
  obtain ⟨v, hv, hxs⟩ := Except.bind_eq_ok.mp hxs
  exact proper_listOf (proper_getOr h proper_emptyArr hv) hxs

theorem proper_innerList {xs : List Json} (h : Json.Proper cap)
    (hxs : innerList cap outer k = .ok xs) : Json.ProperElements xs := by
  obtain ⟨v, hv, hxs⟩ := Except.bind_eq_ok.mp hxs
  exact proper_listAt (proper_getOr h proper_emptyObj hv) hxs

theorem proper_innerGet {v : Json} (h : Json.Proper cap) (hv : innerGet cap outer k = .ok v) :
    Json.Proper v := by
  obtain ⟨w, hw, hv⟩ := Except.bind_eq_ok.mp hv
  exact proper_get (proper_getOr h proper_emptyObj hw) hv

theorem proper_innerDict {d : List (String × Json)} (h : Json.Proper cap)
    (hd : innerDict cap outer k = .ok d) : Json.Proper (.obj d) := by
  obtain ⟨v, hv, hd⟩ := Except.bind_eq_ok.mp hd
  obtain ⟨w, hw, hd⟩ := Except.bind_eq_ok.mp hd
  exact proper_dictOf (proper_getOr (proper_getOr h proper_emptyObj hv)
    proper_emptyObj hw) hd

theorem proper_dictToClause {clause : CapabilityClause} (h : Json.Proper cap)
    (hc : dictToClause cap = .ok clause) : Json.Proper (.obj (capFields clause)) := by
  simp only [dictToClause, Except.bind_eq_ok] at hc
  obtain ⟨tier, htier, version, hversion, groups, hgroups, env, henv, services, hservices, repos,
    hrepos, owner, howner, room, hroom, user, huser, code, hcode, sha, hsha, allow, hallow, deny,
    hdeny, hour, hhour, day, hday, session, hsession, hpure⟩ := hc
  obtain rfl := Except.pure_eq_ok.mp hpure
  have hscope : Json.Proper (.obj (scopeFields
      ⟨env, services, repos, owner, room, user, code, sha⟩)) :=
    ⟨nodup_scopeFields _, proper_innerList h henv, proper_innerList h hservices,
      proper_innerList h hrepos, proper_innerGet h howner, proper_innerGet h hroom,
      proper_innerGet h huser, proper_innerGet h hcode, proper_innerGet h hsha, trivial⟩
  have hlimits : Json.Proper (.obj (limitFields ⟨hour, day, session⟩)) :=
    ⟨nodup_limitFields _, proper_innerDict h hhour, proper_innerDict h hday,
      proper_innerDict h hsession, trivial⟩
  exact ⟨nodup_capFields _, proper_getItem h htier, proper_getItem h hversion,
    proper_listAt h hgroups, hscope, proper_listAt h hallow, proper_listAt h hdeny, hlimits, trivial⟩

/-- The claims of a body that `json.loads` gave can be written. -/
theorem proper_dictToClaims {c : CapabilityClaims} (h : Json.Proper raw)
    (hc : dictToClaims raw = .ok c) : Json.Proper c.asdict := by
  cases raw with
  | obj fields =>
    simp only [dictToClaims, Except.bind_eq_ok] at hc
    obtain ⟨-, -, cap, hcap, clause, hclause, iss, hiss, sub, hsub, aud, haud, auds, hauds, iat, -,
      iat', -, nbf, -, nbf', -, exp, -, exp', -, jti, hjti, purpose, hpurpose, parentCap, hparentCap,
      maxUses, hmaxUses, parentProfile, hparentProfile, hpure⟩ := hc
    obtain rfl := Except.pure_eq_ok.mp hpure
    exact ⟨nodup_claimFields _, proper_getItem h hiss, proper_getItem h hsub,
      proper_listOf (proper_getItem h haud) hauds, trivial, trivial, trivial, proper_getItem h hjti,
      proper_dictToClause (proper_getItem h hcap) hclause, proper_getItem h hpurpose,
      proper_get h hparentCap, proper_get h hmaxUses, proper_get h hparentProfile, trivial⟩
  | _ => cases hc

theorem proper_written {x : Json} (h : Json.Proper x) : Json.Proper (written x) :=
  (proper_stripNone h).canon

theorem properElements_written {xs : List Json} (h : Json.ProperElements xs) :
    Json.ProperElements (xs.map written) := by
  refine properElements_iff.mpr fun y hy => ?_
  obtain ⟨x, hx, rfl⟩ := List.mem_map.mp hy
  exact proper_written (properElements_iff.mp h x hx)

theorem proper_writtenFields {d : List (String × Json)} (h : Json.Proper (.obj d)) :
    Json.Proper (.obj (writtenFields d)) := by
  rw [← written_obj]
  exact proper_written h

/-- What a payload carries can be written again, with any window. -/
theorem proper_rewritten {c : CapabilityClaims} (now ttl : ℤ) (h : Json.Proper c.asdict) :
    Json.Proper
      { c.carried with iat := now, nbf := now, exp := now + ttl : CapabilityClaims }.asdict := by
  obtain ⟨-, hiss, hsub, haud, -, -, -, hjti, hcap, hpurpose, hparentCap, hmaxUses, hparentProfile,
    -⟩ := h
  obtain ⟨-, htier, hversion, hgroups, hscope, hallow, hdeny, hlimits, -⟩ := hcap
  obtain ⟨-, henv, hservices, hrepos, howner, hroom, huser, hcode, hsha, -⟩ := hscope
  obtain ⟨-, hhour, hday, hsession, -⟩ := hlimits
  have hscope : Json.Proper (.obj (scopeFields c.cap.scope.carried)) :=
    ⟨nodup_scopeFields _, properElements_written henv, properElements_written hservices,
      properElements_written hrepos, proper_written howner, proper_written hroom,
      proper_written huser, proper_written hcode, proper_written hsha, trivial⟩
  have hlimits : Json.Proper (.obj (limitFields c.cap.limits.carried)) :=
    ⟨nodup_limitFields _, proper_writtenFields hhour, proper_writtenFields hday,
      proper_writtenFields hsession, trivial⟩
  have hcap : Json.Proper (.obj (capFields c.cap.carried)) :=
    ⟨nodup_capFields _, proper_written htier, proper_written hversion,
      properElements_written hgroups, hscope, properElements_written hallow,
      properElements_written hdeny, hlimits, trivial⟩
  exact ⟨nodup_claimFields _, proper_written hiss, proper_written hsub, properElements_written haud,
    trivial, trivial, trivial, proper_written hjti, hcap, proper_written hpurpose,
    proper_written hparentCap, proper_written hmaxUses, proper_written hparentProfile, trivial⟩

end

end Capability
end Recto
