import Recto.Capability.ReadBack
import Recto.Data.Lockstep
import Recto.Profiles.Fields
import Recto.Profiles.Stored

/-!
# What is saved is read back

`_master_identity_to_dict` and `save_master_identity`. Every identity that the
operations lead to is loaded again as it was saved, and any other content of
the file is read or set aside, except where the parser stops at one of the
interpreter's limits or an infinite float is converted to an integer.
-/

namespace Recto
namespace Profiles
namespace Stored

variable {py : Interpreter}

/-! ## `save_master_identity` -/

/-- A text, or `None`. -/
def strOrNull : Option String → Json
  | none => .null
  | some s => .str s

def derivationFields (d : ProfileDerivationPath) : List (String × Json) :=
  [("purpose", .int d.purpose), ("profile_coin_type", .int d.profileCoinType),
    ("profile_index", .int d.profileIndex)]

/-- `_profile_to_dict`: three fields are left out at their defaults. -/
def profileFields (p : Profile) : List (String × Json) :=
  [("profile_id", .str p.profileId), ("kind", .str p.kind), ("display_name", .str p.displayName),
    ("derivation", .obj (derivationFields p.derivation)),
    ("parent_profile_id", strOrNull p.parentProfileId), ("theme_hint", strOrNull p.themeHint),
    ("scim_provider", strOrNull p.scimProvider),
    ("deny_actions_inherited", .arr (p.denyActionsInherited.map .str)),
    ("created_at_unix", .int p.createdAtUnix), ("revoked", .bool p.revoked)] ++
  ((p.derivedPubkeyHex.map fun key => ("derived_pubkey_hex", Json.str key)).toList ++
    ((if p.deviceIds = [] then [] else [("device_ids", Json.arr (p.deviceIds.map .str))]) ++
      if p.revokeQuorumK = 1 then [] else [("revoke_quorum_k", Json.int p.revokeQuorumK)]))

/-- `_master_identity_to_dict` -/
def identityFields (mi : MasterIdentity) : List (String × Json) :=
  [("schema_version", .int 1), ("master_pubkey_hex", .str mi.masterPubkeyHex),
    ("master_profile_id", .str mi.masterProfileId), ("label", strOrNull mi.label),
    ("profiles", .arr (mi.profiles.map fun p => .obj (profileFields p)))]

/-- The bytes `save_master_identity` writes. -/
def saveMasterIdentity (mi : MasterIdentity) : Except PyError Bytes := do
  pure (encodeUtf8 (← Json.dumpsIndented (.obj (identityFields mi))))

/-- The profile as it is read from the file. -/
def stored (p : Profile) : StoredProfile where
  profileId := p.profileId
  kind := p.kind
  displayName := p.displayName
  derivation := p.derivation
  parentProfileId := strOrNull p.parentProfileId
  themeHint := strOrNull p.themeHint
  scimProvider := strOrNull p.scimProvider
  denyActionsInherited := p.denyActionsInherited
  createdAtUnix := p.createdAtUnix
  revoked := p.revoked
  derivedPubkeyHex := p.derivedPubkeyHex
  deviceIds := p.deviceIds
  revokeQuorumK := p.revokeQuorumK

/-- The identity as it is read from the file. -/
def storedIdentity (mi : MasterIdentity) : StoredIdentity where
  masterPubkeyHex := mi.masterPubkeyHex
  masterProfileId := mi.masterProfileId
  profiles := mi.profiles.map stored
  label := mi.label

/-! ## Reading it back -/

section
variable {p : Profile} {mi : MasterIdentity}

theorem canon_strOrNull (s : Option String) : Json.canon (strOrNull s) = strOrNull s := by
  cases s <;> rfl

theorem nodup_profileFields (p : Profile) : ((profileFields p).map Prod.fst).Nodup := by
  unfold profileFields
  cases p.derivedPubkeyHex <;> split_ifs <;> simp

theorem nodup_identityFields (mi : MasterIdentity) : ((identityFields mi).map Prod.fst).Nodup := by
  simp [identityFields]

theorem nodup_derivationFields (d : ProfileDerivationPath) :
    ((derivationFields d).map Prod.fst).Nodup := by
  simp [derivationFields]

/-- The fields of an object after they are written and read. -/
def written (fields : List (String × Json)) : List (String × Json) :=
  Json.sortFields (Json.canonFields fields)

theorem derivationFromDict_written (d : ProfileDerivationPath) :
    derivationFromDict py (.obj (written (derivationFields d))) = .ok d := by
  have hlookup := Json.lookup_sortFields_canonFields (nodup_derivationFields d)
  have hat : ∀ name n, (derivationFields d).lookup name = some (.int n) →
      intAt py (written (derivationFields d)) name = .ok n := by
    intro name n h
    rw [intAt, getItem_eq_ok.mpr (by rw [written, hlookup, h]; rfl)]
    rfl
  rw [derivationFromDict, hat "purpose" _ rfl, hat "profile_coin_type" _ rfl,
    hat "profile_index" _ rfl]
  rfl

theorem mapM_readDeviceId {ids : List String} (h : ∀ id ∈ ids, id ≠ "") :
    (ids.map Json.str).mapM readDeviceId = .ok ids := by
  induction ids with
  | nil => rfl
  | cons id ids ih =>
    obtain ⟨hid, hids⟩ := List.forall_mem_cons.mp h
    rw [List.map_cons, List.mapM_cons, ih hids, readDeviceId, if_neg hid]
    rfl

theorem rowFromDict_written (h : p.Readable) (d : ProfileDerivationPath) :
    rowFromDict py (written (profileFields p)) d =
      .ok { stored p with derivation := d, createdAtUnix := 0 } := by
  have hlookup : ∀ name, (written (profileFields p)).lookup name =
      ((profileFields p).lookup name).map Json.canon :=
    Json.lookup_sortFields_canonFields (nodup_profileFields p)
  obtain ⟨hkey, hquorum, hids⟩ := h
  have hfield : ∀ name fallback, fieldOr (written (profileFields p)) name fallback =
      (((profileFields p).lookup name).map Json.canon).getD fallback := by
    intro name fallback
    rw [fieldOr, hlookup]
  have hstr : ∀ name s, (profileFields p).lookup name = some (.str s) →
      strAt py (written (profileFields p)) name = .ok s := by
    intro name s hname
    rw [strAt, getItem_eq_ok.mpr (by rw [hlookup, hname]; rfl)]
    rfl
  have hpubkey : readDerivedPubkey (fieldOr (written (profileFields p)) "derived_pubkey_hex" .null) =
      .ok p.derivedPubkeyHex := by
    rw [hfield]
    cases hp : p.derivedPubkeyHex with
    | none =>
      simp only [profileFields, hp]
      split_ifs <;> rfl
    | some key =>
      obtain ⟨hlength, hhex⟩ := hkey key (by rw [hp]; rfl)
      have hread : readDerivedPubkey (.str key) = .ok (some key) := by
        rw [readDerivedPubkey, ensure, if_pos hlength, ensure, if_pos hhex]
        rfl
      rw [← hread]
      simp only [profileFields, hp]
      rfl
  have hk : readRevokeQuorum (fieldOr (written (profileFields p)) "revoke_quorum_k" (.int 1)) =
      .ok p.revokeQuorumK := by
    have hread : readRevokeQuorum (.int p.revokeQuorumK) = .ok p.revokeQuorumK := by
      rw [readRevokeQuorum, if_neg (by omega)]
    rw [hfield, ← hread]
    by_cases hone : p.revokeQuorumK = 1
    · simp only [profileFields, hone, if_true]
      cases p.derivedPubkeyHex <;> split_ifs <;> rfl
    · simp only [profileFields, hone, if_false]
      cases p.derivedPubkeyHex <;> split_ifs <;> rfl
  have hdevices : listOr .typeError (fieldOr (written (profileFields p)) "device_ids" (.arr [])) =
      .ok (p.deviceIds.map .str) := by
    rw [hfield]
    by_cases hnil : p.deviceIds = []
    · simp only [profileFields, hnil, if_true]
      cases p.derivedPubkeyHex <;> split_ifs <;> rfl
    · simp only [profileFields, hnil, if_false]
      cases p.derivedPubkeyHex <;>
        exact congrArg (fun xs => Except.ok xs) (Json.canonElements_strs p.deviceIds)
  have hdeny : fieldOr (written (profileFields p)) "deny_actions_inherited" (.arr []) =
      .arr (p.denyActionsInherited.map .str) := by
    rw [hfield]
    exact congrArg Json.arr (Json.canonElements_strs p.denyActionsInherited)
  have hparent : fieldOr (written (profileFields p)) "parent_profile_id" .null =
      strOrNull p.parentProfileId := (hfield _ _).trans (canon_strOrNull _)
  have htheme : fieldOr (written (profileFields p)) "theme_hint" .null =
      strOrNull p.themeHint := (hfield _ _).trans (canon_strOrNull _)
  have hscim : fieldOr (written (profileFields p)) "scim_provider" .null =
      strOrNull p.scimProvider := (hfield _ _).trans (canon_strOrNull _)
  have hrevoked : fieldOr (written (profileFields p)) "revoked" (.bool false) = .bool p.revoked :=
    hfield _ _
  rw [rowFromDict, hdeny, hpubkey, hk, hdevices, hstr "profile_id" _ rfl, hstr "kind" _ rfl,
    hstr "display_name" _ rfl, hparent, htheme, hscim, hrevoked]
  simp only [listOr, ok_bind, mapM_readDeviceId hids, List.map_map, Function.comp_def,
    Json.pyStr_str, List.map_id', Json.truthy]
  rfl

theorem profileFromDict_written (h : p.Readable) :
    profileFromDict py (.obj (written (profileFields p))) = .ok (stored p) := by
  have hlookup : ∀ name, (written (profileFields p)).lookup name =
      ((profileFields p).lookup name).map Json.canon :=
    Json.lookup_sortFields_canonFields (nodup_profileFields p)
  have hderivation : Json.getItem (.obj (written (profileFields p))) "derivation" =
      .ok (.obj (written (derivationFields p.derivation))) :=
    getItem_eq_ok.mpr (by rw [hlookup]; rfl)
  have hcreated : fieldOr (written (profileFields p)) "created_at_unix" (.int 0) =
      .int p.createdAtUnix := by
    rw [fieldOr, hlookup]
    rfl
  rw [profileFromDict, hderivation, ok_bind, derivationFromDict_written, ok_bind,
    rowFromDict_written h, ok_bind, hcreated]
  rfl

theorem mapM_profileFromDict {ps : List Profile} (h : ∀ p ∈ ps, p.Readable) :
    (Json.canonElements (ps.map fun p => .obj (profileFields p))).mapM (profileFromDict py) =
      .ok (ps.map stored) := by
  induction ps with
  | nil => rfl
  | cons p ps ih =>
    obtain ⟨hp, hps⟩ := List.forall_mem_cons.mp h
    have hrow : profileFromDict py (Json.canon (.obj (profileFields p))) = .ok (stored p) :=
      profileFromDict_written hp
    rw [List.map_cons, Json.canonElements, List.mapM_cons, hrow, ih hps]
    rfl

theorem masterIdentityFromDict_canon (h : mi.Readable) :
    masterIdentityFromDict py (Json.canon (.obj (identityFields mi))) = .ok (storedIdentity mi) := by
  have hlookup : ∀ name, (written (identityFields mi)).lookup name =
      ((identityFields mi).lookup name).map Json.canon :=
    Json.lookup_sortFields_canonFields (nodup_identityFields mi)
  have hitem : ∀ name s, (identityFields mi).lookup name = some (.str s) →
      Json.getItem (.obj (written (identityFields mi))) name = .ok (.str s) := by
    intro name s hname
    exact getItem_eq_ok.mpr (by rw [hlookup, hname]; rfl)
  have hlabel : readLabel (fieldOr (written (identityFields mi)) "label" .null) = .ok mi.label := by
    have hfield : fieldOr (written (identityFields mi)) "label" .null = strOrNull mi.label := by
      rw [fieldOr, hlookup]
      exact canon_strOrNull mi.label
    rw [hfield]
    cases mi.label <;> rfl
  have hrows : fieldOr (written (identityFields mi)) "profiles" (.arr []) =
      .arr (Json.canonElements (mi.profiles.map fun p => .obj (profileFields p))) := by
    rw [fieldOr, hlookup]
    rfl
  have hhead : headFromDict (.obj (written (identityFields mi))) =
      .ok ({ storedIdentity mi with profiles := [] },
        Json.canonElements (mi.profiles.map fun p => .obj (profileFields p))) := by
    rw [headFromDict, hitem "master_pubkey_hex" _ rfl, hitem "master_profile_id" _ rfl, hlabel, hrows]
    simp only [ok_bind, readMasterPubkey, h.pubkey, if_true, readMasterProfileId, h.masterId,
      if_false, listOr]
    rfl
  obtain ⟨p, hp, hid⟩ := h.master
  have hne : mi.profiles.map stored ≠ [] := by
    rintro hnil
    rw [List.map_eq_nil_iff.mp hnil] at hp
    cases hp
  have hmaster : ∃ q ∈ mi.profiles.map stored, q.profileId = (storedIdentity mi).masterProfileId :=
    ⟨stored p, List.mem_map_of_mem hp, hid⟩
  change masterIdentityFromDict py (.obj (written (identityFields mi))) = _
  rw [masterIdentityFromDict, hhead, ok_bind]
  simp only [mapM_profileFromDict h.profiles, ok_bind, ensure, if_pos hne]
  rw [if_pos hmaster]
  rfl

/-- A row is nested two deep. -/
theorem nests_profileFields (p : Profile) : Json.Nests 2 (.obj (profileFields p)) := by
  have hstrs : ∀ xs : List String, Json.NestsElements 0 (xs.map .str) := by
    intro xs
    induction xs with
    | nil => trivial
    | cons x xs ih => exact ⟨trivial, ih⟩
  have hnull : ∀ s : Option String, Json.Nests 1 (strOrNull s) := by
    intro s
    cases s <;> trivial
  have hderivation : Json.Nests 1 (.obj (derivationFields p.derivation)) :=
    ⟨Nat.one_pos, nodup_derivationFields _, trivial, trivial, trivial, trivial⟩
  refine ⟨Nat.two_pos, nodup_profileFields p, Json.nestsFields_iff.mpr fun f hf => ?_⟩
  simp only [profileFields, List.mem_append, List.mem_cons, List.not_mem_nil, or_false,
    Option.mem_toList, Option.map_eq_some_iff] at hf
  rcases hf with (rfl | rfl | rfl | rfl | rfl | rfl | rfl | rfl | rfl | rfl) | hf | hf | hf
  · trivial
  · trivial
  · trivial
  · exact hderivation
  · exact hnull _
  · exact hnull _
  · exact hnull _
  · exact ⟨Nat.one_pos, hstrs _⟩
  · trivial
  · trivial
  · obtain ⟨key, -, rfl⟩ := hf
    trivial
  · split_ifs at hf
    · cases hf
    · rw [List.mem_singleton.mp hf]
      exact ⟨Nat.one_pos, hstrs _⟩
  · split_ifs at hf
    · cases hf
    · rw [List.mem_singleton.mp hf]
      trivial

theorem nests_identityFields (mi : MasterIdentity) : Json.Nests 4 (.obj (identityFields mi)) := by
  have hrows : ∀ ps : List Profile, Json.NestsElements 2 (ps.map fun p => .obj (profileFields p)) := by
    intro ps
    induction ps with
    | nil => trivial
    | cons p ps ih => exact ⟨nests_profileFields p, ih⟩
  have hlabel : Json.Nests 3 (strOrNull mi.label) := by
    cases mi.label <;> trivial
  exact ⟨by norm_num, nodup_identityFields mi, trivial, trivial, trivial, hlabel,
    ⟨by norm_num, hrows _⟩, trivial⟩

end

/-! ## Damage -/

/-- An identity that `bootstrap_master` and the operations of `recto.profile.manage` lead to. A
UUID is not empty. -/
inductive Reachable : MasterIdentity → Prop
  | bootstrap {masterPubkeyHex displayName uuid : String} {label : Option String} {force : Bool}
      {now : ℤ} {loaded : Option MasterIdentity} {mi : MasterIdentity} (huuid : uuid ≠ "")
      (h : bootstrapMaster masterPubkeyHex displayName label force now uuid loaded = .ok mi) :
      Reachable mi
  | operate {mi mi' : MasterIdentity} {op : Operation} (hmi : Reachable mi)
      (h : op.saved (some mi) = some mi') : Reachable mi'

theorem Reachable.readable {mi : MasterIdentity} (h : Reachable mi) : mi.Readable := by
  induction h with
  | bootstrap huuid h =>
    simp only [bootstrapMaster, Except.bind_eq_ok, Except.pure_eq_ok] at h
    obtain ⟨cleaned, hclean, -, -, rfl⟩ := h
    obtain ⟨hlength, -⟩ := (cleanPubkey_eq_ok.mp hclean).2
    refine ⟨hlength, huuid, fun p hp => ?_, _, List.mem_singleton_self _, rfl⟩
    rw [List.mem_singleton.mp hp]
    exact ⟨by simp, le_refl 1, by simp⟩
  | operate hmi h ih => exact readable_saved ih h

/-- The content is loaded, or `None` is returned and the file is moved aside as far as the file
system lets it; nothing is raised. -/
def Survives (py : Interpreter) (raw : Bytes) : Prop :=
  ∀ renames aside,
    (∃ mi, loadMasterIdentity py renames ⟨.content raw, aside⟩ =
      (.ok (some mi), ⟨.content raw, aside⟩)) ∨
    loadMasterIdentity py renames ⟨.content raw, aside⟩ =
      (.ok none, if renames then ⟨.absent, some raw⟩ else ⟨.content raw, aside⟩)

/-- The parser stops at a limit of the interpreter: too many digits, or too deep. -/
def MeetsLimit (py : Interpreter) (raw : Bytes) : Prop :=
  ∃ text e, Capability.decodeStrict raw = some text ∧ Json.loadsWithin py.maxDepth text = .error e ∧
    e ≠ .decode

/-- The content is a document in which an infinite float is converted to an integer. -/
def ConvertsInfinity (py : Interpreter) (raw : Bytes) : Prop :=
  ∃ text document, Capability.decodeStrict raw = some text ∧
    Json.loadsWithin py.maxDepth text = .ok document ∧ InfiniteDocument py document

section
variable {raw : Bytes} {renames : Bool} {aside : Option Bytes} {mi : MasterIdentity}

theorem load_of_document {text : List Char} {document : Json}
    (htext : Capability.decodeStrict raw = some text)
    (hdocument : Json.loadsWithin py.maxDepth text = .ok document) :
    loadMasterIdentity py renames ⟨.content raw, aside⟩ =
      match masterIdentityFromDict py document with
      | .ok mi => (.ok (some mi), ⟨.content raw, aside⟩)
      | .error e =>
          if e ∈ schemaCaught then
            (.ok none, moveCorruptFileAside renames raw ⟨.content raw, aside⟩)
          else (.error e, ⟨.content raw, aside⟩) := by
  cases h : masterIdentityFromDict py document <;>
    simp only [loadMasterIdentity, htext, hdocument, h]

/-- What is saved of a readable identity is loaded again. -/
theorem load_saved (hmi : mi.Readable) (h : saveMasterIdentity mi = .ok raw) :
    loadMasterIdentity py renames ⟨.content raw, aside⟩ =
      (.ok (some (storedIdentity mi)), ⟨.content raw, aside⟩) := by
  obtain ⟨text, htext, hraw⟩ := Except.bind_eq_ok.mp h
  obtain rfl := Except.pure_eq_ok.mp hraw
  have hdecode : Capability.decodeStrict (encodeUtf8 text) = some text := by
    rw [Capability.decodeStrict, decodeUtf8_encodeUtf8, if_pos rfl]
  rw [load_of_document hdecode
    (Json.loadsWithin_dumpsIndented ((nests_identityFields mi).mono py.depth_le) htext),
    masterIdentityFromDict_canon hmi]

theorem survives_iff : Survives py raw ↔ ¬MeetsLimit py raw ∧ ¬ConvertsInfinity py raw := by
  constructor
  · intro h
    refine ⟨?_, ?_⟩
    · rintro ⟨text, e, htext, he, hne⟩
      have hload : loadMasterIdentity py false ⟨.content raw, none⟩ =
          (.error e.raised, ⟨.content raw, none⟩) := by
        cases e with
        | decode => exact absurd rfl hne
        | digits => simp only [loadMasterIdentity, htext, he]
        | recursion => simp only [loadMasterIdentity, htext, he]
      obtain ⟨mi, hmi⟩ | hmi := h false none <;> rw [hload] at hmi <;> cases hmi
    · rintro ⟨text, document, htext, hdocument, hinfinite⟩
      have hload : loadMasterIdentity py false ⟨.content raw, none⟩ = _ :=
        load_of_document htext hdocument
      rw [masterIdentityFromDict_eq_overflow.mpr hinfinite] at hload
      simp only [show PyError.overflowError ∉ schemaCaught by decide, if_false] at hload
      obtain ⟨mi, hmi⟩ | hmi := h false none <;> rw [hload] at hmi <;> cases hmi
  · rintro ⟨hlimit, hinfinite⟩ renames aside
    have haside : moveCorruptFileAside renames raw ⟨.content raw, aside⟩ =
        if renames then ⟨.absent, some raw⟩ else ⟨.content raw, aside⟩ := rfl
    cases htext : Capability.decodeStrict raw with
    | none =>
      right
      simp only [loadMasterIdentity, htext, haside]
    | some text =>
      cases hdocument : Json.loadsWithin py.maxDepth text with
      | error e =>
        right
        obtain rfl : e = .decode := by
          by_contra hne
          exact hlimit ⟨text, e, htext, hdocument, hne⟩
        simp only [loadMasterIdentity, htext, hdocument, haside]
      | ok document =>
        rw [load_of_document htext hdocument]
        cases hmi : masterIdentityFromDict py document with
        | ok mi => exact .inl ⟨mi, rfl⟩
        | error e =>
          right
          have hcaught : e ∈ schemaCaught := by
            obtain hcaught | rfl := raises_masterIdentityFromDict document e hmi
            · exact hcaught
            · exact absurd ⟨text, document, htext, hdocument,
                masterIdentityFromDict_eq_overflow.mp hmi⟩ hinfinite
          simp only [if_pos hcaught, haside]

/-- What was saved of an identity is loaded as it was; any other content is loaded or set aside
exactly where the parser meets no limit and no infinite float is converted. -/
theorem identity_file_survives_iff (py : Interpreter) :
    (∀ mi, Reachable mi → ∀ raw, saveMasterIdentity mi = .ok raw → ∀ renames aside,
      loadMasterIdentity py renames ⟨.content raw, aside⟩ =
        (.ok (some (storedIdentity mi)), ⟨.content raw, aside⟩)) ∧
      ∀ raw, Survives py raw ↔ ¬MeetsLimit py raw ∧ ¬ConvertsInfinity py raw :=
  ⟨fun _ hmi _ hraw _ _ => load_saved hmi.readable hraw, fun _ => survives_iff⟩

end

/-- CPython as it is set up by default, for texts of ASCII. -/
def cpython : Interpreter where
  printable := fun c => 32 ≤ c.toNat && c.toNat ≤ 126
  intOfText := Json.intOfString
  maxDepth := 990
  depth_le := by norm_num

def sampleKey : String := String.ofList (List.replicate 128 'a')

/-- What `bootstrap_master` makes of a key. -/
def sampleIdentity : MasterIdentity where
  masterPubkeyHex := sampleKey
  masterProfileId := "m"
  profiles :=
    [{ profileId := "m", kind := personalMaster, displayName := "Me"
       derivation := { purpose := bip32Purpose, profileCoinType := 0, profileIndex := 0 }
       createdAtUnix := 7 }]
  label := some "Me"

theorem identity_file_survives_iff_sample :
    ∃ raw, saveMasterIdentity sampleIdentity = .ok raw ∧
      loadMasterIdentity cpython true ⟨.content raw, none⟩ =
        (.ok (some (storedIdentity sampleIdentity)), ⟨.content raw, none⟩) := by
  have hbootstrap : bootstrapMaster sampleKey "Me" none false 7 "m" none = .ok sampleIdentity := by
    decide +kernel
  have hshort : Json.holdsLongInt (Json.canon (.obj (identityFields sampleIdentity))) = false := by
    decide +kernel
  have hsaved : saveMasterIdentity sampleIdentity =
      .ok (encodeUtf8 (Json.pretty 0 (Json.canon (.obj (identityFields sampleIdentity))))) := by
    rw [saveMasterIdentity, Json.dumpsIndented, hshort]
    rfl
  exact ⟨_, hsaved, (identity_file_survives_iff cpython).1 sampleIdentity
    (.bootstrap (by decide) hbootstrap) _ hsaved true none⟩

/-- A derivation whose purpose is `Infinity`. -/
def infinitePurpose : Bytes :=
  utf8 "\x7b\"master_pubkey_hex\": \"" ++ utf8 sampleKey ++
    utf8 "\", \"master_profile_id\": \"m\", \"profiles\": " ++
    utf8 "[\x7b\"derivation\": \x7b\"purpose\": Infinity\x7d\x7d]\x7d"

theorem infinitePurpose_raises :
    loadMasterIdentity cpython true ⟨.content infinitePurpose, none⟩ =
        (.error .overflowError, ⟨.content infinitePurpose, none⟩) ∧
      ¬Survives cpython infinitePurpose := by
  have hload : loadMasterIdentity cpython true ⟨.content infinitePurpose, none⟩ =
      (.error .overflowError, ⟨.content infinitePurpose, none⟩) := by
    decide +kernel
  refine ⟨hload, fun h => ?_⟩
  obtain ⟨mi, hmi⟩ | hmi := h true none <;> rw [hload] at hmi <;> cases hmi

end Stored
end Profiles
end Recto
