import Recto.Profiles.Identity

/-!
# Operations on the master identity

The four operations of `recto.profile.manage` that change `master_identity.json`.
Each loads the identity, computes, and saves at most once; here it takes what
was loaded and gives its answer and what it saves.
-/

namespace Recto
namespace Profiles

/-- What an operation answers, and the identity it saves if it saves one. -/
abbrev Outcome := Except PyError (Profile × Option MasterIdentity)

/-! ## Finding and replacing a profile -/

/-- The first profile of an id, in the place of which the new one stands. -/
def replaceProfile (profileId : String) (new : Profile) : List Profile → List Profile
  | [] => []
  | p :: ps => if p.profileId = profileId then new :: ps else p :: replaceProfile profileId new ps

namespace MasterIdentity

def find? (mi : MasterIdentity) (profileId : String) : Option Profile :=
  mi.profiles.find? fun p => p.profileId = profileId

/-- The identity with one profile replaced. -/
def withProfile (mi : MasterIdentity) (profileId : String) (new : Profile) : MasterIdentity where
  masterPubkeyHex := mi.masterPubkeyHex
  masterProfileId := mi.masterProfileId
  profiles := replaceProfile profileId new mi.profiles
  label := mi.label

end MasterIdentity

/-- The identity that must be there; without it `FileNotFoundError`. -/
def bootstrapped (loaded : Option MasterIdentity) : Except PyError MasterIdentity :=
  match loaded with
  | some mi => .ok mi
  | none => .error .osError

/-- The profile that must be there; without it `KeyError`. -/
def findProfile (mi : MasterIdentity) (profileId : String) : Except PyError Profile :=
  match mi.find? profileId with
  | some p => .ok p
  | none => .error .keyError

/-! ## create_child_profile -/

/-- `s[n:]` -/
def dropChars (n : ℕ) (s : String) : String := String.ofList ((chars s).drop n)

/-- A public key as it is stored: stripped, in lower case, without `0x` and without the SEC1
prefix. -/
def stripPubkey (hex : String) : String :=
  let cleaned := lower (strip hex)
  let cleaned := if startsWith cleaned "0x" then dropChars 2 cleaned else cleaned
  if startsWith cleaned "04" ∧ (chars cleaned).length = 130 then dropChars 2 cleaned else cleaned

/-- 128 characters that `bytes.fromhex` takes. -/
def cleanPubkey (hex : String) : Except PyError String := do
  ensure ((chars (stripPubkey hex)).length = 128) .valueError
  ensure ((fromHex (stripPubkey hex)).isSome = true) .valueError
  pure (stripPubkey hex)

/-- `bootstrap_master`: the identity with the master's own profile; `runtimeError` stands for
`MasterAlreadyBootstrappedError`. -/
def bootstrapMaster (masterPubkeyHex displayName : String) (label : Option String) (force : Bool)
    (now : ℤ) (uuid : String) (loaded : Option MasterIdentity) : Except PyError MasterIdentity := do
  let cleaned ← cleanPubkey masterPubkeyHex
  ensure (loaded = none ∨ force = true) .runtimeError
  pure
    { masterPubkeyHex := cleaned
      masterProfileId := uuid
      profiles :=
        [{ profileId := uuid
           kind := personalMaster
           displayName
           derivation := { purpose := bip32Purpose, profileCoinType := 0, profileIndex := 0 }
           createdAtUnix := now }]
      label := some (label.getD displayName) }

/-- The arguments of `create_child_profile`. -/
structure ChildArgs where
  kind : String
  displayName : String
  themeHint : Option String := none
  scimProvider : Option String := none
  denyActionsInherited : List String := []
  profileIndexOverride : Option ℤ := none
  profileIdOverride : Option String := none
  derivedPubkeyHex : Option String := none
  deviceIds : List String := []
  revokeQuorumK : ℤ := 1

/-- The first occurrence of each entry. -/
def dedupe (entries : List String) : List String :=
  entries.foldl (fun seen entry => if entry ∈ seen then seen else seen ++ [entry]) []

/-- The row that `create_child_profile` appends. -/
def childProfile (args : ChildArgs) (pubkey : Option String) (deviceIds : List String) (now : ℤ)
    (uuid : String) (mi : MasterIdentity) : Profile where
  profileId := args.profileIdOverride.getD uuid
  kind := args.kind
  displayName := strip args.displayName
  derivation :=
    { purpose := bip32Purpose
      profileCoinType := resolveCoinType args.kind
      profileIndex := args.profileIndexOverride.getD (nextProfileIndex mi (resolveCoinType args.kind)) }
  parentProfileId := some mi.masterProfileId
  themeHint := args.themeHint
  scimProvider := args.scimProvider
  denyActionsInherited := args.denyActionsInherited
  createdAtUnix := now
  derivedPubkeyHex := pubkey
  deviceIds
  revokeQuorumK := args.revokeQuorumK

/-- The identity with one more profile. -/
def MasterIdentity.append (mi : MasterIdentity) (new : Profile) : MasterIdentity where
  masterPubkeyHex := mi.masterPubkeyHex
  masterProfileId := mi.masterProfileId
  profiles := mi.profiles ++ [new]
  label := mi.label

/-- The profile of a kind and a name. -/
def MasterIdentity.named? (mi : MasterIdentity) (kind displayName : String) : Option Profile :=
  mi.profiles.find? fun p => p.kind = kind ∧ p.displayName = displayName

/-- `create_child_profile`, at the time `now` with the id `uuid4` would give. -/
def createChildProfile (args : ChildArgs) (now : ℤ) (uuid : String)
    (loaded : Option MasterIdentity) : Outcome := do
  ensure (args.kind ≠ "") .valueError
  ensure (strip args.displayName ≠ "") .valueError
  ensure (args.kind ≠ personalMaster) .valueError
  let pubkey ← args.derivedPubkeyHex.mapM cleanPubkey
  ensure (1 ≤ args.revokeQuorumK) .valueError
  ensure (∀ entry ∈ args.deviceIds, strip entry ≠ "") .valueError
  let deviceIds := dedupe (args.deviceIds.map strip)
  ensure (deviceIds = [] ∨ args.revokeQuorumK ≤ deviceIds.length) .valueError
  let mi ← bootstrapped loaded
  match mi.named? args.kind args.displayName with
  | some existing => pure (existing, none)
  | none => do
      ensure (∀ id ∈ args.profileIdOverride, ∀ p ∈ mi.profiles, p.profileId ≠ id) .valueError
      let new := childProfile args pubkey deviceIds now uuid mi
      pure (new, some (mi.append new))

/-! ## Devices and revocation -/

/-- `profile_add_device` -/
def profileAddDevice (profileId newPhoneId : String) (loaded : Option MasterIdentity) :
    Outcome := do
  ensure (strip profileId ≠ "") .valueError
  ensure (strip newPhoneId ≠ "") .valueError
  let mi ← bootstrapped loaded
  let target ← findProfile mi (strip profileId)
  ensure (target.revoked = false) .valueError
  if strip newPhoneId ∈ target.deviceIds then pure (target, none)
  else
    let updated : Profile :=
      { profileId := target.profileId
        kind := target.kind
        displayName := target.displayName
        derivation := target.derivation
        parentProfileId := target.parentProfileId
        themeHint := target.themeHint
        scimProvider := target.scimProvider
        denyActionsInherited := target.denyActionsInherited
        createdAtUnix := target.createdAtUnix
        revoked := target.revoked
        derivedPubkeyHex := target.derivedPubkeyHex
        deviceIds := target.deviceIds ++ [strip newPhoneId] }
    pure (updated, some (mi.withProfile (strip profileId) updated))

/-- `profile_revoke_device` -/
def profileRevokeDevice (profileId phoneIdToRevoke : String) (loaded : Option MasterIdentity) :
    Outcome := do
  ensure (strip profileId ≠ "") .valueError
  ensure (strip phoneIdToRevoke ≠ "") .valueError
  let mi ← bootstrapped loaded
  let target ← findProfile mi (strip profileId)
  ensure (target.revoked = false) .valueError
  if strip phoneIdToRevoke ∉ target.deviceIds then pure (target, none)
  else do
    ensure (target.deviceIds.length ≠ 1) .valueError
    let updated : Profile :=
      { profileId := target.profileId
        kind := target.kind
        displayName := target.displayName
        derivation := target.derivation
        parentProfileId := target.parentProfileId
        themeHint := target.themeHint
        scimProvider := target.scimProvider
        denyActionsInherited := target.denyActionsInherited
        createdAtUnix := target.createdAtUnix
        revoked := target.revoked
        derivedPubkeyHex := target.derivedPubkeyHex
        deviceIds := target.deviceIds.filter fun d => d ≠ strip phoneIdToRevoke
        revokeQuorumK := target.revokeQuorumK }
    pure (updated, some (mi.withProfile (strip profileId) updated))

/-- `mark_profile_revoked` -/
def markProfileRevoked (profileId : String) (loaded : Option MasterIdentity) : Outcome := do
  let mi ← bootstrapped loaded
  let target ← findProfile mi profileId
  ensure (target.profileId = mi.masterProfileId →
    ∀ p ∈ mi.profiles, p.profileId ≠ mi.masterProfileId → p.revoked = true) .valueError
  let revoked : Profile :=
    { profileId := target.profileId
      kind := target.kind
      displayName := target.displayName
      derivation := target.derivation
      parentProfileId := target.parentProfileId
      themeHint := target.themeHint
      scimProvider := target.scimProvider
      denyActionsInherited := target.denyActionsInherited
      createdAtUnix := target.createdAtUnix
      revoked := true }
  pure (revoked, some (mi.withProfile profileId revoked))

/-! ## One operation -/

/-- A call, with what it draws from the clock and from `uuid4`. -/
inductive Operation where
  | create (args : ChildArgs) (now : ℤ) (uuid : String)
  | addDevice (profileId newPhoneId : String)
  | revokeDevice (profileId phoneIdToRevoke : String)
  | markRevoked (profileId : String)

namespace Operation

def apply : Operation → Option MasterIdentity → Outcome
  | create args now uuid => createChildProfile args now uuid
  | addDevice profileId newPhoneId => profileAddDevice profileId newPhoneId
  | revokeDevice profileId phoneIdToRevoke => profileRevokeDevice profileId phoneIdToRevoke
  | markRevoked profileId => markProfileRevoked profileId

/-- What the call saves. -/
def saved (op : Operation) (loaded : Option MasterIdentity) : Option MasterIdentity :=
  match op.apply loaded with
  | .ok (_, written) => written
  | .error _ => none

/-- The file after the call. -/
def next (op : Operation) (file : Option MasterIdentity) : Option MasterIdentity :=
  (op.saved (loadMasterIdentity file)).or (loadMasterIdentity file)

end Operation

/-! ## What each of them saves -/

section
variable {profileId : String} {mi mi' : MasterIdentity} {new target answer : Profile}
  {loaded : Option MasterIdentity} {args : ChildArgs} {now : ℤ} {uuid : String}

theorem bootstrapped_eq_ok : bootstrapped loaded = .ok mi ↔ loaded = some mi := by
  cases loaded <;> simp [bootstrapped]

theorem findProfile_eq_ok : findProfile mi profileId = .ok target ↔ mi.find? profileId = some target := by
  unfold findProfile
  cases mi.find? profileId <;> simp

/-- The place of the first profile of an id. -/
theorem find?_eq_some (h : mi.find? profileId = some target) :
    ∃ pre post, mi.profiles = pre ++ target :: post ∧ (∀ p ∈ pre, p.profileId ≠ profileId) ∧
      target.profileId = profileId ∧
      ∀ new, (mi.withProfile profileId new).profiles = pre ++ new :: post := by
  unfold MasterIdentity.find? at h
  simp only [MasterIdentity.withProfile]
  generalize mi.profiles = ps at h ⊢
  induction ps with
  | nil => cases h
  | cons p ps ih =>
    by_cases hp : p.profileId = profileId
    · rw [List.find?_cons_of_pos (by simpa using hp)] at h
      cases h
      exact ⟨[], ps, rfl, by simp, hp, fun new => by simp [replaceProfile, hp]⟩
    · rw [List.find?_cons_of_neg (by simpa using hp)] at h
      obtain ⟨pre, post, hps, hpre, htarget, hnew⟩ := ih h
      refine ⟨p :: pre, post, by simp [hps], ?_, htarget, fun new => ?_⟩
      · rintro q (_ | ⟨_, hq⟩)
        · exact hp
        · exact hpre q hq
      · simp [replaceProfile, hp, hnew]

theorem nodup_dedupe (entries : List String) : (dedupe entries).Nodup := by
  suffices h : ∀ seen : List String, seen.Nodup → (entries.foldl
      (fun seen entry => if entry ∈ seen then seen else seen ++ [entry]) seen).Nodup from
    h [] List.nodup_nil
  induction entries with
  | nil => exact fun _ h => h
  | cons entry entries ih =>
    intro seen hseen
    refine ih _ ?_
    beta_reduce
    split_ifs with hmem
    · exact hseen
    · exact hseen.append (List.nodup_singleton entry) (by simpa using hmem)

theorem mem_dedupe {entries : List String} {entry : String} (h : entry ∈ dedupe entries) :
    entry ∈ entries := by
  suffices hall : ∀ seen : List String, entry ∈ entries.foldl
      (fun seen entry => if entry ∈ seen then seen else seen ++ [entry]) seen →
      entry ∈ seen ∨ entry ∈ entries by
    simpa using hall [] h
  clear h
  induction entries with
  | nil => exact fun _ h => .inl h
  | cons e entries ih =>
    intro seen h
    rcases ih _ h with h | h
    · beta_reduce at h
      split_ifs at h
      · exact .inl h
      · rcases List.mem_append.mp h with h | h
        · exact .inl h
        · exact .inr (by simp [List.mem_singleton.mp h])
    · exact .inr (List.mem_cons_of_mem _ h)

theorem cleanPubkey_eq_ok {hex key : String} : cleanPubkey hex = .ok key ↔
    stripPubkey hex = key ∧ (chars key).length = 128 ∧ (fromHex key).isSome = true := by
  simp only [cleanPubkey, Except.bind_eq_ok, ensure_eq_ok, Except.pure_eq_ok]
  constructor
  · rintro ⟨-, hlength, -, hhex, rfl⟩
    exact ⟨rfl, hlength, hhex⟩
  · rintro ⟨rfl, hlength, hhex⟩
    exact ⟨(), hlength, (), hhex, rfl⟩

theorem mapM_cleanPubkey {hex? pubkey : Option String} {key : String}
    (h : hex?.mapM cleanPubkey = .ok pubkey) (hkey : key ∈ pubkey) :
    ∃ hex, hex? = some hex ∧ cleanPubkey hex = .ok key := by
  cases hex? with
  | none =>
    obtain rfl : none = pubkey := Except.pure_eq_ok.mp h
    cases hkey
  | some hex =>
    rw [Option.mapM_some] at h
    cases hclean : cleanPubkey hex with
    | error e =>
      rw [hclean] at h
      cases h
    | ok key' =>
      rw [hclean] at h
      obtain rfl : some key' = pubkey := Except.pure_eq_ok.mp h
      obtain rfl : key' = key := Option.some.inj hkey
      exact ⟨hex, rfl, hclean⟩

theorem mapM_cleanPubkey_some {hex : String}
    (h : (chars (stripPubkey hex)).length = 128 ∧ (fromHex (stripPubkey hex)).isSome = true) :
    (some hex).mapM cleanPubkey = .ok (some (stripPubkey hex)) := by
  rw [Option.mapM_some, cleanPubkey_eq_ok.mpr ⟨rfl, h⟩]
  rfl

theorem cleanPubkey_of_mapM {hex : String} {pubkey : Option String}
    (h : (some hex).mapM cleanPubkey = .ok pubkey) :
    (chars (stripPubkey hex)).length = 128 ∧ (fromHex (stripPubkey hex)).isSome = true := by
  rw [Option.mapM_some] at h
  cases hclean : cleanPubkey hex with
  | error e =>
    rw [hclean] at h
    cases h
  | ok key =>
    obtain ⟨rfl, hkey⟩ := cleanPubkey_eq_ok.mp hclean
    exact hkey

theorem createChildProfile_saves
    (h : createChildProfile args now uuid loaded = .ok (answer, some mi')) :
    ∃ mi pubkey, loaded = some mi ∧ args.derivedPubkeyHex.mapM cleanPubkey = .ok pubkey ∧
      1 ≤ args.revokeQuorumK ∧ (∀ entry ∈ args.deviceIds, strip entry ≠ "") ∧
      (dedupe (args.deviceIds.map strip) = [] ∨
        args.revokeQuorumK ≤ (dedupe (args.deviceIds.map strip)).length) ∧
      mi.named? args.kind args.displayName = none ∧
      (∀ id ∈ args.profileIdOverride, ∀ p ∈ mi.profiles, p.profileId ≠ id) ∧
      answer = childProfile args pubkey (dedupe (args.deviceIds.map strip)) now uuid mi ∧
      mi' = mi.append answer := by
  simp only [createChildProfile, Except.bind_eq_ok, ensure_eq_ok, bootstrapped_eq_ok] at h
  obtain ⟨-, -, -, -, -, -, pubkey, hpubkey, -, hquorum, -, hentries, -, hbound, mi, hmi, h⟩ := h
  cases hnamed : mi.named? args.kind args.displayName with
  | some existing =>
    rw [hnamed] at h
    cases h
  | none =>
    rw [hnamed] at h
    simp only [Except.bind_eq_ok, ensure_eq_ok] at h
    obtain ⟨-, hfresh, h⟩ := h
    cases h
    exact ⟨mi, pubkey, hmi, hpubkey, hquorum, hentries, hbound, hnamed, hfresh, rfl, rfl⟩

theorem createChildProfile_checks {outcome : Profile × Option MasterIdentity}
    (h : createChildProfile args now uuid loaded = .ok outcome) :
    args.kind ≠ "" ∧ strip args.displayName ≠ "" ∧ args.kind ≠ personalMaster := by
  simp only [createChildProfile, Except.bind_eq_ok, ensure_eq_ok] at h
  obtain ⟨-, hkind, -, hname, -, hmaster, -⟩ := h
  exact ⟨hkind, hname, hmaster⟩

theorem createChildProfile_of_checks {pubkey : Option String} (hkind : args.kind ≠ "")
    (hname : strip args.displayName ≠ "") (hmaster : args.kind ≠ personalMaster)
    (hpubkey : args.derivedPubkeyHex.mapM cleanPubkey = .ok pubkey)
    (hquorum : 1 ≤ args.revokeQuorumK) (hentries : ∀ entry ∈ args.deviceIds, strip entry ≠ "")
    (hbound : dedupe (args.deviceIds.map strip) = [] ∨
      args.revokeQuorumK ≤ (dedupe (args.deviceIds.map strip)).length)
    (hnamed : mi.named? args.kind args.displayName = none)
    (hfresh : ∀ id ∈ args.profileIdOverride, ∀ p ∈ mi.profiles, p.profileId ≠ id) :
    createChildProfile args now uuid (some mi) =
      .ok (childProfile args pubkey (dedupe (args.deviceIds.map strip)) now uuid mi,
        some (mi.append (childProfile args pubkey (dedupe (args.deviceIds.map strip)) now uuid mi))) := by
  simp only [createChildProfile, Except.bind_eq_ok, ensure_eq_ok, bootstrapped_eq_ok]
  refine ⟨(), hkind, (), hname, (), hmaster, pubkey, hpubkey, (), hquorum, (), hentries, (), hbound,
    mi, rfl, ?_⟩
  rw [hnamed]
  exact Except.bind_eq_ok.mpr ⟨(), ensure_eq_ok.mpr hfresh, rfl⟩

theorem createChildProfile_finds (h : createChildProfile args now uuid loaded = .ok (answer, none)) :
    ∃ mi, loaded = some mi ∧ mi.named? args.kind args.displayName = some answer := by
  simp only [createChildProfile, Except.bind_eq_ok, ensure_eq_ok, bootstrapped_eq_ok] at h
  obtain ⟨-, -, -, -, -, -, pubkey, -, -, -, -, -, -, -, mi, hmi, h⟩ := h
  cases hnamed : mi.named? args.kind args.displayName with
  | some existing =>
    rw [hnamed] at h
    cases h
    exact ⟨mi, hmi, hnamed⟩
  | none =>
    rw [hnamed] at h
    simp only [Except.bind_eq_ok, ensure_eq_ok] at h
    obtain ⟨-, -, h⟩ := h
    cases h

variable {phoneId : String}

theorem profileAddDevice_saves (h : profileAddDevice profileId phoneId loaded = .ok (answer, some mi')) :
    ∃ mi target, loaded = some mi ∧ mi.find? (strip profileId) = some target ∧
      strip phoneId ≠ "" ∧ target.revoked = false ∧ strip phoneId ∉ target.deviceIds ∧
      answer = { target with deviceIds := target.deviceIds ++ [strip phoneId], revokeQuorumK := 1 } ∧
      mi' = mi.withProfile (strip profileId) answer := by
  simp only [profileAddDevice, Except.bind_eq_ok, ensure_eq_ok, bootstrapped_eq_ok,
    findProfile_eq_ok] at h
  obtain ⟨-, -, -, hphone, mi, hmi, target, htarget, -, hactive, h⟩ := h
  split_ifs at h with hmember
  · cases h
  · cases h
    exact ⟨mi, target, hmi, htarget, hphone, hactive, hmember, rfl, rfl⟩

theorem profileRevokeDevice_saves
    (h : profileRevokeDevice profileId phoneId loaded = .ok (answer, some mi')) :
    ∃ mi target, loaded = some mi ∧ mi.find? (strip profileId) = some target ∧
      target.revoked = false ∧ strip phoneId ∈ target.deviceIds ∧ target.deviceIds.length ≠ 1 ∧
      answer =
        { target with deviceIds := target.deviceIds.filter fun d => d ≠ strip phoneId } ∧
      mi' = mi.withProfile (strip profileId) answer := by
  simp only [profileRevokeDevice, Except.bind_eq_ok, ensure_eq_ok, bootstrapped_eq_ok,
    findProfile_eq_ok] at h
  obtain ⟨-, -, -, -, mi, hmi, target, htarget, -, hactive, h⟩ := h
  split_ifs at h with hmember
  · simp only [Except.bind_eq_ok, ensure_eq_ok] at h
    obtain ⟨-, hlast, h⟩ := h
    cases h
    exact ⟨mi, target, hmi, htarget, hactive, hmember, hlast, rfl, rfl⟩
  · cases h

theorem markProfileRevoked_saves {written : Option MasterIdentity}
    (h : markProfileRevoked profileId loaded = .ok (answer, written)) :
    ∃ mi target, loaded = some mi ∧ mi.find? profileId = some target ∧
      answer =
        { target with revoked := true, derivedPubkeyHex := none, deviceIds := [],
                      revokeQuorumK := 1 } ∧
      written = some (mi.withProfile profileId answer) := by
  simp only [markProfileRevoked, Except.bind_eq_ok, ensure_eq_ok, bootstrapped_eq_ok,
    findProfile_eq_ok] at h
  obtain ⟨mi, hmi, target, htarget, -, -, h⟩ := h
  cases h
  exact ⟨mi, target, hmi, htarget, rfl, rfl⟩

end

end Profiles
end Recto
