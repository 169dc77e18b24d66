import Recto.Data.Checked
import Recto.Text.Handles

/-!
# The master identity and its profiles

`recto.profile.types`, the checks that `recto.profile.store` makes when it reads
`master_identity.json` back, and the slot of the derivation tree a kind of
profile has.
-/

namespace Recto
namespace Profiles

structure ProfileDerivationPath where
  purpose : ℤ
  profileCoinType : ℤ
  profileIndex : ℤ
  deriving DecidableEq, Repr

structure Profile where
  profileId : String
  kind : String
  displayName : String
  derivation : ProfileDerivationPath
  parentProfileId : Option String := none
  themeHint : Option String := none
  scimProvider : Option String := none
  denyActionsInherited : List String := []
  createdAtUnix : ℤ := 0
  revoked : Bool := false
  derivedPubkeyHex : Option String := none
  deviceIds : List String := []
  revokeQuorumK : ℤ := 1
  deriving DecidableEq, Repr

structure MasterIdentity where
  masterPubkeyHex : String
  masterProfileId : String
  profiles : List Profile
  label : Option String
  deriving DecidableEq, Repr

/-- `"personal:master"` -/
def personalMaster : String := "personal:master"

/-- `PROFILE_BIP32_PURPOSE` -/
def bip32Purpose : ℤ := 0x72656374

/-! ## The file -/

/-- The checks of `_profile_from_dict`. -/
def Profile.Readable (p : Profile) : Prop :=
  (∀ key ∈ p.derivedPubkeyHex, (chars key).length = 128 ∧ (fromHex key).isSome = true) ∧
    1 ≤ p.revokeQuorumK ∧ ∀ id ∈ p.deviceIds, id ≠ ""

/-- The checks of `_master_identity_from_dict`. -/
structure MasterIdentity.Readable (mi : MasterIdentity) : Prop where
  pubkey : (chars mi.masterPubkeyHex).length = 128
  masterId : mi.masterProfileId ≠ ""
  profiles : ∀ p ∈ mi.profiles, p.Readable
  master : ∃ p ∈ mi.profiles, p.profileId = mi.masterProfileId

instance (p : Profile) : Decidable p.Readable := by
  unfold Profile.Readable
  infer_instance

instance (mi : MasterIdentity) : Decidable mi.Readable :=
  decidable_of_iff
    ((chars mi.masterPubkeyHex).length = 128 ∧ mi.masterProfileId ≠ "" ∧
      (∀ p ∈ mi.profiles, p.Readable) ∧ ∃ p ∈ mi.profiles, p.profileId = mi.masterProfileId)
    ⟨fun h => ⟨h.1, h.2.1, h.2.2.1, h.2.2.2⟩, fun h => ⟨h.pubkey, h.masterId, h.profiles, h.master⟩⟩

/-- `load_master_identity`: a file that fails a check is moved aside and reads as absent. -/
def loadMasterIdentity (file : Option MasterIdentity) : Option MasterIdentity :=
  file.filter fun mi => decide mi.Readable

theorem loadMasterIdentity_of_readable {mi : MasterIdentity} (h : mi.Readable) :
    loadMasterIdentity (some mi) = some mi := by
  simp [loadMasterIdentity, h]

theorem loadMasterIdentity_eq_some {file : Option MasterIdentity} {mi : MasterIdentity} :
    loadMasterIdentity file = some mi ↔ file = some mi ∧ mi.Readable := by
  simp [loadMasterIdentity, Option.filter_eq_some_iff]

theorem loadMasterIdentity_idem (f : Option MasterIdentity) :
    loadMasterIdentity (loadMasterIdentity f) = loadMasterIdentity f := by
  cases h : loadMasterIdentity f with
  | none => rfl
  | some mi => exact loadMasterIdentity_of_readable (loadMasterIdentity_eq_some.mp h).2

/-! ## Key paths -/

/-- One bit of the reflected CRC-32. -/
def crcBit (c : ℕ) : ℕ := if c % 2 = 1 then Nat.xor (c / 2) 0xEDB88320 else c / 2

/-- `zlib.crc32(raw)` -/
def crc32 (raw : Bytes) : ℕ :=
  Nat.xor (raw.foldl (fun c b => crcBit^[8] (Nat.xor c b.toNat)) 0xFFFFFFFF) 0xFFFFFFFF

/-- `PROFILE_COIN_TYPES` -/
def coinTypes : List (String × ℤ) :=
  [(personalMaster, 0), ("personal:child", 1), ("work", 2), ("school", 3), ("contractor", 4)]

/-- `_resolve_coin_type` of a kind that is not empty. -/
def resolveCoinType (kind : String) : ℤ :=
  match coinTypes.lookup kind with
  | some coinType => coinType
  | none => 100 + (crc32 (utf8 kind) % 10000 : ℕ)

example : resolveCoinType "custom:a" = 8528 := by decide +kernel

/-- `_next_profile_index`: one past the largest index of the slot. -/
def nextProfileIndex (mi : MasterIdentity) (coinType : ℤ) : ℤ :=
  match ((mi.profiles.filter fun p => p.derivation.profileCoinType = coinType).map
    fun p => p.derivation.profileIndex).max? with
  | none => 0
  | some last => last + 1

theorem lt_nextProfileIndex {mi : MasterIdentity} {p : Profile} (h : p ∈ mi.profiles) :
    p.derivation.profileIndex < nextProfileIndex mi p.derivation.profileCoinType := by
  set used := (mi.profiles.filter fun q => q.derivation.profileCoinType =
    p.derivation.profileCoinType).map fun q => q.derivation.profileIndex with hused
  have hmem : p.derivation.profileIndex ∈ used :=
    List.mem_map.mpr ⟨p, List.mem_filter.mpr ⟨h, by simp⟩, rfl⟩
  unfold nextProfileIndex
  rw [← hused]
  cases hmax : used.max? with
  | none =>
    rw [List.max?_eq_none_iff.mp hmax] at hmem
    cases hmem
  | some last =>
    have := (List.max?_eq_some_iff.mp hmax).2 _ hmem
    exact Int.lt_add_one_of_le this

end Profiles
end Recto
