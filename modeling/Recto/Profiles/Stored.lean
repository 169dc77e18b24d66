import Recto.Capability.Jwt
import Recto.Data.Checked
import Recto.Json.Limits
import Recto.Profiles.Identity
import Recto.Text.Repr

/-!
# `master_identity.json`

`recto.profile.store` read for the file as it is: any bytes, decoded and parsed
as the interpreter does, and then the nested accessors and the conversions of
`_master_identity_from_dict`, each with what Python raises there. An exception
that `load_master_identity` lists sets the file aside. One conversion is not
covered by the list: `int` of an infinite float is an `OverflowError`.
-/

namespace Recto
namespace Profiles
namespace Stored

/-- What reading the file takes from the interpreter. -/
structure Interpreter where
  /-- `str.isprintable`, for `str` of a list or an object. -/
  printable : Char → Bool
  /-- `int(text)`; `none` where it is a `ValueError`. -/
  intOfText : String → Option ℤ
  /-- How deep the JSON scanner recurses. -/
  maxDepth : ℕ
  depth_le : 4 ≤ maxDepth

variable (py : Interpreter)

/-- `int(value)` -/
def Interpreter.int : Json → Except PyError ℤ
  | .str s =>
      match py.intOfText s with
      | some n => .ok n
      | none => .error .valueError
  | value => value.toInt

structure StoredProfile where
  profileId : String
  kind : String
  displayName : String
  derivation : ProfileDerivationPath
  parentProfileId : Json
  themeHint : Json
  scimProvider : Json
  denyActionsInherited : List String
  createdAtUnix : ℤ
  revoked : Bool
  derivedPubkeyHex : Option String
  deviceIds : List String
  revokeQuorumK : ℤ
  deriving DecidableEq

structure StoredIdentity where
  masterPubkeyHex : String
  masterProfileId : String
  profiles : List StoredProfile
  label : Option String
  deriving DecidableEq

/-! ## `_profile_from_dict` -/

/-- `int(raw[name])` -/
def intAt (fields : List (String × Json)) (name : String) : Except PyError ℤ := do
  py.int (← Json.getItem (.obj fields) name)

def derivationFromDict : Json → Except PyError ProfileDerivationPath
  | .obj fields => do
      let purpose ← intAt py fields "purpose"
      let profileCoinType ← intAt py fields "profile_coin_type"
      let profileIndex ← intAt py fields "profile_index"
      pure { purpose, profileCoinType, profileIndex }
  | _ => .error .typeError

/-- A list, or the exception of the check. -/
def listOr (e : PyError) : Json → Except PyError (List Json)
  | .arr xs => .ok xs
  | _ => .error e

/-- The check of `derived_pubkey_hex`. -/
def readDerivedPubkey : Json → Except PyError (Option String)
  | .null => .ok none
  | .str s => do
      ensure ((chars s).length = 128) .valueError
      ensure ((fromHex s).isSome = true) .valueError
      pure (some s)
  | _ => .error .valueError

/-- The check of `revoke_quorum_k`; a boolean is an `int`. -/
def readRevokeQuorum : Json → Except PyError ℤ
  | .int n => if n < 1 then .error .valueError else .ok n
  | .bool true => .ok 1
  | _ => .error .valueError

/-- The check of one of `device_ids`. -/
def readDeviceId : Json → Except PyError String
  | .str s => if s = "" then .error .valueError else .ok s
  | _ => .error .valueError

/-- `str(raw[name])` -/
def strAt (fields : List (String × Json)) (name : String) : Except PyError String := do
  pure ((← Json.getItem (.obj fields) name).pyStr py.printable)

/-- `raw.get(name, fallback)` -/
def fieldOr (fields : List (String × Json)) (name : String) (fallback : Json) : Json :=
  (fields.lookup name).getD fallback

/-- The row without its `created_at_unix`, which is converted last. -/
def rowFromDict (fields : List (String × Json)) (derivation : ProfileDerivationPath) :
    Except PyError StoredProfile := do
  let denyActions ← listOr .typeError (fieldOr fields "deny_actions_inherited" (.arr []))
  let derivedPubkeyHex ← readDerivedPubkey (fieldOr fields "derived_pubkey_hex" .null)
  let revokeQuorumK ← readRevokeQuorum (fieldOr fields "revoke_quorum_k" (.int 1))
  let deviceIds ← (← listOr .typeError (fieldOr fields "device_ids" (.arr []))).mapM readDeviceId
  let profileId ← strAt py fields "profile_id"
  let kind ← strAt py fields "kind"
  let displayName ← strAt py fields "display_name"
  pure
    { profileId, kind, displayName, derivation
      parentProfileId := fieldOr fields "parent_profile_id" .null
      themeHint := fieldOr fields "theme_hint" .null
      scimProvider := fieldOr fields "scim_provider" .null
      denyActionsInherited := denyActions.map fun d => d.pyStr py.printable
      createdAtUnix := 0
      revoked := (fieldOr fields "revoked" (.bool false)).truthy
      derivedPubkeyHex, deviceIds, revokeQuorumK }

/-- `_profile_from_dict` -/
def profileFromDict : Json → Except PyError StoredProfile
  | .obj fields => do
      let derivation ← derivationFromDict py (← Json.getItem (.obj fields) "derivation")
      let row ← rowFromDict py fields derivation
      let createdAtUnix ← py.int (fieldOr fields "created_at_unix" (.int 0))
      pure { row with createdAtUnix }
  | _ => .error .typeError

/-! ## `_master_identity_from_dict` -/

/-- The check of `master_pubkey_hex`; its message takes the length of what is no text. -/
def readMasterPubkey : Json → Except PyError String
  | .str s => if (chars s).length = 128 then .ok s else .error .valueError
  | .arr _ => .error .valueError
  | .obj _ => .error .valueError
  | _ => .error .typeError

/-- The check of `master_profile_id`. -/
def readMasterProfileId : Json → Except PyError String
  | .str s => if s = "" then .error .valueError else .ok s
  | _ => .error .valueError

/-- The check of `label`. -/
def readLabel : Json → Except PyError (Option String)
  | .null => .ok none
  | .str s => .ok (some s)
  | _ => .error .valueError

/-- What precedes the rows: the identity without them, and what they are read from. -/
def headFromDict : Json → Except PyError (StoredIdentity × List Json)
  | .obj fields => do
      let masterPubkeyHex ← readMasterPubkey (← Json.getItem (.obj fields) "master_pubkey_hex")
      let masterProfileId ← readMasterProfileId (← Json.getItem (.obj fields) "master_profile_id")
      let label ← readLabel (fieldOr fields "label" .null)
      let rows ← listOr .valueError (fieldOr fields "profiles" (.arr []))
      pure ({ masterPubkeyHex, masterProfileId, profiles := [], label }, rows)
  | _ => .error .typeError

/-- `_master_identity_from_dict` -/
def masterIdentityFromDict (raw : Json) : Except PyError StoredIdentity := do
  let (head, rows) ← headFromDict raw
  let profiles ← rows.mapM (profileFromDict py)
  ensure (profiles ≠ []) .valueError
  ensure (∃ p ∈ profiles, p.profileId = head.masterProfileId) .valueError
  pure { head with profiles }

/-! ## `load_master_identity` -/

/-- The file, as `path.exists` and `path.read_bytes` find it. -/
inductive MasterFile where
  | absent
  /-- `OSError` -/
  | unreadable
  | content (raw : Bytes)
  deriving DecidableEq

structure StateDir where
  masterIdentity : MasterFile
  /-- The last file that was moved to `master_identity.json.corrupt-…`. -/
  aside : Option Bytes
  deriving DecidableEq

/-- `_move_corrupt_file_aside`; a rename that fails is reported on stderr only. -/
def moveCorruptFileAside (renames : Bool) (raw : Bytes) (dir : StateDir) : StateDir :=
  if renames then { masterIdentity := .absent, aside := some raw } else dir

/-- `except (KeyError, TypeError, ValueError)` -/
def schemaCaught : List PyError := [.keyError, .typeError, .valueError]

/-- `load_master_identity`, and the directory it leaves. -/
def loadMasterIdentity (renames : Bool) (dir : StateDir) :
    Except PyError (Option StoredIdentity) × StateDir :=
  match dir.masterIdentity with
  | .absent => (.ok none, dir)
  | .unreadable => (.error .osError, dir)
  | .content raw =>
      match Capability.decodeStrict raw with
      | none => (.ok none, moveCorruptFileAside renames raw dir)
      | some text =>
          match Json.loadsWithin py.maxDepth text with
          | .error .decode => (.ok none, moveCorruptFileAside renames raw dir)
          | .error e => (.error e.raised, dir)
          | .ok document =>
              match masterIdentityFromDict py document with
              | .ok mi => (.ok (some mi), dir)
              | .error e =>
                  if e ∈ schemaCaught then (.ok none, moveCorruptFileAside renames raw dir)
                  else (.error e, dir)

/-! ## What is not caught -/

/-- `float("inf")` or its negative. -/
def IsInfinite (value : Json) : Prop := value = .float .infinity ∨ value = .float .negInfinity

/-- The field is there, and infinite. -/
def InfiniteAt (fields : List (String × Json)) (name : String) : Prop :=
  ∃ value, fields.lookup name = some value ∧ IsInfinite value

/-- The field is there, and `int` takes it. -/
def IntegerAt (fields : List (String × Json)) (name : String) : Prop :=
  ∃ value n, fields.lookup name = some value ∧ py.int value = .ok n

/-- Of the three numbers of a derivation one is infinite, and those before it are read. -/
def InfiniteDerivation (fields : List (String × Json)) : Prop :=
  InfiniteAt fields "purpose" ∨
    (IntegerAt py fields "purpose" ∧ (InfiniteAt fields "profile_coin_type" ∨
      (IntegerAt py fields "profile_coin_type" ∧ InfiniteAt fields "profile_index")))

/-- Reading the row comes to an infinite float where it wants an integer: in the derivation, or in
`created_at_unix` where all the rest passes. -/
def InfiniteRow (row : Json) : Prop :=
  ∃ fields, row = .obj fields ∧
    ((∃ derivation, fields.lookup "derivation" = some (.obj derivation) ∧
        InfiniteDerivation py derivation) ∨
      ((∃ raw derivation row, fields.lookup "derivation" = some raw ∧
          derivationFromDict py raw = .ok derivation ∧ rowFromDict py fields derivation = .ok row) ∧
        InfiniteAt fields "created_at_unix"))

/-- Reading the document comes to such a row: the top fields pass, and so do the rows before it. -/
def InfiniteDocument (document : Json) : Prop :=
  ∃ head before row after, headFromDict document = .ok (head, before ++ row :: after) ∧
    (∀ r ∈ before, ∃ p, profileFromDict py r = .ok p) ∧ InfiniteRow py row

section
variable {py} {fields : List (String × Json)} {name : String} {value row document : Json}

theorem int_eq_overflow : py.int value = .error .overflowError ↔ IsInfinite value := by
  cases value with
  | str s => cases h : py.intOfText s <;> simp [Interpreter.int, h, IsInfinite]
  | float x => cases x <;> simp [Interpreter.int, Json.toInt, JsonFloat.toInt, IsInfinite]
  | _ => simp [Interpreter.int, Json.toInt, IsInfinite]

/-- What the schema part may raise. -/
def SchemaError (e : PyError) : Prop := e ∈ schemaCaught ∨ e = .overflowError

theorem raises_int (value : Json) : OnlyRaises SchemaError (py.int value) := by
  intro e h
  cases value with
  | str s =>
    rw [Interpreter.int] at h
    cases hs : py.intOfText s with
    | none =>
      rw [hs] at h
      obtain rfl := Except.error.inj h
      exact .inl (by decide)
    | some n =>
      rw [hs] at h
      cases h
  | float x =>
    cases x with
    | decimal m e => cases h
    | nan =>
      obtain rfl := Except.error.inj h
      exact .inl (by decide)
    | infinity =>
      obtain rfl := Except.error.inj h
      exact .inr rfl
    | negInfinity =>
      obtain rfl := Except.error.inj h
      exact .inr rfl
  | bool b => cases h
  | int n => cases h
  | null =>
    obtain rfl := Except.error.inj h
    exact .inl (by decide)
  | arr xs =>
    obtain rfl := Except.error.inj h
    exact .inl (by decide)
  | obj fields =>
    obtain rfl := Except.error.inj h
    exact .inl (by decide)

/-- Whatever the computation raises is caught. -/
abbrev Caught {α : Type} (x : Except PyError α) : Prop := OnlyRaises (· ∈ schemaCaught) x

theorem Caught.schema {α : Type} {x : Except PyError α} (h : Caught x) : OnlyRaises SchemaError x :=
  fun e he => .inl (h e he)

theorem Caught.ne_overflow {α : Type} {x : Except PyError α} (h : Caught x) :
    x ≠ .error .overflowError :=
  fun he => absurd (h _ he) (by decide)

theorem getItem_eq_ok : Json.getItem (.obj fields) name = .ok value ↔
    fields.lookup name = some value := by
  rw [Json.getItem_obj]
  cases fields.lookup name <;> simp

theorem caught_getItem (fields : List (String × Json)) (name : String) :
    Caught (Json.getItem (.obj fields) name) := by
  rw [Json.getItem_obj]
  cases fields.lookup name with
  | none => exact .error (by decide)
  | some value => exact .ok value

theorem caught_listOr {e : PyError} (he : e ∈ schemaCaught) (value : Json) :
    Caught (listOr e value) := by
  cases value with
  | arr xs => exact .ok xs
  | _ => exact .error he

theorem caught_readDerivedPubkey (value : Json) : Caught (readDerivedPubkey value) := by
  cases value with
  | null => exact .ok none
  | str s =>
    exact .bind (.ensure _ (by decide)) fun _ _ => .bind (.ensure _ (by decide)) fun _ _ => .ok _
  | _ => exact .error (by decide)

theorem caught_readRevokeQuorum (value : Json) : Caught (readRevokeQuorum value) := by
  unfold readRevokeQuorum
  split
  · split_ifs
    · exact .error (by decide)
    · exact .ok _
  · exact .ok 1
  · exact .error (by decide)

/-- A text that must not be empty. -/
theorem caught_nonempty {α : Type} (a : α) (s : String) :
    Caught (if s = "" then .error .valueError else .ok a) := by
  split_ifs
  · exact .error (by decide)
  · exact .ok a

theorem caught_readDeviceId (value : Json) : Caught (readDeviceId value) := by
  cases value with
  | str s => exact caught_nonempty s s
  | _ => exact .error (by decide)

theorem caught_strAt (fields : List (String × Json)) (name : String) :
    Caught (strAt py fields name) :=
  .bind (caught_getItem fields name) fun _ _ => .ok _

theorem caught_rowFromDict (fields : List (String × Json)) (derivation : ProfileDerivationPath) :
    Caught (rowFromDict py fields derivation) :=
  .bind (caught_listOr (by decide) _) fun _ _ =>
    .bind (caught_readDerivedPubkey _) fun _ _ =>
      .bind (caught_readRevokeQuorum _) fun _ _ =>
        .bind (caught_listOr (by decide) _) fun _ _ =>
          .bind (.mapM fun x _ => caught_readDeviceId x) fun _ _ =>
            .bind (caught_strAt fields _) fun _ _ =>
              .bind (caught_strAt fields _) fun _ _ =>
                .bind (caught_strAt fields _) fun _ _ => .ok _

theorem caught_headFromDict (document : Json) : Caught (headFromDict document) := by
  have hpubkey : ∀ value, Caught (readMasterPubkey value) := by
    intro value
    unfold readMasterPubkey
    split
    · split_ifs
      · exact .ok _
      · exact .error (by decide)
    all_goals exact .error (by decide)
  have hid : ∀ value, Caught (readMasterProfileId value) := by
    intro value
    cases value with
    | str s => exact caught_nonempty s s
    | _ => exact .error (by decide)
  have hlabel : ∀ value, Caught (readLabel value) := by
    intro value
    cases value with
    | null => exact .ok none
    | str s => exact .ok (some s)
    | _ => exact .error (by decide)
  cases document with
  | obj fields =>
    exact .bind (caught_getItem fields _) fun _ _ => .bind (hpubkey _) fun _ _ =>
      .bind (caught_getItem fields _) fun _ _ => .bind (hid _) fun _ _ =>
        .bind (hlabel _) fun _ _ => .bind (caught_listOr (by decide) _) fun _ _ => .ok _
  | _ => exact .error (by decide)

theorem intAt_eq_overflow : intAt py fields name = .error .overflowError ↔ InfiniteAt fields name := by
  rw [intAt, Except.bind_eq_error]
  refine ⟨?_, ?_⟩
  · rintro (h | ⟨value, hvalue, h⟩)
    · exact absurd h (caught_getItem fields name).ne_overflow
    · exact ⟨value, getItem_eq_ok.mp hvalue, int_eq_overflow.mp h⟩
  · rintro ⟨value, hvalue, h⟩
    exact .inr ⟨value, getItem_eq_ok.mpr hvalue, int_eq_overflow.mpr h⟩

theorem intAt_eq_ok : (∃ n, intAt py fields name = .ok n) ↔ IntegerAt py fields name := by
  simp only [intAt, Except.bind_eq_ok, getItem_eq_ok, IntegerAt]
  exact ⟨fun ⟨n, value, h⟩ => ⟨value, n, h⟩, fun ⟨value, n, h⟩ => ⟨n, value, h⟩⟩

theorem raises_intAt (fields : List (String × Json)) (name : String) :
    OnlyRaises SchemaError (intAt py fields name) :=
  .bind (caught_getItem fields name).schema fun _ _ => raises_int _

theorem raises_derivationFromDict (value : Json) :
    OnlyRaises SchemaError (derivationFromDict py value) := by
  cases value with
  | obj fields =>
    exact .bind (raises_intAt fields _) fun _ _ => .bind (raises_intAt fields _) fun _ _ =>
      .bind (raises_intAt fields _) fun _ _ => .ok _
  | _ => exact .error (.inl (by decide))

theorem derivationFromDict_eq_overflow : derivationFromDict py value = .error .overflowError ↔
    ∃ fields, value = .obj fields ∧ InfiniteDerivation py fields := by
  cases value with
  | obj fields =>
    simp only [derivationFromDict, Except.bind_eq_error, intAt_eq_overflow, Json.obj.injEq,
      exists_eq_left', InfiniteDerivation, ← intAt_eq_ok]
    simp [pure, Except.pure]
  | _ => simp [derivationFromDict]

theorem raises_profileFromDict (row : Json) : OnlyRaises SchemaError (profileFromDict py row) := by
  cases row with
  | obj fields =>
    exact .bind (caught_getItem fields _).schema fun _ _ =>
      .bind (raises_derivationFromDict _) fun _ _ =>
        .bind (caught_rowFromDict fields _).schema fun _ _ =>
          .bind (raises_int _) fun _ _ => .ok _
  | _ => exact .error (.inl (by decide))

theorem isInfinite_fieldOr {n : ℤ} : IsInfinite (fieldOr fields name (.int n)) ↔
    InfiniteAt fields name := by
  unfold fieldOr InfiniteAt
  cases fields.lookup name <;> simp [IsInfinite]

theorem profileFromDict_eq_overflow :
    profileFromDict py row = .error .overflowError ↔ InfiniteRow py row := by
  cases row with
  | obj fields =>
    have hrow : ∀ derivation, rowFromDict py fields derivation ≠ .error .overflowError :=
      fun derivation => (caught_rowFromDict fields derivation).ne_overflow
    simp only [profileFromDict, Except.bind_eq_error, (caught_getItem fields _).ne_overflow, hrow,
      derivationFromDict_eq_overflow, getItem_eq_ok, int_eq_overflow, isInfinite_fieldOr, false_or,
      InfiniteRow, Json.obj.injEq, exists_eq_left']
    constructor
    · rintro ⟨raw, hraw, ⟨derivation, rfl, h⟩ | ⟨derivation, hderivation, row, hrow, h | ⟨n, -, h⟩⟩⟩
      · exact .inl ⟨derivation, hraw, h⟩
      · exact .inr ⟨⟨raw, derivation, row, hraw, hderivation, hrow⟩, h⟩
      · cases h
    · rintro (⟨derivation, hraw, h⟩ | ⟨⟨raw, derivation, row, hraw, hderivation, hrow⟩, h⟩)
      · exact ⟨_, hraw, .inl ⟨derivation, rfl, h⟩⟩
      · exact ⟨raw, hraw, .inr ⟨derivation, hderivation, row, hrow, .inl h⟩⟩
  | _ => simp [profileFromDict, InfiniteRow]

theorem raises_masterIdentityFromDict (document : Json) :
    OnlyRaises SchemaError (masterIdentityFromDict py document) :=
  .bind (caught_headFromDict document).schema fun _ _ =>
    .bind (.mapM fun row _ => raises_profileFromDict row) fun _ _ =>
      .bind (.ensure _ (.inl (by decide))) fun _ _ =>
        .bind (.ensure _ (.inl (by decide))) fun _ _ => .ok _

theorem masterIdentityFromDict_eq_overflow :
    masterIdentityFromDict py document = .error .overflowError ↔ InfiniteDocument py document := by
  have htail : ∀ (head : StoredIdentity) (profiles : List StoredProfile), Caught (do
      ensure (profiles ≠ []) PyError.valueError
      ensure (∃ p ∈ profiles, p.profileId = head.masterProfileId) PyError.valueError
      pure { head with profiles }) := fun _ _ =>
    .bind (.ensure _ (by decide)) fun _ _ => .bind (.ensure _ (by decide)) fun _ _ => .ok _
  constructor
  · intro h
    obtain h | ⟨⟨head, rows⟩, hhead, h⟩ := Except.bind_eq_error.mp h
    · exact absurd h (caught_headFromDict document).ne_overflow
    · obtain h | ⟨profiles, -, h⟩ := Except.bind_eq_error.mp h
      · obtain ⟨before, row, after, rfl, hbefore, hrow⟩ := mapM_eq_error.mp h
        exact ⟨head, before, row, after, hhead, hbefore, profileFromDict_eq_overflow.mp hrow⟩
      · exact absurd h (htail head profiles).ne_overflow
  · rintro ⟨head, before, row, after, hhead, hbefore, hrow⟩
    exact Except.bind_eq_error.mpr (.inr ⟨_, hhead, Except.bind_eq_error.mpr
      (.inl (mapM_eq_error.mpr
        ⟨before, row, after, rfl, hbefore, profileFromDict_eq_overflow.mpr hrow⟩))⟩)

end

end Stored
end Profiles
end Recto
