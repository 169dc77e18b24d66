import Recto.Connections.Store
import Recto.Capability.Jwt
import Recto.Json.RoundTrip
import Recto.Data.Naming

/-!
# Where secret values are kept

The names of `recto.connections.types` and `recto.user_vault.types`, and the
three backends that keep a value under a service and a name: `file_backed`,
`dpapi_machine` and `azure_keyvault`. Underneath is a map from paths, or vault
names, to bytes.
-/

namespace Recto
namespace Secrets

open Connections Capability

/-! ## Whose value it is -/

/-- The canonical spelling of 32 bytes. -/
def IsHandle (s : String) : Prop := ∃ raw ∈ unb64u s, raw.length = 32 ∧ b64u raw = s

instance (s : String) : Decidable (IsHandle s) := by
  unfold IsHandle
  infer_instance

/-- A handle as `normalize_subject` returns it. -/
abbrev Subject := { s : String // IsHandle s }

/-- A key as `normalize_connection_key` returns it. -/
abbrev Key := { key : String // isConnectionKey key = true }

theorem isHandle_of_normalizeSubject {x : Json} {s : String} (h : normalizeSubject x = some s) :
    IsHandle s := by
  cases x with
  | str text =>
    simp only [normalizeSubject] at h
    split_ifs at h
    cases hraw : unb64u (strip text) with
    | none => simp [hraw] at h
    | some raw =>
      simp only [hraw] at h
      split_ifs at h with hcanonical
      obtain rfl := Option.some.inj h
      exact ⟨raw, hraw, hcanonical⟩
  | _ => cases h

/-- `normalize_subject`; `none` where it raises. -/
def readSubject (text : String) : Option Subject :=
  match h : normalizeSubject (.str text) with
  | some s => some ⟨s, isHandle_of_normalizeSubject h⟩
  | none => none

/-- `normalize_connection_key`, which is `normalize_user_vault_key` too; `none` where it raises. -/
def readKey (text : String) : Option Key :=
  if h : isConnectionKey (lower (strip text)) = true then some ⟨lower (strip text), h⟩ else none

inductive Tier where
  | platform
  | user (subject : Subject)
  deriving DecidableEq

/-- What a value belongs to. -/
structure SecretTuple where
  service : String
  tier : Tier
  key : Key
  deriving DecidableEq

/-- `subject_storage_id` -/
def subjectStorageId (subject : Subject) : String := hex ((unb64u subject).getD [])

/-- `user_vault_secret_name` -/
def userVaultSecretName (subject : Subject) (key : String) : String :=
  "uv." ++ subjectStorageId subject ++ "." ++ key

/-- The name within the service. -/
def SecretTuple.secretName (t : SecretTuple) : String :=
  match t.tier with
  | .platform => vaultSecretName t.key
  | .user subject => userVaultSecretName subject t.key

theorem subjectStorageId_injective : Function.Injective subjectStorageId := by
  intro s s' h
  obtain ⟨raw, hraw, -, hs⟩ := s.property
  obtain ⟨raw', hraw', -, hs'⟩ := s'.property
  have hraws : raw = raw' := by
    apply hex_injective
    simpa [subjectStorageId, Option.mem_def.mp hraw, Option.mem_def.mp hraw'] using h
  exact Subtype.ext (hs.symm.trans (hraws ▸ hs'))

theorem length_subjectStorageId (subject : Subject) :
    (subjectStorageId subject).toList.length = 64 := by
  obtain ⟨raw, hraw, hlength, -⟩ := subject.property
  simp [subjectStorageId, Option.mem_def.mp hraw, hex, hlength]

/-- Within a service the name says whose value it is. -/
theorem secretName_injective {t t' : SecretTuple} (hservice : t.service = t'.service)
    (h : t.secretName = t'.secretName) : t = t' := by
  obtain ⟨service, tier, key⟩ := t
  obtain ⟨service', tier', key'⟩ := t'
  obtain rfl : service = service' := hservice
  replace h := congrArg String.toList h
  cases tier with
  | platform =>
    cases tier' with
    | platform =>
      have hkey : key = key' := Subtype.ext (String.ext (by simpa [SecretTuple.secretName, vaultSecretName] using h))
      rw [hkey]
    | user subject => simp [SecretTuple.secretName, vaultSecretName, userVaultSecretName] at h
  | user subject =>
    cases tier' with
    | platform => simp [SecretTuple.secretName, vaultSecretName, userVaultSecretName] at h
    | user subject' =>
      simp only [SecretTuple.secretName, userVaultSecretName, String.toList_append,
        List.append_assoc, List.append_cancel_left_eq] at h
      obtain ⟨hid, hkey⟩ := List.append_inj h
        ((length_subjectStorageId subject).trans (length_subjectStorageId subject').symm)
      obtain rfl := subjectStorageId_injective (String.ext hid)
      have hkey : key = key' := Subtype.ext (String.ext (by simpa using hkey))
      rw [hkey]

theorem isKeyChar_hexDigit : ∀ d < 16, isKeyChar (Json.hexDigit d) = true := by decide

theorem isKeyChar_of_mem_key (key : Key) {c : Char} (h : c ∈ key.val.toList) : isKeyChar c = true := by
  have hkey := key.property
  rw [isConnectionKey, chars_eq_toList] at hkey
  cases hchars : key.val.toList with
  | nil =>
    rw [hchars] at h
    cases h
  | cons d ds =>
    rw [hchars] at hkey h
    simp only [Bool.and_eq_true, List.all_eq_true] at hkey
    rcases List.mem_cons.mp h with rfl | hc
    · exact hkey.1.1.1.1
    · exact hkey.1.2 c hc

theorem isKeyChar_of_mem_subjectStorageId (subject : Subject) {c : Char}
    (h : c ∈ (subjectStorageId subject).toList) : isKeyChar c = true := by
  simp only [subjectStorageId, hex, String.toList_ofList, List.mem_flatMap, List.mem_cons,
    List.not_mem_nil, or_false] at h
  obtain ⟨b, -, hc⟩ := h
  have hb := b.toNat_lt
  rcases hc with rfl | rfl
  · exact isKeyChar_hexDigit _ (by omega)
  · exact isKeyChar_hexDigit _ (by omega)

/-- A name begins with a letter, and has digits, letters, dashes and dots in it. -/
theorem secretName_chars (t : SecretTuple) : ∃ c cs, t.secretName.toList = c :: cs ∧ c ≠ '.' ∧
    ∀ d ∈ c :: cs, isKeyChar d = true ∨ d = '.' := by
  obtain ⟨service, tier, key⟩ := t
  cases tier with
  | platform =>
    refine ⟨'c', 'o' :: 'n' :: 'n' :: '.' :: key.val.toList, ?_, by decide, ?_⟩
    · simp [SecretTuple.secretName, vaultSecretName]
    · simp only [List.forall_mem_cons]
      exact ⟨by decide, by decide, by decide, by decide, by decide,
        fun d hd => .inl (isKeyChar_of_mem_key key hd)⟩
  | user subject =>
    refine ⟨'u', 'v' :: '.' :: ((subjectStorageId subject).toList ++ '.' :: key.val.toList), ?_,
      by decide, ?_⟩
    · simp [SecretTuple.secretName, userVaultSecretName]
    · simp only [List.forall_mem_cons, List.forall_mem_append]
      exact ⟨by decide, by decide, by decide,
        fun d hd => .inl (isKeyChar_of_mem_subjectStorageId subject hd), by decide,
        fun d hd => .inl (isKeyChar_of_mem_key key hd)⟩

/-- No name has a separator in it. -/
theorem secretName_separators (t : SecretTuple) :
    ∀ c ∈ t.secretName.toList, c ≠ ':' ∧ c ≠ '/' ∧ c ≠ '\\' ∧ c.toNat ≠ 0 := by
  obtain ⟨c, cs, hname, -, hchars⟩ := secretName_chars t
  rw [hname]
  intro d hd
  refine ⟨?_, ?_, ?_, fun hd₀ => ?_⟩
  · rintro rfl
    exact absurd (hchars _ hd) (by decide)
  · rintro rfl
    exact absurd (hchars _ hd) (by decide)
  · rintro rfl
    exact absurd (hchars _ hd) (by decide)
  · obtain rfl : d = Char.ofNat 0 := by rw [← hd₀, Char.ofNat_toNat]
    exact absurd (hchars _ hd) (by decide)

theorem secretName_ne (t : SecretTuple) :
    t.secretName ≠ "" ∧ t.secretName ≠ "." ∧ t.secretName ≠ ".." := by
  obtain ⟨c, cs, hname, hc, -⟩ := secretName_chars t
  refine ⟨?_, ?_, ?_⟩
  all_goals
    intro h
    rw [h] at hname
  · cases hname
  · exact hc (List.cons.inj hname).1.symm
  · exact hc (List.cons.inj hname).1.symm

/-! ## The three stores -/

/-- What a call raises: `ValueError`, `SecretNotFoundError` or `SecretSourceError`. -/
inductive Raised where
  | valueError
  | secretNotFound
  | secretSource
  deriving DecidableEq, Repr

/-- A `WritableSecretSource` for each service: `fetch` with `{"required": False}`, `write` and
`delete` of one value. -/
structure Backend (σ : Type) where
  fetch : SecretTuple → σ → Except Raised String
  write : SecretTuple → String → ℤ → σ → Except Raised σ
  delete : SecretTuple → σ → Except Raised σ

/-- The components of a path. -/
abbrev FilePath := List String

/-- The files there are, with their contents. -/
abbrev Files := Dict FilePath Bytes

/-- `_safe_component` lets the name pass. -/
def SafeComponent (name : String) : Prop :=
  name ≠ "" ∧ name ≠ "." ∧ name ≠ ".." ∧ ∀ c ∈ chars name, c ≠ '/' ∧ c ≠ '\\' ∧ c.toNat ≠ 0

instance (name : String) : Decidable (SafeComponent name) :=
  -- by the characters there are in the name, not by all there are
  have := List.decidableBAll (fun c : Char => c ≠ '/' ∧ c ≠ '\\' ∧ c.toNat ≠ 0) (chars name)
  inferInstanceAs (Decidable (name ≠ "" ∧ name ≠ "." ∧ name ≠ ".." ∧
    ∀ c ∈ chars name, c ≠ '/' ∧ c ≠ '\\' ∧ c.toNat ≠ 0))

namespace FileBacked

/-- `_path_for`, below the base directory. -/
def path (t : SecretTuple) : FilePath := [t.service, t.secretName ++ ".json"]

def pathFor (t : SecretTuple) : Except Raised FilePath :=
  if SafeComponent t.service ∧ SafeComponent t.secretName then .ok (path t) else .error .secretSource

/-- The file's text for a value written at a time. -/
def payload (value : String) (now : ℤ) : Bytes :=
  encodeUtf8 (Json.render (.obj [("value", .str value), ("comment", .str ""),
    ("updated_at_unix", .int now)]))

/-- The value in a file's text. -/
def readPayload (raw : Bytes) : Except Raised String :=
  match (decodeStrict raw).bind Json.parse with
  | some (.obj fields) =>
      match fields.lookup "value" with
      | some (.str value) => .ok value
      | _ => .error .secretSource
  | _ => .error .secretSource

theorem readPayload_payload (value : String) (now : ℤ) : readPayload (payload value now) = .ok value := by
  have hplain : Json.Plain (.obj [("value", .str value), ("comment", .str ""),
      ("updated_at_unix", .int now)]) := by
    refine ⟨by simp, ?_⟩
    exact ⟨trivial, trivial, trivial, trivial⟩
  simp [readPayload, payload, decodeStrict, Json.parse_render hplain.proper]

theorem pathFor_eq {t : SecretTuple} (h : SafeComponent t.service) : pathFor t = .ok (path t) := by
  obtain ⟨hempty, hdot, hdots⟩ := secretName_ne t
  have hsafe : SafeComponent t.secretName := by
    refine ⟨hempty, hdot, hdots, fun c hc => ?_⟩
    exact (secretName_separators t c (by simpa using hc)).2
  rw [pathFor, if_pos ⟨h, hsafe⟩]

theorem path_injective : Function.Injective path := by
  intro t t' h
  obtain ⟨hservice, hname⟩ := List.cons.inj h
  exact secretName_injective hservice ((String.append_left_inj _).mp (List.cons.inj hname).1)

def backend : Backend Files where
  fetch t files := do
    let path ← pathFor t
    match files.get? path with
    | none => pure ""
    | some raw => readPayload raw
  write t value now files := do
    let path ← pathFor t
    pure (files.set path (payload value now))
  delete t files := do
    let path ← pathFor t
    pure (files.erase path)

end FileBacked

/-- What encrypts and decrypts: DPAPI on the machine. -/
structure Cipher where
  encrypt : String → Bytes
  decrypt : Bytes → Except Raised String
  inverse : ∀ value, decrypt (encrypt value) = .ok value

namespace DpapiMachine

def isSep (c : Char) : Bool := c = '/' || c = '\\'

/-- The components a path's text has. -/
def pathParts (s : String) : FilePath :=
  (((chars s).splitOnP isSep).map String.ofList).filter fun part => part ≠ "" ∧ part ≠ "."

/-- `root / s`: a text that begins at the root of the drive starts anew there. -/
def joinPath (root : FilePath) (s : String) : FilePath :=
  match chars s with
  | c :: _ => if isSep c then root.take 1 ++ pathParts s else root ++ pathParts s
  | [] => root

/-- The path `format_storage_path` makes of the names. -/
def path (root : FilePath) (t : SecretTuple) : FilePath :=
  joinPath root t.service ++ [t.secretName ++ ".dpapi"]

/-- The checks of `format_storage_path`. -/
def Valid (t : SecretTuple) : Prop :=
  (t.service ≠ "" ∧ ':' ∉ chars t.service) ∧
    t.secretName ≠ "" ∧ ∀ c ∈ chars t.secretName, c ≠ ':' ∧ c ≠ '/' ∧ c ≠ '\\'

instance (t : SecretTuple) : Decidable (Valid t) :=
  have := List.decidableBAll (fun c : Char => c ≠ ':' ∧ c ≠ '/' ∧ c ≠ '\\') (chars t.secretName)
  inferInstanceAs (Decidable ((t.service ≠ "" ∧ ':' ∉ chars t.service) ∧
    t.secretName ≠ "" ∧ ∀ c ∈ chars t.secretName, c ≠ ':' ∧ c ≠ '/' ∧ c ≠ '\\'))

/-- `format_storage_path` -/
def formatStoragePath (root : FilePath) (t : SecretTuple) : Except Raised FilePath :=
  if Valid t then .ok (path root t) else .error .secretSource

theorem formatStoragePath_eq {root : FilePath} {t : SecretTuple} (hempty : t.service ≠ "")
    (hcolon : ':' ∉ chars t.service) : formatStoragePath root t = .ok (path root t) := by
  have hvalid : Valid t := by
    refine ⟨⟨hempty, hcolon⟩, (secretName_ne t).1, fun c hc => ?_⟩
    obtain ⟨h₁, h₂, h₃, -⟩ := secretName_separators t c (by simpa using hc)
    exact ⟨h₁, h₂, h₃⟩
  rw [formatStoragePath, if_pos hvalid]

/-- Services that are one component each keep their paths apart. -/
theorem path_injective {root : FilePath} {t t' : SecretTuple} (ht : SafeComponent t.service)
    (ht' : SafeComponent t'.service) (h : path root t = path root t') : t = t' := by
  have hjoin : ∀ s, SafeComponent s → joinPath root s = root ++ [s] := by
    rintro s ⟨hempty, hdot, -, hchars⟩
    have hsep : ∀ c ∈ chars s, isSep c = false := fun c hc => by simp [isSep, hchars c hc]
    have hparts : pathParts s = [s] := by
      rw [pathParts, List.splitOnP_eq_singleton hsep]
      simp [hempty, hdot]
    unfold joinPath
    split
    · rename_i c cs hcs
      rw [hsep c (hcs ▸ List.mem_cons_self), hparts]
      rfl
    · rename_i hnil
      rw [chars_eq_toList, String.toList_eq_nil_iff] at hnil
      exact (hempty hnil).elim
  rw [path, path, hjoin _ ht, hjoin _ ht', List.append_assoc, List.append_assoc,
    List.append_cancel_left_eq] at h
  obtain ⟨hservice, hname⟩ := List.cons.inj h
  exact secretName_injective hservice ((String.append_left_inj _).mp (List.cons.inj hname).1)

def backend (cipher : Cipher) (root : FilePath) : Backend Files where
  fetch t files := do
    let path ← formatStoragePath root t
    match files.get? path with
    | none => pure ""
    | some raw => cipher.decrypt raw
  write t value _ files := do
    let path ← formatStoragePath root t
    pure (files.set path (cipher.encrypt value))
  delete t files := do
    let path ← formatStoragePath root t
    match files.get? path with
    | none => .error .secretNotFound
    | some _ => pure (files.erase path)

end DpapiMachine

namespace AzureKeyVault

/-- One part of a vault name: in lower case, with `-` for what a name may not have. -/
def norm (part : String) : String :=
  String.ofList ((chars (lower part)).map fun c =>
    if ('a' ≤ c ∧ c ≤ 'z') ∨ ('0' ≤ c ∧ c ≤ '9') then c else '-')

/-- The name `normalize_kv_name` makes of the names. -/
def kvName (t : SecretTuple) : String := norm t.service ++ "--" ++ norm t.secretName

/-- The checks of `normalize_kv_name`. -/
def Valid (t : SecretTuple) : Prop :=
  t.service ≠ "" ∧ t.secretName ≠ "" ∧ (chars (kvName t)).length ≤ 127

instance (t : SecretTuple) : Decidable (Valid t) :=
  inferInstanceAs (Decidable (_ ∧ _))

/-- `normalize_kv_name` -/
def normalizeKvName (t : SecretTuple) : Except Raised String :=
  if Valid t then .ok (kvName t) else .error .secretSource

def backend : Backend (Dict String String) where
  fetch t vault := do
    let name ← normalizeKvName t
    match vault.get? name with
    | none => .error .secretNotFound
    | some value => pure value
  write t value _ vault := do
    ensure (value ≠ "") .secretSource
    let name ← normalizeKvName t
    pure (vault.set name value)
  delete t vault := do
    let name ← normalizeKvName t
    pure (vault.erase name)

end AzureKeyVault

end Secrets
end Recto
