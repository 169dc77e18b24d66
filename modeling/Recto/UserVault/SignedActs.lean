import Recto.Wire.Records

/-!
# Signatures of a user's phone

A phone signs four kinds of record: a grant, the revocation of one grant, the
revocation of all grants of a key, and a request for the list of grants. Each
kind signs under a domain of its own, and no domain is the start of another, so
no signature of one act is one of another.
-/

namespace Recto
namespace UserVault

open Capability Connections

/-- The bound phone asks for its subjects' live grants. -/
structure GrantsListRequest where
  bootloaderId : String
  phoneId : String
  issuedAt : ℤ
  nonce : String
  deriving DecidableEq, Repr

namespace GrantsListRequest

def toDict (r : GrantsListRequest) : Json :=
  .obj [("bootloader_id", .str r.bootloaderId), ("issued_at", .int r.issuedAt),
    ("nonce", .str r.nonce), ("phone_id", .str r.phoneId)]

def signedMessage (r : GrantsListRequest) : Bytes :=
  utf8 "recto-user-vault-grants-v1|" ++ canonicalJson r.toDict

/-- `__post_init__`, on the arguments of the constructor. -/
def make (read : String → Json) : Except GrantRefusal GrantsListRequest := do
  let bootloaderId ← text (read "bootloader_id")
  let phoneId ← text (read "phone_id")
  let nonce ← text (read "nonce")
  ensure (isNonce nonce) .recordInvalid
  let issuedAt ← positiveInt (read "issued_at")
  pure { bootloaderId, phoneId, issuedAt, nonce }

def fromDict (d : Json) : Except GrantRefusal GrantsListRequest := do
  let read ← fromWire d ["bootloader_id", "issued_at", "nonce", "phone_id"]
  make read

/-- A request that can be built. -/
def Built (r : GrantsListRequest) : Prop := ∃ read, make read = .ok r

theorem Built.fromDict_toDict {r : GrantsListRequest} (h : r.Built) : fromDict r.toDict = .ok r := by
  obtain ⟨read, hmake⟩ := h
  have hparts := hmake
  simp only [make, Except.bind_eq_ok] at hparts
  obtain ⟨boot, hboot, phone, hphone, nonce, hnonce, -, -, issuedAt, hissuedAt, hr⟩ := hparts
  obtain rfl := Except.pure_eq_ok.mp hr
  rw [← hmake]
  unfold make
  rw [text_eq_ok hboot, text_eq_ok hphone, text_eq_ok hnonce, positiveInt_eq_ok hissuedAt]
  rfl

end GrantsListRequest

namespace RevokeKeyRecord

/-- `__post_init__`, on the arguments of the constructor. -/
def make (read : String → Json) : Except GrantRefusal RevokeKeyRecord := do
  let bootloaderId ← text (read "bootloader_id")
  let consumer ← text (read "consumer")
  let subject ← text (read "subject")
  let key ← text (read "key")
  let nonce ← text (read "nonce")
  ensure (isHandle subject) .recordInvalid
  ensure (isConnectionKey key) .recordInvalid
  ensure (isNonce nonce) .recordInvalid
  let notAfter ← positiveInt (read "not_after")
  pure { bootloaderId, consumer, subject, key, notAfter, nonce }

/-- A record that can be built. -/
def Built (r : RevokeKeyRecord) : Prop := ∃ read, make read = .ok r

theorem Built.fromDict_toDict {r : RevokeKeyRecord} (h : r.Built) : fromDict r.toDict = .ok r := by
  obtain ⟨read, hmake⟩ := h
  have hparts := hmake
  simp only [make, Except.bind_eq_ok] at hparts
  obtain ⟨boot, hboot, consumer, hconsumer, subject, hsubject, key, hkey, nonce, hnonce, -, -, -, -,
    -, -, notAfter, hnotAfter, hr⟩ := hparts
  obtain rfl := Except.pure_eq_ok.mp hr
  rw [← hmake]
  unfold make
  rw [text_eq_ok hboot, text_eq_ok hconsumer, text_eq_ok hsubject, text_eq_ok hkey,
    text_eq_ok hnonce, positiveInt_eq_ok hnotAfter]
  rfl

end RevokeKeyRecord

/-! ## The four kinds -/

inductive ActKind where
  | grant
  | revoke
  | revokeKey
  | grantsList
  deriving DecidableEq, Repr

namespace ActKind

/-- `GRANT_PREFIX`, `REVOKE_PREFIX`, `REVOKE_KEY_PREFIX`, `GRANTS_LIST_PREFIX` -/
def domain : ActKind → String
  | grant => "recto-user-vault-grant-v1|"
  | revoke => "recto-user-vault-revoke-v1|"
  | revokeKey => "recto-user-vault-revoke-key-v1|"
  | grantsList => "recto-user-vault-grants-v1|"

/-- `GRANT_RECORD_FIELDS`, `REVOKE_RECORD_FIELDS`, `REVOKE_KEY_RECORD_FIELDS`,
`GRANTS_LIST_FIELDS` -/
def fields : ActKind → List String
  | grant =>
      ["agent_handle", "bootloader_id", "consumer", "key", "nonce", "not_after", "scope", "subject"]
  | revoke => ["bootloader_id", "consumer", "grant_id", "nonce", "subject"]
  | revokeKey => ["bootloader_id", "consumer", "key", "nonce", "not_after", "subject"]
  | grantsList => ["bootloader_id", "issued_at", "nonce", "phone_id"]

/-- No domain is the start of another. -/
theorem domain_unextended {a b : ActKind} (h : utf8 a.domain <+: utf8 b.domain) : a = b := by
  cases a <;> cases b <;> first | rfl | exact absurd h (by decide +kernel)

end ActKind

/-- A record a phone signs. -/
inductive SignedAct where
  | grant (r : GrantRecord)
  | revoke (r : RevokeRecord)
  | revokeKey (r : RevokeKeyRecord)
  | grantsList (r : GrantsListRequest)
  deriving DecidableEq, Repr

namespace SignedAct

def kind : SignedAct → ActKind
  | grant _ => .grant
  | revoke _ => .revoke
  | revokeKey _ => .revokeKey
  | grantsList _ => .grantsList

def toDict : SignedAct → Json
  | grant r => r.toDict
  | revoke r => r.toDict
  | revokeKey r => r.toDict
  | grantsList r => r.toDict

def signedMessage : SignedAct → Bytes
  | grant r => r.signedMessage
  | revoke r => r.signedMessage
  | revokeKey r => r.signedMessage
  | grantsList r => r.signedMessage

/-- The constructor of its type accepts it. -/
def Built : SignedAct → Prop
  | grant r => r.Built
  | revoke r => r.Built
  | revokeKey r => r.Built
  | grantsList r => r.Built

/-- The `from_dict` of a kind. -/
def fromDict (d : Json) : ActKind → Except GrantRefusal SignedAct
  | .grant => (GrantRecord.fromDict d).map grant
  | .revoke => (RevokeRecord.fromDict d).map revoke
  | .revokeKey => (RevokeKeyRecord.fromDict d).map revokeKey
  | .grantsList => (GrantsListRequest.fromDict d).map grantsList

theorem Built.fromDict_toDict {x : SignedAct} (h : x.Built) : fromDict x.toDict x.kind = .ok x := by
  cases x with
  | grant r => exact congrArg (Except.map grant) (GrantRecord.Built.fromDict_toDict h)
  | revoke r => exact congrArg (Except.map revoke) (RevokeRecord.Built.fromDict_toDict h)
  | revokeKey r => exact congrArg (Except.map revokeKey) (RevokeKeyRecord.Built.fromDict_toDict h)
  | grantsList r =>
    exact congrArg (Except.map grantsList) (GrantsListRequest.Built.fromDict_toDict h)

theorem signedMessage_eq (x : SignedAct) :
    x.signedMessage = utf8 x.kind.domain ++ canonicalJson x.toDict := by
  cases x <;> rfl

/-- A record is written with the fields of its kind, each a text or a number. -/
theorem exists_fields (x : SignedAct) :
    ∃ fields, x.toDict = .obj fields ∧ fields.map Prod.fst = x.kind.fields ∧
      Json.Plain (.obj fields) ∧ Json.canonFields fields = fields := by
  cases x with
  | grant r => exact ⟨_, rfl, rfl, by simp [Json.Plain, Json.PlainFields], rfl⟩
  | revoke r => exact ⟨_, rfl, rfl, by simp [Json.Plain, Json.PlainFields], rfl⟩
  | revokeKey r => exact ⟨_, rfl, rfl, by simp [Json.Plain, Json.PlainFields], rfl⟩
  | grantsList r => exact ⟨_, rfl, rfl, by simp [Json.Plain, Json.PlainFields], rfl⟩

theorem kind_eq_of_signedMessage {x y : SignedAct} (h : x.signedMessage = y.signedMessage) :
    x.kind = y.kind := by
  rw [signedMessage_eq, signedMessage_eq] at h
  have hx : utf8 x.kind.domain <+: utf8 y.kind.domain ++ canonicalJson y.toDict := ⟨_, h⟩
  rcases List.prefix_or_prefix_of_prefix hx (List.prefix_append _ _) with hxy | hyx
  · exact ActKind.domain_unextended hxy
  · exact (ActKind.domain_unextended hyx).symm

/-! ## Reading -/

theorem fromWire_obj {fields : List (String × Json)} {names : List String}
    (h : fields.map Prod.fst = names) :
    fromWire (.obj fields) names = .ok fun name => (fields.lookup name).getD .null := by
  subst h
  have hknown : ∀ f ∈ fields, f.1 ∈ fields.map Prod.fst := fun f hf => List.mem_map_of_mem hf
  simp only [fromWire, Except.bind_eq_ok, ensure_eq_ok, Except.pure_eq_ok, exists_const]
  exact ⟨hknown, fun _ h => h, trivial⟩

/-- What a reader makes of the fields `_from_wire` passes on. -/
def readAs (read : String → Json) : ActKind → Except GrantRefusal SignedAct
  | .grant => (GrantRecord.make read).map grant
  | .revoke => (RevokeRecord.make read).map revoke
  | .revokeKey => (RevokeKeyRecord.make read).map revokeKey
  | .grantsList => (GrantsListRequest.make read).map grantsList

theorem fromDict_eq (d : Json) (kind : ActKind) :
    fromDict d kind = fromWire d kind.fields >>= fun read => readAs read kind := by
  cases kind with
  | grant => exact map_bind grant (fromWire d ActKind.grant.fields) GrantRecord.make
  | revoke => exact map_bind revoke (fromWire d ActKind.revoke.fields) RevokeRecord.make
  | revokeKey => exact map_bind revokeKey (fromWire d ActKind.revokeKey.fields) RevokeKeyRecord.make
  | grantsList =>
    exact map_bind grantsList (fromWire d ActKind.grantsList.fields) GrantsListRequest.make

theorem fromWire_refuses {fields : List (String × Json)} {names : List String}
    (h : (∃ name ∈ names, name ∉ fields.map Prod.fst) ∨ ∃ f ∈ fields, f.1 ∉ names) :
    ∃ refusal, fromWire (.obj fields) names = .error refusal := by
  cases hread : fromWire (.obj fields) names with
  | error refusal => exact ⟨refusal, rfl⟩
  | ok read =>
    simp only [fromWire, Except.bind_eq_ok, ensure_eq_ok] at hread
    obtain ⟨-, hknown, -, hpresent, -⟩ := hread
    rcases h with ⟨name, hname, hmissing⟩ | ⟨f, hf, hextra⟩
    · exact absurd (hpresent name hname) hmissing
    · exact absurd (hknown f hf) hextra

/-- The canonical bytes of two records of one kind say the same of both. -/
theorem eq_of_canonicalJson {x y : SignedAct} (hx : x.Built) (hy : y.Built) (hkind : x.kind = y.kind)
    (h : canonicalJson x.toDict = canonicalJson y.toDict) : x = y := by
  obtain ⟨fields, hdict, hnames, hplain, hscalar⟩ := exists_fields x
  obtain ⟨fields', hdict', hnames', hplain', hscalar'⟩ := exists_fields y
  rw [hdict, hdict'] at h
  have hcanon := Json.canon_eq_of_dumps_eq hplain.proper hplain'.proper (encodeUtf8_injective h)
  simp only [Json.canon, hscalar, hscalar', Json.obj.injEq] at hcanon
  have hlookup := lookup_eq_of_perm
    ((Json.sortFields_perm fields).symm.trans (hcanon ▸ Json.sortFields_perm fields'))
    (hplain.proper.1)
  have hread : fromWire x.toDict x.kind.fields = fromWire y.toDict x.kind.fields := by
    rw [hdict, hdict', fromWire_obj hnames, fromWire_obj (hnames'.trans (by rw [hkind]))]
    simp only [hlookup]
  have hsame : fromDict x.toDict x.kind = fromDict y.toDict x.kind := by
    rw [fromDict_eq, fromDict_eq, hread]
  rw [hx.fromDict_toDict, hkind, hy.fromDict_toDict] at hsame
  exact Except.ok.inj hsame

theorem eq_of_signedMessage {x y : SignedAct} (hx : x.Built) (hy : y.Built)
    (h : x.signedMessage = y.signedMessage) : x = y := by
  have hkind := kind_eq_of_signedMessage h
  rw [signedMessage_eq, signedMessage_eq, hkind] at h
  exact eq_of_canonicalJson hx hy hkind (List.append_cancel_left h)

/-- A signed message is of one record of one kind, each kind reads back what it writes and takes no
object with other fields, and with a collision-free digest a grant id is of one grant. -/
theorem signed_acts_apart (env : TokenPrimitives) (hsha : Function.Injective env.sha256) :
    (∀ x y : SignedAct, x.Built → y.Built → x.signedMessage = y.signedMessage → x = y) ∧
      (∀ x : SignedAct, x.Built → fromDict x.toDict x.kind = .ok x) ∧
      (∀ (kind : ActKind) (fields : List (String × Json)),
        (∃ name ∈ kind.fields, name ∉ fields.map Prod.fst) ∨ (∃ f ∈ fields, f.1 ∉ kind.fields) →
          ∃ refusal, fromDict (.obj fields) kind = .error refusal) ∧
      ∀ g g' : GrantRecord, g.Built → g'.Built → g.grantId env = g'.grantId env → g = g' := by
  refine ⟨fun x y hx hy => eq_of_signedMessage hx hy, fun x hx => hx.fromDict_toDict,
    fun kind fields h => ?_, fun g g' hg hg' h => ?_⟩
  · obtain ⟨refusal, hrefusal⟩ := fromWire_refuses h
    exact ⟨refusal, by rw [fromDict_eq, hrefusal]; rfl⟩
  · have hbytes : canonicalJson g.toDict = canonicalJson g'.toDict := hsha (hex_injective h)
    exact GrantRecord.toDict_injective hbytes

/-! ## One grant -/

def sampleGrant : GrantRecord where
  bootloaderId := "bl-1"
  consumer := "https://chat.example"
  subject := "AAECAwQFBgcICQoLDA0ODxAREhMUFRYXGBkaGxwdHh8"
  agentHandle := "ICEiIyQlJicoKSorLC0uLzAxMjM0NTY3ODk6Ozw9Pj8"
  key := "openai"
  scope := "chat"
  notAfter := 1760000200
  nonce := "nnnnnnnnnnnnnnnn"

/-- SHA-256 of the bytes of the grant. -/
def sampleGrantDigest : Bytes :=
  [60, 247, 133, 88, 169, 46, 48, 92, 253, 111, 4, 117, 202, 164, 97, 107, 103, 121, 69, 131, 73,
  227, 247, 176, 204, 47, 22, 119, 160, 114, 46, 220]

/-- SHA-256 on the bytes of the grant, and another injective function elsewhere. -/
def grantPrimitives : TokenPrimitives where
  sha256 raw :=
    if raw = canonicalJson sampleGrant.toDict then sampleGrantDigest
    else List.replicate 33 0 ++ raw
  recoverPublicKey _ _ := none

theorem grantPrimitives_injective : Function.Injective grantPrimitives.sha256 :=
  injective_of_digest rfl _

theorem signed_acts_apart_sample :
    sampleGrant.Built ∧
      ∀ y : SignedAct, y.Built → y.signedMessage = sampleGrant.signedMessage →
        y = .grant sampleGrant := by
  have hbuilt : sampleGrant.Built :=
    ⟨fun name => (field sampleGrant.toDict name).getD .null, by decide +kernel⟩
  exact ⟨hbuilt, fun y hy h =>
    (signed_acts_apart grantPrimitives grantPrimitives_injective).1 y (.grant sampleGrant) hy hbuilt h⟩

end SignedAct

end UserVault
end Recto
