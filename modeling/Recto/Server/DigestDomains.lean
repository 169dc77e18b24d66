import Recto.Server.LastOwner
import Recto.Genesis.Canonical

/-!
# What an owner-plane signature is over

Five kinds of payload are hashed for a signer: a sealed act, the intent of a
reset, its arming and its abort, and an owner enrolment. Each is framed in its
own way, and each holds its fields as canonical JSON, so the hashed bytes give
the kind and the fields back. Dictionaries compare without the order of their
keys.
-/

namespace Recto
namespace Server

open Genesis

/-- A dictionary as `json.loads` gives one. -/
structure JsonObject where
  fields : List (String × Json)
  proper : Json.Proper (.obj fields)

namespace JsonObject

def toJson (o : JsonObject) : Json := .obj o.fields

/-- The dictionary with its keys in order, at every level. -/
def canon (o : JsonObject) : JsonObject :=
  ⟨Json.sortFields (Json.canonFields o.fields), o.proper.canon⟩

theorem toJson_canon (o : JsonObject) : o.canon.toJson = Json.canon o.toJson := rfl

theorem eq_of_toJson {o o' : JsonObject} (h : o.toJson = o'.toJson) : o = o' := by
  cases o
  cases o'
  obtain rfl := Json.obj.inj h
  rfl

/-- The canonical text says what is in a dictionary. -/
theorem canon_eq_of_text {o o' : JsonObject} (h : canonicalMeta o.toJson = canonicalMeta o'.toJson) :
    o.canon = o'.canon := by
  refine eq_of_toJson ?_
  rw [toJson_canon, toJson_canon]
  exact Json.canon_eq_of_dumps_eq o.proper o'.proper (String.ofList_injective h)

end JsonObject

/-- The fields of an entry, its sealed id and its signatures apart. -/
structure ActFields where
  seq : ℤ
  op : String
  kind : String
  pubkey : Bytes
  algorithm : String
  prev : Option String
  metaObject : Option JsonObject

/-- The fields an owner enrolment binds. -/
structure EnrollFields where
  bootloaderId : String
  slot : String
  incomingPubkey : String
  incomingRef : String
  approverRef : String
  occupantRef : Option String
  requestId : String
  notAfter : ℤ
  deriving DecidableEq, Repr

/-- The body of an enrolment; it names its own version. -/
def EnrollFields.fields (f : EnrollFields) : List (String × Json) :=
  [("v", .str "recto-owner-enroll-v1"), ("bootloader_id", .str f.bootloaderId),
    ("slot", .str f.slot), ("incoming_pubkey", .str f.incomingPubkey),
    ("incoming_ref", .str f.incomingRef), ("approver_ref", .str f.approverRef),
    ("occupant_ref", f.occupantRef.elim .null .str), ("request_id", .str f.requestId),
    ("not_after", .int f.notAfter)]

def EnrollFields.toJson (f : EnrollFields) : Json := .obj f.fields

/-- The kinds of payload. -/
inductive Family where
  | act
  | resetIntent
  | resetArm
  | resetAbort
  | ownerEnroll
  deriving DecidableEq, Repr

/-- What is hashed for a signer, by its family. -/
inductive Payload where
  | act (fields : ActFields) (sealedId : String)
  | resetIntent (intent : JsonObject)
  | resetArm (arm : JsonObject)
  | resetAbort (abort : JsonObject)
  | ownerEnroll (fields : EnrollFields)

def ActFields.metaText (f : ActFields) : Option String :=
  f.metaObject.map fun o => canonicalMeta o.toJson

/-- `act_message` -/
def ActFields.message (env : Host) (f : ActFields) (sealedId : Option String) : Bytes :=
  actMessage env.toPrimitives f.seq f.op f.kind f.pubkey f.algorithm f.prev f.metaText sealedId

namespace Payload

/-- The digest a signer is asked to sign. -/
def digest (env : Host) : Payload → Bytes
  | act f sealedId => f.message env (some sealedId)
  | resetIntent o => env.sha256 (utf8 "recto-owner-reset-intent-v1|" ++ utf8 (canonicalMeta o.toJson))
  | resetArm o => env.sha256 (utf8 "recto-owner-reset-arm-v1|" ++ utf8 (canonicalMeta o.toJson))
  | resetAbort o => env.sha256 (utf8 "recto-owner-reset-abort-v1|" ++ utf8 (canonicalMeta o.toJson))
  | ownerEnroll f => env.sha256 (utf8 (canonicalMeta f.toJson))

def family : Payload → Family
  | act _ _ => .act
  | resetIntent _ => .resetIntent
  | resetArm _ => .resetArm
  | resetAbort _ => .resetAbort
  | ownerEnroll _ => .ownerEnroll

/-- The payload with the keys of its dictionaries in order. -/
def canon : Payload → Payload
  | act f sealedId => act { f with metaObject := f.metaObject.map JsonObject.canon } sealedId
  | resetIntent o => resetIntent o.canon
  | resetArm o => resetArm o.canon
  | resetAbort o => resetAbort o.canon
  | ownerEnroll f => ownerEnroll f

/-- The same family and equal field values. -/
def Same (p q : Payload) : Prop := p.family = q.family ∧ p.canon = q.canon

end Payload

/-! ## The digests of the server -/

section

variable (env : Host)

theorem proper_intent (intent : Intent) : Json.Proper intent.toJson := by
  have hstrs : ∀ (names : List String), Json.ProperElements (names.map .str) := by
    intro names
    induction names with
    | nil => trivial
    | cons name names ih => exact ⟨trivial, ih⟩
  have hslots := hstrs (intent.slots.map OwnerSlot.name)
  rw [List.map_map] at hslots
  exact ⟨by simp, trivial, trivial, hslots, hstrs _, trivial, trivial, trivial⟩

/-- The intent of a reset as a payload. -/
def Intent.payload (intent : Intent) : Payload := .resetIntent ⟨_, proper_intent intent⟩

theorem digest_intent (intent : Intent) :
    intent.payload.digest env = resetIntentDigest env intent := rfl

/-- What arms a reset as a payload. -/
def Arm.payload (arm : Arm) : Payload :=
  .resetArm ⟨[("intent_id", .str arm.intentId), ("slot", .str arm.slot), ("nonce", .str arm.nonce),
    ("not_after", .int arm.notAfter)], by simp [Json.Proper, Json.ProperFields]⟩

theorem digest_arm (arm : Arm) : arm.payload.digest env = resetArmDigest env arm := rfl

/-- What aborts a reset as a payload. -/
def Abort.payload (abort : Abort) : Payload :=
  .resetAbort ⟨[("intent_id", .str abort.intentId), ("nonce", .str abort.nonce),
    ("not_after", .int abort.notAfter)], by simp [Json.Proper, Json.ProperFields]⟩

theorem digest_abort (abort : Abort) : abort.payload.digest env = resetAbortDigest env abort := rfl

theorem digest_ownerEnroll (f : EnrollFields) (slot : OwnerSlot) (hslot : f.slot = slot.name) :
    (Payload.ownerEnroll f).digest env =
      ownerEnrollDigest env f.bootloaderId slot f.incomingPubkey f.incomingRef f.approverRef
        f.occupantRef f.requestId f.notAfter := by
  simp only [Payload.digest, EnrollFields.toJson, EnrollFields.fields, ownerEnrollDigest, hslot]

end

/-! ## The bytes that are hashed -/

/-- What the bytes of a family start with: its domain, or the brace of a JSON object. -/
def Family.start : Family → Bytes
  | .act => utf8 chainDomain
  | .resetIntent => utf8 "recto-owner-reset-intent-v1|"
  | .resetArm => utf8 "recto-owner-reset-arm-v1|"
  | .resetAbort => utf8 "recto-owner-reset-abort-v1|"
  | .ownerEnroll => utf8 "\x7b"

/-- No start is the start of another. -/
theorem Family.start_prefixFree {a b : Family} (h : a.start <+: b.start) : a = b := by
  cases a <;> cases b <;> first | rfl | exact absurd h (by decide +kernel)

/-- The bytes under the digest. -/
def Payload.bytes : Payload → Bytes
  | .act f sealedId =>
      signingBytes f.seq f.op f.kind f.pubkey f.algorithm f.prev f.metaText (some sealedId)
  | .resetIntent o => utf8 "recto-owner-reset-intent-v1|" ++ utf8 (canonicalMeta o.toJson)
  | .resetArm o => utf8 "recto-owner-reset-arm-v1|" ++ utf8 (canonicalMeta o.toJson)
  | .resetAbort o => utf8 "recto-owner-reset-abort-v1|" ++ utf8 (canonicalMeta o.toJson)
  | .ownerEnroll f => utf8 (canonicalMeta f.toJson)

theorem Payload.digest_eq (env : Host) (p : Payload) : p.digest env = env.sha256 p.bytes := by
  cases p <;> rfl

theorem utf8_ofList (cs : List Char) : utf8 (String.ofList cs) = encodeUtf8 cs := by
  rw [utf8, chars_ofList]

theorem Payload.start_prefix (p : Payload) : p.family.start <+: p.bytes := by
  cases p with
  | ownerEnroll f =>
    have hbody : utf8 (canonicalMeta f.toJson) =
        utf8 "\x7b" ++ encodeUtf8 (Json.renderFields (Json.sortFields (Json.canonFields
          f.fields))) := by
      rw [canonicalMeta, utf8_ofList]
      rfl
    exact ⟨_, hbody.symm⟩
  | act f sealedId => exact List.prefix_append _ _
  | resetIntent o => exact List.prefix_append _ _
  | resetArm o => exact List.prefix_append _ _
  | resetAbort o => exact List.prefix_append _ _

theorem Payload.family_eq_of_bytes {p q : Payload} (h : p.bytes = q.bytes) :
    p.family = q.family := by
  rcases List.prefix_or_prefix_of_prefix p.start_prefix (h ▸ q.start_prefix) with hpq | hqp
  · exact Family.start_prefixFree hpq
  · exact (Family.start_prefixFree hqp).symm

theorem EnrollFields.eq_of_text {f g : EnrollFields}
    (h : canonicalMeta f.toJson = canonicalMeta g.toJson) : f = g := by
  have hproper : ∀ f : EnrollFields, Json.Proper f.toJson := fun f => by
    cases hocc : f.occupantRef <;>
      simp [EnrollFields.toJson, EnrollFields.fields, Json.Proper, Json.ProperFields, hocc]
  have hcanon : ∀ f : EnrollFields, Json.canon f.toJson = .obj (Json.sortFields f.fields) := fun f => by
    cases hocc : f.occupantRef <;>
      simp [EnrollFields.toJson, EnrollFields.fields, Json.canon, Json.canonFields, hocc]
  have heq := Json.canon_eq_of_dumps_eq (hproper f) (hproper g) (String.ofList_injective h)
  rw [hcanon, hcanon] at heq
  have hperm : f.fields.Perm g.fields :=
    (Json.sortFields_perm _).symm.trans (Json.obj.inj heq ▸ Json.sortFields_perm g.fields)
  have hlookup := lookup_eq_of_perm hperm (hproper f).1
  have hoccupant : (f.occupantRef.elim .null .str : Json) = g.occupantRef.elim .null .str :=
    Option.some.inj (hlookup "occupant_ref")
  have hocc : f.occupantRef = g.occupantRef := by
    cases hf : f.occupantRef <;> cases hg : g.occupantRef <;> simp_all
  have hslot := Json.str.inj (Option.some.inj (hlookup "slot"))
  have hboot := Json.str.inj (Option.some.inj (hlookup "bootloader_id"))
  have hkey := Json.str.inj (Option.some.inj (hlookup "incoming_pubkey"))
  have hincoming := Json.str.inj (Option.some.inj (hlookup "incoming_ref"))
  have happrover := Json.str.inj (Option.some.inj (hlookup "approver_ref"))
  have hrequest := Json.str.inj (Option.some.inj (hlookup "request_id"))
  have hnotAfter := Json.int.inj (Option.some.inj (hlookup "not_after"))
  cases f
  cases g
  simp_all

theorem map_eq_of_map {α β γ : Type} {f : α → β} {g : α → γ}
    (hfg : ∀ a a', f a = f a' → g a = g a') :
    ∀ {x y : Option α}, x.map f = y.map f → x.map g = y.map g
  | none, none, _ => rfl
  | some a, some a', h => congrArg some (hfg a a' (Option.some.inj h))
  | none, some _, h => by simp at h
  | some _, none, h => by simp at h

/-- The text of a meta says what is in it. -/
theorem ActFields.canon_eq_of_metaText {f g : ActFields} (h : f.metaText = g.metaText) :
    f.metaObject.map JsonObject.canon = g.metaObject.map JsonObject.canon :=
  map_eq_of_map (fun _ _ => JsonObject.canon_eq_of_text) h

/-- The hashed bytes give the payload back. -/
theorem Payload.same_of_bytes {p q : Payload} (h : p.bytes = q.bytes) : p.Same q := by
  have hfamily := family_eq_of_bytes h
  refine ⟨hfamily, ?_⟩
  have htext : ∀ (domain : String) (o o' : JsonObject),
      utf8 domain ++ utf8 (canonicalMeta o.toJson) = utf8 domain ++ utf8 (canonicalMeta o'.toJson) →
        o.canon = o'.canon := fun domain o o' h =>
    JsonObject.canon_eq_of_text (utf8_injective (List.append_cancel_left h))
  cases p <;> cases q <;> try cases hfamily
  case act.act f sealedId g sealedId' =>
    obtain ⟨hseq, hop, hkind, hpubkey, halgorithm, hprev, hmeta, hsealed⟩ := signingBytes_injective h
    have hmeta := ActFields.canon_eq_of_metaText hmeta
    obtain rfl := Option.some.inj hsealed
    simp only [canon, hseq, hop, hkind, hpubkey, halgorithm, hprev, hmeta]
  case resetIntent.resetIntent o o' => exact congrArg resetIntent (htext _ _ _ h)
  case resetArm.resetArm o o' => exact congrArg resetArm (htext _ _ _ h)
  case resetAbort.resetAbort o o' => exact congrArg resetAbort (htext _ _ _ h)
  case ownerEnroll.ownerEnroll f g =>
    exact congrArg ownerEnroll (EnrollFields.eq_of_text (utf8_injective h))

/-! ## The bytes signed before the seal -/

theorem length_le_encodeUtf8 (cs : List Char) : cs.length ≤ (encodeUtf8 cs).length := by
  induction cs with
  | nil => exact Nat.zero_le _
  | cons c cs ih =>
    have hc : 1 ≤ (String.utf8EncodeChar c).length := by
      unfold String.utf8EncodeChar
      simp only
      split_ifs <;> simp
    have hcons : encodeUtf8 (c :: cs) = String.utf8EncodeChar c ++ encodeUtf8 cs := rfl
    rw [hcons, List.length_append, List.length_cons]
    omega

/-- Two quotes, a colon and an end for each field. -/
theorem length_le_renderFields (fs : List (String × Json)) :
    4 * fs.length ≤ (Json.renderFields fs).length := by
  have hquote : ∀ k : String, 2 ≤ (Json.quote k).length := fun k => by simp [Json.quote]
  induction fs with
  | nil => simp
  | cons f fs ih =>
    obtain ⟨k, x⟩ := f
    have hk := hquote k
    cases fs with
    | nil =>
      simp only [Json.renderFields, List.length_append, List.length_cons, List.length_nil]
      omega
    | cons g fs =>
      simp only [Json.renderFields, List.length_append, List.length_cons] at ih ⊢
      omega

/-- Six fields at least: longer than a digest. -/
theorem length_signingBytes (seq : ℤ) (op kind : String) (pubkey : Bytes) (algorithm : String)
    (prev metaText sealedId : Option String) :
    32 < (signingBytes seq op kind pubkey algorithm prev metaText sealedId).length := by
  set fields := signingFields seq op kind pubkey algorithm prev metaText sealedId with hfields
  have hsix : 6 ≤ fields.length := by
    simp only [hfields, signingFields, List.length_append, List.length_cons, List.length_nil]
    omega
  have hrender := length_le_renderFields (Json.sortFields fields)
  rw [(Json.sortFields_perm fields).length_eq] at hrender
  have hdumps : Json.dumps (.obj fields) = '\x7b' :: Json.renderFields (Json.sortFields fields) := by
    rw [Json.dumps, canon_signingFields]
    rfl
  have hbytes := length_le_encodeUtf8 (Json.dumps (.obj fields))
  have hdomain : (utf8 chainDomain).length = 22 := by decide +kernel
  rw [hdumps, List.length_cons] at hbytes
  simp only [signingBytes, List.length_append, List.length_cons, hdomain, ← hfields]
  rw [hdumps]
  omega

/-! ## Separation -/

/-- Equal digests come from one family and equal fields, acts under two sealed ids share no message,
and what is signed before the seal is no digest. -/
theorem digests_separate (env : Host) :
    (Function.Injective env.sha256 →
      (∀ p q : Payload, p.digest env = q.digest env → p.Same q) ∧
        ∀ (f g : ActFields) (a b : String), a ≠ b →
          f.message env (some a) ≠ g.message env (some b)) ∧
      ((∀ raw, (env.sha256 raw).length = 32) →
        ∀ (f : ActFields) (p : Payload), f.message env none ≠ p.digest env) := by
  refine ⟨fun hinjective => ?_, fun hlength f p h => ?_⟩
  · have hsame : ∀ p q : Payload, p.digest env = q.digest env → p.Same q := fun p q h => by
      rw [Payload.digest_eq, Payload.digest_eq] at h
      exact Payload.same_of_bytes (hinjective h)
    refine ⟨hsame, fun f g a b hne h => hne ?_⟩
    exact (Payload.act.inj (hsame (.act f a) (.act g b) h).2).2
  · have hraw := length_signingBytes f.seq f.op f.kind f.pubkey f.algorithm f.prev f.metaText none
    have hdigest := hlength p.bytes
    have hmessage : f.message env none =
        signingBytes f.seq f.op f.kind f.pubkey f.algorithm f.prev f.metaText none := rfl
    rw [← Payload.digest_eq, ← h, hmessage] at hdigest
    omega

/-- The first thirty-two bytes, with zeros after a shorter text. -/
def firstBytes (raw : Bytes) : Bytes := (raw ++ List.replicate 32 0).take 32

/-- Hashing that keeps every byte, and hashing to thirty-two. -/
theorem digests_separate_sample :
    (∀ p q : Payload, p.digest { sampleHost with sha256 := id } =
        q.digest { sampleHost with sha256 := id } → p.Same q) ∧
      ∀ (f : ActFields) (p : Payload), f.message { sampleHost with sha256 := firstBytes } none ≠
        p.digest { sampleHost with sha256 := firstBytes } :=
  ⟨((digests_separate { sampleHost with sha256 := id }).1 fun _ _ h => h).1,
    (digests_separate { sampleHost with sha256 := firstBytes }).2 fun raw => by simp [firstBytes]⟩

end Server
end Recto
