import Recto.Connections.ActRecord
import Recto.Json.RoundTrip

/-!
# One connection grant, one act

What `verify_act_grant` has established of the claims and the record when it
admits them, and that it admits no second record for the same claims. The grant
fixes the service, the verb and the expiry in fields of its own; the key and the
digest of a set's value only through the fingerprint.
-/

namespace Recto
namespace Connections

open Capability

variable {env : TokenPrimitives} {claims : CapabilityClaims} {r r' : ActRecord}
  {bootloaderId fingerprint : String} {admitSet : Bool}

/-! ## Records -/

/-- A record that the constructor accepts, as `from_dict` passes its fields. -/
def ActRecord.OfDict (r : ActRecord) : Prop := ∃ d, ActRecord.fromDict d = .ok r

theorem readValueSha256_eq_none {verb : ActVerb} {x : Json} {value : Option String}
    (h : readValueSha256 verb x = .ok value) (hverb : verb ≠ .set) : value = none := by
  unfold readValueSha256 at h
  rw [if_neg hverb] at h
  split_ifs at h
  exact (Except.ok.inj h).symm

theorem readValueSha256_eq_some {x : Json} {value : Option String}
    (h : readValueSha256 .set x = .ok value) : ∃ digest, value = some digest := by
  unfold readValueSha256 at h
  rw [if_pos rfl] at h
  split at h
  · simp at h
  · split_ifs at h
    exact ⟨_, (Except.ok.inj h).symm⟩
  · simp at h

/-- Only a set carries a digest, and every set does. -/
theorem ActRecord.OfDict.valueSha256 (h : r.OfDict) :
    (r.verb ≠ .set → r.valueSha256 = none) ∧ (r.verb = .set → ∃ digest, r.valueSha256 = some digest) := by
  obtain ⟨d, hd⟩ := h
  cases d with
  | obj fields =>
    simp only [ActRecord.fromDict, Except.bind_eq_ok] at hd
    obtain ⟨-, -, _, -, _, -, _, -, _, -, -, -, hd⟩ := hd
    split at hd
    · simp at hd
    · split at hd
      · simp only [Except.bind_eq_ok] at hd
        obtain ⟨-, -, value, hvalue, hd⟩ := hd
        split at hd
        · simp at hd
        · simp only [Except.bind_eq_ok, Except.pure_eq_ok] at hd
          obtain ⟨-, -, rfl⟩ := hd
          refine ⟨readValueSha256_eq_none hvalue, ?_⟩
          rintro rfl
          exact readValueSha256_eq_some hvalue
      · simp at hd
  | _ => simp [ActRecord.fromDict] at hd

theorem ActVerb.action_injective : Function.Injective ActVerb.action := by
  intro v w
  cases v <;> cases w <;> decide

theorem ActRecord.plain_toDict (r : ActRecord) : Json.Plain r.toDict := by
  unfold ActRecord.toDict
  split_ifs
  · cases r.valueSha256 <;> simp [Json.Plain, Json.PlainFields]
  · simp [Json.Plain, Json.PlainFields]

/-- Records of one verb with the same canonical bytes name the same key and digest. -/
theorem ActRecord.eq_of_canonicalJson (hr : r.OfDict) (hr' : r'.OfDict) (hverb : r.verb = r'.verb)
    (h : canonicalJson r.toDict = canonicalJson r'.toDict) : r = r' := by
  have hcanon := Json.canon_eq_of_dumps_eq r.plain_toDict.proper r'.plain_toDict.proper
    (encodeUtf8_injective h)
  have hnodup := r.plain_toDict
  obtain ⟨bootloaderId, service, key, verb, notAfter, value⟩ := r
  obtain ⟨bootloaderId', service', key', verb', notAfter', value'⟩ := r'
  simp only at hverb
  subst hverb
  by_cases hset : verb = .set
  · obtain ⟨digest, hvalue⟩ := hr.valueSha256.2 hset
    obtain ⟨digest', hvalue'⟩ := hr'.valueSha256.2 hset
    simp only at hvalue hvalue'
    subst hset hvalue hvalue'
    simp only [ActRecord.toDict, if_true, List.cons_append, List.nil_append, Option.map_some,
      Option.getD_some, Json.canon, Json.canonFields, Json.obj.injEq] at hcanon
    have hlookup := lookup_eq_of_perm
      ((Json.sortFields_perm _).symm.trans (hcanon ▸ Json.sortFields_perm _)) (by simp)
    simp only [ActRecord.mk.injEq]
    refine ⟨?_, ?_, ?_, trivial, ?_, ?_⟩
    · simpa [List.lookup_cons] using (hlookup "bootloader_id").symm
    · simpa [List.lookup_cons] using (hlookup "service").symm
    · simpa [List.lookup_cons] using (hlookup "key").symm
    · simpa [List.lookup_cons] using (hlookup "not_after").symm
    · simpa [List.lookup_cons] using (hlookup "value_sha256").symm
  · have hvalue := hr.valueSha256.1 hset
    have hvalue' := hr'.valueSha256.1 hset
    simp only at hvalue hvalue'
    subst hvalue hvalue'
    simp only [ActRecord.toDict, if_neg hset, List.append_nil, Json.canon, Json.canonFields,
      Json.obj.injEq] at hcanon
    have hlookup := lookup_eq_of_perm
      ((Json.sortFields_perm _).symm.trans (hcanon ▸ Json.sortFields_perm _)) (by simp)
    simp only [ActRecord.mk.injEq]
    refine ⟨?_, ?_, ?_, trivial, ?_, trivial⟩
    · simpa [List.lookup_cons] using (hlookup "bootloader_id").symm
    · simpa [List.lookup_cons] using (hlookup "service").symm
    · simpa [List.lookup_cons] using (hlookup "key").symm
    · simpa [List.lookup_cons] using (hlookup "not_after").symm

/-! ## Grants -/

/-- What the claims of an admitted grant are, and what they name. -/
structure GrantFor (env : TokenPrimitives) (claims : CapabilityClaims) (r : ActRecord)
    (bootloaderId : String) (admitSet : Bool) : Prop where
  allows : claims.cap.allowActions = [.str r.verb.action]
  denies : claims.cap.denyActions = []
  groups : claims.cap.groups = []
  singleUse : isOne claims.maxUses = true
  ownKey : claims.parentProfile = .null
  audience : claims.aud = [.str bootloaderId]
  bootloader : r.bootloaderId = bootloaderId
  window : claims.iat < claims.exp ∧ claims.exp - claims.iat ≤ actWindowSeconds
  expires : claims.exp = r.notAfter
  pinned : isStr claims.cap.scope.payloadSha256 = true ∧
    textOf claims.cap.scope.payloadSha256 = r.fingerprint env
  purpose : ∃ purpose, r.purpose = .ok purpose ∧ claims.purpose = .str purpose
  services : claims.cap.scope.services = [.str r.service]
  noOther : ∀ x ∈ otherScopeFields claims.cap.scope, isUnset x = true
  setAdmitted : r.verb = .set → admitSet = true

theorem soleAction_eq_some {cap : CapabilityClause} {action : String}
    (h : soleAction cap = some action) :
    cap.allowActions = [.str action] ∧ cap.denyActions = [] := by
  unfold soleAction at h
  split at h
  · rename_i heq heq'
    split_ifs at h
    obtain rfl := Option.some.inj h
    exact ⟨heq, heq'⟩
  · simp at h

theorem GrantFor.of_eq_ok
    (h : verifyActGrant env claims r bootloaderId admitSet = .ok fingerprint) :
    GrantFor env claims r bootloaderId admitSet := by
  simp only [verifyActGrant, Except.bind_eq_ok, ensure_eq_ok] at h
  obtain ⟨-, hgroups, -, hsole, -, -, -, hset, -, huses, -, hprofile, -, haud, -, hwindow, -, haction,
    -, hboot, -, hexp, -, hpinned, h⟩ := h
  split at h
  · simp at h
  · rename_i purpose hpurpose
    simp only [Except.bind_eq_ok, ensure_eq_ok] at h
    obtain ⟨-, hshown, -, hservices, -, hother, -⟩ := h
    obtain ⟨action, haction'⟩ := Option.ne_none_iff_exists'.mp hsole
    rw [haction', Option.getD_some] at haction hset
    obtain ⟨hallow, hdeny⟩ := soleAction_eq_some haction'
    refine ⟨haction ▸ hallow, hdeny, hgroups, huses, hprofile, haud, hboot, ⟨hwindow.2, hwindow.1⟩,
      hexp.symm, hpinned, ⟨purpose, hpurpose, hshown⟩, hservices, List.all_eq_true.mp hother, ?_⟩
    intro hverb
    exact hset (by rw [haction, hverb])

/-- With a collision-free digest, claims are a grant for at most one record, whether sets are
admitted or not, and for a record they are a grant for they say all of the above. -/
theorem one_grant_one_act (env : TokenPrimitives) (hsha : Function.Injective env.sha256)
    (claims : CapabilityClaims) (bootloaderId : String) :
    (∀ (r r' : ActRecord) (admitSet admitSet' : Bool) (fingerprint fingerprint' : String),
      r.OfDict → r'.OfDict →
      verifyActGrant env claims r bootloaderId admitSet = .ok fingerprint →
      verifyActGrant env claims r' bootloaderId admitSet' = .ok fingerprint' → r = r') ∧
    ∀ (r : ActRecord) (admitSet : Bool) (fingerprint : String),
      verifyActGrant env claims r bootloaderId admitSet = .ok fingerprint →
      GrantFor env claims r bootloaderId admitSet := by
  refine ⟨?_, fun r admitSet fingerprint h => GrantFor.of_eq_ok h⟩
  intro r r' admitSet admitSet' fingerprint fingerprint' hr hr' h h'
  have hgrant := GrantFor.of_eq_ok h
  have hgrant' := GrantFor.of_eq_ok h'
  have hverb : r.verb = r'.verb := by
    have hactions := hgrant.allows.symm.trans hgrant'.allows
    exact ActVerb.action_injective (by simpa using hactions)
  have hprint : r.fingerprint env = r'.fingerprint env :=
    hgrant.pinned.2.symm.trans hgrant'.pinned.2
  exact ActRecord.eq_of_canonicalJson hr hr' hverb (hsha (hex_injective hprint))

/-! ## A set and its grant -/

def sampleRecord : ActRecord where
  bootloaderId := "boot-1"
  service := "web"
  key := "wiki"
  verb := .set
  notAfter := 1760000200
  valueSha256 := some "8254c329a92850f6d539dd376f4816ee2764517da5e0235514af433164480d7a"

def sampleDigest : Bytes :=
  [151, 127, 35, 15, 252, 20, 35, 134, 246, 244, 146, 28, 19, 226, 187, 54, 181, 9, 234, 106,
  228, 163, 177, 212, 171, 2, 212, 195, 235, 206, 157, 115]

/-- SHA-256 on the bytes of the record, and another injective function elsewhere. -/
def samplePrimitives : TokenPrimitives where
  sha256 raw :=
    if raw = canonicalJson sampleRecord.toDict then sampleDigest else List.replicate 33 0 ++ raw
  recoverPublicKey _ _ := none

theorem samplePrimitives_injective : Function.Injective samplePrimitives.sha256 :=
  injective_of_digest rfl _

def sampleClaims : CapabilityClaims where
  iss := .str "operator"
  sub := .str "console"
  aud := [.str "boot-1"]
  iat := 1760000000
  nbf := 1760000000
  exp := 1760000200
  jti := .str "jti-1"
  cap :=
    { tier := .int 2
      registryVersion := .str "1"
      groups := []
      scope :=
        { env := []
          services := [.str "web"]
          repos := []
          createForOwner := .null
          chatRoomId := .null
          targetUserId := .null
          pairingCode := .null
          payloadSha256 := .str "977f230ffc142386f6f4921c13e2bb36b509ea6ae4a3b1d4ab02d4c3ebce9d73" }
      allowActions := [.str "connections:set"]
      denyActions := []
      limits := { perHour := [], perDay := [], perSession := [] } }
  purpose := .str "Vault SET: web/wiki = sha256:8254c329a928... on boot-1 - until 2025-10-09 08:56Z"
  parentCap := .null
  maxUses := .int 1
  parentProfile := .null

theorem sampleRecord_ofDict : sampleRecord.OfDict :=
  ⟨sampleRecord.toDict, by decide +kernel⟩

theorem sample_admitted : verifyActGrant samplePrimitives sampleClaims sampleRecord "boot-1" true =
    .ok "977f230ffc142386f6f4921c13e2bb36b509ea6ae4a3b1d4ab02d4c3ebce9d73" := by decide +kernel

theorem one_grant_one_act_sample :
    GrantFor samplePrimitives sampleClaims sampleRecord "boot-1" true ∧
      ∀ (r : ActRecord) (admitSet : Bool) (fingerprint : String), r.OfDict →
        verifyActGrant samplePrimitives sampleClaims r "boot-1" admitSet = .ok fingerprint →
          r = sampleRecord := by
  obtain ⟨hone, hgrants⟩ :=
    one_grant_one_act samplePrimitives samplePrimitives_injective sampleClaims "boot-1"
  exact ⟨hgrants _ _ _ sample_admitted, fun r admitSet fingerprint hr h =>
    hone r sampleRecord _ _ _ _ hr sampleRecord_ofDict h sample_admitted⟩

end Connections
end Recto
