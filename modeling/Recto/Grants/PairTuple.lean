import Recto.Grants.Handlers
import Recto.Wire.Records

/-!
# One pairing grant, one tuple

What `verify_pair_grant` has established of the claims and the record when it
admits them, and that it admits no second record for the same claims. A pairing
request is read, verified and relayed; what is relayed is the record the grant's
fingerprint covers, and its code.
-/

namespace Recto
namespace Capability

variable {env : TokenPrimitives} {claims : CapabilityClaims} {r r' : PairRecord}
  {signer bootloaderId action fingerprint : String} {now : ℤ}

theorem PairRecord.plain_toDict (r : PairRecord) : Json.Plain r.toDict := by
  simp [toDict, Json.Plain, Json.PlainFields]

/-- The canonical bytes say every field of the record. -/
theorem PairRecord.eq_of_canonicalJson (h : canonicalJson r.toDict = canonicalJson r'.toDict) :
    r = r' := by
  have hcanon := Json.canon_eq_of_dumps_eq r.plain_toDict.proper r'.plain_toDict.proper
    (encodeUtf8_injective h)
  simp only [toDict, Json.canon, Json.canonFields, Json.obj.injEq] at hcanon
  have hlookup := lookup_eq_of_perm
    ((Json.sortFields_perm _).symm.trans (hcanon ▸ Json.sortFields_perm _)) (by simp)
  cases r
  cases r'
  simp only [mk.injEq]
  refine ⟨?_, ?_, ?_, ?_, ?_⟩
  · simpa [List.lookup_cons] using (hlookup "bootloader_id").symm
  · simpa [List.lookup_cons] using (hlookup "subject").symm
  · simpa [List.lookup_cons] using (hlookup "phone_pubkey").symm
  · simpa [List.lookup_cons] using (hlookup "code").symm
  · simpa [List.lookup_cons] using (hlookup "not_after").symm

/-- With a collision-free digest a fingerprint is of one record. -/
theorem PairRecord.fingerprint_injective (hsha : Function.Injective env.sha256)
    (h : r.fingerprint env = r'.fingerprint env) : r = r' :=
  eq_of_canonicalJson (hsha (hex_injective h))

/-- What the claims of an admitted grant are, and what they name. -/
structure PairGrantFor (env : TokenPrimitives) (claims : CapabilityClaims) (r : PairRecord)
    (signer bootloaderId action : String) (now : ℤ) : Prop where
  allows : .str action ∈ claims.cap.allowActions
  audience : .str bootloaderId ∈ claims.aud
  signed : r.phonePubkey = bareKey signer
  inTime : now < r.notAfter
  window : claims.exp - claims.nbf ≤ pairWindowCeilingSeconds
  pinned : isStr claims.cap.scope.payloadSha256 = true ∧
    textOf claims.cap.scope.payloadSha256 = r.fingerprint env
  code : claims.cap.scope.pairingCode = .null ∨ claims.cap.scope.pairingCode = .str r.code

theorem PairGrantFor.of_eq_ok
    (h : verifyPairGrant env claims r signer bootloaderId now action = .ok fingerprint) :
    PairGrantFor env claims r signer bootloaderId action now ∧ fingerprint = r.fingerprint env := by
  simp only [verifyPairGrant, Except.bind_eq_ok, ensure_eq_ok] at h
  obtain ⟨-, hallows, -, haud, -, hsigned, -, htime, -, hwindow, -, -, -, hstr, -, hpinned, -, hcode,
    h⟩ := h
  exact ⟨⟨hallows, haud, hsigned.symm, htime, hwindow, ⟨hstr, hpinned⟩, hcode⟩,
    (Except.ok.inj h).symm⟩

end Capability

namespace Grants

open Capability State

/-! ## The pairing route -/

/-- `_handle_devices_pair`, with the digits of every script. -/
def handleDevicesPairOfWire (t : DigitTables) (cfg : Config) (body : Json) : Handler :=
  if cfg.consumerTokens.items = [] then refuse 404 "unknown_endpoint"
  else
    match nonBlank (at? body "consumer_base_url"), nonBlank (at? body "user_jws") with
    | some url, some jws =>
        if isDict (at? body "record") = false then refuse 400 "record_required"
        else
          match PairRecord.ofWire t (at? body "record") with
          | .error (.named refusal) => refuse 400 refusal.name
          | .error (.raised _) => internalError
          | .ok record =>
              if record.bootloaderId ≠ cfg.bootloaderId then refuse 403 "record_bootloader_mismatch"
              else if normalizeSubject (.str record.subject) = none then
                refuse 400 "record_subject_invalid"
              else .call .time fun (now : ℤ) =>
                match verifyJws cfg.env jws ((fromHex record.phonePubkey).getD [])
                    (some cfg.bootloaderId) none now with
                | .error .valueError => refuse 403 "grant_signature_invalid"
                | .error _ => internalError
                | .ok claims => pairOnGrant cfg claims record url jws
    | _, _ => badRequest

/-- The two programs of the route are one where the deadline is no text. -/
theorem handleDevicesPairOfWire_eq (t : DigitTables) (cfg : Config) {body : Json}
    {fields : List (String × Json)} (hrecord : at? body "record" = .obj fields)
    (h : ∀ s, fields.lookup "not_after" ≠ some (.str s)) :
    handleDevicesPairOfWire t cfg body = handleDevicesPair cfg body := by
  unfold handleDevicesPairOfWire handleDevicesPair
  rw [hrecord, PairRecord.ofWire_eq_fromDict t h]
  cases PairRecord.fromDict (.obj fields) <;> rfl

/-- The claims of the token, which the record's own key signed, are a grant for the relayed record;
the code, the key and the fingerprint beside it are the record's. -/
structure Covered (t : DigitTables) (cfg : Config) (body : Json) (relay : PairingRelay)
    (claims : CapabilityClaims) (now : ℤ) : Prop where
  read : PairRecord.ofWire t (at? body "record") = .ok relay.record
  token : nonBlank (at? body "user_jws") = some relay.capabilityJws
  verified : ∃ verifiedAt, verifyJws cfg.env relay.capabilityJws
    ((fromHex relay.record.phonePubkey).getD []) (some cfg.bootloaderId) none verifiedAt = .ok claims
  grant : PairGrantFor cfg.env claims relay.record relay.record.phonePubkey cfg.bootloaderId
    pairAction now
  code : relay.code = relay.record.code
  masterPubkeyHex : relay.masterPubkeyHex = relay.record.phonePubkey
  fingerprint : relay.fingerprint = relay.record.fingerprint cfg.env

/-- The only relays of a request are covered by the grant it brings. -/
def RelaysCovered (t : DigitTables) (cfg : Config) (body : Json) : Query → Prop
  | .forward relay => ∃ claims now, Covered t cfg body relay claims now
  | _ => True

section
variable {t : DigitTables} {cfg : Config} {body : Json}

theorem relaysCovered_refuse (status : ℕ) (error : String) :
    (Monitor.only (RelaysCovered t cfg body) : Monitor Query Answer Unit).Obeys (fun _ _ => True) ()
      (refuse status error) :=
  ⟨trivial, fun _ _ => trivial⟩

theorem relaysCovered_forwardPairing {record : PairRecord} {fingerprint jws : String} (url : String)
    (attestation : Option CapabilityClaims)
    (h : ∀ relay : PairingRelay, relay.record = record → relay.code = record.code →
      relay.masterPubkeyHex = record.phonePubkey → relay.capabilityJws = jws →
      relay.fingerprint = fingerprint → RelaysCovered t cfg body (.forward relay)) :
    (Monitor.only (RelaysCovered t cfg body) : Monitor Query Answer Unit).Obeys (fun _ _ => True) ()
      (forwardPairing cfg record fingerprint url jws attestation) := by
  unfold forwardPairing
  dsimp only
  split
  · exact relaysCovered_refuse _ _
  · refine ⟨h _ rfl rfl rfl rfl rfl, fun (reply : ConsumerReply) _ => ?_⟩
    cases reply with
    | answered status body => exact ⟨trivial, fun _ _ => trivial⟩
    | unreachable => exact relaysCovered_refuse _ _
    | failed => exact relaysCovered_refuse _ _

theorem relaysCovered_pairOnGrant {claims : CapabilityClaims} {record : PairRecord} {url jws : String}
    (h : ∀ (relay : PairingRelay) (now : ℤ), relay.record = record → relay.code = record.code →
      relay.masterPubkeyHex = record.phonePubkey → relay.capabilityJws = jws →
      relay.fingerprint = record.fingerprint cfg.env →
      PairGrantFor cfg.env claims record record.phonePubkey cfg.bootloaderId pairAction now →
      RelaysCovered t cfg body (.forward relay)) :
    (Monitor.only (RelaysCovered t cfg body) : Monitor Query Answer Unit).Obeys (fun _ _ => True) ()
      (pairOnGrant cfg claims record url jws) := by
  unfold pairOnGrant
  refine Monitor.obeys_ite (fun _ => relaysCovered_refuse _ _)
    fun _ => ⟨trivial, fun (revoked : Bool) _ => ?_⟩
  refine Monitor.obeys_ite (fun _ => relaysCovered_refuse _ _)
    fun _ => ⟨trivial, fun (now : ℤ) _ => ?_⟩
  dsimp only
  cases hverify : verifyPairGrant cfg.env claims record record.phonePubkey cfg.bootloaderId now
      pairAction with
  | error refusal => cases refusal <;> exact relaysCovered_refuse _ _
  | ok fingerprint =>
    obtain ⟨hgrant, rfl⟩ := PairGrantFor.of_eq_ok hverify
    refine ⟨trivial, ?_⟩
    rintro (_ | _) -
    · exact relaysCovered_refuse _ _
    · have hforward (attestation : Option CapabilityClaims) :=
        relaysCovered_forwardPairing url attestation fun relay hrecord hcode hkey hjws hprint =>
          h relay now hrecord hcode hkey hjws hprint hgrant
      exact Monitor.obeys_ite (fun _ => ⟨trivial, fun _ _ => hforward _⟩) fun _ => hforward _

theorem relaysCovered_devicesPair (t : DigitTables) (cfg : Config) (body : Json) :
    (Monitor.only (RelaysCovered t cfg body) : Monitor Query Answer Unit).Obeys (fun _ _ => True) ()
      (handleDevicesPairOfWire t cfg body) := by
  unfold handleDevicesPairOfWire
  refine Monitor.obeys_ite (fun _ => relaysCovered_refuse _ _) fun _ => ?_
  cases nonBlank (at? body "consumer_base_url") with
  | none => exact relaysCovered_refuse _ _
  | some url =>
    cases hjws : nonBlank (at? body "user_jws") with
    | none => exact relaysCovered_refuse _ _
    | some jws =>
      refine Monitor.obeys_ite (fun _ => relaysCovered_refuse _ _) fun _ => ?_
      cases hread : PairRecord.ofWire t (at? body "record") with
      | error refusal => cases refusal <;> exact relaysCovered_refuse _ _
      | ok record =>
        refine Monitor.obeys_ite (fun _ => relaysCovered_refuse _ _) fun _ => ?_
        refine Monitor.obeys_ite (fun _ => relaysCovered_refuse _ _)
          fun _ => ⟨trivial, fun (verifiedAt : ℤ) _ => ?_⟩
        dsimp only
        cases hverify : verifyJws cfg.env jws ((fromHex record.phonePubkey).getD [])
            (some cfg.bootloaderId) none verifiedAt with
        | error e => cases e <;> exact relaysCovered_refuse _ _
        | ok claims =>
          refine relaysCovered_pairOnGrant fun relay now hrecord hcode hkey hjws' hprint hgrant => ?_
          subst hrecord hjws'
          exact ⟨claims, now, hread, hjws, ⟨verifiedAt, hverify⟩, hgrant, hcode, hkey, hprint⟩

/-- With a collision-free digest, claims admit at most one record, an admitted record is the one the
grant names, and whatever the schedule, what a pairing request relays is covered by its grant, which
covers no other record. -/
theorem one_pair_grant_one_record (env : TokenPrimitives) (hsha : Function.Injective env.sha256) :
    (∀ (claims : CapabilityClaims) (action bootloaderId signer : String) (now : ℤ) (r r' : PairRecord)
      (fingerprint fingerprint' : String),
      verifyPairGrant env claims r signer bootloaderId now action = .ok fingerprint →
      verifyPairGrant env claims r' signer bootloaderId now action = .ok fingerprint' → r = r') ∧
    (∀ (claims : CapabilityClaims) (action bootloaderId signer : String) (now : ℤ) (r : PairRecord)
      (fingerprint : String),
      verifyPairGrant env claims r signer bootloaderId now action = .ok fingerprint →
      PairGrantFor env claims r signer bootloaderId action now) ∧
    ∀ (ι : Type) [DecidableEq ι] (backend : RevocationBackend) (t : DigitTables) (cfg : Config)
      (bodies : ι → Json) (shared : Shared) (turns : List (ι × Moment)) (relay : PairingRelay),
      cfg.env = env →
      ∀ e ∈ (Serving.run (exec backend)
        (.start shared fun i => handleDevicesPairOfWire t cfg (bodies i)) turns).trace,
      e.query = .forward relay →
      ∃ claims now, Covered t cfg (bodies e.thread) relay claims now ∧
        ∀ r : PairRecord, textOf claims.cap.scope.payloadSha256 = r.fingerprint env →
          r = relay.record := by
  refine ⟨?_, fun claims action bootloaderId signer now r fingerprint h =>
    (PairGrantFor.of_eq_ok h).1, ?_⟩
  · intro claims action bootloaderId signer now r r' fingerprint fingerprint' h h'
    have hprint := (PairGrantFor.of_eq_ok h).1.pinned.2
    have hprint' := (PairGrantFor.of_eq_ok h').1.pinned.2
    exact PairRecord.fingerprint_injective hsha (hprint.symm.trans hprint')
  · intro ι _ backend t cfg bodies shared turns relay henv e he hquery
    have hcovered := Serving.run_only (fun i => relaysCovered_devicesPair t cfg (bodies i)) e he
    rw [hquery] at hcovered
    obtain ⟨claims, now, hcovered⟩ := hcovered
    refine ⟨claims, now, hcovered, fun r hr => ?_⟩
    have hprint := hcovered.grant.pinned.2
    rw [henv] at hprint
    exact PairRecord.fingerprint_injective hsha (hr.symm.trans hprint)

/-! ## A pairing -/

def samplePairing : PairRecord where
  bootloaderId := "boot-1"
  subject := "AAECAwQFBgcICQoLDA0ODxAREhMUFRYXGBkaGxwdHh8"
  phonePubkey := samplePubkey
  code := "123456"
  notAfter := 1760000200

/-- SHA-256 of the bytes of the record. -/
def samplePairingDigest : Bytes :=
  [61, 192, 84, 39, 233, 157, 182, 227, 38, 77, 236, 249, 67, 101, 128, 102, 68, 107, 152, 52,
  1, 225, 79, 69, 197, 2, 43, 128, 97, 98, 187, 232]

/-- SHA-256 on the bytes of the record, and another injective function elsewhere. -/
def samplePairingPrimitives : TokenPrimitives where
  sha256 raw :=
    if raw = canonicalJson samplePairing.toDict then samplePairingDigest
    else List.replicate 33 0 ++ raw
  recoverPublicKey _ _ := none

def samplePairingClaims : CapabilityClaims where
  iss := .str "phone"
  sub := .str "phone"
  aud := [.str "boot-1", .str "https://chat.example"]
  iat := 1760000000
  nbf := 1760000000
  exp := 1760000300
  jti := .str "jti-1"
  cap :=
    { tier := .int 0
      registryVersion := .str "1"
      groups := []
      scope :=
        { env := []
          services := []
          repos := []
          createForOwner := .null
          chatRoomId := .null
          targetUserId := .null
          pairingCode := .str "123456"
          payloadSha256 := .str "3dc05427e99db6e3264decf943658066446b983401e14f45c5022b806162bbe8" }
      allowActions := [.str "devices:pair"]
      denyActions := []
      limits := { perHour := [], perDay := [], perSession := [] } }
  purpose := .str "Pair with https://chat.example"
  parentCap := .null
  maxUses := .int 1
  parentProfile := .null

/-- The grant admits its record, and so no other one. -/
theorem one_pair_grant_one_record_sample :
    verifyPairGrant samplePairingPrimitives samplePairingClaims samplePairing ("0x04" ++ samplePubkey)
        "boot-1" 1760000010 pairAction = .ok (samplePairing.fingerprint samplePairingPrimitives) ∧
      ∀ (r : PairRecord) (fingerprint : String),
        verifyPairGrant samplePairingPrimitives samplePairingClaims r ("0x04" ++ samplePubkey)
          "boot-1" 1760000010 pairAction = .ok fingerprint → samplePairing = r := by
  have hadmitted : verifyPairGrant samplePairingPrimitives samplePairingClaims samplePairing
      ("0x04" ++ samplePubkey) "boot-1" 1760000010 pairAction =
        .ok (samplePairing.fingerprint samplePairingPrimitives) := by decide +kernel
  refine ⟨hadmitted, fun r fingerprint h => ?_⟩
  exact (one_pair_grant_one_record samplePairingPrimitives (injective_of_digest rfl _)).1
    samplePairingClaims pairAction "boot-1" ("0x04" ++ samplePubkey) 1760000010 samplePairing r _
    fingerprint hadmitted h

end
end Grants
end Recto
