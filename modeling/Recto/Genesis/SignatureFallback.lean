import Recto.Genesis.Authorisation
import Recto.Genesis.Canonical
import Recto.Text.Base64Digits

/-!
# The fallback message of a signature

`verify_signature` tries the payload, and then the bytes the payload decodes to
as base64url, for phones that sign a decoded challenge. The decoder discards
what is not of its alphabet, so a chain entry has such a message too, and two
entries can share it.
-/

namespace Recto
namespace Genesis

/-- What `cryptography` is asked. -/
structure Library where
  /-- `Ed25519PublicKey.from_public_bytes(raw)` raises nothing. -/
  loadsEd25519 : Bytes → Bool
  /-- The point `X ++ Y` is one of P-256. -/
  loadsP256 : Bytes → Bool
  /-- `pub_key.verify(sig, message)` raises nothing, by key, signature and message. -/
  verifiesEd25519 : Bytes → Bytes → Bytes → Bool
  /-- The same with `r ++ s` in DER, over SHA-256. -/
  verifiesP256 : Bytes → Bytes → Bytes → Bool

/-- A signature verifies under a key for at most one message. -/
structure Library.Ideal (lib : Library) : Prop where
  ed25519 : ∀ key sig m m', lib.verifiesEd25519 key sig m = true →
    lib.verifiesEd25519 key sig m' = true → m = m'
  p256 : ∀ key sig m m', lib.verifiesP256 key sig m = true →
    lib.verifiesP256 key sig m' = true → m = m'

/-- `_public_key_from_b64u`: the key's bytes, `X ++ Y` on P-256; `none` when it raises. -/
def publicKeyFromB64u (lib : Library) (publicKey algorithm : String) : Option Bytes := do
  let raw ← unb64u publicKey
  if algorithm = "ed25519" then
    if raw.length = 32 ∧ lib.loadsEd25519 raw then some raw else none
  else if algorithm = "ecdsa-p256" then
    if raw.length = 65 ∧ raw.head? = some 4 then
      if lib.loadsP256 raw.tail then some raw.tail else none
    else if raw.length = 64 then
      if lib.loadsP256 raw then some raw else none
    else none
  else none

/-- `_maybe_decoded_payload` -/
def maybeDecodedPayload (payload : Bytes) : Option Bytes := (decodeAscii payload).bind unb64u

/-- `_verify` -/
def Library.verify (lib : Library) (algorithm : String) (key sig payload : Bytes) : Bool :=
  if algorithm = "ed25519" then lib.verifiesEd25519 key sig payload
  else lib.verifiesP256 key sig payload

/-- `verify_signature`; `none` when it raises. -/
def verifySignature (lib : Library) (payload : Bytes) (signature publicKey algorithm : String) :
    Option Bool := do
  let key ← publicKeyFromB64u lib publicKey algorithm
  let sig ← unb64u signature
  if sig.length ≠ 64 then some false
  else if lib.verify algorithm key sig payload then some true
  else
    match maybeDecodedPayload payload with
    | some decoded => some (lib.verify algorithm key sig decoded)
    | none => some false

/-! ## Messages -/

section

variable {lib : Library} {payload : Bytes} {signature publicKey algorithm : String}

theorem Library.Ideal.verify (h : lib.Ideal) {key sig m m' : Bytes}
    (hm : lib.verify algorithm key sig m = true) (hm' : lib.verify algorithm key sig m' = true) :
    m = m' := by
  unfold Library.verify at hm hm'
  split_ifs at hm hm'
  · exact h.ed25519 key sig m m' hm hm'
  · exact h.p256 key sig m m' hm hm'

/-- Accepted over the payload or over what it decodes to. -/
theorem verifySignature_eq_true
    (h : verifySignature lib payload signature publicKey algorithm = some true) :
    ∃ key sig m, publicKeyFromB64u lib publicKey algorithm = some key ∧ unb64u signature = some sig ∧
      (m = payload ∨ maybeDecodedPayload payload = some m) ∧
      lib.verify algorithm key sig m = true := by
  simp only [verifySignature, Option.bind_eq_bind, Option.bind_eq_some_iff] at h
  obtain ⟨key, hkey, sig, hsig, h⟩ := h
  split_ifs at h with hlength hdirect
  · cases h
  · exact ⟨key, sig, payload, hkey, hsig, Or.inl rfl, hdirect⟩
  · cases hdecoded : maybeDecodedPayload payload with
    | none => simp [hdecoded] at h
    | some m =>
      rw [hdecoded] at h
      exact ⟨key, sig, m, hkey, hsig, Or.inr rfl, Option.some.inj h⟩

/-- A signature under an ideal scheme binds two payloads to one message. -/
theorem Library.Ideal.shared (h : lib.Ideal) {payload' : Bytes}
    (hp : verifySignature lib payload signature publicKey algorithm = some true)
    (hp' : verifySignature lib payload' signature publicKey algorithm = some true) :
    ∃ m, (m = payload ∨ maybeDecodedPayload payload = some m) ∧
      (m = payload' ∨ maybeDecodedPayload payload' = some m) := by
  obtain ⟨key, sig, m, hkey, hsig, hm, hv⟩ := verifySignature_eq_true hp
  obtain ⟨key', sig', m', hkey', hsig', hm', hv'⟩ := verifySignature_eq_true hp'
  obtain rfl := Option.some.inj (hkey.symm.trans hkey')
  obtain rfl := Option.some.inj (hsig.symm.trans hsig')
  exact ⟨m, hm, h.verify hv hv' ▸ hm'⟩

end

/-! ## The payload of an entry and its decoding -/

theorem signingBytes_cons (e : ChainEntry) : ∃ rest, e.signingBytes = 114 :: 101 :: rest :=
  ⟨_, rfl⟩

theorem a2bBase64_re (cs : List Char) :
    a2bBase64 ('r' :: 'e' :: cs) 0 0 0 = (a2bBase64 cs 2 14 0).map (173 :: ·) := rfl

/-- The decoding of an entry never starts as an entry does. -/
theorem head?_maybeDecodedPayload (e : ChainEntry) {m : Bytes}
    (h : maybeDecodedPayload e.signingBytes = some m) : m.head? = some 173 := by
  obtain ⟨rest, hrest⟩ := signingBytes_cons e
  rw [hrest] at h
  simp only [maybeDecodedPayload, decodeAscii] at h
  split_ifs at h with hascii
  · rw [Option.bind_some, unb64u, chars_ofList] at h
    simp only [List.map_cons] at h
    split_ifs at h
    obtain ⟨tail, -, rfl⟩ := Option.map_eq_some_iff.mp ((a2bBase64_re _).symm.trans h)
    rfl
  · cases h

theorem maybeDecodedPayload_ne (e f : ChainEntry) :
    maybeDecodedPayload e.signingBytes ≠ some f.signingBytes := by
  intro h
  have hhead := head?_maybeDecodedPayload e h
  obtain ⟨rest, hrest⟩ := signingBytes_cons f
  rw [hrest] at hhead
  cases hhead

/-- The characters a base64url decoder is given for a payload: with pads to a multiple of four. -/
def padded (s : String) : List Char :=
  chars s ++ List.replicate ((4 - (chars s).length % 4) % 4) '='

/-- The digits that are read of a payload. -/
def payloadDigits (payload : Bytes) : Option (List ℕ) :=
  (decodeAscii payload).bind fun s => b64Digits (padded s) 0 0

/-- The same base64url digits are read of both entries, all groups complete. -/
def SharesDigits (e f : ChainEntry) : Prop :=
  ∃ ns ms, payloadDigits e.signingBytes = some ns ∧ payloadDigits f.signingBytes = some ms ∧
    SameDigits ns ms

theorem toNat_charOfNat {n : ℕ} (h : n < 55296) : (Char.ofNat n).toNat = n := by
  rw [Char.ofNat, dif_pos (Or.inl h)]
  rfl

theorem maybeDecodedPayload_eq (payload : Bytes) :
    maybeDecodedPayload payload = (payloadDigits payload).map (packDigits 0 0) := by
  unfold maybeDecodedPayload payloadDigits
  cases hascii : decodeAscii payload with
  | none => rfl
  | some s =>
    have hall : (chars s).all (fun c => c.toNat < 128) = true := by
      unfold decodeAscii at hascii
      split_ifs at hascii with hbytes
      obtain rfl := Option.some.inj hascii
      simp only [chars_ofList, List.all_map, List.all_eq_true, Function.comp_apply,
        decide_eq_true_eq] at hbytes ⊢
      intro b hb
      have hlt := hbytes b hb
      rwa [toNat_charOfNat (by omega)]
    rw [Option.bind_some, Option.bind_some, unb64u, if_pos hall, ← a2bBase64_eq_map _ 0 0 0 (by omega)]
    rfl

theorem groups_payloadDigits {payload : Bytes} {ns : List ℕ} (h : payloadDigits payload = some ns) :
    Groups 0 ns := by
  obtain ⟨s, -, hs⟩ := Option.bind_eq_some_iff.mp h
  exact groups_of_b64Digits _ 0 0 ns (by omega) hs

theorem sharesDigits_iff (e f : ChainEntry) :
    SharesDigits e f ↔ ∃ m, maybeDecodedPayload e.signingBytes = some m ∧
      maybeDecodedPayload f.signingBytes = some m := by
  simp only [maybeDecodedPayload_eq, Option.map_eq_some_iff]
  constructor
  · rintro ⟨ns, ms, hns, hms, hsame⟩
    exact ⟨_, ⟨ns, hns, rfl⟩, ms, hms, hsame.packDigits_eq.symm⟩
  · rintro ⟨m, ⟨ns, hns, rfl⟩, ms, hms, hpack⟩
    exact ⟨ns, ms, hns, hms,
      (sameDigits_iff (groups_payloadDigits hns) (groups_payloadDigits hms)).mp hpack.symm⟩

/-! ## One signature, one entry -/

/-- No signature is accepted for both entries, whatever the ideal scheme and the key. -/
def OneEntryPerSignature (e f : ChainEntry) : Prop :=
  ∀ lib : Library, lib.Ideal → ∀ signature publicKey algorithm,
    ¬(verifySignature lib e.signingBytes signature publicKey algorithm = some true ∧
      verifySignature lib f.signingBytes signature publicKey algorithm = some true)

/-- Every key loads, and every signature is one over the same message. -/
def signsOnly (m : Bytes) : Library where
  loadsEd25519 _ := true
  loadsP256 _ := true
  verifiesEd25519 _ _ message := decide (message = m)
  verifiesP256 _ _ message := decide (message = m)

theorem signsOnly_ideal (m : Bytes) : (signsOnly m).Ideal where
  ed25519 _ _ _ _ ha hb := (of_decide_eq_true ha).trans (of_decide_eq_true hb).symm
  p256 _ _ _ _ ha hb := (of_decide_eq_true ha).trans (of_decide_eq_true hb).symm

theorem verifySignature_signsOnly {payload m : Bytes} (h : maybeDecodedPayload payload = some m) :
    verifySignature (signsOnly m) payload (b64u (List.replicate 64 0)) (b64u (List.replicate 32 0))
      "ed25519" = some true := by
  have hkey : publicKeyFromB64u (signsOnly m) (b64u (List.replicate 32 0)) "ed25519" =
      some (List.replicate 32 0) := by
    rw [publicKeyFromB64u, unb64u_b64u]
    rfl
  have hverify : ∀ key sig, (signsOnly m).verify "ed25519" key sig m = true := fun _ _ =>
    decide_eq_true rfl
  simp only [verifySignature, hkey, unb64u_b64u, h, hverify, List.length_replicate,
    Option.bind_eq_bind, Option.bind_some]
  simp

/-- For entries that say different things: a signature holds for one of them only, exactly when they
do not share their base64url digits. -/
theorem one_entry_per_signature_iff (e f : ChainEntry) (h : e.identity ≠ f.identity) :
    OneEntryPerSignature e f ↔ ¬SharesDigits e f := by
  rw [sharesDigits_iff]
  constructor
  · rintro hone ⟨m, hem, hfm⟩
    exact hone (signsOnly m) (signsOnly_ideal m) _ _ _
      ⟨verifySignature_signsOnly hem, verifySignature_signsOnly hfm⟩
  · rintro hshares lib hideal signature publicKey algorithm ⟨he, hf⟩
    obtain ⟨m, hem, hfm⟩ := hideal.shared he hf
    rcases hem with rfl | hem <;> rcases hfm with hfm | hfm
    · exact h (ChainEntry.identity_eq_of_signingBytes hfm)
    · exact maybeDecodedPayload_ne f e hfm
    · exact maybeDecodedPayload_ne e f (hfm ▸ hem)
    · exact hshares ⟨m, hem, hfm⟩

/-- A device added under the key of a byte, with a nonce that ends in two equals signs. -/
def sampleAdd (n : UInt8) : ChainEntry where
  seq := 1
  op := "add"
  kind := "primary-phone"
  pubkey := sampleKey n
  algorithm := "ed25519"
  prev := some "e3765248"
  signatures := []
  metaText := some "\x7b\"nonce\":\"ab==\"\x7d"

/-- Without a nonce. -/
def samplePlainAdd (n : UInt8) : ChainEntry := { sampleAdd n with metaText := none }

theorem one_entry_per_signature_iff_sample :
    (samplePlainAdd 2).identity ≠ (samplePlainAdd 3).identity ∧
      (OneEntryPerSignature (samplePlainAdd 2) (samplePlainAdd 3) ↔
        ¬SharesDigits (samplePlainAdd 2) (samplePlainAdd 3)) :=
  ⟨by decide, one_entry_per_signature_iff _ _ (by decide)⟩

/-- The decoder stops at the equals signs, so the keys after them are not part of the message. -/
theorem two_keys_one_signature :
    (sampleAdd 2).identity ≠ (sampleAdd 3).identity ∧
      ¬OneEntryPerSignature (sampleAdd 2) (sampleAdd 3) := by
  have hdecoded : maybeDecodedPayload (sampleAdd 2).signingBytes =
      maybeDecodedPayload (sampleAdd 3).signingBytes := by decide +kernel
  have hsome : (maybeDecodedPayload (sampleAdd 2).signingBytes).isSome = true := by decide +kernel
  obtain ⟨m, hm⟩ := Option.isSome_iff_exists.mp hsome
  exact ⟨by decide, fun hone => hone (signsOnly m) (signsOnly_ideal m) _ _ _
    ⟨verifySignature_signsOnly hm, verifySignature_signsOnly (hdecoded ▸ hm)⟩⟩

end Genesis
end Recto
