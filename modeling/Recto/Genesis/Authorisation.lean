import Recto.Genesis.Invariant

/-!
# Who authorised an entry

Every entry after the first was signed by the set as it stood before it: by the
passphrase and one device, by the passphrase and the fresh key of an owner
reset, or, in a set without a passphrase, by a majority. The signatures counted
stand at distinct positions, and the keys they verify under are distinct.
-/

namespace Recto
namespace Genesis

variable (env : Primitives)

/-- The signature at this position verifies over the message under the member's key. -/
def SignedAt (entry : ChainEntry) (message : Bytes) (member : ChainEntry) (position : ℕ) : Prop :=
  ∃ signature, entry.signatures[position]? = some signature ∧
    verifierFor env member.pubkey member.algorithm signature message = true

/-- The seal inside an entry's signed bytes: its own id for a seal-id, the sealed one otherwise. -/
def ChainEntry.sealFor (entry : ChainEntry) (sealedId : Option String) : Option String :=
  if entry.op? = some .sealId then (decodeId entry).toOption else sealedId

/-- The passphrase signed and, once an owner device was seated, so did a device under another key
at another position. -/
def PassphraseAndDevice (earlier : List ChainEntry) (members : Dict String ChainEntry)
    (entry : ChainEntry) (message : Bytes) : Prop :=
  ∃ passphrase i, members.get? passphraseKind = some passphrase ∧
    SignedAt env entry message passphrase i ∧
    (DeviceSeated earlier → ∃ kind ∈ deviceKinds, ∃ device j,
      members.get? kind = some device ∧ SignedAt env entry message device j ∧ i ≠ j ∧
        passphrase.pubkey ≠ device.pubkey)

/-- The fresh key of a reset signed a challenge bound to the intent the entry names. -/
def FreshKeySigned (entry : ChainEntry) : Prop :=
  ∃ record challenge intentId bytes signature,
    Json.loads (entry.metaText.getD "") = .ok record ∧
      record.getItem "challenge" = .ok (.str challenge) ∧
      record.getItem "intent_id" = .ok intentId ∧ boundToIntent env challenge intentId ∧
      encodeAscii challenge = .ok bytes ∧ signature ∈ entry.signatures ∧
      verifierFor env entry.pubkey entry.algorithm signature bytes = true

/-- The id was sealed by an earlier entry, and the passphrase and the fresh key signed. -/
def ResetAuthorised (earlier : List ChainEntry) (members : Dict String ChainEntry)
    (sealedId : Option String) (entry : ChainEntry) (message : Bytes) : Prop :=
  (∃ sealing ∈ earlier, sealing.op? = some .sealId ∧ ∃ value, decodeId sealing = .ok value ∧
    sealedId = some value) ∧
  (∃ passphrase i, members.get? passphraseKind = some passphrase ∧
    SignedAt env entry message passphrase i) ∧
  FreshKeySigned env entry

/-- More than half of the members signed, each at a position of its own. -/
def MajoritySigned (members : Dict String ChainEntry) (entry : ChainEntry) (message : Bytes) :
    Prop :=
  ∃ (kinds : List String) (position : String → ℕ), kinds.Nodup ∧
    members.length < 2 * kinds.length ∧
    (∀ kind ∈ kinds, ∃ member, members.get? kind = some member ∧
      SignedAt env entry message member (position kind)) ∧
    ∀ kind ∈ kinds, ∀ other ∈ kinds, position kind = position other → kind = other

variable {env} {members : Dict String ChainEntry} {entry : ChainEntry} {message : Bytes}

variable (env members entry message) in
/-- Satisfied kinds are members that signed, at distinct positions. -/
theorem satisfiedKinds_signed :
    ∃ position : String → ℕ,
      (∀ kind ∈ satisfiedKinds env members entry message, ∃ member,
        members.get? kind = some member ∧ SignedAt env entry message member (position kind)) ∧
      ∀ kind ∈ satisfiedKinds env members entry message,
        ∀ other ∈ satisfiedKinds env members entry message,
          position kind = position other → kind = other := by
  obtain ⟨position, hplaced⟩ := exists_placement members.items Prod.fst
    (fun signature item => verifierFor env item.2.pubkey item.2.algorithm signature message)
    entry.signatures
  refine ⟨position, fun kind hkind => ?_, hplaced.injective⟩
  obtain ⟨⟨k, member⟩, hmem, rfl, signature, hsig, hverify⟩ := hplaced.fits kind hkind
  exact ⟨member, Dict.get?_eq_some_iff.mpr hmem, signature, hsig, hverify⟩

theorem nodup_satisfiedKinds : (satisfiedKinds env members entry message).Nodup :=
  nodup_attribution _ _ _ _

theorem requireThreshold_passphrase {deviceEver : Bool} (hpass : passphraseKind ∈ members)
    (h : requireThreshold env members entry message deviceEver = .ok ()) :
    passphraseKind ∈ satisfiedKinds env members entry message ∧
      (deviceEver = true →
        ∃ kind ∈ satisfiedKinds env members entry message, kind ∈ deviceKinds) := by
  simp only [requireThreshold, Except.bind_eq_ok, ensure_eq_ok] at h
  obtain ⟨_, -, h⟩ := h
  rw [if_neg (not_not.mpr hpass)] at h
  simp only [Except.bind_eq_ok, ensure_eq_ok] at h
  obtain ⟨_, hsigned, hdevice⟩ := h
  exact ⟨hsigned, hdevice⟩

theorem requireThreshold_majority {deviceEver : Bool} (hpass : passphraseKind ∉ members)
    (h : requireThreshold env members entry message deviceEver = .ok ()) :
    MajoritySigned env members entry message := by
  simp only [requireThreshold, Except.bind_eq_ok, ensure_eq_ok] at h
  obtain ⟨_, -, h⟩ := h
  rw [if_pos hpass] at h
  have hmany : requiredSignatures members.length ≤
      (satisfiedKinds env members entry message).length := ensure_eq_ok.mp h
  unfold requiredSignatures at hmany
  obtain ⟨position, hsigned, hinj⟩ := satisfiedKinds_signed env members entry message
  exact ⟨_, position, nodup_satisfiedKinds, by omega, hsigned, hinj⟩

theorem requireThreshold_passphraseAndDevice {deviceEver : Bool} {earlier : List ChainEntry}
    (hpass : passphraseKind ∈ members) (hdistinct : DistinctKeys members)
    (hdevice : deviceEver = true ↔ DeviceSeated earlier)
    (h : requireThreshold env members entry message deviceEver = .ok ()) :
    PassphraseAndDevice env earlier members entry message := by
  obtain ⟨hsatisfied, hcosigned⟩ := requireThreshold_passphrase hpass h
  obtain ⟨position, hsigned, hinj⟩ := satisfiedKinds_signed env members entry message
  obtain ⟨passphrase, hget, hat⟩ := hsigned _ hsatisfied
  refine ⟨passphrase, position passphraseKind, hget, hat, fun hseated => ?_⟩
  obtain ⟨kind, hkind, hdev⟩ := hcosigned (hdevice.mpr hseated)
  obtain ⟨device, hget', hat'⟩ := hsigned kind hkind
  have hne : passphraseKind ≠ kind := fun e => passphraseKind_not_device (e ▸ hdev)
  exact ⟨kind, hdev, device, position kind, hget', hat',
    fun e => hne (hinj _ hsatisfied _ hkind e), fun e => hne (hdistinct _ _ _ _ hget hget' e)⟩

theorem exists_of_anyM {signatures : List Bytes} {p : Bytes → Except PyError Bool}
    (h : signatures.anyM p = .ok true) : ∃ signature ∈ signatures, p signature = .ok true := by
  induction signatures with
  | nil => simp [List.anyM, pure, Except.pure] at h
  | cons s rest ih =>
    rw [List.anyM, Except.bind_eq_ok] at h
    obtain ⟨found, hs, hrest⟩ := h
    cases found with
    | true => exact ⟨s, by simp, hs⟩
    | false =>
      obtain ⟨signature, hmem, hp⟩ := ih hrest
      exact ⟨signature, List.mem_cons_of_mem _ hmem, hp⟩

theorem requireReset_eq_ok (h : requireReset env members entry message = .ok ()) :
    (∃ passphrase i, members.get? passphraseKind = some passphrase ∧
      SignedAt env entry message passphrase i) ∧ FreshKeySigned env entry := by
  unfold requireReset at h
  split at h
  · cases h
  · rename_i passphrase hget
    simp only [Except.bind_eq_ok, ensure_eq_ok, exceptAs_eq_ok] at h
    obtain ⟨_, hsigned, ⟨challenge, intentId⟩, hmeta, h⟩ := h
    obtain ⟨position, hall, -⟩ := satisfiedKinds_signed env
      ((∅ : Dict String ChainEntry).set passphraseKind passphrase) entry message
    obtain ⟨member, hmember, hat⟩ := hall _ hsigned
    obtain rfl : passphrase = member := by simpa using hmember
    refine ⟨⟨passphrase, _, hget, hat⟩, ?_⟩
    simp only [readResetMeta, Except.bind_eq_ok, Except.pure_eq_ok, Prod.mk.injEq] at hmeta
    obtain ⟨record, hload, _, hchallenge, _, hintent, _, -, _, -, _, -, _, -, rfl, rfl⟩ := hmeta
    split at h
    · rename_i text htext
      dsimp only at htext
      subst htext
      simp only [Except.bind_eq_ok, ensure_eq_ok, orRaise_eq_ok] at h
      obtain ⟨_, hbound, found, hfresh, rfl⟩ := h
      obtain ⟨signature, hmem, hp⟩ := exists_of_anyM hfresh
      simp only [Except.bind_eq_ok, Except.pure_eq_ok] at hp
      obtain ⟨bytes, hbytes, hverify⟩ := hp
      exact ⟨record, text, _, bytes, signature, hload, hchallenge, hintent, hbound, hbytes, hmem,
        hverify⟩
    · cases h

/-- The message the set signed is over the seal as it stood, or over the entry's own id. -/
theorem Replay.entrySeal_eq_sealFor {r : Replay} {entrySeal : Option String}
    (h : r.entrySeal entry = .ok entrySeal) : entrySeal = entry.sealFor r.sealedId := by
  unfold ChainEntry.sealFor
  split_ifs with hop
  · obtain ⟨-, -, value, hvalue, rfl⟩ := entrySeal_sealId hop h
    simp [hvalue, Except.toOption]
  · by_cases hreset : entry.op? = some .reset
    · exact (entrySeal_reset hreset h).2
    · exact entrySeal_other hop hreset h

/-- Every entry of an accepted chain after the first was authorised by the set before it. -/
theorem replayState_authorised {entries : List ChainEntry} {state : ChainState}
    (h : replayState env entries = .ok state) {i : ℕ} (hi : 1 ≤ i) {entry : ChainEntry}
    (hentry : entries[i]? = some entry) :
    ∃ M, replayState env (entries.take i) = .ok M ∧
      (passphraseKind ∈ M.members → entry.op? ≠ some .reset →
        PassphraseAndDevice env (entries.take i) M.members entry
          (entry.message env (entry.sealFor M.sealedId))) ∧
      (entry.op? = some .reset →
        ResetAuthorised env (entries.take i) M.members M.sealedId entry
          (entry.message env (entry.sealFor M.sealedId))) ∧
      (passphraseKind ∉ M.members →
        MajoritySigned env M.members entry (entry.message env (entry.sealFor M.sealedId))) := by
  obtain ⟨r, hr, -⟩ := replayState_eq_ok.mp h
  obtain ⟨m, m', hm, hstep, -⟩ := replayLoop_take_step hr hentry
  have hinv := Replay.inv_of_replayLoop hm
  obtain ⟨⟨hseq, -⟩, hauth, -⟩ := Replay.step_eq_ok hstep
  have hlt : i < entries.length := (List.getElem?_eq_some_iff.mp hentry).1
  have hne : entry.seq ≠ 0 := by
    rw [hseq, hinv.count, List.length_take]
    omega
  obtain ⟨entrySeal, hseal, hreset, hother⟩ := Replay.authorise_later hne hauth
  rw [Replay.entrySeal_eq_sealFor hseal] at hreset hother
  refine ⟨m.finish env, replayState_eq_ok.mpr ⟨m, hm, rfl⟩, fun hpass hop => ?_, fun hop => ?_,
    fun hpass => ?_⟩
  · exact requireThreshold_passphraseAndDevice hpass hinv.distinct hinv.device (hother hop)
  · obtain ⟨hsigned, hfresh⟩ := requireReset_eq_ok (hreset hop)
    obtain ⟨hsealed, -⟩ := Replay.entrySeal_reset hop hseal
    obtain ⟨value, hvalue⟩ := Option.ne_none_iff_exists'.mp hsealed
    obtain ⟨sealing, hmem, hsealing, hdecode⟩ := hinv.sealed value hvalue
    exact ⟨⟨sealing, hmem, hsealing, value, hdecode, hvalue⟩, hsigned, hfresh⟩
  · by_cases hop : entry.op? = some .reset
    · obtain ⟨⟨passphrase, _, hget, -⟩, -⟩ := requireReset_eq_ok (hreset hop)
      exact absurd (Dict.mem_of_get? hget) hpass
    · exact requireThreshold_majority hpass (hother hop)

/-! ## A chain to look at -/

/-- A four-byte checksum, standing in for the hash. -/
def checksum (raw : Bytes) : Bytes :=
  let n := raw.foldl (fun acc b => (acc * 257 + b.toNat + 1) % 4294967291) 7
  [UInt8.ofNat (n / 16777216), UInt8.ofNat (n / 65536), UInt8.ofNat (n / 256), UInt8.ofNat n]

/-- Primitives with the checksum as hash, and the checksum after the key as signature. -/
def samplePrimitives : Primitives where
  sha256 := checksum
  verifySignature payload signature publicKey _ :=
    (unb64u publicKey).map fun key => decide (signature = b64u (checksum (key ++ payload)))
  loadEd25519 _ := .ok ()
  loadP256 _ := .ok ()
  onSecp256k1 _ := true
  printable _ := false

/-- The key of a sample signer. -/
def sampleKey (n : UInt8) : Bytes := List.replicate 32 n

/-- A passphrase, a device, the seal signed by both, and an owner reset of the other slot. -/
def sampleChain : List ChainEntry :=
  [{ seq := 0, op := "add", kind := "passphrase", pubkey := sampleKey 1, algorithm := "ed25519"
     prev := none, signatures := [], metaText := none },
   { seq := 1, op := "add", kind := "primary-phone", pubkey := sampleKey 2, algorithm := "ed25519"
     prev := some "e3765248", signatures := [[10, 49, 136, 141]], metaText := none },
   { seq := 2, op := "seal-id", kind := "bootloader-id", pubkey := [98, 111, 120]
     algorithm := "none", prev := some "b424d9f4"
     signatures := [[70, 224, 73, 92], [51, 100, 222, 62]]
     metaText := some ("\x7b\"identity_members\":[],\"operator_pubkey\":\"0909090909090909090909090909" ++
       "0909090909090909090909090909090909090909090909090909090909090909090909090909090909090909090909" ++
       "090909\"\x7d") },
   { seq := 3, op := "reset", kind := "recovery-phone", pubkey := sampleKey 3
     algorithm := "ed25519", prev := some "68a4fd62"
     signatures := [[166, 92, 246, 121], [213, 160, 93, 171]]
     metaText := some ("\x7b\"challenge\":\"recto-reset-v1:i1:c\",\"intent_id\":\"i1\"," ++
       "\"lost\":[],\"not_before\":0,\"slot\":\"recovery\"\x7d") }]

theorem isOk_iff {ε α : Type} {x : Except ε α} : x.isOk = true ↔ ∃ a, x = .ok a := by
  cases x <;> simp [Except.isOk, Except.toBool]

theorem sampleChain_accepted : ∃ state, replayState samplePrimitives sampleChain = .ok state :=
  isOk_iff.mp (by decide +kernel)

/-- Both the seal and the reset of the sample were authorised. -/
theorem replayState_authorised_sample :
    (∃ M, replayState samplePrimitives (sampleChain.take 2) = .ok M ∧
      PassphraseAndDevice samplePrimitives (sampleChain.take 2) M.members sampleChain[2]
        (sampleChain[2].message samplePrimitives (some "box"))) ∧
    ∃ M, replayState samplePrimitives (sampleChain.take 3) = .ok M ∧
      ResetAuthorised samplePrimitives (sampleChain.take 3) M.members M.sealedId sampleChain[3]
        (sampleChain[3].message samplePrimitives M.sealedId) := by
  obtain ⟨state, h⟩ := sampleChain_accepted
  have hpass : ((replayState samplePrimitives (sampleChain.take 2)).toOption.elim false
      fun M => decide (passphraseKind ∈ M.members)) = true := by decide +kernel
  refine ⟨?sealing, ?reset⟩
  case sealing =>
    obtain ⟨M, hM, hsigned, -⟩ :=
      replayState_authorised h (i := 2) (by decide) (show sampleChain[2]? = some sampleChain[2] from rfl)
    rw [hM] at hpass
    exact ⟨M, hM, hsigned (of_decide_eq_true hpass) (by decide)⟩
  case reset =>
    obtain ⟨M, hM, -, hreset, -⟩ :=
      replayState_authorised h (i := 3) (by decide) (show sampleChain[3]? = some sampleChain[3] from rfl)
    exact ⟨M, hM, hreset (by decide)⟩

end Genesis
end Recto
