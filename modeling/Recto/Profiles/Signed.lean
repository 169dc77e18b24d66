import Mathlib.Data.List.DropRight
import Recto.Profiles.Approval

/-!
# An approved profile is the signed one

The fields an answer's signature covers are those the request was queued with
and the key the phone added. What is persisted is computed from the request's
own record of the fields; it is followed here until the result is stored.
-/

namespace Recto
namespace Profiles
namespace Approval

open Capability

/-! ## Keys and names as they are stored -/

section
variable {hex key : String} {c : Char}

/-- A name that was stripped is not stripped further. -/
theorem strip_strip (s : String) : strip (strip s) = strip s := by
  set cs := (chars s).dropWhile Json.isSpace with hcs
  have hleft : cs.rdropWhile Json.isSpace <+: cs := List.rdropWhile_prefix Json.isSpace cs
  have hfront : (cs.rdropWhile Json.isSpace).dropWhile Json.isSpace =
      cs.rdropWhile Json.isSpace := by
    rw [List.dropWhile_eq_self_iff]
    intro hpos
    rw [hleft.getElem hpos]
    have hhead : cs.dropWhile Json.isSpace = cs := by rw [hcs, List.dropWhile_idempotent]
    exact List.dropWhile_eq_self_iff.mp hhead (hpos.trans_le hleft.length_le)
  have hstrip : strip s = String.ofList (cs.rdropWhile Json.isSpace) := rfl
  rw [hstrip]
  change String.ofList (((chars (String.ofList (cs.rdropWhile Json.isSpace))).dropWhile
    Json.isSpace).rdropWhile Json.isSpace) = _
  rw [chars_ofList, hfront, List.rdropWhile_idempotent]

/-- Digits without whitespace: two for each byte. -/
theorem length_of_fromHexChars {cs : List Char} {raw : Bytes} (h : fromHexChars cs = some raw)
    (hspace : ∀ c ∈ cs, isAsciiSpace c = false) :
    cs.length = 2 * raw.length ∧ ∀ c ∈ cs, (hexDigitValue c).isSome = true := by
  induction cs using fromHexChars.induct generalizing raw with
  | case1 =>
    cases h
    simp
  | case2 c cs hc => simp [hspace c List.mem_cons_self] at hc
  | case3 c hc => simp [fromHexChars, hc] at h
  | case4 c hc d cs hi lo hhi hlo ih =>
    simp only [fromHexChars, hc, hhi, hlo, Bool.false_eq_true, if_false] at h
    obtain ⟨raw, hraw, rfl⟩ := Option.map_eq_some_iff.mp h
    obtain ⟨hlength, hdigits⟩ := ih hraw fun c hmem => hspace c (by simp [hmem])
    refine ⟨by simp [hlength]; ring, ?_⟩
    simpa [hhi, hlo] using hdigits
  | case5 c hc d cs hvalues =>
    exfalso
    revert h
    simp only [fromHexChars, hc, Bool.false_eq_true, if_false]
    cases hhi : hexDigitValue c with
    | none => simp
    | some hi =>
      cases hlo : hexDigitValue d with
      | none => simp
      | some lo => exact (hvalues hi lo hhi hlo).elim

theorem not_isSpace_of_hexDigit (h : (hexDigitValue c).isSome = true) :
    Json.isSpace c = false ∧ c ≠ 'x' := by
  have hdigit : ('0' ≤ c ∧ c ≤ '9') ∨ ('a' ≤ c ∧ c ≤ 'f') ∨ ('A' ≤ c ∧ c ≤ 'F') := by
    by_contra hnot
    simp only [not_or] at hnot
    simp [hexDigitValue, hnot] at h
  simp only [Char.le_def, UInt32.le_iff_toNat_le] at hdigit
  change (48 ≤ c.toNat ∧ c.toNat ≤ 57) ∨ (97 ≤ c.toNat ∧ c.toNat ≤ 102) ∨
    (65 ≤ c.toNat ∧ c.toNat ≤ 70) at hdigit
  constructor
  · have hblank : c ≠ ' ' := by
      rintro rfl
      revert hdigit
      decide
    simp only [Json.isSpace, hblank, decide_false, Bool.false_or, Bool.or_eq_false_iff,
      Bool.and_eq_false_iff, decide_eq_false_iff_not]
    omega
  · rintro rfl
    revert hdigit
    decide

theorem toLower_toLower (c : Char) : c.toLower.toLower = c.toLower := by
  by_cases h : c.val ≥ 'A'.val ∧ c.val ≤ 'Z'.val
  · have hval : c.toLower.val = c.val + 32 :=
      congrArg Char.val (dif_pos h : c.toLower = _)
    refine dif_neg ?_
    rw [hval]
    simp only [ge_iff_le, UInt32.le_iff_toNat_le, UInt32.toNat_add] at h ⊢
    change 65 ≤ c.val.toNat ∧ c.val.toNat ≤ 90 at h
    change ¬ (65 ≤ (c.val.toNat + 32) % 2 ^ 32 ∧ (c.val.toNat + 32) % 2 ^ 32 ≤ 90)
    omega
  · have hc : c.toLower = c := dif_neg h
    rw [hc, hc]

theorem toLower_of_mem_stripPubkey (h : c ∈ chars (stripPubkey hex)) : c.toLower = c := by
  have hdrop : ∀ (p : Prop) [Decidable p] (s : String),
      c ∈ chars (if p then dropChars 2 s else s) → c ∈ chars s := by
    intro p _ s hc
    split_ifs at hc
    · rw [dropChars, chars_ofList] at hc
      exact List.mem_of_mem_drop hc
    · exact hc
  have hlower : c ∈ chars (lower (strip hex)) := by
    simp only [stripPubkey] at h
    replace h := hdrop _ _ h
    exact hdrop _ _ h
  rw [lower, chars_ofList, List.mem_map] at hlower
  obtain ⟨d, -, rfl⟩ := hlower
  exact toLower_toLower d

theorem stripPubkey_eq_self (hstrip : strip key = key) (hlower : lower key = key)
    (hx : startsWith key "0x" = false) (hlength : (chars key).length ≠ 130) :
    stripPubkey key = key := by
  simp only [stripPubkey, hstrip, hlower, hx, hlength, Bool.false_eq_true, if_false, and_false]

/-- A key that has been cleaned is stored as it is, when no whitespace is left in it. -/
theorem cleanPubkey_cleaned (h : cleanPubkey hex = .ok key) (hspace : Unspaced key) :
    stripPubkey key = key ∧ ∃ raw, fromHex key = some raw ∧ raw.length = 64 := by
  obtain ⟨rfl, hlength, hhex⟩ := cleanPubkey_eq_ok.mp h
  obtain ⟨raw, hraw⟩ := Option.isSome_iff_exists.mp hhex
  obtain ⟨hraw', hdigits⟩ := length_of_fromHexChars hraw hspace
  refine ⟨stripPubkey_eq_self ?_ ?_ ?_ (by omega), raw, hraw, by omega⟩
  · exact strip_eq_self fun c hc => (not_isSpace_of_hexDigit (hdigits c hc)).1
  · rw [lower, List.map_congr_left fun c hc => toLower_of_mem_stripPubkey hc, List.map_id']
    simp
  · by_contra hx
    rw [Bool.not_eq_false, startsWith, List.isPrefixOf_iff_prefix] at hx
    have hmem : 'x' ∈ chars (stripPubkey hex) := hx.subset (by decide)
    exact (not_isSpace_of_hexDigit (hdigits _ hmem)).2 rfl

end

/-! ## The fields that were signed -/

section
variable {body : CreateBody} {mi : MasterIdentity} {key : String} {fields : List (String × Json)}

theorem nodup_candidateFields (card : Card) (master : String) :
    ((candidateFields card master).map Prod.fst).Nodup := by
  simp [candidateFields]

theorem plain_candidateFields (card : Card) (master : String) :
    Json.Plain (.obj (candidateFields card master)) := by
  have hoptional : ∀ s, Json.Plain (optionalStr s) := by
    rintro (_ | s) <;> trivial
  exact ⟨nodup_candidateFields card master, trivial, trivial, trivial, trivial, trivial, trivial,
    hoptional _, hoptional _, trivial, trivial⟩

/-- The signed fields are those of the card, and the key. -/
theorem signedFields_newProfileCreate
    (h : signedFields (newProfileCreate body mi) key = some fields) :
    fields = setItem "child_pubkey_hex" (.str key)
      (Json.sortFields (Json.canonFields (candidateFields (body.card mi) mi.masterPubkeyHex))) := by
  have hplain := plain_candidateFields (body.card mi) mi.masterPubkeyHex
  have hsegment : segmentJson (newProfileCreate body mi).capPayloadB64 =
      .ok (.obj (Json.sortFields (Json.canonFields
        (candidateFields (body.card mi) mi.masterPubkeyHex)))) := by
    have hpayload : (newProfileCreate body mi).capPayloadB64 = chars (b64u (canonicalJson
        (.obj (candidateFields (body.card mi) mi.masterPubkeyHex)))) := by
      rw [b64u, chars_ofList, newProfileCreate]
    rw [hpayload]
    exact segmentJson_b64u (Json.parse_render hplain.proper.canon)
  unfold signedFields at h
  rw [hsegment] at h
  dsimp only at h
  split_ifs at h
  exact (Option.some.inj h).symm

theorem lookup_signedFields (h : signedFields (newProfileCreate body mi) key = some fields)
    (name : String) (hname : name ≠ "child_pubkey_hex") {x : Json}
    (hlookup : (candidateFields (body.card mi) mi.masterPubkeyHex).lookup name = some x) :
    fields.lookup name = some (Json.canon x) := by
  rw [signedFields_newProfileCreate h, lookup_setItem_of_ne hname,
    Json.lookup_sortFields_canonFields (nodup_candidateFields _ _), hlookup]
  rfl

end

/-! ## Where a request stands -/

/-- The request is one that `_handle_profile_create` queues. -/
def Queued (req : CreateRequest) : Prop := ∃ body mi, req = newProfileCreate body mi

inductive Phase where
  | idle
  | peeked (req : CreateRequest)
  | holding (loaded : Option MasterIdentity)
  | persisting (req : CreateRequest) (key : String) (loaded : Option MasterIdentity)
  | ready (req : CreateRequest) (key profileId : String)

/-- The answer attests the key for the request. -/
def Attests (cfg : Config) (r : Request) (req : CreateRequest) (key : String) : Prop :=
  ∃ requestId childPubkeyHex capSignature now,
    r = .respond requestId childPubkeyHex capSignature now ∧
      attestedKey cfg req childPubkeyHex capSignature = some key

/-- Where an answer stands once `create_child_profile` has loaded. -/
def afterLoad (cfg : Config) (r : Request) (req : CreateRequest) (loaded : Option MasterIdentity) :
    Phase :=
  match r with
  | .respond _ childPubkeyHex capSignature now =>
      match attestedKey cfg req childPubkeyHex capSignature with
      | none => .idle
      | some key =>
          match (Operation.create (req.card.args key) now "").apply loaded with
          | .error _ => .idle
          | .ok (existing, none) => .ready req key existing.profileId
          | .ok (_, some _) => .persisting req key loaded
  | _ => .idle

/-- The monitor of a request: what is saved was computed from what was loaded, and an approval is
stored for the profile that was found or saved. -/
def watch (cfg : Config) (r : Request) : Monitor Query Answer Phase where
  allows phase q :=
    match q, phase with
    | .storeResult (.approved profileId), .ready _ _ profileId' => profileId = profileId'
    | .storeResult (.approved _), _ => False
    | _, .ready _ _ _ => False
    | .saveMasterIdentity mi, .holding loaded =>
        match r with
        | .direct op => op.saved loaded = some mi
        | .bootstrap _ _ _ _ _ _ => True
        | _ => False
    | .saveMasterIdentity mi, .persisting req key loaded => (∃ requestId childPubkeyHex capSignature now,
        r = .respond requestId childPubkeyHex capSignature now) ∧
        ∃ now, (Operation.create (req.card.args key) now "").saved loaded = some mi
    | .saveMasterIdentity _, _ => False
    | .addPending _ req, _ => Queued req
    | .loadMasterIdentity, .peeked req => ∃ key, Attests cfg r req key
    | _, _ => True
  answers _ _ := True
  next phase q a :=
    match q, a with
    | .loadMasterIdentity, (loaded : Option MasterIdentity) =>
        match phase with
        | .peeked req => afterLoad cfg r req loaded
        | _ => .holding loaded
    | .saveMasterIdentity _, (saved : Bool) =>
        match phase with
        | .persisting req key _ =>
            if saved then .ready req key req.card.candidateProfileId else .idle
        | _ => .idle
    | .peekPending _, some req => .peeked req
    | .storeResult _, _ => .idle
    | _, _ => phase

theorem watch_next_peeked (cfg : Config) (r : Request) (req : CreateRequest)
    (loaded : Option MasterIdentity) :
    (watch cfg r).next (.peeked req) .loadMasterIdentity loaded = afterLoad cfg r req loaded := rfl

/-- No approval is left to store. -/
def Phase.Settled (phase : Phase) : Prop := ∀ req key profileId, phase ≠ .ready req key profileId

theorem watched_create (cfg : Config) (requestId : String) (body : CreateBody) (r : Request) :
    (watch cfg r).Obeys (fun phase _ => phase.Settled) .idle (handleCreate requestId body) := by
  unfold handleCreate
  refine Monitor.obeys_ite (fun _ => ⟨trivial, fun loaded _ => ?_⟩) fun _ _ _ _ h => by cases h
  refine Monitor.obeys_ite (fun _ _ _ _ h => by cases h) fun _ => ⟨trivial, ?_⟩
  rintro (_ | mi) -
  · rintro _ _ _ ⟨⟩
  · refine ⟨⟨body, mi, rfl⟩, ?_⟩
    rintro _ - _ _ _ ⟨⟩

theorem watched_direct (cfg : Config) (op : Operation) :
    (watch cfg (.direct op)).Obeys (fun phase _ => phase.Settled) .idle (handleDirect op) := by
  refine ⟨trivial, fun loaded _ => ?_⟩
  beta_reduce
  cases hsaved : op.saved loaded with
  | none => rintro _ _ _ ⟨⟩
  | some mi =>
    refine ⟨hsaved, ?_⟩
    rintro _ - _ _ _ ⟨⟩

theorem watched_bootstrap (cfg : Config) (masterPubkeyHex displayName : String)
    (label : Option String) (force : Bool) (now : ℤ) (uuid : String) :
    (watch cfg (.bootstrap masterPubkeyHex displayName label force now uuid)).Obeys
      (fun phase _ => phase.Settled) .idle
      (handleBootstrap (bootstrapMaster masterPubkeyHex displayName label force now uuid)) := by
  refine ⟨trivial, fun loaded _ => ?_⟩
  beta_reduce
  cases bootstrapMaster masterPubkeyHex displayName label force now uuid loaded with
  | error e => rintro _ _ _ ⟨⟩
  | ok mi =>
    refine ⟨trivial, ?_⟩
    rintro _ - _ _ _ ⟨⟩

theorem apply_create_profileId {card : Card} {key : String} {now : ℤ} {loaded : Option MasterIdentity}
    {new : Profile} {mi : MasterIdentity}
    (h : (Operation.create (card.args key) now "").apply loaded = .ok (new, some mi)) :
    new.profileId = card.candidateProfileId := by
  obtain ⟨mi, pubkey, -, -, -, -, -, -, -, rfl, -⟩ := createChildProfile_saves h
  rfl

/-- The persisting of an attested key. -/
theorem watched_persistChild {cfg : Config} {r : Request} {req : CreateRequest} {key : String}
    {requestId childPubkeyHex capSignature : String} {now : ℤ}
    (hr : r = .respond requestId childPubkeyHex capSignature now)
    (hkey : attestedKey cfg req childPubkeyHex capSignature = some key) :
    (watch cfg r).Obeys (fun phase _ => phase.Settled) (.peeked req)
      (persistChild req.card key now) := by
  refine ⟨⟨key, requestId, childPubkeyHex, capSignature, now, hr, hkey⟩, fun loaded _ => ?_⟩
  change (watch cfg r).Obeys _ (afterLoad cfg r req loaded) _
  have hafter : afterLoad cfg r req loaded =
      match (Operation.create (req.card.args key) now "").apply loaded with
      | .error _ => .idle
      | .ok (existing, none) => .ready req key existing.profileId
      | .ok (_, some _) => .persisting req key loaded := by
    rw [hr, afterLoad, hkey]
  rw [hafter]
  beta_reduce
  cases happly : (Operation.create (req.card.args key) now "").apply loaded with
  | error e =>
    refine ⟨trivial, ?_⟩
    rintro _ - _ _ _ ⟨⟩
  | ok outcome =>
    obtain ⟨answer, written⟩ := outcome
    cases written with
    | none =>
      refine ⟨rfl, ?_⟩
      rintro _ - _ _ _ ⟨⟩
    | some mi =>
      refine ⟨⟨⟨requestId, childPubkeyHex, capSignature, now, hr⟩, now,
        saved_eq_some.mpr ⟨answer, happly⟩⟩, ?_⟩
      rintro (_ | _) -
      · refine ⟨trivial, ?_⟩
        rintro _ - _ _ _ ⟨⟩
      · refine ⟨apply_create_profileId happly, ?_⟩
        rintro _ - _ _ _ ⟨⟩

theorem watched_respond (cfg : Config) (requestId childPubkeyHex capSignature : String) (now : ℤ) :
    (watch cfg (.respond requestId childPubkeyHex capSignature now)).Obeys
      (fun phase _ => phase.Settled) .idle
      (handleRespond cfg requestId childPubkeyHex capSignature now) := by
  refine ⟨trivial, ?_⟩
  rintro (_ | req) -
  · rintro _ _ _ ⟨⟩
  refine ⟨trivial, ?_⟩
  rintro (_ | _) -
  · rintro _ _ _ ⟨⟩
  refine ⟨trivial, ?_⟩
  rintro (_ | taken) -
  · rintro _ _ _ ⟨⟩
  cases hkey : attestedKey cfg req childPubkeyHex capSignature with
  | none =>
    change (watch cfg _).Obeys _ (.peeked req) (.call (.storeResult .signatureError) .done)
    refine ⟨trivial, ?_⟩
    rintro _ - _ _ _ ⟨⟩
  | some key =>
    change (watch cfg _).Obeys _ (.peeked req) (persistChild req.card key now)
    exact watched_persistChild rfl hkey

theorem watched_handler (cfg : Config) (r : Request) :
    (watch cfg r).Obeys (fun phase _ => phase.Settled) .idle (r.handler cfg) := by
  cases r with
  | create requestId body => exact watched_create cfg requestId body _
  | respond requestId childPubkeyHex capSignature now =>
    exact watched_respond cfg requestId childPubkeyHex capSignature now
  | direct op => exact watched_direct cfg op
  | bootstrap masterPubkeyHex displayName label force now uuid =>
    exact watched_bootstrap cfg masterPubkeyHex displayName label force now uuid

/-! ## What a request knows -/

section
variable {ι : Type}

/-- The thread read the request from the queue. -/
def Peeked (c : Server ι) (i : ι) (req : CreateRequest) : Prop :=
  ∃ e ∈ c.trace, e.thread = i ∧ req ∈ peekedIn e

/-- The thread loaded the identity. -/
def Loaded (c : Server ι) (i : ι) (loaded : Option MasterIdentity) : Prop :=
  ∃ e ∈ c.trace, e.thread = i ∧ loaded ∈ loadedIn e

/-- The thread's answer attests the key for a request it read. -/
def Signed (cfg : Config) (requests : ι → Request) (c : Server ι) (i : ι) (req : CreateRequest)
    (key : String) : Prop :=
  Queued req ∧ Peeked c i req ∧ Attests cfg (requests i) req key ∧ Unspaced key

/-- The identity has the card's profile under the id. -/
def Holds (loaded : Option MasterIdentity) (card : Card) (key profileId : String) : Prop :=
  ∃ mi ∈ loaded, ∃ p ∈ mi.profiles, p.profileId = profileId ∧ Describes card key p

/-- What is so of a thread in its phase. -/
def Stands (cfg : Config) (requests : ι → Request) (c : Server ι) (i : ι) : Phase → Prop
  | .idle => True
  | .peeked req => Queued req ∧ Peeked c i req
  | .holding loaded => Loaded c i loaded
  | .persisting req key loaded => Signed cfg requests c i req key ∧ Loaded c i loaded
  | .ready req key profileId => Signed cfg requests c i req key ∧
      Holds (loadMasterIdentity c.shared.file) req.card key profileId

/-- Every pending request was queued by `_handle_profile_create`, and every thread stands where its
phase says. -/
structure Sound (cfg : Config) (requests : ι → Request) (c : Server ι) (phases : ι → Phase) :
    Prop where
  pending : ∀ requestId req, c.shared.pending.get? requestId = some req → Queued req
  stands : ∀ i, Stands cfg requests c i (phases i)

variable {cfg : Config} {requests : ι → Request} {c c' : Server ι} {i : ι} {hex : String}
  {e : Event ι Query Answer Moment} {req : CreateRequest} {key profileId : String}
  {loaded : Option MasterIdentity} {mi mi' : MasterIdentity} {card : Card} {op : Operation}
  {phase : Phase}

theorem Peeked.keep (h : Peeked c i req) (htrace : c'.trace = c.trace ++ [e]) : Peeked c' i req := by
  obtain ⟨e', he', h⟩ := h
  exact ⟨e', by simp [htrace, he'], h⟩

theorem Loaded.keep (h : Loaded c i loaded) (htrace : c'.trace = c.trace ++ [e]) :
    Loaded c' i loaded := by
  obtain ⟨e', he', h⟩ := h
  exact ⟨e', by simp [htrace, he'], h⟩

theorem Signed.keep (h : Signed cfg requests c i req key) (htrace : c'.trace = c.trace ++ [e]) :
    Signed cfg requests c' i req key :=
  ⟨h.1, h.2.1.keep htrace, h.2.2⟩

/-- A thread stands where it stood when the file keeps the profiles that are about to be reported. -/
theorem Stands.keep (h : Stands cfg requests c i phase) (htrace : c'.trace = c.trace ++ [e])
    (hfile : ∀ req key profileId, phase = .ready req key profileId →
      Holds (loadMasterIdentity c.shared.file) req.card key profileId →
      Holds (loadMasterIdentity c'.shared.file) req.card key profileId) :
    Stands cfg requests c' i phase := by
  cases phase with
  | idle => trivial
  | peeked req => exact ⟨h.1, h.2.keep htrace⟩
  | holding loaded => exact Loaded.keep h htrace
  | persisting req key loaded => exact ⟨h.1.keep htrace, h.2.keep htrace⟩
  | ready req key profileId => exact ⟨h.1.keep htrace, hfile req key profileId rfl h.2⟩

/-! ## The file -/

theorem mem_withProfile_of_mem {id : String} {target p : Profile} (new : Profile)
    (h : mi.find? id = some target) (hp : p ∈ mi.profiles) :
    p = target ∧ new ∈ (mi.withProfile id new).profiles ∨ p ∈ (mi.withProfile id new).profiles := by
  obtain ⟨pre, post, hprofiles, -, -, hnew⟩ := find?_eq_some h
  rw [hnew]
  rw [hprofiles] at hp
  simp only [List.mem_append, List.mem_cons] at hp ⊢
  tauto

/-- Of an operation other than its revocation the profile keeps what its card asked for. -/
theorem holds_saved (h : Holds (some mi) card key profileId) (hsaved : op.saved (some mi) = some mi')
    (hop : op ≠ .markRevoked profileId) : Holds (some mi') card key profileId := by
  obtain ⟨mi, hmi, p, hp, hid, hdescribes⟩ := h
  obtain rfl := Option.some.inj hmi
  refine ⟨mi', rfl, ?_⟩
  obtain ⟨answer, happly⟩ := saved_eq_some.mp hsaved
  cases op with
  | create args now uuid =>
    obtain ⟨mi, pubkey, hload, -, -, -, -, -, -, rfl, rfl⟩ := createChildProfile_saves happly
    obtain rfl := Option.some.inj hload
    exact ⟨p, List.mem_append_left _ hp, hid, hdescribes⟩
  | addDevice id phoneId =>
    obtain ⟨mi, target, hload, hfind, -, -, -, hanswer, rfl⟩ := profileAddDevice_saves happly
    obtain rfl := Option.some.inj hload
    rcases mem_withProfile_of_mem answer hfind hp with ⟨rfl, hnew⟩ | hkept
    · refine ⟨answer, hnew, ?_⟩
      rw [hanswer]
      exact ⟨hid, hdescribes⟩
    · exact ⟨p, hkept, hid, hdescribes⟩
  | revokeDevice id phoneId =>
    obtain ⟨mi, target, hload, hfind, -, -, -, hanswer, rfl⟩ := profileRevokeDevice_saves happly
    obtain rfl := Option.some.inj hload
    rcases mem_withProfile_of_mem answer hfind hp with ⟨rfl, hnew⟩ | hkept
    · refine ⟨answer, hnew, ?_⟩
      rw [hanswer]
      exact ⟨hid, hdescribes⟩
    · exact ⟨p, hkept, hid, hdescribes⟩
  | markRevoked id =>
    obtain ⟨mi, target, hload, hfind, rfl, hwritten⟩ := markProfileRevoked_saves happly
    obtain rfl := Option.some.inj hload
    obtain rfl := Option.some.inj hwritten
    rcases mem_withProfile_of_mem _ hfind hp with ⟨rfl, -⟩ | hkept
    · obtain ⟨pre, post, -, -, htarget, -⟩ := find?_eq_some hfind
      exact absurd (by rw [← htarget, hid]) hop
    · exact ⟨p, hkept, hid, hdescribes⟩

/-- What is persisted for a queued request is what its card asks for. -/
theorem holds_created {now : ℤ} (hreq : Queued req) (hkey : stripPubkey key = key)
    (hsaved : (Operation.create (req.card.args key) now "").saved loaded = some mi') :
    Holds (some mi') req.card key req.card.candidateProfileId := by
  obtain ⟨answer, happly⟩ := saved_eq_some.mp hsaved
  obtain ⟨mi, pubkey, -, hpubkey, -, -, -, -, -, rfl, rfl⟩ := createChildProfile_saves happly
  obtain ⟨body, mi₀, rfl⟩ := hreq
  refine ⟨_, rfl, _, List.mem_append_right _ (List.mem_singleton_self _), rfl, rfl, rfl, rfl,
    strip_strip _, rfl, ?_⟩
  have hclean := cleanPubkey_of_mapM hpubkey
  have hsome := mapM_cleanPubkey_some hclean
  obtain rfl := Except.ok.inj (hsome.symm.trans hpubkey)
  exact congrArg some hkey

/-- Where a save replaces the file its operation was computed from, it keeps a profile it does not
revoke. -/
theorem holds_replaced {file : Option MasterIdentity} (hloaded : loadMasterIdentity file = loaded)
    (hsaved : op.saved loaded = some mi) (hop : op ≠ .markRevoked profileId)
    (h : Holds (loadMasterIdentity file) card key profileId) :
    Holds (loadMasterIdentity (some mi)) card key profileId := by
  subst hloaded
  cases hfile : loadMasterIdentity file with
  | none =>
    rw [hfile, saved_none] at hsaved
    cases hsaved
  | some mi₀ =>
    rw [hfile] at h hsaved
    rw [loadMasterIdentity_of_readable
      (readable_saved (loadMasterIdentity_eq_some.mp hfile).2 hsaved)]
    exact holds_saved h hsaved hop

theorem readable_of_saved {file : Option MasterIdentity}
    (hsaved : op.saved (loadMasterIdentity file) = some mi) : mi.Readable := by
  cases hfile : loadMasterIdentity file with
  | none =>
    rw [hfile, saved_none] at hsaved
    cases hsaved
  | some mi₀ =>
    rw [hfile] at hsaved
    exact readable_saved (loadMasterIdentity_eq_some.mp hfile).2 hsaved

/-! ## Answers -/

theorem attestedKey_eq_some {childPubkeyHex capSignature : String}
    (h : attestedKey cfg req childPubkeyHex capSignature = some key) :
    cleanPubkey childPubkeyHex = .ok key ∧
      ∃ fields, signedFields req key = some fields ∧ Attested cfg capSignature fields := by
  unfold attestedKey at h
  cases hclean : cleanPubkey childPubkeyHex with
  | error e =>
    rw [hclean] at h
    cases h
  | ok key' =>
    rw [hclean] at h
    dsimp only at h
    split_ifs at h with hattested
    obtain rfl := Option.some.inj h
    obtain ⟨fields, hfields, hattested⟩ := hattested
    exact ⟨rfl, fields, hfields, hattested⟩

theorem Signed.stripPubkey (h : Signed cfg requests c i req key) : stripPubkey key = key := by
  obtain ⟨-, -, ⟨_, _, _, _, -, hkey⟩, hspace⟩ := h
  exact (cleanPubkey_cleaned (attestedKey_eq_some hkey).1 hspace).1

/-- Where an answer stands once it has loaded what the file then is. -/
theorem stands_afterLoad (hreq : Queued req) (hpeeked : Peeked c i req)
    (hattests : Attests cfg (requests i) req key) (hspace : Unspaced key)
    (hnamed : ∀ mi ∈ loaded, ∀ p ∈ mi.named? req.card.candidateKind req.card.candidateDisplayName,
      Describes req.card key p)
    (htrace : c'.trace = c.trace ++ [e]) (hthread : e.thread = i) (he : loaded ∈ loadedIn e)
    (hfile : loadMasterIdentity c'.shared.file = loaded) :
    Stands cfg requests c' i (afterLoad cfg (requests i) req loaded) := by
  have hsigned : Signed cfg requests c' i req key :=
    ⟨hreq, hpeeked.keep htrace, hattests, hspace⟩
  obtain ⟨requestId, childPubkeyHex, capSignature, now, hr, hkey⟩ := hattests
  simp only [afterLoad, hr, hkey]
  cases happly : (Operation.create (req.card.args key) now "").apply loaded with
  | error e => trivial
  | ok outcome =>
    obtain ⟨answer, written⟩ := outcome
    cases written with
    | none =>
      refine ⟨hsigned, ?_⟩
      rw [hfile]
      obtain ⟨mi, rfl, hfound⟩ := createChildProfile_finds happly
      exact ⟨mi, rfl, answer, List.mem_of_find?_eq_some hfound, rfl, hnamed mi rfl answer hfound⟩
    | some mi => exact ⟨hsigned, e, by simp [htrace], hthread, he⟩

/-! ## One step -/

variable {phases : ι → Phase}

/-- A thread that is about to report does nothing else first. -/
theorem next?_of_ready
    (hobeys : (watch cfg (requests i)).Obeys (fun phase _ => phase.Settled) (phases i) (c.threads i))
    (hphase : phases i = .ready req key profileId) :
    c.next? i = some (.storeResult (.approved profileId)) := by
  rw [hphase] at hobeys
  unfold Serving.next?
  cases hthread : c.threads i with
  | done a =>
    rw [hthread] at hobeys
    exact (hobeys req key profileId rfl).elim
  | call q next =>
    rw [hthread] at hobeys
    have hallow := hobeys.1
    cases q with
    | storeResult result =>
      cases result with
      | approved profileId' =>
        obtain rfl : profileId' = profileId := hallow
        rfl
      | signatureError => exact hallow.elim
    | _ => exact hallow.elim

variable [DecidableEq ι]

/-- The others stand where they stood, and the thread where the call has led it. -/
theorem Sound.of_stands {phase : Phase} (h : Sound cfg requests c phases)
    (htrace : c'.trace = c.trace ++ [e])
    (hpending : ∀ requestId req, c'.shared.pending.get? requestId = some req → Queued req)
    (hfile : ∀ j, j ≠ i → ∀ req key profileId, phases j = .ready req key profileId →
      Holds (loadMasterIdentity c.shared.file) req.card key profileId →
      Holds (loadMasterIdentity c'.shared.file) req.card key profileId)
    (hphase : Stands cfg requests c' i phase) :
    Sound cfg requests c' (Function.update phases i phase) where
  pending := hpending
  stands j := by
    by_cases hj : j = i
    · subst hj
      rwa [Function.update_self]
    · rw [Function.update_of_ne hj]
      exact (h.stands j).keep htrace (hfile j hj)

/-- One call keeps the pending requests as they were queued and every thread where its phase says. -/
theorem Sound.step {m : Moment} {q : Query} {next : Answer q → Handler}
    (h : Sound cfg requests c phases) (hcall : c.threads i = .call q next)
    (hobeys : ∀ j, (watch cfg (requests j)).Obeys (fun phase _ => phase.Settled) (phases j)
      (c.threads j))
    (hturn : Undisturbed cfg requests c (i, m)) :
    Sound cfg requests (Serving.step exec c (i, m))
      (Function.update phases i
        ((watch cfg (requests i)).next (phases i) q (exec q m c.shared).1)) := by
  have hallow : (watch cfg (requests i)).allows (phases i) q := by
    have := hobeys i
    rw [hcall] at this
    exact this.1
  have hnext : c.next? i = some q := Serving.next?_eq_some.mpr ⟨next, hcall⟩
  have hstands := h.stands i
  simp only [Undisturbed, hnext] at hturn
  rw [Serving.step_call hcall]
  cases q with
  | loadMasterIdentity =>
    refine h.of_stands rfl h.pending (fun j _ req key profileId _ hholds => ?_) ?_
    · change Holds (loadMasterIdentity (loadMasterIdentity c.shared.file)) _ _ _
      rwa [loadMasterIdentity_idem]
    · cases hphase : phases i with
      | peeked req =>
        rw [hphase] at hallow hstands
        obtain ⟨key, hattests⟩ := hallow
        obtain ⟨requestId, childPubkeyHex, capSignature, now, hr, hkey⟩ := hattests
        simp only [hr] at hturn
        obtain ⟨hreq, e, he, hthread, hfound⟩ := hstands
        obtain ⟨hspace, hnamed⟩ := hturn e he hthread req hfound key (Option.mem_def.mpr hkey)
        have hattests : Attests cfg (requests i) req key :=
          ⟨requestId, childPubkeyHex, capSignature, now, hr, hkey⟩
        rw [watch_next_peeked]
        exact stands_afterLoad hreq ⟨e, he, hthread, hfound⟩ hattests hspace hnamed rfl rfl rfl
          (loadMasterIdentity_idem _)
      | ready req key profileId =>
        rw [hphase] at hallow
        exact hallow.elim
      | _ => exact ⟨_, List.mem_append_right _ (List.mem_singleton_self _), rfl, rfl⟩
  | saveMasterIdentity mi =>
    obtain ⟨hunchanged, hturn⟩ := hturn
    cases hphase : phases i with
    | holding loaded =>
      rw [hphase] at hallow hstands
      obtain ⟨e, he, hthread, hloaded⟩ := hstands
      have hfile := hunchanged e he hthread loaded hloaded
      obtain ⟨lands, envelope⟩ := m
      cases lands with
      | false => exact h.of_stands rfl h.pending (fun _ _ _ _ _ _ hholds => hholds) trivial
      | true =>
        refine h.of_stands rfl h.pending (fun j _ req key profileId hready hholds => ?_) trivial
        have hreports := next?_of_ready (hobeys j) hready
        cases hr : requests i with
        | direct op =>
          simp only [watch, hr] at hallow
          rw [hr] at hturn
          refine holds_replaced hfile hallow ?_ hholds
          rintro rfl
          exact hturn j _ hreports rfl
        | bootstrap _ _ _ _ _ _ =>
          rw [hr] at hturn
          cases hturn j _ hreports
        | _ =>
          simp only [watch, hr] at hallow
    | persisting req key loaded =>
      rw [hphase] at hallow hstands
      obtain ⟨-, now, hsaved⟩ := hallow
      obtain ⟨hsigned, e, he, hthread, hloaded⟩ := hstands
      obtain rfl := hunchanged e he hthread loaded hloaded
      obtain ⟨lands, envelope⟩ := m
      cases lands with
      | false => exact h.of_stands rfl h.pending (fun _ _ _ _ _ _ hholds => hholds) trivial
      | true =>
        refine h.of_stands rfl h.pending (fun j _ req key profileId hready hholds => ?_) ?_
        · exact holds_replaced rfl hsaved (by simp) hholds
        · refine ⟨hsigned.keep rfl, ?_⟩
          change Holds (loadMasterIdentity (some mi)) _ _ _
          rw [loadMasterIdentity_of_readable (readable_of_saved hsaved)]
          exact holds_created hsigned.1 hsigned.stripPubkey hsaved
    | _ =>
      rw [hphase] at hallow
      exact hallow.elim
  | addPending requestId req =>
    have hqueued : Queued req := by
      cases hphase : phases i with
      | ready _ _ _ =>
        rw [hphase] at hallow
        exact hallow.elim
      | _ =>
        rw [hphase] at hallow
        exact hallow
    refine h.of_stands rfl (fun id req' hget => ?_) (fun _ _ _ _ _ _ hholds => hholds) ?_
    · change (c.shared.pending.set requestId req).get? id = some req' at hget
      rw [Dict.get?_set] at hget
      split_ifs at hget
      · obtain rfl := Option.some.inj hget
        exact hqueued
      · exact h.pending id req' hget
    · exact hstands.keep rfl fun _ _ _ _ hholds => hholds
  | peekPending requestId =>
    refine h.of_stands rfl h.pending (fun _ _ _ _ _ _ hholds => hholds) ?_
    change Stands cfg requests _ i ((watch cfg (requests i)).next (phases i) (.peekPending requestId)
      (c.shared.pending.get? requestId))
    cases hfound : c.shared.pending.get? requestId with
    | none => exact hstands.keep rfl fun _ _ _ _ hholds => hholds
    | some req =>
      refine ⟨h.pending requestId req hfound, _, List.mem_append_right _ (List.mem_singleton_self _),
        rfl, ?_⟩
      exact hfound
  | verifyEnvelope =>
    exact h.of_stands rfl h.pending (fun _ _ _ _ _ _ hholds => hholds)
      (hstands.keep rfl fun _ _ _ _ hholds => hholds)
  | takePending requestId =>
    refine h.of_stands rfl (fun id req' hget => ?_) (fun _ _ _ _ _ _ hholds => hholds) ?_
    · change (c.shared.pending.erase requestId).get? id = some req' at hget
      rw [Dict.get?_erase] at hget
      split_ifs at hget
      exact h.pending id req' hget
    · exact hstands.keep rfl fun _ _ _ _ hholds => hholds
  | storeResult result =>
    exact h.of_stands rfl h.pending (fun _ _ _ _ _ _ hholds => hholds) trivial

omit [DecidableEq ι] in
/-- What the card asks for is what the answer's signature covers. -/
theorem coversProfile {capSignature : String} {p : Profile} (hreq : Queued req)
    (hclean : cleanPubkey hex = .ok key) (hspace : Unspaced key)
    (hfields : ∃ fields, signedFields req key = some fields ∧ Attested cfg capSignature fields)
    (hp : Describes req.card key p) : CoversProfile cfg capSignature p := by
  obtain ⟨body, mi, rfl⟩ := hreq
  obtain ⟨fields, hsigned, hattested⟩ := hfields
  obtain ⟨hid, -, hkind, hname, hindex, hkey⟩ := hp
  have hlookup := lookup_signedFields hsigned
  refine ⟨fields, key, hattested, hkey, ?_, ?_, ?_, ?_, ?_, (cleanPubkey_cleaned hclean hspace).2⟩
  · rw [hid]
    exact hlookup "candidate_profile_id" (by decide) rfl
  · rw [hkind]
    exact hlookup "kind" (by decide) rfl
  · rw [hname]
    exact hlookup "display_name" (by decide) rfl
  · rw [hindex]
    exact hlookup "derivation_index" (by decide) rfl
  · rw [signedFields_newProfileCreate hsigned, lookup_setItem_self]

/-- The requests before their first call. -/
def serve (cfg : Config) (requests : ι → Request) (s : Shared) : Server ι :=
  Serving.start s fun i => (requests i).handler cfg

end

/-! ## A name that is taken meanwhile -/

instance {ι : Type} [Fintype ι] [DecidableEq ι] (cfg : Config) (requests : ι → Request)
    (c : Server ι) (turn : ι × Moment) : Decidable (Undisturbed cfg requests c turn) := by
  unfold Undisturbed
  split
  · refine @instDecidableAnd _ _ inferInstance ?_
    split <;> infer_instance
  · split <;> infer_instance
  · infer_instance

/-- The operator's key is the generator of secp256k1. -/
def operatorKey : String :=
  "79be667ef9dcbbac55a06295ce870b07029bfcdb2dce28d959f2815b16f81798" ++
    "483ada7726a3c4655da4fbfc0e1108a8fd17b448a68554199c47d08ffb10d4b8"

/-- The fields of the request for the pseudonym with its key, as they are signed. -/
def sampleFields : List (String × Json) :=
  ("child_pubkey_hex", .str secondPoint) :: candidateFields
    { candidateProfileId := firstId
      candidateKind := "personal:child"
      candidateDisplayName := "One"
      candidateDerivationIndex := 0
      candidateThemeHint := none
      candidateScimProvider := none } operatorKey

/-- The operator's signature over these fields. -/
def sampleSignature : String :=
  "c7CwUES-0fAiCkQ7WJKOQ34D4t7dMoAmf6EBJkZTd8sQvs0b6QOjigRi3z3Kda6nXdVaNq3sVEd2H5i6-ef3nA"

def sampleDigest : Option Bytes :=
  fromHex "2eba463b64343536124ddbcc338819b996ffb37eef0f87fa0afdef0cfcfb451c"

/-- SHA-256 and the recovery of keys, on the bytes that are asked here. -/
def sampleConfig : Config where
  env :=
    { sha256 := fun raw =>
        if raw = canonicalJson (.obj sampleFields) then sampleDigest.getD [] else []
      recoverPublicKey := fun digest rsv =>
        if some digest = sampleDigest ∧ some (rsv.take 64) = unb64u sampleSignature ∧
          rsv.drop 64 = [28] then fromHex operatorKey
        else none }
  operatorPubkey := fromHex operatorKey

/-- A request for the pseudonym "One", the operator's answer to it, and a direct call. -/
def sampleRequests (displayName : String) (i : Fin 3) : Request :=
  match i with
  | 0 => .create "request-1" (pseudonym firstId "One")
  | 1 => .respond "request-1" secondPoint sampleSignature 1760000100
  | 2 => .direct (.create { kind := "personal:child", displayName } 1760000050 secondId)

def sampleShared : Shared where
  file := bootstrapped?
  pending := ∅

/-- So many calls of a thread in a row. -/
def turnsOf (i : Fin 3) (n : ℕ) : List (Fin 3 × Moment) :=
  List.replicate n (i, { lands := true, envelope := true })

end Approval
end Profiles
end Recto
