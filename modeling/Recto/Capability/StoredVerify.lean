import Recto.Capability.Checked
import Recto.Profiles.IdentityFile

/-!
# `verify_jws` with the file it reads

A token that names a parent profile is verified against `master_identity.json`.
Here `verify_jws` is read with the loader of that file and with the interpreter
whose limits the JSON of the token and of the file meets. What it returns is
what was signed, whatever the inputs are; what it raises is a `ValueError`
unless the loader lets something else through.
-/

namespace Recto
namespace Capability

open Profiles.Stored (Interpreter StateDir MasterFile)

variable (env : TokenPrimitives) (py : Interpreter)

/-! ## The token -/

/-- What `json.loads` takes from the interpreter where it is given bytes: the text in the encoding
it detects; `none` where that is a `UnicodeDecodeError`. -/
abbrev JsonText := Bytes → Option (List Char)

variable (jsonText : JsonText)

/-- `json.loads(_b64url_decode(segment))` under `except (ValueError, RecursionError)`. -/
def segmentValue (segment : List Char) : Except PyError Json :=
  match (unb64uChars segment).bind jsonText with
  | none => .error .valueError
  | some text =>
      match Json.loadsWithin py.maxDepth text with
      | .ok value => .ok value
      | .error _ => .error .valueError

/-- `parse_jws` -/
def parseToken (token : String) : Except PyError ParsedJws :=
  match segments token with
  | [headerB64, payloadB64, sigB64] => do
      let header ← segmentValue py jsonText headerB64
      let payload ← segmentValue py jsonText payloadB64
      match unb64uChars sigB64 with
      | none => .error .valueError
      | some signature =>
          ensure (isDict header ∧ isDict payload) .valueError
          pure { header, payload, signature, signingInput := signingInput headerB64 payloadB64 }
  | _ => .error .valueError

/-! ## Verification -/

/-- The derived key of the profile, from the loaded identity. An `OSError` of the loader is turned
into the refusal, and nothing else of it. -/
def derivedKey (renames : Bool) (dir : StateDir) (name : String) : Except PyError Bytes :=
  match (Profiles.Stored.loadMasterIdentity py renames dir).1 with
  | .error .osError => .error .valueError
  | .error e => .error e
  | .ok none => .error .valueError
  | .ok (some mi) =>
      match mi.profiles.find? fun p => p.profileId = name with
      | none => .error .valueError
      | some profile =>
          if profile.revoked then .error .valueError
          else
            match profile.derivedPubkeyHex.bind fromHex with
            | none => .error .valueError
            | some key => .ok key

/-- What `verify_jws` does with a parsed token. -/
def verifyParsed (expectedKey : Bytes) (expectedAud : Option String)
    (profiles : Option (String → Except PyError Bytes)) (now : ℤ) (jws : ParsedJws) :
    Except PyError CapabilityClaims := do
  ensure (field jws.header "alg" = some (.str "ES256K")) .valueError
  ensure ((field jws.header "typ").getD .null = .str "JWT" ∨
    (field jws.header "typ").getD .null = .null) .valueError
  ensure (jws.signature.length = 64) .valueError
  let key ← targetKey expectedKey profiles jws.payload
  ensure (recoversTo env (env.sha256 jws.signingInput) jws.signature key) .valueError
  requireClaimTypes jws.payload
  ensure (intClaim jws.payload "nbf" ≤ now) .valueError
  ensure (now < intClaim jws.payload "exp") .valueError
  ensure (expectedAud.all fun aud => (field jws.payload "aud").any fun x =>
    match x with
    | .arr xs => .str aud ∈ xs
    | _ => false) .valueError
  dictToClaims jws.payload

theorem verifyJws_eq (token : String) (expectedKey : Bytes) (expectedAud : Option String)
    (profiles : Option (String → Except PyError Bytes)) (now : ℤ) :
    verifyJws env token expectedKey expectedAud profiles now =
      parseJws token >>= verifyParsed env expectedKey expectedAud profiles now := rfl

/-- `verify_jws`, with the state dir it may be given and a file system that lets a corrupt file be
renamed or not. -/
def verifyStored (token : String) (expectedKey : Bytes) (expectedAud : Option String)
    (stateDir : Option StateDir) (renames : Bool) (now : ℤ) : Except PyError CapabilityClaims := do
  let jws ← parseToken py jsonText token
  verifyParsed env expectedKey expectedAud (stateDir.map (derivedKey py renames)) now jws

/-! ## What it promises -/

/-- The key a payload is to be signed with: the operator's, or the derived key of the profile that
the payload names, the first of its id, while it is not revoked. -/
def IsSigner (renames : Bool) (stateDir : Option StateDir) (expectedKey : Bytes) (payload : Json)
    (key : Bytes) : Prop :=
  ((field payload "parent_profile").getD .null = .null ∧ key = expectedKey) ∨
    ∃ name dir mi profile hex, field payload "parent_profile" = some (.str name) ∧ name ≠ "" ∧
      stateDir = some dir ∧
      (Profiles.Stored.loadMasterIdentity py renames dir).1 = .ok (some mi) ∧
      (mi.profiles.find? fun p => p.profileId = name) = some profile ∧ profile.revoked = false ∧
      profile.derivedPubkeyHex = some hex ∧ fromHex hex = some key

/-- The claims were signed by the right key, are in time and for the audience. -/
def Verified (token : String) (expectedKey : Bytes) (expectedAud : Option String)
    (stateDir : Option StateDir) (renames : Bool) (now : ℤ) (claims : CapabilityClaims) : Prop :=
  ∃ headerB64 payloadB64 sigB64 header payload signature key,
    segments token = [headerB64, payloadB64, sigB64] ∧
    segmentValue py jsonText headerB64 = .ok header ∧
    segmentValue py jsonText payloadB64 = .ok payload ∧ unb64uChars sigB64 = some signature ∧
    field header "alg" = some (.str "ES256K") ∧ signature.length = 64 ∧
    IsSigner py renames stateDir expectedKey payload key ∧
    recoversTo env (env.sha256 (signingInput headerB64 payloadB64)) signature key ∧
    claims.nbf ≤ now ∧ now < claims.exp ∧ (∀ aud ∈ expectedAud, .str aud ∈ claims.aud) ∧
    ClaimsOf payload claims

/-- What is returned is verified, and what is raised is a `ValueError`. -/
def Keeps (token : String) (expectedKey : Bytes) (expectedAud : Option String)
    (stateDir : Option StateDir) (renames : Bool) (now : ℤ) : Prop :=
  (∀ claims, verifyStored env py jsonText token expectedKey expectedAud stateDir renames now =
      .ok claims →
    Verified env py jsonText token expectedKey expectedAud stateDir renames now claims) ∧
    ∀ e, verifyStored env py jsonText token expectedKey expectedAud stateDir renames now = .error e →
      e = .valueError

/-- The token comes to the file: its shape is right and it names a profile. -/
def ReadsFile (token : String) (stateDir : Option StateDir) (dir : StateDir) : Prop :=
  ∃ jws name, parseToken py jsonText token = .ok jws ∧
    field jws.header "alg" = some (.str "ES256K") ∧
    ((field jws.header "typ").getD .null = .str "JWT" ∨
      (field jws.header "typ").getD .null = .null) ∧
    jws.signature.length = 64 ∧ field jws.payload "parent_profile" = some (.str name) ∧ name ≠ "" ∧
    stateDir = some dir

/-- The file is nested past the parser's depth, or an infinite float of it is converted. -/
def Escapes (dir : StateDir) : Prop :=
  ∃ raw, dir.masterIdentity = .content raw ∧
    ((∃ text, decodeStrict raw = some text ∧ Json.loadsWithin py.maxDepth text = .error .recursion) ∨
      Profiles.Stored.ConvertsInfinity py raw)

section
variable {env py jsonText} {token : String} {expectedKey : Bytes} {expectedAud : Option String}
  {stateDir : Option StateDir} {renames : Bool} {now : ℤ} {claims : CapabilityClaims}
  {dir : StateDir} {payload : Json} {key : Bytes} {jws : ParsedJws}

/-- What is raised is the one refusal. -/
abbrev Refuses {α : Type} (x : Except PyError α) : Prop := OnlyRaises (· = .valueError) x

theorem refuses_segmentValue (segment : List Char) : Refuses (segmentValue py jsonText segment) := by
  unfold segmentValue
  split
  · exact .error rfl
  · split
    · exact .ok _
    · exact .error rfl

theorem refuses_parseToken (token : String) : Refuses (parseToken py jsonText token) := by
  unfold parseToken
  split
  · refine .bind (refuses_segmentValue _) fun _ _ => .bind (refuses_segmentValue _) fun _ _ => ?_
    split
    · exact .error rfl
    · exact .bind (.ensure _ rfl) fun _ _ => .ok _
  · exact .error rfl

theorem parseToken_eq_ok (h : parseToken py jsonText token = .ok jws) :
    ∃ headerB64 payloadB64 sigB64, segments token = [headerB64, payloadB64, sigB64] ∧
      segmentValue py jsonText headerB64 = .ok jws.header ∧
      segmentValue py jsonText payloadB64 = .ok jws.payload ∧
      unb64uChars sigB64 = some jws.signature ∧ isDict jws.payload = true ∧
      jws.signingInput = signingInput headerB64 payloadB64 := by
  unfold parseToken at h
  split at h
  · rename_i headerB64 payloadB64 sigB64 hsegments
    obtain ⟨header, hheader, h⟩ := Except.bind_eq_ok.mp h
    obtain ⟨payload, hpayload, h⟩ := Except.bind_eq_ok.mp h
    split at h
    · cases h
    · rename_i signature hsignature
      obtain ⟨⟨⟩, hdict, h⟩ := Except.bind_eq_ok.mp h
      obtain rfl := Except.pure_eq_ok.mp h
      exact ⟨_, _, _, hsegments, hheader, hpayload, hsignature, (ensure_eq_ok.mp hdict).2, rfl⟩
  · cases h

/-! ## The file -/

theorem escapes_iff : Escapes py dir ↔
    ∃ e, (Profiles.Stored.loadMasterIdentity py renames dir).1 = .error e ∧ e ≠ .osError ∧
      e ≠ .valueError := by
  constructor
  · rintro ⟨raw, hfile, ⟨text, htext, hstop⟩ | ⟨text, document, htext, hdocument, hinfinite⟩⟩
    · refine ⟨.runtimeError, ?_, by decide, by decide⟩
      simp only [Profiles.Stored.loadMasterIdentity, hfile, htext, hstop]
      rfl
    · refine ⟨.overflowError, ?_, by decide, by decide⟩
      simp only [Profiles.Stored.loadMasterIdentity, hfile, htext, hdocument,
        Profiles.Stored.masterIdentityFromDict_eq_overflow.mpr hinfinite]
      rfl
  · rintro ⟨e, he, hos, hvalue⟩
    cases hfile : dir.masterIdentity with
    | absent =>
      simp only [Profiles.Stored.loadMasterIdentity, hfile] at he
      cases he
    | unreadable =>
      simp only [Profiles.Stored.loadMasterIdentity, hfile] at he
      exact absurd (Except.error.inj he).symm hos
    | content raw =>
      refine ⟨raw, hfile, ?_⟩
      simp only [Profiles.Stored.loadMasterIdentity, hfile] at he
      cases htext : decodeStrict raw with
      | none =>
        simp only [htext] at he
        cases he
      | some text =>
        simp only [htext] at he
        cases hdocument : Json.loadsWithin py.maxDepth text with
        | error stop =>
          simp only [hdocument] at he
          cases stop with
          | decode => cases he
          | digits => exact absurd (Except.error.inj he).symm hvalue
          | recursion => exact .inl ⟨text, rfl, hdocument⟩
        | ok document =>
          simp only [hdocument] at he
          cases hmi : Profiles.Stored.masterIdentityFromDict py document with
          | ok mi =>
            simp only [hmi] at he
            cases he
          | error e' =>
            simp only [hmi] at he
            obtain hcaught | rfl := Profiles.Stored.raises_masterIdentityFromDict document e' hmi
            · simp only [if_pos hcaught] at he
              cases he
            · exact .inr ⟨text, document, htext, hdocument,
                Profiles.Stored.masterIdentityFromDict_eq_overflow.mp hmi⟩

theorem refuses_derivedKey_iff (name : String) :
    Refuses (derivedKey py renames dir name) ↔ ¬Escapes py dir := by
  have hescapes : Escapes py dir ↔
      ∃ e, (Profiles.Stored.loadMasterIdentity py renames dir).1 = .error e ∧ e ≠ .osError ∧
        e ≠ .valueError := escapes_iff
  rw [hescapes]
  unfold derivedKey
  cases hload : (Profiles.Stored.loadMasterIdentity py renames dir).1 with
  | error e =>
    by_cases hos : e = .osError
    · subst hos
      refine iff_of_true (.error rfl) ?_
      rintro ⟨e, he, hne, -⟩
      exact hne (Except.error.inj he).symm
    · constructor
      · rintro h ⟨e', he, -, hne⟩
        obtain rfl := Except.error.inj he
        refine hne (h e ?_)
        cases e <;> first | rfl | exact absurd rfl hos
      · intro h e' he'
        by_contra hne
        refine h ⟨e, rfl, hos, ?_⟩
        rintro rfl
        exact hne (Except.error.inj he').symm
  | ok loaded =>
    refine iff_of_true ?_ (by rintro ⟨e, he, -⟩; cases he)
    cases loaded with
    | none => exact .error rfl
    | some mi =>
      simp only
      split
      · exact .error rfl
      · split_ifs
        · exact .error rfl
        · split
          · exact .error rfl
          · exact .ok _

/-- The target key is looked up in the file for a payload that names a profile, and nowhere else. -/
theorem refuses_targetKey_iff : Refuses (targetKey expectedKey (stateDir.map (derivedKey py renames))
      payload) ↔
    ¬∃ name dir, field payload "parent_profile" = some (.str name) ∧ name ≠ "" ∧
      stateDir = some dir ∧ Escapes py dir := by
  unfold targetKey
  cases hfield : field payload "parent_profile" with
  | none => exact iff_of_true (.ok _) (by rintro ⟨name, dir, h, -⟩; cases h)
  | some value =>
    cases value with
    | str name =>
      cases stateDir with
      | none => exact iff_of_true (.error rfl) (by rintro ⟨name, dir, -, -, h, -⟩; cases h)
      | some dir =>
        simp only [Option.getD_some, Option.map_some]
        by_cases hname : name = ""
        · rw [if_pos hname]
          refine iff_of_true (.error rfl) ?_
          rintro ⟨name', dir', h, hne, -⟩
          obtain rfl := Json.str.inj (Option.some.inj h)
          exact hne hname
        · rw [if_neg hname, refuses_derivedKey_iff]
          refine not_congr ⟨fun h => ⟨name, dir, rfl, hname, rfl, h⟩, ?_⟩
          rintro ⟨name', dir', -, -, hdir, h⟩
          rwa [Option.some.inj hdir]
    | null => exact iff_of_true (.ok _) (by rintro ⟨name, dir, h, -⟩; cases h)
    | bool b => exact iff_of_true (.error rfl) (by rintro ⟨name, dir, h, -⟩; cases h)
    | int n => exact iff_of_true (.error rfl) (by rintro ⟨name, dir, h, -⟩; cases h)
    | float x => exact iff_of_true (.error rfl) (by rintro ⟨name, dir, h, -⟩; cases h)
    | arr xs => exact iff_of_true (.error rfl) (by rintro ⟨name, dir, h, -⟩; cases h)
    | obj fields => exact iff_of_true (.error rfl) (by rintro ⟨name, dir, h, -⟩; cases h)

theorem derivedKey_eq_ok {name : String} (h : derivedKey py renames dir name = .ok key) :
    ∃ mi profile hex, (Profiles.Stored.loadMasterIdentity py renames dir).1 = .ok (some mi) ∧
      (mi.profiles.find? fun p => p.profileId = name) = some profile ∧ profile.revoked = false ∧
      profile.derivedPubkeyHex = some hex ∧ fromHex hex = some key := by
  unfold derivedKey at h
  split at h
  · cases h
  · cases h
  · cases h
  · rename_i mi hload
    split at h
    · cases h
    · rename_i profile hprofile
      split_ifs at h with hrevoked
      split at h
      · cases h
      · rename_i key' hkey
        obtain rfl := Except.ok.inj h
        obtain ⟨hex, hhex, hkey⟩ := Option.bind_eq_some_iff.mp hkey
        exact ⟨mi, profile, hex, hload, hprofile, Bool.eq_false_of_not_eq_true hrevoked, hhex, hkey⟩

theorem isSigner_of_targetKey
    (h : targetKey expectedKey (stateDir.map (derivedKey py renames)) payload = .ok key) :
    IsSigner py renames stateDir expectedKey payload key := by
  unfold targetKey at h
  split at h
  · rename_i hnull
    exact .inl ⟨hnull, (Except.ok.inj h).symm⟩
  · rename_i name hname
    split at h
    · rename_i profiles hmap
      obtain ⟨dir, hdir, rfl⟩ := Option.map_eq_some_iff.mp hmap
      split_ifs at h with hempty
      obtain ⟨mi, profile, hex, hload, hprofile, hrevoked, hhex, hkey⟩ := derivedKey_eq_ok h
      have hfield : field payload "parent_profile" = some (.str name) := by
        cases hf : field payload "parent_profile" with
        | none =>
          rw [hf] at hname
          cases hname
        | some value =>
          rw [hf] at hname
          exact congrArg some hname
      exact .inr ⟨name, dir, mi, profile, hex, hfield, hempty, hdir, hload, hprofile, hrevoked, hhex,
        hkey⟩
    · cases h
  · cases h

/-! ## The whole -/

theorem refuses_requireClaimTypes (payload : Json) : Refuses (requireClaimTypes payload) :=
  .bind (.ensure _ rfl) fun _ _ => .bind (.ensure _ rfl) fun _ _ => .bind (.ensure _ rfl) fun _ _ =>
    .bind (.ensure _ rfl) fun _ _ => .bind (.ensure _ rfl) fun _ _ =>
      .bind (.ensure _ rfl) fun _ _ => .bind (.ensure _ rfl) fun _ _ =>
        .bind (.ensure _ rfl) fun _ _ => .bind (.ensure _ rfl) fun _ _ => .ensure _ rfl

theorem intClaim_eq {name : String} {n : ℤ} (h : field payload name = some (.int n)) :
    intClaim payload name = n := by
  rw [intClaim, h]

/-- What is returned is verified. -/
theorem verified_of_verifyStored
    (h : verifyStored env py jsonText token expectedKey expectedAud stateDir renames now =
      .ok claims) :
    Verified env py jsonText token expectedKey expectedAud stateDir renames now claims := by
  obtain ⟨jws, hparse, h⟩ := Except.bind_eq_ok.mp h
  obtain ⟨headerB64, payloadB64, sigB64, hsegments, hheader, hpayload, hsignature, hdict, hinput⟩ :=
    parseToken_eq_ok hparse
  simp only [verifyParsed, Except.bind_eq_ok, ensure_eq_ok] at h
  obtain ⟨-, halg, -, -, -, hlength, key, hkey, -, hrecover, ⟨⟩, htypes, -, hnbf, -, hexp, -, haud,
    hclaims⟩ := h
  obtain ⟨c, hc, hof⟩ := exists_claimsOf hdict htypes
  obtain rfl := Except.ok.inj (hc.symm.trans hclaims)
  rw [hinput] at hrecover
  rw [intClaim_eq hof.nbf] at hnbf
  rw [intClaim_eq hof.exp] at hexp
  refine ⟨headerB64, payloadB64, sigB64, jws.header, jws.payload, jws.signature, key, hsegments,
    hheader, hpayload, hsignature, halg, hlength, isSigner_of_targetKey hkey, hrecover, hnbf, hexp,
    ?_, hof⟩
  intro aud hmem
  rw [Option.mem_def.mp hmem, hof.aud] at haud
  simpa using haud

theorem refuses_verifyParsed (hdict : isDict jws.payload = true)
    (hkey : field jws.header "alg" = some (.str "ES256K") →
      ((field jws.header "typ").getD .null = .str "JWT" ∨
        (field jws.header "typ").getD .null = .null) → jws.signature.length = 64 →
      Refuses (targetKey expectedKey (stateDir.map (derivedKey py renames)) jws.payload)) :
    Refuses (verifyParsed env expectedKey expectedAud (stateDir.map (derivedKey py renames)) now jws) :=
  .bind (.ensure _ rfl) fun _ halg => .bind (.ensure _ rfl) fun _ htyp =>
    .bind (.ensure _ rfl) fun _ hlength =>
      .bind (hkey (ensure_eq_ok.mp halg) (ensure_eq_ok.mp htyp) (ensure_eq_ok.mp hlength))
        fun _ _ => .bind (.ensure _ rfl) fun _ _ =>
          .bind (refuses_requireClaimTypes _) fun _ htypes =>
            .bind (.ensure _ rfl) fun _ _ => .bind (.ensure _ rfl) fun _ _ =>
              .bind (.ensure _ rfl) fun _ _ => by
                obtain ⟨c, hc, -⟩ := exists_claimsOf hdict htypes
                rw [hc]
                exact .ok c

/-- `verify_jws` returns what was signed or raises a `ValueError`, exactly where the token does not
come to a file that the loader lets an exception through for. -/
theorem verify_jws_sound_iff (env : TokenPrimitives) (py : Interpreter) (jsonText : JsonText)
    (token : String) (expectedKey : Bytes) (expectedAud : Option String)
    (stateDir : Option StateDir) (renames : Bool) (now : ℤ) :
    Keeps env py jsonText token expectedKey expectedAud stateDir renames now ↔
      ¬∃ dir, ReadsFile py jsonText token stateDir dir ∧ Escapes py dir := by
  constructor
  · rintro ⟨-, honly⟩ ⟨dir, ⟨jws, name, hparse, halg, htyp, hlength, hname, hne, hdir⟩, hescapes⟩
    have htarget : ¬Refuses (targetKey expectedKey (stateDir.map (derivedKey py renames))
        jws.payload) := by
      rw [refuses_targetKey_iff, not_not]
      exact ⟨name, dir, hname, hne, hdir, hescapes⟩
    refine htarget fun e he => honly e ?_
    rw [verifyStored, hparse, ok_bind, verifyParsed]
    simp only [ensure, if_pos halg, if_pos htyp, if_pos hlength, ok_bind, he]
    rfl
  · intro h
    refine ⟨fun claims => verified_of_verifyStored, ?_⟩
    refine OnlyRaises.bind (refuses_parseToken token) fun jws hparse => ?_
    obtain ⟨-, -, -, -, -, -, -, hdict, -⟩ := parseToken_eq_ok hparse
    refine refuses_verifyParsed hdict fun halg htyp hlength => refuses_targetKey_iff.mpr ?_
    rintro ⟨name, dir, hname, hne, hdir, hescapes⟩
    exact h ⟨dir, ⟨jws, name, hparse, halg, htyp, hlength, hname, hne, hdir⟩, hescapes⟩

end

/-- Its header names the algorithm, its payload only the profile `m`; 64 zero bytes stand for the
signature, which is looked at after the file. -/
def namingToken : String :=
  "eyJhbGciOiJFUzI1NksifQ." ++ "eyJwYXJlbnRfcHJvZmlsZSI6Im0ifQ." ++
    String.ofList (List.replicate 86 'A')

/-- Neither is called before the file is read. -/
def uncalled : TokenPrimitives := ⟨fun _ => [], fun _ _ => none⟩

theorem namingToken_raises :
    verifyStored uncalled Profiles.Stored.cpython decodeStrict namingToken (List.replicate 64 0) none
        (some ⟨.content Profiles.Stored.infinitePurpose, none⟩) true 0 = .error .overflowError ∧
      ¬Keeps uncalled Profiles.Stored.cpython decodeStrict namingToken (List.replicate 64 0) none
        (some ⟨.content Profiles.Stored.infinitePurpose, none⟩) true 0 := by
  have hraises : verifyStored uncalled Profiles.Stored.cpython decodeStrict namingToken
      (List.replicate 64 0) none (some ⟨.content Profiles.Stored.infinitePurpose, none⟩) true 0 =
        .error .overflowError := by
    decide +kernel
  exact ⟨hraises, fun h => absurd (h.2 _ hraises) (by decide)⟩

end Capability
end Recto
