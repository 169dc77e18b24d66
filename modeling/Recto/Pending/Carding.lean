import Recto.Capability.Claims
import Recto.Capability.WrittenBack
import Recto.Data.Records
import Recto.Grants.Handlers
import Recto.Pending.Card
import Recto.Text.Repr

/-!
# What an agent may have carded

`_handle_capability_request` from the claims of the body to the queued card: the
policy on the actions an agent may ask for, that on the audiences, and the jti the
top plane keeps. What they let through is what the phone is asked to sign, when
the card is queued and after its window is stamped.
-/

namespace Recto
namespace Pending

open Capability

/-- What the bootloader is configured with for one agent. -/
structure CardPolicy where
  /-- `cfg.capability_agent_requestable.get(agent_id)` -/
  requestable : Option (List String)
  /-- `cfg.capability_agent_audiences.get(agent_id)` -/
  audiences : Option (List String)
  /-- `cfg.capability_manifest` -/
  manifest : Option ActionManifest

/-- Why no card is queued. -/
inductive CardRefusal where
  /-- `BootloaderError` -/
  | badRequest
  /-- A 403 with its `error`. -/
  | forbidden (error : String)
  /-- An exception of Python's that nothing catches. -/
  | raised (e : PyError)
  deriving DecidableEq, Repr

/-! ## The policies -/

/-- The members of every group of the clause, once `resolve_actions` takes the clause. -/
def groupMembers (manifest : Option ActionManifest) (cap : CapabilityClause) :
    Except CardRefusal (List String) :=
  if cap.groups = [] then .ok []
  else
    match manifest with
    | none => .error (.forbidden "action_policy_unevaluable")
    | some manifest =>
        match resolveActions cap manifest, cap.groups.mapM manifest.groupActions with
        | some _, some members => .ok members.flatten
        | _, _ => .error .badRequest

/-- The requestable-action policy: what the clause names on its allow side. -/
def checkActions (policy : CardPolicy) (cap : CapabilityClause) : Except CardRefusal Unit :=
  match policy.requestable with
  | none => .ok ()
  | some requestable => do
      let _ ← (cap.allowActions.mapM Json.hashKey).mapError CardRefusal.raised
      let members ← groupMembers policy.manifest cap
      ensure (∀ a ∈ cap.allowActions ++ members.map Json.str, ∃ s ∈ requestable, a = .str s)
        (.forbidden "action_not_requestable")

/-- The requestable-audience policy, on the raw `aud`. -/
def checkAudience (policy : CardPolicy) (claimsRaw : Json) : Except CardRefusal Unit :=
  match policy.audiences with
  | none => .ok ()
  | some audiences =>
      match field claimsRaw "aud" with
      | some (.arr aud) => do
          ensure (∀ a ∈ aud, isStr a = true) (.forbidden "audience_not_requestable")
          ensure (aud ≠ [] ∧ ∀ a ∈ aud, ∃ s ∈ audiences, a = .str s)
            (.forbidden "audience_not_requestable")
      | _ => .error (.forbidden "audience_not_requestable")

/-- `grant_ttl_seconds`; a boolean is an `int` below 30. -/
def readGrantTtl : Json → Except CardRefusal (Option ℤ)
  | .null => .ok none
  | .int n => if n < 30 ∨ 900 < n then .error .badRequest else .ok (some n)
  | _ => .error .badRequest

/-- `_to_claims(claims_raw)` under `except (ValueError, KeyError)`. -/
def readClaims (claimsRaw : Json) : Except CardRefusal CapabilityClaims :=
  (dictToClaims claimsRaw).mapError fun e =>
    if e = .valueError ∨ e = .keyError then .badRequest else .raised e

/-- `_handle_capability_request`, from the claims of the body on. The checks of a connection act
stand as `admitAct`, since they refuse and change nothing; `draft` is the card's other fields. -/
def handleCapabilityRequest (env : TokenPrimitives) (printable : Char → Bool) (policy : CardPolicy)
    (admitAct : CapabilityClaims → Except CardRefusal Unit) (body : Json) (draft : PendingRequest) :
    Except CardRefusal PendingRequest := do
  let claimsRaw := (field body "claims").getD .null
  ensure (isDict claimsRaw = true) .badRequest
  let grantTtl ← readGrantTtl ((field body "grant_ttl_seconds").getD .null)
  let claims ← readClaims claimsRaw
  ensure (Grants.reservedResetJti (Json.pyStr printable claims.jti) = false)
    (.forbidden "claims_jti_reserved")
  admitAct claims
  checkActions policy claims.cap
  checkAudience policy claimsRaw
  pure (newCapabilityCard env claims { draft with capGrantTtlSeconds := grantTtl })

/-- `_restamp_grant_window` -/
def restampGrantWindow (env : TokenPrimitives) (now : ℤ) (req : PendingRequest) :
    Except PyError PendingRequest :=
  if req.needsStamp then stamp env now req else .ok req

/-- The queued card after it was opened at these times; a re-stamp that fails leaves it. -/
def afterOpenings (env : TokenPrimitives) (card : PendingRequest) (times : List ℤ) :
    PendingRequest :=
  times.foldl (fun card now => (restampGrantWindow env now card).toOption.getD card) card

/-! ## What the phone signs -/

/-- The action is one that the clause of the payload names: allowed itself, or a member of a group
under the manifest. -/
def NamesAction (manifest : Option ActionManifest) (payload : List (String × Json)) (action : Json) :
    Prop :=
  ∃ cap, payload.lookup "cap" = some (.obj cap) ∧
    ((∃ allowed, cap.lookup "allow_actions" = some (.arr allowed) ∧ action ∈ allowed) ∨
      ∃ groups name m members, cap.lookup "groups" = some (.arr groups) ∧ .str name ∈ groups ∧
        manifest = some m ∧ m.groups.get? name = some members ∧ ∃ s ∈ members, action = .str s)

/-- The payload keeps to the policy. -/
structure WithinPolicy (policy : CardPolicy) (payload : List (String × Json)) : Prop where
  actions : ∀ requestable ∈ policy.requestable, ∀ action, NamesAction policy.manifest payload action →
    ∃ s ∈ requestable, action = .str s
  audience : ∀ audiences ∈ policy.audiences, ∃ aud, payload.lookup "aud" = some (.arr aud) ∧
    aud ≠ [] ∧ ∀ a ∈ aud, ∃ s ∈ audiences, a = .str s
  jti : ∀ s, payload.lookup "jti" = some (.str s) → Grants.reservedResetJti s = false

theorem WithinPolicy.congr {policy : CardPolicy} {payload payload' : List (String × Json)}
    (h : WithinPolicy policy payload)
    (hsame : ∀ k ∉ windowClaims, payload'.lookup k = payload.lookup k) :
    WithinPolicy policy payload' := by
  have hcap := hsame "cap" (by decide)
  have haud := hsame "aud" (by decide)
  have hjti := hsame "jti" (by decide)
  refine ⟨fun requestable hr action ha => h.actions requestable hr action ?_, ?_, ?_⟩
  · rwa [NamesAction, hcap] at ha
  · rw [haud]
    exact h.audience
  · rw [hjti]
    exact h.jti

section
variable {env : TokenPrimitives} {policy : CardPolicy} {c : CapabilityClaims}
  {card : PendingRequest} {claimsRaw : Json}

theorem written_eq_str {x : Json} {s : String} : written x = .str s ↔ x = .str s := by
  cases x <;> simp [written, stripNone, Json.canon]

/-- The claims' own field, as the payload has it. -/
theorem lookup_payload {k : String} {x : Json} (hk : (claimFields c).lookup k = some x)
    (hx : x ≠ .null) : (writtenFields (claimFields c)).lookup k = some (written x) := by
  rw [lookup_writtenFields (nodup_claimFields c), hk, Option.bind_some, if_neg hx]

theorem lookup_capPayload {k : String} {xs : List Json}
    (hk : (capFields c.cap).lookup k = some (.arr xs)) :
    (writtenFields (capFields c.cap)).lookup k = some (.arr (xs.map written)) := by
  rw [lookup_writtenFields (nodup_capFields c.cap), hk, Option.bind_some, if_neg nofun, written_arr]

theorem checked_actions (h : checkActions policy c.cap = .ok ()) :
    ∀ requestable ∈ policy.requestable, ∀ action,
      NamesAction policy.manifest (writtenFields (claimFields c)) action →
        ∃ s ∈ requestable, action = .str s := by
  rintro requestable hr action ⟨cap, hcap, hnamed⟩
  rw [lookup_payload (x := .obj (capFields c.cap)) rfl nofun, written_obj] at hcap
  obtain rfl := Json.obj.inj (Option.some.inj hcap)
  rw [checkActions, Option.mem_def.mp hr] at h
  obtain ⟨-, -, h⟩ := Except.bind_eq_ok.mp h
  obtain ⟨members, hmembers, h⟩ := Except.bind_eq_ok.mp h
  have hall := ensure_eq_ok.mp h
  rcases hnamed with ⟨allowed, hallowed, haction⟩ |
    ⟨groups, name, m, ofGroup, hgroups, hname, hm, hofGroup, s, hs, rfl⟩
  · rw [lookup_capPayload rfl] at hallowed
    obtain rfl := Json.arr.inj (Option.some.inj hallowed)
    obtain ⟨x, hx, rfl⟩ := List.mem_map.mp haction
    obtain ⟨s, hs, rfl⟩ := hall x (List.mem_append_left _ hx)
    exact ⟨s, hs, rfl⟩
  · rw [lookup_capPayload rfl] at hgroups
    obtain rfl := Json.arr.inj (Option.some.inj hgroups)
    obtain ⟨x, hx, hxname⟩ := List.mem_map.mp hname
    obtain rfl := written_eq_str.mp hxname
    have hne : c.cap.groups ≠ [] := List.ne_nil_of_mem hx
    simp only [groupMembers, if_neg hne, hm] at hmembers
    split at hmembers
    · rename_i lists _ hlists
      obtain rfl := Except.ok.inj hmembers
      obtain ⟨ofGroup', hmem, hofGroup'⟩ := exists_mem_of_mapM hlists hx
      obtain rfl : ofGroup' = ofGroup := Option.some.inj (hofGroup'.symm.trans hofGroup)
      obtain ⟨s', hs', heq⟩ := hall (.str s) (List.mem_append_right _
        (List.mem_map_of_mem (List.mem_flatten_of_mem hmem hs)))
      exact ⟨s', hs', heq⟩
    · cases hmembers

/-- The audience that is checked is that of the claims. -/
theorem aud_of_raw {aud : List Json} (h : dictToClaims claimsRaw = .ok c)
    (haud : field claimsRaw "aud" = some (.arr aud)) : c.aud = aud := by
  cases claimsRaw with
  | obj fields =>
    have hitem : Json.getItem (.obj fields) "aud" = .ok (.arr aud) := by
      rw [Json.getItem_obj]
      rw [field] at haud
      rw [haud]
    simp only [dictToClaims, Except.bind_eq_ok] at h
    obtain ⟨_, -, _, -, _, -, _, -, _, -, raw, hraw, auds, hauds, _, -, _, -, _, -, _, -, _, -, _, -,
      _, -, _, -, _, -, _, -, _, -, hpure⟩ := h
    obtain rfl := Except.ok.inj (hitem.symm.trans hraw)
    obtain rfl := Except.ok.inj hauds
    obtain rfl := Except.pure_eq_ok.mp hpure
    rfl
  | _ => cases haud

theorem checked_audience (hclaims : dictToClaims claimsRaw = .ok c)
    (h : checkAudience policy claimsRaw = .ok ()) :
    ∀ audiences ∈ policy.audiences, ∃ aud,
      (writtenFields (claimFields c)).lookup "aud" = some (.arr aud) ∧ aud ≠ [] ∧
        ∀ a ∈ aud, ∃ s ∈ audiences, a = .str s := by
  intro audiences ha
  rw [checkAudience, Option.mem_def.mp ha] at h
  simp only at h
  split at h
  · rename_i aud haud
    obtain ⟨-, -, h⟩ := Except.bind_eq_ok.mp h
    obtain ⟨hne, hall⟩ := ensure_eq_ok.mp h
    obtain rfl := aud_of_raw hclaims haud
    refine ⟨c.aud.map written, ?_, by simpa using hne, fun a ha => ?_⟩
    · rw [lookup_payload (x := .arr c.aud) rfl (by simp), written_arr]
    · obtain ⟨x, hx, rfl⟩ := List.mem_map.mp ha
      obtain ⟨s, hs, rfl⟩ := hall x hx
      exact ⟨s, hs, rfl⟩
  · cases h

/-! ## Through the queue -/

/-- The card's payload is that of the claims, but for their window. -/
def Carries (env : TokenPrimitives) (c : CapabilityClaims) (card : PendingRequest) : Prop :=
  ∃ c', card.capPayloadB64 = some (buildSigningInput env c').2.2 ∧ Json.Proper c'.asdict ∧
    ∀ k ∉ windowClaims,
      (writtenFields (claimFields c')).lookup k = (writtenFields (claimFields c)).lookup k

theorem Carries.payload (h : Carries env c card) : ∃ payload, card.payload? = .ok (.obj payload) ∧
    ∀ k ∉ windowClaims, payload.lookup k = (writtenFields (claimFields c)).lookup k := by
  obtain ⟨c', hpayload, hproper, hsame⟩ := h
  refine ⟨_, ?_, hsame⟩
  rw [PendingRequest.payload?, hpayload, Option.getD_some, segmentJson_proper env hproper,
    asdict_eq, written_obj]

/-- A re-stamp sets the window and leaves every other claim. -/
theorem Carries.restamp (h : Carries env c card) (now : ℤ) :
    Carries env c ((restampGrantWindow env now card).toOption.getD card) := by
  unfold restampGrantWindow
  split_ifs with hneeds
  · cases hstamp : stamp env now card with
    | error e => exact h
    | ok stamped =>
      obtain ⟨c', hpayload, hproper, hsame⟩ := h
      have hread : card.payload? = .ok (.obj (writtenFields (claimFields c'))) := by
        rw [PendingRequest.payload?, hpayload, Option.getD_some, segmentJson_proper env hproper,
          asdict_eq, written_obj]
      rw [stamp, hread, ok_bind] at hstamp
      obtain ⟨payload, hset, hstamp⟩ := Except.bind_eq_ok.mp hstamp
      obtain rfl := Except.ok.inj hset
      obtain ⟨claims, hclaims, hstamp⟩ := Except.bind_eq_ok.mp hstamp
      obtain rfl := Except.pure_eq_ok.mp hstamp
      obtain rfl := dictToClaims_windowed hclaims
      exact ⟨_, rfl, proper_rewritten now _ hproper, fun k hk => (lookup_rewritten hk).trans (hsame k hk)⟩
  · exact h

theorem Carries.openings (h : Carries env c card) (times : List ℤ) :
    Carries env c (afterOpenings env card times) := by
  induction times generalizing card with
  | nil => exact h
  | cons now times ih => exact ih (h.restamp now)

/-- What is queued passed its checks. -/
theorem handleCapabilityRequest_eq_ok {printable : Char → Bool}
    {admitAct : CapabilityClaims → Except CardRefusal Unit} {body : Json} {draft : PendingRequest}
    (h : handleCapabilityRequest env printable policy admitAct body draft = .ok card) :
    ∃ claimsRaw claims, (field body "claims").getD .null = claimsRaw ∧
      dictToClaims claimsRaw = .ok claims ∧
      Grants.reservedResetJti (Json.pyStr printable claims.jti) = false ∧
      checkActions policy claims.cap = .ok () ∧ checkAudience policy claimsRaw = .ok () ∧
      card.capPayloadB64 = some (buildSigningInput env claims).2.2 := by
  obtain ⟨-, -, h⟩ := Except.bind_eq_ok.mp h
  obtain ⟨grantTtl, -, h⟩ := Except.bind_eq_ok.mp h
  obtain ⟨claims, hclaims, h⟩ := Except.bind_eq_ok.mp h
  obtain ⟨⟨⟩, hjti, h⟩ := Except.bind_eq_ok.mp h
  obtain ⟨-, -, h⟩ := Except.bind_eq_ok.mp h
  obtain ⟨⟨⟩, hactions, h⟩ := Except.bind_eq_ok.mp h
  obtain ⟨⟨⟩, haudience, h⟩ := Except.bind_eq_ok.mp h
  obtain rfl := Except.pure_eq_ok.mp h
  have hread : dictToClaims ((field body "claims").getD .null) = .ok claims := by
    rw [readClaims] at hclaims
    cases hd : dictToClaims ((field body "claims").getD .null) with
    | ok c =>
      rw [hd] at hclaims
      exact congrArg Except.ok (Except.ok.inj hclaims)
    | error e =>
      rw [hd] at hclaims
      cases hclaims
  exact ⟨_, claims, rfl, hread, ensure_eq_ok.mp hjti, hactions, haudience, rfl⟩

end

/-- A body as `json.loads` gives it. -/
abbrev RequestBody := { body : Json // Json.Proper body }

theorem proper_claims (body : RequestBody) : Json.Proper ((field body.1 "claims").getD .null) := by
  obtain ⟨body, hbody⟩ := body
  cases body with
  | obj fields => exact proper_getD hbody.2 trivial
  | _ => trivial

/-- The payload the phone is asked to sign keeps to the agent's policy when the card is queued and
after any openings of it, which leave every claim but the window as it was. -/
theorem policy_holds_on_signed (env : TokenPrimitives) (printable : Char → Bool)
    (policy : CardPolicy) (admitAct : CapabilityClaims → Except CardRefusal Unit)
    (body : RequestBody) (draft card : PendingRequest)
    (h : handleCapabilityRequest env printable policy admitAct body.1 draft = .ok card)
    (times : List ℤ) :
    ∃ queued opened, card.payload? = .ok (.obj queued) ∧ WithinPolicy policy queued ∧
      (afterOpenings env card times).payload? = .ok (.obj opened) ∧ WithinPolicy policy opened ∧
      ∀ k ∉ windowClaims, opened.lookup k = queued.lookup k := by
  obtain ⟨claimsRaw, claims, rfl, hclaims, hjti, hactions, haudience, hpayload⟩ :=
    handleCapabilityRequest_eq_ok h
  have hproper := proper_dictToClaims (proper_claims body) hclaims
  have hcarries : Carries env claims card := ⟨claims, hpayload, hproper, fun _ _ => rfl⟩
  have hwithin : WithinPolicy policy (writtenFields (claimFields claims)) := by
    refine ⟨checked_actions hactions, checked_audience hclaims haudience, fun s hs => ?_⟩
    by_cases hnull : claims.jti = .null
    · have habsent : (writtenFields (claimFields claims)).lookup "jti" = none := by
        rw [lookup_writtenFields (nodup_claimFields claims)]
        change Option.bind (some claims.jti) _ = none
        rw [hnull]
        rfl
      rw [habsent] at hs
      cases hs
    · rw [lookup_payload rfl hnull] at hs
      have hstr : claims.jti = .str s := written_eq_str.mp (Option.some.inj hs)
      rwa [hstr, Json.pyStr_str] at hjti
  obtain ⟨queued, hqueued, hsame⟩ := hcarries.payload
  obtain ⟨opened, hopened, hsame'⟩ := (hcarries.openings times).payload
  exact ⟨queued, opened, hqueued, hwithin.congr hsame, hopened, hwithin.congr hsame',
    fun k hk => (hsame' k hk).trans (hsame k hk).symm⟩

/-- Claims over one group and one action of its own. -/
def sampleClaims : CapabilityClaims where
  iss := .str "operator"
  sub := .str "console"
  aud := [.str "boot-1"]
  iat := 1760000000
  nbf := 1760000000
  exp := 1760000200
  jti := .str "jti-1"
  cap :=
    { tier := .int 1
      registryVersion := .str "v1"
      groups := [.str "docs"]
      scope :=
        { env := [], services := [], repos := [], createForOwner := .null, chatRoomId := .null,
          targetUserId := .null, pairingCode := .null, payloadSha256 := .null }
      allowActions := [.str "doc:read"]
      denyActions := []
      limits := { perHour := [], perDay := [], perSession := [] } }
  purpose := .str "edit"
  parentCap := .null
  maxUses := .null
  parentProfile := .null

theorem sampleClaims_declared : sampleClaims.Declared := by
  constructor <;> simp [sampleClaims, IsText, IsTextOrNone, IsNumber, isNumberMap_iff]

/-- A request of these claims for five minutes. -/
def sampleBody : RequestBody :=
  ⟨.obj [("claims", sampleClaims.asdict), ("grant_ttl_seconds", .int 300)],
    by decide, sampleClaims_declared.proper, trivial, trivial⟩

def samplePolicy : CardPolicy where
  requestable := some ["doc:read", "doc:edit"]
  audiences := some ["boot-1"]
  manifest := some
    { version := "v1"
      actions := ["doc:read", "doc:edit"]
      groups := Dict.set ∅ "docs" ["doc:edit"] }

/-- The bytes that are signed for the claims. -/
def sampleInput (claims : CapabilityClaims) : Bytes :=
  signingInput (b64uChars (canonicalJson jwsHeader)) (b64uChars (canonicalJson (claimsToDict claims)))

/-- SHA-256 of the claims as they are queued and as they are stamped. -/
def sampleEnv : TokenPrimitives where
  sha256 raw :=
    if raw = sampleInput sampleClaims then
      (fromHex "7507f32af1c80c95a101985909ce401b913e396716592c52ba22628cbf8658fc").getD []
    else if raw = sampleInput (windowFrom 1760000300 300 sampleClaims) then
      (fromHex "0ad705d7362741080950da8dc956cb502b1ee6460bbc913e42f7f98200bbb3ed").getD []
    else []
  recoverPublicKey _ _ := none

def sampleDraft : PendingRequest where
  requestId := "req-1"
  kind := "capability_request"
  secret := "capability"
  phoneId := "phone-1"
  payloadHashB64u := ""
  requestedAtUnix := 1760000000
  expiresAtUnix := 1760003600
  capHeaderB64 := none
  capPayloadB64 := none
  capGrantTtlSeconds := none
  capWindowStampedAtUnix := none
  rest := []

def sampleQueued : PendingRequest :=
  newCapabilityCard sampleEnv sampleClaims { sampleDraft with capGrantTtlSeconds := some 300 }

/-- The claims are read and checked, and nothing that is signed is evaluated. -/
theorem handle_sampleBody :
    handleCapabilityRequest sampleEnv (fun _ => true) samplePolicy (fun _ => .ok ()) sampleBody.1
      sampleDraft = .ok sampleQueued := by
  have hdict : isDict sampleClaims.asdict = true := rfl
  have hclaims : readClaims sampleClaims.asdict = .ok sampleClaims := by decide +kernel
  have hjti : Grants.reservedResetJti (Json.pyStr (fun _ => true) sampleClaims.jti) = false := by
    decide +kernel
  have hactions : checkActions samplePolicy sampleClaims.cap = .ok () := by decide +kernel
  have haudience : checkAudience samplePolicy sampleClaims.asdict = .ok () := by decide +kernel
  have hfield : (field sampleBody.1 "claims").getD .null = sampleClaims.asdict := rfl
  have httl : readGrantTtl ((field sampleBody.1 "grant_ttl_seconds").getD .null) = .ok (some 300) :=
    rfl
  rw [handleCapabilityRequest, hfield, httl, hclaims]
  simp only [Except.bind_eq_ok, ensure_eq_ok]
  exact ⟨(), hdict, _, rfl, _, rfl, (), hjti, (), trivial, (), hactions, (), haudience, rfl⟩

theorem policy_holds_on_signed_sample :
    ∃ queued opened, sampleQueued.payload? = .ok (.obj queued) ∧
      WithinPolicy samplePolicy queued ∧
      (afterOpenings sampleEnv sampleQueued [1760000300, 1760000400]).payload? =
        .ok (.obj opened) ∧ WithinPolicy samplePolicy opened ∧
      ∀ k ∉ windowClaims, opened.lookup k = queued.lookup k :=
  policy_holds_on_signed sampleEnv (fun _ => true) samplePolicy (fun _ => .ok ()) sampleBody
    sampleDraft sampleQueued handle_sampleBody [1760000300, 1760000400]

end Pending
end Recto
