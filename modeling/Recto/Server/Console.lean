import Recto.Server.DigestDomains
import Recto.Text.Handles

/-!
# The host's console

The host's side of the top plane. Every verb reads the public chain and replays
it, computes what the passphrase signs itself, shows it to the operator, and posts
the signature. What the other side answers is anything at all. The bootloader acts
on the passphrase only for what the operator was shown, and it opens what the
console posts.
-/

namespace Recto
namespace Console

open Genesis Server

/-! ## What the other side answers -/

/-- `GET /v0.4/genesis/chain` -/
structure ServedChain where
  records : List Record
  bootloaderId : Option String
  operatorPubkeyHex : Option String
  identityMembersHex : List String
  supportsGenesisChain : Bool

/-- A slot entry as `GET /v0.4/owner/enroll/pending` lists it. -/
structure ServedEnroll where
  requestId : String
  slot : String
  incomingRef : String
  occupantRef : Option String
  draft : Draft

/-- A reset as `GET /v0.4/owner/reset` shows it. -/
structure ServedReset where
  state : String
  intent : Intent
  slot : String
  challenge : Option String
  /-- The key and the algorithm of the fresh phone. -/
  fresh : Option (String × String)
  committed : Bool

/-- Whatever is answered; `none` for a status that is not 200. -/
structure Answers where
  chain : Option ServedChain
  enrolls : Option (List ServedEnroll)
  reset : String → Option ServedReset

/-! ## What a verb is given -/

inductive Verb where
  | sealId
  | addDevice (slot : OwnerSlot) (publicKey algorithm : String)
  | removeDevice (slot : OwnerSlot)
  | rotateOperator (pubkeyHex : String)
  | approveEnroll (request : Option String)
  | resetStart (slot : Option OwnerSlot) (everyOwnerLost : Bool) (confirm : String)
      (windowSeconds : ℤ)
  | resetArm (intentId : String) (slot : Option OwnerSlot)
  | resetAbort (intentId : String)
  | resetComplete (intentId : String)

/-- The random texts and the clock of the host. -/
structure Drawn where
  /-- `secrets.token_hex(16)` -/
  nonce : String
  /-- `secrets.token_hex(8)` -/
  token : String
  now : ℤ

/-- Why a verb ends with nothing signed; a text is kept as the data it names. -/
inductive Quit where
  | chainNotReturned
  | chainRefused (e : ChainError)
  | noGenesisChain
  | noPassphrase
  | alreadySealed (id : String)
  | idNotDerived (id : String)
  | noOperatorKey
  | notSealed (kind : String)
  | operatorNotHex
  | operatorNotAPoint
  | enrollsNotReturned
  | openEnrolls (count : ℕ)
  | draftNotAsListed
  | unsealed
  | noSlotNamed
  | notWaiting
  /-- An exception that no verb catches. -/
  | raised
  deriving DecidableEq, Repr

/-! ## What is signed -/

inductive Signed where
  | act (draft : Draft) (sealedId : Option String)
  | resetIntent (intent : Intent)
  | resetArm (arm : Arm)
  | resetAbort (abort : Abort)
  deriving DecidableEq

/-- What the console shows before it signs, and what it posts. -/
structure Leg where
  signed : Signed
  lines : List String
  post : String → Request

inductive Plan where
  | sign (leg : Leg)
  /-- Nothing is left to sign. -/
  | post (r : Request)

variable (env : Host)

/-- The bytes under the message. -/
def Signed.bytes : Signed → Bytes
  | .act draft sealedId => signingBytes draft.seq draft.op draft.kind draft.value draft.algorithm
      draft.prev draft.metaText sealedId
  | .resetIntent intent => utf8 "recto-owner-reset-intent-v1|" ++ utf8 (canonicalMeta intent.toJson)
  | .resetArm arm => utf8 "recto-owner-reset-arm-v1|" ++ utf8 (canonicalMeta
      (.obj [("intent_id", .str arm.intentId), ("slot", .str arm.slot), ("nonce", .str arm.nonce),
        ("not_after", .int arm.notAfter)]))
  | .resetAbort abort => utf8 "recto-owner-reset-abort-v1|" ++ utf8 (canonicalMeta
      (.obj [("intent_id", .str abort.intentId), ("nonce", .str abort.nonce),
        ("not_after", .int abort.notAfter)]))

/-- The message the passphrase signs. -/
def Signed.message : Signed → Bytes
  | .act draft sealedId => actMessage env.toPrimitives draft.seq draft.op draft.kind draft.value
      draft.algorithm draft.prev draft.metaText sealedId
  | .resetIntent intent => resetIntentDigest env intent
  | .resetArm arm => resetArmDigest env arm
  | .resetAbort abort => resetAbortDigest env abort

/-! ## The lines -/

/-- `_ref` -/
def ref (raw : Bytes) : String :=
  "pk_" ++ String.ofList ((chars (hex (env.sha256 raw))).take 16)

/-- `', '.join(names) or 'none'` -/
def joined (names : List String) : String :=
  let text := ", ".intercalate names
  if text = "" then "none" else text

def sealLine (id : String) : String := s!"SEAL the bootloader id: {id}"

def seatLine (draft : Draft) : String :=
  s!"SEAT {ref env draft.value} as the {draft.kind} device member ({draft.algorithm})"

def removeLine (draft : Draft) : String :=
  s!"REMOVE {ref env draft.value}, the sealed {draft.kind}, and revoke its phone"

def rotateLine (draft : Draft) : String := s!"ROTATE the operator key to {hex draft.value}"

def approveLine (draft : Draft) (slot : OwnerSlot) : String :=
  s!"SEAT {ref env draft.value} in the {slot.name} slot (as {draft.kind})"

def startLine (intent : Intent) : String :=
  "START an owner reset of slot(s) " ++ ", ".intercalate (intent.slots.map OwnerSlot.name)

def lostLine (intent : Intent) : String := s!"phones named lost: {joined intent.lost}"

def armLine (arm : Arm) : String := s!"ARM owner reset {arm.intentId} for the {arm.slot} slot"

def abortLine (abort : Abort) : String := s!"ABORT owner reset {abort.intentId}"

def completeLine (intent : Intent) (draft : Draft) (slot : OwnerSlot) : String :=
  s!"COMPLETE owner reset {intent.intentId}: seat {ref env draft.value} in the {slot.name} slot"

def seqLine (draft : Draft) : String := s!"chain entry: seq {draft.seq}"

/-- The line that states what is signed. -/
inductive States : Signed → String → Prop
  | sealId (draft : Draft) (sealedId : Option String) (hop : draft.op = Op.sealId.name) :
      States (.act draft sealedId) (sealLine (decodeReplace draft.value))
  | seat (draft : Draft) (sealedId : Option String) (hop : draft.op = Op.add.name) :
      States (.act draft sealedId) (seatLine env draft)
  | approve (draft : Draft) (sealedId : Option String) (slot : OwnerSlot)
      (hop : draft.op = Op.add.name) (hkind : draft.kind = slot.kind) :
      States (.act draft sealedId) (approveLine env draft slot)
  | remove (draft : Draft) (sealedId : Option String) (hop : draft.op = Op.remove.name) :
      States (.act draft sealedId) (removeLine env draft)
  | rotate (draft : Draft) (sealedId : Option String) (hop : draft.op = Op.rotateOperator.name) :
      States (.act draft sealedId) (rotateLine draft)
  | complete (draft : Draft) (sealedId : Option String) (intent : Intent) (slot : OwnerSlot)
      (challenge : Option String) (hop : draft.op = Op.reset.name) (hkind : draft.kind = slot.kind)
      (hmeta : draft.metaText = some (resetMeta intent slot challenge)) :
      States (.act draft sealedId) (completeLine env intent draft slot)
  | start (intent : Intent) : States (.resetIntent intent) (startLine intent)
  | arm (arm : Arm) : States (.resetArm arm) (armLine arm)
  | abort (abort : Abort) : States (.resetAbort abort) (abortLine abort)

/-! ## The chain as this process replayed it -/

/-- `_Chain` -/
structure ReplayedChain where
  state : ChainState
  served : ServedChain
  passphrase : ChainEntry

def readChain (answers : Answers) : Except Quit ReplayedChain :=
  match answers.chain with
  | none => .error .chainNotReturned
  | some served =>
      match entriesFromRecords env.toPrimitives served.records >>=
        replayState env.toPrimitives with
      | .error (.chain e) => .error (.chainRefused e)
      | .error (.python _) => .error .raised
      | .ok state =>
          if served.supportsGenesisChain then
            match state.members.get? passphraseKind with
            | none => .error .noPassphrase
            | some member => .ok ⟨state, served, member⟩
          else .error .noGenesisChain

namespace ReplayedChain

variable (chain : ReplayedChain)

/-- An act drafted on the tip that was replayed. -/
def draftOn (op kind : String) (value : Bytes) (algorithm metaText : String) : Draft where
  op := op
  kind := kind
  value := value
  algorithm := algorithm
  seq := chain.state.length
  prev := chain.state.tipHash
  metaText := some metaText

/-- `_Chain.message`: what an act is signed over. -/
def signed (draft : Draft) : Signed :=
  .act draft
    (if draft.op = Op.sealId.name then some (decodeReplace draft.value) else chain.state.sealedId)

/-- The leg of an act that is opened. -/
def opens (draft : Draft) (lines : List String) : Leg := ⟨chain.signed draft, lines, .openAct draft⟩

end ReplayedChain

/-! ## The verbs -/

/-- `_fresh` -/
def freshFields (drawn : Drawn) : List (String × Json) :=
  [("nonce", .str drawn.nonce), ("not_after", .int (drawn.now + 600))]

/-- `_fresh_meta` -/
def freshMeta (drawn : Drawn) (extra : List (String × Json)) : String :=
  canonicalMeta (.obj (freshFields drawn ++ extra))

/-- `sha256(raw).hexdigest()[:32]` -/
def fingerprint (raw : Bytes) : String := String.ofList ((chars (hex (env.sha256 raw))).take 32)

def quitOf {α : Type} : Option α → Except Quit α
  | none => .error .raised
  | some a => .ok a

/-- What a seal records beside the freshness of the act. -/
def sealMeta (opHex : String) (members : List String) : List (String × Json) :=
  [("operator_pubkey", .str opHex), ("identity_members", .arr (members.map .str))]

def sealId (chain : ReplayedChain) (drawn : Drawn) : Except Quit Leg := do
  let id := chain.served.bootloaderId.getD ""
  let opHex := chain.served.operatorPubkeyHex.getD ""
  let members := chain.served.identityMembersHex
  match chain.state.sealedId with
  | some sealedId => .error (.alreadySealed sealedId)
  | none =>
      ensure (startsWith id "rb1-" = true) (.idNotDerived id)
      ensure ((chars opHex).length = 128) .noOperatorKey
      let value ← quitOf (encodeAscii id).toOption
      let key ← quitOf (fromHex opHex)
      let draft := chain.draftOn "seal-id" "bootloader-id" value "none"
        (freshMeta drawn (sealMeta opHex members))
      pure (chain.opens draft
        [sealLine id, s!"with the operator key: {opHex}",
          s!"and the identity members it was derived with: {joined members}",
          s!"its fingerprint (sha256): {fingerprint env key}",
          seqLine draft ++ ", after " ++ draft.prev.getD "None",
          "then a sealed device signs the same act on its card"])

def addDevice (chain : ReplayedChain) (drawn : Drawn) (slot : OwnerSlot)
    (publicKey algorithm : String) : Except Quit Leg := do
  let raw ← quitOf (unb64u publicKey)
  let draft := chain.draftOn "add" slot.kind raw algorithm (freshMeta drawn [])
  let replaces := match chain.state.members.get? slot.kind with
    | some old => s!"it REPLACES the sealed {slot.kind} {ref env old.pubkey}"
    | none => s!"no {slot.kind} is sealed yet"
  pure (chain.opens draft
    [seatLine env draft, replaces, seqLine draft,
      "compare the ref with the phone's own Pairing Details; the bootloader refuses a key that " ++
        s!"is not a registered owner phone in the {slot.name} slot"])

def removeDevice (chain : ReplayedChain) (drawn : Drawn) (slot : OwnerSlot) : Except Quit Leg :=
  match chain.state.members.get? slot.kind with
  | none => .error (.notSealed slot.kind)
  | some member =>
      let draft := chain.draftOn "remove" slot.kind member.pubkey member.algorithm
        (freshMeta drawn [])
      .ok (chain.opens draft
        [removeLine env draft, seqLine draft,
          "another sealed device approves the card; the last device can never be removed (the " ++
            "reset is its path)"])

/-- `s.removeprefix(start)` -/
def removePrefix (start s : String) : String :=
  if startsWith s start then String.ofList ((chars s).drop (chars start).length) else s

/-- The operator key an argument names. -/
def readOperatorKey (pubkeyHex : String) : Option Bytes :=
  let text := strip pubkeyHex
  fromHex (if (chars text).length = 130 then removePrefix "04" (removePrefix "0x" (lower text))
    else text)

def rotateOperator (chain : ReplayedChain) (drawn : Drawn) (pubkeyHex : String) :
    Except Quit Leg :=
  match readOperatorKey pubkeyHex with
  | none => .error .operatorNotHex
  | some value => do
      ensure (value.length = 64 ∧ env.onSecp256k1 value = true) .operatorNotAPoint
      let draft := chain.draftOn "rotate-operator" "operator" value "none" (freshMeta drawn [])
      pure (chain.opens draft
        [rotateLine draft,
          s!"its fingerprint (sha256): {fingerprint env value} - compare it with the key's owner",
          seqLine draft,
          "every capability signed by the OLD key stops verifying once a device signs"])

/-- `_not_after` -/
def notAfter (draft : Draft) : Except Quit String :=
  let read : Except PyError ℤ := do
    let fields ← Json.loads (draft.metaText.getD "")
    let deadline ← fields.getItem "not_after"
    deadline.toInt
  match read with
  | .ok deadline => .ok (toString deadline)
  | .error e =>
      if e ∈ [PyError.valueError, .keyError, .typeError] then
        .ok "(none - the bootloader will refuse it)"
      else .error .raised

/-- The draft describes the slot entry it is listed as. -/
def AsListed (p : ServedEnroll) : Prop :=
  ref env p.draft.value = p.incomingRef ∧
    (OwnerSlot.ofName? p.slot).map OwnerSlot.kind = some p.draft.kind ∧ p.draft.op = Op.add.name

instance (p : ServedEnroll) : Decidable (AsListed env p) :=
  inferInstanceAs (Decidable (_ ∧ _))

def approveEnroll (chain : ReplayedChain) (enrolls : Option (List ServedEnroll))
    (request : Option String) : Except Quit Leg := do
  match enrolls with
  | none => .error .enrollsNotReturned
  | some listed =>
      let pending := listed.filter fun p => request.getD "" = "" ∨ some p.requestId = request
      match pending with
      | [p] =>
          ensure (AsListed env p) .draftNotAsListed
          let slot ← quitOf (OwnerSlot.ofName? p.slot)
          let deadline ← notAfter p.draft
          pure ⟨chain.signed p.draft,
            [approveLine env p.draft slot, "it replaces " ++ (orNone p.occupantRef).getD "nobody",
              seqLine p.draft, s!"signable until unix {deadline}",
              "compare the ref with the NEW phone in your hand"], .signEnroll p.requestId⟩
      | _ => .error (.openEnrolls pending.length)

/-- `new_intent` -/
def newIntent (bootloaderId : String) (slots : List OwnerSlot) (lost : List String)
    (windowSeconds : ℤ) (drawn : Drawn) : Intent where
  intentId := "reset-" ++ drawn.token
  bootloaderId := bootloaderId
  slots := slots.insertionSort fun a b => a.name ≤ b.name
  lost := lost.insertionSort (· ≤ ·)
  notBefore := drawn.now + windowSeconds
  startedAt := drawn.now

/-- The refs a `--confirm` names. -/
def confirmed (confirm : String) : List String :=
  (((chars confirm).splitOn ',').map fun cs => strip (String.ofList cs)).filter (· ≠ "")

def resetStart (chain : ReplayedChain) (drawn : Drawn) (slot : Option OwnerSlot)
    (everyOwnerLost : Bool) (confirm : String) (windowSeconds : ℤ) : Except Quit Leg :=
  match chain.state.sealedId with
  | none => .error .unsealed
  | some sealedId => do
      let slots := if everyOwnerLost then [.primary, .recovery] else slot.toList
      ensure (slots ≠ []) .noSlotNamed
      let lost := confirmed confirm
      let intent := newIntent sealedId slots lost windowSeconds drawn
      pure ⟨.resetIntent intent,
        [startLine intent, s!"phones named lost: {joined lost}",
          s!"it completes no sooner than unix {intent.notBefore} ({windowSeconds / 3600} h)",
          "EVERY registered owner phone is carded and may cancel it"], .startReset intent⟩

def resetArm (drawn : Drawn) (intentId : String) (slot : Option OwnerSlot) : Except Quit Leg :=
  match slot with
  | none => .error .noSlotNamed
  | some slot =>
      let arm : Arm := ⟨intentId, slot.name, drawn.nonce, drawn.now + 600⟩
      .ok ⟨.resetArm arm, [armLine arm, "a one-time code (10 minutes) for the fresh phone"],
        .armReset arm⟩

def resetAbort (drawn : Drawn) (intentId : String) : Leg :=
  let abort : Abort := ⟨intentId, drawn.nonce, drawn.now + 600⟩
  ⟨.resetAbort abort, [abortLine abort,
    "its cards are withdrawn; it never completes; a new reset may start"], .abortReset abort⟩

/-- The reset entry that a completion signs. -/
def completion (chain : ReplayedChain) (intentId : String) (shown : ServedReset)
    (fresh : String × String) : Except Quit Leg := do
  let raw ← quitOf (unb64u fresh.1)
  let slot ← quitOf (OwnerSlot.ofName? shown.slot)
  let draft := chain.draftOn "reset" slot.kind raw fresh.2
    (resetMeta shown.intent slot shown.challenge)
  pure ⟨chain.signed draft,
    [completeLine env shown.intent draft slot,
      s!"phones named lost: {joined shown.intent.lost} (the slot's phones are removed)",
      seqLine draft, "compare the ref with the FRESH phone in your hand"],
    .completeReset intentId⟩

def resetComplete (chain : ReplayedChain) (shown : Option ServedReset) (intentId : String) :
    Except Quit Plan :=
  match shown with
  | none => .error .notWaiting
  | some shown =>
      match shown.fresh with
      | none => .error .notWaiting
      | some fresh => do
          ensure (shown.state = "registered") .notWaiting
          if shown.committed then pure (.post (.completeReset intentId ""))
          else .sign <$> completion env chain intentId shown fresh

/-- One run of a verb. -/
structure Invocation where
  verb : Verb
  answers : Answers
  drawn : Drawn

def Invocation.plan (inv : Invocation) : Except Quit Plan := do
  let chain ← readChain env inv.answers
  match inv.verb with
  | .sealId => .sign <$> sealId env chain inv.drawn
  | .addDevice slot publicKey algorithm =>
      .sign <$> addDevice env chain inv.drawn slot publicKey algorithm
  | .removeDevice slot => .sign <$> removeDevice env chain inv.drawn slot
  | .rotateOperator pubkeyHex => .sign <$> rotateOperator env chain inv.drawn pubkeyHex
  | .approveEnroll request => .sign <$> approveEnroll env chain inv.answers.enrolls request
  | .resetStart slot everyOwnerLost confirm windowSeconds =>
      .sign <$> resetStart chain inv.drawn slot everyOwnerLost confirm windowSeconds
  | .resetArm intentId slot => .sign <$> resetArm inv.drawn intentId slot
  | .resetAbort intentId => pure (.sign (resetAbort inv.drawn intentId))
  | .resetComplete intentId => resetComplete env chain (inv.answers.reset intentId) intentId

/-- What the passphrase signed in some runs of the verbs, each shown to the operator before. -/
def legs (log : List Invocation) : List Leg :=
  log.filterMap fun inv =>
    match inv.plan env with
    | .ok (.sign leg) => some leg
    | _ => none

/-! ## Every verb shows what it signs -/

theorem decodeReplace_of_encodeAscii {id : String} {value : Bytes}
    (h : encodeAscii id = .ok value) : decodeReplace value = id := by
  unfold encodeAscii at h
  split_ifs at h with hascii
  obtain rfl := Except.ok.inj h
  have hchars : ∀ cs : List Char, (cs.all fun c => c.toNat < 128) = true →
      (cs.map fun c => UInt8.ofNat c.toNat).map
        (fun b => if b.toNat < 128 then Char.ofNat b.toNat else Char.ofNat 65533) = cs := by
    intro cs hcs
    induction cs with
    | nil => rfl
    | cons c cs ih =>
      rw [List.all_cons, Bool.and_eq_true, decide_eq_true_eq] at hcs
      have hbyte : (UInt8.ofNat c.toNat).toNat = c.toNat := by
        rw [UInt8.toNat_ofNat', Nat.mod_eq_of_lt (by omega)]
      rw [List.map_cons, List.map_cons, ih hcs.2, hbyte, if_pos hcs.1, Char.ofNat_toNat]
  rw [decodeReplace, hchars _ hascii]
  rw [chars_eq_toList, String.ofList_toList]

theorem quitOf_eq_ok {α : Type} {x : Option α} {a : α} : quitOf x = .ok a ↔ x = some a := by
  cases x <;> simp [quitOf]

variable {env} {chain : ReplayedChain} {drawn : Drawn} {leg : Leg}

theorem sealId_states (h : sealId env chain drawn = .ok leg) :
    ∃ line ∈ leg.lines, States env leg.signed line := by
  unfold sealId at h
  dsimp only at h
  split at h
  · cases h
  · simp only [Except.bind_eq_ok, ensure_eq_ok, Except.pure_eq_ok, quitOf_eq_ok] at h
    obtain ⟨_, -, _, -, value, hvalue, _, -, rfl⟩ := h
    refine ⟨_, List.mem_cons_self, ?_⟩
    have hid : decodeReplace value = chain.served.bootloaderId.getD "" := by
      refine decodeReplace_of_encodeAscii ?_
      cases hencode : encodeAscii (chain.served.bootloaderId.getD "") with
      | error e => simp [hencode, Except.toOption] at hvalue
      | ok raw => simpa [hencode, Except.toOption] using hvalue
    rw [← hid]
    exact .sealId (chain.draftOn _ _ value _ _) _ rfl

theorem addDevice_states {slot : OwnerSlot} {publicKey algorithm : String}
    (h : addDevice env chain drawn slot publicKey algorithm = .ok leg) :
    ∃ line ∈ leg.lines, States env leg.signed line := by
  simp only [addDevice, Except.bind_eq_ok, Except.pure_eq_ok] at h
  obtain ⟨raw, -, rfl⟩ := h
  exact ⟨_, List.mem_cons_self, .seat _ _ rfl⟩

theorem removeDevice_states {slot : OwnerSlot} (h : removeDevice env chain drawn slot = .ok leg) :
    ∃ line ∈ leg.lines, States env leg.signed line := by
  unfold removeDevice at h
  split at h
  · cases h
  · obtain rfl := Except.ok.inj h
    exact ⟨_, List.mem_cons_self, .remove _ _ rfl⟩

theorem rotateOperator_states {pubkeyHex : String}
    (h : rotateOperator env chain drawn pubkeyHex = .ok leg) :
    ∃ line ∈ leg.lines, States env leg.signed line := by
  unfold rotateOperator at h
  split at h
  · cases h
  · simp only [Except.bind_eq_ok, Except.pure_eq_ok] at h
    obtain ⟨_, -, rfl⟩ := h
    exact ⟨_, List.mem_cons_self, .rotate _ _ rfl⟩

theorem approveEnroll_states {enrolls : Option (List ServedEnroll)} {request : Option String}
    (h : approveEnroll env chain enrolls request = .ok leg) :
    ∃ line ∈ leg.lines, States env leg.signed line := by
  unfold approveEnroll at h
  split at h
  · cases h
  · dsimp only at h
    split at h
    · rename_i p _
      simp only [Except.bind_eq_ok, ensure_eq_ok, Except.pure_eq_ok, quitOf_eq_ok] at h
      obtain ⟨_, ⟨-, hkind, hop⟩, slot, hslot, _, -, rfl⟩ := h
      refine ⟨_, List.mem_cons_self, .approve _ _ slot hop ?_⟩
      rw [hslot] at hkind
      exact (Option.some.inj hkind).symm
    · cases h

theorem resetStart_states {slot : Option OwnerSlot} {everyOwnerLost : Bool} {confirm : String}
    {windowSeconds : ℤ}
    (h : resetStart chain drawn slot everyOwnerLost confirm windowSeconds = .ok leg) :
    ∃ line ∈ leg.lines, States env leg.signed line := by
  unfold resetStart at h
  split at h
  · cases h
  · simp only [Except.bind_eq_ok, Except.pure_eq_ok] at h
    obtain ⟨_, -, rfl⟩ := h
    exact ⟨_, List.mem_cons_self, .start _⟩

theorem resetArm_states {intentId : String} {slot : Option OwnerSlot}
    (h : resetArm drawn intentId slot = .ok leg) :
    ∃ line ∈ leg.lines, States env leg.signed line := by
  unfold resetArm at h
  split at h
  · cases h
  · obtain rfl := Except.ok.inj h
    exact ⟨_, List.mem_cons_self, .arm _⟩

theorem completion_states {intentId : String} {shown : ServedReset} {fresh : String × String}
    (h : completion env chain intentId shown fresh = .ok leg) :
    ∃ line ∈ leg.lines, States env leg.signed line := by
  simp only [completion, Except.bind_eq_ok, Except.pure_eq_ok] at h
  obtain ⟨raw, -, slot, -, rfl⟩ := h
  exact ⟨_, List.mem_cons_self,
    .complete _ _ shown.intent slot shown.challenge rfl rfl rfl⟩

theorem sign_eq_ok {x : Except Quit Leg} (h : Plan.sign <$> x = .ok (.sign leg)) : x = .ok leg := by
  cases x with
  | error e => cases h
  | ok l =>
    obtain rfl := Plan.sign.inj (Except.ok.inj h)
    rfl

theorem plan_states {inv : Invocation} (h : inv.plan env = .ok (.sign leg)) :
    ∃ line ∈ leg.lines, States env leg.signed line := by
  unfold Invocation.plan at h
  obtain ⟨chain, -, h⟩ := Except.bind_eq_ok.mp h
  split at h
  · exact sealId_states (sign_eq_ok h)
  · exact addDevice_states (sign_eq_ok h)
  · exact removeDevice_states (sign_eq_ok h)
  · exact rotateOperator_states (sign_eq_ok h)
  · exact approveEnroll_states (sign_eq_ok h)
  · exact resetStart_states (sign_eq_ok h)
  · exact resetArm_states (sign_eq_ok h)
  · obtain rfl := Plan.sign.inj (Except.ok.inj h)
    exact ⟨_, List.mem_cons_self, .abort _⟩
  · unfold resetComplete at h
    split at h
    · cases h
    · split at h
      · cases h
      · obtain ⟨_, -, h⟩ := Except.bind_eq_ok.mp h
        split_ifs at h
        · cases h
        · exact completion_states (sign_eq_ok h)

theorem mem_legs {log : List Invocation} :
    leg ∈ legs env log ↔ ∃ inv ∈ log, inv.plan env = .ok (.sign leg) := by
  rw [legs, List.mem_filterMap]
  refine exists_congr fun inv => and_congr_right fun _ => ?_
  split
  · rename_i l h
    rw [h, Option.some.injEq, Except.ok.injEq, Plan.sign.injEq]
  · rename_i hne
    exact ⟨fun h => (by cases h), fun h => absurd h (hne leg)⟩

/-! ## What is signed is told apart -/

def Signed.family : Signed → Family
  | .act _ _ => .act
  | .resetIntent _ => .resetIntent
  | .resetArm _ => .resetArm
  | .resetAbort _ => .resetAbort

theorem Signed.start_prefix (x : Signed) : x.family.start <+: x.bytes := by
  cases x with
  | act draft sealedId => exact List.prefix_append _ _
  | resetIntent intent => exact List.prefix_append _ _
  | resetArm arm => exact List.prefix_append _ _
  | resetAbort abort => exact List.prefix_append _ _

theorem perm_of_canonicalMeta {fs gs : List (String × Json)} (hf : Json.Proper (.obj fs))
    (hg : Json.Proper (.obj gs)) (hcf : Json.canonFields fs = fs) (hcg : Json.canonFields gs = gs)
    (h : canonicalMeta (.obj fs) = canonicalMeta (.obj gs)) : fs.Perm gs := by
  have heq := Json.canon_eq_of_dumps_eq hf hg (String.ofList_injective h)
  rw [Json.canon, Json.canon, hcf, hcg] at heq
  exact (Json.sortFields_perm fs).symm.trans (Json.obj.inj heq ▸ Json.sortFields_perm gs)

/-- The fields of an intent's canonical object. -/
def intentFields (x : Intent) : List (String × Json) :=
  [("intent_id", .str x.intentId), ("bootloader_id", .str x.bootloaderId),
    ("slots", .arr (x.slots.map fun slot => .str slot.name)), ("lost", .arr (x.lost.map .str)),
    ("not_before", .int x.notBefore), ("started_at", .int x.startedAt)]

theorem intent_eq_of_text {a b : Intent} (h : canonicalMeta a.toJson = canonicalMeta b.toJson) :
    a = b := by
  have hcanon : ∀ x : Intent, Json.canonFields (intentFields x) = intentFields x := fun x => by
    have hslots := Json.canonElements_strs (x.slots.map OwnerSlot.name)
    rw [List.map_map] at hslots
    simp only [intentFields, Json.canonFields, Json.canon, Json.canonElements_strs]
    exact congrArg (fun slots => _ :: _ :: ("slots", Json.arr slots) :: _) hslots
  have hperm := perm_of_canonicalMeta (proper_intent a) (proper_intent b) (hcanon a) (hcanon b) h
  have hlookup := lookup_eq_of_perm hperm (proper_intent a).1
  have hid := Json.str.inj (Option.some.inj (hlookup "intent_id"))
  have hboot := Json.str.inj (Option.some.inj (hlookup "bootloader_id"))
  have hslots := Json.arr.inj (Option.some.inj (hlookup "slots"))
  have hlost := Json.arr.inj (Option.some.inj (hlookup "lost"))
  have hbefore := Json.int.inj (Option.some.inj (hlookup "not_before"))
  have hstarted := Json.int.inj (Option.some.inj (hlookup "started_at"))
  have hslots : a.slots = b.slots := List.map_injective_iff.mpr
    (fun x y hxy => OwnerSlot.name_injective (Json.str.inj hxy)) hslots
  have hlost : a.lost = b.lost := List.map_injective_iff.mpr (fun _ _ => Json.str.inj) hlost
  cases a
  cases b
  simp_all

theorem arm_eq_of_text {a b : Arm}
    (h : canonicalMeta (.obj [("intent_id", .str a.intentId), ("slot", .str a.slot),
        ("nonce", .str a.nonce), ("not_after", .int a.notAfter)]) =
      canonicalMeta (.obj [("intent_id", .str b.intentId), ("slot", .str b.slot),
        ("nonce", .str b.nonce), ("not_after", .int b.notAfter)])) : a = b := by
  have hproper : ∀ x : Arm, Json.Proper (.obj [("intent_id", .str x.intentId),
      ("slot", .str x.slot), ("nonce", .str x.nonce), ("not_after", .int x.notAfter)]) :=
    fun x => by simp [Json.Proper, Json.ProperFields]
  have hlookup := lookup_eq_of_perm (perm_of_canonicalMeta (hproper a) (hproper b) rfl rfl h)
    (hproper a).1
  have hid := Json.str.inj (Option.some.inj (hlookup "intent_id"))
  have hslot := Json.str.inj (Option.some.inj (hlookup "slot"))
  have hnonce := Json.str.inj (Option.some.inj (hlookup "nonce"))
  have hafter := Json.int.inj (Option.some.inj (hlookup "not_after"))
  cases a
  cases b
  simp_all

theorem abort_eq_of_text {a b : Abort}
    (h : canonicalMeta (.obj [("intent_id", .str a.intentId), ("nonce", .str a.nonce),
        ("not_after", .int a.notAfter)]) =
      canonicalMeta (.obj [("intent_id", .str b.intentId), ("nonce", .str b.nonce),
        ("not_after", .int b.notAfter)])) : a = b := by
  have hproper : ∀ x : Abort, Json.Proper (.obj [("intent_id", .str x.intentId),
      ("nonce", .str x.nonce), ("not_after", .int x.notAfter)]) := fun x => by
    simp [Json.Proper, Json.ProperFields]
  have hlookup := lookup_eq_of_perm (perm_of_canonicalMeta (hproper a) (hproper b) rfl rfl h)
    (hproper a).1
  have hid := Json.str.inj (Option.some.inj (hlookup "intent_id"))
  have hnonce := Json.str.inj (Option.some.inj (hlookup "nonce"))
  have hafter := Json.int.inj (Option.some.inj (hlookup "not_after"))
  cases a
  cases b
  simp_all

/-- The bytes under a message give back all that is signed. -/
theorem Signed.bytes_injective : Function.Injective Signed.bytes := by
  intro x y h
  have hfamily : x.family = y.family := by
    rcases List.prefix_or_prefix_of_prefix x.start_prefix (h ▸ y.start_prefix) with hxy | hyx
    · exact Family.start_prefixFree hxy
    · exact (Family.start_prefixFree hyx).symm
  cases x <;> cases y <;> try cases hfamily
  case act.act d sid d' sid' =>
    obtain ⟨hseq, hop, hkind, hvalue, halgorithm, hprev, hmeta, hsealed⟩ := signingBytes_injective h
    cases d
    cases d'
    simp_all
  case resetIntent.resetIntent a b =>
    exact congrArg resetIntent (intent_eq_of_text (utf8_injective (List.append_cancel_left h)))
  case resetArm.resetArm a b =>
    exact congrArg resetArm (arm_eq_of_text (utf8_injective (List.append_cancel_left h)))
  case resetAbort.resetAbort a b =>
    exact congrArg resetAbort (abort_eq_of_text (utf8_injective (List.append_cancel_left h)))

/-- Only an act before the seal is signed as it is. -/
theorem Signed.message_eq (env : Host) (x : Signed) :
    x.message env = env.sha256 x.bytes ∨
      ∃ draft, x = .act draft none ∧ x.message env = x.bytes := by
  cases x with
  | act draft sealedId =>
    cases sealedId with
    | none => exact .inr ⟨draft, rfl, rfl⟩
    | some id => exact .inl rfl
  | resetIntent intent => exact .inl rfl
  | resetArm arm => exact .inl rfl
  | resetAbort abort => exact .inl rfl

/-! ## What the bootloader asks the passphrase for -/

section

variable (env)

/-- The chain a request reads, where it can be read. -/
def chainOf (s : Store) : Option ChainState :=
  match chainState env s with
  | .ok cs => cs
  | .error _ => none

/-- The act on the tip, as the bootloader signs it. -/
def signedOn (cs : ChainState) (draft : Draft) : Signed :=
  .act draft (if draft.op = Op.sealId.name then some (decodeReplace draft.value) else cs.sealedId)

/-- The reset entry of a registered reset. -/
def resetAct (cs : ChainState) (r : ResetRecord) : Option Signed := do
  let fresh ← r.fresh
  let slot ← r.slot
  let value ← unb64u fresh.publicKey
  some (signedOn cs (resetDraft cs r fresh slot value))

/-- What the passphrase must have signed for the request to be answered; none where it asks for no
signature. -/
def asked (s : Store) : Request → Option Signed
  | .openAct draft _ => (chainOf env s).map fun cs => signedOn cs draft
  | .signEnroll requestId _ => do
      let cs ← chainOf env s
      let r ← s.listOwnerEnrolls.find? fun r => r.requestId = requestId ∧ r.topPlane ≠ none
      let act ← r.topPlane
      some (signedOn cs act.draft)
  | .startReset intent _ => some (.resetIntent intent)
  | .armReset arm _ => some (.resetArm arm)
  | .abortReset abort _ => some (.resetAbort abort)
  | .completeReset intentId _ =>
      match committedNow s intentId with
      | .ok none => do
          let cs ← chainOf env s
          let r ← s.getReset intentId
          resetAct cs r
      | _ => none
  | _ => none

/-- The passphrase's signature in a request. -/
def signatureOf : Request → String
  | .openAct _ sig => sig
  | .signEnroll _ sig => sig
  | .startReset _ sig => sig
  | .armReset _ sig => sig
  | .abortReset _ sig => sig
  | .completeReset _ sig => sig
  | _ => ""

/-- Whatever faults its writes met, the request was answered. -/
def Answered (s : Store) (r : Request) : Prop :=
  ∃ faults response s' rest, (handleRequest env r).run faults s = .done response s' rest

/-- The signature in the request is the sealed passphrase's, over this. -/
def Verified (s : Store) (r : Request) (signed : Signed) : Prop :=
  ∃ cs, chainState env s = .ok (some cs) ∧
    verifyPassphrase env cs (signed.message env) (signatureOf r) = true

end

variable {s : Store}

theorem done_of_bind {α β : Type} {m : Served α} {f : α → Served β} {faults : List Fault}
    {b : β} {s' : Store} {rest : List Fault} (h : (m >>= f).run faults s = .done b s' rest) :
    ∃ a s₁ rest₁, m.run faults s = .done a s₁ rest₁ ∧ (f a).run rest₁ s₁ = .done b s' rest := by
  rw [Faulty.run_bind] at h
  split at h
  · rename_i a s₁ rest₁ hm
    exact ⟨a, s₁, rest₁, hm, h⟩
  · cases h
  · cases h

theorem done_of_check {α β : Type} {e : Except Refusal α} {f : α → Served β} {faults : List Fault}
    {b : β} {s' : Store} {rest : List Fault}
    (h : (Faulty.ofExcept e >>= f).run faults s = .done b s' rest) :
    ∃ a, e = .ok a ∧ (f a).run faults s = .done b s' rest := by
  cases e with
  | error e => cases h
  | ok a => exact ⟨a, rfl, h⟩

/-- A request that is answered has passed the check it starts with. -/
theorem check_of_done {α β : Type} {wrap : β → Response} {check : Store → Except Refusal α}
    {f : Store → α → Served β} {faults : List Fault} {response : Response} {s' : Store}
    {rest : List Fault}
    (h : (answering wrap (Faulty.get >>= fun s => Faulty.ofExcept (check s) >>= f s)).run faults s =
      .done response s' rest) :
    ∃ a, check s = .ok a ∧ ∃ b s₁ rest₁, (f s a).run faults s = .done b s₁ rest₁ := by
  obtain ⟨b, s₁, rest₁, h, -⟩ := done_of_bind h
  obtain ⟨_, _, _, hget, h⟩ := done_of_bind h
  cases hget
  obtain ⟨a, hcheck, h⟩ := done_of_check h
  exact ⟨a, hcheck, b, s₁, rest₁, h⟩

theorem requireSealed_eq_ok {forSeal : Bool} {cs : ChainState}
    (h : requireSealed env s forSeal = .ok cs) :
    chainState env s = .ok (some cs) ∧ passphraseKind ∈ cs.members ∧
      (∃ kind ∈ cs.members.keys, kind ∈ deviceKinds) ∧
      if forSeal then cs.sealedId = none else cs.sealedId ≠ none := by
  unfold requireSealed at h
  obtain ⟨state, hstate, h⟩ := Except.bind_eq_ok.mp h
  cases state with
  | none => cases h
  | some state =>
    simp only [Except.bind_eq_ok, ensure_eq_ok] at h
    obtain ⟨_, hpassphrase, _, hdevice, h⟩ := h
    cases forSeal with
    | true =>
      simp only [if_true, Except.bind_eq_ok, ensure_eq_ok, Except.pure_eq_ok] at h
      obtain ⟨_, hseal, rfl⟩ := h
      exact ⟨hstate, hpassphrase, hdevice, hseal⟩
    | false =>
      simp only [Bool.false_eq_true, if_false, Except.bind_eq_ok, ensure_eq_ok,
        Except.pure_eq_ok] at h
      obtain ⟨_, hseal, rfl⟩ := h
      exact ⟨hstate, hpassphrase, hdevice, hseal⟩

theorem draftMessage_eq_ok {cs : ChainState} {draft : Draft} {message : Bytes} :
    draftMessage env cs draft = .ok message ↔
      (draft.seq = cs.length ∧ draft.prev = cs.tipHash) ∧
        (signedOn cs draft).message env = message := by
  simp only [draftMessage, Except.bind_eq_ok, ensure_eq_ok, Except.pure_eq_ok]
  constructor
  · intro h
    obtain ⟨_, htip, h⟩ := h
    exact ⟨htip, h⟩
  · intro h
    obtain ⟨htip, h⟩ := h
    exact ⟨(), htip, h⟩

theorem chainOf_eq {cs : ChainState} (h : chainState env s = .ok (some cs)) :
    chainOf env s = some cs := by
  rw [chainOf, h]

theorem guarded_eq_ok {ε α : Type} {p : Prop} [Decidable p] {check : Except ε Unit}
    {x : Except ε α} {a : α} :
    (if p then check >>= fun _ => x else x) = .ok a ↔ (p → check = .ok ()) ∧ x = .ok a := by
  split_ifs with hp
  · rw [Except.bind_eq_ok]
    exact ⟨fun ⟨_, hcheck, h⟩ => ⟨fun _ => hcheck, h⟩, fun ⟨hcheck, h⟩ => ⟨(), hcheck hp, h⟩⟩
  · exact ⟨fun h => ⟨fun hp' => absurd hp' hp, h⟩, fun h => h.2⟩

theorem checkDraft_eq_ok {draft : Draft} {cs : ChainState} :
    checkDraft env s draft = .ok cs ↔
      draft.op ∈ openedOps ∧
      (draft.op = Op.add.name → draft.kind ∈ deviceKinds ∨ draft.kind = passphraseKind) ∧
      (draft.op = Op.remove.name → draft.kind ∈ deviceKinds) ∧
      requireSealed env s (decide (draft.op = Op.sealId.name)) = .ok cs ∧
      (draft.op = Op.remove.name → checkRemoveDraft cs draft = .ok ()) ∧
      (draft.op = Op.sealId.name → checkSealDraft env s draft = .ok ()) ∧
      (draft.op = Op.add.name ∧ draft.kind ∈ deviceKinds → checkDeviceDraft s draft = .ok ()) ∧
      actFreshness env draft s.clock = .ok () := by
  have hfresh : ∀ cs', (do
      actFreshness env draft s.clock
      pure cs' : Except Refusal ChainState) = .ok cs ↔
        actFreshness env draft s.clock = .ok () ∧ cs' = cs := by
    intro cs'
    rw [Except.bind_eq_ok]
    exact ⟨fun ⟨_, h, heq⟩ => ⟨h, Except.pure_eq_ok.mp heq⟩,
      fun ⟨h, heq⟩ => ⟨(), h, Except.pure_eq_ok.mpr heq⟩⟩
  have hchecks : ∀ cs', (do
      if draft.op = Op.remove.name then checkRemoveDraft cs' draft else pure ()
      if draft.op = Op.sealId.name then checkSealDraft env s draft else pure ()
      if draft.op = Op.add.name ∧ draft.kind ∈ deviceKinds then checkDeviceDraft s draft
        else pure ()
      actFreshness env draft s.clock
      pure cs' : Except Refusal ChainState) = .ok cs ↔
        (draft.op = Op.remove.name → checkRemoveDraft cs' draft = .ok ()) ∧
        (draft.op = Op.sealId.name → checkSealDraft env s draft = .ok ()) ∧
        (draft.op = Op.add.name ∧ draft.kind ∈ deviceKinds → checkDeviceDraft s draft = .ok ()) ∧
        actFreshness env draft s.clock = .ok () ∧ cs' = cs := fun cs' =>
    guarded_eq_ok.trans (and_congr_right fun _ => guarded_eq_ok.trans (and_congr_right fun _ =>
      guarded_eq_ok.trans (and_congr_right fun _ => hfresh cs')))
  simp only [checkDraft, Except.bind_eq_ok, ensure_eq_ok]
  constructor
  · rintro ⟨_, hop, _, hadd, _, hremove, cs', hsealed, h⟩
    obtain ⟨hmember, hseal, hdevice, hact, rfl⟩ := (hchecks cs').mp h
    exact ⟨hop, hadd, hremove, hsealed, hmember, hseal, hdevice, hact⟩
  · rintro ⟨hop, hadd, hremove, hsealed, hmember, hseal, hdevice, hact⟩
    exact ⟨(), hop, (), hadd, (), hremove, cs, hsealed,
      (hchecks cs).mpr ⟨hmember, hseal, hdevice, hact, rfl⟩⟩

theorem checkDraft_chain {draft : Draft} {cs : ChainState} (h : checkDraft env s draft = .ok cs) :
    chainState env s = .ok (some cs) ∧ (draft.op ≠ Op.sealId.name → cs.sealedId ≠ none) := by
  obtain ⟨-, -, -, hsealed, -⟩ := checkDraft_eq_ok.mp h
  obtain ⟨hchain, -, -, hseal⟩ := requireSealed_eq_ok hsealed
  refine ⟨hchain, fun hne => ?_⟩
  rw [decide_eq_false hne] at hseal
  simpa using hseal

/-- An act the bootloader signs for is signed under a sealed id. -/
theorem signedOn_ne_unsealed {cs : ChainState} {draft : Draft}
    (h : draft.op ≠ Op.sealId.name → cs.sealedId ≠ none) (d : Draft) :
    signedOn cs draft ≠ .act d none := by
  intro heq
  obtain ⟨-, hnone⟩ := Signed.act.inj heq
  split_ifs at hnone with hop
  exact h hop hnone

theorem answered_verified {r : Request} {signed : Signed} (hasked : asked env s r = some signed)
    (h : Answered env s r) :
    Verified env s r signed ∧ ∀ draft, signed ≠ .act draft none := by
  obtain ⟨faults, response, s', rest, h⟩ := h
  cases r with
  | openAct draft sig =>
    obtain ⟨_, hcheck, -⟩ := check_of_done h
    simp only [checkOpen, Except.bind_eq_ok, ensure_eq_ok] at hcheck
    obtain ⟨cs, hdraft, message, hmessage, _, hverify, -⟩ := hcheck
    obtain ⟨hchain, hsealed⟩ := checkDraft_chain hdraft
    obtain ⟨-, rfl⟩ := draftMessage_eq_ok.mp hmessage
    rw [asked, chainOf_eq hchain] at hasked
    obtain rfl := Option.some.inj hasked
    exact ⟨⟨cs, hchain, hverify⟩, signedOn_ne_unsealed hsealed⟩
  | signEnroll requestId sig =>
    obtain ⟨⟨r, act⟩, hcheck, -⟩ := check_of_done h
    obtain ⟨cs, hsealed, hcheck⟩ := Except.bind_eq_ok.mp hcheck
    obtain ⟨hchain, -, -, hseal⟩ := requireSealed_eq_ok hsealed
    rw [asked, chainOf_eq hchain] at hasked
    split at hcheck
    · cases hcheck
    · rename_i r' hfind
      split at hcheck
      · cases hcheck
      · rename_i act' hact
        simp only [Except.bind_eq_ok, ensure_eq_ok, Except.pure_eq_ok] at hcheck
        obtain ⟨_, -, _, -, _, -, message, hmessage, _, hverify, -⟩ := hcheck
        obtain ⟨-, rfl⟩ := draftMessage_eq_ok.mp hmessage
        simp only [Option.bind_eq_bind, Option.bind_some, hfind, hact] at hasked
        obtain rfl := Option.some.inj hasked
        refine ⟨⟨cs, hchain, hverify⟩, signedOn_ne_unsealed fun _ => ?_⟩
        simpa using hseal
  | startReset intent sig =>
    obtain rfl := Option.some.inj hasked
    obtain ⟨_, hcheck, -⟩ := check_of_done h
    simp only [checkIntent, Except.bind_eq_ok, ensure_eq_ok] at hcheck
    obtain ⟨cs, hsealed, _, -, _, -, _, -, _, hverify, -⟩ := hcheck
    exact ⟨⟨cs, (requireSealed_eq_ok hsealed).1, hverify⟩, fun _ heq => by cases heq⟩
  | armReset arm sig =>
    obtain rfl := Option.some.inj hasked
    obtain ⟨_, hcheck, -⟩ := check_of_done h
    simp only [checkArm, Except.bind_eq_ok, ensure_eq_ok] at hcheck
    obtain ⟨cs, hsealed, _, -, hverify⟩ := hcheck
    exact ⟨⟨cs, (requireSealed_eq_ok hsealed).1, hverify⟩, fun _ heq => by cases heq⟩
  | completeReset intentId sig =>
    obtain ⟨cs, hsealed, _, _, _, h⟩ := check_of_done h
    obtain ⟨hchain, -, -, hseal⟩ := requireSealed_eq_ok hsealed
    obtain ⟨committed, hcommitted, h⟩ := done_of_check h
    cases committed with
    | some r => simp [asked, hcommitted] at hasked
    | none =>
      obtain ⟨c, hcheck, -⟩ := done_of_check h
      obtain ⟨hc⟩ := checkComplete_eq_ok hcheck
      obtain ⟨hfresh, hslot⟩ := answered_eq_ok hc.answered
      obtain ⟨-, hmessage⟩ := draftMessage_eq_ok.mp hc.message_eq
      simp only [asked, hcommitted, chainOf_eq hchain, hc.opened.get, resetAct, hfresh, hslot,
        hc.value_eq, Option.bind_eq_bind, Option.bind_some] at hasked
      obtain rfl := Option.some.inj hasked
      refine ⟨⟨cs, hchain, hmessage ▸ hc.passphrase⟩, signedOn_ne_unsealed fun _ => ?_⟩
      simpa using hseal
  | abortReset abort sig =>
    obtain rfl := Option.some.inj hasked
    obtain ⟨_, hcheck, -⟩ := check_of_done h
    simp only [checkAbort, Except.bind_eq_ok, ensure_eq_ok] at hcheck
    obtain ⟨cs, hsealed, _, -, hverify⟩ := hcheck
    exact ⟨⟨cs, (requireSealed_eq_ok hsealed).1, hverify⟩, fun _ heq => by cases heq⟩
  | _ => cases hasked

/-- `_handle_genesis_chain`, where the id was derived with these identity members. -/
def served (s : Store) (members : List String) : ServedChain where
  records := s.chain.chain
  bootloaderId := some s.config.bootloaderId
  operatorPubkeyHex := (s.config.operatorPubkey.filter fun key => key ≠ []).map hex
  identityMembersHex := members
  supportsGenesisChain := true

/-! ## The console and the bootloader -/

/-- Where no write fails, the program ends. -/
def Ends {α : Type} (m : Served α) : Prop := ∀ s, ∃ a s', m.run [] s = .done a s' []

theorem Ends.bind {α β : Type} {m : Served α} {f : α → Served β} (hm : Ends m)
    (hf : ∀ a, Ends (f a)) : Ends (m >>= f) := by
  intro s
  obtain ⟨a, s', hrun⟩ := hm s
  rw [Faulty.run_bind, hrun]
  exact hf a s'

theorem cardDevices_ends (recorded : Dict String String) (recordId : String) (message : Bytes)
    (ttl : ℤ) : ∀ phones cards, Ends (cardDevices env recorded recordId message ttl phones cards)
  | [], cards => fun s => ⟨cards, s, rfl⟩
  | _ :: phones, _ => .bind (fun _ => ⟨_, _, rfl⟩) fun _ => .bind (fun _ => ⟨_, _, rfl⟩) fun _ =>
      .bind (fun _ => ⟨_, _, rfl⟩) fun _ => cardDevices_ends recorded recordId message ttl phones _

theorem openAct_ends_iff {draft : Draft} {sig : String} :
    (∃ response s', (handleRequest env (.openAct draft sig)).run [] s = .done response s' []) ↔
      ∃ opened, checkOpen env s draft sig = .ok opened := by
  constructor
  · rintro ⟨response, s', h⟩
    obtain ⟨opened, hcheck, -⟩ := check_of_done h
    exact ⟨opened, hcheck⟩
  · rintro ⟨⟨message, phones⟩, hcheck⟩
    have hends : Ends (do
        let token ← drawToken env
        let recordId := "act-" ++ token
        let cards ← cardDevices env Dict.empty recordId message actCardTtlSeconds phones Dict.empty
        putTopPlaneRecord (.act
          { id := recordId, state := .pending, draft := draft, message := message
            passphraseSig := sig, cards := cards, createdUnix := s.clock
            expiresAtUnix := s.clock + actCardTtlSeconds })
        pure recordId) :=
      .bind (fun _ => ⟨_, _, rfl⟩) fun token => .bind (cardDevices_ends _ _ _ _ _ _) fun cards =>
        .bind (fun _ => ⟨_, _, rfl⟩) fun _ _ => ⟨_, _, rfl⟩
    obtain ⟨id, s', hrun⟩ := hends s
    refine ⟨.opened id, s', ?_⟩
    have hopen : (openAct env draft sig).run [] s = .done id s' [] := by
      rw [openAct, Faulty.run_bind, Faulty.run_get]
      dsimp only
      rw [hcheck]
      exact hrun
    change (answering Response.opened (openAct env draft sig)).run [] s = _
    rw [answering, Faulty.run_bind, hopen]
    rfl

/-! ## The bootloader acts on what was shown -/

/-- A message that one of the legs signed, with bytes hashed apart, is signed by a leg that says
the same. -/
theorem leg_of_message {log : List Invocation} {Formed : Set Bytes} {signed : Signed}
    (hcollision : Set.InjOn env.sha256 Formed) (hlength : ∀ raw, (env.sha256 raw).length ≤ 32)
    (hformed : signed.bytes ∈ Formed) (hlog : ∀ leg ∈ legs env log, leg.signed.bytes ∈ Formed)
    (hsealed : ∀ draft, signed ≠ .act draft none) (hleg : leg ∈ legs env log)
    (h : leg.signed.message env = signed.message env) : leg.signed = signed := by
  have hhashed : signed.message env = env.sha256 signed.bytes :=
    (signed.message_eq env).resolve_right fun ⟨draft, heq, _⟩ => hsealed draft heq
  rw [hhashed] at h
  rcases leg.signed.message_eq env with hmessage | ⟨draft, heq, hmessage⟩
  · exact Signed.bytes_injective (hcollision (hlog leg hleg) hformed (hmessage ▸ h))
  · -- before the seal the bytes themselves are signed, and they are longer than a digest
    have hraw : 32 < leg.signed.bytes.length := heq ▸ length_signingBytes ..
    rw [hmessage] at h
    exact absurd (h ▸ hlength signed.bytes) (by omega)

/-- Whatever the console was answered and whatever faults the writes meet: a request that the
bootloader answers on a passphrase signature was shown to the operator, in a line that states it,
and what the bootloader acts on is field by field what the console signed. -/
theorem answered_shown (env : Host) (log : List Invocation) (Formed : Set Bytes) (s : Store)
    (r : Request) (signed : Signed) (hcollision : Set.InjOn env.sha256 Formed)
    (hlength : ∀ raw, (env.sha256 raw).length ≤ 32) (hformed : signed.bytes ∈ Formed)
    (hlog : ∀ leg ∈ legs env log, leg.signed.bytes ∈ Formed)
    (hunforged : Verified env s r signed →
      ∃ leg ∈ legs env log, leg.signed.message env = signed.message env)
    (hasked : asked env s r = some signed) (hanswered : Answered env s r) :
    ∃ leg ∈ legs env log, leg.signed = signed ∧ ∃ line ∈ leg.lines, States env signed line := by
  obtain ⟨hverified, hsealed⟩ := answered_verified hasked hanswered
  obtain ⟨leg, hleg, hmessage⟩ := hunforged hverified
  have heq := leg_of_message hcollision hlength hformed hlog hsealed hleg hmessage
  obtain ⟨inv, -, hplan⟩ := mem_legs.mp hleg
  exact ⟨leg, hleg, heq, heq ▸ plan_states hplan⟩

theorem exists_ok {α : Type} {x : Except Refusal α} (h : x.toOption.isSome = true) :
    ∃ a, x = .ok a := by
  cases x with
  | error e => cases h
  | ok a => exact ⟨a, rfl⟩

/-- The sample run up to the seal. -/
def sealedStore : Store :=
  (runEvents sampleHost (Store.new 0) (sampleGenesis ++ sampleSecondOwner ++ sampleSealing)).2

/-- The removal of the first owner's phone, with the chain of that store. -/
def sampleInvocation : Invocation :=
  ⟨.removeDevice .primary, ⟨some (served sealedStore []), none, fun _ => none⟩,
    ⟨"mmmmmmmmmmmmmmmm", "", -300⟩⟩

def sampleDraft : Draft :=
  ⟨"remove", "primary-phone", sampleKey 2, "ed25519", 4, some "db43cadd",
    some "\x7b\"nonce\":\"mmmmmmmmmmmmmmmm\",\"not_after\":300\x7d"⟩

def sampleSigned : Signed := .act sampleDraft (some "rb1-64ab8b83")

/-- What the runs of the sample come to. -/
theorem sample_runs :
    (legs sampleHost [sampleInvocation]).map (fun leg => (leg.signed, leg.post "B56mig")) =
        [(sampleSigned, .openAct sampleDraft "B56mig")] ∧
      asked sampleHost sealedStore (.openAct sampleDraft "B56mig") = some sampleSigned ∧
      (checkOpen sampleHost sealedStore sampleDraft "B56mig").toOption.isSome = true := by
  decide +kernel

theorem leg_sample : (∃ leg, leg ∈ legs sampleHost [sampleInvocation]) ∧
    ∀ leg ∈ legs sampleHost [sampleInvocation],
      leg.signed = sampleSigned ∧ leg.post "B56mig" = .openAct sampleDraft "B56mig" := by
  obtain ⟨hlegs, -⟩ := sample_runs
  constructor
  · obtain ⟨leg, hleg, -⟩ := List.mem_map.mp (hlegs ▸ List.mem_singleton.mpr rfl)
    exact ⟨leg, hleg⟩
  · intro leg hleg
    have hpair := List.mem_singleton.mp (hlegs ▸ List.mem_map_of_mem hleg)
    exact ⟨congrArg Prod.fst hpair, congrArg Prod.snd hpair⟩

theorem answered_shown_sample :
    ∃ leg ∈ legs sampleHost [sampleInvocation], leg.signed = sampleSigned ∧
      ∃ line ∈ leg.lines, States sampleHost sampleSigned line := by
  obtain ⟨⟨leg, hleg⟩, hlegs⟩ := leg_sample
  obtain ⟨-, hasked, hopened⟩ := sample_runs
  obtain ⟨response, s', hrun⟩ := openAct_ends_iff.mpr (exists_ok hopened)
  refine answered_shown sampleHost [sampleInvocation] {sampleSigned.bytes} sealedStore
    (.openAct sampleDraft "B56mig") sampleSigned (Set.injOn_singleton _ _) (fun raw => ?_)
    (Set.mem_singleton _) (fun leg hleg => ?_) (fun _ => ⟨leg, hleg, ?_⟩) hasked
    ⟨[], response, s', [], hrun⟩
  · simp [sampleHost, samplePrimitives, checksum]
  · rw [(hlegs leg hleg).1]
    exact Set.mem_singleton _
  · rw [(hlegs leg hleg).1]

/-! ## The bootloader opens what the console posts -/

/-- The console replays the chain the bootloader reads. -/
theorem readChain_served {answers : Answers} {members : List String} {cs : ChainState}
    (hchain : chainState env s = .ok (some cs)) (hanswers : answers.chain = some (served s members))
    (h : readChain env answers = .ok chain) :
    chain.state = cs ∧ chain.served = served s members ∧ passphraseKind ∈ cs.members := by
  have hreplay : (entriesFromRecords env.toPrimitives s.chain.chain >>=
      replayState env.toPrimitives) = .ok cs := by
    obtain ⟨state, hread, hchain⟩ := Except.bind_eq_ok.mp hchain
    have hstate : state = some cs := by
      split at hchain
      · exact Except.pure_eq_ok.mp hchain
      · split_ifs at hchain
        exact Except.pure_eq_ok.mp hchain
    rw [hstate, readChainState] at hread
    split at hread
    · rename_i cs' hgenesis
      obtain rfl := Except.ok.inj hread
      obtain ⟨entries, hentries, hgenesis⟩ := Except.bind_eq_ok.mp hgenesis
      obtain ⟨state', hstored, hgenesis⟩ := Except.bind_eq_ok.mp hgenesis
      obtain ⟨_, -, hgenesis⟩ := Except.bind_eq_ok.mp hgenesis
      obtain rfl := Except.pure_eq_ok.mp hgenesis
      rw [hentries]
      unfold replayStored at hstored
      split_ifs at hstored
      · cases hstored
      cases hstate' : replayState env.toPrimitives entries with
      | error e =>
        rw [hstate'] at hstored
        cases hstored
      | ok state =>
        rw [hstate'] at hstored
        obtain rfl := Option.some.inj (Except.ok.inj hstored)
        exact hstate'
    · cases hread
    · cases hread
  unfold readChain at h
  rw [hanswers] at h
  dsimp only at h
  rw [show (served s members).records = s.chain.chain from rfl, hreplay] at h
  simp only [served, if_true] at h
  split at h
  · cases h
  · rename_i member hmember
    obtain rfl := Except.ok.inj h
    exact ⟨rfl, rfl, Dict.mem_of_get? hmember⟩

/-! ### The meta of an act -/

theorem proper_strs (names : List String) : Json.ProperElements (names.map .str) := by
  induction names with
  | nil => trivial
  | cons name names ih => exact ⟨trivial, ih⟩

/-- What beside the freshness may stand in the meta. -/
def ExtraOk (extra : List (String × Json)) : Prop :=
  extra = [] ∨ ∃ opHex members, extra = sealMeta opHex members

theorem loads_freshMeta (drawn : Drawn) {extra : List (String × Json)} (hextra : ExtraOk extra) :
    ∃ fields, Json.loads (freshMeta drawn extra) = .ok (.obj fields) ∧
      ∀ key, fields.lookup key = (freshFields drawn ++ extra).lookup key := by
  have hproper : Json.Proper (.obj (freshFields drawn ++ extra)) := by
    rcases hextra with rfl | ⟨opHex, members, rfl⟩
    · simp [freshFields, Json.Proper, Json.ProperFields]
    · exact ⟨by simp [freshFields, sealMeta], trivial, trivial, trivial, proper_strs members,
        trivial⟩
  have hcanon : Json.canonFields (freshFields drawn ++ extra) = freshFields drawn ++ extra := by
    rcases hextra with rfl | ⟨opHex, members, rfl⟩
    · rfl
    · simp only [freshFields, sealMeta, List.cons_append, List.nil_append, Json.canonFields,
        Json.canon, Json.canonElements_strs]
  refine ⟨Json.sortFields (freshFields drawn ++ extra), ?_, fun key =>
    (lookup_eq_of_perm (Json.sortFields_perm _).symm hproper.1 key).symm⟩
  rw [freshMeta, canonicalMeta, Json.loads_dumps hproper, Json.canon, hcanon]

variable {cs : ChainState} {op kind algorithm : String} {value : Bytes}
  {extra : List (String × Json)}

theorem actFreshness_draftOn (hextra : ExtraOk extra) (now : ℤ) :
    actFreshness env (chain.draftOn op kind value algorithm (freshMeta drawn extra)) now = .ok () ↔
      freshLeg drawn.nonce (drawn.now + 600) now := by
  obtain ⟨fields, hloads, hlookup⟩ := loads_freshMeta drawn hextra
  have hread : readActMeta env (chain.draftOn op kind value algorithm (freshMeta drawn extra)) =
      .ok (drawn.nonce, drawn.now + 600) := by
    have hnonce : fields.lookup "nonce" = some (.str drawn.nonce) := hlookup "nonce"
    have hafter : fields.lookup "not_after" = some (.int (drawn.now + 600)) := hlookup "not_after"
    have hget : ∀ {key x}, fields.lookup key = some x → (Json.obj fields).getItem key = .ok x := by
      intro key x h
      rw [Json.getItem, Json.field?, h]
    simp only [readActMeta, Except.bind_eq_ok, Except.pure_eq_ok]
    exact ⟨_, hloads, _, hget hnonce, _, hget hafter, _, rfl, rfl⟩
  rw [actFreshness, hread]
  exact ensure_eq_ok

theorem metaField_draftOn (hextra : ExtraOk extra) (key : String) :
    (chain.draftOn op kind value algorithm (freshMeta drawn extra)).metaField key =
      (freshFields drawn ++ extra).lookup key := by
  obtain ⟨fields, hloads, hlookup⟩ := loads_freshMeta drawn hextra
  rw [Draft.metaField, ReplayedChain.draftOn, Option.getD_some, hloads]
  exact hlookup key

/-! ### The checks of the bootloader -/

theorem requireSealed_iff {forSeal : Bool} (hchain : chainState env s = .ok (some cs)) :
    requireSealed env s forSeal = .ok cs ↔
      passphraseKind ∈ cs.members ∧ (∃ kind ∈ cs.members.keys, kind ∈ deviceKinds) ∧
        if forSeal then cs.sealedId = none else cs.sealedId ≠ none := by
  constructor
  · intro h
    exact (requireSealed_eq_ok h).2
  · rintro ⟨hpassphrase, hdevice, hseal⟩
    refine Except.bind_eq_ok.mpr ⟨some cs, hchain, ?_⟩
    simp only [Except.bind_eq_ok, ensure_eq_ok]
    refine ⟨(), hpassphrase, (), hdevice, ?_⟩
    cases forSeal with
    | true => exact Except.bind_eq_ok.mpr ⟨(), ensure_eq_ok.mpr hseal, rfl⟩
    | false => exact Except.bind_eq_ok.mpr ⟨(), ensure_eq_ok.mpr hseal, rfl⟩

theorem device_of_actPhones {draft : Draft} (h : actPhones s cs draft ≠ []) :
    ∃ kind ∈ cs.members.keys, kind ∈ deviceKinds := by
  obtain ⟨p, hp⟩ := List.exists_mem_of_ne_nil _ h
  have hdevice : deviceKindOf cs p ≠ none := by
    simpa using (List.mem_filter.mp (List.mem_filter.mp hp).1).2
  obtain ⟨kind, hkind⟩ := Option.ne_none_iff_exists'.mp hdevice
  obtain ⟨item, hitem, rfl⟩ := Option.map_eq_some_iff.mp hkind
  have hfound := List.find?_some hitem
  simp only [Bool.and_eq_true, decide_eq_true_eq] at hfound
  exact ⟨item.1, List.mem_map_of_mem (List.mem_of_find?_eq_some hitem), hfound.1⟩

/-- No act on record is signed over the message. -/
def Unused (s : Store) (message : Bytes) : Prop :=
  ∀ record ∈ s.listTopPlaneRecords, record.reset? = none → record.message ≠ message

theorem checkOpen_iff {draft : Draft} {sig : String} (hchain : chainState env s = .ok (some cs))
    (htip : draft.seq = cs.length ∧ draft.prev = cs.tipHash)
    (hverify : verifyPassphrase env cs ((signedOn cs draft).message env) sig = true) :
    (∃ opened, checkOpen env s draft sig = .ok opened) ↔
      checkDraft env s draft = .ok cs ∧ actPhones s cs draft ≠ [] ∧
        Unused s ((signedOn cs draft).message env) := by
  constructor
  · rintro ⟨opened, h⟩
    simp only [checkOpen, Except.bind_eq_ok, ensure_eq_ok] at h
    obtain ⟨cs', hdraft, message, hmessage, _, -, _, hphones, _, hunused, -⟩ := h
    have hcs : cs' = cs :=
      Option.some.inj (Except.ok.inj ((checkDraft_chain hdraft).1.symm.trans hchain))
    rw [hcs] at hdraft hmessage hphones
    obtain ⟨-, rfl⟩ := draftMessage_eq_ok.mp hmessage
    exact ⟨hdraft, hphones, hunused⟩
  · rintro ⟨hdraft, hphones, hunused⟩
    refine ⟨((signedOn cs draft).message env, actPhones s cs draft), ?_⟩
    simp only [checkOpen, Except.bind_eq_ok, ensure_eq_ok, Except.pure_eq_ok]
    exact ⟨cs, hdraft, _, draftMessage_eq_ok.mpr ⟨htip, rfl⟩, (), hverify, (), hphones, (), hunused,
      rfl⟩

/-- What the bootloader asks of a verb beyond what the console has looked at. -/
def Verb.Meets (env : Host) (s : Store) (cs : ChainState) (members : List String) (draft : Draft) :
    Verb → Prop
  | .sealId => s.config.derivedBootloaderId = some s.config.bootloaderId ∧
      (members.mapM fromHex).map (deriveBootloaderId env (s.config.operatorPubkey.getD [])) =
        some s.config.bootloaderId
  | .addDevice slot _ algorithm => cs.sealedId ≠ none ∧ ∃ owner,
      s.findByPubkey (b64u draft.value) = some owner ∧ owner.slot = .owner slot ∧
        registeredAlgorithm owner = algorithm
  | _ => cs.sealedId ≠ none

/-- When the bootloader opens the act a verb posts: its deadline is ahead and near, a sealed device
that the act leaves is registered, and no act on record has its message. -/
structure Opens (env : Host) (s : Store) (cs : ChainState) (members : List String)
    (drawn : Drawn) (verb : Verb) (draft : Draft) : Prop where
  fresh : freshLeg drawn.nonce (drawn.now + 600) s.clock
  phones : actPhones s cs draft ≠ []
  unused : Unused s ((signedOn cs draft).message env)
  meets : verb.Meets env s cs members draft

/-- What the checks of one verb come to is all that is left beside the rest. -/
theorem checkOpen_draftOn {sig : String} {members : List String} {verb : Verb}
    (hextra : ExtraOk extra) (hchain : chainState env s = .ok (some cs)) (hstate : chain.state = cs)
    (hpassphrase : passphraseKind ∈ cs.members) (hop : op ∈ openedOps)
    (hkind : op = Op.add.name ∨ op = Op.remove.name → kind ∈ deviceKinds)
    (hverify : verifyPassphrase env cs ((signedOn cs
      (chain.draftOn op kind value algorithm (freshMeta drawn extra))).message env) sig = true)
    (hmeets : ((if decide (op = Op.sealId.name) then cs.sealedId = none else cs.sealedId ≠ none) ∧
      (op = Op.remove.name → checkRemoveDraft cs
        (chain.draftOn op kind value algorithm (freshMeta drawn extra)) = .ok ()) ∧
      (op = Op.sealId.name → checkSealDraft env s
        (chain.draftOn op kind value algorithm (freshMeta drawn extra)) = .ok ()) ∧
      (op = Op.add.name → checkDeviceDraft s
        (chain.draftOn op kind value algorithm (freshMeta drawn extra)) = .ok ())) ↔
      verb.Meets env s cs members
        (chain.draftOn op kind value algorithm (freshMeta drawn extra))) :
    (∃ opened, checkOpen env s
      (chain.draftOn op kind value algorithm (freshMeta drawn extra)) sig = .ok opened) ↔
      Opens env s cs members drawn verb
        (chain.draftOn op kind value algorithm (freshMeta drawn extra)) := by
  rw [checkOpen_iff hchain (hstate ▸ ⟨rfl, rfl⟩) hverify, checkDraft_eq_ok,
    requireSealed_iff hchain, actFreshness_draftOn hextra]
  constructor
  · rintro ⟨⟨-, -, -, ⟨-, -, hseal⟩, hremove, hsealed, hadd, hfresh⟩, hphones, hunused⟩
    exact ⟨hfresh, hphones, hunused,
      hmeets.mp ⟨hseal, hremove, hsealed, fun h => hadd ⟨h, hkind (.inl h)⟩⟩⟩
  · rintro ⟨hfresh, hphones, hunused, h⟩
    obtain ⟨hseal, hremove, hsealed, hadd⟩ := hmeets.mpr h
    exact ⟨⟨hop, fun h => .inl (hkind (.inl h)), fun h => hkind (.inr h),
      ⟨hpassphrase, device_of_actPhones hphones, hseal⟩, hremove, hsealed, fun h => hadd h.1,
      hfresh⟩, hphones, hunused⟩

theorem checkDeviceDraft_iff {draft : Draft} (slot : OwnerSlot) (hkind : draft.kind = slot.kind) :
    checkDeviceDraft s draft = .ok () ↔ ∃ owner, s.findByPubkey (b64u draft.value) = some owner ∧
      owner.slot = .owner slot ∧ registeredAlgorithm owner = draft.algorithm := by
  unfold checkDeviceDraft
  split
  · rename_i owner howner
    have hslot : (∃ slot' ∈ [OwnerSlot.primary, .recovery], slot'.kind = draft.kind ∧
        owner.slot = .owner slot') ↔ owner.slot = .owner slot := by
      rw [hkind]
      constructor
      · rintro ⟨slot', -, hkind', howner'⟩
        cases slot <;> cases slot' <;> first | exact howner' | exact absurd hkind' (by decide)
      · intro h
        exact ⟨slot, by cases slot <;> decide, rfl, h⟩
    rw [ensure_eq_ok, hslot]
    simp [howner]
  · rename_i hnone
    simp [hnone]

theorem checkRemoveDraft_of_member {draft : Draft} {member : ChainEntry}
    (h : cs.members.get? draft.kind = some member) (hkey : member.pubkey = draft.value)
    (halgorithm : member.algorithm = draft.algorithm) : checkRemoveDraft cs draft = .ok () := by
  rw [checkRemoveDraft, h]
  exact ensure_eq_ok.mpr ⟨hkey, halgorithm⟩

theorem recordedMembers_draftOn (opHex : String) (members : List String) :
    recordedMembers (chain.draftOn op kind value algorithm
      (freshMeta drawn (sealMeta opHex members))) = members.mapM fromHex := by
  have hread : (chain.draftOn op kind value algorithm
      (freshMeta drawn (sealMeta opHex members))).metaField "identity_members" =
        some (.arr (members.map .str)) := metaField_draftOn (.inr ⟨opHex, members, rfl⟩) _
  rw [recordedMembers, hread]
  dsimp only
  rw [List.mapM_map]
  rfl

theorem checkSealDraft_iff {opHex : String} {members : List String}
    (hvalue : decodeReplace value = s.config.bootloaderId)
    (hop : ((s.config.operatorPubkey.filter fun key => key ≠ []).map hex).getD "" = opHex)
    (hlong : (chars opHex).length = 128) :
    checkSealDraft env s
      (chain.draftOn op kind value algorithm (freshMeta drawn (sealMeta opHex members))) = .ok () ↔
      s.config.derivedBootloaderId = some s.config.bootloaderId ∧
        (members.mapM fromHex).map (deriveBootloaderId env (s.config.operatorPubkey.getD [])) =
          some s.config.bootloaderId := by
  have hmeta : (chain.draftOn op kind value algorithm
      (freshMeta drawn (sealMeta opHex members))).metaField "operator_pubkey" = some (.str opHex) :=
    metaField_draftOn (.inr ⟨opHex, members, rfl⟩) _
  have hkey : s.config.operatorPubkey.getD [] ≠ [] ∧
      opHex = hex (s.config.operatorPubkey.getD []) := by
    cases hpub : s.config.operatorPubkey with
    | none => simp [hpub, ← hop] at hlong
    | some key =>
      by_cases hempty : key = []
      · simp [hpub, hempty, ← hop, Option.filter] at hlong
      · exact ⟨hempty, by simp [hpub, hempty, ← hop, Option.filter]⟩
  simp only [checkSealDraft, Except.bind_eq_ok, ensure_eq_ok, recordedMembers_draftOn, hmeta]
  constructor
  · rintro ⟨_, -, _, hderived, _, -, hmembers⟩
    exact ⟨hderived, hmembers⟩
  · rintro ⟨hderived, hmembers⟩
    exact ⟨(), hvalue, (), hderived, (), ⟨hkey.1, by rw [hkey.2]⟩, hmembers⟩

/-! ### The verbs that open an act -/

section

variable {members : List String} {draft : Draft} {sig : String}
  (hchain : chainState env s = .ok (some cs)) (hstate : chain.state = cs)
  (hpassphrase : passphraseKind ∈ cs.members) (hpost : leg.post sig = .openAct draft sig)
  (hsig : verifyPassphrase env cs (leg.signed.message env) sig = true)

include hchain hstate hpassphrase hpost hsig

theorem sealId_opens (hserved : chain.served = served s members)
    (h : sealId env chain drawn = .ok leg) :
    (∃ opened, checkOpen env s draft sig = .ok opened) ↔
      Opens env s cs members drawn .sealId draft := by
  unfold sealId at h
  dsimp only at h
  split at h
  · cases h
  · rename_i hsealed
    simp only [Except.bind_eq_ok, ensure_eq_ok, Except.pure_eq_ok, quitOf_eq_ok, hserved,
      served] at h
    obtain ⟨_, -, _, hlong, value, hvalue, _, -, rfl⟩ := h
    obtain ⟨rfl, -⟩ := Request.openAct.inj hpost
    rw [ReplayedChain.opens, ReplayedChain.signed, hstate] at hsig
    refine checkOpen_draftOn (.inr ⟨_, _, rfl⟩) hchain hstate hpassphrase (by decide)
      (fun h => absurd h (by decide)) hsig ?_
    have hid : decodeReplace value = s.config.bootloaderId := by
      refine decodeReplace_of_encodeAscii ?_
      cases hencode : encodeAscii s.config.bootloaderId with
      | error e => simp [hencode, Except.toOption] at hvalue
      | ok raw => simpa [hencode, Except.toOption] using hvalue
    rw [if_pos (by decide)]
    constructor
    · rintro ⟨-, -, hseal, -⟩
      exact (checkSealDraft_iff hid rfl hlong).mp (hseal rfl)
    · intro hmeets
      exact ⟨hstate ▸ hsealed, fun h => absurd h (by decide),
        fun _ => (checkSealDraft_iff hid rfl hlong).mpr hmeets, fun h => absurd h (by decide)⟩

theorem addDevice_opens {slot : OwnerSlot} {publicKey alg : String}
    (h : addDevice env chain drawn slot publicKey alg = .ok leg) :
    (∃ opened, checkOpen env s draft sig = .ok opened) ↔
      Opens env s cs members drawn (.addDevice slot publicKey alg) draft := by
  simp only [addDevice, Except.bind_eq_ok, Except.pure_eq_ok, quitOf_eq_ok] at h
  obtain ⟨raw, hraw, rfl⟩ := h
  obtain ⟨rfl, -⟩ := Request.openAct.inj hpost
  rw [ReplayedChain.opens, ReplayedChain.signed, hstate] at hsig
  refine checkOpen_draftOn (.inl rfl) hchain hstate hpassphrase (by decide) ?_ hsig ?_
  · rintro -
    cases slot <;> decide
  · rw [if_neg (by decide), checkDeviceDraft_iff slot rfl]
    constructor
    · rintro ⟨hsealed, -, -, howner⟩
      exact ⟨hsealed, howner rfl⟩
    · rintro ⟨hsealed, howner⟩
      exact ⟨hsealed, fun h => absurd h (by decide), fun h => absurd h (by decide),
        fun _ => howner⟩

theorem removeDevice_opens {slot : OwnerSlot} (h : removeDevice env chain drawn slot = .ok leg) :
    (∃ opened, checkOpen env s draft sig = .ok opened) ↔
      Opens env s cs members drawn (.removeDevice slot) draft := by
  unfold removeDevice at h
  split at h
  · cases h
  · rename_i member hmember
    obtain rfl := Except.ok.inj h
    obtain ⟨rfl, -⟩ := Request.openAct.inj hpost
    rw [ReplayedChain.opens, ReplayedChain.signed, hstate] at hsig
    refine checkOpen_draftOn (.inl rfl) hchain hstate hpassphrase (by decide) ?_ hsig ?_
    · rintro -
      cases slot <;> decide
    · rw [if_neg (by decide)]
      constructor
      · rintro ⟨hsealed, -⟩
        exact hsealed
      · intro hsealed
        exact ⟨hsealed, fun _ => checkRemoveDraft_of_member (hstate ▸ hmember) rfl rfl,
          fun h => absurd h (by decide), fun h => absurd h (by decide)⟩

theorem rotateOperator_opens {pubkeyHex : String}
    (h : rotateOperator env chain drawn pubkeyHex = .ok leg) :
    (∃ opened, checkOpen env s draft sig = .ok opened) ↔
      Opens env s cs members drawn (.rotateOperator pubkeyHex) draft := by
  unfold rotateOperator at h
  split at h
  · cases h
  · simp only [Except.bind_eq_ok, Except.pure_eq_ok] at h
    obtain ⟨_, -, rfl⟩ := h
    obtain ⟨rfl, -⟩ := Request.openAct.inj hpost
    rw [ReplayedChain.opens, ReplayedChain.signed, hstate] at hsig
    refine checkOpen_draftOn (.inl rfl) hchain hstate hpassphrase (by decide)
      (fun h => absurd h (by decide)) hsig ?_
    rw [if_neg (by decide)]
    constructor
    · rintro ⟨hsealed, -⟩
      exact hsealed
    · intro hsealed
      exact ⟨hsealed, fun h => absurd h (by decide), fun h => absurd h (by decide),
        fun h => absurd h (by decide)⟩

end

/-- The other verbs post to other routes. -/
theorem approveEnroll_posts {enrolls : Option (List ServedEnroll)} {request : Option String}
    (h : approveEnroll env chain enrolls request = .ok leg) (draft : Draft) (sig : String) :
    leg.post sig ≠ .openAct draft sig := by
  unfold approveEnroll at h
  split at h
  · cases h
  · dsimp only at h
    split at h
    · simp only [Except.bind_eq_ok, Except.pure_eq_ok] at h
      obtain ⟨_, -, _, -, _, -, rfl⟩ := h
      intro hpost
      cases hpost
    · cases h

theorem resetStart_posts {slot : Option OwnerSlot} {everyOwnerLost : Bool} {confirm : String}
    {windowSeconds : ℤ}
    (h : resetStart chain drawn slot everyOwnerLost confirm windowSeconds = .ok leg)
    (draft : Draft) (sig : String) : leg.post sig ≠ .openAct draft sig := by
  unfold resetStart at h
  split at h
  · cases h
  · simp only [Except.bind_eq_ok, Except.pure_eq_ok] at h
    obtain ⟨_, -, rfl⟩ := h
    intro hpost
    cases hpost

theorem resetArm_posts {intentId : String} {slot : Option OwnerSlot}
    (h : resetArm drawn intentId slot = .ok leg) (draft : Draft) (sig : String) :
    leg.post sig ≠ .openAct draft sig := by
  unfold resetArm at h
  split at h
  · cases h
  · obtain rfl := Except.ok.inj h
    intro hpost
    cases hpost

theorem resetComplete_posts {shown : Option ServedReset} {intentId : String}
    (h : resetComplete env chain shown intentId = .ok (.sign leg)) (draft : Draft) (sig : String) :
    leg.post sig ≠ .openAct draft sig := by
  unfold resetComplete at h
  split at h
  · cases h
  · split at h
    · cases h
    · obtain ⟨_, -, h⟩ := Except.bind_eq_ok.mp h
      split_ifs at h
      · cases h
      · have hleg := sign_eq_ok h
        simp only [completion, Except.bind_eq_ok, Except.pure_eq_ok] at hleg
        obtain ⟨_, -, _, -, rfl⟩ := hleg
        intro hpost
        cases hpost

/-- The bootloader opens the act that the console posts, at the store whose chain the console read,
if and only if it meets the few conditions that the console cannot look at. -/
theorem posted_opens_iff (env : Host) (s : Store) (cs : ChainState) (members : List String)
    (inv : Invocation) (leg : Leg) (draft : Draft) (sig : String)
    (hchain : chainState env s = .ok (some cs))
    (hanswers : inv.answers.chain = some (served s members))
    (hplan : inv.plan env = .ok (.sign leg)) (hpost : leg.post sig = .openAct draft sig)
    (hsig : verifyPassphrase env cs (leg.signed.message env) sig = true) :
    (∃ response s', (handleRequest env (leg.post sig)).run [] s = .done response s' []) ↔
      Opens env s cs members inv.drawn inv.verb draft := by
  rw [hpost, openAct_ends_iff]
  unfold Invocation.plan at hplan
  obtain ⟨chain, hread, hplan⟩ := Except.bind_eq_ok.mp hplan
  obtain ⟨hstate, hserved, hpassphrase⟩ := readChain_served hchain hanswers hread
  cases hverb : inv.verb with
  | sealId =>
    rw [hverb] at hplan
    exact sealId_opens hchain hstate hpassphrase hpost hsig hserved (sign_eq_ok hplan)
  | addDevice slot publicKey alg =>
    rw [hverb] at hplan
    exact addDevice_opens hchain hstate hpassphrase hpost hsig (sign_eq_ok hplan)
  | removeDevice slot =>
    rw [hverb] at hplan
    exact removeDevice_opens hchain hstate hpassphrase hpost hsig (sign_eq_ok hplan)
  | rotateOperator pubkeyHex =>
    rw [hverb] at hplan
    exact rotateOperator_opens hchain hstate hpassphrase hpost hsig (sign_eq_ok hplan)
  | approveEnroll request =>
    rw [hverb] at hplan
    exact absurd hpost (approveEnroll_posts (sign_eq_ok hplan) draft sig)
  | resetStart slot everyOwnerLost confirm windowSeconds =>
    rw [hverb] at hplan
    exact absurd hpost (resetStart_posts (sign_eq_ok hplan) draft sig)
  | resetArm intentId slot =>
    rw [hverb] at hplan
    exact absurd hpost (resetArm_posts (sign_eq_ok hplan) draft sig)
  | resetAbort intentId =>
    rw [hverb] at hplan
    obtain rfl := Plan.sign.inj (Except.ok.inj hplan)
    cases hpost
  | resetComplete intentId =>
    rw [hverb] at hplan
    exact absurd hpost (resetComplete_posts hplan draft sig)

theorem posted_opens_iff_sample : ∃ (cs : ChainState) (leg : Leg),
    (∃ response s', (handleRequest sampleHost (leg.post "B56mig")).run [] sealedStore =
      .done response s' []) ↔
      Opens sampleHost sealedStore cs [] sampleInvocation.drawn sampleInvocation.verb
        sampleDraft := by
  obtain ⟨⟨leg, hleg⟩, hlegs⟩ := leg_sample
  obtain ⟨hsigned, hpost⟩ := hlegs leg hleg
  obtain ⟨inv, hinv, hplan⟩ := mem_legs.mp hleg
  obtain rfl := List.mem_singleton.mp hinv
  obtain ⟨-, hasked, hopened⟩ := sample_runs
  obtain ⟨_, hopened⟩ := exists_ok hopened
  simp only [checkOpen, Except.bind_eq_ok, ensure_eq_ok] at hopened
  obtain ⟨cs, hdraft, message, hmessage, _, hverify, -⟩ := hopened
  obtain ⟨-, rfl⟩ := draftMessage_eq_ok.mp hmessage
  have hchain := (checkDraft_chain hdraft).1
  rw [asked, chainOf_eq hchain] at hasked
  refine ⟨cs, leg, posted_opens_iff sampleHost sealedStore cs [] sampleInvocation leg sampleDraft
    "B56mig" hchain rfl hplan hpost ?_⟩
  rw [hsigned, ← Option.some.inj hasked]
  exact hverify

end Console
end Recto
