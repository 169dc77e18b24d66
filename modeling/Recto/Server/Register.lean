import Recto.Server.Finish
import Recto.Server.Challenges

/-!
# Registration

A phone registers on a challenge bought with a code, and the kind of the
challenge decides the plane: a reset's fresh device, a member beside the slots,
or an owner. The owner plane first decides, reading the store alone, and then
acts on what it decided.
-/

namespace Recto
namespace Server

open Genesis

variable (env : Host)

/-- The body of a registration; an absent text and an empty one read alike. -/
structure Registration where
  challenge : String
  signature : String
  publicKey : String
  deviceLabel : Option String
  supportedAlgorithms : List String
  protocol : ℤ
  pushToken : Option String
  pushPlatform : Option String
  pollPublicKey : Option String
  pollKeyDelegation : Option String
  slot : Option String
  slotReplace : Option String
  memberRebind : Option String
  deriving DecidableEq, Repr

/-- `value or None` -/
def orNone (value : Option String) : Option String := value.filter fun s => s ≠ ""

/-- `isspace`, for one character. -/
def isSpace (c : Char) : Bool :=
  let n := c.toNat
  (9 ≤ n && n ≤ 13) || (28 ≤ n && n ≤ 32) || n = 0x85 || n = 0xA0 || n = 0x1680 ||
    (0x2000 ≤ n && n ≤ 0x200A) || n = 0x2028 || n = 0x2029 || n = 0x202F || n = 0x205F || n = 0x3000

/-- `generated_device_label` -/
def generatedDeviceLabel (ref : String) : String :=
  "phone-" ++ String.ofList (((chars ref).drop 3).take 4)

/-- The label of a phone that sends none comes from its own key. -/
def deviceLabelOf (label : Option String) (ref : String) : String :=
  match label with
  | some text =>
      if (chars text).all isSpace ∨ text = "(unnamed)" then generatedDeviceLabel ref else text
  | none => generatedDeviceLabel ref

/-- `_KEY_BYTES` -/
def keyBytes (algorithm : String) : ℕ := if algorithm = "ed25519" then 32 else 64

/-- `_require_canonical_key`: one key, one string. -/
def requireCanonicalKey (publicKey algorithm : String) : Except Refusal Unit :=
  match unb64u publicKey with
  | some raw => ensure (b64u raw = publicKey ∧ raw.length = keyBytes algorithm) (.bootloader .refused)
  | none => .error (.bootloader .refused)

/-- `poll_key_delegation_payload` -/
def pollKeyDelegationPayload (publicKey pollPublicKey : String) : Bytes :=
  utf8 ("recto-poll-key-v1|" ++ publicKey ++ "|" ++ pollPublicKey)

/-- `slot_replace_payload` -/
def slotReplacePayload (slot : OwnerSlot) (occupantRef publicKey : String) : Bytes :=
  utf8 ("recto-slot-replace-v1|" ++ slot.name ++ "|" ++ occupantRef ++ "|" ++ publicKey)

/-- `member_rebind_payload` -/
def memberRebindPayload (binding : String × String) (boundRef publicKey challenge : String) :
    Bytes :=
  utf8 ("recto-member-rebind-v1|" ++ binding.1 ++ "|" ++ binding.2 ++ "|" ++ boundRef ++ "|" ++
    publicKey ++ "|" ++ challenge)

/-! ## The challenge, the proof and the delegation -/

inductive ChallengeKind where
  | reset (r : ResetRecord)
  | member
  | owner
  deriving DecidableEq

/-- `_reset_for_challenge` -/
def Store.resetForChallenge (s : Store) (challenge : String) : Option ResetRecord :=
  if isAscii challenge = false then none
  else s.listResets.find? fun r =>
    r.state = .armed ∧ r.challengeMac = some (s.mac env "challenge" challenge) ∧
      s.clock < r.challengeExpiresAt

def challengeKind (s : Store) (challenge : String) : Except Refusal ChallengeKind :=
  let reset := if (chars resetChallengePrefix).isPrefixOf (chars challenge) then
    s.resetForChallenge env challenge else none
  match reset with
  | some r => .ok (.reset r)
  | none =>
      if s.isMemberChallenge challenge then .ok .member
      else if s.isOwnerChallenge challenge then .ok .owner
      else .error registrationExpired

/-- A registration whose proof and delegation verified. -/
structure Incoming where
  challenge : String
  signature : String
  publicKey : String
  ref : String
  algorithm : String
  supportedAlgorithms : List String
  deviceLabel : String
  pushToken : Option String
  pushPlatform : Option String
  pollPublicKey : String
  deriving DecidableEq, Repr

/-- What holds before any slot question. -/
def admitRegistration (s : Store) (reg : Registration) : Except Refusal (ChallengeKind × Incoming) := do
  let refused := Refusal.bootloader .refused
  let algorithm := reg.supportedAlgorithms.headD ""
  ensure (reg.supportedAlgorithms ≠ []) refused
  ensure (∀ a ∈ reg.supportedAlgorithms, a ∈ supportedAlgorithms) refused
  ensure (reg.protocol = 1) refused
  requireCanonicalKey reg.publicKey algorithm
  let kind ← challengeKind env s reg.challenge
  let proved ← verify env (utf8 reg.challenge) reg.signature reg.publicKey algorithm
  ensure (proved = true) refused
  let pushToken := orNone reg.pushToken
  let pushPlatform := orNone reg.pushPlatform
  ensure (pushToken = none ∨ pushPlatform = some "apns" ∨ pushPlatform = some "fcm") refused
  match orNone reg.pollPublicKey, orNone reg.pollKeyDelegation with
  | some poll, some delegation =>
      requireCanonicalKey poll algorithm
      ensure (poll ≠ reg.publicKey) refused
      let delegated ← verify env (pollKeyDelegationPayload reg.publicKey poll) delegation
        reg.publicKey algorithm
      ensure (delegated = true) refused
      let ref := phoneRef env reg.publicKey
      pure (kind,
        { challenge := reg.challenge, signature := reg.signature, publicKey := reg.publicKey
          ref := ref, algorithm := algorithm, supportedAlgorithms := reg.supportedAlgorithms
          deviceLabel := deviceLabelOf reg.deviceLabel ref, pushToken := pushToken
          pushPlatform := if pushToken = none then none else pushPlatform, pollPublicKey := poll })
  | _, _ => .error refused

/-- `_new(slot, bindings)` -/
def Incoming.registration (inc : Incoming) (slot : Slot) (bindings : List (String × String))
    (now : ℤ) : PhoneRegistration :=
  PhoneRegistration.new env inc.deviceLabel inc.publicKey inc.supportedAlgorithms inc.pushToken
    inc.pushPlatform (some inc.pollPublicKey) slot bindings now

/-- `_new(slot)`: a key that registers again keeps the bindings it holds. -/
def Incoming.again (inc : Incoming) (slot : Slot) (s : Store) : PhoneRegistration :=
  let bindings := ((s.getPhone inc.ref).map PhoneRegistration.memberBindings).getD []
  inc.registration env slot bindings s.clock

/-! ## A reset's fresh device -/

/-- The device that answered is recorded; only the chain seats it. -/
def ResetRecord.answeredBy (r : ResetRecord) (inc : Incoming) : ResetRecord :=
  { r with
    state := .registered
    fresh := some
      { publicKey := inc.publicKey, algorithm := inc.algorithm, proof := inc.signature
        pollPublicKey := inc.pollPublicKey, deviceLabel := inc.deviceLabel
        pushToken := inc.pushToken, pushPlatform := inc.pushPlatform }
    challenge := some inc.challenge
    challengeMac := none
    challengeExpiresAt := 0 }

def registerFresh (r : ResetRecord) (inc : Incoming) : Served PUnit := do
  let s ← Faulty.get
  match s.resetForChallenge env inc.challenge with
  | none => Faulty.raise registrationExpired
  | some current =>
      Faulty.ofExcept (ensure (current.id = r.id) registrationExpired)
      Faulty.ofExcept (ensure (s.ResetOpen current) registrationExpired)
      let cs ← Faulty.ofExcept (chainState env s)
      Faulty.ofExcept (demand (s.getPhone inc.ref = none ∧ ¬IsCurrentMember cs inc.publicKey) 409
        "owner_reset_key_known")
      putReset (current.answeredBy inc)

/-! ## The member plane -/

/-- The phone a key or its ref names. -/
def Store.mine (s : Store) (inc : Incoming) : Option PhoneRegistration :=
  (s.findByPubkey inc.publicKey).or (s.getPhone inc.ref)

/-- A binding held by another phone moves only with that phone's signature. -/
def rebindVerified (inc : Incoming) (binding : String × String) (bound : PhoneRegistration)
    (signature : Option String) : Except Refusal Bool :=
  match orNone signature with
  | none => .ok false
  | some signature =>
      verify env (memberRebindPayload binding bound.phoneId inc.publicKey inc.challenge) signature
        bound.publicKey (registeredAlgorithm bound)

/-- The other phone gives the binding up. -/
def releaseBinding (inc : Incoming) (binding : String × String) (signature : Option String)
    (phones : List PhoneRegistration) : Served PUnit := do
  match phones.find? fun p => binding ∈ p.memberBindings ∧ p.publicKey ≠ inc.publicKey with
  | none => pure ⟨⟩
  | some bound =>
      let moved ← Faulty.ofExcept (rebindVerified env inc binding bound signature)
      Faulty.ofExcept (demand (moved = true) 409 "member_subject_bound")
      let _ ← registerPhone
        { bound with memberBindings := bound.memberBindings.filter fun b => b ≠ binding }
      pure ⟨⟩

/-- A key that holds an owner slot keeps it; every other registers beside the slots. -/
def registerMember (reg : Registration) (inc : Incoming) : Served PhoneRegistration := do
  Faulty.ofExcept (ensure (orNone reg.slotReplace = none) (.bootloader .refused))
  let s ← Faulty.get
  let held := s.mine inc
  match ← consumeMemberChallenge inc.challenge with
  | none => Faulty.raise registrationExpired
  | some binding =>
      let own := (held.map PhoneRegistration.memberBindings).getD []
      Faulty.ofExcept (demand (∀ b ∈ own, b.1 = binding.1 → b.2 = binding.2) 403
        "member_phone_bound_elsewhere")
      releaseBinding env inc binding reg.memberRebind s.listPhones
      registerPhone (inc.registration env ((held.map PhoneRegistration.slot).getD .member)
        (own.filter (fun b => b ≠ binding) ++ [binding]) s.clock)

/-! ## The owner plane: what is decided -/

/-- `OWNER_CONTEST_WINDOW_SECONDS` -/
def ownerContestWindowSeconds : ℤ := 900

/-- `OWNER_CARD_TTL_SECONDS` -/
def ownerCardTtlSeconds : ℤ := 300

/-- What an ask for an owner slot names. -/
structure Ask where
  slot : OwnerSlot
  occupant : Option PhoneRegistration
  approvers : List PhoneRegistration
  sealedChain : Option ChainState

def Ask.occupantRef (ask : Ask) : Option String := ask.occupant.map PhoneRegistration.phoneId

def Ask.approverRefs (ask : Ask) : List String :=
  (ask.approvers.map PhoneRegistration.phoneId).insertionSort (· ≤ ·)

/-- What the owner plane does with a registration. -/
inductive Admission where
  /-- The same key pairs again, into the slot it holds. -/
  | repair (slot : Slot)
  /-- The first owner. -/
  | genesis (slot : OwnerSlot)
  /-- An approval is on file. -/
  | seat (ask : Ask) (entry : OwnerEnroll)
  /-- Another key asked inside the window. -/
  | contested (ask : Ask)
  | ask (ask : Ask)

/-- `body.get("slot") or "primary"` -/
def requestedSlot (slot : Option String) : Except Refusal OwnerSlot :=
  match OwnerSlot.ofName? ((orNone slot).getD OwnerSlot.primary.name) with
  | some slot => .ok slot
  | none => .error (.bootloader .refused)

/-- The first registered reset among `candidates` whose entry is on the chain. -/
def committedReset (s : Store) (candidates : List ResetRecord) : Except Refusal (Option ResetRecord) :=
  (candidates.filter fun r => r.state = .registered).findM? (resetEntryOnChain s)

/-- The occupant a replace claim displaces. -/
def chooseOccupant (inc : Incoming) (slotReplace : Option String) (slot : OwnerSlot)
    (occupants : List PhoneRegistration) : Except Refusal (Option PhoneRegistration) :=
  if occupants = [] then .ok none
  else match orNone slotReplace with
    | none => .error (.named 409 "slot_occupied")
    | some claim => do
        let chosen ← occupants.findM? fun o =>
          verify env (slotReplacePayload slot o.phoneId inc.publicKey) claim inc.publicKey
            inc.algorithm
        ensure (chosen ≠ none) (.bootloader .refused)
        pure chosen

/-- The owner phones an enrollment does not displace; with none, the occupant itself. -/
def approversBeside (owners : List PhoneRegistration) (occupant : Option PhoneRegistration) :
    List PhoneRegistration :=
  let others := owners.filter fun p => some p.phoneId ≠ occupant.map PhoneRegistration.phoneId
  if others = [] then occupant.toList else others

/-- Once the id is sealed, only the sealed device members among them. -/
def approversFor (owners : List PhoneRegistration) (occupant : Option PhoneRegistration)
    (sealedChain : Option ChainState) : Except Refusal (List PhoneRegistration) := do
  let approvers := approversBeside owners occupant
  match sealedChain with
  | none =>
      demand (approvers ≠ []) 403 "no_owner_can_approve"
      pure approvers
  | some cs =>
      let devices := approvers.filter fun p => deviceKindOf cs p ≠ none
      let devices := if devices = [] then
        occupant.toList.filter fun p => deviceKindOf cs p ≠ none else devices
      demand (devices ≠ []) 403 "no_device_member_can_approve"
      pure devices

/-- An approval on file for this key, slot and occupant, given by a phone that is an approver now. -/
def OwnerEnroll.Admits (r : OwnerEnroll) (ask : Ask) (publicKey : String) (now : ℤ) : Prop :=
  r.state = .approved ∧ r.incomingPubkey = publicKey ∧ r.slot = ask.slot ∧
    r.occupantRef = ask.occupantRef ∧ now < r.approvedUntil ∧
    ∃ p ∈ ask.approvers, r.approvedBy = some p.phoneId

instance (r : OwnerEnroll) (ask : Ask) (publicKey : String) (now : ℤ) :
    Decidable (r.Admits ask publicKey now) := inferInstanceAs (Decidable (_ ∧ _))

/-- An approval from before the seal, or without the passphrase's leg, seats no one. -/
def checkApproval (entry : OwnerEnroll) (sealedChain : Option ChainState) : Except Refusal Unit :=
  match entry.topPlane with
  | none => demand (sealedChain.isNone = true) 403 "owner_enroll_from_before_the_seal"
  | some act => demand (orNone act.passphraseSig ≠ none) 403 "owner_passphrase_required"

/-- Another key's request for the slot, inside the contest window. -/
def OwnerEnroll.Rivals (r : OwnerEnroll) (slot : OwnerSlot) (publicKey : String) (now : ℤ) : Prop :=
  r.slot = slot ∧ r.incomingPubkey ≠ publicKey ∧ now - ownerContestWindowSeconds ≤ r.createdUnix

instance (r : OwnerEnroll) (slot : OwnerSlot) (publicKey : String) (now : ℤ) :
    Decidable (r.Rivals slot publicKey now) := inferInstanceAs (Decidable (_ ∧ _))

/-- The ask of a key that holds no slot, while the slot question stands. -/
def askFor (s : Store) (reg : Registration) (inc : Incoming) (slot : OwnerSlot) :
    Except Refusal Ask := do
  demand (∀ r ∈ s.listResets, s.ResetOpen r → slot ∉ r.intent.slots) 409 "owner_reset_open"
  let occupant ← chooseOccupant env inc reg.slotReplace slot
    (s.owners.filter fun p => p.slot = .owner slot)
  let sealedChain ← sealedChainOrNone env s
  let approvers ← approversFor s.owners occupant sealedChain
  pure { slot := slot, occupant := occupant, approvers := approvers, sealedChain := sealedChain }

def ownerAdmission (s : Store) (reg : Registration) (inc : Incoming) : Except Refusal Admission := do
  let slot ← requestedSlot reg.slot
  match s.mine inc with
  | some mine =>
      demand mine.IsOwner 403 "member_key_refused"
      pure (.repair mine.slot)
  | none =>
      let committed ← committedReset s (s.listResets.filter fun r =>
        r.fresh.map Fresh.publicKey = some inc.publicKey)
      demand (committed = none) 409 "owner_reset_committed"
      if s.owners = [] ∧ s.ownerGenesis = some .opened then
        let sealedChain ← sealedChainOrNone env s
        demand (sealedChain.isNone = true) 403 "owner_genesis_sealed"
        pure (.genesis slot)
      else
        let ask ← askFor env s reg inc slot
        match s.listOwnerEnrolls.find? fun r => r.Admits ask inc.publicKey s.clock with
        | some entry =>
            checkApproval entry ask.sealedChain
            pure (.seat ask entry)
        | none =>
            if ∃ r ∈ s.listOwnerEnrolls, r.Rivals slot inc.publicKey s.clock then
              pure (.contested ask)
            else pure (.ask ask)

/-! ## The owner plane: what is done -/

/-- The challenge of this registration, or the refusal of a lapsed one. -/
def spendOwnerChallenge (challenge : String) : Served PUnit := do
  let live ← consumeOwnerChallenge challenge
  Faulty.ofExcept (ensure (live = true) registrationExpired)

/-- The slot entry lands on the chain first. -/
def appendSlotEntry (act : EnrollAct) : Served PUnit :=
  Faulty.handle
    (do
      let _ ← onChain (appendGenesisChainEntry env.toPrimitives
        (recordOf act.draft (act.passphraseSig.toList ++ act.approverSig.toList)))
      pure ⟨⟩)
    fun e => match e with
      | .store (.chain _) => Faulty.raise (.named 409 "top_plane_chain_refused")
      | e => Faulty.raise e

/-- The incoming key takes the slot, in the occupant's place if there is one. -/
def enterSlot (ask : Ask) (inc : Incoming) : Served PhoneRegistration := do
  let s ← Faulty.get
  match ask.occupant with
  | none => registerPhone (inc.again env (.owner ask.slot) s)
  | some occupant =>
      match ← replacePhone occupant.phoneId (inc.again env (.owner ask.slot) s) with
      | none => Faulty.raise (.bootloader .refused)
      | some reg =>
          voidOwnerEnrollsFor occupant.phoneId
          pure reg

def seatOwner (ask : Ask) (entry : OwnerEnroll) (inc : Incoming) : Served PhoneRegistration := do
  spendOwnerChallenge inc.challenge
  let spent ← deleteOwnerEnroll entry.requestId
  Faulty.ofExcept (ensure (spent = true) (.bootloader .refused))
  match entry.topPlane with
  | some act => appendSlotEntry env act
  | none => pure ⟨⟩
  enterSlot env ask inc

/-- `_refuse_owner_enroll` -/
def refuseOwnerEnroll (r : OwnerEnroll) : Served PUnit := do
  takeCards r.cards
  putOwnerEnroll { r with state := .refused }

/-- Every request for the slot inside the window is refused, and the caller's is recorded so. -/
def contestSlot (ask : Ask) (inc : Incoming) : Served PhoneRegistration := do
  let s ← Faulty.get
  Faulty.forEach refuseOwnerEnroll (s.listOwnerEnrolls.filter fun r =>
    r.slot = ask.slot ∧ s.clock - ownerContestWindowSeconds ≤ r.createdUnix)
  let requestId ← drawToken env
  putOwnerEnroll
    { requestId := requestId, cards := Dict.empty, incomingPubkey := inc.publicKey
      incomingRef := inc.ref, slot := ask.slot, approverRefs := ask.approverRefs
      occupantRef := ask.occupantRef, createdUnix := s.clock, notAfter := s.clock
      state := .refused, approvedBy := none, approvedUntil := 0
      expiresAtUnix := s.clock + ownerContestWindowSeconds, topPlane := none }
  let _ ← consumeOwnerChallenge inc.challenge
  Faulty.raise (.named 403 "owner_slot_contested")

/-- `owner_enroll_digest` -/
def ownerEnrollDigest (bootloaderId : String) (slot : OwnerSlot) (incomingPubkey incomingRef
    approverRef : String) (occupantRef : Option String) (requestId : String) (notAfter : ℤ) : Bytes :=
  env.sha256 (utf8 (canonicalMeta
    (.obj [("v", .str "recto-owner-enroll-v1"), ("bootloader_id", .str bootloaderId),
      ("slot", .str slot.name), ("incoming_pubkey", .str incomingPubkey),
      ("incoming_ref", .str incomingRef), ("approver_ref", .str approverRef),
      ("occupant_ref", occupantRef.elim .null .str), ("request_id", .str requestId),
      ("not_after", .int notAfter)])))

/-- The chain entry a sealed slot entry becomes. -/
def slotDraft (cs : ChainState) (slot : OwnerSlot) (inc : Incoming) (nonce : String) (notAfter : ℤ) :
    Draft where
  op := Op.add.name
  kind := slot.kind
  value := (unb64u inc.publicKey).getD []
  algorithm := inc.algorithm
  seq := cs.length
  prev := cs.tipHash
  metaText := some (canonicalMeta (.obj [("nonce", .str nonce), ("not_after", .int notAfter)]))

/-- The act of a slot entry, once the plane is sealed. -/
def slotAct (ask : Ask) (inc : Incoming) (notAfter : ℤ) : Served (Option EnrollAct) := do
  match ask.sealedChain with
  | none => pure none
  | some cs =>
      let nonce ← drawToken env
      let draft := slotDraft cs ask.slot inc nonce notAfter
      let message ← Faulty.ofExcept (draftMessage env cs draft)
      pure (some { draft := draft, message := message, passphraseSig := none, approverSig := none })

/-- One card per approver; its hash is the act's message, or binds all the approval is for. -/
def enrollCards (ask : Ask) (inc : Incoming) (notAfter : ℤ) (act : Option EnrollAct) :
    List PhoneRegistration → Served (List PendingRequest)
  | [] => pure []
  | approver :: approvers => do
      let requestId ← drawToken env
      let s ← Faulty.get
      let digest := match act with
        | some act => act.message
        | none => ownerEnrollDigest env s.config.bootloaderId ask.slot inc.publicKey inc.ref
            approver.phoneId ask.occupantRef requestId notAfter
      let rest ← enrollCards ask inc notAfter act approvers
      pure ({ requestId := requestId, secret := "owner-slot:" ++ ask.slot.name
              phoneId := approver.phoneId, payloadHash := digest, requestedAt := s.clock
              expiresAt := s.clock + ownerCardTtlSeconds } :: rest)

/-- The card dictionary of a record. -/
def cardsOf (cards : List PendingRequest) : Dict String String :=
  cards.foldl (fun d card => d.set card.requestId card.phoneId) Dict.empty

/-- `_queue_owner_enroll` -/
def queueOwnerEnroll (ask : Ask) (inc : Incoming) : Served PUnit := do
  let s ← Faulty.get
  let notAfter := s.clock + ownerCardTtlSeconds
  let requestId ← drawToken env
  let act ← slotAct env ask inc notAfter
  let cards ← enrollCards env ask inc notAfter act ask.approvers
  putOwnerEnroll
    { requestId := requestId, cards := cardsOf cards, incomingPubkey := inc.publicKey
      incomingRef := inc.ref, slot := ask.slot, approverRefs := ask.approverRefs
      occupantRef := ask.occupantRef, createdUnix := s.clock, notAfter := notAfter
      state := .pending, approvedBy := none, approvedUntil := 0
      expiresAtUnix := s.clock + max ownerContestWindowSeconds ownerCardTtlSeconds
      topPlane := act }
  Faulty.forEach addPending cards

/-- `_owner_cards_queued` -/
def Store.OwnerCardsQueued (s : Store) (r : OwnerEnroll) : Prop :=
  ∃ item ∈ r.cards.items, ∃ p ∈ s.listPendingForPhone item.2, p.requestId = item.1

instance (s : Store) (r : OwnerEnroll) : Decidable (s.OwnerCardsQueued r) :=
  inferInstanceAs (Decidable (∃ item ∈ r.cards.items, _))

/-- A pending request is used again only while one of its cards is on a queue. -/
def requestApproval (ask : Ask) (inc : Incoming) : Served PhoneRegistration := do
  spendOwnerChallenge inc.challenge
  let s ← Faulty.get
  let pendingRec := s.listOwnerEnrolls.find? fun r =>
    r.state = .pending ∧ r.incomingPubkey = inc.publicKey ∧ r.slot = ask.slot ∧
      r.occupantRef = ask.occupantRef ∧ r.approverRefs = ask.approverRefs
  match pendingRec with
  | none => queueOwnerEnroll env ask inc
  | some r =>
      if s.OwnerCardsQueued r then pure ⟨⟩
      else
        let _ ← deleteOwnerEnroll r.requestId
        queueOwnerEnroll env ask inc
  Faulty.raise (.named 403 "owner_approval_required")

def registerOwner (reg : Registration) (inc : Incoming) : Served PhoneRegistration := do
  let s ← Faulty.get
  match ← Faulty.ofExcept (ownerAdmission env s reg inc) with
  | .repair slot =>
      spendOwnerChallenge inc.challenge
      registerPhone (inc.again env slot s)
  | .genesis slot =>
      spendOwnerChallenge inc.challenge
      let stored ← registerPhone (inc.again env (.owner slot) s)
      setOwnerGenesis .closed
      pure stored
  | .seat ask entry => seatOwner env ask entry inc
  | .contested ask => contestSlot env ask inc
  | .ask ask => requestApproval env ask inc

/-- What a registration answers. -/
inductive Registered where
  | phone (p : PhoneRegistration)
  /-- The reset waits for the host to complete it. -/
  | resetPending
  deriving DecidableEq

/-- `_handle_register` -/
def register (reg : Registration) : Served Registered := do
  let s ← Faulty.get
  match ← Faulty.ofExcept (admitRegistration env s reg) with
  | (.reset r, inc) =>
      registerFresh env r inc
      pure .resetPending
  | (.member, inc) =>
      let p ← registerMember env reg inc
      pure (.phone p)
  | (.owner, inc) =>
      let p ← registerOwner env reg inc
      pure (.phone p)

end Server
end Recto
