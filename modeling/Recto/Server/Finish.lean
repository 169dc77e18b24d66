import Recto.Server.TopPlane

/-!
# Finishing what the chain committed

An act or a reset is committed when its entry is on the chain. The registry work
that follows is separate, and may be left unfinished by a fault: it is finished
from the record and the chain's evidence, at a repeat or at the next start.
-/

namespace Recto
namespace Server

open Genesis

variable (env : Host)

/-- `PhoneRegistration.new` -/
def PhoneRegistration.new (deviceLabel publicKey : String) (supportedAlgorithms : List String)
    (pushToken pushPlatform pollPublicKey : Option String) (slot : Slot)
    (memberBindings : List (String × String)) (now : ℤ) : PhoneRegistration where
  phoneId := phoneRef env publicKey
  deviceLabel := deviceLabel
  publicKey := publicKey
  supportedAlgorithms := supportedAlgorithms
  registeredAt := now
  lastSeen := now
  pushToken := pushToken
  pushPlatform := pushPlatform
  pollPublicKey := pollPublicKey
  slot := slot
  memberBindings := memberBindings

/-- `_current_chain`: the chain a roll-forward's effects follow. -/
def currentChain (s : Store) : Except Refusal (Option ChainState) :=
  match genesisChainState env.toPrimitives s.chain with
  | .ok cs => .ok cs
  | .error _ => .error chainUnreadable

/-- The state an append returned, or the chain's current one. -/
def chainAfter (post : Option ChainState) (s : Store) : Except Refusal (Option ChainState) :=
  match post with
  | some cs => .ok (some cs)
  | none => currentChain env s

/-- `_is_current_member` -/
def IsCurrentMember (cs : Option ChainState) (publicKey : String) : Prop :=
  ∃ m ∈ (cs.elim Dict.empty ChainState.members).values, b64u m.pubkey = publicKey

instance (cs : Option ChainState) (publicKey : String) : Decidable (IsCurrentMember cs publicKey) :=
  inferInstanceAs (Decidable (∃ m ∈ _, _))

/-- A phone leaves, and its approvals with it. -/
def revokeAndVoid (phoneId : String) : Served PUnit := do
  if ← revokePhone phoneId then voidOwnerEnrollsFor phoneId

/-! ## Resets -/

/-- What the chain's entry of a reset is compared with. -/
structure SeatClaim where
  want : String
  intentId : String
  slot : Option OwnerSlot
  challenge : String
  deriving DecidableEq, Repr

/-- Is the record the reset entry of this claim? One that does not parse is passed over. -/
def SeatClaim.matchedBy (claim : SeatClaim) (record : Record) : Bool :=
  decide (record.op = Op.reset.name ∧ record.pubkey = claim.want) &&
    match Json.loads (record.metaText.getD "") with
    | .ok (.obj fields) =>
        decide (fields.lookup "intent_id" = some (.str claim.intentId)) &&
          decide ((fields.lookup "slot").getD .null = claim.slot.elim .null fun s => .str s.name) &&
          decide (fields.lookup "challenge" = some (.str claim.challenge))
    | _ => false

/-- The claim of a record whose fresh device answered. -/
def ResetRecord.seatClaim (r : ResetRecord) : Except Refusal (Option SeatClaim) :=
  match r.fresh, r.challenge with
  | some fresh, some challenge =>
      if challenge = "" then .ok none
      else match unb64u fresh.publicKey with
        | some raw => .ok (some ⟨hex raw, r.intent.intentId, r.slot, challenge⟩)
        | none => .error (.store (.python .valueError))
  | _, _ => .ok none

/-- `reset_entry_on_chain`: the evidence that a registered reset's entry was appended. -/
def resetEntryOnChain (s : Store) (r : ResetRecord) : Except Refusal Bool := do
  match ← r.seatClaim with
  | none => pure false
  | some claim => pure (s.chain.chain.any claim.matchedBy)

/-- The device and the slot of a reset that is being finished. -/
def ResetRecord.answered (r : ResetRecord) : Except Refusal (Fresh × OwnerSlot) :=
  match r.fresh, r.slot with
  | some fresh, some slot => .ok (fresh, slot)
  | none, _ => .error (.store (.python .typeError))
  | some _, none => .error (.store (.python .keyError))

/-- The registration a reset seats. -/
def Fresh.registration (fresh : Fresh) (slot : OwnerSlot) (now : ℤ) : PhoneRegistration :=
  PhoneRegistration.new env fresh.deviceLabel fresh.publicKey [fresh.algorithm] fresh.pushToken
    fresh.pushPlatform (some fresh.pollPublicKey) (.owner slot) [] now

/-- Is the fresh key the chain's member of the slot's kind? -/
def Fresh.IsSeated (fresh : Fresh) (slot : OwnerSlot) (cs : Option ChainState) : Prop :=
  (cs.bind fun cs => cs.members.get? slot.kind).map (fun m => b64u m.pubkey) = some fresh.publicKey

instance (fresh : Fresh) (slot : OwnerSlot) (cs : Option ChainState) :
    Decidable (fresh.IsSeated slot cs) := inferInstanceAs (Decidable (_ = _))

/-- The fresh device is registered, unless a later entry superseded its seat. -/
def seatFresh (fresh : Fresh) (slot : OwnerSlot) (cs : Option ChainState) :
    Served (Option PhoneRegistration) := do
  let s ← Faulty.get
  if fresh.IsSeated slot cs then
    let reg ← registerPhone (fresh.registration env slot s.clock)
    pure (some reg)
  else pure none

/-- The phones a reset removes from its slot. -/
def ResetRecord.lostIn (r : ResetRecord) (slot : OwnerSlot) (freshRef : Option String) (s : Store) :
    List PhoneRegistration :=
  s.listPhones.filter fun p =>
    p.slot = .owner slot ∧ p.phoneId ∈ r.intent.lost ∧ some p.phoneId ≠ freshRef

/-- A lost phone that is a current member again stays. -/
def revokeLost (cs : Option ChainState) (p : PhoneRegistration) : Served PUnit :=
  if IsCurrentMember cs p.publicKey then pure ⟨⟩ else revokeAndVoid p.phoneId

/-- The record of a reset after a slot was seated. -/
def ResetRecord.finished (r : ResetRecord) (slot : OwnerSlot) : ResetRecord :=
  let done := if slot ∈ r.completedSlots then r.completedSlots else r.completedSlots ++ [slot]
  { r with
    state := if ∀ s ∈ r.intent.slots, s ∈ done then .completed else .waiting
    completedSlots := done
    fresh := none
    challenge := none
    challengeMac := none
    codeHash := none
    codeExpiresAt := 0 }

/-- `finish_reset_seat`: the fresh device is registered first, then the lost phones of the slot
leave, then the record moves on. -/
def finishResetSeat (r : ResetRecord) (post : Option ChainState) :
    Served (Option PhoneRegistration) := do
  let (fresh, slot) ← Faulty.ofExcept r.answered
  let s ← Faulty.get
  let cs ← Faulty.ofExcept (chainAfter env post s)
  let reg ← seatFresh env fresh slot cs
  let s ← Faulty.get
  Faulty.forEach (revokeLost cs) (r.lostIn slot (reg.map PhoneRegistration.phoneId) s)
  putReset (r.finished slot)
  pure reg

/-! ## Acts -/

/-- `act_entry_on_chain`: is the drafted entry on the chain at its seq? -/
def actEntryOnChain (s : Store) (draft : Draft) : Bool :=
  match draft.seq with
  | .ofNat n =>
      match s.chain.chain[n]? with
      | some record => decide (record.op = draft.op ∧ record.kind = draft.kind ∧
          record.pubkey = hex draft.value ∧ record.prev = draft.prev ∧
          record.metaText = draft.metaText)
      | none => false
  | .negSucc _ => false

/-- `put_operator_pubkey` -/
def putOperatorPubkey (pubkey : Bytes) : Served PUnit := do
  if pubkey.length = 64 then
    Faulty.write (fun s => { s with operatorFile := some pubkey }) .osError
  else Faulty.raise (.store (.python .valueError))

/-- A rotation the chain still holds: the running key follows first, and a failed vault write is
logged. -/
def rotateOperator (draft : Draft) (cs : Option ChainState) : Served PUnit := do
  if cs.map (fun cs => (cs.currentOperatorPubkey).getD []) = some draft.value then
    Faulty.modify fun s => { s with config := { s.config with operatorPubkey := some draft.value } }
    (putOperatorPubkey draft.value).handle fun _ => pure ⟨⟩
  else pure ⟨⟩

/-- An approval given before the seal dies with it. -/
def dropUnsealedEnroll (old : OwnerEnroll) : Served PUnit := do
  if old.topPlane = none ∧ (old.state = .pending ∨ old.state = .approved) then
    takeCards old.cards
    let _ ← deleteOwnerEnroll old.requestId
    pure ⟨⟩
  else pure ⟨⟩

/-- The phone a removal names leaves, unless it is a current member again or the approver. -/
def removeDevice (draft : Draft) (cs : Option ChainState) (approver : Option String) :
    Served PUnit := do
  let s ← Faulty.get
  match s.findByPubkey (b64u draft.value) with
  | none => pure ⟨⟩
  | some gone =>
      if IsCurrentMember cs gone.publicKey ∨ some gone.phoneId = approver then pure ⟨⟩
      else revokeAndVoid gone.phoneId

/-- `finish_act` -/
def finishAct (r : ActRecord) (approver : Option String) (post : Option ChainState) :
    Served PUnit := do
  let s ← Faulty.get
  let cs ← Faulty.ofExcept (chainAfter env post s)
  if r.draft.op = Op.rotateOperator.name then rotateOperator r.draft cs else pure ⟨⟩
  if r.draft.op = Op.sealId.name then
    let s ← Faulty.get
    Faulty.forEach dropUnsealedEnroll s.listOwnerEnrolls
  else pure ⟨⟩
  if r.draft.op = Op.remove.name then removeDevice r.draft cs approver else pure ⟨⟩
  putTopPlaneRecord (.act { r with state := .appended })

end Server
end Recto
