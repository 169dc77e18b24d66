import Recto.Server.Start
import Recto.Server.Respond

/-!
# The owner reset

The passphrase starts a reset; after its window the host arms it, a fresh device
answers the code, and the passphrase completes it over the reset entry. A reset
is aborted in any open state, and a committed one is finished instead.
-/

namespace Recto
namespace Server

open Genesis

variable (env : Host)

/-! ## Start -/

/-- What a start meets before the registry lock. -/
def checkIntent (s : Store) (intent : Intent) (passphraseSig : String) :
    Except Refusal Bytes := do
  let cs ← requireSealed env s false
  demand (intent.bootloaderId = s.config.bootloaderId) 403 "owner_reset_invalid"
  demand (intent.slots ≠ []) 400 "owner_reset_invalid"
  demand (s.clock + s.config.ownerResetWindowSeconds - 60 ≤ intent.notBefore) 403
    "owner_reset_window_short"
  let digest := resetIntentDigest env intent
  demand (verifyPassphrase env cs digest passphraseSig = true) 403 "top_plane_passphrase_invalid"
  pure digest

/-- The phones the reset's slots hold. -/
def Store.heldIn (s : Store) (slots : List OwnerSlot) : List String :=
  ((s.owners.filter fun p => ∃ slot ∈ slots, p.slot = .owner slot).map PhoneRegistration.phoneId)

/-- The phones named lost are among them; for every slot, exactly they. -/
def LostHeld (intent : Intent) (held : List String) : Prop :=
  intent.lost ≠ [] ∧ (∀ ref ∈ intent.lost, ref ∈ held) ∧
    (intent.slots.length = 2 →
      intent.lost.insertionSort (· ≤ ·) = held.insertionSort (· ≤ ·))

instance (intent : Intent) (held : List String) : Decidable (LostHeld intent held) :=
  inferInstanceAs (Decidable (_ ∧ _))

/-- What `_start_reset_locked` meets under the lock. -/
def checkStart (s : Store) (intent : Intent) : Except Refusal Unit := do
  demand (s.isRevoked intent.jti = false ∧ s.getTopPlaneRecord intent.intentId = none) 409
    "owner_reset_spent"
  let committed ← committedReset s s.listResets
  demand (committed = none) 409 "owner_reset_committed"
  demand (¬s.AnyResetOpen) 409 "owner_reset_open"
  demand (LostHeld intent (s.heldIn intent.slots)) 400 "owner_reset_invalid"

/-- The record of a reset that was just started. -/
def Intent.started (intent : Intent) (message : Bytes) (passphraseSig : String)
    (cards : Dict String String) (now : ℤ) : ResetRecord where
  state := .waiting
  intent := intent
  message := message
  passphraseSig := passphraseSig
  cards := cards
  createdUnix := now
  slot := none
  codeHash := none
  codeExpiresAt := 0
  codeAttempts := 0
  challenge := none
  challengeMac := none
  challengeExpiresAt := 0
  fresh := none
  completedSlots := []
  armNonces := []
  abortNonces := []
  cancelledBy := none

/-- `_handle_owner_reset_start`: every owner phone is carded with the cancel. -/
def startReset (intent : Intent) (passphraseSig : String) : Served PUnit := do
  let s ← Faulty.get
  let digest ← Faulty.ofExcept (checkIntent env s intent passphraseSig)
  Faulty.ofExcept (checkStart s intent)
  let cards ← cardDevices env Dict.empty intent.intentId digest
    (max 60 (intent.notBefore - s.clock)) s.owners Dict.empty
  putReset (intent.started digest passphraseSig cards s.clock)

/-! ## The host's legs -/

/-- `_open_reset` -/
def openReset (s : Store) (intentId : String) (states : List ResetState) :
    Except Refusal ResetRecord := do
  match s.getReset intentId with
  | none => .error (.named 404 "owner_reset_unknown")
  | some r =>
      demand (r.state ≠ .cancelled ∧ s.isRevoked r.intent.jti = false) 403 "owner_reset_cancelled"
      demand (r.state ∈ states) 409 "owner_reset_state"
      demand (r.intent.notBefore ≤ s.clock) 403 "owner_reset_early"
      demand (¬r.Expired s.clock) 403 "owner_reset_expired"
      pure r

/-- Which leg a nonce is spent on. -/
inductive Leg where
  | arm
  | abort
  deriving DecidableEq, Repr

def ResetRecord.nonces (r : ResetRecord) : Leg → List String
  | .arm => r.armNonces
  | .abort => r.abortNonces

def ResetRecord.spend (r : ResetRecord) (leg : Leg) (nonce : String) : ResetRecord :=
  match leg with
  | .arm => { r with armNonces := r.armNonces ++ [nonce] }
  | .abort => { r with abortNonces := r.abortNonces ++ [nonce] }

/-- `_spend_leg_nonce`: spent before any state is looked at. -/
def spendLegNonce (intentId : String) (leg : Leg) (nonce : String) :
    Served (Option ResetRecord) := do
  let s ← Faulty.get
  match s.getReset intentId with
  | none => pure none
  | some r =>
      Faulty.ofExcept (demand (nonce ∉ r.nonces leg) 409 "owner_reset_leg_used")
      (putReset (r.spend leg nonce)).handle fun _ =>
        Faulty.raise (.named 503 "owner_reset_store_fault")
      pure (some (r.spend leg nonce))

/-- `leg_freshness` -/
def checkLegFresh (nonce : String) (notAfter now : ℤ) : Except Refusal Unit :=
  demand (freshLeg nonce notAfter now) 400 "owner_reset_leg_stale"

/-! ## Arm -/

/-- What an arm meets before the registry lock. -/
def checkArm (s : Store) (arm : Arm) (passphraseSig : String) : Except Refusal Unit := do
  let cs ← requireSealed env s false
  demand (arm.intentId ≠ "" ∧ arm.slot ≠ "" ∧ arm.nonce ≠ "") 400 "owner_reset_invalid"
  demand (verifyPassphrase env cs (resetArmDigest env arm) passphraseSig = true) 403
    "top_plane_passphrase_invalid"

/-- `_committed_or_unknown`: an advisory reading. -/
def committedOrUnknown (s : Store) (r : ResetRecord) : Except Refusal Bool :=
  match resetEntryOnChain s r with
  | .error (.named _ _) => .ok false
  | x => x

/-- The reset to arm, and the slot. -/
def checkArmed (s : Store) (arm : Arm) (spent : Option ResetRecord) :
    Except Refusal (ResetRecord × OwnerSlot) := do
  checkLegFresh arm.nonce arm.notAfter s.clock
  match spent with
  | some r =>
      if r.state = .registered then
        let committed ← committedOrUnknown s r
        demand (committed = false) 409 "owner_reset_state"
      else pure ()
  | none => pure ()
  let r ← openReset s arm.intentId [.waiting, .armed]
  match OwnerSlot.ofName? arm.slot with
  | none => .error (.named 400 "owner_reset_invalid")
  | some slot =>
      demand (slot ∈ r.intent.slots ∧ slot ∉ r.completedSlots) 400 "owner_reset_invalid"
      demand (¬(r.state = .armed ∧ s.clock < r.codeExpiresAt)) 409 "owner_reset_armed"
      pure (r, slot)

/-- An armed reset, with a live code. -/
def ResetRecord.armed (r : ResetRecord) (slot : OwnerSlot) (codeHash : String) (now : ℤ) :
    ResetRecord :=
  { r with
    state := .armed
    slot := some slot
    codeHash := some codeHash
    codeExpiresAt := now + 600
    challenge := none
    challengeMac := none
    challengeExpiresAt := 0
    fresh := none
    codeAttempts := 0 }

/-- `_handle_owner_reset_arm`: the code, returned only here. -/
def armReset (arm : Arm) (passphraseSig : String) : Served String := do
  let s ← Faulty.get
  Faulty.ofExcept (checkArm env s arm passphraseSig)
  let spent ← spendLegNonce arm.intentId .arm arm.nonce
  let s ← Faulty.get
  let (r, slot) ← Faulty.ofExcept (checkArmed s arm spent)
  let code ← drawCode env
  takeCards r.cards
  putReset (r.armed slot (s.mac env "code" code) s.clock)
  pure code

/-! ## Complete -/

/-- The reset entry of a registered reset. -/
def resetDraft (cs : ChainState) (r : ResetRecord) (fresh : Fresh) (slot : OwnerSlot)
    (value : Bytes) : Draft where
  op := Op.reset.name
  kind := slot.kind
  value := value
  algorithm := fresh.algorithm
  seq := cs.length
  prev := cs.tipHash
  metaText := some (resetMeta r.intent slot r.challenge)

/-- Is the reset registered with its entry on the chain? -/
def committedNow (s : Store) (intentId : String) : Except Refusal (Option ResetRecord) :=
  match s.getReset intentId with
  | some r =>
      if r.state = .registered then do
        let committed ← resetEntryOnChain s r
        pure (if committed then some r else none)
      else .ok none
  | none => .ok none

/-- The entry a completion appends. -/
structure Completion where
  r : ResetRecord
  record : Record

/-- What a completion that is not committed meets. -/
def checkComplete (s : Store) (cs : ChainState) (intentId passphraseSig : String) :
    Except Refusal Completion := do
  let r ← openReset s intentId [.registered]
  let (fresh, slot) ← r.answered
  match unb64u fresh.publicKey with
  | none => .error (.store (.python .valueError))
  | some value =>
      let draft := resetDraft cs r fresh slot value
      let message ← draftMessage env cs draft
      demand (verifyPassphrase env cs message passphraseSig = true) 403
        "top_plane_passphrase_invalid"
      pure ⟨r, recordOf draft [passphraseSig, fresh.proof]⟩

inductive Completed where
  | completed
  /-- The entry is on the chain, and the registry finishes later. -/
  | committed
  deriving DecidableEq, Repr

/-- The entry lands, or the completion is refused. -/
def appendReset (record : Record) : Served ChainState :=
  Faulty.handle (onChain (appendGenesisChainEntry env.toPrimitives record))
    fun e => match e with
      | .store (.chain _) => Faulty.raise (.named 409 "top_plane_chain_refused")
      | e => Faulty.raise e

/-- A reset whose entry is on the chain needs no new signature. -/
def finishCommitted (r : ResetRecord) : Served Completed :=
  Faulty.handle
    (do
      let _ ← finishResetSeat env r none
      pure .completed)
    fun e => match e with
      | .named status error => Faulty.raise (.named status error)
      | _ => pure .committed

/-- `_handle_owner_reset_complete` -/
def completeReset (intentId passphraseSig : String) : Served Completed := do
  let s ← Faulty.get
  let cs ← Faulty.ofExcept (requireSealed env s false)
  match ← Faulty.ofExcept (committedNow s intentId) with
  | some r => finishCommitted env r
  | none =>
      let c ← Faulty.ofExcept (checkComplete env s cs intentId passphraseSig)
      let post ← appendReset env c.record
      Faulty.handle
        (do
          let _ ← finishResetSeat env c.r (some post)
          pure .completed)
        fun _ => pure .committed

/-! ## Abort -/

/-- What an abort meets before the registry lock. -/
def checkAbort (s : Store) (abort : Abort) (passphraseSig : String) : Except Refusal Unit := do
  let cs ← requireSealed env s false
  demand (abort.intentId ≠ "" ∧ abort.nonce ≠ "") 400 "owner_reset_invalid"
  demand (verifyPassphrase env cs (resetAbortDigest env abort) passphraseSig = true) 403
    "top_plane_passphrase_invalid"

inductive Aborted where
  | aborted
  /-- The entry is on the chain, and the registry finishes later. -/
  | committed
  deriving DecidableEq, Repr

/-- The open reset an abort names, and whether its entry is on the chain. -/
def checkAborted (s : Store) (abort : Abort) (spent : Option ResetRecord) :
    Except Refusal (ResetRecord × Bool) := do
  checkLegFresh abort.nonce abort.notAfter s.clock
  match spent with
  | none => .error (.named 404 "owner_reset_unknown")
  | some r =>
      demand r.state.IsOpen 404 "owner_reset_unknown"
      if r.state = .registered then
        let committed ← resetEntryOnChain s r
        pure (r, committed)
      else pure (r, false)

/-- A committed reset is finished, and the abort is told so. -/
def finishAborted (r : ResetRecord) : Served Aborted := do
  let finished ← Faulty.handle
    (do
      let _ ← finishResetSeat env r none
      pure true)
    fun e => match e with
      | .named status error => Faulty.raise (.named status error)
      | _ => pure false
  if finished then Faulty.raise (.named 409 "owner_reset_committed") else pure .committed

def ResetRecord.aborted (r : ResetRecord) : ResetRecord :=
  { r with state := .aborted, codeHash := none, challenge := none, challengeMac := none
           fresh := none }

/-- `_handle_owner_reset_abort` -/
def abortReset (abort : Abort) (passphraseSig : String) : Served Aborted := do
  let s ← Faulty.get
  Faulty.ofExcept (checkAbort env s abort passphraseSig)
  let spent ← spendLegNonce abort.intentId .abort abort.nonce
  let s ← Faulty.get
  match ← Faulty.ofExcept (checkAborted s abort spent) with
  | (r, true) => finishAborted env r
  | (r, false) =>
      takeCards r.cards
      addRevocation (r.intent.revocation "aborted: owner reset, by the passphrase on the host"
        s.clock)
      putReset r.aborted
      pure .aborted

end Server
end Recto
