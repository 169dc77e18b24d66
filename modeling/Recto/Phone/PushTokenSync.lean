import Recto.Capability.Jwt
import Recto.Data.Threads
import Recto.Text.Encoding
import Recto.Text.Handles

/-!
# The push token, kept current

`PushTokenSync`: a sync fetches the phone's push token and sends it when its hash
is not the recorded one; a pairing records what its registration carried. The
bootloader applies registrations and updates in the order they arrive. Syncs
take the gate, pairings do not, and every store access may fail.
-/

namespace Recto
namespace Phone

/-! ## The programs -/

/-- `PushPlatform` -/
inductive PushPlatform where
  | fcm
  | apns
  deriving DecidableEq, Repr

def PushPlatform.name : PushPlatform → String
  | fcm => "fcm"
  | apns => "apns"

/-- `PushToken` -/
structure PushToken where
  token : String
  platform : PushPlatform
  deriving DecidableEq, Repr

/-- What a sync reads of `PairingState`; the bootloader's id is the one of the phone's bootloader. -/
structure PairingState where
  phoneId : String
  bootloaderUrl : String
  deriving DecidableEq, Repr

/-- `PushTokenSyncOutcome` -/
inductive PushTokenSyncOutcome where
  | notPaired
  | fetchFailed
  | noToken
  | unchanged
  | sent
  | sendFailed
  deriving DecidableEq, Repr

/-- A token the bootloader would take: `push_token or None`. -/
def usable (token : Option PushToken) : Option PushToken := token.filter fun t => t.token ≠ ""

/-- What a sync and a pairing call. -/
inductive PushQuery where
  | waitGate
  | fetchToken
  | getLastSentHash (key : String)
  | updatePushToken (phoneId : String) (token : PushToken)
  | setLastSentHash (key hash : String)
  | forget (key : String)
  | register (token : Option PushToken)
  | release (outcome : PushTokenSyncOutcome)
  deriving DecidableEq, Repr

/-- What each call answers: `none` and `false` where it fails or throws. -/
abbrev PushAnswer : PushQuery → Type
  | .waitGate => Bool
  | .fetchToken => Option (Option PushToken)
  | .getLastSentHash _ => Option (Option String)
  | .updatePushToken _ _ => Bool
  | .setLastSentHash _ _ => Bool
  | .forget _ => Bool
  | .register _ => Option String
  | .release _ => Unit

abbrev PushProgram := Calls PushQuery PushAnswer (Option PushTokenSyncOutcome)

section
variable (sha256 : Bytes → Bytes) (bootloaderId : String)

/-- `TokenHash` -/
def tokenHash (token : PushToken) : String :=
  hex (sha256 (utf8 (token.platform.name ++ "\n" ++ token.token)))

/-- `StoreKey` -/
def storeKey (phoneId : String) : String := phoneId ++ "@" ++ bootloaderId

/-- `IsRealPairing` -/
def isRealPairing (paired : PairingState) : Bool :=
  paired.phoneId ≠ "" && bootloaderId ≠ "" && startsWith (lower paired.bootloaderUrl) "http"

/-- The outcome is returned once the gate is given back. -/
def endWith (outcome : PushTokenSyncOutcome) : PushProgram :=
  .call (.release outcome) fun _ => .done (some outcome)

/-- `SyncAsync` -/
def syncAsync (paired : Option PairingState) : PushProgram :=
  match paired.filter (isRealPairing bootloaderId) with
  | none => .done (some .notPaired)
  | some paired => .call .waitGate fun (entered : Bool) =>
      if entered = false then .done (some .fetchFailed)
      else .call .fetchToken fun (fetched : Option (Option PushToken)) =>
        match fetched.map usable with
        | none => endWith .fetchFailed
        | some none => endWith .noToken
        | some (some token) =>
            let key := storeKey bootloaderId paired.phoneId
            let hash := tokenHash sha256 token
            .call (.getLastSentHash key) fun (last : Option (Option String)) =>
              -- A read that throws counts as no record.
              if last.getD none = some hash then endWith .unchanged
              else .call (.updatePushToken paired.phoneId token) fun (updated : Bool) =>
                if updated = false then endWith .sendFailed
                else .call (.setLastSentHash key hash) fun _ => endWith .sent

/-- `RecordRegistrationAsync` -/
def recordRegistrationAsync (paired : PairingState) (token : Option PushToken) : PushProgram :=
  if isRealPairing bootloaderId paired = false then .done none
  else
    let key := storeKey bootloaderId paired.phoneId
    match usable token with
    | none => .call (.forget key) fun _ => .done none
    | some token => .call (.setLastSentHash key (tokenHash sha256 token)) fun _ => .done none

/-- A pairing: the registration, and then its record. -/
def pair (url : String) (token : Option PushToken) : PushProgram :=
  .call (.register token) fun (phoneId : Option String) =>
    match phoneId with
    | none => .done none
    | some phoneId => recordRegistrationAsync sha256 bootloaderId ⟨phoneId, url⟩ token

inductive PushTask where
  | sync (paired : Option PairingState)
  | pair (url : String) (token : Option PushToken)
  deriving DecidableEq, Repr

def PushTask.program : PushTask → PushProgram
  | sync paired => syncAsync sha256 bootloaderId paired
  | pair url token => Phone.pair sha256 bootloaderId url token

end

/-! ## What they share -/

/-- What the world supplies for one call. A request may be applied and its answer still be lost. -/
structure PushMoment where
  cancelled : Bool
  fetched : Option (Option PushToken)
  storeFails : Bool
  applied : Bool
  confirmed : Bool
  phoneId : String
  deriving DecidableEq, Repr

/-- The gate, the phone's records, and what the bootloader holds of each phone it has registered. -/
structure PushState where
  gateTaken : Bool
  sentHashes : String → Option String
  pushTokens : String → Option (Option PushToken)

/-- One call. -/
def pushExec (q : PushQuery) (m : PushMoment) (s : PushState) : PushAnswer q × PushState :=
  match q with
  | .waitGate => if m.cancelled then (false, s) else (true, { s with gateTaken := true })
  | .fetchToken => (m.fetched, s)
  | .getLastSentHash key => (if m.storeFails then none else some (s.sentHashes key), s)
  | .updatePushToken phoneId token =>
      -- `update_phone_push` writes to a phone the bootloader still has, or to none.
      if m.applied ∧ (s.pushTokens phoneId).isSome then
        (m.confirmed, { s with pushTokens := Function.update s.pushTokens phoneId (some (some token)) })
      else (false, s)
  | .setLastSentHash key hash =>
      if m.storeFails then (false, s)
      else (true, { s with sentHashes := Function.update s.sentHashes key (some hash) })
  | .forget key =>
      if m.storeFails then (false, s)
      else (true, { s with sentHashes := Function.update s.sentHashes key none })
  | .register token =>
      if m.applied then
        (if m.confirmed then some m.phoneId else none,
          { s with pushTokens := Function.update s.pushTokens m.phoneId (some (usable token)) })
      else (none, s)
  | .release _ => ((), { s with gateTaken := false })

abbrev PushServing (ι : Type) :=
  Serving ι PushQuery PushAnswer PushMoment PushState (Option PushTokenSyncOutcome)

section
variable {ι : Type} (bootloaderId : String)

/-- A wait is over only when the gate is free, or it was cancelled. -/
def GateKept (c : PushServing ι) (turn : ι × PushMoment) : Prop :=
  c.next? turn.1 = some .waitGate → turn.2.cancelled = true ∨ c.shared.gateTaken = false

instance (c : PushServing ι) (turn : ι × PushMoment) : Decidable (GateKept c turn) :=
  inferInstanceAs (Decidable (_ → _))

/-- What a turn makes the bootloader hold of the phone. -/
def writesToken (phoneId : String) (c : PushServing ι) (turn : ι × PushMoment) :
    Option (Option PushToken) :=
  match c.next? turn.1 with
  | some (.updatePushToken phoneId' token) =>
      if turn.2.applied ∧ (c.shared.pushTokens phoneId').isSome ∧ phoneId' = phoneId then
        some (some token)
      else none
  | some (.register token) =>
      if turn.2.applied ∧ turn.2.phoneId = phoneId then some (usable token) else none
  | _ => none

/-- A turn writes or forgets the record of the phone. -/
def writesRecord (phoneId : String) (c : PushServing ι) (turn : ι × PushMoment) : Bool :=
  match c.next? turn.1 with
  | some (.setLastSentHash key _) =>
      turn.2.storeFails = false && key = storeKey bootloaderId phoneId
  | some (.forget key) => turn.2.storeFails = false && key = storeKey bootloaderId phoneId
  | _ => false

/-- Which call made the bootloader's last write for the phone, and whether the record is still to
follow it. -/
structure PushLedger (ι : Type) where
  writer : Option ι
  owed : Bool
  deriving DecidableEq

variable [DecidableEq ι] (sha256 : Bytes → Bytes)

/-- A write is owed a record while the record names another token, until the call that made the
write has written the record; a record that another call writes settles nothing. -/
def PushLedger.next (phoneId : String) (c : PushServing ι) (turn : ι × PushMoment)
    (l : PushLedger ι) : PushLedger ι :=
  match writesToken phoneId c turn with
  | some token =>
      let record := c.shared.sentHashes (storeKey bootloaderId phoneId)
      ⟨some turn.1, record ≠ none ∧ record ≠ token.map (tokenHash sha256)⟩
  | none =>
      if writesRecord bootloaderId phoneId c turn then ⟨l.writer, l.writer ≠ some turn.1⟩ else l

/-- The ledger of the phone after the turns. -/
def ledgerAfter (phoneId : String) :
    PushLedger ι → PushServing ι → List (ι × PushMoment) → PushLedger ι
  | l, _, [] => l
  | l, c, turn :: turns =>
      ledgerAfter phoneId (l.next bootloaderId sha256 phoneId c turn) (Serving.step pushExec c turn) turns

/-- The turn reads the phone's record, and the run then answers `Unchanged`. -/
def AnswersUnchanged (phoneId : String) (c : PushServing ι) (turn : ι × PushMoment) : Prop :=
  c.next? turn.1 = some (.getLastSentHash (storeKey bootloaderId phoneId)) ∧
    (Serving.step pushExec c turn).next? turn.1 = some (.release .unchanged)

instance (phoneId : String) (c : PushServing ι) (turn : ι × PushMoment) :
    Decidable (AnswersUnchanged bootloaderId phoneId c turn) :=
  inferInstanceAs (Decidable (_ ∧ _))

/-- The token that a fetch gave. -/
def fetchedIn : Event ι PushQuery PushAnswer PushMoment → Option PushToken
  | ⟨_, _, .fetchToken, fetched⟩ => (fetched.map usable).getD none
  | _ => none

/-- The token that the run fetched. -/
def Fetched (c : PushServing ι) (i : ι) (token : PushToken) : Prop :=
  ∃ e ∈ c.trace, e.thread = i ∧ fetchedIn e = some token

instance (c : PushServing ι) (i : ι) (token : PushToken) : Decidable (Fetched c i token) :=
  inferInstanceAs (Decidable (∃ e ∈ _, _))

/-- All calls before their first step, on a phone without records. -/
def servePush (tasks : ι → PushTask) (pushTokens : String → Option (Option PushToken)) :
    PushServing ι :=
  .start ⟨false, fun _ => none, pushTokens⟩ fun i => (tasks i).program sha256 bootloaderId


variable {sha256 : Bytes → Bytes} {bootloaderId : String} {tasks : ι → PushTask}

theorem storeKey_injective : Function.Injective (storeKey bootloaderId) := by
  intro p p' h
  have hchars := congrArg String.toList h
  simp only [storeKey, String.toList_append, List.append_assoc] at hchars
  exact String.toList_inj.mp (List.append_cancel_right hchars)

theorem tokenHash_injective (hsha : Function.Injective sha256) :
    Function.Injective (tokenHash sha256) := by
  rintro ⟨token, platform⟩ ⟨token', platform'⟩ h
  have htexts := congrArg String.toList (utf8_injective (hsha (hex_injective h)))
  cases platform <;> cases platform' <;>
    simp [PushPlatform.name, String.toList_append] at htexts ⊢ <;> exact String.toList_inj.mp htexts

/-! ## What one call may do -/

/-- What a call has done so far: the token it fetched, whether the record names it, whether it made
its request, and what the bootloader confirmed. -/
structure PushStage where
  fetched : Option PushToken
  matched : Bool
  tried : Bool
  left : Option (String × Option PushToken)

/-- A call makes one request, and records only what the bootloader confirmed to it. -/
def pushMonitor (sha256 : Bytes → Bytes) (bootloaderId : String) :
    Monitor PushQuery PushAnswer PushStage where
  allows stage q :=
    match q with
    | .fetchToken => stage.fetched = none
    | .updatePushToken _ _ => stage.tried = false
    | .register _ => stage.tried = false
    | .setLastSentHash key hash => ∃ phoneId token, stage.left = some (phoneId, some token) ∧
        key = storeKey bootloaderId phoneId ∧ hash = tokenHash sha256 token
    | .forget key => ∃ phoneId, stage.left = some (phoneId, none) ∧ key = storeKey bootloaderId phoneId
    | .release outcome => outcome = .unchanged → stage.matched = true
    | _ => True
  answers _ _ := True
  next stage q a :=
    match q, a with
    | .fetchToken, fetched => { stage with fetched := (fetched.map usable).getD none }
    | .getLastSentHash _, last =>
        { stage with matched := stage.fetched.any fun t => last.getD none = some (tokenHash sha256 t) }
    | .updatePushToken phoneId token, updated =>
        { stage with tried := true, left := if updated then some (phoneId, some token) else none }
    | .register token, phoneId =>
        { stage with tried := true, left := phoneId.map fun phoneId => (phoneId, usable token) }
    | _, _ => stage

def PushStage.fresh : PushStage := ⟨none, false, false, none⟩

omit [DecidableEq ι] in
theorem obeys_endWith {stage : PushStage} {outcome : PushTokenSyncOutcome}
    (h : outcome = .unchanged → stage.matched = true) :
    (pushMonitor sha256 bootloaderId).Obeys (fun _ _ => True) stage (endWith outcome) :=
  ⟨h, fun _ _ => trivial⟩

theorem obeys_syncAsync (paired : Option PairingState) :
    (pushMonitor sha256 bootloaderId).Obeys (fun _ _ => True) .fresh
      (syncAsync sha256 bootloaderId paired) := by
  unfold syncAsync
  cases paired.filter (isRealPairing bootloaderId) with
  | none => trivial
  | some paired =>
    refine ⟨trivial, fun (entered : Bool) _ => Monitor.obeys_ite (fun _ => trivial) fun _ =>
      ⟨rfl, fun (fetched : Option (Option PushToken)) _ => ?_⟩⟩
    dsimp only [pushMonitor]
    rcases fetched.map usable with _ | _ | token
    · exact obeys_endWith nofun
    · exact obeys_endWith nofun
    · refine ⟨trivial, fun (last : Option (Option String)) _ => ?_⟩
      refine Monitor.obeys_ite (fun hlast => obeys_endWith fun _ => ?_) fun _ => ?_
      · simpa using hlast
      · refine ⟨rfl, fun (updated : Bool) _ => ?_⟩
        cases updated with
        | false => exact obeys_endWith nofun
        | true => exact ⟨⟨_, token, rfl, rfl, rfl⟩, fun _ _ => obeys_endWith nofun⟩

theorem obeys_pair (url : String) (token : Option PushToken) :
    (pushMonitor sha256 bootloaderId).Obeys (fun _ _ => True) .fresh
      (pair sha256 bootloaderId url token) := by
  refine ⟨rfl, ?_⟩
  rintro (_ | phoneId) -
  · trivial
  · refine Monitor.obeys_ite (fun _ => trivial) fun _ => ?_
    dsimp only [pushMonitor]
    cases husable : usable token with
    | none => exact ⟨⟨phoneId, rfl, rfl⟩, fun _ _ => trivial⟩
    | some token => exact ⟨⟨phoneId, token, rfl, rfl, rfl⟩, fun _ _ => trivial⟩

theorem obeys_program (task : PushTask) :
    (pushMonitor sha256 bootloaderId).Obeys (fun _ _ => True) .fresh
      (task.program sha256 bootloaderId) := by
  cases task with
  | sync paired => exact obeys_syncAsync paired
  | pair url token => exact obeys_pair url token

end
end Phone
end Recto
