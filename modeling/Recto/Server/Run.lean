import Recto.Server.Acts
import Recto.Server.Resets

/-!
# Runs

A run is a list of events from a store: requests, starts and the host's own
enrolments, each with the time that passed before it and the faults its writes
meet. It leaves a trace of steps, each with the store before and after it.
-/

namespace Recto
namespace Server

open Genesis

variable (env : Host)

inductive Request where
  | mintCode (ttlSeconds : ℤ)
  | mintMemberCode (ttlSeconds : ℤ) (binding : Option (String × String))
  | plainChallenge
  | redeemCode (code : String) (client : Client)
  | register (reg : Registration)
  | respond (requestId : String) (answer : Answer)
  | openAct (draft : Draft) (passphraseSig : String)
  | signEnroll (requestId signature : String)
  | startReset (intent : Intent) (passphraseSig : String)
  | armReset (arm : Arm) (passphraseSig : String)
  | completeReset (intentId passphraseSig : String)
  | abortReset (abort : Abort) (passphraseSig : String)
  | revoke (r : Revoke)
  deriving DecidableEq

/-- What a served request answers. -/
inductive Response where
  | code (code : String)
  | challenge (challenge : String)
  | registered (r : Registered)
  | responded (r : Responded)
  | opened (actId : String)
  | signed
  | started
  | armed (code : String)
  | completed (c : Completed)
  | aborted (a : Aborted)
  | revoked
  /-- A process started, or the host's enrolment landed. -/
  | done
  deriving DecidableEq

/-- `m`, with its value wrapped as an answer. -/
def answering {α : Type} (wrap : α → Response) (m : Served α) : Served Response := do
  let a ← m
  pure (wrap a)

def handleRequest : Request → Served Response
  | .mintCode ttl => answering .code (issuePairingCode env ttl)
  | .mintMemberCode ttl binding => answering .code (issueMemberPairingCode env ttl binding)
  | .plainChallenge => answering .challenge (issueChallenge env)
  | .redeemCode code client => answering .challenge (redeemCode env code client)
  | .register reg => answering .registered (register env reg)
  | .respond requestId answer => answering .responded (respond env requestId answer)
  | .openAct draft sig => answering .opened (openAct env draft sig)
  | .signEnroll requestId sig => answering (fun _ => .signed) (signEnroll env requestId sig)
  | .startReset intent sig => answering (fun _ => .started) (startReset env intent sig)
  | .armReset arm sig => answering .armed (armReset env arm sig)
  | .completeReset intentId sig => answering .completed (completeReset env intentId sig)
  | .abortReset abort sig => answering .aborted (abortReset env abort sig)
  | .revoke r => answering (fun _ => .revoked) (revoke env r)

inductive Action where
  | request (r : Request)
  /-- A process starts over the store; the one that served it is gone. -/
  | start (launch : Launch)
  /-- `recto vault enrol-member`, on the host. -/
  | enrolMember (record : Record)
  deriving DecidableEq

/-- The host's enrolment adds or removes a member, and carries no meta. -/
def checkEnrolment (record : Record) : Except Refusal Unit :=
  ensure ((record.op = Op.add.name ∨ record.op = Op.remove.name) ∧ record.metaText = none)
    (.bootloader .refused)

def perform : Action → Served Response
  | .request r => do
      let s ← Faulty.get
      Faulty.ofExcept (ensure (s.up = true) (.bootloader .refused))
      handleRequest env r
  | .start launch => answering (fun _ => .done) (start env launch)
  | .enrolMember record => do
      Faulty.ofExcept (checkEnrolment record)
      let _ ← onChain (appendGenesisChainEntry env.toPrimitives record)
      pure .done

structure Event where
  elapsed : ℕ
  faults : List Fault
  action : Action
  deriving DecidableEq

/-- One event: the store it met, and how it ended. -/
structure Step where
  event : Event
  before : Store
  ending : Ending Store Refusal Response

namespace Step

/-- The store an event leaves. A process that stopped serves nothing. -/
def after (step : Step) : Store :=
  match step.ending with
  | .stopped s => { s with up := false }
  | ending => ending.store

/-- The answer of an event that was served. -/
def response? (step : Step) : Option Response :=
  match step.ending with
  | .done a _ _ => some a
  | _ => none

end Step

/-- The store once some time passed. -/
def Store.later (s : Store) (elapsed : ℕ) : Store := { s with clock := s.clock + elapsed }

def serve (s : Store) (event : Event) : Step where
  event := event
  before := s.later event.elapsed
  ending := (perform env event.action).run event.faults (s.later event.elapsed)

/-- The steps of a run, and the store it reaches. -/
def runEvents (s : Store) (events : List Event) : List Step × Store :=
  events.foldl (fun run event => (run.1 ++ [serve env run.2 event], (serve env run.2 event).after))
    ([], s)

@[simp] theorem runEvents_nil (s : Store) : runEvents env s [] = ([], s) := rfl

theorem runEvents_concat (s : Store) (events : List Event) (event : Event) :
    runEvents env s (events ++ [event]) =
      ((runEvents env s events).1 ++ [serve env (runEvents env s events).2 event],
        (serve env (runEvents env s events).2 event).after) := by
  simp [runEvents]

theorem runEvents_append (s : Store) (events more : List Event) :
    runEvents env s (events ++ more) =
      ((runEvents env s events).1 ++ (runEvents env (runEvents env s events).2 more).1,
        (runEvents env (runEvents env s events).2 more).2) := by
  induction more using List.reverseRecOn with
  | nil => simp
  | append_singleton more event ih =>
    rw [← List.append_assoc, runEvents_concat, ih, runEvents_concat, List.append_assoc]

/-- What a step keeps while it meets the condition holds after a run whose steps all do. -/
theorem runEvents_keeps {I : Store → Prop} {C : Step → Prop}
    (hstep : ∀ t event, I t → C (serve env t event) → I (serve env t event).after)
    {s : Store} (hs : I s) :
    ∀ events, (∀ step ∈ (runEvents env s events).1, C step) → I (runEvents env s events).2 := by
  intro events
  induction events using List.reverseRecOn with
  | nil =>
    intro _
    exact hs
  | append_singleton events event ih =>
    intro hsteps
    rw [runEvents_concat] at hsteps ⊢
    exact hstep _ _ (ih fun step h => hsteps step (by simp [h])) (hsteps _ (by simp))

/-- The store before anything was written. -/
def Store.new (clock : ℤ) : Store where
  phones := Dict.empty
  topPlane := Dict.empty
  chain := ChainStore.empty
  ownerGenesis := none
  revocationsFile := Dict.empty
  sessionsFile := Dict.empty
  operatorFile := none
  up := false
  config := ⟨"", none, none, 0, 0, none⟩
  macKey := ""
  revocations := Dict.empty
  sessions := Dict.empty
  pending := Dict.empty
  ownerEnrolls := Dict.empty
  challenges := Dict.empty
  ownerChallenges := Dict.empty
  memberChallenges := Dict.empty
  pairingCodes := Dict.empty
  memberPairingCodes := Dict.empty
  clock := clock
  draws := 0

end Server
end Recto
