import Recto.Pending.Card
import Recto.State.Revocations
import Recto.Data.Threads

/-!
# Polls and answers

`GET /v0.4/pending` and `POST /v0.4/respond/<id>`, as far as they touch the queue.
The calls that they and the removal of a phone make of the state store are one
step each. The two backends differ in the order of a list, in what they refuse to
hold, and in that only the file backend lets a request be read without being
taken. The cards of the owner slots and of the top plane are answered by handlers
of their own, which only take cards.
-/

namespace Recto
namespace Pending

open State Capability

/-- A registered phone, as far as an answer is checked against it. -/
structure CardPhone where
  publicKeyB64u : String
  algorithm : String
  deriving DecidableEq, Repr

abbrev Queue := Dict String PendingRequest

/-- The calls on the queue of a backend; `none` when one raises. -/
structure QueueBackend where
  addPending : Queue → PendingRequest → Option Queue
  listPendingForPhone : Queue → String → ℤ → Option (List PendingRequest × Queue)
  takePending : Queue → String → Option PendingRequest × Queue
  peekPending : Queue → String → Option PendingRequest

def purgeExpired (queue : Queue) (now : ℤ) : Queue := queue.filter fun _ req => now < req.expiresAtUnix

def ofPhone (queue : Queue) (phoneId : String) : List PendingRequest :=
  queue.values.filter fun req => req.phoneId = phoneId

/-- `take_pending`: a bare pop, on either backend. -/
def takePending (queue : Queue) (requestId : String) : Option PendingRequest × Queue :=
  (queue.get? requestId, queue.erase requestId)

def StateStore.queue : QueueBackend where
  addPending queue req := some (queue.set req.requestId req)
  listPendingForPhone queue phoneId now :=
    some (ofPhone (purgeExpired queue now) phoneId, purgeExpired queue now)
  takePending := takePending
  peekPending queue requestId := queue.get? requestId

/-- The table keeps `expires_at_unix` in a bigint, the list casts `requested_at_unix` to one and is
ordered by it, and `peek_pending` is the base class's, which answers `None`. -/
def PostgresStateStore.queue : QueueBackend where
  addPending queue req :=
    if PostgresStateStore.FitsBigint req.expiresAtUnix then some (queue.set req.requestId req)
    else none
  listPendingForPhone queue phoneId now :=
    let rows := ofPhone (purgeExpired queue now) phoneId
    if ∀ req ∈ rows, PostgresStateStore.FitsBigint req.requestedAtUnix then
      some (rows.insertionSort fun a b => a.requestedAtUnix ≤ b.requestedAtUnix,
        purgeExpired queue now)
    else none
  takePending := takePending
  peekPending _ _ := none

def IsBackend (b : QueueBackend) : Prop := b = StateStore.queue ∨ b = PostgresStateStore.queue

/-! ## Calls -/

/-- What a request is answered. -/
inductive Reply where
  | refused (status : ℕ) (error : String)
  | served (cards : List PendingRequest)
  | resolved (card : PendingRequest) (approved : Bool)
  | revoked (removed : Bool)
  deriving DecidableEq, Repr

/-- Whose card an id is, beside the queue. -/
inductive CardOwner where
  | ordinary
  | ownRecord
  | closedTopPlane
  deriving DecidableEq, Repr

/-- What the world supplies for one step. -/
structure Moment where
  now : ℤ
  /-- Whether the poll's headers let it proceed in the mode that is set. -/
  pollProceeds : Bool
  /-- Whether the poll signature verifies. -/
  pollSigned : Bool
  /-- The cards of the owner-slot records. -/
  ownerCards : List String
  owner : CardOwner

structure Shared where
  queue : Queue
  phones : Dict String CardPhone

inductive Query where
  | time
  | getPhone (phoneId : String)
  | checkPollSignature (phoneId : String)
  | pollSignatureValid (phoneId : String)
  | listPending (phoneId : String)
  | addPending (req : PendingRequest)
  | takePending (requestId : String)
  | peekPending (requestId : String)
  | revokePhone (phoneId : String)
  | listOwnerCards
  | ownerOfCard (requestId : String)
  | send (reply : Reply)

/-- What each call answers: `none` for what the store raises. -/
abbrev Answer : Query → Type
  | .time => ℤ
  | .getPhone _ => Option CardPhone
  | .checkPollSignature _ => Bool
  | .pollSignatureValid _ => Bool
  | .listPending _ => Option (List PendingRequest)
  | .addPending _ => Option Unit
  | .takePending _ => Option PendingRequest
  | .peekPending _ => Option PendingRequest
  | .revokePhone _ => Bool
  | .listOwnerCards => List String
  | .ownerOfCard _ => CardOwner
  | .send _ => Unit

abbrev Handler := Calls Query Answer Unit

def refuse (status : ℕ) (error : String) : Handler := .call (.send (.refused status error)) .done

/-- `revoke_phone`: the phone goes, and its requests with it. -/
def revokePhone (phoneId : String) (s : Shared) : Bool × Shared :=
  if phoneId ∈ s.phones then
    (true, { queue := s.queue.filter fun _ req => req.phoneId ≠ phoneId
             phones := s.phones.erase phoneId })
  else (false, s)

/-- One call, at a moment. -/
def exec (b : QueueBackend) (q : Query) (m : Moment) (s : Shared) : Answer q × Shared :=
  match q with
  | .time => (m.now, s)
  | .getPhone phoneId => (s.phones.get? phoneId, s)
  | .checkPollSignature _ => (m.pollProceeds, s)
  | .pollSignatureValid _ => (m.pollSigned, s)
  | .listPending phoneId =>
      match b.listPendingForPhone s.queue phoneId m.now with
      | some (cards, queue) => (some cards, { s with queue })
      | none => (none, s)
  | .addPending req =>
      match b.addPending s.queue req with
      | some queue => (some (), { s with queue })
      | none => (none, s)
  | .takePending requestId =>
      let r := b.takePending s.queue requestId
      (r.1, { s with queue := r.2 })
  | .peekPending requestId => (b.peekPending s.queue requestId, s)
  | .revokePhone phoneId => revokePhone phoneId s
  | .listOwnerCards => (m.ownerCards, s)
  | .ownerOfCard _ => (m.owner, s)
  | .send _ => ((), s)

/-- Requests being served against one queue. -/
abbrev Server (ι : Type) := Serving ι Query Answer Moment Shared Unit

/-! ## Handlers -/

/-- What these handlers read of the process's configuration. -/
structure Config where
  env : TokenPrimitives
  verifySignature : Bytes → String → String → String → Bool

/-! ### The poll -/

/-- `_restamp_grant_window` of every listed card, in turn: the cards as they are from then on. -/
def restampAll (cfg : Config) (next : List PendingRequest → Handler) :
    List PendingRequest → List PendingRequest → Handler
  | [], stamped => next stamped
  | req :: reqs, stamped =>
      if req.needsStamp then .call .time fun (now : ℤ) =>
        match stamp cfg.env now req with
        | .error _ => refuse 400 "bootloader_error"
        | .ok updated => .call (.addPending updated) fun (added : Option Unit) =>
            match added with
            | none => refuse 500 "internal"
            | some () => restampAll cfg next reqs (stamped ++ [updated])
      else restampAll cfg next reqs (stamped ++ [req])

/-- `_withdraw_if_authority_expired` of every card, in turn: the cards that are left. -/
def withdrawAll (next : List PendingRequest → Handler) :
    List PendingRequest → List PendingRequest → Handler
  | [], kept => next kept
  | req :: reqs, kept =>
      match (if req.isCapability then req.authorityExp else none) with
      | none => withdrawAll next reqs (kept ++ [req])
      | some exp => .call .time fun (now : ℤ) =>
          if now < exp then withdrawAll next reqs (kept ++ [req])
          else .call (.takePending req.requestId) fun _ => withdrawAll next reqs kept

def isTopPlane (req : PendingRequest) : Bool := "top-plane:".toList.isPrefixOf (chars req.secret)

/-- The owner cards are served only to a read whose poll signature verifies. -/
def serve (phoneId : String) (cards : List PendingRequest) : Handler :=
  .call (.pollSignatureValid phoneId) fun (signed : Bool) =>
    if signed then .call (.send (.served cards)) .done
    else .call .listOwnerCards fun (ownerCards : List String) =>
      .call (.send (.served (cards.filter fun req =>
        req.requestId ∉ ownerCards ∧ isTopPlane req = false))) .done

/-- `_handle_pending` -/
def handlePending (cfg : Config) (phoneId : String) : Handler :=
  .call (.getPhone phoneId) fun (phone : Option CardPhone) =>
    match phone with
    | none => refuse 404 "unknown_phone"
    | some _ => .call (.checkPollSignature phoneId) fun (proceeds : Bool) =>
        if proceeds = false then refuse 401 "poll_signature_required"
        else .call (.listPending phoneId) fun (listed : Option (List PendingRequest)) =>
          match listed with
          | none => refuse 500 "internal"
          | some cards =>
              restampAll cfg (fun stamped => withdrawAll (serve phoneId) stamped []) cards []

/-! ### The answer -/

/-- The card is taken, and the rest of the handler goes on with the copy that was read. -/
def resolve (requestId : String) (req : PendingRequest) (approved : Bool) : Handler :=
  .call (.takePending requestId) fun (taken : Option PendingRequest) =>
    match taken with
    | none => refuse 404 "request_not_found"
    | some _ => .call (.send (.resolved req approved)) .done

/-- The signature of an approval over the digest of the card that was read. -/
def approvalVerifies (cfg : Config) (req : PendingRequest) (phone : CardPhone) (signature : String) :
    Bool :=
  match unb64u req.payloadHashB64u with
  | some hash => cfg.verifySignature hash signature phone.publicKeyB64u phone.algorithm
  | none => false

/-- `_handle_respond` of an ordinary card. -/
def respondOrdinary (cfg : Config) (requestId decision signature : String) : Handler :=
  .call (.peekPending requestId) fun (found : Option PendingRequest) =>
    match found with
    | none => refuse 404 "request_not_found"
    | some req =>
        if decision ≠ "approved" ∧ decision ≠ "denied" then refuse 400 "bootloader_error"
        else .call (.getPhone req.phoneId) fun (phone : Option CardPhone) =>
          match phone with
          | none => refuse 404 "unknown_phone"
          | some phone =>
              if decision = "denied" then
                .call (.pollSignatureValid req.phoneId) fun (signed : Bool) =>
                  if signed then resolve requestId req false else refuse 401 "response_signature_required"
              else if approvalVerifies cfg req phone signature then resolve requestId req true
              else refuse 400 "bootloader_error"

/-- `_handle_respond`: a card of an owner-slot or top-plane record is its own handler's. -/
def handleRespond (cfg : Config) (requestId decision signature : String) : Handler :=
  .call (.ownerOfCard requestId) fun (owner : CardOwner) =>
    match owner with
    | .ownRecord => .done ()
    | .closedTopPlane => .call (.peekPending requestId) fun (card : Option PendingRequest) =>
        if card.any fun req => isTopPlane req = false then
          respondOrdinary cfg requestId decision signature
        else .call (.takePending requestId) fun _ => refuse 410 "top_plane_card_expired"
    | .ordinary => .call (.peekPending requestId) fun _ =>
        respondOrdinary cfg requestId decision signature

/-! ### Requests -/

/-- A handler of owner-slot or top-plane cards takes the cards of its record. -/
def takeAll : List String → Handler
  | [] => .done ()
  | requestId :: requestIds => .call (.takePending requestId) fun _ => takeAll requestIds

inductive Request where
  | poll (phoneId : String)
  | respond (requestId decision signature : String)
  | revoke (phoneId : String)
  | clear (requestIds : List String)

namespace Request

def handler (cfg : Config) : Request → Handler
  | poll phoneId => handlePending cfg phoneId
  | respond requestId decision signature => handleRespond cfg requestId decision signature
  | revoke phoneId => .call (.revokePhone phoneId) fun (removed : Bool) =>
      .call (.send (.revoked removed)) .done
  | clear requestIds => takeAll requestIds

end Request

end Pending
end Recto
