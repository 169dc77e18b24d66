import Mathlib.Data.Rat.Floor
import Recto.Data.Dict
import Recto.Data.SortBy

/-!
# The grant request book

`recto.user_vault.grant_request`: the cards a platform raises on its user's bound
phone. A request lives for a window of whole seconds; a sweep that most methods run
first expires it, and lets a resolved one go a window later.
-/

namespace Recto
namespace UserVault

/-- `REQUEST_WINDOW_SECONDS` -/
def requestWindowSeconds : ℤ := 300

/-- `RAISES_PER_HOUR` -/
def raisesPerHour : ℕ := 10

/-- `ACTION_GRANT` -/
def actionGrant : String := "grant"

/-- `ACTION_REVOKE` -/
def actionRevoke : String := "revoke"

/-- The status of a request. -/
inductive Status where
  | opened
  | admitted
  | denied
  | revoked
  | expired
  deriving DecidableEq, Repr

/-- Whose key a request is for: consumer, subject, agent handle, key. -/
structure RequestSlot where
  consumer : String
  subject : String
  agentHandle : String
  key : String
  deriving DecidableEq, Repr

/-- `GrantRequest`. `object` tells the objects of one book apart. -/
structure GrantRequest where
  object : ℕ
  requestId : String
  action : String
  phoneId : String
  agentId : String
  slot : RequestSlot
  scope : String
  notAfter : ℤ
  requestedAt : ℤ
  expiresAt : ℤ
  purpose : Option String
  agentName : Option String
  grantId : Option String
  admittedAt : Option ℤ
  status : Status := .opened
  resolvedGrantId : Option String := none
  resolvedNotAfter : Option ℤ := none
  deriving DecidableEq, Repr

/-- The arguments of `raise_request`, with the id that the token source gives it. -/
structure Raise where
  requestId : String
  action : String
  phoneId : String
  agentId : String
  slot : RequestSlot
  scope : String
  notAfter : ℤ
  purpose : Option String := none
  agentName : Option String := none
  grantId : Option String := none
  admittedAt : Option ℤ := none
  deriving DecidableEq, Repr

/-- Whose raises are counted together. -/
def Raise.subject (r : Raise) : String × String := (r.slot.consumer, r.slot.subject)

/-- The request that a raise makes. -/
def Raise.request (r : Raise) (object : ℕ) (now : ℤ) : GrantRequest where
  object := object
  requestId := r.requestId
  action := r.action
  phoneId := r.phoneId
  agentId := r.agentId
  slot := r.slot
  scope := r.scope
  notAfter := r.notAfter
  requestedAt := now
  expiresAt := now + requestWindowSeconds
  purpose := r.purpose
  agentName := r.agentName
  grantId := r.grantId
  admittedAt := r.admittedAt

/-- `GrantRequestBook`. `made` counts the request objects made so far. -/
structure RequestBook where
  byId : Dict String GrantRequest
  raises : Dict (String × String) (List ℤ)
  made : ℕ

/-- An empty book. -/
def RequestBook.init : RequestBook := ⟨∅, ∅, 0⟩

/-- `int(clock())` -/
def wholeSeconds (now : ℚ) : ℤ := if 0 ≤ now then ⌊now⌋ else ⌈now⌉

/-- The calls of the book. -/
inductive BookCall where
  | raiseRequest (r : Raise)
  | openForPhone (phoneId : String)
  | get (requestId : String)
  | resolveGrant (slot : RequestSlot) (grantId : String) (notAfter : ℤ)
  | resolveRevoke (grantIds : List String)
  | deny (requestId : String)
  | len
  deriving DecidableEq, Repr

/-- What a call answers; the last two are the refusals of a raise. -/
inductive BookReply where
  | raised (r : GrantRequest)
  | requests (rs : List GrantRequest)
  | found (r : Option GrantRequest)
  | done
  | denied (ok : Bool)
  | count (n : ℕ)
  | rateLimited
  | alreadyOpen
  deriving DecidableEq, Repr

namespace GrantRequest

/-- Open, and past its window: expired. -/
def swept (now : ℤ) (r : GrantRequest) : GrantRequest :=
  if r.status = .opened ∧ r.expiresAt ≤ now then { r with status := .expired } else r

/-- Resolved for a whole window. -/
def forgotten (now : ℤ) (r : GrantRequest) : Bool :=
  decide (r.status ≠ .opened ∧ r.expiresAt + requestWindowSeconds ≤ now)

/-- The text dropped. -/
def silenced (status : Status) (r : GrantRequest) : GrantRequest :=
  { r with status := status, purpose := none, agentName := none }

/-- An open grant request for the slot. -/
def awaitsGrant (slot : RequestSlot) (r : GrantRequest) : Prop :=
  r.status = .opened ∧ r.action = actionGrant ∧ r.slot = slot

instance (slot : RequestSlot) (r : GrantRequest) : Decidable (r.awaitsGrant slot) :=
  inferInstanceAs (Decidable (_ ∧ _ ∧ _))

/-- An open revoke request naming one of the grants. -/
def awaitsRevoke (grantIds : List String) (r : GrantRequest) : Prop :=
  r.status = .opened ∧ r.action = actionRevoke ∧ r.grantId.any (fun g => decide (g ∈ grantIds)) = true

instance (grantIds : List String) (r : GrantRequest) : Decidable (r.awaitsRevoke grantIds) :=
  inferInstanceAs (Decidable (_ ∧ _ ∧ _))

end GrantRequest

namespace RequestBook

/-- `_sweep` -/
def sweep (b : RequestBook) (now : ℤ) : RequestBook :=
  { b with byId := (b.byId.mapValues (GrantRequest.swept now)).filter fun _ r => !r.forgotten now }

/-- The times still counted of a subject's raises, the oldest first. -/
def recentRaises (b : RequestBook) (now : ℤ) (subject : String × String) : List ℤ :=
  ((b.raises.get? subject).getD []).dropWhile fun t => decide (t ≤ now - 3600)

/-- `raise_request` -/
def raiseRequest (b : RequestBook) (now : ℤ) (r : Raise) : RequestBook × BookReply :=
  let b := b.sweep now
  let times := b.recentRaises now r.subject
  let trimmed := { b with raises := b.raises.set r.subject times }
  if raisesPerHour ≤ times.length then (trimmed, .rateLimited)
  else if ∃ other ∈ b.byId.values, other.status = .opened ∧ other.slot = r.slot then
    (trimmed, .alreadyOpen)
  else
    let req := r.request b.made now
    ({ byId := b.byId.set r.requestId req
       raises := b.raises.set r.subject (times ++ [now])
       made := b.made + 1 }, .raised req)

/-- `open_for_phone` -/
def openForPhone (b : RequestBook) (now : ℤ) (phoneId : String) : RequestBook × BookReply :=
  let b := b.sweep now
  (b, .requests (sortBy inferInstance GrantRequest.requestedAt
    (b.byId.values.filter fun r => decide (r.status = .opened ∧ r.phoneId = phoneId))))

/-- `resolve_grant` -/
def resolveGrant (b : RequestBook) (slot : RequestSlot) (grantId : String) (notAfter : ℤ) :
    RequestBook × BookReply :=
  ({ b with byId := b.byId.mapValues fun r =>
      if r.awaitsGrant slot then
        { r.silenced .admitted with resolvedGrantId := some grantId, resolvedNotAfter := some notAfter }
      else r }, .done)

/-- `resolve_revoke` -/
def resolveRevoke (b : RequestBook) (grantIds : List String) : RequestBook × BookReply :=
  ({ b with byId := b.byId.mapValues fun r =>
      if r.awaitsRevoke grantIds then r.silenced .revoked else r }, .done)

/-- `deny` -/
def deny (b : RequestBook) (now : ℤ) (requestId : String) : RequestBook × BookReply :=
  let b := b.sweep now
  match b.byId.get? requestId with
  | none => (b, .denied false)
  | some r =>
      if r.status ≠ .opened then (b, .denied false)
      else ({ b with byId := b.byId.set requestId (r.silenced .denied) }, .denied true)

/-- One call at one moment of the clock. -/
def step (b : RequestBook) (clock : ℚ) : BookCall → RequestBook × BookReply
  | .raiseRequest r => b.raiseRequest (wholeSeconds clock) r
  | .openForPhone phoneId => b.openForPhone (wholeSeconds clock) phoneId
  | .get requestId =>
      let b := b.sweep (wholeSeconds clock)
      (b, .found (b.byId.get? requestId))
  | .resolveGrant slot grantId notAfter => b.resolveGrant slot grantId notAfter
  | .resolveRevoke grantIds => b.resolveRevoke grantIds
  | .deny requestId => b.deny (wholeSeconds clock) requestId
  | .len => (b, .count b.byId.length)

end RequestBook

/-! ## Runs -/

/-- The book, and the raises it accepted: when, and of which subject. -/
structure BookRun where
  book : RequestBook
  raised : List (ℚ × (String × String))

/-- The raise that a call made, from its answer. -/
def acceptedRaise (clock : ℚ) (call : BookCall) (reply : BookReply) :
    List (ℚ × (String × String)) :=
  match call, reply with
  | .raiseRequest r, .raised _ => [(clock, r.subject)]
  | _, _ => []

/-- One call of a run. -/
def BookRun.next (s : BookRun) (entry : ℚ × BookCall) : BookRun :=
  let out := s.book.step entry.1 entry.2
  ⟨out.1, s.raised ++ acceptedRaise entry.1 entry.2 out.2⟩

/-- The book after the calls, each at its moment. -/
def bookRun (calls : List (ℚ × BookCall)) : BookRun := calls.foldl BookRun.next ⟨.init, []⟩

end UserVault
end Recto
