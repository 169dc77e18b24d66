import Mathlib.Data.Rat.Lemmas
import Recto.Data.Dict
import Recto.Data.Checked
import Recto.Json.Value

/-!
# The wrong-code limiter

`CodeAttemptLimiter` of the owner slots: failed redemptions of pairing codes over
the public edge, counted per client bucket and per code. Every method trims what
is past its time before it reads or writes. The bucket of a client is a parameter
here; times are exact.
-/

namespace Recto
namespace Codes

/-- `WRONG_CODE_LIMIT` -/
def wrongCodeLimit : ℤ := 5

/-- `WRONG_CODE_WINDOW_SECONDS` -/
def wrongCodeWindowSeconds : ℚ := 900

/-- `WRONG_CODE_PUBLIC_ALERT` -/
def wrongCodePublicAlert : ℕ := 100

/-- `WRONG_CODE_ALERT_INTERVAL_SECONDS` -/
def wrongCodeAlertIntervalSeconds : ℚ := 60

/-- `CODE_PUBLIC_EXPOSURE_BUDGET` -/
def codePublicExposureBudget : ℤ := 1000

/-- `CODE_MAX_TTL_SECONDS` -/
def codeMaxTtlSeconds : ℚ := 3600

/-- `SPENT_CODE_MEMORY_SECONDS` -/
def spentCodeMemorySeconds : ℚ := 3600

/-- The limiter's state. `stampOrder` is the heap, kept in the order its entries come out; a moment
that is still minus infinity is `none`. -/
structure Limiter where
  events : List (ℚ × String)
  counts : Dict String ℤ
  total : ℕ
  marks : List (ℚ × ℕ)
  stamps : Dict String (ℕ × ℚ)
  stampOrder : List (ℚ × String)
  spent : Dict String ℚ
  spentOrder : List (ℚ × String)
  alertedAt : Option ℚ
  refused : ℕ
  refusedAlertedAt : Option ℚ

/-- A new limiter. -/
def Limiter.init : Limiter where
  events := []
  counts := ∅
  total := 0
  marks := []
  stamps := ∅
  stampOrder := []
  spent := ∅
  spentOrder := []
  alertedAt := none
  refused := 0
  refusedAlertedAt := none

/-- The warnings of the codes log. -/
inductive Warning where
  | refused (count : ℕ)
  | guessing (failures clients : ℕ)
  deriving DecidableEq, Repr

/-- What a call answers, and what it logs. -/
structure Reply where
  answer : Option Bool := none
  warning : Option Warning := none
  deriving DecidableEq, Repr

/-- `heapq.heappush`: entries come out by time and then by code. -/
def heapPush (entry : ℚ × String) : List (ℚ × String) → List (ℚ × String)
  | [] => [entry]
  | e :: es =>
      if entry.1 < e.1 ∨ entry.1 = e.1 ∧ entry.2 ≤ e.2 then entry :: e :: es
      else e :: heapPush entry es

/-! ## Trimming -/

/-- The failures up to the horizon leave the deque and the counts. -/
def trimEvents (horizon : ℚ) :
    List (ℚ × String) → Dict String ℤ → Except PyError (List (ℚ × String) × Dict String ℤ)
  | [], counts => .ok ([], counts)
  | (t, bucket) :: events, counts =>
      if t ≤ horizon then
        match counts.get? bucket with
        | none => .error .keyError
        | some n =>
            let left := n - 1
            trimEvents horizon events
              (if left ≠ 0 then counts.set bucket left else counts.erase bucket)
      else .ok ((t, bucket) :: events, counts)

/-- The stamps that are due leave, unless their code was stamped again. -/
def trimStamps (now : ℚ) :
    List (ℚ × String) → Dict String (ℕ × ℚ) → List (ℚ × String) × Dict String (ℕ × ℚ)
  | [], stamps => ([], stamps)
  | (t, code) :: order, stamps =>
      if t ≤ now then
        trimStamps now order
          (if (stamps.get? code).map Prod.snd = some t then stamps.erase code else stamps)
      else ((t, code) :: order, stamps)

/-- The spent codes that are forgotten leave, unless they were spent again. -/
def trimSpent (horizon : ℚ) :
    List (ℚ × String) → Dict String ℚ → List (ℚ × String) × Dict String ℚ
  | [], spent => ([], spent)
  | (t, code) :: order, spent =>
      if t ≤ horizon then
        trimSpent horizon order (if spent.get? code = some t then spent.erase code else spent)
      else ((t, code) :: order, spent)

namespace Limiter

/-- `_trim` -/
def trim (s : Limiter) (now : ℚ) : Except PyError Limiter := do
  let (events, counts) ← trimEvents (now - wrongCodeWindowSeconds) s.events s.counts
  let marks := s.marks.dropWhile fun mark => decide (mark.1 ≤ now - codeMaxTtlSeconds - 60)
  let (stampOrder, stamps) := trimStamps now s.stampOrder s.stamps
  let (spentOrder, spent) := trimSpent (now - spentCodeMemorySeconds) s.spentOrder s.spent
  pure { s with events, counts, marks, stampOrder, stamps, spentOrder, spent }

/-- Enough time has passed since a moment that may never have been. -/
def longSince (now : ℚ) (moment : Option ℚ) : Bool :=
  moment.all fun t => decide (wrongCodeAlertIntervalSeconds ≤ now - t)

/-- `blocked` -/
def blocked (bucket : String → String) (s : Limiter) (now : ℚ) (client : Option String) :
    Except PyError (Limiter × Reply) :=
  match client with
  | none => .ok (s, { answer := some false })
  | some client => do
      let s ← s.trim now
      pure (s, { answer := some (decide (wrongCodeLimit ≤ (s.counts.get? (bucket client)).getD 0)) })

/-- `record_refusal` -/
def recordRefusal (s : Limiter) (now : ℚ) : Limiter × Reply :=
  let refused := s.refused + 1
  if longSince now s.refusedAlertedAt then
    ({ s with refused := 0, refusedAlertedAt := some now }, { warning := some (.refused refused) })
  else ({ s with refused := refused }, {})

/-- `record_failure` -/
def recordFailure (bucket : String → String) (s : Limiter) (now : ℚ) (client : Option String) :
    Except PyError (Limiter × Reply) :=
  match client with
  | none => .ok (s, {})
  | some client => do
      let s ← s.trim now
      let marks :=
        if s.marks.getLast?.all fun mark => decide (60 ≤ now - mark.1) then
          s.marks ++ [(now, s.total)]
        else s.marks
      let bucket := bucket client
      let events := s.events ++ [(now, bucket)]
      let counts := s.counts.set bucket ((s.counts.get? bucket).getD 0 + 1)
      let s := { s with marks, total := s.total + 1, events, counts }
      if wrongCodePublicAlert ≤ events.length ∧ longSince now s.alertedAt = true then
        pure ({ s with alertedAt := some now },
          { warning := some (.guessing events.length counts.length) })
      else pure (s, {})

/-- `stamp` -/
def stamp (s : Limiter) (now : ℚ) (code : String) (expiresAt : Option ℚ) :
    Except PyError (Limiter × Reply) := do
  let s ← s.trim now
  let forget := max (expiresAt.getD (now + codeMaxTtlSeconds)) now + 60
  pure ({ s with
    stamps := s.stamps.set code (s.total, forget)
    stampOrder := heapPush (forget, code) s.stampOrder }, {})

/-- `exposed` -/
def exposed (s : Limiter) (now : ℚ) (code : String) : Except PyError (Limiter × Reply) := do
  let s ← s.trim now
  let base :=
    match s.stamps.get? code with
    | some stamped => stamped.1
    | none =>
        match s.marks with
        | mark :: _ => mark.2
        | [] => s.total
  pure (s, { answer := some (decide (codePublicExposureBudget ≤ (s.total : ℤ) - base)) })

/-- `record_spent` -/
def recordSpent (s : Limiter) (now : ℚ) (code : String) : Limiter × Reply :=
  ({ s with spent := s.spent.set code now, spentOrder := s.spentOrder ++ [(now, code)] }, {})

/-- `was_spent` -/
def wasSpent (s : Limiter) (now : ℚ) (code : String) : Except PyError (Limiter × Reply) := do
  let s ← s.trim now
  pure (s, { answer := some (decide (code ∈ s.spent)) })

end Limiter

/-! ## Runs -/

/-- A call of the limiter. -/
inductive Call where
  | recordFailure (client : Option String)
  | recordRefusal
  | blocked (client : Option String)
  | stamp (code : String) (expiresAt : Option ℚ)
  | exposed (code : String)
  | recordSpent (code : String)
  | wasSpent (code : String)
  deriving DecidableEq, Repr

/-- One call at one moment. -/
def Limiter.step (bucket : String → String) (s : Limiter) (now : ℚ) :
    Call → Except PyError (Limiter × Reply)
  | .recordFailure client => s.recordFailure bucket now client
  | .recordRefusal => .ok (s.recordRefusal now)
  | .blocked client => s.blocked bucket now client
  | .stamp code expiresAt => s.stamp now code expiresAt
  | .exposed code => s.exposed now code
  | .recordSpent code => .ok (s.recordSpent now code)
  | .wasSpent code => s.wasSpent now code

/-- The limiter after the calls, each at its moment. -/
def run (bucket : String → String) (calls : List (ℚ × Call)) : Except PyError Limiter :=
  calls.foldlM (fun s call => (s.step bucket call.1 call.2).map Prod.fst) .init

/-- The clock never goes back. -/
def Nondecreasing (calls : List (ℚ × Call)) : Prop := (calls.map Prod.fst).Pairwise (· ≤ ·)

/-- The public failures among the calls: when, and of which bucket. -/
def failures (bucket : String → String) (calls : List (ℚ × Call)) : List (ℚ × String) :=
  calls.filterMap fun call =>
    match call.2 with
    | .recordFailure (some client) => some (call.1, bucket client)
    | _ => none

end Codes
end Recto
