import Recto.Pending.Handlers

/-!
# What resolves a card

Along every schedule of polls, answers, revokes and newly queued cards, a card is
resolved no oftener than it was put on the queue, and every resolution follows
the checks of its own answer.
-/

namespace Recto
namespace Pending

open State Serving

/-! ## The queue's balance -/

/-- Every card stands under its own id. -/
def Keyed (queue : Queue) : Prop := ∀ k req, queue.get? k = some req → req.requestId = k

/-- What a keyed queue answers. -/
def FromKeyed : (q : Query) → Answer q → Prop
  | .peekPending k, found => ∀ req, found = some req → req.requestId = k
  | _, _ => True

/-- How often the call puts a card under the id. -/
def addsOf (k : String) : (q : Query) → Answer q → ℕ
  | .addPending req, added => if req.requestId = k ∧ added = some () then 1 else 0
  | _, _ => 0

/-- How often it takes one from there. -/
def takesOf (k : String) : (q : Query) → Answer q → ℕ
  | .takePending requestId, (taken : Option PendingRequest) =>
      if requestId = k ∧ taken.isSome then 1 else 0
  | _, _ => 0

/-- How often it resolves the card of the id. -/
def resolvesOf (k : String) : (q : Query) → Answer q → ℕ
  | .send (.resolved card _), _ => if card.requestId = k then 1 else 0
  | _, _ => 0

/-- How many cards the queue has under the id. -/
def waiting (k : String) (queue : Queue) : ℕ := if k ∈ queue then 1 else 0

section
variable {b : QueueBackend} {k : String} {queue queue' : Queue} {req : PendingRequest}

theorem waiting_le_one : waiting k queue ≤ 1 := by
  unfold waiting
  split_ifs <;> omega

theorem waiting_mono (h : k ∈ queue' → k ∈ queue) : waiting k queue' ≤ waiting k queue := by
  unfold waiting
  split_ifs with h' hk
  · exact le_rfl
  · exact absurd (h h') hk
  · exact Nat.zero_le _
  · exact le_rfl

theorem mem_of_mem_filter {p : String → PendingRequest → Bool} (h : k ∈ queue.filter p) :
    k ∈ queue := by
  obtain ⟨req, hreq⟩ := Dict.mem_iff.mp h
  exact Dict.mem_of_get? (Dict.get?_filter.mp hreq).1

theorem keyed_filter (h : Keyed queue) (p : String → PendingRequest → Bool) :
    Keyed (queue.filter p) := fun k req hreq => h k req (Dict.get?_filter.mp hreq).1

theorem keyed_erase (h : Keyed queue) (k : String) : Keyed (queue.erase k) := by
  intro k' req hreq
  rw [Dict.get?_erase] at hreq
  split_ifs at hreq
  exact h k' req hreq

theorem keyed_set (h : Keyed queue) (req : PendingRequest) :
    Keyed (queue.set req.requestId req) := by
  intro k' req' hreq
  rw [Dict.get?_set] at hreq
  split_ifs at hreq with hk
  · obtain rfl := Option.some.inj hreq
    exact hk.symm
  · exact h k' req' hreq

/-- What a backend's calls do to the queue. -/
structure Keeps (b : QueueBackend) : Prop where
  added : ∀ {queue req queue'}, b.addPending queue req = some queue' →
    queue' = queue.set req.requestId req
  listed : ∀ {queue phoneId now cards queue'},
    b.listPendingForPhone queue phoneId now = some (cards, queue') →
      queue' = purgeExpired queue now ∧
        ∀ req ∈ cards, req ∈ ofPhone (purgeExpired queue now) phoneId
  taken : ∀ queue k, b.takePending queue k = takePending queue k
  peeked : ∀ {queue k req}, b.peekPending queue k = some req → queue.get? k = some req

theorem keeps_of_isBackend (hb : IsBackend b) : Keeps b := by
  rcases hb with rfl | rfl
  · refine ⟨fun h => (Option.some.inj h).symm, fun h => ?_, fun _ _ => rfl, fun h => h⟩
    obtain ⟨rfl, rfl⟩ := Prod.mk.inj (Option.some.inj h)
    exact ⟨rfl, fun req hreq => hreq⟩
  · refine ⟨fun h => ?_, fun h => ?_, fun _ _ => rfl, fun h => by cases h⟩
    · rw [PostgresStateStore.queue] at h
      simp only [Option.ite_none_right_eq_some, Option.some.injEq] at h
      exact h.2.symm
    · rw [PostgresStateStore.queue] at h
      simp only [Option.ite_none_right_eq_some, Option.some.injEq, Prod.mk.injEq] at h
      obtain ⟨-, rfl, rfl⟩ := h
      exact ⟨rfl, fun req hreq => (List.mem_insertionSort _).mp hreq⟩

/-- One call: what it takes and what is left waiting was waiting before or is put there by it. -/
theorem takes_exec (hb : Keeps b) (k : String) (q : Query) (m : Moment) (s : Shared) :
    takesOf k q (exec b q m s).1 + waiting k (exec b q m s).2.queue ≤
      addsOf k q (exec b q m s).1 + waiting k s.queue := by
  cases q with
  | listPending phoneId =>
    simp only [exec, takesOf, addsOf, Nat.zero_add]
    split
    · rename_i cards queue' hlist
      obtain ⟨rfl, -⟩ := hb.listed hlist
      exact waiting_mono mem_of_mem_filter
    · exact le_rfl
  | addPending req =>
    cases hadd : b.addPending s.queue req with
    | none => simp [exec, hadd, takesOf, addsOf]
    | some queue' =>
      obtain rfl := hb.added hadd
      simp only [exec, hadd, takesOf, addsOf, waiting, Dict.mem_set]
      split_ifs <;> simp_all
  | takePending requestId =>
    simp only [exec, takesOf, addsOf, hb.taken, takePending, waiting, Dict.mem_erase]
    by_cases hk : requestId = k
    · subst hk
      cases hget : s.queue.get? requestId with
      | none => simp
      | some req => simp [Dict.mem_of_get? hget]
    · simp [hk, Ne.symm hk]
  | revokePhone phoneId =>
    simp only [exec, takesOf, addsOf, revokePhone, Nat.zero_add]
    split_ifs
    · exact waiting_mono mem_of_mem_filter
    · exact le_rfl
  | _ => simp [exec, takesOf, addsOf]

theorem keyed_exec (hb : Keeps b) (q : Query) (m : Moment) {s : Shared} (h : Keyed s.queue) :
    Keyed (exec b q m s).2.queue := by
  cases q with
  | listPending phoneId =>
    simp only [exec]
    split
    · rename_i cards queue' hlist
      obtain ⟨rfl, -⟩ := hb.listed hlist
      exact keyed_filter h _
    · exact h
  | addPending req =>
    cases hadd : b.addPending s.queue req with
    | none => simpa [exec, hadd] using h
    | some queue' =>
      obtain rfl := hb.added hadd
      simpa [exec, hadd] using keyed_set h req
  | takePending requestId => simpa [exec, hb.taken, takePending] using keyed_erase h requestId
  | revokePhone phoneId =>
    simp only [exec, revokePhone]
    split_ifs
    · exact keyed_filter h _
    · exact h
  | _ => exact h

theorem fromKeyed_exec (hb : Keeps b) (q : Query) (m : Moment) {s : Shared} (h : Keyed s.queue) :
    FromKeyed q (exec b q m s).1 := by
  cases q with
  | peekPending k => exact fun req hreq => h k req (hb.peeked hreq)
  | _ => trivial

end

/-! ## Every schedule -/

/-- A request that queues a card, or one that reads or answers what is queued. -/
inductive Visit where
  | queue (card : PendingRequest)
  | request (request : Request)

namespace Visit

def handler (cfg : Config) : Visit → Handler
  | .queue card => .call (.addPending card) fun (added : Option Unit) =>
      match added with
      | none => refuse 500 "internal"
      | some () => .done ()
  | .request visit => visit.handler cfg

end Visit

section
variable {cfg : Config} {k : String}

/-- A call other than to resolve a card. -/
def ResolvesNone (q : Query) : Prop := ∀ card approved, q ≠ .send (.resolved card approved)

theorem resolvesOf_eq_zero (k : String) (q : Query) (a : Answer q) (h : ResolvesNone q) :
    resolvesOf k q a = 0 := by
  cases q with
  | send reply =>
    cases reply with
    | resolved card approved => exact absurd rfl (h card approved)
    | _ => rfl
  | _ => rfl

/-- The program resolves nothing. -/
abbrev NeverResolves (p : Handler) : Prop :=
  (Monitor.only ResolvesNone : Monitor Query Answer Unit).Obeys (fun _ _ => True) () p

theorem neverResolves_call {q : Query} {next : Answer q → Handler} (hq : ResolvesNone q)
    (h : ∀ a, NeverResolves (next a)) : NeverResolves (.call q next) := ⟨hq, fun a _ => h a⟩

theorem neverResolves_refuse (status : ℕ) (error : String) : NeverResolves (refuse status error) :=
  neverResolves_call (by simp [ResolvesNone]) fun _ => trivial

theorem neverResolves_restampAll {next : List PendingRequest → Handler}
    (h : ∀ cards, NeverResolves (next cards)) (cards stamped : List PendingRequest) :
    NeverResolves (restampAll cfg next cards stamped) := by
  induction cards generalizing stamped with
  | nil => exact h stamped
  | cons req reqs ih =>
    simp only [restampAll]
    split_ifs
    · refine neverResolves_call (by simp [ResolvesNone]) fun now => ?_
      split
      · exact neverResolves_refuse _ _
      · refine neverResolves_call (by simp [ResolvesNone]) fun added => ?_
        cases added with
        | none => exact neverResolves_refuse _ _
        | some _ => exact ih _
    · exact ih _

theorem neverResolves_withdrawAll {next : List PendingRequest → Handler}
    (h : ∀ cards, NeverResolves (next cards)) (cards kept : List PendingRequest) :
    NeverResolves (withdrawAll next cards kept) := by
  induction cards generalizing kept with
  | nil => exact h kept
  | cons req reqs ih =>
    simp only [withdrawAll]
    split
    · exact ih _
    · refine neverResolves_call (by simp [ResolvesNone]) fun now => ?_
      split_ifs
      · exact ih _
      · exact neverResolves_call (by simp [ResolvesNone]) fun _ => ih _

theorem neverResolves_serve (phoneId : String) (cards : List PendingRequest) :
    NeverResolves (serve phoneId cards) := by
  refine neverResolves_call (by simp [ResolvesNone]) fun signed => ?_
  split_ifs
  · exact neverResolves_call (by simp [ResolvesNone]) fun _ => trivial
  · refine neverResolves_call (by simp [ResolvesNone]) fun ownerCards => ?_
    exact neverResolves_call (by simp [ResolvesNone]) fun _ => trivial

theorem neverResolves_handlePending (phoneId : String) :
    NeverResolves (handlePending cfg phoneId) := by
  refine neverResolves_call (by simp [ResolvesNone]) fun phone => ?_
  cases phone with
  | none => exact neverResolves_refuse _ _
  | some phone =>
    refine neverResolves_call (by simp [ResolvesNone]) fun proceeds => ?_
    split_ifs
    · exact neverResolves_refuse _ _
    · refine neverResolves_call (by simp [ResolvesNone]) fun listed => ?_
      cases listed with
      | none => exact neverResolves_refuse _ _
      | some cards =>
        refine neverResolves_restampAll (fun stamped => ?_) _ _
        exact neverResolves_withdrawAll (neverResolves_serve phoneId) _ _

theorem neverResolves_takeAll (requestIds : List String) : NeverResolves (takeAll requestIds) := by
  induction requestIds with
  | nil => trivial
  | cons id ids ih => exact neverResolves_call (by simp [ResolvesNone]) fun _ => ih

theorem neverResolves_queue (card : PendingRequest) :
    NeverResolves (Visit.handler cfg (.queue card)) := by
  refine neverResolves_call (by simp [ResolvesNone]) fun added => ?_
  cases added with
  | none => exact neverResolves_refuse _ _
  | some _ => trivial

theorem neverResolves_revoke (phoneId : String) :
    NeverResolves (Visit.handler cfg (.request (.revoke phoneId))) := by
  refine neverResolves_call (by simp [ResolvesNone]) fun removed => ?_
  exact neverResolves_call (by simp [ResolvesNone]) fun _ => trivial

/-- An answer takes a card of the id before it resolves it. -/
theorem affords_respondOrdinary (k requestId decision signature : String) (credit : ℕ) :
    (respondOrdinary cfg requestId decision signature).Affords FromKeyed (takesOf k) (resolvesOf k)
      credit := by
  have hrefuse : ∀ status error credit, (refuse status error).Affords FromKeyed (takesOf k)
      (resolvesOf k) credit := fun status error credit =>
    .of_only (neverResolves_refuse status error) (resolvesOf_eq_zero k)
  have hresolve : ∀ (req : PendingRequest) approved credit, req.requestId = requestId →
      (resolve requestId req approved).Affords FromKeyed (takesOf k) (resolvesOf k) credit := by
    intro req approved credit hid taken _
    refine ⟨Nat.zero_le _, ?_⟩
    cases taken with
    | none => exact hrefuse _ _ _
    | some taken =>
      refine fun _ _ => ⟨?_, trivial⟩
      simp only [takesOf, resolvesOf, hid]
      split_ifs with hk <;> simp_all
  intro found hfound
  refine ⟨Nat.zero_le _, ?_⟩
  cases found with
  | none => exact hrefuse _ _ _
  | some req =>
    have hid : req.requestId = requestId := hfound req rfl
    simp only
    split_ifs with hdecision hdenied
    · exact hrefuse _ _ _
    · refine fun phone _ => ⟨Nat.zero_le _, ?_⟩
      cases phone with
      | none => exact hrefuse _ _ _
      | some phone =>
        refine fun signed _ => ⟨Nat.zero_le _, ?_⟩
        cases signed with
        | false => exact hrefuse _ _ _
        | true => exact hresolve req false _ hid
    · refine fun phone _ => ⟨Nat.zero_le _, ?_⟩
      cases phone with
      | none => exact hrefuse _ _ _
      | some phone =>
        simp only
        split_ifs
        · exact hresolve req true _ hid
        · exact hrefuse _ _ _

theorem affords_handler (k : String) (visit : Visit) :
    (visit.handler cfg).Affords FromKeyed (takesOf k) (resolvesOf k) 0 := by
  have hnone : ∀ {p : Handler}, NeverResolves p →
      p.Affords FromKeyed (takesOf k) (resolvesOf k) 0 := fun h => .of_only h (resolvesOf_eq_zero k)
  cases visit with
  | queue card => exact hnone (neverResolves_queue card)
  | request visit =>
    cases visit with
    | poll phoneId => exact hnone (neverResolves_handlePending phoneId)
    | revoke phoneId => exact hnone (neverResolves_revoke phoneId)
    | clear requestIds => exact hnone (neverResolves_takeAll requestIds)
    | respond requestId decision signature =>
      refine fun owner _ => ⟨Nat.zero_le _, ?_⟩
      cases owner with
      | ownRecord => trivial
      | ordinary =>
        exact fun _ _ => ⟨Nat.zero_le _, affords_respondOrdinary k requestId decision signature _⟩
      | closedTopPlane =>
        refine fun card _ => ⟨Nat.zero_le _, ?_⟩
        simp only
        split_ifs
        · exact affords_respondOrdinary k requestId decision signature _
        · refine fun taken _ => ⟨Nat.zero_le _, ?_⟩
          exact .of_only (neverResolves_refuse 410 "top_plane_card_expired") (resolvesOf_eq_zero k)

/-! ## What an answer has checked -/

/-- The calls of an answer that resolves the card, from the reading of the card on. -/
def resolvingCalls (requestId : String) (card : PendingRequest) (phone : CardPhone)
    (taken : PendingRequest) (approved : Bool) : List ((q : Query) × Answer q) :=
  [⟨.peekPending requestId, some card⟩, ⟨.getPhone card.phoneId, some phone⟩] ++
    (if approved then [] else [⟨.pollSignatureValid card.phoneId, true⟩]) ++
      [⟨.takePending requestId, some taken⟩, ⟨.send (.resolved card approved), ()⟩]

/-- The answer is one to the card, and what it decides is what the phone has signed. -/
structure Authorises (cfg : Config) (decision signature : String) (card : PendingRequest)
    (phone : CardPhone) (approved : Bool) : Prop where
  decided : decision = if approved then "approved" else "denied"
  signed : approved = true → approvalVerifies cfg card phone signature = true

variable {requestId decision signature : String} {calls : List ((q : Query) × Answer q)}
  {p : Handler} {card : PendingRequest} {approved : Bool} {u : Unit}

theorem not_mem_path (h : NeverResolves p) {p' : Handler} (hpath : Calls.Path p calls p') :
    (⟨.send (.resolved card approved), u⟩ : (q : Query) × Answer q) ∉ calls :=
  fun hmem => hpath.only h _ hmem card approved rfl

/-- A resolution on a path through a call that is not one comes after the call. -/
theorem mem_path_call {q : Query} {next : Answer q → Handler} (hq : ResolvesNone q)
    (hpath : Calls.Path (.call q next) calls p)
    (hmem : (⟨.send (.resolved card approved), u⟩ : (q : Query) × Answer q) ∈ calls) :
    ∃ a rest, calls = ⟨q, a⟩ :: rest ∧ Calls.Path (next a) rest p ∧
      (⟨.send (.resolved card approved), u⟩ : (q : Query) × Answer q) ∈ rest :=
  hpath.mem_call hmem (hq card approved).symm

theorem path_resolve {req : PendingRequest} {approved' : Bool}
    (hpath : Calls.Path (resolve requestId req approved') calls p)
    (hmem : (⟨.send (.resolved card approved), u⟩ : (q : Query) × Answer q) ∈ calls) :
    req = card ∧ approved' = approved ∧ ∃ taken, calls =
      [⟨.takePending requestId, some taken⟩, ⟨.send (.resolved card approved), ()⟩] := by
  obtain ⟨taken, rest, rfl, hrest, hin⟩ := mem_path_call (by simp [ResolvesNone]) hpath hmem
  cases taken with
  | none => exact absurd hin (not_mem_path (neverResolves_refuse _ _) hrest)
  | some taken =>
    obtain rfl | ⟨u', rest', rfl, hrest'⟩ := hrest.call
    · exact absurd hin List.not_mem_nil
    · obtain rfl := hrest'.done
      obtain ⟨hq, -⟩ := Sigma.mk.inj (List.mem_singleton.mp hin)
      obtain ⟨rfl, rfl⟩ := Reply.resolved.inj (Query.send.inj hq)
      exact ⟨rfl, rfl, taken, rfl⟩

theorem path_respondOrdinary
    (hpath : Calls.Path (respondOrdinary cfg requestId decision signature) calls p)
    (hmem : (⟨.send (.resolved card approved), u⟩ : (q : Query) × Answer q) ∈ calls) :
    ∃ phone taken, calls = resolvingCalls requestId card phone taken approved ∧
      Authorises cfg decision signature card phone approved := by
  obtain ⟨found, calls, rfl, hfound, hin⟩ := mem_path_call (by simp [ResolvesNone]) hpath hmem
  cases found with
  | none => exact absurd hin (not_mem_path (neverResolves_refuse _ _) hfound)
  | some req =>
    simp only at hfound
    split_ifs at hfound with hdecision hdenied
    · exact absurd hin (not_mem_path (neverResolves_refuse _ _) hfound)
    · obtain ⟨phone, calls, rfl, hphone, hin'⟩ :=
        mem_path_call (by simp [ResolvesNone]) hfound hin
      cases phone with
      | none => exact absurd hin' (not_mem_path (neverResolves_refuse _ _) hphone)
      | some phone =>
        obtain ⟨signed, calls, rfl, hsigned, hin''⟩ :=
          mem_path_call (by simp [ResolvesNone]) hphone hin'
        cases signed with
        | false => exact absurd hin'' (not_mem_path (neverResolves_refuse _ _) hsigned)
        | true =>
          obtain ⟨rfl, rfl, taken, rfl⟩ := path_resolve hsigned hin''
          exact ⟨phone, taken, rfl, hdenied, by simp⟩
    · obtain ⟨phone, calls, rfl, hphone, hin'⟩ :=
        mem_path_call (by simp [ResolvesNone]) hfound hin
      cases phone with
      | none => exact absurd hin' (not_mem_path (neverResolves_refuse _ _) hphone)
      | some phone =>
        simp only at hphone
        split_ifs at hphone with hverified
        · obtain ⟨rfl, rfl, taken, rfl⟩ := path_resolve hphone hin'
          exact ⟨phone, taken, rfl, by grind, fun _ => hverified⟩
        · exact absurd hin' (not_mem_path (neverResolves_refuse _ _) hphone)

/-- Only an answer to a card resolves one, and before that it has read the card, found the phone,
checked what the phone signed, and taken what stands under the id. -/
theorem path_handler (visit : Visit) (hpath : Calls.Path (visit.handler cfg) calls p)
    (hmem : (⟨.send (.resolved card approved), u⟩ : (q : Query) × Answer q) ∈ calls) :
    ∃ requestId decision signature before phone taken,
      visit = .request (.respond requestId decision signature) ∧
        calls = before ++ resolvingCalls requestId card phone taken approved ∧
          Authorises cfg decision signature card phone approved := by
  cases visit with
  | queue c => exact absurd hmem (not_mem_path (neverResolves_queue c) hpath)
  | request visit =>
    cases visit with
    | poll phoneId => exact absurd hmem (not_mem_path (neverResolves_handlePending phoneId) hpath)
    | revoke phoneId => exact absurd hmem (not_mem_path (neverResolves_revoke phoneId) hpath)
    | clear requestIds => exact absurd hmem (not_mem_path (neverResolves_takeAll requestIds) hpath)
    | respond requestId decision signature =>
      obtain ⟨owner, calls, rfl, howner, hin⟩ := mem_path_call (by simp [ResolvesNone]) hpath hmem
      -- the card is read once to see whose it is, and then the answer starts
      have hordinary : ∀ {found rest}, Calls.Path
          (respondOrdinary cfg requestId decision signature) rest p →
          (⟨.send (.resolved card approved), u⟩ : (q : Query) × Answer q) ∈ rest →
          ∃ before phone taken, ⟨.ownerOfCard requestId, owner⟩ ::
            ⟨.peekPending requestId, found⟩ :: rest =
              before ++ resolvingCalls requestId card phone taken approved ∧
            Authorises cfg decision signature card phone approved := by
        intro found rest hrest hin
        obtain ⟨phone, taken, rfl, hauth⟩ := path_respondOrdinary hrest hin
        exact ⟨[⟨.ownerOfCard requestId, owner⟩, ⟨.peekPending requestId, found⟩], phone, taken,
          rfl, hauth⟩
      cases owner with
      | ownRecord => exact absurd hin (by rw [howner.done]; exact List.not_mem_nil)
      | ordinary =>
        obtain ⟨found, rest, rfl, hrest, hin'⟩ := mem_path_call (by simp [ResolvesNone]) howner hin
        obtain ⟨before, phone, taken, hcalls, hauth⟩ := hordinary hrest hin'
        exact ⟨requestId, decision, signature, before, phone, taken, rfl, hcalls, hauth⟩
      | closedTopPlane =>
        obtain ⟨found, rest, rfl, hrest, hin'⟩ := mem_path_call (by simp [ResolvesNone]) howner hin
        split_ifs at hrest
        · obtain ⟨before, phone, taken, hcalls, hauth⟩ := hordinary hrest hin'
          exact ⟨requestId, decision, signature, before, phone, taken, rfl, hcalls, hauth⟩
        · refine absurd hin' (not_mem_path ?_ hrest)
          exact neverResolves_call (by simp [ResolvesNone]) fun _ => neverResolves_refuse _ _

end

section
variable {ι : Type} [DecidableEq ι] (cfg : Config) (b : QueueBackend) (s : Shared)
  (visits : ι → Visit) (turns : List (ι × Moment))

/-- Requests served by a schedule, all of them from their first call. -/
def served : Server ι := run (exec b) (start s fun i => (visits i).handler cfg) turns

variable {b s}

/-- The cards stand under their ids throughout, so what is read under an id is a card of the id;
and cards are taken from under an id only as far as they were put there. -/
theorem served_balance (cfg : Config) (visits : ι → Visit) (turns : List (ι × Moment))
    (hb : IsBackend b) (hs : Keyed s.queue) (k : String) :
    (∀ e ∈ (served cfg b s visits turns).trace, FromKeyed e.query e.answer) ∧
      (served cfg b s visits turns).total (takesOf k) ≤
        (served cfg b s visits turns).total (addsOf k) + waiting k s.queue := by
  have hkeeps := keeps_of_isBackend hb
  suffices h : Keyed (served cfg b s visits turns).shared.queue ∧
      (∀ e ∈ (served cfg b s visits turns).trace, FromKeyed e.query e.answer) ∧
        (served cfg b s visits turns).total (takesOf k) +
          waiting k (served cfg b s visits turns).shared.queue ≤
            (served cfg b s visits turns).total (addsOf k) + waiting k s.queue by
    refine ⟨h.2.1, ?_⟩
    have := h.2.2
    omega
  refine run_induction (P := fun _ _ => True)
    (motive := fun c : Server ι =>
      Keyed c.shared.queue ∧ (∀ e ∈ c.trace, FromKeyed e.query e.answer) ∧
      c.total (takesOf k) + waiting k c.shared.queue ≤ c.total (addsOf k) + waiting k s.queue)
    ⟨hs, fun e he => absurd he List.not_mem_nil, le_rfl⟩ ?_
    (along_of_mem (R := fun _ => True) fun _ _ => trivial)
  rintro c i m q next hcall ⟨hkeyed, htrace, hbalance⟩ -
  have hstep := takes_exec hkeeps k q m c.shared
  rw [step_call hcall]
  refine ⟨keyed_exec hkeeps q m hkeyed, ?_, ?_⟩
  · intro e he
    rcases List.mem_append.mp he with he | he
    · exact htrace e he
    · obtain rfl := List.mem_singleton.mp he
      exact fromKeyed_exec hkeeps q m hkeyed
  · simp only [total, List.map_append, List.sum_append, List.map_singleton, List.sum_singleton]
      at hbalance ⊢
    omega

/-- However polls, answers, revokes and newly queued cards interleave, a card is resolved no
oftener than it was put on the queue. -/
theorem resolutions_le_queued (cfg : Config) (b : QueueBackend) (hb : IsBackend b) (s : Shared)
    (hs : Keyed s.queue) (visits : ι → Visit) (turns : List (ι × Moment)) (k : String) :
    (served cfg b s visits turns).total (resolvesOf k) ≤
      (served cfg b s visits turns).total (addsOf k) + waiting k s.queue := by
  obtain ⟨hanswers, htakes⟩ := served_balance cfg visits turns hb hs k
  exact (total_le (fun i => affords_handler k (visits i)) hanswers).trans htakes

/-- A card, its phone, and two denials of it that both have a signature. -/
def sampleCard : PendingRequest where
  requestId := "req-1"
  kind := "single_sign"
  secret := "db-password"
  phoneId := "phone-1"
  payloadHashB64u := ""
  requestedAtUnix := 1760000000
  expiresAtUnix := 1760003600
  capHeaderB64 := none
  capPayloadB64 := none
  capGrantTtlSeconds := none
  capWindowStampedAtUnix := none
  rest := []

def sampleShared : Shared where
  queue := Dict.set ∅ "req-1" sampleCard
  phones := Dict.set ∅ "phone-1" ⟨"key-1", "ed25519"⟩

def sampleConfig : Config where
  env := { sha256 := fun _ => [], recoverPublicKey := fun _ _ => none }
  verifySignature _ _ _ _ := false

def sampleVisits (_ : Bool) : Visit := .request (.respond "req-1" "denied" "")

def sampleMoment : Moment where
  now := 1760000100
  pollProceeds := true
  pollSigned := true
  ownerCards := []
  owner := .ordinary

/-- Both read the card before either takes it. -/
def sampleTurns : List (Bool × Moment) :=
  ([true, true, true, false, false, false] ++ List.replicate 4 true ++ List.replicate 4 false).map
    (·, sampleMoment)

theorem keyed_sampleShared : Keyed sampleShared.queue := by
  have hempty : Keyed ∅ := fun k req h => by cases h
  exact keyed_set hempty sampleCard

/-- The first of them to take the card resolves it, and the other is refused. -/
theorem resolutions_le_queued_sample :
    (served sampleConfig StateStore.queue sampleShared sampleVisits sampleTurns).total
        (resolvesOf "req-1") ≤
      (served sampleConfig StateStore.queue sampleShared sampleVisits sampleTurns).total
        (addsOf "req-1") + waiting "req-1" sampleShared.queue :=
  resolutions_le_queued sampleConfig StateStore.queue (.inl rfl) sampleShared keyed_sampleShared
    sampleVisits sampleTurns "req-1"

theorem sample_history :
    (served sampleConfig StateStore.queue sampleShared sampleVisits sampleTurns).history true =
      [⟨.ownerOfCard "req-1", .ordinary⟩, ⟨.peekPending "req-1", some sampleCard⟩] ++
        resolvingCalls "req-1" sampleCard ⟨"key-1", "ed25519"⟩ sampleCard false := by
  rfl

/-- However they interleave, a card is resolved only by an answer to its id that was read as one,
after the phone was found and its signature checked and the card was taken. -/
theorem resolved_authorised (cfg : Config) (b : QueueBackend) (hb : IsBackend b) (s : Shared)
    (hs : Keyed s.queue) (visits : ι → Visit) (turns : List (ι × Moment)) (i : ι)
    (card : PendingRequest) (approved : Bool)
    (h : ⟨.send (.resolved card approved), ()⟩ ∈ (served cfg b s visits turns).history i) :
    ∃ decision signature before phone taken,
      visits i = .request (.respond card.requestId decision signature) ∧
        (served cfg b s visits turns).history i =
          before ++ resolvingCalls card.requestId card phone taken approved ∧
        Authorises cfg decision signature card phone approved := by
  obtain ⟨hanswers, -⟩ := served_balance cfg visits turns hb hs card.requestId
  obtain ⟨requestId, decision, signature, before, phone, taken, hvisit, hcalls, hauth⟩ :=
    path_handler (visits i) (path_history (exec b) (fun i => (visits i).handler cfg) s turns i) h
  have hid : card.requestId = requestId := by
    have hmem : (⟨.peekPending requestId, some card⟩ : (q : Query) × Answer q) ∈
        (served cfg b s visits turns).history i := by
      rw [served, hcalls]
      simp [resolvingCalls]
    obtain ⟨⟨thread, env, query, answer⟩, he, -, heq⟩ := mem_history.mp hmem
    obtain ⟨rfl, hanswer⟩ := Sigma.mk.inj heq
    exact hanswers _ he card (eq_of_heq hanswer)
  subst hid
  exact ⟨decision, signature, before, phone, taken, hvisit, hcalls, hauth⟩

theorem resolved_authorised_sample :
    ∃ decision signature before phone taken,
      sampleVisits true = .request (.respond "req-1" decision signature) ∧
        (served sampleConfig StateStore.queue sampleShared sampleVisits sampleTurns).history true =
          before ++ resolvingCalls "req-1" sampleCard phone taken false ∧
        Authorises sampleConfig decision signature sampleCard phone false :=
  resolved_authorised sampleConfig StateStore.queue (.inl rfl) sampleShared keyed_sampleShared
    sampleVisits sampleTurns true sampleCard false (by
      rw [sample_history]
      simp [resolvingCalls])

end

end Pending
end Recto
