import Recto.Data.Dict
import Recto.Data.Threads
import Recto.Server.TokenCompare
import Recto.Text.Handles

/-!
# Results of resolved cards

What the answer to a card leaves for the agent that asked for it: four families of
results, each stored under the id of its request until it expires or is fetched.
`GET /v0.4/capability/result/<id>` and its three siblings under `/v0.4/profile`
read a result and then take it, in two calls of the store.
-/

namespace Recto
namespace Results

open Server Serving

/-! ## The store -/

inductive Kind where
  | capability
  | profileCreate
  | profileAddDevice
  | profileRevokeDevice
  deriving DecidableEq, Repr

/-- What a result of each family carries beside its status. -/
inductive Outcome where
  | capability (capabilityJws reason : Option String)
  | profileCreate (profileId reason : Option String)
  | profileAddDevice (profileId newPhoneId reason : Option String)
  | profileRevokeDevice (profileId phoneIdRevoked reason : Option String)
  deriving DecidableEq, Repr

namespace Outcome

def kind : Outcome → Kind
  | capability .. => .capability
  | profileCreate .. => .profileCreate
  | profileAddDevice .. => .profileAddDevice
  | profileRevokeDevice .. => .profileRevokeDevice

/-- The fields in the order they are answered. -/
def fields : Outcome → List (String × Option String)
  | capability jws reason => [("capability_jws", jws), ("reason", reason)]
  | profileCreate profileId reason => [("profile_id", profileId), ("reason", reason)]
  | profileAddDevice profileId newPhoneId reason =>
      [("profile_id", profileId), ("new_phone_id", newPhoneId), ("reason", reason)]
  | profileRevokeDevice profileId phoneIdRevoked reason =>
      [("profile_id", profileId), ("phone_id_revoked", phoneIdRevoked), ("reason", reason)]

end Outcome

/-- `CapabilityResult`, `ProfileCreateResult`, `ProfileAddDeviceResult` and
`ProfileRevokeDeviceResult`. -/
structure Result where
  requestId : String
  status : String
  outcome : Outcome
  agentId : Option String
  resolvedAtUnix : ℤ
  expiresAtUnix : ℤ
  deriving DecidableEq, Repr

/-- The results by family and request. -/
abbrev Table := Dict (Kind × String) Result

/-- What a poll is answered of a result. -/
def Result.out (r : Result) : List (String × String) :=
  ("status", r.status) :: r.outcome.fields.filterMap fun f => f.2.map (f.1, ·)

def Result.key (r : Result) : Kind × String := (r.outcome.kind, r.requestId)

/-- The calls of a backend on its results. -/
structure ResultBackend where
  put : Table → Result → ℤ → Table
  get : Table → Kind × String → ℤ → Option Result × Table
  take : Table → Kind × String → ℤ → Option Result × Table

/-- `_purge_expired_capability_results` and its siblings: each purges its own family. -/
def purgeExpired (kind : Kind) (table : Table) (now : ℤ) : Table :=
  table.filter fun key r => key.1 ≠ kind ∨ now < r.expiresAtUnix

def StateStore.results : ResultBackend where
  put table r now := (purgeExpired r.outcome.kind table now).set r.key r
  get table key now := ((purgeExpired key.1 table now).get? key, purgeExpired key.1 table now)
  take table key now :=
    ((purgeExpired key.1 table now).get? key, (purgeExpired key.1 table now).erase key)

/-- One table for the four families: a read purges all of them, and a take deletes the row only
where it has not expired. -/
def PostgresStateStore.results : ResultBackend where
  put table r _ := table.set r.key r
  get table key now :=
    let table := table.filter fun _ r => now < r.expiresAtUnix
    (table.get? key, table)
  take table key now :=
    match table.get? key with
    | some r => if now < r.expiresAtUnix then (some r, table.erase key) else (none, table)
    | none => (none, table)

def IsBackend (b : ResultBackend) : Prop := b = StateStore.results ∨ b = PostgresStateStore.results

/-! ## Calls -/

inductive Reply where
  | refused (status : ℕ) (error : String)
  | pending
  | answered (out : List (String × String))
  deriving DecidableEq, Repr

/-- A card on the queue, as far as a poll reads it. -/
structure QueuedCard where
  requestId : String
  capAgentId : Option String
  deriving DecidableEq, Repr

/-- What the world supplies for one step; the phones and the queue are other handlers' to change. -/
structure Moment where
  now : ℤ
  phones : List String
  pending : String → List QueuedCard

inductive Query where
  | time
  | putResult (r : Result)
  | getResult (key : Kind × String)
  | takeResult (key : Kind × String)
  | listPhones
  | listPending (phoneId : String)
  | send (reply : Reply)

abbrev Answer : Query → Type
  | .time => ℤ
  | .putResult _ => Unit
  | .getResult _ => Option Result
  | .takeResult _ => Option Result
  | .listPhones => List String
  | .listPending _ => List QueuedCard
  | .send _ => Unit

abbrev Handler := Calls Query Answer Unit

/-- One call, at a moment. -/
def exec (b : ResultBackend) (q : Query) (m : Moment) (table : Table) : Answer q × Table :=
  match q with
  | .time => (m.now, table)
  | .putResult r => ((), b.put table r m.now)
  | .getResult key => b.get table key m.now
  | .takeResult key => b.take table key m.now
  | .listPhones => (m.phones, table)
  | .listPending phoneId => (m.pending phoneId, table)
  | .send _ => ((), table)

/-! ## Handlers -/

/-- What these handlers read of the process's configuration. -/
structure Config where
  /-- `capability_agent_tokens` -/
  agentTokens : Dict String String
  /-- `capability_result_ttl_seconds` -/
  resultTtlSeconds : ℤ

def refuse (status : ℕ) (error : String) : Handler := .call (.send (.refused status error)) .done

/-- The sweep of every phone's queue for the id. -/
def sweep (agentId requestId : String) : List String → Handler
  | [] => refuse 404 "request_not_found"
  | phoneId :: phoneIds => .call (.listPending phoneId) fun (cards : List QueuedCard) =>
      match cards.find? fun card => card.requestId = requestId with
      | none => sweep agentId requestId phoneIds
      | some card =>
          if card.capAgentId ≠ some agentId then refuse 404 "request_not_found"
          else .call (.send .pending) .done

/-- The body of the four polls, on the headers of the agent. -/
def handleResult (kind : Kind) (cfg : Config) (requestId agentHeader tokenHeader : String) :
    Handler :=
  if cfg.agentTokens.items = [] then refuse 404 "unknown_endpoint"
  else if strip agentHeader = "" ∨ strip tokenHeader = "" then refuse 401 "agent_auth_required"
  else
    match cfg.agentTokens.get? (strip agentHeader) with
    | none => refuse 401 "agent_auth_failed"
    | some expected =>
        if constantTimeCompare expected (strip tokenHeader) = false then
          refuse 401 "agent_auth_failed"
        else .call (.getResult (kind, requestId)) fun (found : Option Result) =>
          match found with
          | none => .call .listPhones fun (phones : List String) =>
              sweep (strip agentHeader) requestId phones
          | some r =>
              if r.agentId ≠ some (strip agentHeader) then refuse 404 "request_not_found"
              else .call (.takeResult (kind, requestId)) fun _ =>
                .call (.send (.answered r.out)) .done

def handleCapabilityResult : Config → String → String → String → Handler := handleResult .capability

def handleProfileCreateResult : Config → String → String → String → Handler :=
  handleResult .profileCreate

def handleProfileAddDeviceResult : Config → String → String → String → Handler :=
  handleResult .profileAddDevice

def handleProfileRevokeDeviceResult : Config → String → String → String → Handler :=
  handleResult .profileRevokeDevice

/-- `_store_capability_result` and its siblings, each with the outcome of its own family. -/
def storeResult (cfg : Config) (req : QueuedCard) (status : String) (outcome : Outcome) : Handler :=
  .call .time fun (now : ℤ) =>
    .call (.putResult
      { requestId := req.requestId
        status
        outcome
        agentId := req.capAgentId
        resolvedAtUnix := now
        expiresAtUnix := now + max 60 cfg.resultTtlSeconds }) .done

/-- A poll of an agent, or the end of an answer to a card. -/
inductive Visit where
  | poll (kind : Kind) (requestId agentHeader tokenHeader : String)
  | store (req : QueuedCard) (status : String) (outcome : Outcome)

namespace Visit

def handler (cfg : Config) : Visit → Handler
  | poll kind requestId agentHeader tokenHeader =>
      handleResult kind cfg requestId agentHeader tokenHeader
  | store req status outcome => storeResult cfg req status outcome

end Visit

/-! ## What the table holds -/

section
variable {b : ResultBackend} {table : Table} {key k : Kind × String} {r r' : Result} {now : ℤ}

/-- What the calls of a backend answer and keep. -/
structure Lawful (b : ResultBackend) : Prop where
  put : ∀ {table r now k r'}, (b.put table r now).get? k = some r' →
    (k = r.key ∧ r' = r) ∨ table.get? k = some r'
  got : ∀ {table key now r}, (b.get table key now).1 = some r →
    table.get? key = some r ∧ now < r.expiresAtUnix
  get : ∀ {table key now k r'}, (b.get table key now).2.get? k = some r' → table.get? k = some r'
  take : ∀ {table key now k r'}, (b.take table key now).2.get? k = some r' →
    table.get? k = some r' ∧ (k = key → r'.expiresAtUnix ≤ now)

theorem get?_purgeExpired (h : (purgeExpired key.1 table now).get? k = some r) :
    table.get? k = some r ∧ (k.1 = key.1 → now < r.expiresAtUnix) := by
  obtain ⟨hget, hlive⟩ := Dict.get?_filter.mp h
  refine ⟨hget, fun hkind => ?_⟩
  simpa [hkind] using hlive

theorem StateStore.results_lawful : Lawful StateStore.results where
  put := by
    intro table r now k r' h
    change ((purgeExpired r.key.1 table now).set r.key r).get? k = some r' at h
    rw [Dict.get?_set] at h
    split_ifs at h with hk
    · exact .inl ⟨hk, (Option.some.inj h).symm⟩
    · exact .inr (get?_purgeExpired h).1
  got := by
    intro table key now r h
    obtain ⟨hget, hlive⟩ := get?_purgeExpired h
    exact ⟨hget, hlive rfl⟩
  get h := (get?_purgeExpired h).1
  take := by
    intro table key now k r' h
    change ((purgeExpired key.1 table now).erase key).get? k = some r' at h
    rw [Dict.get?_erase] at h
    split_ifs at h with hk
    exact ⟨(get?_purgeExpired h).1, fun heq => absurd heq hk⟩

theorem PostgresStateStore.results_lawful : Lawful PostgresStateStore.results where
  put := by
    intro table r now k r' h
    change (table.set r.key r).get? k = some r' at h
    rw [Dict.get?_set] at h
    split_ifs at h with hk
    · exact .inl ⟨hk, (Option.some.inj h).symm⟩
    · exact .inr h
  got := by
    intro table key now r h
    obtain ⟨hget, hlive⟩ := Dict.get?_filter.mp h
    exact ⟨hget, by simpa using hlive⟩
  get h := (Dict.get?_filter.mp h).1
  take := by
    intro table key now k r' h
    simp only [PostgresStateStore.results] at h
    cases hrow : table.get? key with
    | none =>
      simp only [hrow] at h
      refine ⟨h, ?_⟩
      rintro rfl
      rw [hrow] at h
      cases h
    | some row =>
      simp only [hrow] at h
      split_ifs at h with hlive
      · rw [Dict.get?_erase] at h
        split_ifs at h with hk
        exact ⟨h, fun heq => absurd heq hk⟩
      · refine ⟨h, ?_⟩
        rintro rfl
        obtain rfl := Option.some.inj (hrow.symm.trans h)
        exact not_lt.mp hlive

theorem lawful_of_isBackend (hb : IsBackend b) : Lawful b := by
  rcases hb with rfl | rfl
  · exact StateStore.results_lawful
  · exact PostgresStateStore.results_lawful

end

/-! ## Over every schedule -/

section
variable {ι : Type}

/-- The result was stored under the key, and no take of the key since then was made before it
expired. -/
def Stored (before : List (Event ι Query Answer Moment)) (k : Kind × String) (r : Result) : Prop :=
  r.key = k ∧ ∃ pre e post, before = pre ++ e :: post ∧ e.query = .putResult r ∧
    ∀ e' ∈ post, e'.query = .takeResult k → r.expiresAtUnix ≤ e'.env.now

variable {before : List (Event ι Query Answer Moment)} {e : Event ι Query Answer Moment}
  {k : Kind × String} {r : Result}

theorem Stored.concat (h : Stored before k r)
    (htake : e.query = .takeResult k → r.expiresAtUnix ≤ e.env.now) :
    Stored (before ++ [e]) k r := by
  obtain ⟨hkey, pre, put, post, rfl, hput, hpost⟩ := h
  refine ⟨hkey, pre, put, post ++ [e], by simp, hput, fun e' he' hquery => ?_⟩
  rcases List.mem_append.mp he' with he' | he'
  · exact hpost e' he' hquery
  · obtain rfl := List.mem_singleton.mp he'
    exact htake hquery

theorem Stored.put (h : e.query = .putResult r) : Stored (before ++ [e]) r.key r :=
  ⟨rfl, before, e, [], rfl, h, fun _ he => absurd he List.not_mem_nil⟩

variable [DecidableEq ι] {b : ResultBackend} {program : ι → Handler}
  {turns : List (ι × Moment)}

/-- What the table holds was stored and is not taken yet, and so was what any read has answered,
which had not expired. -/
theorem table_stored (hb : Lawful b) :
    (∀ k r, (run (exec b) (start ∅ program) turns).shared.get? k = some r →
      Stored (run (exec b) (start ∅ program) turns).trace k r) ∧
    ∀ before e after k r, (run (exec b) (start ∅ program) turns).trace = before ++ e :: after →
      e.call = ⟨.getResult k, some r⟩ → Stored before k r ∧ e.env.now < r.expiresAtUnix := by
  refine run_induction (P := fun _ _ => True)
    (motive := fun c : Serving ι Query Answer Moment Table Unit =>
      (∀ k r, c.shared.get? k = some r → Stored c.trace k r) ∧
      ∀ before e after k r, c.trace = before ++ e :: after → e.call = ⟨.getResult k, some r⟩ →
        Stored before k r ∧ e.env.now < r.expiresAtUnix)
    ⟨fun k r h => ?_, fun before e after k r h => ?_⟩ ?_
    (along_of_mem (R := fun _ => True) fun _ _ => trivial)
  · cases h
  · exact absurd h.symm (by simp [start])
  rintro c i m q next hcall ⟨htable, hreads⟩ -
  rw [step_call hcall]
  refine ⟨fun k r hget => ?_, fun before e after k r htrace he => ?_⟩
  · cases q with
    | putResult r' =>
      rcases hb.put hget with ⟨rfl, rfl⟩ | hold
      · exact .put rfl
      · exact (htable k r hold).concat nofun
    | getResult key => exact (htable k r (hb.get hget)).concat nofun
    | takeResult key =>
      obtain ⟨hold, htake⟩ := hb.take hget
      refine (htable k r hold).concat fun hquery => htake ?_
      exact (Query.takeResult.inj hquery).symm
    | _ => exact (htable k r hget).concat nofun
  · rcases eq_or_of_concat_eq htrace with ⟨rfl, rfl, rfl⟩ | ⟨after', rfl, hbefore⟩
    · obtain ⟨rfl, hanswer⟩ := Sigma.mk.inj he
      obtain ⟨hget, hlive⟩ := hb.got (eq_of_heq hanswer)
      exact ⟨htable k r hget, hlive⟩
    · exact hreads before e after' k r hbefore he

/-- Once a poll has taken a result, no read of it after that is answered with one, unless one was
stored in between. -/
theorem fetched_once (b : ResultBackend) (hb : IsBackend b) (program : ι → Handler)
    (turns : List (ι × Moment)) (before mid after : List (Event ι Query Answer Moment))
    (taken read : Event ι Query Answer Moment) (k : Kind × String) (r : Result)
    (htrace : (run (exec b) (start ∅ program) turns).trace =
      before ++ taken :: mid ++ read :: after)
    (htaken : taken.query = .takeResult k) (hread : read.call = ⟨.getResult k, some r⟩)
    (hclock : taken.env.now ≤ read.env.now) :
    ∃ e ∈ mid, e.query = .putResult r := by
  obtain ⟨⟨-, pre, put, post, hput, hquery, hpost⟩, hlive⟩ :=
    (table_stored (lawful_of_isBackend hb)).2 _ read after k r htrace hread
  rcases List.append_eq_append_iff.mp hput with ⟨t, rfl, ht⟩ | ⟨t, rfl, ht⟩
  · cases t with
    | nil =>
      obtain ⟨rfl, -⟩ := List.cons.inj ht
      rw [htaken] at hquery
      cases hquery
    | cons e t =>
      obtain ⟨-, rfl⟩ := List.cons.inj ht
      exact ⟨put, by simp, hquery⟩
  · -- the take would come after the result was stored, and have found it live
    have hmem : taken ∈ post := by
      cases t with
      | nil =>
        obtain ⟨rfl, -⟩ := List.cons.inj ht
        rw [htaken] at hquery
        cases hquery
      | cons e t =>
        obtain ⟨-, rfl⟩ := List.cons.inj ht
        simp
    have := hpost taken hmem htaken
    omega

/-- A result, stored, taken, stored again and read. -/
def sampleResult : Result where
  requestId := "req-1"
  status := "denied"
  outcome := .capability none (some "not now")
  agentId := some "agent-1"
  resolvedAtUnix := 1760000000
  expiresAtUnix := 1760000600

def sampleMoment : Moment where
  now := 1760000010
  phones := []
  pending _ := []

def sampleProgram (_ : Unit) : Handler :=
  .call (.putResult sampleResult) fun _ => .call (.takeResult sampleResult.key) fun _ =>
    .call (.putResult sampleResult) fun _ => .call (.getResult sampleResult.key) fun _ => .done ()

def sampleEvent (q : Query) (a : Answer q) : Event Unit Query Answer Moment :=
  ⟨(), sampleMoment, q, a⟩

theorem fetched_once_sample :
    ∃ e ∈ [sampleEvent (.putResult sampleResult) ()], e.query = .putResult sampleResult :=
  fetched_once StateStore.results (.inl rfl) sampleProgram
    (List.replicate 4 ((), sampleMoment)) [sampleEvent (.putResult sampleResult) ()]
    [sampleEvent (.putResult sampleResult) ()] []
    (sampleEvent (.takeResult sampleResult.key) (some sampleResult))
    (sampleEvent (.getResult sampleResult.key) (some sampleResult)) sampleResult.key sampleResult
    rfl rfl rfl le_rfl

end

/-! ## What a poll discloses -/

section
variable {cfg : Config} {calls : List ((q : Query) × Answer q)} {p : Handler} {r : Result}
  {kind : Kind} {requestId agentHeader tokenHeader : String}

/-- The result as `_store_capability_result` or a sibling makes it. -/
def resolvedResult (cfg : Config) (req : QueuedCard) (status : String) (outcome : Outcome)
    (now : ℤ) : Result where
  requestId := req.requestId
  status := status
  outcome := outcome
  agentId := req.capAgentId
  resolvedAtUnix := now
  expiresAtUnix := now + max 60 cfg.resultTtlSeconds

/-- The headers name an agent and carry its token. -/
def Authenticated (cfg : Config) (agentHeader tokenHeader : String) : Prop :=
  cfg.agentTokens.get? (strip agentHeader) = some (strip tokenHeader)

/-- A call other than to store a result, or to answer more than a refusal. -/
def Discreet (q : Query) : Prop :=
  (∀ r, q ≠ .putResult r) ∧ (∀ out, q ≠ .send (.answered out)) ∧ q ≠ .send .pending

theorem path_refuse {status : ℕ} {error : String} (hpath : Calls.Path (refuse status error) calls p)
    {c : (q : Query) × Answer q} (hc : c ∈ calls) : Discreet c.1 := by
  have hobeys : (Monitor.only Discreet : Monitor Query Answer Unit).Obeys (fun _ _ => True) ()
      (refuse status error) :=
    Monitor.obeys_call.mpr ⟨by simp [Monitor.only, Discreet], fun _ _ => trivial⟩
  exact hpath.only hobeys c hc

/-- The calls before the one that says more are discreet. -/
theorem mem_path_call {q : Query} {next : Answer q → Handler}
    (hpath : Calls.Path (.call q next) calls p) {c : (q : Query) × Answer q} (hc : c ∈ calls)
    (hspoken : ¬ Discreet c.1) (hq : Discreet q) : ∃ a rest, calls = ⟨q, a⟩ :: rest ∧
      Calls.Path (next a) rest p ∧ c ∈ rest :=
  hpath.mem_call hc fun heq => hspoken (heq ▸ hq)

/-- Where the sweep says more than a refusal, it says that the agent's own card is waiting. -/
theorem path_sweep {agentId : String} (phones : List String)
    (hpath : Calls.Path (sweep agentId requestId phones) calls p) {c : (q : Query) × Answer q}
    (hc : c ∈ calls) (hspoken : ¬ Discreet c.1) :
    c = ⟨.send .pending, ()⟩ ∧ ∃ phoneId cards, ∃ card ∈ cards,
      (⟨.listPending phoneId, cards⟩ : (q : Query) × Answer q) ∈ calls ∧
        card.requestId = requestId ∧ card.capAgentId = some agentId := by
  induction phones generalizing calls with
  | nil => exact absurd (path_refuse hpath hc) hspoken
  | cons phoneId phones ih =>
    obtain ⟨(cards : List QueuedCard), rest, rfl, hrest, hc'⟩ :=
      mem_path_call hpath hc hspoken (by simp [Discreet])
    cases hfind : cards.find? fun card => card.requestId = requestId with
    | none =>
      simp only [hfind] at hrest
      obtain ⟨hpending, phoneId', cards', card, hcard, hlisted, hown⟩ := ih hrest hc'
      exact ⟨hpending, phoneId', cards', card, hcard, List.mem_cons_of_mem _ hlisted, hown⟩
    | some card =>
      simp only [hfind] at hrest
      split_ifs at hrest with hagent
      · exact absurd (path_refuse hrest hc') hspoken
      · obtain rfl | ⟨u, rest', rfl, hrest'⟩ := hrest.call
        · cases hc'
        · rw [hrest'.done] at hc'
          refine ⟨List.mem_singleton.mp hc', phoneId, cards, card, List.mem_of_find?_eq_some hfind,
            List.mem_cons_self, ?_, not_not.mp hagent⟩
          simpa using List.find?_some hfind

theorem path_handleResult
    (hpath : Calls.Path (handleResult kind cfg requestId agentHeader tokenHeader) calls p)
    {c : (q : Query) × Answer q} (hc : c ∈ calls) (hspoken : ¬ Discreet c.1) :
    Authenticated cfg agentHeader tokenHeader ∧
      ((∃ r taken, r.agentId = some (strip agentHeader) ∧ c = ⟨.send (.answered r.out), ()⟩ ∧
          calls = [⟨.getResult (kind, requestId), some r⟩, ⟨.takeResult (kind, requestId), taken⟩,
            ⟨.send (.answered r.out), ()⟩]) ∨
        (c = ⟨.send .pending, ()⟩ ∧ ∃ phoneId cards, ∃ card ∈ cards,
          (⟨.listPending phoneId, cards⟩ : (q : Query) × Answer q) ∈ calls ∧
            card.requestId = requestId ∧ card.capAgentId = some (strip agentHeader))) := by
  unfold handleResult at hpath
  split_ifs at hpath with hnone hheaders
  · exact absurd (path_refuse hpath hc) hspoken
  · exact absurd (path_refuse hpath hc) hspoken
  cases hexpected : cfg.agentTokens.get? (strip agentHeader) with
  | none =>
    simp only [hexpected] at hpath
    exact absurd (path_refuse hpath hc) hspoken
  | some expected =>
    simp only [hexpected] at hpath
    split_ifs at hpath with hcompare
    · exact absurd (path_refuse hpath hc) hspoken
    have htoken := (constantTimeCompare_iff _ _).mp (Bool.not_eq_false _ ▸ hcompare)
    refine ⟨hexpected.trans (congrArg some htoken), ?_⟩
    obtain ⟨found, rest, rfl, hrest, hc'⟩ := mem_path_call hpath hc hspoken (by simp [Discreet])
    cases found with
    | none =>
      obtain ⟨phones, rest', rfl, hrest', hc''⟩ :=
        mem_path_call hrest hc' hspoken (by simp [Discreet])
      obtain ⟨hpending, phoneId, cards, card, hcard, hlisted, hown⟩ :=
        path_sweep phones hrest' hc'' hspoken
      exact .inr ⟨hpending, phoneId, cards, card, hcard, by simp [hlisted], hown⟩
    | some r =>
      simp only at hrest
      split_ifs at hrest with hagent
      · exact absurd (path_refuse hrest hc') hspoken
      · obtain ⟨taken, rest', rfl, hrest', hc''⟩ :=
          mem_path_call hrest hc' hspoken (by simp [Discreet])
        obtain rfl | ⟨u, rest'', rfl, hrest''⟩ := hrest'.call
        · cases hc''
        · obtain rfl := hrest''.done
          exact .inl ⟨r, taken, not_not.mp hagent, List.mem_singleton.mp hc'', rfl⟩

theorem path_storeResult {req : QueuedCard} {status : String} {outcome : Outcome}
    (hpath : Calls.Path (storeResult cfg req status outcome) calls p)
    {c : (q : Query) × Answer q} (hc : c ∈ calls) (hspoken : ¬ Discreet c.1) :
    ∃ now, c = ⟨.putResult (resolvedResult cfg req status outcome now), ()⟩ := by
  obtain ⟨now, rest, rfl, hrest, hc'⟩ := mem_path_call hpath hc hspoken (by simp [Discreet])
  obtain rfl | ⟨u, rest', rfl, hrest'⟩ := hrest.call
  · cases hc'
  · rw [hrest'.done] at hc'
    exact ⟨now, List.mem_singleton.mp hc'⟩

end

section
variable {ι : Type} [DecidableEq ι]

/-- Polls and answers over one store that starts empty. -/
def polled (cfg : Config) (b : ResultBackend) (visits : ι → Visit) (turns : List (ι × Moment)) :
    Serving ι Query Answer Moment Table Unit :=
  run (exec b) (start ∅ fun i => (visits i).handler cfg) turns

variable {cfg : Config} {b : ResultBackend} {visits : ι → Visit} {turns : List (ι × Moment)} {i : ι}

/-- A result is only ever put by the end of an answer, from the card that was answered. -/
theorem put_of_store {r : Result} {e : Event ι Query Answer Moment}
    (he : e ∈ (polled cfg b visits turns).trace) (hput : e.query = .putResult r) :
    ∃ req status outcome now, visits e.thread = .store req status outcome ∧
      r = resolvedResult cfg req status outcome now := by
  have hpath := path_history (exec b) (fun i => (visits i).handler cfg) ∅ turns e.thread
  have hmem : e.call ∈ (polled cfg b visits turns).history e.thread :=
    mem_history.mpr ⟨e, he, rfl, rfl⟩
  have hspoken : ¬ Discreet e.call.1 := fun h => h.1 r hput
  cases hvisit : visits e.thread with
  | poll kind requestId agentHeader tokenHeader =>
    simp only [hvisit, Visit.handler] at hpath
    obtain ⟨-, ⟨r', taken, -, heq, -⟩ | ⟨heq, -⟩⟩ := path_handleResult hpath hmem hspoken
    · have hquery := hput.symm.trans (congrArg Sigma.fst heq)
      cases hquery
    · have hquery := hput.symm.trans (congrArg Sigma.fst heq)
      cases hquery
  | store req status outcome =>
    simp only [hvisit, Visit.handler] at hpath
    obtain ⟨now, heq⟩ := path_storeResult hpath hmem hspoken
    have hquery := hput.symm.trans (congrArg Sigma.fst heq)
    exact ⟨req, status, outcome, now, rfl, Query.putResult.inj hquery⟩

/-- What a poll is answered beyond a refusal, and why. -/
theorem poll_of_says {c : (q : Query) × Answer q} {reply : Reply}
    (h : c ∈ (polled cfg b visits turns).history i) (hc : c.1 = .send reply)
    (hspoken : ¬ Discreet c.1) : ∃ kind requestId agentHeader tokenHeader,
      visits i = .poll kind requestId agentHeader tokenHeader ∧
        Calls.Path (handleResult kind cfg requestId agentHeader tokenHeader)
          ((polled cfg b visits turns).history i) ((polled cfg b visits turns).threads i) := by
  have hpath := path_history (exec b) (fun i => (visits i).handler cfg) ∅ turns i
  cases hvisit : visits i with
  | poll kind requestId agentHeader tokenHeader =>
    simp only [hvisit, Visit.handler] at hpath
    exact ⟨kind, requestId, agentHeader, tokenHeader, rfl, hpath⟩
  | store req status outcome =>
    simp only [hvisit, Visit.handler] at hpath
    obtain ⟨now, rfl⟩ := path_storeResult hpath h hspoken
    cases hc

/-- However polls and answers interleave, a result is disclosed only to a poll that carries the
token of the agent whose card was answered, and while it has not expired; what is disclosed is what
the answer stored. -/
theorem answered_to_submitter (cfg : Config) (b : ResultBackend) (hb : IsBackend b)
    (visits : ι → Visit) (turns : List (ι × Moment)) (i : ι) (out : List (String × String))
    (h : ⟨.send (.answered out), ()⟩ ∈ (polled cfg b visits turns).history i) :
    ∃ agentHeader tokenHeader j req status outcome now, ∃ e ∈ (polled cfg b visits turns).trace,
      visits i = .poll outcome.kind req.requestId agentHeader tokenHeader ∧
        Authenticated cfg agentHeader tokenHeader ∧ visits j = .store req status outcome ∧
          req.capAgentId = some (strip agentHeader) ∧
            out = (resolvedResult cfg req status outcome now).out ∧
              e.thread = i ∧ e.query = .getResult (outcome.kind, req.requestId) ∧
                e.env.now < now + max 60 cfg.resultTtlSeconds := by
  have hspoken : ¬ Discreet (.send (.answered out)) := fun h => h.2.1 out rfl
  obtain ⟨kind, requestId, agentHeader, tokenHeader, hvisit, hpath⟩ := poll_of_says h rfl hspoken
  obtain ⟨hauth, ⟨r, taken, hagent, hout, hcalls⟩ | ⟨heq, -⟩⟩ := path_handleResult hpath h hspoken
  · have hread : (⟨.getResult (kind, requestId), some r⟩ : (q : Query) × Answer q) ∈
        (polled cfg b visits turns).history i := by
      rw [hcalls]
      exact List.mem_cons_self
    obtain ⟨e, he, hthread, hcall⟩ := mem_history.mp hread
    obtain ⟨before, after, htrace⟩ := List.append_of_mem he
    obtain ⟨⟨hkey, pre, put, post, rfl, hput, -⟩, hlive⟩ :=
      (table_stored (lawful_of_isBackend hb)).2 before e after _ r htrace hcall
    have hmem : put ∈ (polled cfg b visits turns).trace := by
      rw [htrace]
      simp
    obtain ⟨req, status, outcome, now, hstore, rfl⟩ := put_of_store hmem hput
    obtain ⟨rfl, rfl⟩ := Prod.mk.inj hkey
    obtain ⟨hreply, -⟩ := Sigma.mk.inj hout
    obtain rfl := Reply.answered.inj (Query.send.inj hreply)
    exact ⟨agentHeader, tokenHeader, put.thread, req, status, outcome, now, e, he, hvisit, hauth,
      hstore, hagent, rfl, hthread, congrArg Sigma.fst hcall, hlive⟩
  · cases heq

def sampleConfig : Config where
  agentTokens := Dict.set ∅ "agent-1" "token-1"
  resultTtlSeconds := 600

/-- A denial is stored, and its agent polls for it. -/
def sampleVisits : Bool → Visit
  | true => .store ⟨"req-1", some "agent-1"⟩ "denied" (.capability none (some "not now"))
  | false => .poll .capability "req-1" "agent-1" "token-1"

theorem answered_to_submitter_sample :
    ∃ agentHeader tokenHeader j req status outcome now,
      ∃ e ∈ (polled sampleConfig StateStore.results sampleVisits
          ([true, true, false, false, false].map (·, sampleMoment))).trace,
        sampleVisits false = .poll (Outcome.kind outcome) req.requestId agentHeader tokenHeader ∧
          Authenticated sampleConfig agentHeader tokenHeader ∧
            sampleVisits j = .store req status outcome ∧
              req.capAgentId = some (strip agentHeader) ∧
                [("status", "denied"), ("reason", "not now")] =
                  (resolvedResult sampleConfig req status outcome now).out ∧
                e.thread = false ∧ e.query = .getResult (Outcome.kind outcome, req.requestId) ∧
                  e.env.now < now + max 60 sampleConfig.resultTtlSeconds :=
  answered_to_submitter sampleConfig StateStore.results (.inl rfl) sampleVisits
    ([true, true, false, false, false].map (·, sampleMoment)) false
    [("status", "denied"), ("reason", "not now")] (by
      have hhistory : (polled sampleConfig StateStore.results sampleVisits
          ([true, true, false, false, false].map (·, sampleMoment))).history false =
        [⟨.getResult (.capability, "req-1"), some (resolvedResult sampleConfig
            ⟨"req-1", some "agent-1"⟩ "denied" (.capability none (some "not now")) 1760000010)⟩,
          ⟨.takeResult (.capability, "req-1"), some (resolvedResult sampleConfig
            ⟨"req-1", some "agent-1"⟩ "denied" (.capability none (some "not now")) 1760000010)⟩,
          ⟨.send (.answered [("status", "denied"), ("reason", "not now")]), ()⟩] := by
        rfl
      rw [hhistory]
      simp)

/-- That a card still waits is told to the agent of the card alone. -/
theorem pending_to_submitter
    (h : ⟨.send .pending, ()⟩ ∈ (polled cfg b visits turns).history i) :
    ∃ kind requestId agentHeader tokenHeader phoneId cards, ∃ card ∈ cards,
      visits i = .poll kind requestId agentHeader tokenHeader ∧
        Authenticated cfg agentHeader tokenHeader ∧
          (⟨.listPending phoneId, cards⟩ : (q : Query) × Answer q) ∈
            (polled cfg b visits turns).history i ∧
          card.requestId = requestId ∧ card.capAgentId = some (strip agentHeader) := by
  have hspoken : ¬ Discreet (.send .pending) := fun h => h.2.2 rfl
  obtain ⟨kind, requestId, agentHeader, tokenHeader, hvisit, hpath⟩ := poll_of_says h rfl hspoken
  obtain ⟨hauth, ⟨r, taken, -, heq, -⟩ | ⟨-, phoneId, cards, card, hcard, hlisted, hown⟩⟩ :=
    path_handleResult hpath h hspoken
  · cases heq
  · exact ⟨kind, requestId, agentHeader, tokenHeader, phoneId, cards, card, hcard, hvisit, hauth,
      hlisted, hown⟩

end

end Results
end Recto
