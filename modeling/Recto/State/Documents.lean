import Recto.State.Queue
import Recto.State.Phones

/-!
# What the backends serve of what they stored

The file backend serves every record as it was stored. The Postgres backend does
so for phones, for the sessions its columns hold, and for the queued requests
without an actor context.
-/

namespace Recto
namespace State

open RecordClass (Val)

/-! ## Sessions -/

structure SessionBackend where
  Sessions : Type
  putSession : Sessions → Val → Option Sessions
  getSession : Sessions → String → String → ℤ → Option (Option Val × Sessions)

/-- `is_expired or is_exhausted` -/
def sessionSpent (sess : Val) (now : ℤ) : Option Bool := do
  let expires ← intAttr? sess "expires_at_unix"
  let maxUses ← intAttr? sess "max_uses"
  let used ← intAttr? sess "uses_so_far"
  pure (expires ≤ now || (0 < maxUses && maxUses ≤ used))

/-- A session stored over anything is read as it was stored until it is spent, and then not. -/
structure SessionBackend.Serves (b : SessionBackend) (sess : Val) : Prop where
  put : ∀ sessions, ∃ sessions', b.putSession sessions sess = some sessions'
  got : ∀ sessions sessions' service secret now spent,
    b.putSession sessions sess = some sessions' → strAttr? sess "service" = some service →
    strAttr? sess "secret" = some secret → sessionSpent sess now = some spent →
    ∃ rest, b.getSession sessions' service secret now =
      some (if spent then none else some sess, rest)

namespace StateStore

def putSession (sessions : Dict (String × String) Val) (sess : Val) :
    Option (Dict (String × String) Val) := do
  let service ← strAttr? sess "service"
  let secret ← strAttr? sess "secret"
  pure (sessions.set (service, secret) sess)

def getSession (sessions : Dict (String × String) Val) (service secret : String) (now : ℤ) :
    Option (Option Val × Dict (String × String) Val) :=
  match sessions.get? (service, secret) with
  | none => some (none, sessions)
  | some sess => (sessionSpent sess now).map fun spent =>
      if spent then (none, sessions.erase (service, secret)) else (some sess, sessions)

def sessions : SessionBackend where
  Sessions := Dict (String × String) Val
  putSession := putSession
  getSession := getSession

end StateStore

namespace PostgresStateStore

/-- `Session(**row[0])` -/
def sessionFromDoc : Json → Option Val
  | .obj d => records.construct .session (Value.fieldsOfJson d)
  | _ => none

def putSession (rows : Dict (String × String) Json) (sess : Val) :
    Option (Dict (String × String) Json) := do
  let service ← strAttr? sess "service"
  let secret ← strAttr? sess "secret"
  let doc ← sess.toDoc?
  let expires ← intAttr? sess "expires_at_unix"
  if FitsBigint expires then some (rows.set (service, secret) doc) else none

def getSession (rows : Dict (String × String) Json) (service secret : String) (now : ℤ) :
    Option (Option Val × Dict (String × String) Json) :=
  match rows.get? (service, secret) with
  | none => some (none, rows)
  | some doc => do
      let sess ← sessionFromDoc doc
      let spent ← sessionSpent sess now
      pure (if spent then (none, rows.erase (service, secret)) else (some sess, rows))

def sessions : SessionBackend where
  Sessions := Dict (String × String) Json
  putSession := putSession
  getSession := getSession

end PostgresStateStore

variable {fields : List (String × Val)}

/-! ## A session read back -/

theorem sessionFields_scalar : ∀ f ∈ records.fields .session, f.type.isScalar = true := by
  decide +kernel

theorem session_attrs (h : HasType records (.record .session fields) (.record .session)) :
    ∃ service secret expires, fields.lookup "service" = some (.str service) ∧
      fields.lookup "secret" = some (.str secret) ∧
        fields.lookup "expires_at_unix" = some (.int expires) := by
  obtain ⟨service, hservice⟩ := exists_strAttr h (f := RecordClass.required "service" .str)
    (by simp [records, RecordClass.fields, RecordClass.sessionFields]) rfl
  obtain ⟨secret, hsecret⟩ := exists_strAttr h (f := RecordClass.required "secret" .str)
    (by simp [records, RecordClass.fields, RecordClass.sessionFields]) rfl
  obtain ⟨expires, hexpires⟩ := exists_intAttr h
    (f := RecordClass.required "expires_at_unix" .int)
    (by simp [records, RecordClass.fields, RecordClass.sessionFields]) rfl
  exact ⟨service, secret, expires, hservice, hsecret, hexpires⟩

theorem StateStore.sessions_serves
    (h : HasType records (.record .session fields) (.record .session)) :
    StateStore.sessions.Serves (.record .session fields) := by
  obtain ⟨service, secret, expires, hservice, hsecret, -⟩ := session_attrs h
  have hput : ∀ held : Dict (String × String) Val, putSession held (.record .session fields) =
      some (held.set (service, secret) (.record .session fields)) := by
    intro held
    simp [putSession, strAttr?_eq hservice, strAttr?_eq hsecret]
  refine ⟨fun held => ⟨_, hput held⟩, ?_⟩
  intro (held : Dict (String × String) Val) (held' : Dict (String × String) Val) service' secret'
    now spent hheld hservice' hsecret' hspent
  obtain rfl := Option.some.inj ((hput held).symm.trans hheld)
  obtain rfl := Option.some.inj ((strAttr?_eq hservice).symm.trans hservice')
  obtain rfl := Option.some.inj ((strAttr?_eq hsecret).symm.trans hsecret')
  change ∃ rest, getSession _ service secret now = _
  rw [getSession, Dict.get?_set_self]
  simp only [hspent, Option.map_some]
  cases spent
  · exact ⟨_, rfl⟩
  · exact ⟨_, rfl⟩

theorem PostgresStateStore.sessions_serves_iff
    (h : HasType records (.record .session fields) (.record .session)) :
    PostgresStateStore.sessions.Serves (.record .session fields) ↔
      ∀ n, intAttr? (.record .session fields) "expires_at_unix" = some n → FitsBigint n := by
  obtain ⟨service, secret, expires, hservice, hsecret, hexpires⟩ := session_attrs h
  obtain ⟨d, hdoc, hback⟩ := h.construct_readBack sessionFields_scalar
  have hput : ∀ rows : Dict (String × String) Json, putSession rows (.record .session fields) =
      if FitsBigint expires then some (rows.set (service, secret) (.obj d)) else none := by
    intro rows
    simp [putSession, strAttr?_eq hservice, strAttr?_eq hsecret, intAttr?_eq hexpires, hdoc]
  constructor
  · intro hserves n hn
    obtain rfl := Option.some.inj ((intAttr?_eq hexpires).symm.trans hn)
    obtain ⟨rows, hrows⟩ := hserves.put (∅ : Dict (String × String) Json)
    have hsome := (hput ∅).symm.trans hrows
    split_ifs at hsome with hfit
    exact hfit
  · intro hfit
    simp only [if_pos (hfit expires (intAttr?_eq hexpires))] at hput
    refine ⟨fun rows => ⟨_, hput rows⟩, ?_⟩
    intro (rows : Dict (String × String) Json) (rows' : Dict (String × String) Json) service'
      secret' now spent hrows hservice' hsecret' hspent
    obtain rfl := Option.some.inj ((hput rows).symm.trans hrows)
    obtain rfl := Option.some.inj ((strAttr?_eq hservice).symm.trans hservice')
    obtain rfl := Option.some.inj ((strAttr?_eq hsecret).symm.trans hsecret')
    change ∃ rest, getSession _ service secret now = _
    rw [getSession, Dict.get?_set_self]
    simp only [sessionFromDoc, hback, Option.bind_eq_bind, Option.bind_some, hspent]
    cases spent
    · exact ⟨_, rfl⟩
    · exact ⟨_, rfl⟩

/-! ## Both backends -/

variable (printable : Char → Bool)

/-- Every record of its declared types is served by the file backend as it was stored, and by the
Postgres backend exactly when the times that have columns fit them and, for a queued request, it
carries no actor context; what the phone polls is then the same. -/
theorem documents_served_iff :
    (∀ req, HasType records req (.record .pendingRequest) →
      (StateStore.pending.Serves req ∧ PostgresStateStore.pending.Serves req ↔
        ServedByPostgres req)) ∧
    (∀ sess, HasType records sess (.record .session) →
      (StateStore.sessions.Serves sess ∧ PostgresStateStore.sessions.Serves sess ↔
        ∀ n, intAttr? sess "expires_at_unix" = some n → PostgresStateStore.FitsBigint n)) ∧
    ∀ regs, (∀ p ∈ regs, IsPhone p) → ∀ reg, IsPhone reg →
      StateStore.phones.ServesAlike (PostgresStateStore.phones printable) regs reg := by
  refine ⟨fun req hreq => ?_, fun sess hsess => ?_, fun regs hregs reg hreg =>
    phones_servesAlike printable hregs hreg⟩
  · cases hreq with
    | record hnames htyped hinit =>
      have h : HasType records (.record .pendingRequest _) (.record .pendingRequest) :=
        .record hnames htyped hinit
      rw [← PostgresStateStore.pending_serves_iff h]
      exact and_iff_right (StateStore.pending_serves h)
  · cases hsess with
    | record hnames htyped hinit =>
      have h : HasType records (.record .session _) (.record .session) :=
        .record hnames htyped hinit
      rw [← PostgresStateStore.sessions_serves_iff h]
      exact and_iff_right (StateStore.sessions_serves h)

/-- A capability card, for the actor given. -/
def sampleCard (actor : Val) : Val :=
  (records.construct .pendingRequest [("request_id", .str "card-1"),
    ("kind", .str "capability_request"), ("service", .str "media"), ("secret", .str "publish"),
    ("phone_id", .str "pk_01"), ("operation_description", .str "publish one review"),
    ("payload_hash_b64u", .str "AA"), ("child_pid", .int 0), ("child_argv0", .str ""),
    ("requested_at_unix", .int 1000), ("expires_at_unix", .int 4600),
    ("cap_header_b64", .str "e30"), ("cap_payload_b64", .str "e30"),
    ("cap_agent_id", .str "agent:reviewer"), ("actor_context", actor)]).getD .none

def sampleActor : Val :=
  (records.construct .actorContext [("actor_id", .str "agent:reviewer"),
    ("actor_name", .str "Reviewer")]).getD .none

theorem documents_served_iff_sample :
    StateStore.pending.Serves (sampleCard .none) ∧
      PostgresStateStore.pending.Serves (sampleCard .none) := by
  have htyped : HasType records (sampleCard .none) (.record .pendingRequest) :=
    HasType.of_checks 4 (by decide +kernel)
  exact ((documents_served_iff fun _ => true).1 _ htyped).mpr ⟨rfl, by decide, by decide⟩

/-- A card with an actor is typed and the file backend serves it; Postgres gives its actor context
back as a dictionary, and the wire form of that card cannot be made. -/
theorem sampleCard_misread :
    HasType records (sampleCard sampleActor) (.record .pendingRequest) ∧
      StateStore.pending.Serves (sampleCard sampleActor) ∧
      ¬PostgresStateStore.pending.Serves (sampleCard sampleActor) ∧
      (pendingToWire (sampleCard sampleActor)).isSome = true ∧
      ((PostgresStateStore.addPending ∅ (sampleCard sampleActor)).bind fun rows =>
        (PostgresStateStore.takePending rows "card-1").bind fun taken =>
          taken.1.map fun req => (pendingToWire req).isSome) = some false := by
  have htyped : HasType records (sampleCard sampleActor) (.record .pendingRequest) :=
    HasType.of_checks 4 (by decide +kernel)
  have hactor : (sampleCard sampleActor).attr? "actor_context" = some sampleActor := rfl
  refine ⟨htyped, StateStore.pending_serves htyped, fun h => ?_, by decide +kernel,
    by decide +kernel⟩
  have hnone := ((PostgresStateStore.pending_serves_iff htyped).mp h).actor
  have hsame : sampleActor = .none := Option.some.inj (hactor.symm.trans hnone)
  cases hsame

end State
end Recto
