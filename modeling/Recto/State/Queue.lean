import Recto.State.RecordClasses
import Recto.State.Revocations

/-!
# The queue of requests on its two backends

The file backend answers from the requests it holds in memory. The Postgres
backend keeps a document for each and builds the request again when it is read:
it constructs the app context anew, and gives every other field as its document
reads.
-/

namespace Recto
namespace State

open RecordClass (Val optional pendingRequestFields)

/-! ## Queued requests -/

/-- The calls on the queue of a backend; `none` when one raises. -/
structure PendingBackend where
  Queue : Type
  empty : Queue
  addPending : Queue → Val → Option Queue
  takePending : Queue → String → Option (Option Val × Queue)
  listPendingForPhone : Queue → String → ℤ → Option (List Val × Queue)

/-- A request stored on any queue is taken as it was stored, and until it expires it stands, as it
was stored, in every list for its phone that the backend answers. On a queue that holds nothing
else the list is answered. -/
structure PendingBackend.Serves (b : PendingBackend) (req : Val) : Prop where
  added : ∀ queue, ∃ queue', b.addPending queue req = some queue'
  taken : ∀ queue queue' id, b.addPending queue req = some queue' →
    strAttr? req "request_id" = some id →
      ∃ rest, b.takePending queue' id = some (some req, rest)
  listed : ∀ queue queue' phone expires now, b.addPending queue req = some queue' →
    strAttr? req "phone_id" = some phone → intAttr? req "expires_at_unix" = some expires →
    now < expires → (queue = b.empty → (b.listPendingForPhone queue' phone now).isSome) ∧
      ∀ reqs rest, b.listPendingForPhone queue' phone now = some (reqs, rest) → req ∈ reqs

namespace StateStore

def addPending (queue : Dict String Val) (req : Val) : Option (Dict String Val) :=
  (strAttr? req "request_id").map fun id => queue.set id req

def takePending (queue : Dict String Val) (id : String) :
    Option (Option Val × Dict String Val) :=
  some (queue.get? id, queue.erase id)

def listPendingForPhone (queue : Dict String Val) (phone : String) (now : ℤ) :
    Option (List Val × Dict String Val) :=
  let queue := queue.filter fun _ req =>
    match intAttr? req "expires_at_unix" with
    | some expires => now < expires
    | none => false
  some (queue.values.filter fun req => strAttr? req "phone_id" = some phone, queue)

def pending : PendingBackend where
  Queue := Dict String Val
  empty := ∅
  addPending := addPending
  takePending := takePending
  listPendingForPhone := listPendingForPhone

end StateStore

namespace PostgresStateStore

/-- A row of the table `pending`. -/
structure PendingRow where
  phoneId : String
  doc : Json
  expiresAt : ℤ

/-- `_pending_from_doc`: the app context is built again, and then the request. -/
def pendingFromDoc : Json → Option Val
  | .obj d =>
      let kwargs := Value.fieldsOfJson d
      match d.lookup "app_context" with
      | some (.obj app) => do
          let context ← records.construct .appContext (Value.fieldsOfJson app)
          records.construct .pendingRequest (setItem "app_context" context kwargs)
      | _ => records.construct .pendingRequest kwargs
  | _ => none

def addPending (rows : Dict String PendingRow) (req : Val) : Option (Dict String PendingRow) := do
  let id ← strAttr? req "request_id"
  let phone ← strAttr? req "phone_id"
  let doc ← req.toDoc?
  let expires ← intAttr? req "expires_at_unix"
  if FitsBigint expires then some (rows.set id ⟨phone, doc, expires⟩) else none

def takePending (rows : Dict String PendingRow) (id : String) :
    Option (Option Val × Dict String PendingRow) :=
  match rows.get? id with
  | none => some (none, rows)
  | some row => (pendingFromDoc row.doc).map fun req => (some req, rows.erase id)

/-- `(doc->>'requested_at_unix')::bigint` -/
def requestedAt : Json → Option ℤ
  | .obj d =>
      match d.lookup "requested_at_unix" with
      | some (.int n) => if FitsBigint n then some n else none
      | _ => none
  | _ => none

def listPendingForPhone (rows : Dict String PendingRow) (phone : String) (now : ℤ) :
    Option (List Val × Dict String PendingRow) := do
  let rows := rows.filter fun _ row => now < row.expiresAt
  let timed ← (rows.values.filter fun row => row.phoneId = phone).mapM fun row =>
    (requestedAt row.doc).map (·, row.doc)
  let reqs ← (timed.insertionSort fun a b => a.1 ≤ b.1).mapM fun t => pendingFromDoc t.2
  pure (reqs, rows)

def pending : PendingBackend where
  Queue := Dict String PendingRow
  empty := ∅
  addPending := addPending
  takePending := takePending
  listPendingForPhone := listPendingForPhone

end PostgresStateStore

/-! ## A request read back -/

theorem pendingRequestFields_type : ∀ f ∈ records.fields .pendingRequest,
    f.type.isScalar = true ∨ (f.name = "app_context" ∧ f.type = .optional (.record .appContext)) ∨
      (f.name = "actor_context" ∧ f.type = .optional (.record .actorContext)) := by
  decide +kernel

theorem appContextFields_scalar : ∀ f ∈ records.fields .appContext, f.type.isScalar = true := by
  decide +kernel

theorem appContext_mem : optional (.record .appContext) "app_context" ∈
    records.fields .pendingRequest := by
  simp [records, RecordClass.fields, pendingRequestFields]

theorem actorContext_mem : optional (.record .actorContext) "actor_context" ∈
    records.fields .pendingRequest := by
  simp [records, RecordClass.fields, pendingRequestFields]

variable {fields : List (String × Val)}

namespace PostgresStateStore

/-- The record built from a request's document: every field is the one stored, but the actor
context is what its document reads as. -/
theorem pendingFromDoc_fields
    (h : HasType records (.record .pendingRequest fields) (.record .pendingRequest)) :
    ∃ d read, (Value.record .pendingRequest fields).toDoc? = some (.obj d) ∧
      pendingFromDoc (.obj d) = some (.record .pendingRequest read) ∧
      read.map Prod.fst = (records.fields .pendingRequest).map Field.name ∧
      (∀ f ∈ records.fields .pendingRequest, f.name ≠ "actor_context" →
        read.lookup f.name = fields.lookup f.name) ∧
      read.lookup "actor_context" =
        ((fields.lookup "actor_context").bind Value.toDoc?).map Value.ofJson := by
  obtain ⟨d, hdoc, hnames, hlookup⟩ := h.obj
  have hkwargs : (Value.fieldsOfJson d : List (String × Val)).map Prod.fst =
      (records.fields .pendingRequest).map Field.name := by
    rw [Value.map_fst_fieldsOfJson, hnames]
  -- a dictionary of the class's names is the record it constructs
  have hself : ∀ kwargs : List (String × Val),
      kwargs.map Prod.fst = (records.fields .pendingRequest).map Field.name →
      records.construct .pendingRequest kwargs = some (.record .pendingRequest kwargs) := by
    intro kwargs hk
    refine records.construct_eq (fun kw hkw => ?_) hk (fun _ _ => rfl) rfl
    exact hk ▸ List.mem_map.mpr ⟨kw, hkw, rfl⟩
  have hread : ∀ name, (Value.fieldsOfJson d : List (String × Val)).lookup name =
      ((fields.lookup name).bind Value.toDoc?).map Value.ofJson := by
    intro name
    rw [Value.lookup_fieldsOfJson, hlookup]
  obtain ⟨app, happ, htyped⟩ := h.lookup_isSome appContext_mem
  rcases HasType.optional_record htyped with rfl | ⟨appFields, rfl, happTyped⟩
  · refine ⟨d, Value.fieldsOfJson d, hdoc, ?_, hkwargs, ?_, hread _⟩
    · have hnull : d.lookup "app_context" = some .null := by
        rw [hlookup]
        exact congrArg (Option.bind · Value.toDoc?) happ
      simp only [pendingFromDoc, hnull]
      exact hself _ hkwargs
    · intro f hf hne
      rcases pendingRequestFields_type f hf with hscalar | ⟨hname, -⟩ | ⟨hname, -⟩
      · exact h.lookup_readBack hlookup hf hscalar
      · rw [hname, hread]
        exact (congrArg (fun v => (Option.bind v Value.toDoc?).map Value.ofJson) happ).trans
          happ.symm
      · exact absurd hname hne
  · obtain ⟨appDoc, happDoc, happBack⟩ := happTyped.construct_readBack appContextFields_scalar
    have hobj : d.lookup "app_context" = some (.obj appDoc) := by
      rw [hlookup]
      exact (congrArg (Option.bind · Value.toDoc?) happ).trans happDoc
    have hset : (setItem "app_context" (Value.record RecordClass.appContext appFields)
        (Value.fieldsOfJson d)).map Prod.fst =
          (records.fields .pendingRequest).map Field.name := by
      rw [map_fst_setItem, hkwargs, if_pos]
      exact List.mem_map.mpr ⟨_, appContext_mem, rfl⟩
    refine ⟨d, _, hdoc, ?_, hset, ?_, ?_⟩
    · simp only [pendingFromDoc, hobj, happBack]
      exact hself _ hset
    · intro f hf hne
      by_cases hname : f.name = "app_context"
      · rw [hname, lookup_setItem_self]
        exact happ.symm
      · rw [lookup_setItem_of_ne hname]
        rcases pendingRequestFields_type f hf with hscalar | ⟨hname', -⟩ | ⟨hname', -⟩
        · exact h.lookup_readBack hlookup hf hscalar
        · exact absurd hname' hname
        · exact absurd hname' hne
    · rw [lookup_setItem_of_ne (by decide), hread]

theorem pendingFromDoc_eq_iff
    (h : HasType records (.record .pendingRequest fields) (.record .pendingRequest)) :
    ∃ d, (Value.record .pendingRequest fields).toDoc? = some (.obj d) ∧
      (∀ name, d.lookup name = (fields.lookup name).bind Value.toDoc?) ∧
      (pendingFromDoc (.obj d) = some (.record .pendingRequest fields) ↔
        fields.lookup "actor_context" = some .none) := by
  obtain ⟨d, read, hdoc, hread, hnames, hsame, hactor⟩ := pendingFromDoc_fields h
  obtain ⟨d', hdoc', -, hlookup⟩ := h.obj
  obtain rfl : d = d' := by simpa using hdoc.symm.trans hdoc'
  refine ⟨d, hdoc, hlookup, ?_⟩
  obtain ⟨actor, hstored, htyped⟩ := h.lookup_isSome actorContext_mem
  have hstored' : fields.lookup "actor_context" = some actor := hstored
  rw [hread, hstored']
  rcases HasType.optional_record htyped with rfl | ⟨actorFields, rfl, hrecord⟩
  · refine iff_of_true ?_ rfl
    rw [records.fields_eq hnames h.names.1 fun f hf => ?_]
    by_cases hne : f.name = "actor_context"
    · rw [hne, hactor, hstored']
      rfl
    · exact hsame f hf hne
  · -- a context comes back as the dictionary of its document
    obtain ⟨actorDoc, hactorDoc, -⟩ := hrecord.obj
    refine iff_of_false (fun heq => ?_) (by simp)
    have hback := hactor
    rw [show read = fields by simpa using heq, hstored', Option.bind_some, hactorDoc] at hback
    simp [Value.ofJson] at hback

end PostgresStateStore

/-- What the backends read off a request when they store it. -/
theorem pendingRequest_attrs
    (h : HasType records (.record .pendingRequest fields) (.record .pendingRequest)) :
    ∃ id phone expires requested,
      fields.lookup "request_id" = some (.str id) ∧ fields.lookup "phone_id" = some (.str phone) ∧
        fields.lookup "expires_at_unix" = some (.int expires) ∧
          fields.lookup "requested_at_unix" = some (.int requested) := by
  obtain ⟨id, hid⟩ := exists_strAttr h (f := RecordClass.required "request_id" .str)
    (by simp [records, RecordClass.fields, pendingRequestFields]) rfl
  obtain ⟨phone, hphone⟩ := exists_strAttr h (f := RecordClass.required "phone_id" .str)
    (by simp [records, RecordClass.fields, pendingRequestFields]) rfl
  obtain ⟨expires, hexpires⟩ := exists_intAttr h
    (f := RecordClass.required "expires_at_unix" .int)
    (by simp [records, RecordClass.fields, pendingRequestFields]) rfl
  obtain ⟨requested, hrequested⟩ := exists_intAttr h
    (f := RecordClass.required "requested_at_unix" .int)
    (by simp [records, RecordClass.fields, pendingRequestFields]) rfl
  exact ⟨id, phone, expires, requested, hid, hphone, hexpires, hrequested⟩

/-- The file backend serves every request as it was stored. -/
theorem StateStore.pending_serves
    (h : HasType records (.record .pendingRequest fields) (.record .pendingRequest)) :
    StateStore.pending.Serves (.record .pendingRequest fields) := by
  obtain ⟨id, phone, expires, requested, hid, hphone, hexpires, -⟩ := pendingRequest_attrs h
  have hadd : ∀ queue : Dict String Val,
      addPending queue (.record .pendingRequest fields) =
        some (queue.set id (.record .pendingRequest fields)) := by
    intro queue
    simp [addPending, strAttr?_eq hid]
  refine ⟨fun queue => ⟨_, hadd queue⟩, ?_, ?_⟩
  · intro (queue : Dict String Val) (queue' : Dict String Val) id' hqueue hid'
    obtain rfl := Option.some.inj ((hadd queue).symm.trans hqueue)
    obtain rfl := Option.some.inj ((strAttr?_eq hid).symm.trans hid')
    refine ⟨(queue.set id (.record .pendingRequest fields)).erase id, ?_⟩
    change takePending _ id = _
    rw [takePending, Dict.get?_set_self]
    rfl
  · intro (queue : Dict String Val) (queue' : Dict String Val) phone' expires' now hqueue hphone'
      hexpires' hnow
    obtain rfl := Option.some.inj ((hadd queue).symm.trans hqueue)
    obtain rfl := Option.some.inj ((intAttr?_eq hexpires).symm.trans hexpires')
    refine ⟨fun _ => rfl, fun reqs rest hlist => ?_⟩
    obtain ⟨rfl, -⟩ := Prod.mk.inj (Option.some.inj hlist)
    rw [List.mem_filter, Dict.mem_values_iff]
    refine ⟨⟨id, Dict.get?_filter.mpr ⟨Dict.get?_set_self _ _ _, ?_⟩⟩, by simpa using hphone'⟩
    simp [intAttr?_eq hexpires, hnow]

/-- What a request must be for Postgres to serve it: without an actor context, and at times that
its columns hold. -/
structure ServedByPostgres (req : Val) : Prop where
  actor : req.attr? "actor_context" = some .none
  requested : ∀ n, intAttr? req "requested_at_unix" = some n → PostgresStateStore.FitsBigint n
  expires : ∀ n, intAttr? req "expires_at_unix" = some n → PostgresStateStore.FitsBigint n

namespace PostgresStateStore

/-- Where the row of a request is live, an answered list holds what its document reads as. -/
theorem mem_listPendingForPhone {rows rest : Dict String PendingRow} {phone : String} {now : ℤ}
    {reqs : List Val} (h : listPendingForPhone rows phone now = some (reqs, rest)) {id : String}
    {row : PendingRow} (hrow : rows.get? id = some row) (hphone : row.phoneId = phone)
    (hnow : now < row.expiresAt) : ∃ req ∈ reqs, pendingFromDoc row.doc = some req := by
  simp only [listPendingForPhone, Option.bind_eq_bind, Option.bind_eq_some_iff,
    Option.pure_def, Option.some.injEq, Prod.mk.injEq] at h
  obtain ⟨timed, htimed, reqs', hreqs, rfl, -⟩ := h
  have hmem : row ∈ ((rows.filter fun _ row => now < row.expiresAt).values.filter
      fun row => row.phoneId = phone) := by
    rw [List.mem_filter, Dict.mem_values_iff]
    exact ⟨⟨id, Dict.get?_filter.mpr ⟨hrow, decide_eq_true hnow⟩⟩, decide_eq_true hphone⟩
  obtain ⟨t, ht, hrt⟩ := exists_mem_of_mapM htimed hmem
  obtain ⟨req, hreq, hdoc⟩ := exists_mem_of_mapM hreqs ((List.mem_insertionSort _).mpr ht)
  rw [Option.map_eq_some_iff] at hrt
  obtain ⟨n, -, rfl⟩ := hrt
  exact ⟨req, hreq, hdoc⟩

/-- The list of a queue that holds one live request. -/
theorem listPendingForPhone_single {id phone : String} {doc : Json} {expires now : ℤ}
    (hnow : now < expires) :
    (listPendingForPhone ((∅ : Dict String PendingRow).set id ⟨phone, doc, expires⟩) phone
      now).isSome ↔ (requestedAt doc).isSome ∧ (pendingFromDoc doc).isSome := by
  simp only [listPendingForPhone, Dict.set, setItem, Dict.filter, Dict.values, Dict.items_empty]
  cases htime : requestedAt doc with
  | none => simp [hnow, htime]
  | some n => cases hreq : pendingFromDoc doc <;> simp [hnow, htime, hreq]

theorem pending_serves_iff
    (h : HasType records (.record .pendingRequest fields) (.record .pendingRequest)) :
    PostgresStateStore.pending.Serves (.record .pendingRequest fields) ↔
      ServedByPostgres (.record .pendingRequest fields) := by
  obtain ⟨id, phone, expires, requested, hid, hphone, hexpires, hrequested⟩ :=
    pendingRequest_attrs h
  obtain ⟨d, hdoc, hlookup, hback⟩ := pendingFromDoc_eq_iff h
  have hadd : ∀ rows : Dict String PendingRow,
      addPending rows (.record .pendingRequest fields) =
        if FitsBigint expires then some (rows.set id ⟨phone, .obj d, expires⟩) else none := by
    intro rows
    simp [addPending, strAttr?_eq hid, strAttr?_eq hphone, intAttr?_eq hexpires, hdoc]
  have htime : (requestedAt (.obj d)).isSome ↔ FitsBigint requested := by
    have hfield : d.lookup "requested_at_unix" = some (.int requested) := by
      rw [hlookup, hrequested]
      rfl
    simp only [requestedAt, hfield]
    split_ifs with hfit <;> simp [hfit]
  constructor
  · intro hserves
    obtain ⟨rows, hrows⟩ := hserves.added (∅ : Dict String PendingRow)
    have hsome := (hadd ∅).symm.trans hrows
    split_ifs at hsome with hfit
    obtain rfl := Option.some.inj hsome
    refine ⟨hback.mp ?_, ?_, ?_⟩
    · obtain ⟨rest, htake⟩ := hserves.taken _ _ id hrows (strAttr?_eq hid)
      change takePending _ id = _ at htake
      rw [takePending, Dict.get?_set_self] at htake
      obtain ⟨req, hreq, heq⟩ := Option.map_eq_some_iff.mp htake
      rw [hreq, (Prod.mk.inj heq).1]
    · intro n hn
      obtain rfl := Option.some.inj ((intAttr?_eq hrequested).symm.trans hn)
      have hlist := (hserves.listed _ _ phone expires (expires - 1) hrows (strAttr?_eq hphone)
        (intAttr?_eq hexpires) (by omega)).1 rfl
      exact htime.mp ((listPendingForPhone_single (by omega)).mp hlist).1
    · intro n hn
      obtain rfl := Option.some.inj ((intAttr?_eq hexpires).symm.trans hn)
      exact hfit
  · intro hserved
    have hfit' := htime.mpr (hserved.requested requested (intAttr?_eq hrequested))
    have hreq := hback.mpr hserved.actor
    simp only [if_pos (hserved.expires expires (intAttr?_eq hexpires))] at hadd
    refine ⟨fun rows => ⟨_, hadd rows⟩, ?_, ?_⟩
    · intro (rows : Dict String PendingRow) (rows' : Dict String PendingRow) id' hrows hid'
      obtain rfl := Option.some.inj ((hadd rows).symm.trans hrows)
      obtain rfl := Option.some.inj ((strAttr?_eq hid).symm.trans hid')
      refine ⟨(rows.set id ⟨phone, .obj d, expires⟩).erase id, ?_⟩
      change takePending _ id = _
      rw [takePending, Dict.get?_set_self]
      exact congrArg (Option.map _) hreq
    · intro (rows : Dict String PendingRow) (rows' : Dict String PendingRow) phone' expires' now
        hrows hphone' hexpires' hnow
      obtain rfl := Option.some.inj ((hadd rows).symm.trans hrows)
      obtain rfl := Option.some.inj ((strAttr?_eq hphone).symm.trans hphone')
      obtain rfl := Option.some.inj ((intAttr?_eq hexpires).symm.trans hexpires')
      constructor
      · rintro rfl
        exact (listPendingForPhone_single hnow).mpr ⟨hfit', by rw [hreq]; rfl⟩
      · intro reqs rest hlist
        obtain ⟨req, hmem, hreq'⟩ :=
          mem_listPendingForPhone hlist (Dict.get?_set_self rows id _) rfl hnow
        rw [show req = _ from Option.some.inj (hreq'.symm.trans hreq)] at hmem
        exact hmem

end PostgresStateStore

end State
end Recto
