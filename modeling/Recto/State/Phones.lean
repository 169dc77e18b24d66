import Recto.State.RecordClasses
import Recto.Text.Repr

/-!
# The phones on the two backends

The registry is a table of phones by id, in which a key that registers again
keeps its id. The Postgres backend holds the document of each phone; the two
answer every registration and every reading alike, because a phone is built
again exactly as it was stored.
-/

namespace Recto
namespace State

open RecordClass (Val)

/-! ## Phones -/

/-- `_merge_onto_existing`: the id and the first pairing's time of the record that holds the key. -/
def mergeOntoExisting (existing : Option Val) (incoming : Val) : Option Val :=
  match existing with
  | none => some incoming
  | some p =>
      match incoming with
      | .record cls fields => do
          let id ← p.attr? "phone_id"
          let registered ← p.attr? "registered_at_unix"
          pure (.record cls (setItem "registered_at_unix" registered
            (setItem "phone_id" id fields)))
      | _ => none

structure PhoneBackend where
  Phones : Type
  empty : Phones
  registerPhone : Phones → Val → Option (Val × Phones)
  getPhone : Phones → String → Option (Option Val)
  listPhones : Phones → Option (List Val)

namespace StateStore

def registerPhone (phones : Dict String Val) (reg : Val) : Option (Val × Dict String Val) := do
  let key ← strAttr? reg "public_key_b64u"
  let stored ← mergeOntoExisting
    (phones.values.find? fun p => strAttr? p "public_key_b64u" = some key) reg
  let id ← strAttr? stored "phone_id"
  pure (stored, phones.set id stored)

def phones : PhoneBackend where
  Phones := Dict String Val
  empty := ∅
  registerPhone := registerPhone
  getPhone phones id := some (phones.get? id)
  listPhones phones := some phones.values

end StateStore

namespace PostgresStateStore

/-- `list(v)` -/
def listOf : Val → Option Val
  | .tuple items => some (.list items)
  | .list items => some (.list items)
  | .dict items => some (.list (items.map fun i => .str i.1))
  | .str s => some (.list ((chars s).map fun c => .str (String.singleton c)))
  | _ => none

/-- `_phone_to_doc` -/
def phoneToDoc (p : Val) : Option Json :=
  match p.asdict with
  | .dict d => do
      let algorithms ← listOf (← d.lookup "supported_algorithms")
      (Value.dict (setItem "supported_algorithms" algorithms d)).toJson?
  | _ => none

/-- The items of a document that is iterated. -/
def itemsOf : Json → Option (List Json)
  | .arr items => some items
  | .str s => some ((chars s).map fun c => .str (String.singleton c))
  | .obj fields => some (fields.map fun f => .str f.1)
  | _ => none

/-- The items of `raw or ()`. -/
def itemsOrNone (raw : Option Json) : Option (List Json) :=
  match raw with
  | none => some []
  | some doc => if doc.truthy then itemsOf doc else some []

/-- `doc[n]` -/
def itemAt (n : ℕ) : Json → Option Json
  | .arr items => items[n]?
  | .str s => (chars s)[n]?.map fun c => .str (String.singleton c)
  | _ => none

variable (printable : Char → Bool)

/-- `member_bindings_from_doc` -/
def memberBindingsFromDoc (raw : Option Json) : Option Val := do
  let pairs ← (← itemsOrNone raw).mapM fun b => do
    let consumer ← itemAt 0 b
    let subject ← itemAt 1 b
    pure (Value.tuple [.str (Json.pyStr printable consumer), .str (Json.pyStr printable subject)])
  pure (.tuple pairs)

/-- `_phone_from_doc` -/
def phoneFromDoc : Json → Option Val
  | .obj d => do
      let algorithms ← itemsOrNone (d.lookup "supported_algorithms")
      let bindings ← memberBindingsFromDoc printable (d.lookup "member_bindings")
      records.construct .phoneRegistration (setItem "member_bindings" bindings
        (setItem "supported_algorithms" (.tuple (Value.itemsOfJson algorithms))
          (Value.fieldsOfJson d)))
  | _ => none

/-- `doc->>'public_key_b64u' = key` -/
def holdsKey (key : String) : Json → Bool
  | .obj d => d.lookup "public_key_b64u" = some (.str key)
  | _ => false

/-- One transaction: at most one row holds a key, so the first that does is the one selected. -/
def registerPhone (rows : Dict String Json) (reg : Val) : Option (Val × Dict String Json) := do
  let key ← strAttr? reg "public_key_b64u"
  let existing ← match rows.values.find? (holdsKey key) with
    | none => some none
    | some doc => (phoneFromDoc printable doc).map some
  let stored ← mergeOntoExisting existing reg
  let id ← strAttr? stored "phone_id"
  let doc ← phoneToDoc stored
  pure (stored, rows.set id doc)

/-- `ORDER BY phone_id` -/
def listPhones (rows : Dict String Json) : Option (List Val) :=
  ((rows.items.insertionSort fun a b => a.1 ≤ b.1).map Prod.snd).mapM (phoneFromDoc printable)

def phones : PhoneBackend where
  Phones := Dict String Json
  empty := ∅
  registerPhone := registerPhone printable
  getPhone rows id :=
    match rows.get? id with
    | none => some none
    | some doc => (phoneFromDoc printable doc).map some
  listPhones := listPhones printable

end PostgresStateStore

/-! ## A phone read back -/

variable {fields : List (String × Val)}

theorem phoneRegistrationFields_type : ∀ f ∈ records.fields .phoneRegistration,
    f.type.isScalar = true ∨ (f.name = "supported_algorithms" ∧ f.type = .tuple .str) ∨
      (f.name = "member_bindings" ∧ f.type = .tuple (.pair .str .str)) := by
  decide +kernel

namespace PostgresStateStore

/-- A value replaced by one with the same document leaves the document as it is. -/
theorem fieldsToJson?_setItem {name : String} {v w : Val} (hjson : v.toJson? = w.toJson?) :
    ∀ {items : List (String × Val)}, items.lookup name = some w →
      Value.fieldsToJson? (setItem name v items) = Value.fieldsToJson? items := by
  intro items
  induction items with
  | nil => simp
  | cons item rest ih =>
    obtain ⟨k, x⟩ := item
    intro hlookup
    rw [List.lookup_cons] at hlookup
    by_cases hk : k = name
    · subst hk
      simp only [beq_self_eq_true, Option.some.injEq] at hlookup
      subst hlookup
      simp [setItem, Value.fieldsToJson?, hjson]
    · have hbeq : (name == k) = false := by simpa using fun e => hk e.symm
      rw [hbeq] at hlookup
      simp [setItem, hk, Value.fieldsToJson?, ih hlookup]

theorem itemsOrNone_arr (docs : List Json) : itemsOrNone (some (.arr docs)) = some docs := by
  cases docs <;> rfl

/-- The list of the algorithms is written as the tuple is. -/
theorem phoneToDoc_eq {algorithms : List Val}
    (h : fields.lookup "supported_algorithms" = some (.tuple algorithms)) :
    phoneToDoc (.record .phoneRegistration fields) =
      (Value.record .phoneRegistration fields).toDoc? := by
  have hlookup : (Value.asdictFields fields).lookup "supported_algorithms" =
      some (.tuple (Value.asdictItems algorithms)) := by
    rw [Value.lookup_asdictFields, h]
    rfl
  simp only [phoneToDoc, Value.asdict, hlookup, listOf, Option.bind_eq_bind, Option.bind_some]
  simp only [Value.toDoc?, Value.asdict, Value.toJson?]
  rw [fieldsToJson?_setItem (by simp only [Value.toJson?]) hlookup]

theorem algorithms_readBack {algorithms : List Val} {docs : List Json}
    (htyped : HasType records (.tuple algorithms) (.tuple .str))
    (hdocs : algorithms.mapM Value.toDoc? = some docs) : Value.itemsOfJson docs = algorithms := by
  cases htyped with
  | tuple hitems =>
    have hback : docs.mapM (fun doc => some (Value.ofJson doc)) = some algorithms :=
      mapM_inverse hdocs fun v hv doc hdoc =>
        congrArg some (Value.ofJson_of_isScalar ((hitems v hv).isScalar rfl) hdoc)
    rw [Value.itemsOfJson_eq_map]
    exact Option.some.inj (List.mapM_pure.symm.trans hback)

variable (printable : Char → Bool)

theorem bindings_readBack {bindings : List Val} {docs : List Json}
    (htyped : HasType records (.tuple bindings) (.tuple (.pair .str .str)))
    (hdocs : bindings.mapM Value.toDoc? = some docs) :
    memberBindingsFromDoc printable (some (.arr docs)) = some (.tuple bindings) := by
  cases htyped with
  | tuple hitems =>
    simp only [memberBindingsFromDoc, itemsOrNone_arr, Option.bind_eq_bind, Option.bind_some]
    rw [mapM_inverse hdocs fun v hv doc hdoc => ?_]
    · rfl
    · obtain ⟨consumer, subject, rfl⟩ : ∃ a b, v = .tuple [.str a, .str b] := by
        cases hitems v hv with
        | pair ha hb =>
          cases ha with
          | str a =>
            cases hb with
            | str b => exact ⟨a, b, rfl⟩
      obtain rfl : Json.arr [.str consumer, .str subject] = doc := by
        simpa [Value.toDoc?, Value.asdict, Value.asdictItems, Value.toJson?,
          Value.itemsToJson?] using hdoc
      rfl

theorem phone_tuples
    (h : HasType records (.record .phoneRegistration fields) (.record .phoneRegistration)) :
    ∃ algorithms bindings, fields.lookup "supported_algorithms" = some (.tuple algorithms) ∧
      HasType records (.tuple algorithms) (.tuple .str) ∧
      fields.lookup "member_bindings" = some (.tuple bindings) ∧
      HasType records (.tuple bindings) (.tuple (.pair .str .str)) := by
  obtain ⟨algorithms, halgorithms, htyped⟩ := h.lookup_isSome
    (f := RecordClass.required "supported_algorithms" (.tuple .str))
    (by simp [records, RecordClass.fields, RecordClass.phoneRegistrationFields])
  obtain ⟨bindings, hbindings, htyped'⟩ := h.lookup_isSome
    (f := ⟨"member_bindings", .tuple (.pair .str .str), some (.tuple [])⟩)
    (by simp [records, RecordClass.fields, RecordClass.phoneRegistrationFields])
  obtain ⟨algorithms, rfl⟩ := htyped.tuple_items
  obtain ⟨bindings, rfl⟩ := htyped'.tuple_items
  exact ⟨algorithms, bindings, halgorithms, htyped, hbindings, htyped'⟩

/-- The document of a tuple field is a list. -/
theorem tuple_lookup {d : List (String × Json)}
    (hlookup : ∀ name, d.lookup name = (fields.lookup name).bind Value.toDoc?) {name : String}
    {items : List Val} {type : FieldType RecordClass}
    (hfield : fields.lookup name = some (.tuple items))
    (htyped : HasType records (.tuple items) type) :
    ∃ docs, items.mapM Value.toDoc? = some docs ∧ d.lookup name = some (.arr docs) := by
  obtain ⟨doc, hdoc⟩ := htyped.toDoc?
  have hobj := hdoc
  rw [Value.toDoc?_tuple, Option.map_eq_some_iff] at hobj
  obtain ⟨docs, hdocs, rfl⟩ := hobj
  refine ⟨docs, hdocs, ?_⟩
  rw [hlookup, hfield, Option.bind_some, hdoc]

/-- A phone is built again as it was stored. -/
theorem phoneFromDoc_phoneToDoc
    (h : HasType records (.record .phoneRegistration fields) (.record .phoneRegistration)) :
    ∃ d, phoneToDoc (.record .phoneRegistration fields) = some (.obj d) ∧
      (∀ name, d.lookup name = (fields.lookup name).bind Value.toDoc?) ∧
      phoneFromDoc printable (.obj d) = some (.record .phoneRegistration fields) := by
  obtain ⟨d, hdoc, hnames, hlookup⟩ := h.obj
  obtain ⟨algorithms, bindings, halgorithms, htyped, hbindings, htyped'⟩ := phone_tuples h
  obtain ⟨algorithmDocs, hdocs, hfield⟩ := tuple_lookup hlookup halgorithms htyped
  obtain ⟨bindingDocs, hdocs', hfield'⟩ := tuple_lookup hlookup hbindings htyped'
  refine ⟨d, (phoneToDoc_eq halgorithms).trans hdoc, hlookup, ?_⟩
  simp only [phoneFromDoc, hfield, hfield', itemsOrNone_arr, bindings_readBack printable htyped' hdocs',
    algorithms_readBack htyped hdocs, Option.bind_eq_bind, Option.bind_some]
  refine records.construct_eq (fun kw hkw => ?_) h.names.1 (fun f hf => ?_) h.names.2
  · have hkeys : ∀ (name : String) (v : Val) (items : List (String × Val)),
        name ∈ items.map Prod.fst → (setItem name v items).map Prod.fst = items.map Prod.fst := by
      intro name v items hname
      rw [map_fst_setItem, if_pos hname]
    have hd : (Value.fieldsOfJson d : List (String × Val)).map Prod.fst =
        (records.fields .phoneRegistration).map Field.name := by
      rw [Value.map_fst_fieldsOfJson, hnames]
    have halg : "supported_algorithms" ∈
        (Value.fieldsOfJson d : List (String × Val)).map Prod.fst := by
      rw [hd]
      decide +kernel
    have hset := hkeys "supported_algorithms" (.tuple algorithms) _ halg
    have hbind : "member_bindings" ∈ (setItem "supported_algorithms"
        (Value.tuple algorithms) (Value.fieldsOfJson d)).map Prod.fst := by
      rw [hset, hd]
      decide +kernel
    rw [← hd, ← hset, ← hkeys "member_bindings" (.tuple bindings) _ hbind]
    exact List.mem_map.mpr ⟨kw, hkw, rfl⟩
  · by_cases hmember : f.name = "member_bindings"
    · rw [hmember, lookup_setItem_self, hbindings]
    rw [lookup_setItem_of_ne hmember]
    by_cases halg : f.name = "supported_algorithms"
    · rw [halg, lookup_setItem_self, halgorithms]
    rw [lookup_setItem_of_ne halg]
    rcases phoneRegistrationFields_type f hf with hscalar | ⟨hname, -⟩ | ⟨hname, -⟩
    · exact h.lookup_readBack hlookup hf hscalar
    · exact absurd hname halg
    · exact absurd hname hmember

end PostgresStateStore

/-! ## The phones side by side -/

/-- A phone of the declared types. -/
def IsPhone (p : Val) : Prop := HasType records p (.record .phoneRegistration)

theorem IsPhone.exists_fields {p : Val} (h : IsPhone p) :
    ∃ fields, p = .record .phoneRegistration fields ∧
      HasType records (.record .phoneRegistration fields) (.record .phoneRegistration) := by
  cases h with
  | record hnames htyped hinit => exact ⟨_, rfl, .record hnames htyped hinit⟩

theorem IsPhone.attrs {p : Val} (h : IsPhone p) :
    ∃ id key registered, p.attr? "phone_id" = some (.str id) ∧
      p.attr? "public_key_b64u" = some (.str key) ∧
        p.attr? "registered_at_unix" = some (.int registered) := by
  obtain ⟨fields, rfl, h⟩ := h.exists_fields
  obtain ⟨id, hid⟩ := exists_strAttr h (f := RecordClass.required "phone_id" .str)
    (by simp [records, RecordClass.fields, RecordClass.phoneRegistrationFields]) rfl
  obtain ⟨key, hkey⟩ := exists_strAttr h (f := RecordClass.required "public_key_b64u" .str)
    (by simp [records, RecordClass.fields, RecordClass.phoneRegistrationFields]) rfl
  obtain ⟨registered, hregistered⟩ := exists_intAttr h
    (f := RecordClass.required "registered_at_unix" .int)
    (by simp [records, RecordClass.fields, RecordClass.phoneRegistrationFields]) rfl
  exact ⟨id, key, registered, hid, hkey, hregistered⟩

/-- The document of a phone. -/
def phoneDoc (p : Val) : Json := (PostgresStateStore.phoneToDoc p).getD .null

theorem IsPhone.readBack {p : Val} (h : IsPhone p) (printable : Char → Bool) :
    PostgresStateStore.phoneToDoc p = some (phoneDoc p) ∧
      PostgresStateStore.phoneFromDoc printable (phoneDoc p) = some p ∧
        ∀ key, PostgresStateStore.holdsKey key (phoneDoc p) =
          decide (strAttr? p "public_key_b64u" = some key) := by
  obtain ⟨id, key, -, -, hkey, -⟩ := h.attrs
  obtain ⟨fields, rfl, h⟩ := h.exists_fields
  obtain ⟨d, hdoc, hlookup, hback⟩ :=
    PostgresStateStore.phoneFromDoc_phoneToDoc printable h
  have hphone : phoneDoc (.record .phoneRegistration fields) = .obj d := by
    rw [phoneDoc, hdoc]
    rfl
  have hkeyDoc : d.lookup "public_key_b64u" = some (.str key) := by
    rw [hlookup]
    exact congrArg (Option.bind · Value.toDoc?) hkey
  refine ⟨by rw [hphone, hdoc], by rw [hphone, hback], fun key' => ?_⟩
  simp [hphone, PostgresStateStore.holdsKey, hkeyDoc, strAttr?, hkey]

theorem phoneRegistrationFields_named : ∀ f ∈ records.fields .phoneRegistration,
    (f.name = "phone_id" → f.type = .str) ∧ (f.name = "registered_at_unix" → f.type = .int) := by
  decide +kernel

/-- A merged registration is a phone again, with the key it came with. -/
theorem mergeOntoExisting_isPhone {existing : Option Val} {reg : Val} (hreg : IsPhone reg)
    (hexisting : ∀ p ∈ existing, IsPhone p) :
    ∃ stored, mergeOntoExisting existing reg = some stored ∧ IsPhone stored ∧
      stored.attr? "public_key_b64u" = reg.attr? "public_key_b64u" ∧
        (existing = none → stored = reg) := by
  cases existing with
  | none => exact ⟨reg, rfl, hreg, rfl, fun _ => rfl⟩
  | some p =>
    obtain ⟨id, -, registered, hid, -, hregistered⟩ := (hexisting p rfl).attrs
    obtain ⟨fields, rfl, h⟩ := hreg.exists_fields
    have hname : "phone_id" ∈ fields.map Prod.fst := by
      rw [h.names.1]
      decide +kernel
    have hset : (setItem "phone_id" (Value.str id) fields).map Prod.fst = fields.map Prod.fst := by
      rw [map_fst_setItem, if_pos hname]
    have hname' : "registered_at_unix" ∈
        (setItem "phone_id" (Value.str id) fields).map Prod.fst := by
      rw [hset, h.names.1]
      decide +kernel
    refine ⟨.record .phoneRegistration (setItem "registered_at_unix" (.int registered)
      (setItem "phone_id" (.str id) fields)), ?_, ?_, ?_, nofun⟩
    · simp [mergeOntoExisting, hid, hregistered]
    · refine .record ?_ (fun f hf v hv => ?_) rfl
      · rw [map_fst_setItem, if_pos hname', hset, h.names.1]
      · by_cases hreg : f.name = "registered_at_unix"
        · rw [hreg, lookup_setItem_self] at hv
          rw [(phoneRegistrationFields_named f hf).2 hreg, ← Option.some.inj hv]
          exact .int registered
        rw [lookup_setItem_of_ne hreg] at hv
        by_cases hid' : f.name = "phone_id"
        · rw [hid', lookup_setItem_self] at hv
          rw [(phoneRegistrationFields_named f hf).1 hid', ← Option.some.inj hv]
          exact .str id
        rw [lookup_setItem_of_ne hid'] at hv
        obtain ⟨w, hw, htyped⟩ := h.lookup_isSome hf
        rw [← Option.some.inj (hw.symm.trans hv)]
        exact htyped
    · simp only [Value.attr?]
      rw [lookup_setItem_of_ne (by decide), lookup_setItem_of_ne (by decide)]

/-- The rows are the documents of the phones. -/
structure Mirrors (phones : Dict String Val) (rows : Dict String Json) : Prop where
  rows_eq : rows = phones.mapValues phoneDoc
  isPhone : ∀ p ∈ phones.values, IsPhone p

theorem find?_map_eq {α β : Type} {f : α → β} {p : α → Bool} {q : β → Bool} {xs : List α}
    (h : ∀ x ∈ xs, q (f x) = p x) : (xs.map f).find? q = (xs.find? p).map f := by
  induction xs with
  | nil => rfl
  | cons x xs ih =>
    have htail := ih fun x' hx' => h x' (List.mem_cons_of_mem _ hx')
    rw [List.map_cons, List.find?_cons, List.find?_cons, h x List.mem_cons_self]
    cases p x
    · exact htail
    · rfl

theorem Mirrors.find_eq {phones : Dict String Val} {rows : Dict String Json}
    (h : Mirrors phones rows) (key : String) :
    rows.values.find? (PostgresStateStore.holdsKey key) =
      (phones.values.find? fun p => strAttr? p "public_key_b64u" = some key).map phoneDoc := by
  rw [h.rows_eq, Dict.values_mapValues]
  exact find?_map_eq fun p hp => ((h.isPhone p hp).readBack fun _ => true).2.2 key

variable (printable : Char → Bool)

/-- A registration answers the same on both backends and leaves them mirrored. -/
theorem Mirrors.registerPhone {phones : Dict String Val} {rows : Dict String Json}
    (h : Mirrors phones rows) {reg : Val} (hreg : IsPhone reg) :
    ∃ stored id, IsPhone stored ∧ strAttr? stored "phone_id" = some id ∧
      strAttr? stored "public_key_b64u" = strAttr? reg "public_key_b64u" ∧
      StateStore.registerPhone phones reg = some (stored, phones.set id stored) ∧
      PostgresStateStore.registerPhone printable rows reg =
        some (stored, rows.set id (phoneDoc stored)) ∧
      Mirrors (phones.set id stored) (rows.set id (phoneDoc stored)) ∧
      ((∀ p ∈ phones.values, strAttr? p "public_key_b64u" ≠ strAttr? reg "public_key_b64u") →
        stored = reg) := by
  obtain ⟨-, key, -, -, hkey, -⟩ := hreg.attrs
  have hkey' : strAttr? reg "public_key_b64u" = some key := by simp [strAttr?, hkey]
  have hheld : ∀ p ∈ phones.values.find? fun p => strAttr? p "public_key_b64u" = some key,
      p ∈ phones.values := fun p hp => List.mem_of_find?_eq_some hp
  obtain ⟨stored, hmerge, hstored, hsame, hnew⟩ := mergeOntoExisting_isPhone hreg
    fun p hp => h.isPhone p (hheld p hp)
  obtain ⟨id, -, -, hid, -, -⟩ := hstored.attrs
  have hid' : strAttr? stored "phone_id" = some id := by simp [strAttr?, hid]
  refine ⟨stored, id, hstored, hid', by simp only [strAttr?, hsame], ?_, ?_, ⟨?_, ?_⟩,
    fun hne => hnew ?_⟩
  · simp [StateStore.registerPhone, hkey', hmerge, hid']
  · simp only [PostgresStateStore.registerPhone, hkey', Option.bind_eq_bind, Option.bind_some,
      h.find_eq]
    cases hfind : phones.values.find? fun p => strAttr? p "public_key_b64u" = some key with
    | none =>
      rw [hfind] at hmerge
      simp [hmerge, hid', (hstored.readBack printable).1]
    | some p =>
      rw [hfind] at hmerge
      have hp := h.isPhone p (hheld p hfind)
      simp [(hp.readBack printable).2.1, hmerge, hid', (hstored.readBack printable).1]
  · rw [Dict.mapValues_set, h.rows_eq]
  · intro p hp
    obtain ⟨id', hp⟩ := Dict.mem_values_iff.mp hp
    rw [Dict.get?_set] at hp
    split_ifs at hp
    · exact Option.some.inj hp ▸ hstored
    · exact h.isPhone p (Dict.mem_values_iff.mpr ⟨id', hp⟩)
  · rw [List.find?_eq_none]
    intro p hp
    simpa [hkey'] using hne p hp

theorem Mirrors.getPhone {phones : Dict String Val} {rows : Dict String Json}
    (h : Mirrors phones rows) (id : String) :
    (PostgresStateStore.phones printable).getPhone rows id = some (phones.get? id) := by
  simp only [PostgresStateStore.phones, h.rows_eq, Dict.get?_mapValues]
  cases hget : phones.get? id with
  | none => rfl
  | some p =>
    have hp := h.isPhone p (Dict.mem_values_iff.mpr ⟨id, hget⟩)
    simp only [Option.map_some, (hp.readBack printable).2.1]

theorem Mirrors.listPhones {phones : Dict String Val} {rows : Dict String Json}
    (h : Mirrors phones rows) :
    ∃ listed, PostgresStateStore.listPhones printable rows = some listed ∧
      listed.Perm phones.values := by
  have hsorted : ((rows.items.insertionSort fun a b => a.1 ≤ b.1).map Prod.snd).Perm
      (phones.values.map phoneDoc) := by
    rw [← Dict.values_mapValues, ← h.rows_eq]
    exact (List.perm_insertionSort _ _).map Prod.snd
  have hread : ∀ doc ∈ (rows.items.insertionSort fun a b => a.1 ≤ b.1).map Prod.snd,
      PostgresStateStore.phoneFromDoc printable doc =
        some ((PostgresStateStore.phoneFromDoc printable doc).getD .none) := by
    intro doc hdoc
    obtain ⟨p, hp, rfl⟩ := List.mem_map.mp (hsorted.mem_iff.mp hdoc)
    rw [((h.isPhone p hp).readBack printable).2.1]
    rfl
  refine ⟨_, mapM_eq_map hread, (hsorted.map _).trans ?_⟩
  rw [List.map_map]
  have hself : phones.values.map ((fun doc =>
      (PostgresStateStore.phoneFromDoc printable doc).getD .none) ∘ phoneDoc) =
      phones.values.map id := by
    refine List.map_congr_left fun p hp => ?_
    simp [((h.isPhone p hp).readBack printable).2.1]
  rw [hself, List.map_id]

/-- The phones a run of registrations leaves. -/
def PhoneBackend.registerAll (b : PhoneBackend) (regs : List Val) : Option b.Phones :=
  regs.foldlM (fun phones reg => (b.registerPhone phones reg).map Prod.snd) b.empty

/-- After any registrations, one more answers the same on the two backends, and what they serve
afterwards is the same and holds what was stored; a key that was not registered before is stored
as it came. -/
def PhoneBackend.ServesAlike (b b' : PhoneBackend) (regs : List Val) (reg : Val) : Prop :=
  ∃ phones phones' stored next next', b.registerAll regs = some phones ∧
    b'.registerAll regs = some phones' ∧ b.registerPhone phones reg = some (stored, next) ∧
    b'.registerPhone phones' reg = some (stored, next') ∧
    (∀ id, b.getPhone next id = b'.getPhone next' id) ∧
    (∀ id, strAttr? stored "phone_id" = some id → b.getPhone next id = some (some stored)) ∧
    (∃ listed listed', b.listPhones next = some listed ∧ b'.listPhones next' = some listed' ∧
      listed'.Perm listed ∧ stored ∈ listed) ∧
    ((∀ p ∈ regs, strAttr? p "public_key_b64u" ≠ strAttr? reg "public_key_b64u") → stored = reg)

theorem PhoneBackend.registerAll_concat (b : PhoneBackend) (regs : List Val) (reg : Val) :
    b.registerAll (regs ++ [reg]) = (b.registerAll regs).bind fun phones =>
      (b.registerPhone phones reg).map Prod.snd := by
  simp [registerAll]

/-- A run of registrations leaves the backends mirrored, with the keys of the run. -/
theorem exists_registerAll (regs : List Val) (hregs : ∀ p ∈ regs, IsPhone p) :
    ∃ (phones : Dict String Val) (rows : Dict String Json),
      StateStore.phones.registerAll regs = some phones ∧
      (PostgresStateStore.phones printable).registerAll regs = some rows ∧ Mirrors phones rows ∧
      ∀ p ∈ phones.values, ∃ q ∈ regs,
        strAttr? p "public_key_b64u" = strAttr? q "public_key_b64u" := by
  induction regs using List.reverseRecOn with
  | nil => exact ⟨∅, ∅, rfl, rfl, ⟨rfl, by simp [Dict.values]⟩, by simp [Dict.values]⟩
  | append_singleton regs reg ih =>
    obtain ⟨phones, rows, hphones, hrows, hmirrors, hkeys⟩ :=
      ih fun p hp => hregs p (List.mem_append_left _ hp)
    obtain ⟨stored, id, -, -, hkey, hfile, hpostgres, hmirrors', -⟩ :=
      hmirrors.registerPhone printable (hregs reg (by simp))
    refine ⟨phones.set id stored, rows.set id (phoneDoc stored), ?_, ?_, hmirrors', ?_⟩
    · rw [PhoneBackend.registerAll_concat, hphones]
      exact congrArg (Option.map Prod.snd) hfile
    · rw [PhoneBackend.registerAll_concat, hrows]
      exact congrArg (Option.map Prod.snd) hpostgres
    · intro p hp
      obtain ⟨id', hp⟩ := Dict.mem_values_iff.mp hp
      rw [Dict.get?_set] at hp
      split_ifs at hp
      · exact ⟨reg, by simp, Option.some.inj hp ▸ hkey⟩
      · obtain ⟨q, hq, hsame⟩ := hkeys p (Dict.mem_values_iff.mpr ⟨id', hp⟩)
        exact ⟨q, List.mem_append_left _ hq, hsame⟩

theorem phones_servesAlike {regs : List Val}
    (hregs : ∀ p ∈ regs, IsPhone p) {reg : Val} (hreg : IsPhone reg) :
    StateStore.phones.ServesAlike (PostgresStateStore.phones printable) regs reg := by
  obtain ⟨phones, rows, hphones, hrows, hmirrors, hkeys⟩ :=
    exists_registerAll printable regs hregs
  obtain ⟨stored, id, -, hid, -, hfile, hpostgres, hmirrors', hnew⟩ :=
    hmirrors.registerPhone printable hreg
  obtain ⟨listed, hlisted, hperm⟩ := hmirrors'.listPhones printable
  have hget : (phones.set id stored).get? id = some stored := Dict.get?_set_self _ _ _
  refine ⟨phones, rows, stored, _, _, hphones, hrows, hfile, hpostgres,
    fun id' => (hmirrors'.getPhone printable id').symm, fun id' hid' => ?_,
    ⟨_, listed, rfl, hlisted, hperm, Dict.mem_values_iff.mpr ⟨id, hget⟩⟩, fun hne => hnew ?_⟩
  · obtain rfl := Option.some.inj (hid.symm.trans hid')
    exact congrArg some hget
  · intro p hp
    obtain ⟨q, hq, hsame⟩ := hkeys p hp
    exact hsame ▸ hne q hq

end State
end Recto
