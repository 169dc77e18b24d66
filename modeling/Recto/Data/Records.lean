import Recto.Json.Value

/-!
# Records and the documents they are stored as

A record of a running program is an instance of a class with named fields. It
is stored by turning it, and every record inside it, into a dictionary, and
writing that as JSON; what is read back is dictionaries and lists, and the
record has to be built again from them by name. The schema is a parameter: the
classes, the fields of each with their declared types and defaults, and the
check its construction makes.
-/

namespace Recto

/-- A value of the program: a scalar, a collection, or an instance of a class. -/
inductive Value (κ : Type) where
  | none
  | bool (b : Bool)
  | int (n : ℤ)
  | float (x : JsonFloat)
  | str (s : String)
  | tuple (items : List (Value κ))
  | list (items : List (Value κ))
  | dict (items : List (String × Value κ))
  | record (cls : κ) (fields : List (String × Value κ))

/-- The declared type of a field. -/
inductive FieldType (κ : Type) where
  | str
  | int
  | optional (type : FieldType κ)
  | tuple (type : FieldType κ)
  | pair (fst snd : FieldType κ)
  | record (cls : κ)
  deriving DecidableEq, Repr

structure Field (κ : Type) where
  name : String
  type : FieldType κ
  /-- The value of a field that is not given; without one the field is required. -/
  default : Option (Value κ)

/-- The classes of a program. -/
structure Schema (κ : Type) where
  fields : κ → List (Field κ)
  /-- `__post_init__` returns. -/
  postInit : κ → List (String × Value κ) → Bool
  nodup : ∀ cls, ((fields cls).map Field.name).Nodup

variable {κ : Type}

/-! ## Documents -/

namespace Value

mutual
/-- `dataclasses.asdict`: records become dictionaries, tuples and lists are rebuilt. -/
def asdict : Value κ → Value κ
  | .tuple items => .tuple (asdictItems items)
  | .list items => .list (asdictItems items)
  | .dict items => .dict (asdictFields items)
  | .record _ fields => .dict (asdictFields fields)
  | .none => .none
  | .bool b => .bool b
  | .int n => .int n
  | .float x => .float x
  | .str s => .str s
def asdictItems : List (Value κ) → List (Value κ)
  | [] => []
  | v :: rest => asdict v :: asdictItems rest
def asdictFields : List (String × Value κ) → List (String × Value κ)
  | [] => []
  | (k, v) :: rest => (k, asdict v) :: asdictFields rest
end

mutual
/-- `json.dumps`, which refuses a record; a tuple is written as a list is. -/
def toJson? : Value κ → Option Json
  | .none => some .null
  | .bool b => some (.bool b)
  | .int n => some (.int n)
  | .float x => some (.float x)
  | .str s => some (.str s)
  | .tuple items => (itemsToJson? items).map .arr
  | .list items => (itemsToJson? items).map .arr
  | .dict items => (fieldsToJson? items).map .obj
  | .record _ _ => Option.none
def itemsToJson? : List (Value κ) → Option (List Json)
  | [] => some []
  | v :: rest => do return (← toJson? v) :: (← itemsToJson? rest)
def fieldsToJson? : List (String × Value κ) → Option (List (String × Json))
  | [] => some []
  | (k, v) :: rest => do return (k, ← toJson? v) :: (← fieldsToJson? rest)
end

mutual
/-- `json.loads` of a document. -/
def ofJson : Json → Value κ
  | .null => .none
  | .bool b => .bool b
  | .int n => .int n
  | .float x => .float x
  | .str s => .str s
  | .arr items => .list (itemsOfJson items)
  | .obj fields => .dict (fieldsOfJson fields)
def itemsOfJson : List Json → List (Value κ)
  | [] => []
  | j :: rest => ofJson j :: itemsOfJson rest
def fieldsOfJson : List (String × Json) → List (String × Value κ)
  | [] => []
  | (k, j) :: rest => (k, ofJson j) :: fieldsOfJson rest
end

/-- `getattr(value, name)`: a record has its fields as attributes. -/
def attr? : Value κ → String → Option (Value κ)
  | .record _ fields, name => fields.lookup name
  | _, _ => Option.none

/-- Values that a document holds as they are. -/
def IsScalar : Value κ → Prop
  | .tuple _ | .list _ | .dict _ | .record _ _ => False
  | _ => True

/-- The document of a value: `json.dumps(asdict(value))`. -/
def toDoc? (v : Value κ) : Option Json := v.asdict.toJson?

theorem ofJson_of_isScalar {v : Value κ} (h : v.IsScalar) {doc : Json}
    (hdoc : v.toDoc? = some doc) : ofJson doc = v := by
  cases v <;> first | exact h.elim | (cases hdoc; rfl)

theorem toDoc?_of_isScalar {v : Value κ} (h : v.IsScalar) : ∃ doc, v.toDoc? = some doc := by
  cases v <;> first | exact h.elim | exact ⟨_, rfl⟩

theorem itemsToJson?_eq (items : List (Value κ)) :
    itemsToJson? (asdictItems items) = items.mapM toDoc? := by
  induction items with
  | nil => rfl
  | cons v rest ih =>
    rw [List.mapM_cons, ← ih]
    rfl

theorem fieldsToJson?_eq (fields : List (String × Value κ)) :
    fieldsToJson? (asdictFields fields) =
      fields.mapM fun f => (toDoc? f.2).map (f.1, ·) := by
  induction fields with
  | nil => rfl
  | cons f rest ih =>
    obtain ⟨k, v⟩ := f
    rw [List.mapM_cons, ← ih]
    simp only [asdictFields, fieldsToJson?, toDoc?]
    cases v.asdict.toJson? <;> rfl

theorem toDoc?_tuple (items : List (Value κ)) :
    (tuple items).toDoc? = (items.mapM toDoc?).map .arr := by
  rw [← itemsToJson?_eq]
  rfl

theorem toDoc?_record (cls : κ) (fields : List (String × Value κ)) :
    (record cls fields).toDoc? =
      (fields.mapM fun f => (toDoc? f.2).map (f.1, ·)).map .obj := by
  rw [← fieldsToJson?_eq]
  rfl

theorem lookup_asdictFields (fields : List (String × Value κ)) (name : String) :
    (asdictFields fields).lookup name = (fields.lookup name).map asdict := by
  induction fields with
  | nil => rfl
  | cons f rest ih =>
    obtain ⟨k, v⟩ := f
    simp only [asdictFields, List.lookup_cons]
    split <;> simp [ih]

theorem itemsOfJson_eq_map (docs : List Json) :
    (itemsOfJson docs : List (Value κ)) = docs.map ofJson := by
  induction docs with
  | nil => rfl
  | cons doc rest ih => simp [itemsOfJson, ih]

theorem lookup_fieldsOfJson (d : List (String × Json)) (name : String) :
    (fieldsOfJson d : List (String × Value κ)).lookup name = (d.lookup name).map ofJson := by
  induction d with
  | nil => rfl
  | cons f rest ih =>
    obtain ⟨k, j⟩ := f
    simp only [fieldsOfJson, List.lookup_cons]
    split <;> simp [ih]

theorem map_fst_fieldsOfJson (d : List (String × Json)) :
    (fieldsOfJson d : List (String × Value κ)).map Prod.fst = d.map Prod.fst := by
  induction d with
  | nil => rfl
  | cons f rest ih => simp [fieldsOfJson, ih]

/-- The document of a record names its fields in their order, each with its own document. -/
theorem toDoc?_fields {fields : List (String × Value κ)} {d : List (String × Json)}
    (h : fields.mapM (fun f => (toDoc? f.2).map (f.1, ·)) = some d) :
    d.map Prod.fst = fields.map Prod.fst ∧
      ∀ name, d.lookup name = (fields.lookup name).bind toDoc? := by
  induction fields generalizing d with
  | nil =>
    simp only [List.mapM_nil, Option.pure_def, Option.some.injEq] at h
    subst h
    simp
  | cons f rest ih =>
    obtain ⟨k, v⟩ := f
    simp only [List.mapM_cons, Option.bind_eq_bind, Option.bind_eq_some_iff,
      Option.map_eq_some_iff, Option.pure_def, Option.some.injEq] at h
    obtain ⟨-, ⟨j, hj, rfl⟩, d', hd', rfl⟩ := h
    obtain ⟨hnames, hlookup⟩ := ih hd'
    refine ⟨by simp [hnames], fun name => ?_⟩
    simp only [List.lookup_cons]
    split
    · exact hj.symm
    · exact hlookup name

end Value

/-! ## Declared types -/

namespace FieldType

/-- The declared values are scalars. -/
def isScalar : FieldType κ → Bool
  | .str => true
  | .int => true
  | .optional type => type.isScalar
  | _ => false

end FieldType

/-- The value has the declared type; a record was constructed, so its own check passed. -/
inductive HasType (S : Schema κ) : Value κ → FieldType κ → Prop
  | str (s : String) : HasType S (.str s) .str
  | int (n : ℤ) : HasType S (.int n) .int
  | absent (type : FieldType κ) : HasType S .none (.optional type)
  | present {v : Value κ} {type : FieldType κ} :
      HasType S v type → HasType S v (.optional type)
  | tuple {items : List (Value κ)} {type : FieldType κ} :
      (∀ v ∈ items, HasType S v type) → HasType S (.tuple items) (.tuple type)
  | pair {v w : Value κ} {fst snd : FieldType κ} :
      HasType S v fst → HasType S w snd → HasType S (.tuple [v, w]) (.pair fst snd)
  | record {cls : κ} {fields : List (String × Value κ)} :
      fields.map Prod.fst = (S.fields cls).map Field.name →
      (∀ f ∈ S.fields cls, ∀ v, fields.lookup f.name = some v → HasType S v f.type) →
      S.postInit cls fields = true → HasType S (.record cls fields) (.record cls)

theorem HasType.isScalar {S : Schema κ} {v : Value κ} {type : FieldType κ}
    (h : HasType S v type) (htype : type.isScalar = true) : v.IsScalar := by
  induction h with
  | str s => trivial
  | int n => trivial
  | absent type => trivial
  | present _ ih => exact ih htype
  | tuple _ => cases htype
  | pair _ _ => cases htype
  | record _ _ _ => cases htype

theorem mapM_eq_some_iff {α β : Type} {f : α → Option β} {xs : List α} {ys : List β} :
    xs.mapM f = some ys ↔ List.Forall₂ (fun x y => f x = some y) xs ys := by
  induction xs generalizing ys with
  | nil => simp [eq_comm]
  | cons x xs ih =>
    simp only [List.mapM_cons, Option.bind_eq_bind, Option.bind_eq_some_iff, Option.pure_def,
      Option.some.injEq, List.forall₂_cons_left_iff, ih]
    constructor
    · rintro ⟨y, hy, ys', hys, rfl⟩
      exact ⟨y, ys', hy, hys, rfl⟩
    · rintro ⟨y, ys', hy, hys, rfl⟩
      exact ⟨y, hy, ys', hys, rfl⟩

/-- A check of the declared type, `depth` types deep. -/
def Schema.checks [DecidableEq κ] (S : Schema κ) : ℕ → Value κ → FieldType κ → Bool
  | 0, _, _ => false
  | depth + 1, v, type =>
      match type, v with
      | .str, .str _ => true
      | .int, .int _ => true
      | .optional _, .none => true
      | .optional type, v => S.checks depth v type
      | .tuple type, .tuple items => items.all fun v => S.checks depth v type
      | .pair fst snd, .tuple [v, w] => S.checks depth v fst && S.checks depth w snd
      | .record cls, .record cls' fields =>
          decide (cls' = cls) && decide (fields.map Prod.fst = (S.fields cls).map Field.name) &&
            ((S.fields cls).all fun f =>
              match fields.lookup f.name with
              | some v => S.checks depth v f.type
              | none => true) && S.postInit cls fields
      | _, _ => false

theorem HasType.of_checks [DecidableEq κ] {S : Schema κ} :
    ∀ (depth : ℕ) {v : Value κ} {type : FieldType κ}, S.checks depth v type = true →
      HasType S v type := by
  intro depth
  induction depth with
  | zero => nofun
  | succ depth ih =>
    intro v type h
    unfold Schema.checks at h
    split at h
    · exact .str _
    · exact .int _
    · exact .absent _
    · exact .present (ih h)
    · exact .tuple fun v hv => ih (List.all_eq_true.mp h v hv)
    · rw [Bool.and_eq_true] at h
      exact .pair (ih h.1) (ih h.2)
    · simp only [Bool.and_eq_true, decide_eq_true_eq, List.all_eq_true] at h
      obtain ⟨⟨⟨rfl, hnames⟩, hfields⟩, hinit⟩ := h
      refine .record hnames (fun f hf v hv => ih ?_) hinit
      have hf' := hfields f hf
      rw [hv] at hf'
      exact hf'
    · cases h

theorem mapM_eq_map {α β : Type} {f : α → Option β} {g : α → β} {xs : List α}
    (h : ∀ x ∈ xs, f x = some (g x)) : xs.mapM f = some (xs.map g) := by
  rw [mapM_eq_some_iff, List.forall₂_map_right_iff, List.forall₂_same]
  exact h

/-- What undoes a function on each item undoes it on the list. -/
theorem mapM_inverse {α β : Type} {f : α → Option β} {g : β → Option α} {xs : List α}
    {ys : List β} (h : xs.mapM f = some ys)
    (hinv : ∀ x ∈ xs, ∀ y, f x = some y → g y = some x) : ys.mapM g = some xs := by
  rw [mapM_eq_some_iff] at h ⊢
  induction h with
  | nil => exact .nil
  | @cons x y xs ys hxy _ ih =>
    exact .cons (hinv x List.mem_cons_self y hxy)
      (ih fun x' hx' => hinv x' (List.mem_cons_of_mem _ hx'))

theorem exists_mem_of_mapM {α β : Type} {f : α → Option β} {xs : List α} {ys : List β}
    (h : xs.mapM f = some ys) {x : α} (hx : x ∈ xs) : ∃ y ∈ ys, f x = some y := by
  have hall := mapM_eq_some_iff.mp h
  induction hall with
  | nil => simp at hx
  | @cons a b xs ys hab hrest ih =>
    rcases List.mem_cons.mp hx with rfl | hx
    · exact ⟨b, List.mem_cons_self, hab⟩
    · obtain ⟨y, hy, hfy⟩ := ih (mapM_eq_some_iff.mpr hrest) hx
      exact ⟨y, List.mem_cons_of_mem _ hy, hfy⟩

theorem exists_mapM_eq_some {α β : Type} {f : α → Option β} {xs : List α}
    (h : ∀ x ∈ xs, ∃ y, f x = some y) : ∃ ys, xs.mapM f = some ys := by
  induction xs with
  | nil => exact ⟨[], rfl⟩
  | cons x xs ih =>
    obtain ⟨y, hy⟩ := h x List.mem_cons_self
    obtain ⟨ys, hys⟩ := ih fun x' hx' => h x' (List.mem_cons_of_mem _ hx')
    exact ⟨y :: ys, by simp [List.mapM_cons, hy, hys]⟩

/-- An item of a record is what its name looks up. -/
theorem Schema.lookup_of_mem (S : Schema κ) {cls : κ} {fields : List (String × Value κ)}
    (hnames : fields.map Prod.fst = (S.fields cls).map Field.name) {name : String} {v : Value κ}
    (hmem : (name, v) ∈ fields) :
    fields.lookup name = some v ∧ ∃ f ∈ S.fields cls, f.name = name := by
  have hnodup : (fields.map Prod.fst).Nodup := hnames ▸ S.nodup cls
  refine ⟨Dict.get?_eq_some_iff.mpr (show (name, v) ∈ (Dict.mk fields hnodup).items from hmem), ?_⟩
  have hname : name ∈ fields.map Prod.fst := List.mem_map.mpr ⟨(name, v), hmem, rfl⟩
  rw [hnames] at hname
  exact List.mem_map.mp hname

/-- Every value of a declared type has a document. -/
theorem HasType.toDoc? {S : Schema κ} {v : Value κ} {type : FieldType κ}
    (h : HasType S v type) : ∃ doc, v.toDoc? = some doc := by
  induction h with
  | str s => exact Value.toDoc?_of_isScalar trivial
  | int n => exact Value.toDoc?_of_isScalar trivial
  | absent type => exact Value.toDoc?_of_isScalar trivial
  | present _ ih => exact ih
  | tuple _ ih =>
    obtain ⟨docs, hdocs⟩ := exists_mapM_eq_some ih
    exact ⟨.arr docs, by rw [Value.toDoc?_tuple, hdocs]; rfl⟩
  | pair _ _ ihv ihw =>
    obtain ⟨doc, hdoc⟩ := ihv
    obtain ⟨doc', hdoc'⟩ := ihw
    exact ⟨.arr [doc, doc'], by simp [Value.toDoc?_tuple, hdoc, hdoc']⟩
  | @record cls fields hnames _ _ ih =>
    obtain ⟨d, hd⟩ : ∃ d, fields.mapM (fun f => (Value.toDoc? f.2).map (f.1, ·)) = some d := by
      refine exists_mapM_eq_some fun item hitem => ?_
      obtain ⟨hlookup, f, hf, hname⟩ := S.lookup_of_mem hnames hitem
      obtain ⟨doc, hdoc⟩ := ih f hf item.2 (hname ▸ hlookup)
      exact ⟨(item.1, doc), by rw [hdoc]; rfl⟩
    exact ⟨.obj d, by rw [Value.toDoc?_record, hd]; rfl⟩

/-! ## Construction -/

namespace Schema

/-- `cls(**kwargs)`: every name is a field, every field is given or has a default, and the check
of the class passes. -/
def construct (S : Schema κ) (cls : κ) (kwargs : List (String × Value κ)) :
    Option (Value κ) := do
  guard (∀ kw ∈ kwargs, kw.1 ∈ (S.fields cls).map Field.name)
  let fields ← (S.fields cls).mapM fun f =>
    ((kwargs.lookup f.name).or f.default).map (f.name, ·)
  guard (S.postInit cls fields = true)
  pure (.record cls fields)

/-- Fields found by name make the record they came from. -/
theorem mapM_lookup_eq {xs : List (Field κ)} {kwargs fields : List (String × Value κ)}
    (hnames : fields.map Prod.fst = xs.map Field.name) (hnodup : (xs.map Field.name).Nodup)
    (hlookup : ∀ f ∈ xs, kwargs.lookup f.name = fields.lookup f.name) :
    (xs.mapM fun f => ((kwargs.lookup f.name).or f.default).map (f.name, ·)) = some fields := by
  induction xs generalizing fields with
  | nil => simpa using hnames.symm
  | cons f xs ih =>
    cases fields with
    | nil => simp at hnames
    | cons item rest =>
      obtain ⟨name, v⟩ := item
      simp only [List.map_cons, List.cons.injEq] at hnames
      obtain ⟨rfl, hrest⟩ := hnames
      have hhead : kwargs.lookup f.name = some v := by
        rw [hlookup f List.mem_cons_self]
        simp
      have htail : ∀ f' ∈ xs, kwargs.lookup f'.name = rest.lookup f'.name := by
        intro f' hf'
        have hne : f'.name ≠ f.name := fun e =>
          (List.nodup_cons.mp hnodup).1 (e ▸ List.mem_map.mpr ⟨f', hf', rfl⟩)
        have hbeq : (f'.name == f.name) = false := by simpa using hne
        rw [hlookup f' (List.mem_cons_of_mem _ hf'), List.lookup_cons, hbeq]
      simp [List.mapM_cons, hhead, ih hrest (List.nodup_cons.mp hnodup).2 htail]

/-- Named arguments that look up as the fields of a record do construct it. -/
theorem construct_eq (S : Schema κ) {cls : κ} {kwargs fields : List (String × Value κ)}
    (hkwargs : ∀ kw ∈ kwargs, kw.1 ∈ (S.fields cls).map Field.name)
    (hnames : fields.map Prod.fst = (S.fields cls).map Field.name)
    (hlookup : ∀ f ∈ S.fields cls, kwargs.lookup f.name = fields.lookup f.name)
    (hinit : S.postInit cls fields = true) :
    S.construct cls kwargs = some (.record cls fields) := by
  simp only [construct, guard, if_pos hkwargs, mapM_lookup_eq hnames (S.nodup cls) hlookup]
  simp [hinit]

/-- Two records of a class are equal when their fields look up the same. -/
theorem fields_eq (S : Schema κ) {cls : κ} {fields fields' : List (String × Value κ)}
    (hnames : fields.map Prod.fst = (S.fields cls).map Field.name)
    (hnames' : fields'.map Prod.fst = (S.fields cls).map Field.name)
    (hlookup : ∀ f ∈ S.fields cls, fields.lookup f.name = fields'.lookup f.name) :
    fields = fields' := by
  have h := mapM_lookup_eq hnames (S.nodup cls) (fun f _ => rfl)
  have h' := mapM_lookup_eq hnames' (S.nodup cls) hlookup
  exact Option.some.inj (h.symm.trans h')

end Schema

/-! ## What is read back -/

theorem HasType.names {S : Schema κ} {cls : κ} {fields : List (String × Value κ)}
    (h : HasType S (.record cls fields) (.record cls)) :
    fields.map Prod.fst = (S.fields cls).map Field.name ∧ S.postInit cls fields = true := by
  cases h with
  | record hnames _ hinit => exact ⟨hnames, hinit⟩

theorem HasType.lookup_isSome {S : Schema κ} {cls : κ} {fields : List (String × Value κ)}
    (h : HasType S (.record cls fields) (.record cls)) {f : Field κ} (hf : f ∈ S.fields cls) :
    ∃ v, fields.lookup f.name = some v ∧ HasType S v f.type := by
  cases h with
  | record hnames htyped hinit =>
    have hname : f.name ∈ fields.map Prod.fst := hnames ▸ List.mem_map.mpr ⟨f, hf, rfl⟩
    obtain ⟨item, hitem, heq⟩ := List.mem_map.mp hname
    have hlookup := (S.lookup_of_mem hnames hitem).1
    rw [heq] at hlookup
    exact ⟨item.2, hlookup, htyped f hf item.2 hlookup⟩

theorem HasType.tuple_items {S : Schema κ} {v : Value κ} {type : FieldType κ}
    (h : HasType S v (.tuple type)) : ∃ items, v = .tuple items := by
  cases h with
  | tuple _ => exact ⟨_, rfl⟩

/-- The document of a record of a declared class. -/
theorem HasType.obj {S : Schema κ} {cls : κ} {fields : List (String × Value κ)}
    (h : HasType S (.record cls fields) (.record cls)) :
    ∃ d, (Value.record cls fields).toDoc? = some (.obj d) ∧
      d.map Prod.fst = (S.fields cls).map Field.name ∧
        ∀ name, d.lookup name = (fields.lookup name).bind Value.toDoc? := by
  obtain ⟨doc, hdoc⟩ := h.toDoc?
  have hobj := hdoc
  rw [Value.toDoc?_record, Option.map_eq_some_iff] at hobj
  obtain ⟨d, hd, rfl⟩ := hobj
  obtain ⟨hnames, hlookup⟩ := Value.toDoc?_fields hd
  cases h with
  | record hfields _ _ => exact ⟨d, hdoc, hnames.trans hfields, hlookup⟩

/-- A scalar field comes back as it was. -/
theorem HasType.lookup_readBack {S : Schema κ} {cls : κ} {fields : List (String × Value κ)}
    (h : HasType S (.record cls fields) (.record cls)) {d : List (String × Json)}
    (hd : ∀ name, d.lookup name = (fields.lookup name).bind Value.toDoc?) {f : Field κ}
    (hf : f ∈ S.fields cls) (hscalar : f.type.isScalar = true) :
    (Value.fieldsOfJson d).lookup f.name = fields.lookup f.name := by
  obtain ⟨v, hv, htyped⟩ := h.lookup_isSome hf
  have hv' := htyped.isScalar hscalar
  obtain ⟨doc, hdoc⟩ := Value.toDoc?_of_isScalar hv'
  rw [Value.lookup_fieldsOfJson, hd, hv, Option.bind_some, hdoc, Option.map_some,
    Value.ofJson_of_isScalar hv' hdoc]

/-- A record of scalars is built again from its document by name. -/
theorem HasType.construct_readBack {S : Schema κ} {cls : κ} {fields : List (String × Value κ)}
    (h : HasType S (.record cls fields) (.record cls))
    (hscalars : ∀ f ∈ S.fields cls, f.type.isScalar = true) :
    ∃ d, (Value.record cls fields).toDoc? = some (.obj d) ∧
      S.construct cls (Value.fieldsOfJson d) = some (.record cls fields) := by
  obtain ⟨d, hdoc, hnames, hlookup⟩ := h.obj
  refine ⟨d, hdoc, ?_⟩
  refine S.construct_eq (fun kw hkw => ?_) h.names.1
    (fun f hf => h.lookup_readBack hlookup hf (hscalars f hf)) h.names.2
  rw [← hnames, ← Value.map_fst_fieldsOfJson d]
  exact List.mem_map.mpr ⟨kw, hkw, rfl⟩

end Recto
