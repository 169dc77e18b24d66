import Recto.State.Phones
import Recto.Data.Faulty

/-!
# The phone registry and its file

Every call that changes the registry writes phones.json first and changes the
memory once the write landed; what follows (the sessions and the requests of a
phone that left) is written after, and a failure there is logged. A start loads
the file. A phone's id is the reference of its key, so one key is one phone.
-/

namespace Recto
namespace State

open RecordClass (Val)

namespace StateStore

variable (printable : Char → Bool)

/-- One document of phones.json: the algorithms are required there. -/
def phoneOfFile : Json → Option Val
  | .obj d => do
      let algorithms ← PostgresStateStore.itemsOf (← d.lookup "supported_algorithms")
      let bindings ← PostgresStateStore.memberBindingsFromDoc printable (d.lookup "member_bindings")
      records.construct .phoneRegistration (setItem "member_bindings" bindings
        (setItem "supported_algorithms" (.tuple (Value.itemsOfJson algorithms))
          (Value.fieldsOfJson d)))
  | _ => none

/-- `_load`, for phones.json. -/
def loadPhones (file : List Json) : Option (Dict String Val) :=
  file.foldlM (fun phones doc => do
    let p ← phoneOfFile printable doc
    let id ← strAttr? p "phone_id"
    pure (phones.set id p)) ∅

end StateStore

/-- The registry, the sessions and the queue in memory, each with its file. The sessions' and the
queue's documents are taken as the values they are read back as. -/
structure PhoneStore where
  phones : Dict String Val
  /-- The documents of phones.json. -/
  file : List Json
  sessions : Dict (String × String) Val
  sessionsFile : Dict (String × String) Val
  pending : Dict String Val
  pendingFile : Dict String Val

namespace PhoneStore

def empty : PhoneStore := ⟨∅, [], ∅, ∅, ∅, ∅⟩

abbrev Program := Faulty PhoneStore PyError

/-- What Python raises where the record is not what it should be. -/
def orRaise {α : Type} (x : Option α) (e : PyError) : Program α :=
  Faulty.ofExcept (x.elim (.error e) .ok)

/-- `_write_phones` -/
def writePhones (phones : Dict String Val) : Program PUnit := do
  let docs ← orRaise (phones.values.mapM PostgresStateStore.phoneToDoc) .typeError
  Faulty.write (fun s => { s with file := docs }) .osError

/-- The memory follows once the file landed. -/
def storePhones (phones : Dict String Val) : Program PUnit := do
  writePhones phones
  Faulty.modify fun s => { s with phones := phones }

/-- `_save_sessions` -/
def saveSessions : Program PUnit :=
  Faulty.write (fun s => { s with sessionsFile := s.sessions }) .osError

/-- `_save_pending` -/
def savePending : Program PUnit :=
  Faulty.write (fun s => { s with pendingFile := s.pending }) .osError

/-- `except OSError`: logged, never raised. -/
def logged (m : Program PUnit) : Program PUnit :=
  m.handle fun e => if e = .osError then pure ⟨⟩ else Faulty.raise e

/-- `_save_after_phones` -/
def saveAfterPhones : Program PUnit := do
  logged saveSessions
  logged savePending

/-- Drop the sessions and the requests tied to a phone. -/
def dropPhone (id : String) : Program PUnit := do
  Faulty.modify fun s =>
    { s with
      sessions := s.sessions.filter fun _ sess => decide (strAttr? sess "phone_id" ≠ some id)
      pending := s.pending.filter fun _ req => decide (strAttr? req "phone_id" ≠ some id) }
  saveAfterPhones

/-- `register_phone` -/
def registerPhone (reg : Val) : Program Val := do
  let s ← Faulty.get
  let (stored, phones) ← orRaise (StateStore.registerPhone s.phones reg) .attributeError
  storePhones phones
  pure stored

/-- `revoke_phone` -/
def revokePhone (id : String) : Program Bool := do
  let s ← Faulty.get
  if id ∈ s.phones then do
    storePhones (s.phones.erase id)
    dropPhone id
    pure true
  else pure false

/-- `replace(phone, push_token=…, push_platform=…, last_seen_unix=…)` -/
def withPush (p : Val) (token platform : String) (now : ℤ) : Option Val :=
  match p with
  | .record cls fields =>
      some (.record cls (setItem "last_seen_unix" (.int now)
        (setItem "push_platform" (.str platform) (setItem "push_token" (.str token) fields))))
  | _ => none

/-- `update_phone_push` -/
def updatePhonePush (id token platform : String) (now : ℤ) : Program Bool := do
  let s ← Faulty.get
  match s.phones.get? id with
  | none => pure false
  | some p => do
      let p ← orRaise (withPush p token platform now) .typeError
      storePhones (s.phones.set id p)
      pure true

/-- `replace_phone` -/
def replacePhone (occupant : String) (reg : Val) : Program (Option Val) := do
  let s ← Faulty.get
  if occupant ∈ s.phones then do
    let (stored, phones) ← orRaise (StateStore.registerPhone (s.phones.erase occupant) reg)
      .attributeError
    storePhones phones
    dropPhone occupant
    pure (some stored)
  else pure none

/-- A call of the run. -/
inductive Call where
  | register (reg : Val)
  | replace (occupant : String) (reg : Val)
  | revoke (id : String)
  | updatePush (id token platform : String) (now : ℤ)

inductive Answer where
  | phone (stored : Option Val)
  | changed (b : Bool)

def Call.run : Call → Program Answer
  | .register reg => do
      let stored ← registerPhone reg
      pure (.phone (some stored))
  | .replace occupant reg => do
      let stored ← replacePhone occupant reg
      pure (.phone stored)
  | .revoke id => do
      let changed ← revokePhone id
      pure (.changed changed)
  | .updatePush id token platform now => do
      let changed ← updatePhonePush id token platform now
      pure (.changed changed)

variable (printable : Char → Bool)

/-- `_load`: requests are not taken up again. -/
def start (s : PhoneStore) : PhoneStore :=
  { s with
    phones := (StateStore.loadPhones printable s.file).getD ∅
    sessions := s.sessionsFile
    pending := ∅ }

inductive Step where
  | call (faults : List Fault) (call : Call)
  | restart

/-- The store after a step. A process that stopped inside a call starts again. -/
def Step.run (s : PhoneStore) : Step → PhoneStore
  | .call faults c =>
      match c.run.run faults s with
      | .done _ s _ => s
      | .raised _ s _ => s
      | .stopped s => s.start printable
  | .restart => s.start printable

/-- The store after the steps. -/
def after (steps : List Step) : PhoneStore := steps.foldl (Step.run printable) empty

theorem after_concat (steps : List Step) (step : Step) :
    after printable (steps ++ [step]) = step.run printable (after printable steps) :=
  List.foldl_append

end PhoneStore

/-! ## A phone with a field changed -/

theorem IsPhone.setField {fields : List (String × Val)}
    (h : IsPhone (.record .phoneRegistration fields)) {f : Field RecordClass}
    (hf : f ∈ records.fields .phoneRegistration) {v : Val} (hv : HasType records v f.type) :
    IsPhone (.record .phoneRegistration (setItem f.name v fields)) := by
  obtain ⟨fields', heq, h⟩ := h.exists_fields
  obtain ⟨-, rfl⟩ := Value.record.inj heq
  have hnames := h.names.1
  have hmem : f.name ∈ fields.map Prod.fst := by
    rw [hnames]
    exact List.mem_map.mpr ⟨f, hf, rfl⟩
  refine .record ?_ (fun f' hf' w hw => ?_) rfl
  · rw [map_fst_setItem, if_pos hmem, hnames]
  · by_cases hname : f'.name = f.name
    · have hsame : f' = f := by
        exact List.inj_on_of_nodup_map (RecordClass.nodup_fields .phoneRegistration) hf' hf hname
      rw [hname, lookup_setItem_self] at hw
      rw [hsame, ← Option.some.inj hw]
      exact hv
    · rw [lookup_setItem_of_ne hname] at hw
      obtain ⟨w', hw', htyped⟩ := h.lookup_isSome hf'
      rw [← Option.some.inj (hw'.symm.trans hw)]
      exact htyped

theorem PhoneStore.withPush_isPhone {p : Val} (h : IsPhone p) (token platform : String) (now : ℤ) :
    ∃ p', withPush p token platform now = some p' ∧ IsPhone p' ∧
      strAttr? p' "phone_id" = strAttr? p "phone_id" ∧
      strAttr? p' "public_key_b64u" = strAttr? p "public_key_b64u" := by
  obtain ⟨fields, rfl, -⟩ := h.exists_fields
  refine ⟨_, rfl, ?_, ?_, ?_⟩
  · refine ((h.setField (f := RecordClass.optional .str "push_token") ?_ (.present (.str token))).setField
      (f := RecordClass.optional .str "push_platform") ?_ (.present (.str platform))).setField
      (f := RecordClass.required "last_seen_unix" .int) ?_ (.int now) <;>
      simp [records, RecordClass.fields, RecordClass.phoneRegistrationFields]
  all_goals
    simp only [strAttr?, Value.attr?]
    rw [lookup_setItem_of_ne (by decide), lookup_setItem_of_ne (by decide),
      lookup_setItem_of_ne (by decide)]

/-! ## The file read back -/

theorem StateStore.phoneOfFile_phoneDoc {p : Val} (h : IsPhone p) (printable : Char → Bool) :
    StateStore.phoneOfFile printable (phoneDoc p) = some p := by
  have hback := (h.readBack printable).2.1
  obtain ⟨fields, rfl, h⟩ := h.exists_fields
  obtain ⟨d, hdoc, hlookup, -⟩ := PostgresStateStore.phoneFromDoc_phoneToDoc printable h
  obtain ⟨algorithms, -, halgorithms, htyped, -⟩ := PostgresStateStore.phone_tuples h
  obtain ⟨docs, -, hfield⟩ := PostgresStateStore.tuple_lookup hlookup halgorithms htyped
  have hphone : phoneDoc (.record .phoneRegistration fields) = .obj d := by
    rw [phoneDoc, hdoc]
    rfl
  rw [hphone] at hback ⊢
  rw [← hback]
  simp only [StateStore.phoneOfFile, PostgresStateStore.phoneFromDoc, hfield,
    PostgresStateStore.itemsOrNone_arr, PostgresStateStore.itemsOf, Option.bind_eq_bind,
    Option.bind_some]

theorem items_set_of_not_mem {d : Dict String Val} {k : String} {v : Val} (h : k ∉ d) :
    (d.set k v).items = d.items ++ [(k, v)] := by
  have hnodup : ((d.items ++ [(k, v)]).map Prod.fst).Nodup := by
    rw [List.map_append]
    exact d.nodup.append (List.nodup_singleton k) (by simpa [Dict.mem_def] using h)
  obtain ⟨items, hitems⟩ := d
  induction items with
  | nil => rfl
  | cons item rest ih =>
    obtain ⟨k', w⟩ := item
    have hne : k' ≠ k := fun he => h (by simp [Dict.mem_def, he])
    have htail := ih (List.nodup_cons.mp hitems).2 (fun hmem => h (List.mem_cons_of_mem _ hmem))
      (List.nodup_cons.mp hnodup).2
    simp only [Dict.set] at htail ⊢
    simp [setItem, hne, htail]

/-- Phones under their ids are loaded as they were saved. -/
theorem StateStore.loadPhones_eq {phones : Dict String Val} (printable : Char → Bool)
    (h : ∀ id p, phones.get? id = some p → IsPhone p ∧ strAttr? p "phone_id" = some id) :
    StateStore.loadPhones printable (phones.values.map phoneDoc) = some phones := by
  have hload : ∀ (items : List (String × Val)) (acc : Dict String Val),
      ((acc.items ++ items).map Prod.fst).Nodup →
      (∀ item ∈ items, IsPhone item.2 ∧ strAttr? item.2 "phone_id" = some item.1) →
      ∃ loaded, (items.map fun item => phoneDoc item.2).foldlM (fun phones doc => do
          let p ← StateStore.phoneOfFile printable doc
          let id ← strAttr? p "phone_id"
          pure (phones.set id p)) acc = some loaded ∧ loaded.items = acc.items ++ items := by
    intro items
    induction items with
    | nil => exact fun acc _ _ => ⟨acc, rfl, by simp⟩
    | cons item rest ih =>
      intro acc hnodup hitems
      obtain ⟨id, p⟩ := item
      obtain ⟨hp, hid⟩ := hitems _ List.mem_cons_self
      have hfresh : id ∉ acc := by
        intro hmem
        rw [List.map_append, List.nodup_append] at hnodup
        exact hnodup.2.2 id hmem id (by simp) rfl
      have hset := items_set_of_not_mem (v := p) hfresh
      obtain ⟨loaded, hfold, hloaded⟩ := ih (acc.set id p)
        (by rw [hset]; simpa using hnodup) fun item hitem => hitems item (List.mem_cons_of_mem _ hitem)
      refine ⟨loaded, ?_, ?_⟩
      · simpa [StateStore.phoneOfFile_phoneDoc hp printable, hid] using hfold
      · rw [hloaded, hset]
        simp
  obtain ⟨loaded, hfold, hitems⟩ := hload phones.items ∅ (by simpa using phones.nodup)
    fun item hitem => h _ _ (Dict.get?_eq_some_iff.mpr hitem)
  have hphones : loaded = phones := Dict.ext (by simpa using hitems)
  rw [StateStore.loadPhones, Dict.values, List.map_map, ← hphones]
  exact hphones ▸ hfold

/-! ## One key, one phone -/

/-- The phones stand under the references of their keys. -/
def OwnKey (ref : String → String) (phones : Dict String Val) : Prop :=
  ∀ id p, phones.get? id = some p → IsPhone p ∧ strAttr? p "phone_id" = some id ∧
    ∃ key, strAttr? p "public_key_b64u" = some key ∧ id = ref key

/-- A registration whose id is the reference of its key. -/
def Genuine (ref : String → String) (reg : Val) : Prop :=
  IsPhone reg ∧ ∃ key, strAttr? reg "public_key_b64u" = some key ∧
    strAttr? reg "phone_id" = some (ref key)

variable {ref : String → String} {phones : Dict String Val}

theorem OwnKey.empty : OwnKey ref ∅ := fun id p h => by simp at h

theorem OwnKey.erase (h : OwnKey ref phones) (id : String) : OwnKey ref (phones.erase id) := by
  intro id' p hp
  rw [Dict.get?_erase] at hp
  split_ifs at hp
  exact h id' p hp

theorem OwnKey.set (h : OwnKey ref phones) {id key : String} {p : Val} (hp : IsPhone p)
    (hid : strAttr? p "phone_id" = some id) (hkey : strAttr? p "public_key_b64u" = some key)
    (href : id = ref key) : OwnKey ref (phones.set id p) := by
  intro id' p' hp'
  rw [Dict.get?_set] at hp'
  split_ifs at hp' with hsame
  · obtain rfl := Option.some.inj hp'
    exact ⟨hp, hsame ▸ hid, key, hkey, hsame.trans href⟩
  · exact h id' p' hp'

theorem OwnKey.mapM_eq (h : OwnKey ref phones) :
    phones.values.mapM PostgresStateStore.phoneToDoc = some (phones.values.map phoneDoc) := by
  refine mapM_eq_map fun p hp => ?_
  obtain ⟨id, hget⟩ := Dict.mem_values_iff.mp hp
  exact ((h id p hget).1.readBack fun _ => true).1

theorem OwnKey.load (h : OwnKey ref phones) (printable : Char → Bool) :
    StateStore.loadPhones printable (phones.values.map phoneDoc) = some phones :=
  StateStore.loadPhones_eq printable fun id p hp => ⟨(h id p hp).1, (h id p hp).2.1⟩

/-- What a registration stores: a phone under the reference of its key, first paired when the phone
that held the key was. -/
structure Stored (phones : Dict String Val) (reg stored : Val) (id key : String) : Prop where
  isPhone : IsPhone stored
  phoneId : strAttr? stored "phone_id" = some id
  holds : strAttr? stored "public_key_b64u" = some key
  incoming : strAttr? reg "public_key_b64u" = some key
  registered : ∀ id' held, phones.get? id' = some held →
    strAttr? held "public_key_b64u" = some key →
      id' = id ∧ stored.attr? "registered_at_unix" = held.attr? "registered_at_unix"

theorem OwnKey.registerPhone (h : OwnKey ref phones) {reg : Val} (hreg : Genuine ref reg) :
    ∃ stored key, StateStore.registerPhone phones reg =
        some (stored, phones.set (ref key) stored) ∧
      Stored phones reg stored (ref key) key ∧ OwnKey ref (phones.set (ref key) stored) := by
  obtain ⟨hphone, key, hkey, hid⟩ := hreg
  cases hfind : phones.values.find? fun p => strAttr? p "public_key_b64u" = some key with
  | none =>
    refine ⟨reg, key, ?_, ⟨hphone, hid, hkey, hkey, ?_⟩, h.set hphone hid hkey rfl⟩
    · simp [StateStore.registerPhone, hkey, hfind, mergeOntoExisting, hid]
    · intro id' held hheld hkey'
      have := List.find?_eq_none.mp hfind held (Dict.mem_values_iff.mpr ⟨_, hheld⟩)
      exact absurd hkey' (by simpa using this)
  | some p =>
    have hkeyp : strAttr? p "public_key_b64u" = some key := by simpa using List.find?_some hfind
    obtain ⟨idp, hget⟩ := Dict.mem_values_iff.mp (List.mem_of_find?_eq_some hfind)
    obtain ⟨hp, hidp, key', hkey', rfl⟩ := h _ _ hget
    obtain rfl : key' = key := Option.some.inj (hkey'.symm.trans hkeyp)
    obtain ⟨stored, hmerge, hstored, hsame, -⟩ := mergeOntoExisting_isPhone hphone
      fun q (hq : some p = some q) => by
        obtain rfl := Option.some.inj hq
        exact hp
    obtain ⟨fields, rfl, -⟩ := hphone.exists_fields
    obtain ⟨id₀, -, registered, hid₀, -, hregistered⟩ := hp.attrs
    obtain rfl : id₀ = ref key' := by
      simpa [strAttr?, hid₀] using hidp
    have hform : stored = .record .phoneRegistration (setItem "registered_at_unix" (.int registered)
        (setItem "phone_id" (.str (ref key')) fields)) := by
      simpa [mergeOntoExisting, hid₀, hregistered] using hmerge.symm
    have hkeyStored : strAttr? stored "public_key_b64u" = some key' := by
      rw [strAttr?, hsame]
      exact hkey
    have hidStored : strAttr? stored "phone_id" = some (ref key') := by
      rw [hform, strAttr?, Value.attr?, lookup_setItem_of_ne (by decide), lookup_setItem_self]
    refine ⟨stored, key', ?_, ⟨hstored, hidStored, hkeyStored, hkey, ?_⟩,
      h.set hstored hidStored hkeyStored rfl⟩
    · simp [StateStore.registerPhone, hkey, hfind, hmerge, hidStored]
    · intro id' held hheld hkeyHeld
      obtain ⟨-, -, key'', hkey'', rfl⟩ := h _ _ hheld
      obtain rfl : key'' = key' := Option.some.inj (hkey''.symm.trans hkeyHeld)
      obtain rfl : held = p := Option.some.inj (hheld.symm.trans hget)
      refine ⟨rfl, ?_⟩
      rw [hregistered, hform, Value.attr?, lookup_setItem_self]

namespace PhoneStore

variable {F : Fault → Prop} {s : PhoneStore} {phones' : Dict String Val}

/-- The registry and its file: what the claims about phones are about. -/
def view (s : PhoneStore) : Dict String Val × List Json := (s.phones, s.file)

/-- Where a change of the registry may end: it landed, or nothing changed, or the process stopped
with either file. -/
def Landing (s : PhoneStore) (phones' : Dict String Val) {α : Type} (Q : α → Prop) :
    Faulty.Post PhoneStore PyError α where
  done a s' := s'.view = (phones', phones'.values.map phoneDoc) ∧ Q a
  raised _ s' := s'.view = s.view
  stopped s' := s'.file = s.file ∨ s'.file = phones'.values.map phoneDoc

theorem storePhones_sat (h : OwnKey ref phones') : (storePhones phones').Sat F s
    (Landing s phones' fun _ => True) := by
  have hdocs : (orRaise (phones'.values.mapM PostgresStateStore.phoneToDoc) .typeError :
      Program (List Json)) = pure (phones'.values.map phoneDoc) := by
    rw [h.mapM_eq]
    rfl
  rw [storePhones, writePhones, hdocs]
  refine .bind (.bind (.pure (.write ?_ (fun _ => rfl) (fun _ => Or.inl rfl) fun _ => Or.inr rfl)))
  exact .modify ⟨rfl, trivial⟩

/-- A write that is logged when it fails. -/
theorem logged_sat {f : PhoneStore → PhoneStore} (hf : ∀ s, (f s).view = s.view) :
    (logged (Faulty.write f .osError)).Sat F s ⟨fun _ s' => s'.view = s.view, fun _ _ => False,
      fun s' => s'.view = s.view⟩ :=
  .handle (.write (hf s) (fun _ => .pure rfl) (fun _ => rfl) fun _ => hf s)

/-- What follows a change of the registry leaves it alone, and never raises. -/
theorem dropPhone_sat (id : String) : (dropPhone id).Sat F s
    ⟨fun _ s' => s'.view = s.view, fun _ _ => False, fun s' => s'.view = s.view⟩ := by
  have hsessions : ∀ s : PhoneStore, (logged saveSessions).Sat F s
      ⟨fun _ s' => s'.view = s.view, fun _ _ => False, fun s' => s'.view = s.view⟩ :=
    fun _ => logged_sat fun _ => rfl
  have hpending : ∀ s : PhoneStore, (logged savePending).Sat F s
      ⟨fun _ s' => s'.view = s.view, fun _ _ => False, fun s' => s'.view = s.view⟩ :=
    fun _ => logged_sat fun _ => rfl
  refine .bindModify (.bind ((hsessions _).mono ?_ (fun _ _ h => h) fun _ h => h))
  intro _ s' hs'
  exact (hpending s').mono (fun _ s'' hs'' => hs''.trans hs') (fun _ _ h => h)
    fun s'' hs'' => hs''.trans hs'

/-- After the registry landed, what leaves it alone ends where it landed. -/
theorem Landing.andThen {α β : Type} {m : Program α} {f : α → Program β} {Q : α → Prop}
    {R : β → Prop} (hm : m.Sat F s (Landing s phones' Q))
    (hf : ∀ a s', Q a → (f a).Sat F s' ⟨fun b s'' => s''.view = s'.view ∧ R b, fun _ _ => False,
      fun s'' => s''.view = s'.view⟩) : (m >>= f).Sat F s (Landing s phones' R) := by
  refine .bind (hm.mono ?_ (fun _ _ h => h) fun _ h => h)
  rintro a s' ⟨hview, hQ⟩
  refine (hf a s' hQ).mono ?_ (fun _ _ h => h.elim) fun s'' h => ?_
  · rintro b s'' ⟨h, hR⟩
    exact ⟨h.trans hview, hR⟩
  · exact Or.inr (congrArg Prod.snd (h.trans hview))

theorem Landing.thenPure {α β : Type} {m : Program α} {Q : α → Prop} {f : α → β} {b : β}
    (hm : m.Sat F s (Landing s phones' Q)) (hf : ∀ a, Q a → f a = b) :
    (m >>= fun a => pure (f a)).Sat F s (Landing s phones' (· = b)) :=
  Landing.andThen hm fun a _ hQ => .pure ⟨rfl, hf a hQ⟩

theorem storePhones_drop_sat (h : OwnKey ref phones') (id : String) {α : Type} (a : α) :
    (do storePhones phones'; dropPhone id; pure a : Program α).Sat F s
      (Landing s phones' (· = a)) :=
  Landing.andThen (storePhones_sat h) fun _ _ _ =>
    .bind ((dropPhone_sat id).mono (fun _ _ h => .pure ⟨h, rfl⟩) (fun _ _ h => h) fun _ h => h)

theorem unchanged_sat {α : Type} {Q : α → Prop} {a : α} (hQ : Q a)
    (hfile : s.file = s.phones.values.map phoneDoc) :
    (pure a : Program α).Sat F s (Landing s s.phones Q) :=
  .pure ⟨by rw [view, hfile], hQ⟩

/-- The registry and its file agree, and the phones stand under the references of their keys. -/
structure Kept (ref : String → String) (s : PhoneStore) : Prop where
  own : OwnKey ref s.phones
  file_eq : s.file = s.phones.values.map phoneDoc

theorem Kept.of_view (h : OwnKey ref phones')
    (hview : s.view = (phones', phones'.values.map phoneDoc)) : Kept ref s := by
  obtain ⟨rfl, hfile⟩ := Prod.mk.inj hview
  exact ⟨h, hfile⟩

theorem start_of_file (printable : Char → Bool) (h : OwnKey ref phones')
    (hfile : s.file = phones'.values.map phoneDoc) :
    Kept ref (s.start printable) ∧ (s.start printable).phones = phones' := by
  have hphones : (s.start printable).phones = phones' := by
    rw [start, hfile, h.load printable]
    rfl
  exact ⟨⟨hphones.symm ▸ h, by rw [hphones]; exact hfile⟩, hphones⟩

def Call.Genuine (ref : String → String) : Call → Prop
  | .register reg => State.Genuine ref reg
  | .replace _ reg => State.Genuine ref reg
  | _ => True

/-- What a call makes of the registry when it lands, with its answer. -/
inductive Call.Changes (ref : String → String) (phones : Dict String Val) :
    Call → Dict String Val → Answer → Prop where
  | register {reg stored : Val} {key : String} :
      Stored phones reg stored (ref key) key →
      Changes ref phones (.register reg) (phones.set (ref key) stored) (.phone (some stored))
  | replace {occupant key : String} {reg stored : Val} :
      occupant ∈ phones → Stored (phones.erase occupant) reg stored (ref key) key →
      Changes ref phones (.replace occupant reg) ((phones.erase occupant).set (ref key) stored)
        (.phone (some stored))
  | vacant {occupant : String} {reg : Val} : occupant ∉ phones →
      Changes ref phones (.replace occupant reg) phones (.phone none)
  | revoke {id : String} : id ∈ phones →
      Changes ref phones (.revoke id) (phones.erase id) (.changed true)
  | unknown {id : String} : id ∉ phones → Changes ref phones (.revoke id) phones (.changed false)
  | push {id token platform : String} {now : ℤ} {p p' : Val} : phones.get? id = some p →
      withPush p token platform now = some p' →
      Changes ref phones (.updatePush id token platform now) (phones.set id p') (.changed true)
  | pushUnknown {id token platform : String} {now : ℤ} : id ∉ phones →
      Changes ref phones (.updatePush id token platform now) phones (.changed false)

/-- Every call changes the registry as one whole. -/
theorem Call.sat (h : Kept ref s) {call : Call} (hcall : call.Genuine ref) :
    ∃ phones' answer, OwnKey ref phones' ∧ call.Changes ref s.phones phones' answer ∧
      call.run.Sat F s (Landing s phones' (· = answer)) := by
  cases call with
  | register reg =>
    obtain ⟨stored, key, heq, hstored, hown⟩ := h.own.registerPhone hcall
    refine ⟨_, _, hown, .register hstored, ?_⟩
    have hregister : (PhoneStore.registerPhone reg).Sat F s
        (Landing s (s.phones.set (ref key) stored) (· = stored)) := by
      refine .bindGet ?_
      rw [heq]
      exact .bindExcept (fun _ hok => by
        obtain rfl := Except.ok.inj hok
        exact Landing.thenPure (storePhones_sat hown) fun _ _ => rfl) nofun
    exact Landing.thenPure hregister fun _ ha => by rw [ha]
  | replace occupant reg =>
    by_cases hmem : occupant ∈ s.phones
    · obtain ⟨stored, key, heq, hstored, hown⟩ := (h.own.erase occupant).registerPhone hcall
      refine ⟨_, _, hown, .replace hmem hstored, ?_⟩
      have hreplace : (replacePhone occupant reg).Sat F s
          (Landing s ((s.phones.erase occupant).set (ref key) stored) (· = some stored)) := by
        refine .bindGet (.ite (fun _ => ?_) fun hno => absurd hmem hno)
        rw [heq]
        exact .bindExcept (fun _ hok => by
          obtain rfl := Except.ok.inj hok
          exact storePhones_drop_sat hown occupant (some stored)) nofun
      exact Landing.thenPure hreplace fun _ ha => by rw [ha]
    · refine ⟨_, _, h.own, .vacant hmem, ?_⟩
      have hreplace : (replacePhone occupant reg).Sat F s (Landing s s.phones (· = none)) :=
        .bindGet (.ite (fun hyes => absurd hyes hmem) fun _ => unchanged_sat rfl h.file_eq)
      exact Landing.thenPure hreplace fun _ ha => by rw [ha]
  | revoke id =>
    by_cases hmem : id ∈ s.phones
    · refine ⟨_, _, h.own.erase id, .revoke hmem, ?_⟩
      have hrevoke : (revokePhone id).Sat F s (Landing s (s.phones.erase id) (· = true)) :=
        .bindGet (.ite (fun _ => storePhones_drop_sat (h.own.erase id) id true)
          fun hno => absurd hmem hno)
      exact Landing.thenPure hrevoke fun _ ha => by rw [ha]
    · refine ⟨_, _, h.own, .unknown hmem, ?_⟩
      have hrevoke : (revokePhone id).Sat F s (Landing s s.phones (· = false)) :=
        .bindGet (.ite (fun hyes => absurd hyes hmem) fun _ => unchanged_sat rfl h.file_eq)
      exact Landing.thenPure hrevoke fun _ ha => by rw [ha]
  | updatePush id token platform now =>
    cases hget : s.phones.get? id with
    | none =>
      refine ⟨_, _, h.own, .pushUnknown (Dict.get?_eq_none_iff.mp hget), ?_⟩
      have hupdate : (updatePhonePush id token platform now).Sat F s
          (Landing s s.phones (· = false)) := by
        refine .bindGet ?_
        rw [hget]
        exact unchanged_sat rfl h.file_eq
      exact Landing.thenPure hupdate fun _ ha => by rw [ha]
    | some p =>
      obtain ⟨hp, hid, key, hkey, href⟩ := h.own id p hget
      obtain ⟨p', hpush, hp', hid', hkey'⟩ := withPush_isPhone hp token platform now
      have hown : OwnKey ref (s.phones.set id p') :=
        h.own.set hp' (hid'.trans hid) (hkey'.trans hkey) href
      refine ⟨_, _, hown, .push hget hpush, ?_⟩
      have hupdate : (updatePhonePush id token platform now).Sat F s
          (Landing s (s.phones.set id p') (· = true)) := by
        refine .bindGet ?_
        simp only [hget, hpush]
        exact .bindExcept (fun _ hok => by
          obtain rfl := Except.ok.inj hok
          exact Landing.thenPure (storePhones_sat hown) fun _ _ => rfl) nofun
      exact Landing.thenPure hupdate fun _ ha => by rw [ha]

/-! ## Every run -/

variable {printable : Char → Bool}

def Step.Genuine (ref : String → String) : Step → Prop
  | .call _ c => c.Genuine ref
  | .restart => True

/-- One call, however its writes go: it landed, or left the registry as it was. -/
theorem Kept.call (printable : Char → Bool) (h : Kept ref s) {call : Call}
    (hcall : call.Genuine ref) (faults : List Fault) :
    ∃ phones' answer, call.Changes ref s.phones phones' answer ∧
      Kept ref ((Step.call faults call).run printable s) ∧
      (((Step.call faults call).run printable s).phones = s.phones ∨
        ((Step.call faults call).run printable s).phones = phones') ∧
      (∀ a s' rest, call.run.run faults s = .done a s' rest → a = answer ∧ s'.phones = phones') ∧
      ∀ e s' rest, call.run.run faults s = .raised e s' rest → s'.view = s.view := by
  obtain ⟨phones', answer, hown, hchanges, hsat⟩ := Call.sat (F := Fault.Any) h hcall
  have hrun := hsat faults fun _ _ => trivial
  refine ⟨phones', answer, hchanges, ?_⟩
  cases hending : call.run.run faults s with
  | done a s' rest =>
    rw [hending] at hrun
    obtain ⟨⟨hview, rfl⟩, -⟩ := hrun
    have hphones : s'.phones = phones' := congrArg Prod.fst hview
    simp only [Step.run, hending]
    refine ⟨.of_view hown hview, Or.inr hphones, ?_, nofun⟩
    rintro a' s'' rest' heq
    obtain ⟨rfl, rfl, -⟩ := Ending.done.inj heq
    exact ⟨rfl, hphones⟩
  | raised e s' rest =>
    rw [hending] at hrun
    have hview : s'.view = s.view := hrun.1
    simp only [Step.run, hending]
    refine ⟨.of_view h.own (hview.trans (by rw [view, h.file_eq])),
      Or.inl (congrArg Prod.fst hview), nofun, ?_⟩
    rintro e' s'' rest' heq
    obtain ⟨-, rfl, -⟩ := Ending.raised.inj heq
    exact hview
  | stopped s' =>
    rw [hending] at hrun
    simp only [Step.run, hending]
    rcases hrun with hfile | hfile
    · have hstart := start_of_file printable h.own (hfile.trans h.file_eq)
      exact ⟨hstart.1, Or.inl hstart.2, nofun, nofun⟩
    · have hstart := start_of_file printable hown hfile
      exact ⟨hstart.1, Or.inr hstart.2, nofun, nofun⟩

theorem Kept.step (h : Kept ref s) {step : Step} (hstep : step.Genuine ref) :
    Kept ref (step.run printable s) := by
  cases step with
  | restart => exact (start_of_file printable h.own h.file_eq).1
  | call faults c =>
    obtain ⟨-, -, -, hkept, -⟩ := h.call printable (show c.Genuine ref from hstep) faults
    exact hkept

theorem kept_after {steps : List Step} (h : ∀ step ∈ steps, step.Genuine ref) :
    Kept ref (after printable steps) := by
  induction steps using List.reverseRecOn with
  | nil => exact ⟨.empty, rfl⟩
  | append_singleton steps step ih =>
    rw [after_concat]
    exact (ih fun step' hstep' => h step' (List.mem_append_left _ hstep')).step (h step (by simp))

/-- The registry in memory and on disk. -/
structure Agrees (printable : Char → Bool) (s : PhoneStore) : Prop where
  oneKey : ∀ id p id' p', s.phones.get? id = some p → s.phones.get? id' = some p' →
    strAttr? p "public_key_b64u" = strAttr? p' "public_key_b64u" → id = id'
  ownId : ∀ id p, s.phones.get? id = some p → strAttr? p "phone_id" = some id
  reload : StateStore.loadPhones printable s.file = some s.phones

/-- A call that raises leaves the registry as it was. -/
def RaisesUnchanged (ref : String → String) (s : PhoneStore) : Prop :=
  ∀ call : Call, call.Genuine ref → ∀ faults e s' rest, call.run.run faults s = .raised e s' rest →
    s'.phones = s.phones ∧ s'.file = s.file

/-- A key that is held keeps its id and the time of its first pairing, also where it replaces the
phone of another key. -/
def KeepsPairing (ref : String → String) (s : PhoneStore) : Prop :=
  ∀ reg, Genuine ref reg → ∀ id held, s.phones.get? id = some held →
    strAttr? held "public_key_b64u" = strAttr? reg "public_key_b64u" →
    ∀ call : Call, (call = .register reg ∨
        ∃ occupant ∈ s.phones, occupant ≠ id ∧ call = .replace occupant reg) →
      ∀ faults a s' rest, call.run.run faults s = .done a s' rest →
        ∃ stored, a = .phone (some stored) ∧ s'.phones.get? id = some stored ∧
          strAttr? stored "phone_id" = some id ∧
          stored.attr? "registered_at_unix" = held.attr? "registered_at_unix"

/-- A replacement takes the occupant out and the incoming phone in together, or changes nothing,
also where the process stopped inside it and started again. -/
def ReplacesWhole (printable : Char → Bool) (ref : String → String) (s : PhoneStore) : Prop :=
  ∀ occupant reg, Genuine ref reg → ∀ faults,
    ((Step.call faults (.replace occupant reg)).run printable s).phones = s.phones ∨
    occupant ∈ s.phones ∧ ∃ id stored,
      strAttr? stored "public_key_b64u" = strAttr? reg "public_key_b64u" ∧
      ((Step.call faults (.replace occupant reg)).run printable s).phones =
        (s.phones.erase occupant).set id stored

theorem Kept.agrees (h : Kept ref s) : Agrees printable s where
  oneKey id p id' p' hp hp' hkey := by
    obtain ⟨-, -, key, hkeyp, rfl⟩ := h.own id p hp
    obtain ⟨-, -, key', hkeyp', rfl⟩ := h.own id' p' hp'
    rw [hkeyp, hkeyp'] at hkey
    rw [Option.some.inj hkey]
  ownId id p hp := (h.own id p hp).2.1
  reload := h.file_eq ▸ h.own.load printable

theorem Kept.keepsPairing (h : Kept ref s) : KeepsPairing ref s := by
  intro reg hreg id held hheld hkey call hcall faults a s' rest hrun
  have hgenuine : call.Genuine ref := by
    rcases hcall with rfl | ⟨occupant, -, -, rfl⟩ <;> exact hreg
  obtain ⟨phones', answer, hchanges, -, -, hdone, -⟩ :=
    h.call (fun _ => true) hgenuine faults
  obtain ⟨rfl, hphones⟩ := hdone a s' rest hrun
  rcases hcall with rfl | ⟨occupant, hmem, hne, rfl⟩
  · cases hchanges with
    | @register _ stored key hstored =>
      obtain ⟨rfl, hregistered⟩ := hstored.registered id held hheld (hkey.trans hstored.incoming)
      exact ⟨stored, rfl, by rw [hphones, Dict.get?_set_self], hstored.phoneId, hregistered⟩
  · cases hchanges with
    | @replace _ key _ stored _ hstored =>
      have hkept : (s.phones.erase occupant).get? id = some held := by
        rw [Dict.get?_erase, if_neg (Ne.symm hne), hheld]
      obtain ⟨rfl, hregistered⟩ := hstored.registered id held hkept (hkey.trans hstored.incoming)
      exact ⟨stored, rfl, by rw [hphones, Dict.get?_set_self], hstored.phoneId, hregistered⟩
    | vacant hno => exact absurd hmem hno

theorem Kept.replacesWhole (h : Kept ref s) : ReplacesWhole printable ref s := by
  intro occupant reg hreg faults
  obtain ⟨phones', answer, hchanges, -, hphones, -⟩ :=
    h.call printable (show (Call.replace occupant reg).Genuine ref from hreg) faults
  rcases hphones with hphones | hphones
  · exact Or.inl hphones
  · cases hchanges with
    | @replace _ key _ stored hmem hstored =>
      exact Or.inr ⟨hmem, _, stored, hstored.holds.trans hstored.incoming.symm, hphones⟩
    | vacant _ => exact Or.inl hphones

/-- A registration under the reference of its key, which is the key itself here. -/
def sampleRegistration (key : String) : Val :=
  .record .phoneRegistration [("phone_id", .str key), ("device_label", .str "phone"),
    ("public_key_b64u", .str key), ("supported_algorithms", .tuple [.str "ecdsa-p256"]),
    ("registered_at_unix", .int 10), ("last_seen_unix", .int 10), ("push_token", .none),
    ("push_platform", .none), ("poll_public_key_b64u", .none), ("slot", .str "primary"),
    ("member_bindings", .tuple [])]

end PhoneStore

end State
end Recto
