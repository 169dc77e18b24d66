import Recto.Genesis.Authorisation
import Recto.Genesis.StoredJson

/-!
# Damage and the named refusal

Callers of the store catch `ChainError` alone and call the chain unreadable.
Whether a stored document, whatever its JSON, ends in a state or in that refusal
is decided by the values that the reader, the replay and the mark's check take as
they are.
-/

namespace Recto
namespace Genesis
namespace Stored



variable {env : Primitives}

/-! ## What is let through -/

theorem namedOnly_raising {α : Type} {x : Except PyError α} :
    NamedOnly (raising x) ↔ ∃ a, x = .ok a := by
  cases x with
  | ok a => exact ⟨fun _ => ⟨a, rfl⟩, fun _ => NamedOnly.ok a⟩
  | error e => exact ⟨fun h => absurd rfl (h e), nofun⟩

@[simp] theorem raising_eq_ok {α : Type} {x : Except PyError α} {a : α} :
    raising x = .ok a ↔ x = .ok a := by
  cases x <;> simp [raising, Except.mapError]

/-- What is raised is on the list. -/
def CaughtBy {α : Type} (caught : List PyError) (x : Except PyError α) : Prop :=
  ∀ e, x = .error e → e ∈ caught

theorem CaughtBy.ok {α : Type} (caught : List PyError) (a : α) :
    CaughtBy caught (.ok a : Except PyError α) := nofun

theorem CaughtBy.bind {α β : Type} {caught : List PyError} {x : Except PyError α}
    {f : α → Except PyError β} (hx : CaughtBy caught x)
    (hf : ∀ a, x = .ok a → CaughtBy caught (f a)) : CaughtBy caught (x >>= f) := by
  cases x with
  | ok a => exact hf a rfl
  | error e =>
    intro e' he'
    exact hx e' (congrArg Except.error (Except.error.inj he'))

theorem namedOnly_naming {α : Type} {caught : List PyError} {b : Break} {x : Except PyError α} :
    NamedOnly (naming caught b x) ↔ CaughtBy caught x := by
  cases x with
  | ok a => exact ⟨nofun, fun _ => NamedOnly.ok a⟩
  | error e =>
    simp only [naming, Except.mapError]
    split_ifs with he
    · exact ⟨fun _ e' h => Except.error.inj h ▸ he, fun _ => NamedOnly.named b⟩
    · exact ⟨fun h => absurd rfl (h e), fun h => absurd (h e rfl) he⟩

@[simp] theorem naming_eq_ok {α : Type} {caught : List PyError} {b : Break} {x : Except PyError α}
    {a : α} : naming caught b x = .ok a ↔ x = .ok a := by
  cases x <;> simp [naming, Except.mapError]

/-! ## Records -/

/-- A value that `hash` takes. -/
def Hashable (value : Json) : Prop := ∃ key, value.hashKey = .ok key

/-- A text that decodes as a signature. -/
def SignatureText (value : Json) : Prop := ∃ s, value = .str s ∧ (unb64u s).isSome = true

/-- What may stand for `signatures`: a list of such texts, or a value that iterates as if it were. -/
def SignatureList (value : Json) : Prop :=
  value.truthy = false ∨ (∃ xs, value = .arr xs ∧ ∀ x ∈ xs, SignatureText x) ∨
    (∃ s, value = .str s ∧ ∀ c ∈ chars s, SignatureText (.str (String.ofList [c]))) ∨
      ∃ fields, value = .obj fields ∧ ∀ field ∈ fields, SignatureText (.str field.1)

/-- An object with the members the reader takes by subscript, a key in hexadecimal and signatures
it can decode. -/
def ReadableRecord (record : Json) : Prop :=
  ∃ fields, record = .obj fields ∧ (∀ name ∈ ["seq", "op", "kind", "algorithm"],
      (fields.lookup name).isSome = true) ∧
    (∃ s, fields.lookup "pubkey" = some (.str s) ∧ (fromHex s).isSome = true) ∧
      SignatureList ((fields.lookup "signatures").getD .null)

theorem readSignature_ok_iff {value : Json} :
    (∃ raw, readSignature value = .ok raw) ↔ SignatureText value := by
  cases value with
  | str s =>
    cases hs : unb64u s <;> simp [readSignature, SignatureText, hs]
  | _ => simp [readSignature, SignatureText]

theorem mapM_ok_iff {ε α β : Type} {f : α → Except ε β} (xs : List α) :
    (∃ ys, xs.mapM f = .ok ys) ↔ ∀ x ∈ xs, ∃ y, f x = .ok y := by
  induction xs with
  | nil => exact ⟨fun _ => by simp, fun _ => ⟨[], rfl⟩⟩
  | cons x xs ih =>
    rw [List.forall_mem_cons, ← ih, List.mapM_cons]
    cases hx : f x with
    | error e => simp [bind, Except.bind]
    | ok y =>
      cases hxs : xs.mapM f with
      | error e => simp [bind, Except.bind]
      | ok ys => simp [bind, Except.bind, pure, Except.pure]

theorem readSignatures_ok_iff {value : Json} :
    (∃ raws, readSignatures value = .ok raws) ↔ SignatureList value := by
  unfold readSignatures
  split_ifs with htruthy
  · cases value with
    | arr xs =>
      simp only [mapM_ok_iff, readSignature_ok_iff]
      simp [SignatureList, htruthy]
    | str s =>
      simp only [mapM_ok_iff, readSignature_ok_iff]
      simp [SignatureList, htruthy]
    | obj fields =>
      simp only [mapM_ok_iff, readSignature_ok_iff]
      simp [SignatureList, htruthy]
    | _ => simp [SignatureList, htruthy]
  · exact ⟨fun _ => Or.inl (Bool.eq_false_of_not_eq_true htruthy), fun _ => ⟨[], rfl⟩⟩

theorem namedOnly_checkEntry (op : Op) (pubkey : Bytes) (algorithm : String) :
    NamedOnly (checkEntry env op pubkey algorithm) := by
  exact .bind (.ensure _ _) fun _ => .bind (.ensure _ _) fun _ => .bind (.ensure _ _) fun _ =>
    .ensure _ _

theorem namedOnly_buildEntry (seq op kind : Json) (pubkey : Bytes) (algorithm prev : Json)
    (signatures : List Bytes) (metaValue : Json) :
    NamedOnly (buildEntry env seq op kind pubkey algorithm prev signatures metaValue) := by
  unfold buildEntry
  cases op with
  | str name =>
    simp only
    cases Op.ofName? name with
    | none => exact .named _
    | some op =>
      simp only
      cases algorithm with
      | str algorithm => exact .bind (namedOnly_checkEntry op pubkey algorithm) fun _ => .ok _
      | _ => split_ifs <;> exact .named _
  | _ => exact .named _

theorem getItem_ok_iff {fields : List (String × Json)} {name : String} :
    (∃ v, (Json.obj fields).getItem name = .ok v) ↔ (fields.lookup name).isSome = true := by
  rw [Json.getItem_obj]
  cases fields.lookup name <;> simp

theorem readHex_ok_iff {value : Json} :
    (∃ raw, readHex value = .ok raw) ↔ ∃ s, value = .str s ∧ (fromHex s).isSome = true := by
  cases value with
  | str s =>
    cases hs : fromHex s <;> simp [readHex, hs]
  | _ => simp [readHex]

/-- A record is refused by name exactly when its members can be taken. -/
theorem namedOnly_entryFromRecord_iff {record : Json} :
    NamedOnly (entryFromRecord env record) ↔ ReadableRecord record := by
  cases record with
  | obj fields =>
    have hget : ∀ name, (∃ v, (Json.obj fields).get name = .ok v) ↔ True := fun name =>
      iff_true_intro ⟨_, Json.get_obj _ _⟩
    have hpubkey : (∃ raw, ((Json.obj fields).getItem "pubkey" >>= readHex) = .ok raw) ↔
        ∃ s, fields.lookup "pubkey" = some (.str s) ∧ (fromHex s).isSome = true := by
      rw [Json.getItem_obj]
      cases fields.lookup "pubkey" with
      | none => simp [bind, Except.bind]
      | some value =>
        refine readHex_ok_iff.trans ?_
        simp
    have hsignatures : (∃ raws, ((Json.obj fields).get "signatures" >>= readSignatures) = .ok raws) ↔
        SignatureList ((fields.lookup "signatures").getD .null) := readSignatures_ok_iff
    simp only [entryFromRecord, NamedOnly.seq_iff, namedOnly_raising, raising_eq_ok,
      namedOnly_buildEntry, implies_true, and_true, ← exists_imp, getItem_ok_iff, hget, hpubkey,
      hsignatures, ReadableRecord, Json.obj.injEq, exists_eq_left', List.forall_mem_cons,
      List.not_mem_nil, false_imp_iff]
    clear hget hpubkey hsignatures
    grind only
  | _ => simp [entryFromRecord, NamedOnly.seq_iff, namedOnly_raising, Json.getItem, ReadableRecord]

/-! ## The meta of a reset -/

/-- A reset's meta whose `not_before` has no integer because it is infinite. -/
def InfiniteNotBefore (entry : ChainEntry) : Prop :=
  ∃ fields x, entry.loadMeta "" = .ok (.obj fields) ∧
    (fields.lookup "challenge").isSome = true ∧ (fields.lookup "intent_id").isSome = true ∧
      fields.lookup "not_before" = some (.float x) ∧ (x = .infinity ∨ x = .negInfinity)

theorem caughtBy_loads (s : String) : CaughtBy metaCaught (Json.loads s) := by
  intro e h
  unfold Json.loads at h
  split at h
  · cases h
  · obtain rfl := Except.error.inj h
    decide

theorem caughtBy_loadMeta (entry : ChainEntry) (fallback : String) :
    CaughtBy metaCaught (entry.loadMeta fallback) := by
  unfold ChainEntry.loadMeta
  split_ifs
  · cases entry.metaValue with
    | str s => exact caughtBy_loads s
    | _ =>
      intro e h
      obtain rfl := Except.error.inj h
      decide
  · exact caughtBy_loads fallback

theorem caughtBy_getItem (value : Json) (name : String) :
    CaughtBy metaCaught (value.getItem name) := by
  intro e h
  cases value with
  | obj fields =>
    rw [Json.getItem_obj] at h
    split at h
    · cases h
    · obtain rfl := Except.error.inj h
      decide
  | _ =>
    obtain rfl := Except.error.inj h
    decide

theorem caughtBy_checkList (value : Json) : CaughtBy metaCaught value.checkList := by
  intro e h
  cases value <;> cases h <;> decide

theorem caughtBy_readInt {value : Json}
    (h : ∀ x, value = .float x → x ≠ .infinity ∧ x ≠ .negInfinity) :
    CaughtBy metaCaught (readInt value) := by
  intro e he
  cases value with
  | float x =>
    cases x with
    | infinity => exact absurd rfl (h _ rfl).1
    | negInfinity => exact absurd rfl (h _ rfl).2
    | nan =>
      obtain rfl := Except.error.inj he
      decide
    | decimal m k => cases he
  | str s =>
    simp only [readInt, Json.toInt] at he
    split_ifs at he
    · obtain rfl := Except.error.inj he
      decide
    · split at he
      · cases he
      · obtain rfl := Except.error.inj he
        decide
  | bool b => cases he
  | int n => cases he
  | _ =>
    obtain rfl := Except.error.inj he
    decide

theorem getItem_eq_ok {value v : Json} {name : String} (h : value.getItem name = .ok v) :
    ∃ fields, value = .obj fields ∧ fields.lookup name = some v := by
  cases value with
  | obj fields =>
    rw [Json.getItem_obj] at h
    split at h
    · next w hw => exact ⟨fields, rfl, hw.trans (congrArg some (Except.ok.inj h))⟩
    · cases h
  | _ => cases h

/-- What reading a reset's meta raises is caught, an infinite `not_before` apart. -/
theorem caughtBy_readResetMeta_iff {entry : ChainEntry} :
    CaughtBy metaCaught (readResetMeta entry) ↔ ¬InfiniteNotBefore entry := by
  constructor
  · rintro h ⟨fields, x, hload, hchallenge, hintent, hnot, hx⟩
    obtain ⟨challenge, hchallenge⟩ := Option.isSome_iff_exists.mp hchallenge
    obtain ⟨intentId, hintent⟩ := Option.isSome_iff_exists.mp hintent
    have hraises : readResetMeta entry = .error .overflowError := by
      rcases hx with rfl | rfl <;>
        simp [readResetMeta, hload, hchallenge, hintent, hnot, readInt, Json.toInt, JsonFloat.toInt, bind,
          Except.bind]
    exact absurd (h _ hraises) (by decide)
  · intro h
    refine .bind (caughtBy_loadMeta _ _) fun record hload => ?_
    refine .bind (caughtBy_getItem _ _) fun challenge hchallenge => ?_
    refine .bind (caughtBy_getItem _ _) fun intentId hintent => ?_
    refine .bind (caughtBy_getItem _ _) fun notBefore hnot => ?_
    refine .bind (caughtBy_readInt fun x hx => ?_) fun _ _ => ?_
    · obtain ⟨fields, rfl, hfirst⟩ := getItem_eq_ok hchallenge
      obtain ⟨fields', heq, hsecond⟩ := getItem_eq_ok hintent
      obtain rfl := Json.obj.inj heq
      obtain ⟨fields', heq, hthird⟩ := getItem_eq_ok hnot
      obtain rfl := Json.obj.inj heq
      by_contra hinfinite
      refine h ⟨fields, x, hload, Option.isSome_iff_exists.mpr ⟨_, hfirst⟩,
        Option.isSome_iff_exists.mpr ⟨_, hsecond⟩, hx ▸ hthird, ?_⟩
      tauto
    · refine .bind (caughtBy_getItem _ _) fun lost _ => ?_
      exact .bind (caughtBy_checkList lost) fun _ _ => .ok _ _

theorem readResetMeta_eq_ok {entry : ChainEntry} {challenge intentId : Json}
    (h : readResetMeta entry = .ok (challenge, intentId)) :
    ∃ fields, ∀ fallback, entry.loadMeta fallback = .ok (.obj fields) := by
  obtain ⟨record, hload, h⟩ := Except.bind_eq_ok.mp h
  obtain ⟨value, hget, -⟩ := Except.bind_eq_ok.mp h
  obtain ⟨fields, rfl, -⟩ := getItem_eq_ok hget
  refine ⟨fields, fun fallback => ?_⟩
  unfold ChainEntry.loadMeta at hload ⊢
  split_ifs at hload ⊢
  · exact hload
  · -- Nothing is not JSON.
    have hempty : Json.loads "" = .error .valueError := by decide +kernel
    exact absurd (hempty.symm.trans hload) nofun

/-! ## One entry -/

theorem namedOnly_decodeId (entry : ChainEntry) : NamedOnly (decodeId entry) := by
  unfold decodeId
  cases decodeAscii entry.pubkey with
  | none => exact .named _
  | some value => exact .bind (.ensure _ _) fun _ => .ok _

theorem namedOnly_follow (r : Replay) (entry : ChainEntry) : NamedOnly (r.follow env entry) :=
  .bind (.ensure _ _) fun _ => .ensure _ _

theorem namedOnly_entrySeal (r : Replay) (entry : ChainEntry) : NamedOnly (r.entrySeal entry) := by
  unfold Replay.entrySeal
  cases entry.op with
  | sealId =>
    exact .bind (.ensure _ _) fun _ => .bind (.ensure _ _) fun _ =>
      .bind (namedOnly_decodeId entry) fun _ => .ok _
  | reset => exact .bind (.ensure _ _) fun _ => .ok _
  | _ => exact .ok _

theorem namedOnly_refuseSigned_iff {satisfied : List Json.Key} {b : Break} :
    NamedOnly (refuseSigned satisfied b) ↔ AllText satisfied := by
  unfold refuseSigned
  split_ifs with h
  · exact ⟨fun _ => h, fun _ => .named b⟩
  · exact ⟨fun hnamed => absurd rfl (hnamed .typeError), fun hall => absurd hall h⟩

/-- Where the entry is refused for its signatures, everyone who signed it has a name. -/
def SignersNamed (env : Primitives) (members : Dict Json.Key ChainEntry) (entry : ChainEntry)
    (message : Bytes) : Prop :=
  members.items ≠ [] →
    (if passphraseKey ∈ members then passphraseKey ∉ satisfiedKinds env members entry message
    else (satisfiedKinds env members entry message).length < requiredSignatures members.length) →
      AllText (satisfiedKinds env members entry message)

theorem namedOnly_requireThreshold_iff {members : Dict Json.Key ChainEntry} {entry : ChainEntry}
    {message : Bytes} {deviceEver : Bool} :
    NamedOnly (requireThreshold env members entry message deviceEver) ↔
      SignersNamed env members entry message := by
  unfold requireThreshold SignersNamed
  rw [NamedOnly.bind_iff (.ensure _ _)]
  have hguard : ∀ P : Prop, (∀ a : Unit, ensure (members.items ≠ [])
      (Refused.named Break.emptySet) = .ok a → P) ↔ (members.items ≠ [] → P) := by
    intro P
    simp only [ensure_eq_ok]
    exact ⟨fun h => h (), fun h _ => h⟩
  rw [hguard]
  refine imp_congr_right fun _ => ?_
  by_cases hpassphrase : passphraseKey ∈ members
  · simp only [hpassphrase, not_true_eq_false, if_false, if_true]
    by_cases hsigned : passphraseKey ∈ satisfiedKinds env members entry message
    · simp only [hsigned, not_true_eq_false, if_false, false_imp_iff, iff_true]
      exact .ensure _ _
    · simp only [hsigned, not_false_eq_true, if_true, true_imp_iff]
      exact namedOnly_refuseSigned_iff
  · simp only [hpassphrase, not_false_eq_true, if_true, if_false, requireMajority]
    split_ifs with hfew
    · exact namedOnly_refuseSigned_iff.trans (imp_iff_right hfew).symm
    · exact ⟨fun _ h => absurd h hfew, fun _ => .ok _⟩

theorem freshSigned_ok_iff {entry : ChainEntry} {challenge : String} :
    (∃ signed, freshSigned env entry challenge = .ok signed) ↔
      (entry.signatures ≠ [] → ∃ raw, encodeAscii challenge = .ok raw) := by
  unfold freshSigned
  cases hascii : encodeAscii challenge with
  | ok message =>
    refine ⟨fun _ _ => ⟨message, rfl⟩, fun _ => ?_⟩
    induction entry.signatures with
    | nil => exact ⟨false, rfl⟩
    | cons sig sigs ih =>
      cases hv : verifierFor env entry.pubkey entry.algorithm sig message with
      | true => exact ⟨true, by simp [List.anyM, bind, Except.bind, pure, Except.pure, hv]⟩
      | false =>
        obtain ⟨signed, hsigned⟩ := ih
        refine ⟨signed, ?_⟩
        simpa [List.anyM, bind, Except.bind, pure, Except.pure, hv] using hsigned
  | error e =>
    cases entry.signatures with
    | nil => exact ⟨fun _ h => absurd rfl h, fun _ => ⟨false, rfl⟩⟩
    | cons sig sigs =>
      constructor
      · rintro ⟨signed, h⟩
        cases h
      · intro h
        obtain ⟨raw, hraw⟩ := h (List.cons_ne_nil _ _)
        cases hraw

/-- Where the passphrase signed the reset, its `not_before` is finite, and a challenge bound to the
intent that someone is to have signed is ASCII. -/
def ResetReadable (env : Primitives) (members : Dict Json.Key ChainEntry) (entry : ChainEntry)
    (message : Bytes) : Prop :=
  ∀ passphrase, members.get? passphraseKey = some passphrase →
    passphraseKey ∈ satisfiedKinds env ((∅ : Dict Json.Key ChainEntry).set passphraseKey passphrase)
        entry message →
      ¬InfiniteNotBefore entry ∧ ∀ challenge intentId,
        readResetMeta entry = .ok (.str challenge, intentId) → boundToIntent env challenge intentId →
          entry.signatures ≠ [] → ∃ raw, encodeAscii challenge = .ok raw

theorem namedOnly_requireReset_iff {members : Dict Json.Key ChainEntry} {entry : ChainEntry}
    {message : Bytes} :
    NamedOnly (requireReset env members entry message) ↔
      ResetReadable env members entry message := by
  unfold requireReset ResetReadable
  cases members.get? passphraseKey with
  | none => exact ⟨fun _ => nofun, fun _ => .named _⟩
  | some passphrase =>
    simp only [Option.some.injEq, forall_eq']
    rw [NamedOnly.bind_iff (.ensure _ _)]
    simp only [ensure_eq_ok, forall_const, NamedOnly.seq_iff, namedOnly_naming,
      caughtBy_readResetMeta_iff, naming_eq_ok]
    refine imp_congr_right fun _ => and_congr_right fun _ => ?_
    constructor
    · intro h challenge intentId hmeta hbound
      have hchallenge := h (.str challenge, intentId) hmeta
      simp only [NamedOnly.seq_iff, NamedOnly.ensure, true_and, ensure_eq_ok, namedOnly_raising,
        raising_eq_ok, implies_true, and_true] at hchallenge
      exact freshSigned_ok_iff.mp (hchallenge () hbound)
    · rintro h ⟨challenge, intentId⟩ hmeta
      cases challenge with
      | str challenge =>
        simp only [NamedOnly.seq_iff, NamedOnly.ensure, true_and, ensure_eq_ok, namedOnly_raising,
          raising_eq_ok, implies_true, and_true]
        exact fun _ hbound => freshSigned_ok_iff.mpr (h challenge intentId hmeta hbound)
      | _ => exact .named _

/-- What authorises the entry after the first can be read. -/
def Authorisable (env : Primitives) (r : Replay) (entry : ChainEntry) : Prop :=
  r.count ≠ 0 → ∀ sealedId, r.entrySeal entry = .ok sealedId →
    if entry.op = .reset then ResetReadable env r.members entry (entry.message env sealedId)
    else SignersNamed env r.members entry (entry.message env sealedId)

theorem namedOnly_authorise_iff {r : Replay} {entry : ChainEntry} :
    NamedOnly (r.authorise env entry) ↔ Authorisable env r entry := by
  unfold Replay.authorise Authorisable
  by_cases hcount : r.count = 0
  · simp only [hcount, if_true, ne_eq, not_true_eq_false, false_imp_iff, iff_true]
    exact .bind (.ensure _ _) fun _ => .ensure _ _
  · simp only [hcount, if_false, ne_eq, not_false_eq_true, true_imp_iff]
    rw [NamedOnly.bind_iff (namedOnly_entrySeal r entry)]
    refine forall_congr' fun sealedId => imp_congr_right fun _ => ?_
    split_ifs
    · exact namedOnly_requireReset_iff
    · exact namedOnly_requireThreshold_iff

/-- What a reset's meta names can be looked up: its slot, and its intent where the slot is right. -/
def SeatHashable (entry : ChainEntry) : Prop :=
  (∃ kind, entry.kind.hashKey = .ok kind ∧ IsDevice kind) →
    ∀ fields, entry.loadMeta "\x7b\x7d" = .ok (.obj fields) →
      let slot := (fields.lookup "slot").getD .null
      Hashable slot ∧ ((Genesis.Replay.slotKindOf slot).map Json.str = some entry.kind →
        Hashable ((fields.lookup "intent_id").getD .null))

/-- The kind of the entry can be looked up where it is, and what a reset's meta names. -/
def Applicable (r : Replay) (entry : ChainEntry) : Prop :=
  match entry.op with
  | .add => r.twin entry = none → Hashable entry.kind
  | .remove => Hashable entry.kind
  | .reset => Hashable entry.kind ∧ SeatHashable entry
  | _ => True

theorem namedOnly_seat_iff {r : Replay} {entry : ChainEntry} :
    NamedOnly (r.seat entry) ↔ (r.twin entry = none → Hashable entry.kind) := by
  unfold Replay.seat
  rw [NamedOnly.bind_iff (.ensure _ _)]
  simp only [ensure_eq_ok, NamedOnly.seq_iff, namedOnly_raising, forall_const]
  exact imp_congr_right fun _ => and_iff_left fun _ _ => NamedOnly.ok _

theorem namedOnly_remove_iff {r : Replay} {entry : ChainEntry} :
    NamedOnly (r.remove entry) ↔ Hashable entry.kind := by
  unfold Replay.remove
  rw [NamedOnly.seq_iff, namedOnly_raising]
  refine and_iff_left fun kind _ => ?_
  cases r.members.get? kind with
  | none => exact .named _
  | some removed =>
    exact .bind (.ensure _ _) fun _ => .bind (.ensure _ _) fun _ => .bind (.ensure _ _) fun _ =>
      .bind (.ensure _ _) fun _ => .ok _

theorem namedOnly_recordReset_iff {r : Replay} {entry : ChainEntry} {fields : List (String × Json)}
    (hload : entry.loadMeta "\x7b\x7d" = .ok (.obj fields)) :
    NamedOnly (r.recordReset entry) ↔ Hashable entry.kind ∧ SeatHashable entry := by
  unfold Replay.recordReset
  rw [NamedOnly.seq_iff, namedOnly_raising]
  refine and_congr_right fun _ => ?_
  simp only [raising_eq_ok, NamedOnly.seq_iff, NamedOnly.ensure, true_and, ensure_eq_ok,
    namedOnly_raising, hload, Except.ok.injEq, exists_eq', Json.get_obj, forall_eq', SeatHashable,
    exists_imp, and_imp, Json.obj.injEq, forall_const]
  refine forall_congr' fun kind => imp_congr_right fun _ => imp_congr_right fun _ =>
    and_congr_right fun hslot => ?_
  constructor
  · intro h hfits
    obtain ⟨slotKey, hkey⟩ := hslot
    exact (h slotKey hkey hfits).1
  · intro h slotKey _ hfits
    exact ⟨h hfits, fun _ _ _ => ⟨⟨_, rfl⟩, fun _ _ => .ok _⟩⟩

theorem caughtBy_checkIdentityMembers (members : List Json) :
    CaughtBy metaCaught (checkIdentityMembers members) := by
  induction members with
  | nil => exact .ok _ _
  | cons value rest ih =>
    intro e h
    cases value with
    | str s =>
      simp only [checkIdentityMembers] at h
      split at h
      · exact ih e h
      · cases h
        decide
    | _ =>
      cases h
      decide

theorem caughtBy_readSealMeta (entry : ChainEntry) : CaughtBy metaCaught (readSealMeta env entry) := by
  refine .bind (caughtBy_loadMeta _ _) fun record _ => ?_
  refine .bind (caughtBy_getItem _ _) fun text _ => ?_
  cases fromHex (text.pyStr env.printable) with
  | none =>
    intro e h
    cases h
    decide
  | some value =>
    refine .bind (caughtBy_getItem _ _) fun members _ => ?_
    cases members with
    | arr members => exact .bind (caughtBy_checkIdentityMembers members) fun _ _ => .ok _ _
    | _ =>
      intro e h
      cases h
      decide

theorem namedOnly_sealOperatorKey (entry : ChainEntry) :
    NamedOnly (sealOperatorKey env entry) :=
  .bind (namedOnly_naming.mpr (caughtBy_readSealMeta entry)) fun _ =>
    .bind (.ensure _ _) fun _ => .ok _

theorem namedOnly_apply_iff {r : Replay} {entry : ChainEntry}
    (hmeta : entry.op = .reset → ∃ fields, entry.loadMeta "\x7b\x7d" = .ok (.obj fields)) :
    NamedOnly (r.apply env entry) ↔ Applicable r entry := by
  unfold Replay.apply Applicable
  cases hop : entry.op with
  | add => exact namedOnly_seat_iff
  | remove => exact namedOnly_remove_iff
  | reset =>
    obtain ⟨fields, hload⟩ := hmeta hop
    simp only
    rw [NamedOnly.seq_iff, namedOnly_recordReset_iff hload]
    refine and_iff_left_of_imp fun ⟨hkind, _⟩ r' _ => ?_
    exact namedOnly_seat_iff.mpr fun _ => hkind
  | sealId =>
    simp only [iff_true]
    exact .bind (namedOnly_decodeId entry) fun _ => .bind (namedOnly_sealOperatorKey entry) fun _ =>
      .ok _
  | rotateOperator =>
    simp only [iff_true]
    exact .bind (.ensure _ _) fun _ => .ok _

theorem loadMeta_of_authorise {r : Replay} {entry : ChainEntry}
    (h : r.authorise env entry = .ok ()) (hreset : entry.op = .reset) :
    ∃ fields, entry.loadMeta "\x7b\x7d" = .ok (.obj fields) := by
  unfold Replay.authorise at h
  split_ifs at h with hcount
  · obtain ⟨_, hop, _⟩ := Except.bind_eq_ok.mp h
    rw [ensure_eq_ok, hreset] at hop
    cases hop
  · obtain ⟨sealedId, _, h⟩ := Except.bind_eq_ok.mp h
    simp only [requireReset] at h
    split at h
    · cases h
    · obtain ⟨_, _, h⟩ := Except.bind_eq_ok.mp h
      obtain ⟨⟨challenge, intentId⟩, hread, -⟩ := Except.bind_eq_ok.mp h
      obtain ⟨fields, hload⟩ := readResetMeta_eq_ok (naming_eq_ok.mp hread)
      exact ⟨fields, hload _⟩

/-- One turn of the loop ends in a state or a refusal by name exactly when the entry that follows
the chain can be authorised and applied. -/
theorem namedOnly_step_iff {r : Replay} {entry : ChainEntry} :
    NamedOnly (r.step env entry) ↔
      (r.follow env entry = .ok () →
        Authorisable env r entry ∧ (r.authorise env entry = .ok () → Applicable r entry)) := by
  unfold Replay.step
  rw [NamedOnly.bind_iff (namedOnly_follow r entry)]
  simp only [NamedOnly.seq_iff, namedOnly_authorise_iff]
  constructor
  · intro h hfollow
    obtain ⟨hauthorise, happly⟩ := h () hfollow
    refine ⟨hauthorise, fun hok => ?_⟩
    exact (namedOnly_apply_iff (loadMeta_of_authorise hok)).mp (happly () hok).1
  · intro h _ hfollow
    obtain ⟨hauthorise, happly⟩ := h hfollow
    refine ⟨hauthorise, fun _ hok => ⟨?_, fun _ _ => .ok _⟩⟩
    exact (namedOnly_apply_iff (loadMeta_of_authorise hok)).mpr (happly hok)

/-! ## The chain -/

/-- Each record can be read whose forerunners are entries. -/
def ReadableRecords (env : Primitives) (records : List Json) : Prop :=
  ∀ before record rest, records = before ++ record :: rest →
    (∃ entries, entriesFromRecords env before = .ok entries) → ReadableRecord record

/-- Each entry can be authorised and applied that follows a chain which replays. -/
def Replayable (env : Primitives) (entries : List ChainEntry) : Prop :=
  ∀ before entry rest r, entries = before ++ entry :: rest → replayLoop env before = .ok r →
    r.follow env entry = .ok () →
      Authorisable env r entry ∧ (r.authorise env entry = .ok () → Applicable r entry)

theorem namedOnly_entriesFromRecords_iff {records : List Json} :
    NamedOnly (entriesFromRecords env records) ↔ ReadableRecords env records := by
  unfold entriesFromRecords ReadableRecords
  simp only [NamedOnly.mapM_iff, namedOnly_entryFromRecord_iff]
  rfl

theorem namedOnly_map_iff {ρ α β : Type} {x : Except (Refused ρ) α} {f : α → β} :
    NamedOnly (x.map f) ↔ NamedOnly x := by
  cases x with
  | ok a => exact ⟨fun _ => .ok a, fun _ => .ok (f a)⟩
  | error e => exact ⟨fun h e' he => h e' (congrArg _ (Except.error.inj he)),
      fun h e' he => h e' (congrArg _ (Except.error.inj he))⟩

theorem namedOnly_replayState_iff {entries : List ChainEntry} :
    NamedOnly (replayState env entries) ↔ Replayable env entries := by
  unfold replayState
  rw [namedOnly_map_iff, replayLoop, NamedOnly.foldlM_iff]
  simp only [namedOnly_step_iff]
  rfl

theorem namedOnly_stateOf_iff {entries : List ChainEntry} :
    NamedOnly (stateOf env entries) ↔ Replayable env entries := by
  unfold stateOf
  split_ifs with hnil
  · subst hnil
    refine ⟨fun _ before entry rest r hsplit => ?_, fun _ => .ok _⟩
    simp at hsplit
  · rw [namedOnly_map_iff, namedOnly_replayState_iff]

/-! ## The mark -/

theorem pyIndex_ok_iff {α : Type} {xs : List α} {i : ℤ} :
    (∃ x, pyIndex xs i = .ok x) ↔ -(xs.length : ℤ) ≤ i ∧ i < xs.length := by
  simp only [pyIndex]
  split_ifs with hpos hneg hneg
  · omega
  · cases hx : xs[i.toNat]? with
    | none =>
      rw [List.getElem?_eq_none_iff] at hx
      simp only [reduceCtorEq, exists_false, false_iff]
      omega
    | some x =>
      obtain ⟨hlt, -⟩ := List.getElem?_eq_some_iff.mp hx
      simp only [Except.ok.injEq, exists_eq', true_iff]
      omega
  · simp only [exists_false, false_iff]
    omega
  · cases hx : xs[(xs.length + i).toNat]? with
    | none =>
      rw [List.getElem?_eq_none_iff] at hx
      simp only [reduceCtorEq, exists_false, false_iff]
      omega
    | some x =>
      obtain ⟨hlt, -⟩ := List.getElem?_eq_some_iff.mp hx
      simp only [Except.ok.injEq, exists_eq', true_iff]
      omega

/-- The numbers of a mark that names the chain's id are read: its length is an integer, no further
below zero than the chain is long, and where its tip is the chain's, its seal's number is one too. -/
def ReadableMark (env : Primitives) (entries : List ChainEntry) (state : Option ChainState)
    (fields : List (String × Json)) : Prop :=
  ∀ s sealedId, state = some s → s.sealedId = some sealedId → sealedId ≠ "" →
    fields.lookup "sealed_id" = some (.str sealedId) →
      ∃ length, readInt ((fields.lookup "length").getD (.int 0)) = .ok length ∧
        (length ≤ s.length →
          (-(entries.length : ℤ) < length ∧ length ≤ entries.length) ∧
            ∀ last, pyIndex entries (length - 1) = .ok last →
              fields.lookup "tip" = some (.str (entryHash env last)) →
                ∃ seq, readInt ((fields.lookup "seal_seq").getD (.int (-1))) = .ok seq)

theorem getD_eq_str_iff {value : Option Json} {s : String} :
    value.getD .null = .str s ↔ value = some (.str s) := by
  cases value <;> simp

theorem namedOnly_checkOneMark_iff {entries : List ChainEntry} {state : Option ChainState}
    {fields : List (String × Json)} :
    NamedOnly (checkOneMark env entries state (.obj fields)) ↔
      ReadableMark env entries state fields := by
  unfold checkOneMark ReadableMark
  simp only
  rw [NamedOnly.bind_iff (.ensure _ _)]
  cases state with
  | none => exact ⟨fun _ => nofun, fun _ _ _ => .named _⟩
  | some s =>
    cases hsealed : s.sealedId with
    | none =>
      refine ⟨fun _ s' id hs hid => ?_, fun _ _ _ => ?_⟩
      · obtain rfl := Option.some.inj hs
        simp [hsealed] at hid
      · simp only [hsealed]
        exact .named _
    | some sealedId =>
      simp only [hsealed, ensure_eq_ok, NamedOnly.seq_iff, NamedOnly.ensure, true_and,
        namedOnly_raising, raising_eq_ok, implies_true, and_true, pyIndex_ok_iff, getD_eq_str_iff,
        Option.some.injEq, forall_const]
      constructor
      · rintro h s' id rfl hid hne hlookup
        obtain rfl := Option.some.inj (hsealed.symm.trans hid)
        have htruthy : ((fields.lookup "sealed_id").getD .null).truthy = true := by
          rw [hlookup]
          simpa [Json.truthy] using hne
        obtain ⟨⟨length, hlength⟩, hrest⟩ := h htruthy hlookup
        refine ⟨length, hlength, fun hle => ?_⟩
        obtain ⟨⟨hlow, hhigh⟩, hseq⟩ := hrest length hlength hle
        exact ⟨⟨by omega, by omega⟩, hseq⟩
      · intro h htruthy hlookup
        have hne : sealedId ≠ "" := by
          rintro rfl
          rw [hlookup] at htruthy
          cases htruthy
        obtain ⟨length, hlength, hrest⟩ := h s sealedId rfl hsealed hne hlookup
        refine ⟨⟨length, hlength⟩, fun n hn hle => ?_⟩
        obtain rfl := Except.ok.inj (hlength.symm.trans hn)
        obtain ⟨⟨hlow, hhigh⟩, hseq⟩ := hrest hle
        exact ⟨⟨by omega, by omega⟩, hseq⟩

/-- The sides that are looked at can be read. -/
def ReadableSides (env : Primitives) (entries : List ChainEntry) (state : Option ChainState) :
    List Json → Prop
  | [] => True
  | side :: sides =>
      if side = .null then
        state.bind ChainState.sealedId = none ∨ ReadableSides env entries state sides
      else
        (∀ fields, side = .obj fields → ReadableMark env entries state fields) ∧
          (checkOneMark env entries state side ≠ .ok () → ReadableSides env entries state sides)

theorem namedOnly_checkOneMark_any {entries : List ChainEntry} {state : Option ChainState}
    {mark : Json} :
    NamedOnly (checkOneMark env entries state mark) ↔
      ∀ fields, mark = .obj fields → ReadableMark env entries state fields := by
  cases mark with
  | obj fields =>
    rw [namedOnly_checkOneMark_iff]
    exact ⟨fun h _ heq => Json.obj.inj heq ▸ h, fun h => h fields rfl⟩
  | _ => exact ⟨fun _ => nofun, fun _ => .named _⟩

theorem namedOnly_checkSides_iff {entries : List ChainEntry} {state : Option ChainState}
    {sides : List Json} :
    NamedOnly (checkSides env entries state sides) ↔ ReadableSides env entries state sides := by
  induction sides with
  | nil => exact ⟨fun _ => trivial, fun _ => .named _⟩
  | cons side sides ih =>
    simp only [checkSides, ReadableSides]
    split_ifs with hnull hunsealed
    · exact ⟨fun _ => Or.inl hunsealed, fun _ => .ok _⟩
    · rw [ih, or_iff_right hunsealed]
    · rw [← namedOnly_checkOneMark_any]
      cases hside : checkOneMark env entries state side with
      | ok _ => exact ⟨fun _ => ⟨.ok _, fun h => absurd rfl h⟩, fun _ => .ok _⟩
      | error e =>
        cases e with
        | named b =>
          simp only [ih]
          exact ⟨fun h => ⟨.named b, fun _ => h⟩, fun h => h.2 nofun⟩
        | raised e => exact ⟨fun h => absurd rfl (h e), fun h => absurd rfl (h.1 e)⟩

/-- The mark, or the sides of one in flight, can be read. -/
def ReadableMarkDocument (env : Primitives) (entries : List ChainEntry)
    (state : Option ChainState) (mark : Json) : Prop :=
  ∀ fields, mark = .obj fields →
    match fields.lookup "next" with
    | some next => ReadableSides env entries state [next, (fields.lookup "prev").getD .null]
    | none => ReadableMark env entries state fields

theorem namedOnly_checkSealMark_iff {entries : List ChainEntry} {state : Option ChainState}
    {mark : Json} :
    NamedOnly (checkSealMark env entries state mark) ↔
      ReadableMarkDocument env entries state mark := by
  unfold checkSealMark ReadableMarkDocument
  cases mark with
  | null => exact ⟨fun _ => by simp, fun _ => .ensure _ _⟩
  | obj fields =>
    simp only [Json.obj.injEq, forall_eq']
    cases fields with
    | nil =>
      refine ⟨fun _ => ?_, fun _ => .named _⟩
      exact fun s sealedId _ _ _ hlookup => by cases hlookup
    | cons field fields =>
      simp only
      cases List.lookup "next" (field :: fields) with
      | none => exact namedOnly_checkOneMark_iff
      | some next => exact namedOnly_checkSides_iff
  | _ => exact ⟨fun _ => by simp, fun _ => .named _⟩

/-! ## The store's reads -/

/-- The document of the members, when it is there, is an object. -/
def IsObject (document : Option Json) : Prop :=
  ∀ raw, document = some raw → ∃ fields, raw = .obj fields

theorem namedOnly_readChain_iff {document : Option Json} :
    NamedOnly (readChain document) ↔ IsObject document := by
  cases document with
  | none => exact ⟨fun _ => nofun, fun _ => .ok _⟩
  | some raw =>
    unfold readChain IsObject
    rw [NamedOnly.seq_iff, namedOnly_raising]
    simp only [Option.some.injEq, forall_eq']
    refine (and_iff_left fun chain _ => ?_).trans ?_
    · cases chain <;> first | exact .ok _ | exact .named _
    · cases raw <;> simp [Json.get]

/-- The chain's state, or its refusal by name, is what the stored documents end in exactly when the
members' document is an object, and the records, the entries and the mark that are reached can be
read. -/
theorem namedOnly_genesisChainState_iff {document : Option Json} {mark : Json} :
    NamedOnly (genesisChainState env document mark) ↔
      IsObject document ∧ ∀ records, readChain document = .ok records →
        ReadableRecords env records ∧ ∀ entries, entriesFromRecords env records = .ok entries →
          Replayable env entries ∧ ∀ state, stateOf env entries = .ok state →
            ReadableMarkDocument env entries state mark := by
  unfold genesisChainState
  simp only [NamedOnly.seq_iff, namedOnly_readChain_iff, namedOnly_entriesFromRecords_iff,
    namedOnly_stateOf_iff, namedOnly_checkSealMark_iff]
  have hpure : ∀ state : Option ChainState,
      NamedOnly (pure state : Except (Refused Break) (Option ChainState)) := fun _ => .ok _
  simp only [hpure, implies_true, and_true]

theorem map_ok_iff {α β : Type} {x : Except PyError α} {f : α → β} :
    (∃ b, x.map f = .ok b) ↔ ∃ a, x = .ok a := by
  cases x with
  | ok a => exact ⟨fun _ => ⟨a, rfl⟩, fun _ => ⟨f a, rfl⟩⟩
  | error e => exact ⟨fun ⟨_, h⟩ => (nomatch h), fun ⟨_, h⟩ => (nomatch h)⟩

theorem replayStoredChain_ok_iff {stored : Json} :
    (∃ members, replayStoredChain env stored = .ok members) ↔
      ∀ records entries, storedRecords stored = some records →
        entriesFromRecords env records = .ok entries → Replayable env entries := by
  unfold replayStoredChain
  cases storedRecords stored with
  | none => exact ⟨fun _ => nofun, fun _ => ⟨_, rfl⟩⟩
  | some records =>
    simp only [Option.map_some, Option.some.injEq]
    cases hentries : entriesFromRecords env records with
    | error e =>
      refine ⟨fun _ records' entries heq hok => ?_, fun _ => ⟨_, rfl⟩⟩
      subst heq
      exact nomatch hentries.symm.trans hok
    | ok entries =>
      have hiff : (∀ records' entries', records = records' →
          entriesFromRecords env records' = .ok entries' → Replayable env entries') ↔
            Replayable env entries := by
        constructor
        · exact fun h => h records entries rfl hentries
        · rintro h _ entries' rfl hok
          obtain rfl := Except.ok.inj (hentries.symm.trans hok)
          exact h
      rw [hiff]
      simp only
      split_ifs with hnil
      · refine ⟨fun _ => ?_, fun _ => ⟨_, rfl⟩⟩
        exact namedOnly_stateOf_iff.mp (by rw [stateOf, if_pos hnil]; exact .ok _)
      · rw [← namedOnly_replayState_iff]
        cases replayState env entries with
        | ok state => exact ⟨fun _ => .ok _, fun _ => ⟨_, rfl⟩⟩
        | error e =>
          cases e with
          | named b => exact ⟨fun _ => .named b, fun _ => ⟨_, rfl⟩⟩
          | raised e => exact ⟨fun ⟨_, h⟩ => (nomatch h), fun h => absurd rfl (h e)⟩

/-- The members' document, when it is there, is an object: with a chain whose entries, when all of
its records are entries, can be replayed, or with a flat map that is an object or nothing. -/
def ReadableMembers (env : Primitives) (document : Option Json) : Prop :=
  ∀ raw, document = some raw → ∃ fields, raw = .obj fields ∧
    if (fields.lookup "chain").getD .null ≠ .null then
      ∀ records entries, storedRecords ((fields.lookup "chain").getD .null) = some records →
        entriesFromRecords env records = .ok entries → Replayable env entries
    else ((fields.lookup "members").getD .null).truthy = true →
      ∃ members, (fields.lookup "members").getD .null = .obj members

theorem readGenesisMembers_ok_iff {document : Option Json} :
    (∃ members, readGenesisMembers env document = .ok members) ↔
      ReadableMembers env document := by
  cases document with
  | none => exact ⟨fun _ => nofun, fun _ => ⟨_, rfl⟩⟩
  | some raw =>
    simp only [ReadableMembers, Option.some.injEq, forall_eq']
    cases raw with
    | obj fields =>
      simp only [readGenesisMembers, Json.get_obj, Json.obj.injEq, exists_eq_left', bind,
        Except.bind]
      split_ifs with hchain hmembers
      · exact replayStoredChain_ok_iff
      · rw [forall_prop_of_true hmembers]
        cases (fields.lookup "members").getD .null <;> simp [pure, Except.pure]
      · exact ⟨fun _ h => absurd h hmembers, fun _ => ⟨_, rfl⟩⟩
    | _ => simp [readGenesisMembers, Json.get, bind, Except.bind]

/-- A genesis entry whose kind is a list. -/
def listKindChain : Json :=
  .obj [("chain", .arr [.obj [("seq", .int 0), ("op", .str "add"), ("kind", .arr []),
    ("pubkey", .str (hex (sampleKey 1))), ("algorithm", .str "ed25519"), ("prev", .null)]])]

end Stored
end Genesis
end Recto
