import Recto.Data.Checked
import Recto.Json.RoundTrip

/-!
# Multi-witness contracts

`recto.qr.multi_witness`: a contract grows by one witness at a time, in the order
it requires, and each witness signs the canonical JSON of the contract as it
stands before.

A contract keeps what every witness was given: cut back to its first `i`
witnesses, it has the bytes that witness `i` signed. The bytes say every field of
the contract but the transport metadata.
-/

namespace Recto
namespace Qr

/-- One witness signature. -/
structure Witness where
  principal : String
  signature : String
  signedAt : ℤ
  deriving DecidableEq, Repr

def Witness.toDict (w : Witness) : Json :=
  .obj [("principal", .str w.principal), ("signature", .str w.signature),
    ("signed_at", .int w.signedAt)]

/-- Transport metadata, never signed. -/
structure QRMeta where
  format : String := "qr-pngv1"
  maxSizeBytes : ℤ := 2953
  fragmentation : Option (List (String × ℤ)) := none
  deriving DecidableEq, Repr

/-- What a contract is on: a JSON object. -/
structure Subject where
  fields : List (String × Json)
  proper : Json.Proper (.obj fields)

def Subject.toJson (s : Subject) : Json := .obj s.fields

/-- Equal as dictionaries, whatever the order of the keys at any level. -/
def Subject.Same (s s' : Subject) : Prop := Json.canon s.toJson = Json.canon s'.toJson

structure MultiWitnessContract where
  v : ℤ
  kind : String
  iss : String
  subject : Subject
  requiredWitnesses : List String
  witnesses : List Witness
  completedAt : Option ℤ
  qrMeta : QRMeta

/-- The `ValueError`s of the two operations. -/
inductive ContractError where
  | emptyIss
  | noRequiredWitnesses
  | signedAtNotPositive (signedAt : ℤ)
  | emptySignature
  | noSlot (witnesses required : ℕ)
  | notNext (expected got : String)
  | alreadySigned (principal : String) (signedAt : ℤ)
  deriving DecidableEq, Repr

/-- `create_multi_witness_contract` -/
def createMultiWitnessContract (iss : String) (subject : Subject) (requiredWitnesses : List String)
    (qrMeta : Option QRMeta) : Except ContractError MultiWitnessContract := do
  ensure (iss ≠ "") .emptyIss
  ensure (requiredWitnesses ≠ []) .noRequiredWitnesses
  pure { v := 1, kind := "multi_witness_contract", iss, subject, requiredWitnesses, witnesses := []
         completedAt := none, qrMeta := qrMeta.getD {} }

/-- `add_witness_signature` -/
def addWitnessSignature (contract : MultiWitnessContract) (new : Witness) :
    Except ContractError MultiWitnessContract := do
  ensure (0 < new.signedAt) (.signedAtNotPositive new.signedAt)
  ensure (new.signature ≠ "") .emptySignature
  match contract.requiredWitnesses[contract.witnesses.length]? with
  | none => .error (.noSlot contract.witnesses.length contract.requiredWitnesses.length)
  | some expected =>
      ensure (new.principal = expected) (.notNext expected new.principal)
      match contract.witnesses.find? fun prior => prior.principal = new.principal with
      | some prior => .error (.alreadySigned new.principal prior.signedAt)
      | none =>
          let witnesses := contract.witnesses ++ [new]
          pure { contract with
            witnesses
            completedAt :=
              if witnesses.length = contract.requiredWitnesses.length then some new.signedAt
              else contract.completedAt }

namespace MultiWitnessContract

/-- `is_complete` -/
def isComplete (c : MultiWitnessContract) : Bool :=
  c.witnesses.length = c.requiredWitnesses.length &&
    (c.requiredWitnesses.zip c.witnesses).all fun p => p.2.principal = p.1

/-- The fields that are signed: all but `_qr_meta`. -/
def payload (c : MultiWitnessContract) : List (String × Json) :=
  [("v", .int c.v), ("kind", .str c.kind), ("iss", .str c.iss), ("subject", c.subject.toJson),
    ("required_witnesses", .arr (c.requiredWitnesses.map .str)),
    ("witnesses", .arr (c.witnesses.map Witness.toDict)),
    ("completed_at", (c.completedAt.map Json.int).getD .null)]

/-- `canonical_signing_input_for_witness` -/
def signingInput (c : MultiWitnessContract) : Bytes := encodeUtf8 (Json.dumps (.obj c.payload))

/-- The contract cut back to its first witnesses, not completed. -/
def upTo (c : MultiWitnessContract) (i : ℕ) : MultiWitnessContract :=
  { c with witnesses := c.witnesses.take i, completedAt := none }

end MultiWitnessContract

/-! ## Runs -/

/-- A contract on its way, with what each of its witnesses was given to sign. -/
structure Signing where
  contract : MultiWitnessContract
  given : List Bytes

/-- One call of `add_witness_signature`; one that raises leaves the contract as it is. -/
def Signing.add (s : Signing) (new : Witness) : Signing :=
  match addWitnessSignature s.contract new with
  | .ok contract => ⟨contract, s.given ++ [s.contract.signingInput]⟩
  | .error _ => s

/-- The calls in turn, from a created contract. -/
def signing (created : MultiWitnessContract) (calls : List Witness) : Signing :=
  calls.foldl Signing.add ⟨created, []⟩

/-- A contract that some calls make of a created one. -/
def Reached (c : MultiWitnessContract) : Prop :=
  ∃ iss subject requiredWitnesses qrMeta created calls,
    createMultiWitnessContract iss subject requiredWitnesses qrMeta = .ok created ∧
      c = (signing created calls).contract

/-! ## Replaying the witnesses -/

variable {c c' created : MultiWitnessContract} {new : Witness} {calls : List Witness}

/-! ## One call -/

/-- What a call that does not raise has checked, and what it makes. -/
theorem addWitnessSignature_eq_ok (h : addWitnessSignature c new = .ok c') :
    c.requiredWitnesses[c.witnesses.length]? = some new.principal ∧
      c' = { c with
        witnesses := c.witnesses ++ [new]
        completedAt :=
          if c.witnesses.length + 1 = c.requiredWitnesses.length then some new.signedAt
          else c.completedAt } := by
  simp only [addWitnessSignature, Except.bind_eq_ok, ensure_eq_ok] at h
  obtain ⟨-, -, -, -, h⟩ := h
  split at h
  · simp at h
  · rename_i expected hexpected
    simp only [Except.bind_eq_ok, ensure_eq_ok] at h
    obtain ⟨-, rfl, h⟩ := h
    split at h
    · simp at h
    · simp only [Except.pure_eq_ok, List.length_append, List.length_singleton] at h
      exact ⟨hexpected, h.symm⟩

/-- What every contract on its way keeps. -/
structure Kept (created c : MultiWitnessContract) : Prop where
  required : created.requiredWitnesses ≠ []
  base : c.v = created.v ∧ c.kind = created.kind ∧ c.iss = created.iss ∧
    c.subject = created.subject ∧ c.requiredWitnesses = created.requiredWitnesses ∧
    c.qrMeta = created.qrMeta
  signers : c.witnesses.map Witness.principal = c.requiredWitnesses.take c.witnesses.length
  fits : c.witnesses.length ≤ c.requiredWitnesses.length
  completed : c.completedAt =
    if c.witnesses.length = c.requiredWitnesses.length then c.witnesses.getLast?.map Witness.signedAt
    else none

theorem Kept.add (h : Kept created c) (hadd : addWitnessSignature c new = .ok c') :
    Kept created c' := by
  obtain ⟨hnext, rfl⟩ := addWitnessSignature_eq_ok hadd
  have hlt : c.witnesses.length < c.requiredWitnesses.length :=
    (List.getElem?_eq_some_iff.mp hnext).1
  refine ⟨h.required, h.base, ?_, ?_, ?_⟩
  · simp only [List.map_append, List.map_cons, List.map_nil, List.length_append,
      List.length_singleton, h.signers, List.take_add_one, hnext, Option.toList_some]
  · simp only [List.length_append, List.length_singleton]
    omega
  · simp only [List.length_append, List.length_singleton, h.completed, if_neg hlt.ne]
    split_ifs
    · simp
    · rfl

theorem Kept.of_create {iss : String} {subject : Subject} {requiredWitnesses : List String}
    {qrMeta : Option QRMeta}
    (h : createMultiWitnessContract iss subject requiredWitnesses qrMeta = .ok created) :
    Kept created created ∧ created.iss = iss ∧ created.subject = subject ∧
      created.requiredWitnesses = requiredWitnesses := by
  simp only [createMultiWitnessContract, Except.bind_eq_ok, ensure_eq_ok, Except.pure_eq_ok] at h
  obtain ⟨-, -, -, hrequired, rfl⟩ := h
  have hpos : 0 < requiredWitnesses.length := List.length_pos_of_ne_nil hrequired
  exact ⟨⟨hrequired, ⟨rfl, rfl, rfl, rfl, rfl, rfl⟩, rfl, by simp, by simp [hpos.ne]⟩, rfl, rfl, rfl⟩

/-- Whether a contract that kept its order is complete is a matter of numbers. -/
theorem Kept.isComplete_iff (h : Kept created c) :
    c.isComplete = true ↔ c.witnesses.length = c.requiredWitnesses.length := by
  simp only [MultiWitnessContract.isComplete, Bool.and_eq_true, decide_eq_true_eq, List.all_eq_true,
    and_iff_left_iff_imp]
  intro hlength p hp
  have hall : c.requiredWitnesses = c.witnesses.map Witness.principal := by
    rw [h.signers, hlength, List.take_length]
  rw [hall, List.zip_map_left] at hp
  obtain ⟨q, hq, rfl⟩ := List.mem_map.mp hp
  obtain ⟨n, hn⟩ := List.mem_iff_getElem?.mp hq
  rw [List.getElem?_zip_eq_some] at hn
  have : q.1 = q.2 := Option.some.inj (hn.1.symm.trans hn.2)
  simp [this]

theorem Kept.completedAt_eq (h : Kept created c) {t : ℤ} (ht : c.completedAt = some t) :
    ∃ w, c.witnesses.getLast? = some w ∧ w.signedAt = t := by
  rw [h.completed] at ht
  split_ifs at ht
  exact Option.map_eq_some_iff.mp ht

theorem Kept.completedAt_isSome_iff (h : Kept created c) :
    c.completedAt ≠ none ↔ c.isComplete = true := by
  rw [h.isComplete_iff, h.completed]
  have hpos : 0 < c.requiredWitnesses.length := by
    rw [h.base.2.2.2.2.1]
    exact List.length_pos_of_ne_nil h.required
  constructor
  · intro hne
    by_contra hlength
    exact hne (if_neg hlength)
  · intro hlength
    rw [if_pos hlength]
    have hne : c.witnesses ≠ [] := List.ne_nil_of_length_pos (by omega)
    simp [List.getLast?_eq_some_getLast hne]

/-! ## The run -/

/-- What a witness was given is what the contract still says, cut back to those before it. -/
structure Replays (created : MultiWitnessContract) (s : Signing) : Prop where
  kept : Kept created s.contract
  given : s.given = (List.range s.contract.witnesses.length).map fun i =>
    (s.contract.upTo i).signingInput

theorem Kept.upTo_length (h : Kept created c)
    (hlt : c.witnesses.length < c.requiredWitnesses.length) :
    c.upTo c.witnesses.length = c := by
  have hnone : c.completedAt = none := by rw [h.completed, if_neg hlt.ne]
  simp only [MultiWitnessContract.upTo, List.take_length]
  cases c
  simp only at hnone
  subst hnone
  rfl

theorem Replays.add {s : Signing} (h : Replays created s) (new : Witness) :
    Replays created (s.add new) := by
  unfold Signing.add
  split
  · rename_i contract hadd
    refine ⟨h.kept.add hadd, ?_⟩
    obtain ⟨hnext, rfl⟩ := addWitnessSignature_eq_ok hadd
    have hlt : s.contract.witnesses.length < s.contract.requiredWitnesses.length :=
      (List.getElem?_eq_some_iff.mp hnext).1
    have hcut : ∀ i ≤ s.contract.witnesses.length,
        (s.contract.witnesses ++ [new]).take i = s.contract.witnesses.take i := fun i hi =>
      List.take_append_of_le_length hi
    simp only [List.length_append, List.length_singleton, List.range_succ, List.map_append,
      List.map_cons, List.map_nil]
    refine congrArg₂ (· ++ ·) ?_ ?_
    · rw [h.given]
      refine List.map_congr_left fun i hi => ?_
      rw [MultiWitnessContract.upTo, MultiWitnessContract.upTo, hcut i (List.mem_range.mp hi).le]
    · conv_lhs => rw [← h.kept.upTo_length hlt]
      rw [MultiWitnessContract.upTo, MultiWitnessContract.upTo, hcut _ le_rfl]
  · exact h

theorem Replays.signing (h : Kept created created) (hnone : created.witnesses = []) :
    Replays created (signing created calls) := by
  have hrun : ∀ s, Replays created s → Replays created (calls.foldl Signing.add s) := by
    intro s
    induction calls generalizing s with
    | nil => exact id
    | cons new calls ih => exact fun hs => ih _ (hs.add new)
  exact hrun ⟨created, []⟩ ⟨h, by simp [hnone]⟩

/-! ## What the signed bytes say -/

theorem properElements_strs (xs : List String) : Json.ProperElements (xs.map .str) := by
  induction xs with
  | nil => trivial
  | cons x xs ih => exact ⟨trivial, ih⟩

theorem Witness.plain_toDict (w : Witness) : Json.Plain w.toDict := by
  simp [Witness.toDict, Json.Plain, Json.PlainFields]

theorem properElements_witnesses (ws : List Witness) :
    Json.ProperElements (ws.map Witness.toDict) := by
  induction ws with
  | nil => trivial
  | cons w ws ih => exact ⟨w.plain_toDict.proper, ih⟩

/-- Objects with the same canonical form have the same value of each name, in canonical form. -/
theorem lookup_canon {fs gs : List (String × Json)} (hfs : (fs.map Prod.fst).Nodup)
    (h : Json.canon (.obj fs) = Json.canon (.obj gs)) (name : String) :
    (Json.canonFields fs).lookup name = (Json.canonFields gs).lookup name := by
  simp only [Json.canon, Json.obj.injEq] at h
  refine lookup_eq_of_perm
    ((Json.sortFields_perm _).symm.trans (h ▸ Json.sortFields_perm _)) ?_ name
  rwa [Json.map_fst_canonFields]

theorem Witness.eq_of_canon {w w' : Witness} (h : Json.canon w.toDict = Json.canon w'.toDict) :
    w = w' := by
  have hlookup := lookup_canon w.plain_toDict.1 h
  cases w
  cases w'
  rw [Witness.mk.injEq]
  exact ⟨Json.str.inj (Option.some.inj (hlookup "principal")),
    Json.str.inj (Option.some.inj (hlookup "signature")),
    Json.int.inj (Option.some.inj (hlookup "signed_at"))⟩

theorem witnesses_eq_of_canon {ws ws' : List Witness}
    (h : Json.canonElements (ws.map Witness.toDict) = Json.canonElements (ws'.map Witness.toDict)) :
    ws = ws' := by
  induction ws generalizing ws' with
  | nil =>
    cases ws' with
    | nil => rfl
    | cons w' ws' => simp [Json.canonElements] at h
  | cons w ws ih =>
    cases ws' with
    | nil => simp [Json.canonElements] at h
    | cons w' ws' =>
      simp only [List.map_cons, Json.canonElements, List.cons.injEq] at h
      rw [Witness.eq_of_canon h.1, ih h.2]

namespace MultiWitnessContract

theorem proper_payload (c : MultiWitnessContract) : Json.Proper (.obj c.payload) := by
  have hcompleted : Json.Proper ((c.completedAt.map Json.int).getD .null) := by
    cases c.completedAt <;> trivial
  refine ⟨by simp [payload], trivial, trivial, trivial, c.subject.proper, ?_, ?_, hcompleted, trivial⟩
  · exact properElements_strs c.requiredWitnesses
  · exact properElements_witnesses c.witnesses

/-- Equal but for the order of the subject's keys, and for the transport metadata. -/
def Same (c c' : MultiWitnessContract) : Prop :=
  c.v = c'.v ∧ c.kind = c'.kind ∧ c.iss = c'.iss ∧ c.subject.Same c'.subject ∧
    c.requiredWitnesses = c'.requiredWitnesses ∧ c.witnesses = c'.witnesses ∧
    c.completedAt = c'.completedAt

theorem same_of_signingInput {c c' : MultiWitnessContract}
    (h : c.signingInput = c'.signingInput) : c.Same c' := by
  have hcanon := Json.canon_eq_of_dumps_eq c.proper_payload c'.proper_payload
    (encodeUtf8_injective h)
  have hlookup := lookup_canon c.proper_payload.1 hcanon
  have hsubject : c.subject.Same c'.subject := Option.some.inj (hlookup "subject")
  have hrequired := Option.some.inj (hlookup "required_witnesses")
  have hwitnesses := Option.some.inj (hlookup "witnesses")
  have hcompleted : Json.canon ((c.completedAt.map Json.int).getD .null) =
      Json.canon ((c'.completedAt.map Json.int).getD .null) :=
    Option.some.inj (hlookup "completed_at")
  refine ⟨?_, ?_, ?_, hsubject, ?_, ?_, ?_⟩
  · exact Json.int.inj (Option.some.inj (hlookup "v"))
  · exact Json.str.inj (Option.some.inj (hlookup "kind"))
  · exact Json.str.inj (Option.some.inj (hlookup "iss"))
  · simp only [Json.canon, Json.canonElements_strs, Json.arr.injEq] at hrequired
    exact List.map_injective_iff.mpr (fun _ _ => Json.str.inj) hrequired
  · simp only [Json.canon, Json.arr.injEq] at hwitnesses
    exact witnesses_eq_of_canon hwitnesses
  · cases hc : c.completedAt <;> cases hc' : c'.completedAt <;>
      simp_all [Json.canon]

end MultiWitnessContract

/-! ## Replay -/

/-- What holds of a contract that calls have made of a created one, and of the bytes its witnesses
were given. -/
structure Replayable (iss : String) (subject : Subject) (requiredWitnesses : List String)
    (s : Signing) : Prop where
  created : s.contract.iss = iss ∧ s.contract.subject = subject ∧
    s.contract.requiredWitnesses = requiredWitnesses
  signers : s.contract.witnesses.map Witness.principal =
    requiredWitnesses.take s.contract.witnesses.length
  completed : s.contract.completedAt ≠ none ↔ s.contract.isComplete = true
  completedAt : ∀ t, s.contract.completedAt = some t →
    ∃ w, s.contract.witnesses.getLast? = some w ∧ w.signedAt = t
  count : s.given.length = s.contract.witnesses.length
  given : ∀ i < s.contract.witnesses.length, s.given[i]? = some (s.contract.upTo i).signingInput

/-- The final contract replays its signatures, and its bytes are those of no other contract. -/
theorem signatures_replay (iss : String) (subject : Subject) (requiredWitnesses : List String)
    (qrMeta : Option QRMeta) (calls : List Witness)
    (h : createMultiWitnessContract iss subject requiredWitnesses qrMeta = .ok created) :
    Replayable iss subject requiredWitnesses (signing created calls) ∧
      ∀ c, Reached c → (signing created calls).contract.signingInput = c.signingInput →
        (signing created calls).contract.Same c := by
  refine ⟨?_, fun c _ hbytes => MultiWitnessContract.same_of_signingInput hbytes⟩
  obtain ⟨hkept, hiss, hsubject, hrequired⟩ := Kept.of_create h
  have hnone : created.witnesses = [] := by
    simp only [createMultiWitnessContract, Except.bind_eq_ok, Except.pure_eq_ok] at h
    obtain ⟨-, -, -, -, rfl⟩ := h
    rfl
  have hrun : Replays created (signing created calls) := Replays.signing hkept hnone
  obtain ⟨-, -, hiss', hsubject', hrequired', -⟩ := hrun.kept.base
  refine ⟨⟨hiss'.trans hiss, hsubject'.trans hsubject, hrequired'.trans hrequired⟩, ?_,
    hrun.kept.completedAt_isSome_iff, fun t ht => hrun.kept.completedAt_eq ht, ?_, ?_⟩
  · rw [hrun.kept.signers, hrequired', hrequired]
  · rw [hrun.given, List.length_map, List.length_range]
  · intro i hi
    rw [hrun.given, List.getElem?_map, List.getElem?_range hi, Option.map_some]

def sampleSubject : Subject where
  fields := [("citation_id", .str "cite-123")]
  proper := by simp [Json.Proper, Json.ProperFields]

/-- Two users sign, the second of them once out of turn. -/
theorem signatures_replay_sample :
    ∃ created s, createMultiWitnessContract "x" sampleSubject
        ["user:alice", "user:bob"] none = .ok created ∧
      s = signing created [⟨"user:bob", "sig", 7⟩, ⟨"user:alice", "sig-a", 8⟩, ⟨"user:bob", "sig-b", 9⟩] ∧
      s.contract.completedAt = some 9 ∧ s.given.length = 2 ∧
        s.given[1]? = some (s.contract.upTo 1).signingInput := by
  refine ⟨_, _, rfl, rfl, by decide, by decide, ?_⟩
  exact (signatures_replay "x" sampleSubject
    ["user:alice", "user:bob"] none
    [⟨"user:bob", "sig", 7⟩, ⟨"user:alice", "sig-a", 8⟩, ⟨"user:bob", "sig-b", 9⟩] rfl).1.given 1
      (by decide)

end Qr
end Recto
