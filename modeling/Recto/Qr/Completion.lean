import Recto.Data.Lockstep
import Recto.Qr.MultiWitness

/-!
# Completing a contract

The witnesses of a contract sign in the order it requires. Each is refused who has
signed before, so that a contract that requires one of them twice is stuck there.
-/

namespace Recto
namespace Qr

variable {c c' created : MultiWitnessContract} {new : Witness} {ws : List Witness}

/-- A signature that can be added: not empty, at a positive time. -/
def Witness.Signs (w : Witness) : Prop := w.signature ≠ "" ∧ 0 < w.signedAt

/-- `add_witness_signature` called for one witness after the other. -/
def addAll (contract : MultiWitnessContract) (ws : List Witness) :
    Except ContractError MultiWitnessContract :=
  ws.foldlM addWitnessSignature contract

/-- The contract with one more witness. -/
def MultiWitnessContract.signedBy (c : MultiWitnessContract) (new : Witness) : MultiWitnessContract :=
  { c with
    witnesses := c.witnesses ++ [new]
    completedAt :=
      if c.witnesses.length + 1 = c.requiredWitnesses.length then some new.signedAt
      else c.completedAt }

/-- The next witness is added when it has not signed before. -/
theorem addWitnessSignature_next (hsigns : new.Signs)
    (hnext : c.requiredWitnesses[c.witnesses.length]? = some new.principal)
    (hfresh : new.principal ∉ c.witnesses.map Witness.principal) :
    addWitnessSignature c new = .ok (c.signedBy new) := by
  have hfind : c.witnesses.find? (fun prior => prior.principal = new.principal) = none := by
    rw [List.find?_eq_none]
    intro prior hprior heq
    exact hfresh (List.mem_map.mpr ⟨prior, hprior, by simpa using heq⟩)
  rw [addWitnessSignature, hnext]
  simp only [Except.bind_eq_ok, ensure_eq_ok, hfind, List.length_append, List.length_singleton]
  exact ⟨(), hsigns.2, (), hsigns.1, (), trivial, rfl⟩

/-- A witness that has signed before is refused. -/
theorem addWitnessSignature_repeated (hmem : new.principal ∈ c.witnesses.map Witness.principal) :
    addWitnessSignature c new ≠ .ok c' := by
  intro h
  obtain ⟨prior, hprior, heq⟩ := List.mem_map.mp hmem
  simp only [addWitnessSignature, Except.bind_eq_ok, ensure_eq_ok] at h
  obtain ⟨-, -, -, -, h⟩ := h
  split at h
  · cases h
  · simp only [Except.bind_eq_ok, ensure_eq_ok] at h
    obtain ⟨-, rfl, h⟩ := h
    split at h
    · cases h
    · rename_i hnone
      exact List.find?_eq_none.mp hnone prior hprior (by simpa using heq)

/-- The witnesses that are left sign one after the other when nobody signs twice. -/
theorem addAll_complete_iff (hsigns : ∀ w ∈ ws, w.Signs)
    (hrequired : c.requiredWitnesses = c.witnesses.map Witness.principal ++ ws.map Witness.principal)
    (hdistinct : (c.witnesses.map Witness.principal).Nodup) :
    (∃ c', addAll c ws = .ok c' ∧ c'.isComplete = true) ↔ c.requiredWitnesses.Nodup := by
  induction ws generalizing c with
  | nil =>
    rw [List.map_nil, List.append_nil] at hrequired
    refine iff_of_true ⟨c, rfl, ?_⟩ (hrequired ▸ hdistinct)
    have hzip : c.requiredWitnesses.zip c.witnesses = c.witnesses.map fun w => (w.principal, w) := by
      have h := @List.zip_map' _ _ _ Witness.principal id c.witnesses
      rwa [List.map_id, ← hrequired] at h
    rw [MultiWitnessContract.isComplete, hzip, hrequired]
    simp
  | cons w ws ih =>
    obtain ⟨hw, hsigns⟩ := List.forall_mem_cons.mp hsigns
    have hnext : c.requiredWitnesses[c.witnesses.length]? = some w.principal := by
      rw [hrequired, List.getElem?_append_right (by simp)]
      simp
    by_cases hfresh : w.principal ∈ c.witnesses.map Witness.principal
    · refine iff_of_false ?_ ?_
      · rintro ⟨c', hall, -⟩
        obtain ⟨next, hadd, -⟩ := Except.bind_eq_ok.mp hall
        exact addWitnessSignature_repeated hfresh hadd
      · rw [hrequired, List.nodup_append]
        rintro ⟨-, -, hdisjoint⟩
        exact hdisjoint _ hfresh _ List.mem_cons_self rfl
    · have hrest := ih (c := c.signedBy w) hsigns (by simp [MultiWitnessContract.signedBy, hrequired])
        (by simpa [MultiWitnessContract.signedBy, List.nodup_append, hdistinct] using hfresh)
      rw [addAll, List.foldlM_cons, addWitnessSignature_next hw hnext hfresh, ok_bind]
      exact hrest

/-- A created contract is completed by its witnesses signing in order, whatever they sign and
when, exactly when it requires nobody twice. -/
theorem completable_iff {iss : String} {subject : Subject} {requiredWitnesses : List String}
    {qrMeta : Option QRMeta}
    (h : createMultiWitnessContract iss subject requiredWitnesses qrMeta = .ok created) :
    (∀ ws : List Witness, ws.map Witness.principal = requiredWitnesses → (∀ w ∈ ws, w.Signs) →
        ∃ c, addAll created ws = .ok c ∧ c.isComplete = true) ↔
      requiredWitnesses.Nodup := by
  have hnone : created.witnesses = [] := by
    simp only [createMultiWitnessContract, Except.bind_eq_ok, ensure_eq_ok, Except.pure_eq_ok] at h
    obtain ⟨-, -, -, -, rfl⟩ := h
    rfl
  obtain ⟨-, -, -, rfl⟩ := Kept.of_create h
  have hrun : ∀ ws : List Witness, ws.map Witness.principal = created.requiredWitnesses →
      (∀ w ∈ ws, w.Signs) → ((∃ c, addAll created ws = .ok c ∧ c.isComplete = true) ↔
        created.requiredWitnesses.Nodup) := by
    intro ws hws hsigns
    exact addAll_complete_iff hsigns (by rw [hnone, hws]; rfl) (by rw [hnone]; exact List.nodup_nil)
  constructor
  · intro hall
    -- one signature of each, at the time 1
    let ws := created.requiredWitnesses.map fun p => Witness.mk p "s" 1
    have hws : ws.map Witness.principal = created.requiredWitnesses := by
      simp [ws, Function.comp_def]
    have hsigns : ∀ w ∈ ws, w.Signs := by
      intro w hw
      obtain ⟨p, -, rfl⟩ := List.mem_map.mp hw
      exact ⟨show "s" ≠ "" by decide, Int.one_pos⟩
    exact (hrun ws hws hsigns).mp (hall ws hws hsigns)
  · intro hdistinct ws hws hsigns
    exact (hrun ws hws hsigns).mpr hdistinct

/-- A contract on nothing. -/
def Subject.empty : Subject := ⟨[], by simp [Json.Proper, Json.ProperFields]⟩

/-- Two witnesses that sign once each. -/
theorem completable_two :
    createMultiWitnessContract "phone:a" Subject.empty ["a", "b"] none =
        .ok { v := 1, kind := "multi_witness_contract", iss := "phone:a", subject := Subject.empty
              requiredWitnesses := ["a", "b"], witnesses := [], completedAt := none, qrMeta := {} } ∧
      ((∀ ws : List Witness, ws.map Witness.principal = ["a", "b"] → (∀ w ∈ ws, w.Signs) →
          ∃ c, addAll { v := 1, kind := "multi_witness_contract", iss := "phone:a"
                        subject := Subject.empty, requiredWitnesses := ["a", "b"], witnesses := []
                        completedAt := none, qrMeta := {} } ws = .ok c ∧ c.isComplete = true) ↔
        ["a", "b"].Nodup) :=
  ⟨rfl, @completable_iff _ "phone:a" Subject.empty ["a", "b"] none rfl⟩

/-- The contract that requires one witness twice is created, and its second signature is refused. -/
theorem repeated_witness_refused :
    (createMultiWitnessContract "phone:a" Subject.empty ["a", "a"] none >>= fun c =>
        addAll c [⟨"a", "s", 1⟩]).toOption.isSome ∧
      (createMultiWitnessContract "phone:a" Subject.empty ["a", "a"] none >>= fun c =>
        (addAll c [⟨"a", "s", 1⟩, ⟨"a", "s", 2⟩]).map fun c => c.isComplete) =
          .error (.alreadySigned "a" 1) :=
  ⟨rfl, rfl⟩

end Qr
end Recto
