import Recto.Genesis.Appends
import Recto.Server.Registry

/-!
# Who holds a slot

The registry, the records and the chain decide who holds a slot. Most programs
leave them alone; the registry's own operations change the phones in one write.
A regular store keeps the registry's invariant, and the fresh key of every reset
in the one spelling the chain has for it.
-/

namespace Recto
namespace Server

open Genesis Faulty

variable {env : Host} {F : Fault → Prop}

/-! ## Records and their fresh keys -/

/-- One key, one string. -/
def CanonicalKey (publicKey : String) : Prop :=
  ∃ raw, unb64u publicKey = some raw ∧ b64u raw = publicKey

/-- The fresh key of a reset is written in the one way the chain's keys are. -/
def TopPlaneRecord.Canonical : TopPlaneRecord → Prop
  | .act _ => True
  | .reset r => ∀ fresh ∈ r.fresh, CanonicalKey fresh.publicKey

/-- The part of the store that decides who holds a slot. -/
def Store.seating (s : Store) :
    Dict String PhoneRegistration × Dict String TopPlaneRecord × ChainStore :=
  (s.phones, s.topPlane, s.chain)

abbrev SeatsAlone {α : Type} (F : Fault → Prop) (m : Served α) : Prop := Leaves F Store.seating m

theorem Beside.seats {α : Type} {m : Served α} (h : Beside F m) : SeatsAlone F m :=
  Leaves.map h Store.seating

theorem putOwnerEnroll_seats (r : OwnerEnroll) : SeatsAlone F (putOwnerEnroll r) :=
  .modify fun _ => rfl

theorem deleteOwnerEnroll_seats (requestId : String) : SeatsAlone F (deleteOwnerEnroll requestId) :=
  .bind .get fun _ => .ite (.bind (.modify fun _ => rfl) fun _ => .pure _) (.pure _)

theorem voidOwnerEnrollsFor_seats (ref : String) : SeatsAlone F (voidOwnerEnrollsFor ref) :=
  .bind .get fun _ => .forEach (fun _ => .ite
    (.bind (putOwnerEnroll_seats _) fun _ =>
      .forEach (fun _ => .handle (Beside.seats (takePending_beside _)) fun _ => .pure _) _)
    (.pure _)) _

theorem addRevocation_seats (entry : State.RevocationEntry) : SeatsAlone F (addRevocation entry) :=
  .bind .get fun _ => .ite (.pure _) (.bind (.modify fun _ => rfl) fun _ => .write _ fun _ => rfl)

theorem setOwnerGenesis_seats (state : OwnerGenesis) : SeatsAlone F (setOwnerGenesis state) :=
  .write _ fun _ => rfl

theorem refuseOwnerEnroll_seats (r : OwnerEnroll) : SeatsAlone F (refuseOwnerEnroll r) :=
  .bind (Beside.seats (takeCards_beside _)) fun _ => putOwnerEnroll_seats _

theorem dropUnsealedEnroll_seats (old : OwnerEnroll) : SeatsAlone F (dropUnsealedEnroll old) :=
  .ite (.bind (Beside.seats (takeCards_beside _)) fun _ =>
    .bind (deleteOwnerEnroll_seats _) fun _ => .pure _) (.pure _)

theorem putOperatorPubkey_seats (pubkey : Bytes) : SeatsAlone F (putOperatorPubkey pubkey) :=
  .ite (.write _ fun _ => rfl) (.raise _)

theorem rotateOperator_seats (draft : Draft) (cs : Option ChainState) :
    SeatsAlone F (rotateOperator draft cs) :=
  .ite (.bind (.modify fun _ => rfl) fun _ =>
    .handle (putOperatorPubkey_seats _) fun _ => .pure _) (.pure _)

theorem enrollCards_beside (ask : Ask) (inc : Incoming) (notAfter : ℤ) (act : Option EnrollAct) :
    ∀ approvers, Beside F (enrollCards env ask inc notAfter act approvers)
  | [] => .pure _
  | _ :: approvers => .bind drawToken_beside fun _ => .bind .get fun _ =>
      .bind (enrollCards_beside ask inc notAfter act approvers) fun _ => .pure _

theorem slotAct_beside (ask : Ask) (inc : Incoming) (notAfter : ℤ) :
    Beside F (slotAct env ask inc notAfter) := by
  unfold slotAct
  split
  · exact .pure _
  · exact .bind drawToken_beside fun _ => .bind (.ofExcept _) fun _ => .pure _

theorem queueOwnerEnroll_seats (ask : Ask) (inc : Incoming) :
    SeatsAlone F (queueOwnerEnroll env ask inc) :=
  .bind .get fun _ => .bind (Beside.seats drawToken_beside) fun _ =>
    .bind (Beside.seats (slotAct_beside _ _ _)) fun _ =>
      .bind (Beside.seats (enrollCards_beside _ _ _ _ _)) fun _ =>
        .bind (putOwnerEnroll_seats _) fun _ =>
          .forEach (fun _ => Beside.seats (addPending_beside _)) _

theorem contestSlot_seats (ask : Ask) (inc : Incoming) : SeatsAlone F (contestSlot env ask inc) :=
  .bind .get fun _ => .bind (.forEach refuseOwnerEnroll_seats _) fun _ =>
    .bind (Beside.seats drawToken_beside) fun _ => .bind (putOwnerEnroll_seats _) fun _ =>
      .bind (Beside.seats (consumeOwnerChallenge_beside _)) fun _ => .raise _

theorem requestApproval_seats (ask : Ask) (inc : Incoming) :
    SeatsAlone F (requestApproval env ask inc) := by
  refine .bind (Beside.seats (spendOwnerChallenge_beside _)) fun _ => .bind .get fun s => ?_
  dsimp only
  split
  · exact .bind (queueOwnerEnroll_seats _ _) fun _ => .raise _
  · split
    · exact .raise _
    · exact .bind (deleteOwnerEnroll_seats _) fun _ =>
        .bind (queueOwnerEnroll_seats _ _) fun _ => .raise _

/-! ## What the registry's own operations do -/

theorem registerPhone_sat (reg : PhoneRegistration) (s : Store) :
    (registerPhone reg).Sat F s
      ⟨fun stored s' => stored = storedAs s.phones reg ∧
          s' = { s with phones := withPhone s.phones reg },
        fun _ s' => s' = s,
        fun s' => s' = s ∨ s' = { s with phones := withPhone s.phones reg }⟩ :=
  .bind (.get (.bind (.write (.pure ⟨rfl, rfl⟩) (fun _ => rfl) (fun _ => Or.inl rfl)
    fun _ => Or.inr rfl)))

/-- However a removal ends, the phone left the registry or nothing changed. -/
theorem revokePhone_seats (ref : String) (s : Store) :
    (revokePhone ref).Sat F s (.always fun s' =>
      s'.seating = s.seating ∨ s'.seating = (s.phones.erase ref, s.topPlane, s.chain)) := by
  refine .bindGet ?_
  split
  · refine .bind (.write ?_ (fun _ => Or.inl rfl) (fun _ => Or.inl rfl) fun _ => Or.inr rfl)
    refine .bindModify ?_
    exact (Beside.seats saveAfterPhones_beside).bindSat (fun _ s' h => .pure (Or.inr h))
      (fun _ s' h => Or.inr h) fun s' h => Or.inr h
  · exact .pure (Or.inl rfl)

theorem revokeAndVoid_seats (ref : String) (s : Store) :
    (revokeAndVoid ref).Sat F s (.always fun s' =>
      s'.seating = s.seating ∨ s'.seating = (s.phones.erase ref, s.topPlane, s.chain)) := by
  refine .bindAlways (revokePhone_seats ref s) fun b s' h => ?_
  split
  · refine (voidOwnerEnrollsFor_seats ref s').mono (fun _ _ h' => ?_) (fun _ _ h' => ?_)
      fun _ h' => ?_ <;> exact h.imp h'.trans h'.trans
  · exact .pure h

/-- One write: whichever way it ends, the occupant and the newcomer never both lack the slot. -/
theorem replacePhone_seats (occupant : String) (reg : PhoneRegistration) (s : Store) :
    (replacePhone occupant reg).Sat F s (.always fun s' =>
      s'.seating = s.seating ∨
        s'.seating = (withPhone (s.phones.erase occupant) reg, s.topPlane, s.chain)) := by
  refine .bindGet ?_
  dsimp only
  split
  · refine .bind (.write ?_ (fun _ => Or.inl rfl) (fun _ => Or.inl rfl) fun _ => Or.inr rfl)
    refine .bindModify ?_
    exact (Beside.seats saveAfterPhones_beside).bindSat (fun _ s' h => .pure (Or.inr h))
      (fun _ s' h => Or.inr h) fun s' h => Or.inr h
  · exact .pure (Or.inl rfl)

/-! ## The invariant -/

structure Store.Regular (s : Store) : Prop where
  registry : Registry s.phones
  canonical : ∀ {id record}, s.topPlane.get? id = some record → record.Canonical

/-- The registry and the records are regular, and an owner stays once there was one. -/
structure Guarded (H : Prop) (s : Store) : Prop where
  regular : s.Regular
  owner : H → HasOwner s.phones

section Guarded

variable {H : Prop} {s : Store}

theorem Store.Regular.congr {s' : Store} (h : s'.seating = s.seating) (hs : s.Regular) :
    s'.Regular := by
  simp only [Store.seating, Prod.mk.injEq] at h
  exact ⟨h.1 ▸ hs.registry, h.2.1 ▸ hs.canonical⟩

theorem Guarded.congr {s' : Store} (h : s'.seating = s.seating) (hs : Guarded H s) :
    Guarded H s' := by
  refine ⟨hs.regular.congr h, ?_⟩
  simp only [Store.seating, Prod.mk.injEq] at h
  exact h.1 ▸ hs.owner

theorem Guarded.of_seats {α : Type} {m : Served α} (h : SeatsAlone F m) : Keeps F (Guarded H) m :=
  h.keeps fun _ _ => Guarded.congr

theorem Guarded.of_beside {α : Type} {m : Served α} (h : Beside F m) : Keeps F (Guarded H) m :=
  Guarded.of_seats h.seats

theorem Store.Regular.put (hs : s.Regular) {record : TopPlaneRecord} (hr : record.Canonical) :
    Store.Regular { s with topPlane := s.topPlane.set record.id record } where
  registry := hs.registry
  canonical {id record'} h := by
    rw [Dict.get?_set] at h
    split at h
    · exact Option.some.inj h ▸ hr
    · exact hs.canonical h

theorem putTopPlaneRecord_guarded {record : TopPlaneRecord} (hr : record.Canonical) :
    Keeps F (Guarded H) (putTopPlaneRecord record) := by
  intro s hs
  have hput : Guarded H { s with topPlane := s.topPlane.set record.id record } :=
    ⟨hs.regular.put hr, hs.owner⟩
  exact .write hput (fun _ => hs) (fun _ => hs) fun _ => hput

theorem putReset_guarded {r : ResetRecord} (hr : ∀ fresh ∈ r.fresh, CanonicalKey fresh.publicKey) :
    Keeps F (Guarded H) (putReset r) := putTopPlaneRecord_guarded hr

theorem Store.mem_listTopPlaneRecords {record : TopPlaneRecord} :
    record ∈ s.listTopPlaneRecords ↔ ∃ id, s.topPlane.get? id = some record := by
  simp only [Store.listTopPlaneRecords, List.mem_map, List.mem_insertionSort]
  constructor
  · rintro ⟨⟨id, _⟩, hmem, rfl⟩
    exact ⟨id, Dict.get?_eq_some_iff.mpr hmem⟩
  · rintro ⟨id, hget⟩
    exact ⟨⟨id, record⟩, Dict.get?_eq_some_iff.mp hget, rfl⟩

theorem Store.mem_listResets {r : ResetRecord} :
    r ∈ s.listResets ↔ TopPlaneRecord.reset r ∈ s.listTopPlaneRecords := by
  simp only [Store.listResets, List.mem_filterMap]
  constructor
  · rintro ⟨record, hmem, hr⟩
    cases record with
    | act a => cases hr
    | reset r' => exact Option.some.inj hr ▸ hmem
  · intro h
    exact ⟨_, h, rfl⟩

theorem Store.getReset_eq_some {id : String} {r : ResetRecord} :
    s.getReset id = some r ↔ s.topPlane.get? id = some (.reset r) := by
  simp only [Store.getReset, Store.getTopPlaneRecord, Option.bind_eq_some_iff]
  constructor
  · rintro ⟨record, hget, hr⟩
    cases record with
    | act a => cases hr
    | reset r' => exact Option.some.inj hr ▸ hget
  · intro h
    exact ⟨_, h, rfl⟩

theorem Store.Regular.reset (hs : s.Regular) {r : ResetRecord} (h : r ∈ s.listResets) :
    ∀ fresh ∈ r.fresh, CanonicalKey fresh.publicKey := by
  obtain ⟨id, hget⟩ := Store.mem_listTopPlaneRecords.mp (Store.mem_listResets.mp h)
  exact hs.canonical hget

theorem Store.Regular.getReset (hs : s.Regular) {id : String} {r : ResetRecord}
    (h : s.getReset id = some r) : ∀ fresh ∈ r.fresh, CanonicalKey fresh.publicKey :=
  hs.canonical (Store.getReset_eq_some.mp h)

end Guarded

end Server
end Recto
