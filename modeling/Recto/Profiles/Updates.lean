import Recto.Profiles.Fields
import Recto.Data.Threads

/-!
# Approvals side by side

Every answer is served on a thread of its own. An approved profile request loads
the file, computes and replaces the file, and nothing keeps another one out in
between. As long as each replaces the file it loaded, the file is what the
approved operations make of it one after the other.
-/

namespace Recto
namespace Profiles

/-- The file, and the results that are polled. -/
structure Shared where
  file : Option MasterIdentity

inductive Query where
  | loadMasterIdentity
  | saveMasterIdentity (mi : MasterIdentity)
  | storeResult (approved : Bool)

/-- A save answers whether it succeeded. -/
abbrev Answer : Query → Type
  | .loadMasterIdentity => Option MasterIdentity
  | .saveMasterIdentity _ => Bool
  | .storeResult _ => Unit

abbrev Handler := Calls Query Answer Unit

/-- The end of `_handle_respond` for a profile request whose signature verified: persist, then store
the result. -/
def persist (op : Operation) : Handler :=
  .call .loadMasterIdentity fun (loaded : Option MasterIdentity) =>
    match op.apply loaded with
    | .error _ => .call (.storeResult false) .done
    | .ok (_, none) => .call (.storeResult true) .done
    | .ok (_, some mi) => .call (.saveMasterIdentity mi) fun (saved : Bool) =>
        .call (.storeResult saved) .done

/-- One call; the world says whether a save lands. -/
def exec (q : Query) (lands : Bool) (s : Shared) : Answer q × Shared :=
  match q with
  | .loadMasterIdentity => (loadMasterIdentity s.file, { file := loadMasterIdentity s.file })
  | .saveMasterIdentity mi => if lands then (true, { file := some mi }) else (false, s)
  | .storeResult _ => ((), s)

abbrev Server (ι : Type) := Serving ι Query Answer Bool Shared Unit

section
variable {ι : Type}

/-- What an event loaded. -/
def loadedIn : Event ι Query Answer Bool → Option (Option MasterIdentity)
  | ⟨_, _, .loadMasterIdentity, (loaded : Option MasterIdentity)⟩ => some loaded
  | _ => none

/-- The event reports an approval. -/
def reportsApproval : Event ι Query Answer Bool → Bool
  | ⟨_, _, .storeResult approved, _⟩ => approved
  | _ => false

/-- The request was reported approved. -/
def Approved (c : Server ι) (i : ι) : Prop := ∃ e ∈ c.trace, e.thread = i ∧ reportsApproval e = true

/-- The identities loaded where a save replaces the file: those the thread saw. -/
def SavesLoaded [DecidableEq ι] (c : Server ι) (turn : ι × Bool) : Prop :=
  match c.next? turn.1 with
  | some (.saveMasterIdentity _) => ∀ e ∈ c.trace, e.thread = turn.1 →
      ∀ loaded ∈ loadedIn e, loadMasterIdentity c.shared.file = loaded
  | _ => True

/-- The file the operations make, one after the other. -/
def applied (ops : ι → Operation) (file : Option MasterIdentity) (order : List ι) :
    Option MasterIdentity :=
  order.foldl (fun file i => (ops i).next file) file

/-- The file is what some of the operations make of the first one in some order: all those that were
reported approved, and none but those, save for requests that are still being served. -/
def NoUpdateLost (ops : ι → Operation) (file : Option MasterIdentity) (c : Server ι) : Prop :=
  ∃ order : List ι, order.Nodup ∧
    loadMasterIdentity c.shared.file = loadMasterIdentity (applied ops file order) ∧
    (∀ i, Approved c i → i ∈ order) ∧ ∀ i ∈ order, Approved c i ∨ c.threads i ≠ .done ()

/-! ## Where a request stands -/

inductive Phase where
  | start
  | holding (loaded : Option MasterIdentity)
  | committed
  | reported
  | refused

/-- The operation counts: the file was replaced, or the call found that there was nothing to do. -/
def Phase.counts : Phase → Prop
  | committed => True
  | reported => True
  | _ => False

/-- Where a request stands once it has loaded. -/
def afterLoad (op : Operation) (loaded : Option MasterIdentity) : Phase :=
  match op.apply loaded with
  | .error _ => .refused
  | .ok (_, none) => .committed
  | .ok (_, some _) => .holding loaded

def watch (op : Operation) : Monitor Query Answer Phase where
  allows phase q :=
    match phase, q with
    | .start, .loadMasterIdentity => True
    | .holding loaded, .saveMasterIdentity mi => op.saved loaded = some mi
    | .committed, .storeResult true => True
    | .refused, .storeResult false => True
    | _, _ => False
  answers _ _ := True
  next phase q a :=
    match q, a with
    | .loadMasterIdentity, (loaded : Option MasterIdentity) => afterLoad op loaded
    | .saveMasterIdentity _, (saved : Bool) => if saved then .committed else .refused
    | .storeResult true, _ => .reported
    | .storeResult false, _ => phase

theorem watched_persist (op : Operation) :
    (watch op).Obeys (fun phase _ => phase = .reported ∨ phase = .refused) .start (persist op) := by
  refine ⟨trivial, fun loaded _ => ?_⟩
  change (watch op).Obeys _ (afterLoad op loaded) _
  unfold afterLoad
  beta_reduce
  cases happly : op.apply loaded with
  | error e => exact ⟨trivial, fun _ _ => .inr rfl⟩
  | ok outcome =>
    obtain ⟨answer, written⟩ := outcome
    cases written with
    | none => exact ⟨trivial, fun _ _ => .inl rfl⟩
    | some mi =>
      refine ⟨saved_eq_some.mpr ⟨answer, happly⟩, ?_⟩
      rintro (_ | _) -
      · exact ⟨trivial, fun _ _ => .inr rfl⟩
      · exact ⟨trivial, fun _ _ => .inl rfl⟩

variable [DecidableEq ι] {ops : ι → Operation} {file : Option MasterIdentity} {c : Server ι}
  {phases : ι → Phase} {i : ι} {lands : Bool} {order : List ι}

omit [DecidableEq ι] in
theorem applied_concat : applied ops file (order ++ [i]) = (ops i).next (applied ops file order) := by
  simp [applied]

/-- What a file is read as decides what an operation makes of it. -/
theorem next_congr {op : Operation} {f g : Option MasterIdentity}
    (h : loadMasterIdentity f = loadMasterIdentity g) : op.next f = op.next g := by
  simp [Operation.next, h]

/-- The operations that count make the file; a request holds what it loaded. -/
structure Serial (ops : ι → Operation) (file : Option MasterIdentity) (c : Server ι)
    (phases : ι → Phase) : Prop where
  order : ∃ order : List ι, order.Nodup ∧ (∀ i, i ∈ order ↔ (phases i).counts) ∧
    loadMasterIdentity c.shared.file = loadMasterIdentity (applied ops file order)
  held : ∀ i loaded, phases i = .holding loaded → ∃ e ∈ c.trace, e.thread = i ∧
    loaded ∈ loadedIn e
  approved : ∀ i, Approved c i ↔ phases i = .reported

/-- The operation of one more request counts, and has made the file. -/
theorem order_concat {c' : Server ι} (phase : Phase) (hcounts : phase.counts)
    (hnew : ¬ (phases i).counts)
    (h : ∃ order : List ι, order.Nodup ∧ (∀ j, j ∈ order ↔ (phases j).counts) ∧
      loadMasterIdentity c.shared.file = loadMasterIdentity (applied ops file order))
    (hfile : loadMasterIdentity c'.shared.file = loadMasterIdentity ((ops i).next c.shared.file)) :
    ∃ order : List ι, order.Nodup ∧
      (∀ j, j ∈ order ↔ (Function.update phases i phase j).counts) ∧
      loadMasterIdentity c'.shared.file = loadMasterIdentity (applied ops file order) := by
  obtain ⟨order, hnodup, hmem, hload⟩ := h
  refine ⟨order ++ [i], ?_, fun j => ?_, ?_⟩
  · exact hnodup.append (List.nodup_singleton i) (by simpa using fun h => hnew ((hmem i).mp h))
  · by_cases hj : j = i
    · subst hj
      simp [hcounts]
    · simp [hj, hmem]
  · rw [applied_concat, hfile, next_congr hload]

/-- The file and what counts are as they were. -/
theorem order_keep {c' : Server ι} (phase : Phase) (hcounts : phase.counts ↔ (phases i).counts)
    (h : ∃ order : List ι, order.Nodup ∧ (∀ j, j ∈ order ↔ (phases j).counts) ∧
      loadMasterIdentity c.shared.file = loadMasterIdentity (applied ops file order))
    (hfile : loadMasterIdentity c'.shared.file = loadMasterIdentity c.shared.file) :
    ∃ order : List ι, order.Nodup ∧
      (∀ j, j ∈ order ↔ (Function.update phases i phase j).counts) ∧
      loadMasterIdentity c'.shared.file = loadMasterIdentity (applied ops file order) := by
  obtain ⟨order, hnodup, hmem, hload⟩ := h
  refine ⟨order, hnodup, fun j => ?_, hfile.trans hload⟩
  by_cases hj : j = i
  · subst hj
    rw [Function.update_self, hcounts, hmem]
  · rw [Function.update_of_ne hj, hmem]

theorem Serial.step {q : Query} {next : Answer q → Handler} (h : Serial ops file c phases)
    (hcall : c.threads i = .call q next) (hallow : (watch (ops i)).allows (phases i) q)
    (hturn : SavesLoaded c (i, lands)) :
    Serial ops file (Serving.step exec c (i, lands))
      (Function.update phases i ((watch (ops i)).next (phases i) q (exec q lands c.shared).1)) := by
  rw [Serving.step_call hcall]
  have hnext : c.next? i = some q := Serving.next?_eq_some.mpr ⟨next, hcall⟩
  simp only [SavesLoaded, hnext] at hturn
  have happroved : ∀ (c' : Server ι) (phase : Phase) (e : Event ι Query Answer Bool),
      c'.trace = c.trace ++ [e] → e.thread = i →
      (reportsApproval e = true ↔ phase = .reported) → (phase = .reported ∨ phases i ≠ .reported) →
      ∀ j, Approved c' j ↔ Function.update phases i phase j = .reported := by
    intro c' phase e htrace hthread hreports hkeeps j
    have hsplit : Approved c' j ↔ Approved c j ∨ (e.thread = j ∧ reportsApproval e = true) := by
      simp [Approved, htrace, or_and_right, exists_or]
    rw [hsplit, h.approved j, hreports, hthread]
    by_cases hj : j = i
    · subst hj
      rw [Function.update_self]
      tauto
    · rw [Function.update_of_ne hj]
      have : ¬ i = j := fun hij => hj hij.symm
      tauto
  have hheld : ∀ (c' : Server ι) (phase : Phase) (e : Event ι Query Answer Bool),
      c'.trace = c.trace ++ [e] → e.thread = i →
      (∀ loaded, phase = .holding loaded → loaded ∈ loadedIn e) →
      ∀ j loaded, Function.update phases i phase j = .holding loaded →
        ∃ e ∈ c'.trace, e.thread = j ∧ loaded ∈ loadedIn e := by
    intro c' phase e htrace hthread hloaded j loaded hj
    rw [htrace]
    by_cases hji : j = i
    · subst hji
      rw [Function.update_self] at hj
      exact ⟨e, by simp, hthread, hloaded loaded hj⟩
    · rw [Function.update_of_ne hji] at hj
      obtain ⟨e', he', hrest⟩ := h.held j loaded hj
      exact ⟨e', List.mem_append_left _ he', hrest⟩
  cases q with
  | loadMasterIdentity =>
    cases hphase : phases i with
    | start =>
      have hstart : ¬ (phases i).counts := by rw [hphase]; exact id
      have hload : loadMasterIdentity (loadMasterIdentity c.shared.file) =
          loadMasterIdentity c.shared.file := loadMasterIdentity_idem _
      refine ⟨?_, ?_, ?_⟩
      · change ∃ order : List ι, order.Nodup ∧ (∀ j, j ∈ order ↔ (Function.update phases i
          (afterLoad (ops i) (loadMasterIdentity c.shared.file)) j).counts) ∧ _
        unfold afterLoad
        cases happly : (ops i).apply (loadMasterIdentity c.shared.file) with
        | error e => exact order_keep _ (by simp [hphase, Phase.counts]) h.order hload
        | ok outcome =>
          obtain ⟨answer, written⟩ := outcome
          cases written with
          | none =>
            refine order_concat _ trivial hstart h.order ?_
            rw [Operation.next, Operation.saved, happly]
            exact rfl
          | some mi => exact order_keep _ (by simp [hphase, Phase.counts]) h.order hload
      · refine hheld _ _ _ rfl rfl fun loaded hloaded => ?_
        change afterLoad (ops i) (loadMasterIdentity c.shared.file) = .holding loaded at hloaded
        unfold afterLoad at hloaded
        split at hloaded <;> cases hloaded
        rfl
      · refine happroved _ _ _ rfl rfl ?_ (.inr (by simp [hphase]))
        change false = true ↔ afterLoad (ops i) (loadMasterIdentity c.shared.file) = .reported
        unfold afterLoad
        split <;> simp
    | _ =>
      rw [hphase] at hallow
      exact hallow.elim
  | saveMasterIdentity mi =>
    cases hphase : phases i with
    | holding loaded =>
      rw [hphase] at hallow
      have hstart : ¬ (phases i).counts := by rw [hphase]; exact id
      obtain ⟨e, he, hthread, hloaded⟩ := h.held i loaded hphase
      have hfile : loadMasterIdentity c.shared.file = loaded := hturn e he hthread loaded hloaded
      have hsaved : (ops i).saved (loadMasterIdentity c.shared.file) = some mi := by
        rw [hfile]
        exact hallow
      cases lands with
      | true =>
        refine ⟨?_, ?_, ?_⟩
        · refine order_concat .committed trivial hstart h.order ?_
          rw [Operation.next, hsaved]
          rfl
        · exact hheld _ .committed _ rfl rfl (by simp)
        · exact happroved _ .committed _ rfl rfl (by simp [reportsApproval]) (.inr (by simp [hphase]))
      | false =>
        refine ⟨?_, ?_, ?_⟩
        · exact order_keep .refused (by simp [hphase, Phase.counts]) h.order rfl
        · exact hheld _ .refused _ rfl rfl (by simp)
        · exact happroved _ .refused _ rfl rfl (by simp [reportsApproval]) (.inr (by simp [hphase]))
    | _ =>
      rw [hphase] at hallow
      exact hallow.elim
  | storeResult approved =>
    cases approved with
    | true =>
      cases hphase : phases i with
      | committed =>
        refine ⟨?_, ?_, ?_⟩
        · exact order_keep .reported (by simp [hphase, Phase.counts]) h.order rfl
        · exact hheld _ .reported _ rfl rfl (by simp)
        · exact happroved _ .reported _ rfl rfl (by simp [reportsApproval]) (.inl rfl)
      | _ =>
        rw [hphase] at hallow
        exact hallow.elim
    | false =>
      cases hphase : phases i with
      | refused =>
        refine ⟨?_, ?_, ?_⟩
        · exact order_keep .refused (by simp [hphase, Phase.counts]) h.order rfl
        · exact hheld _ .refused _ rfl rfl (by simp)
        · exact happroved _ .refused _ rfl rfl (by simp [reportsApproval]) (.inr (by simp [hphase]))
      | _ =>
        rw [hphase] at hallow
        exact hallow.elim

/-- The approved requests before their first call. -/
def serve (ops : ι → Operation) (file : Option MasterIdentity) : Server ι :=
  Serving.start { file } fun i => persist (ops i)

omit [DecidableEq ι] in
theorem serial_serve : Serial ops file (serve ops file) fun _ => .start where
  order := ⟨[], List.nodup_nil, by simp [Phase.counts], rfl⟩
  held := by simp
  approved := by simp [Approved, serve, Serving.start]

/-- Along every schedule on which each save replaces the file its request loaded, no approved update
is lost. -/
theorem no_update_lost (ops : ι → Operation) (file : Option MasterIdentity) (turns : List (ι × Bool))
    (hcondition : Serving.Along exec SavesLoaded (serve ops file) turns) :
    NoUpdateLost ops file (Serving.run exec (serve ops file) turns) := by
  obtain ⟨phases, h, hobeys⟩ := Serving.run_monitored (m := fun i => watch (ops i))
    (P := SavesLoaded) (fun _ _ _ _ => trivial) serial_serve (fun i => watched_persist (ops i))
    (fun c phases i lands q next hcall hallow h hturn => h.step hcall hallow hturn) hcondition
  obtain ⟨order, hnodup, hmem, hload⟩ := h.order
  refine ⟨order, hnodup, hload, fun i hi => ?_, fun i hi => ?_⟩
  · rw [hmem, (h.approved i).mp hi]
    trivial
  · by_contra hnot
    obtain ⟨happroved, hdone⟩ := not_or.mp hnot
    have hpost := hobeys i
    rw [not_not.mp hdone, Monitor.obeys_done] at hpost
    have hcounts := (hmem i).mp hi
    rcases hpost with hreported | hrefused
    · exact happroved ((h.approved i).mpr hreported)
    · rw [hrefused] at hcounts
      exact hcounts

end

/-! ## Two devices at once -/

instance {ι : Type} [DecidableEq ι] (c : Server ι) (turn : ι × Bool) :
    Decidable (SavesLoaded c turn) := by
  unfold SavesLoaded
  split <;> infer_instance

/-- Two approved requests that each add a device to the master's profile. -/
def twoDevices (i : Fin 2) : Operation :=
  .addDevice "b7c1d0de-2f0e-4a38-9df1-6c5ab1c8a0f2" (if i = 0 then "phone-1" else "phone-2")

/-- One after the other. -/
theorem no_update_lost_sample : NoUpdateLost twoDevices bootstrapped?
    (Serving.run exec (serve twoDevices bootstrapped?)
      [(0, true), (0, true), (0, true), (1, true), (1, true), (1, true)]) :=
  no_update_lost twoDevices bootstrapped? _ (by decide +kernel)

/-- Both load before either saves. -/
def racedDevices : Server (Fin 2) :=
  Serving.run exec (serve twoDevices bootstrapped?)
    [(0, true), (1, true), (0, true), (1, true), (0, true), (1, true)]

theorem racedDevices_lose_update : ¬ NoUpdateLost twoDevices bootstrapped? racedDevices := by
  rintro ⟨order, hnodup, hload, happroved, -⟩
  have hboth : ∀ i : Fin 2, ∃ e ∈ racedDevices.trace, e.thread = i ∧ reportsApproval e = true := by
    decide +kernel
  have hperm : order.Perm [0, 1] := by
    refine (List.perm_ext_iff_of_nodup hnodup (by decide)).mpr fun i => ?_
    exact iff_of_true (happroved i (hboth i)) (by fin_cases i <;> simp)
  have hlost : ∀ order ∈ [[0, 1], [1, 0]], loadMasterIdentity racedDevices.shared.file ≠
      loadMasterIdentity (applied twoDevices bootstrapped? order) := by decide +kernel
  have horders : ([0, 1] : List (Fin 2)).permutations' = [[0, 1], [1, 0]] := by decide
  exact hlost order (horders ▸ List.mem_permutations'.mpr hperm) hload

end Profiles
end Recto
