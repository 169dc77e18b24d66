import Recto.State.Revocations
import Recto.Data.Faulty
import Recto.Json.Value

/-!
# The revocation list across restarts

The list stands in memory and in revocations.json. A call changes the memory
first and writes the file after it; the write may raise, and the process may
stop around it. A start loads the file. An entry that was acknowledged lasts
when both the memory and the file hold its jti for as long as it was added for.
-/

namespace Recto
namespace State

open StateStore (listRevocations)

/-- `asdict(entry)` -/
def RevocationEntry.toDoc (e : RevocationEntry) : Json :=
  .obj [("jti", .str e.jti), ("revoked_at_unix", .int e.revokedAt),
    ("original_exp_unix", .int e.originalExp), ("reason", e.reason.elim .null .str)]

/-- `RevocationEntry(**doc)`, for the documents a save writes. -/
def RevocationEntry.ofDoc? : Json → Option RevocationEntry
  | .obj fields =>
      match fields.lookup "jti", fields.lookup "revoked_at_unix",
          fields.lookup "original_exp_unix", fields.lookup "reason" with
      | some (.str jti), some (.int revokedAt), some (.int originalExp), some .null =>
          some ⟨jti, revokedAt, originalExp, none⟩
      | some (.str jti), some (.int revokedAt), some (.int originalExp), some (.str reason) =>
          some ⟨jti, revokedAt, originalExp, some reason⟩
      | _, _, _, _ => none
  | _ => none

@[simp] theorem RevocationEntry.ofDoc?_toDoc (e : RevocationEntry) : ofDoc? e.toDoc = some e := by
  obtain ⟨jti, revokedAt, originalExp, reason⟩ := e
  cases reason <;> rfl

/-- The list in memory, and the documents of revocations.json (none when it does not exist). -/
structure RevocationStore where
  memory : Revocations
  file : List Json

namespace RevocationStore

def empty : RevocationStore := ⟨∅, []⟩

abbrev Program := Faulty RevocationStore PyError

/-- `_save_revocations` -/
def save : Program PUnit :=
  Faulty.write (fun s => { s with file := s.memory.values.map RevocationEntry.toDoc }) .osError

/-- Has an entry of the list expired? -/
def HasExpired (d : Revocations) (now : ℤ) : Prop := d.values.any (·.isExpired now) = true

instance (d : Revocations) (now : ℤ) : Decidable (HasExpired d now) := inferInstanceAs (Decidable (_ = _))

/-- `_purge_expired_revocations` -/
def purge (now : ℤ) : Program PUnit := do
  let s ← Faulty.get
  if HasExpired s.memory now then do
    Faulty.modify fun s => { s with memory := purgeExpiredRevocations s.memory now }
    save
  else pure ⟨⟩

/-- `add_revocation` -/
def addRevocation (now : ℤ) (entry : RevocationEntry) : Program PUnit := do
  purge now
  let s ← Faulty.get
  if entry.jti ∈ s.memory then pure ⟨⟩
  else do
    Faulty.modify fun s => { s with memory := s.memory.set entry.jti entry }
    save

/-- `is_revoked` -/
def isRevoked (now : ℤ) (jti : String) : Program Bool := do
  purge now
  let s ← Faulty.get
  pure (decide (jti ∈ s.memory))

/-- `list_revocations` -/
def list (now : ℤ) : Program (List RevocationEntry) := do
  purge now
  let s ← Faulty.get
  pure (listRevocations s.memory)

/-- `_load`: what has expired is skipped; `none` when a document is no entry. -/
def load (file : List Json) (now : ℤ) : Option Revocations :=
  file.foldlM (fun d doc => do
    let e ← RevocationEntry.ofDoc? doc
    pure (if e.isExpired now then d else d.set e.jti e)) ∅

/-- A start: the memory is what the file holds. -/
def start (s : RevocationStore) (now : ℤ) : RevocationStore :=
  { s with memory := (load s.file now).getD ∅ }

/-- A call of the run. -/
inductive Call where
  | add (entry : RevocationEntry)
  | isRevoked (jti : String)
  | list
  deriving DecidableEq, Repr

def Call.run (now : ℤ) : Call → Program RevocationAnswer
  | .add entry => do
      addRevocation now entry
      pure .added
  | .isRevoked jti => do
      let answer ← RevocationStore.isRevoked now jti
      pure (.revoked answer)
  | .list => do
      let listed ← RevocationStore.list now
      pure (.entries listed)

/-- What happens next: a call, with the faults its writes meet, or a restart. -/
inductive Step where
  | call (now : ℤ) (faults : List Fault) (call : Call)
  | restart (now : ℤ)

def Step.now : Step → ℤ
  | .call now _ _ => now
  | .restart now => now

/-- The store after a step. A process that stopped inside a call starts again. -/
def Step.run (s : RevocationStore) : Step → RevocationStore
  | .call now faults c =>
      match (c.run now).run faults s with
      | .done _ s _ => s
      | .raised _ s _ => s
      | .stopped s => s.start now
  | .restart now => s.start now

/-- The store after the steps. -/
def after (steps : List Step) : RevocationStore := steps.foldl Step.run empty

theorem after_append (steps later : List Step) :
    after (steps ++ later) = later.foldl Step.run (after steps) := List.foldl_append

theorem after_concat (steps : List Step) (step : Step) :
    after (steps ++ [step]) = step.run (after steps) := after_append steps [step]

/-! ## What a run keeps -/

/-- The list holds an entry of the jti that lasts as long as the one given. -/
def Lasts (d : Revocations) (e : RevocationEntry) : Prop :=
  ∃ e₀, d.get? e.jti = some e₀ ∧ e.originalExp ≤ e₀.originalExp

/-- The entries stand under their jti. -/
def Keyed (d : Revocations) : Prop := ∀ jti e, d.get? jti = some e → e.jti = jti

/-- The file is what was saved of a list. -/
structure SavedAs (s : RevocationStore) (d : Revocations) : Prop where
  file_eq : s.file = d.values.map RevocationEntry.toDoc
  keyed : Keyed d

/-- The memory and the file are lists with the property. -/
structure Both (P : Revocations → Prop) (s : RevocationStore) : Prop where
  memory : P s.memory
  file : ∃ d, SavedAs s d ∧ P d

/-- What the calls do to a list keeps the property, at a time. -/
structure Stable (P : Revocations → Prop) (now : ℤ) : Prop where
  keyed : ∀ d, P d → Keyed d
  purge : ∀ d, P d → P (purgeExpiredRevocations d now)
  set : ∀ d e, P d → e.jti ∉ d → P (d.set e.jti e)
  load : ∀ d loaded, P d → (∀ jti e, loaded.get? jti = some e ↔
    d.get? jti = some e ∧ now < e.originalExp) → P loaded

variable {s : RevocationStore} {d : Revocations} {e : RevocationEntry} {now : ℤ}

theorem Keyed.purge (h : Keyed d) : Keyed (purgeExpiredRevocations d now) :=
  fun jti e he => h jti e (get?_purge.mp he).1

theorem Keyed.set (h : Keyed d) : Keyed (d.set e.jti e) := by
  intro jti e' he
  rw [Dict.get?_set] at he
  split_ifs at he with hjti
  · rw [hjti, ← Option.some.inj he]
  · exact h jti e' he

theorem Lasts.purge (h : Lasts d e) (hnow : now < e.originalExp) :
    Lasts (purgeExpiredRevocations d now) e := by
  obtain ⟨e₀, hget, hle⟩ := h
  exact ⟨e₀, get?_purge.mpr ⟨hget, by omega⟩, hle⟩

theorem Lasts.set {e' : RevocationEntry} (h : Lasts d e) (hnew : e'.jti ∉ d) :
    Lasts (d.set e'.jti e') e := by
  obtain ⟨e₀, hget, hle⟩ := h
  have hne : e.jti ≠ e'.jti := fun he => hnew (he ▸ Dict.mem_of_get? hget)
  exact ⟨e₀, by rwa [Dict.get?_set_of_ne _ hne], hle⟩

/-- A start loads the entries of the file that have not expired. -/
theorem get?_load (now : ℤ) (h : SavedAs s d) : ∃ loaded, load s.file now = some loaded ∧
    ∀ jti e, loaded.get? jti = some e ↔ d.get? jti = some e ∧ now < e.originalExp := by
  have hstep : ∀ (items : List (String × RevocationEntry)) (loaded : Revocations),
      (items.map Prod.fst).Nodup → (∀ item ∈ items, item.2.jti = item.1) →
      ∃ loaded', (items.map fun item => item.2.toDoc).foldlM (fun d doc => do
          let e ← RevocationEntry.ofDoc? doc
          pure (if e.isExpired now then d else d.set e.jti e)) loaded = some loaded' ∧
        ∀ jti e, loaded'.get? jti = some e ↔
          (jti, e) ∈ items ∧ now < e.originalExp ∨
            loaded.get? jti = some e ∧ ∀ e', (jti, e') ∈ items → e'.originalExp ≤ now := by
    intro items
    induction items with
    | nil => exact fun loaded _ _ => ⟨loaded, rfl, by simp⟩
    | cons item rest ih =>
      intro loaded hnodup hkeyed
      obtain ⟨key, e₁⟩ := item
      obtain rfl : e₁.jti = key := hkeyed _ List.mem_cons_self
      rw [List.map_cons, List.nodup_cons] at hnodup
      obtain ⟨loaded', hload, hget⟩ := ih (if e₁.isExpired now then loaded else loaded.set e₁.jti e₁)
        hnodup.2 fun item hitem => hkeyed item (List.mem_cons_of_mem _ hitem)
      have hfresh : ∀ e', (e₁.jti, e') ∉ rest := fun e' he' =>
        hnodup.1 (List.mem_map.mpr ⟨_, he', rfl⟩)
      refine ⟨loaded', by simpa using hload, fun jti e => ?_⟩
      rw [hget]
      by_cases hexpired : e₁.originalExp ≤ now
      · simp only [RevocationEntry.isExpired, hexpired, decide_true, if_true, List.mem_cons,
          Prod.mk.injEq]
        constructor
        · rintro (⟨hmem, hlt⟩ | ⟨hold, hrest⟩)
          · exact Or.inl ⟨Or.inr hmem, hlt⟩
          · refine Or.inr ⟨hold, ?_⟩
            rintro e' (⟨-, rfl⟩ | hmem)
            · exact hexpired
            · exact hrest e' hmem
        · rintro (⟨⟨-, rfl⟩ | hmem, hlt⟩ | ⟨hold, hrest⟩)
          · omega
          · exact Or.inl ⟨hmem, hlt⟩
          · exact Or.inr ⟨hold, fun e' he' => hrest e' (Or.inr he')⟩
      · simp only [RevocationEntry.isExpired, hexpired, decide_false, Bool.false_eq_true, if_false,
          List.mem_cons, Prod.mk.injEq, Dict.get?_set]
        by_cases hjti : jti = e₁.jti
        · subst hjti
          simp only [if_true, true_and, Option.some.injEq, hfresh, or_false, false_and, false_or,
            false_implies, implies_true, and_true]
          constructor
          · rintro rfl
            exact Or.inl ⟨rfl, by omega⟩
          · rintro (⟨rfl, -⟩ | ⟨-, hrest⟩)
            · rfl
            · exact absurd (hrest e₁ rfl) hexpired
        · simp [hjti]
  obtain ⟨loaded, hload, hget⟩ := hstep d.items ∅ d.nodup fun item hitem =>
    h.keyed _ _ (Dict.get?_eq_some_iff.mpr hitem)
  refine ⟨loaded, ?_, fun jti e => ?_⟩
  · rw [load, h.file_eq, Dict.values, List.map_map]
    exact hload
  · rw [hget]
    simp [Dict.get?_eq_some_iff]

theorem stable_keyed : Stable Keyed now where
  keyed _ h := h
  purge _ h := h.purge
  set _ _ h _ := h.set
  load _ _ h hget jti e he := h jti e ((hget jti e).mp he).1

theorem stable_lasts (hnow : now < e.originalExp) :
    Stable (fun d => Keyed d ∧ Lasts d e) now where
  keyed _ h := h.1
  purge _ h := ⟨h.1.purge, h.2.purge hnow⟩
  set _ _ h hnew := ⟨h.1.set, h.2.set hnew⟩
  load := by
    rintro d loaded ⟨hkeyed, e₀, hget₀, hle⟩ hget
    exact ⟨stable_keyed.load d loaded hkeyed hget, e₀, (hget _ _).mpr ⟨hget₀, by omega⟩, hle⟩

section Keeps

variable {F : Fault → Prop} {P : Revocations → Prop}

theorem Both.withMemory (h : Both P s) (hd : P d) : Both P { s with memory := d } where
  memory := hd
  file := by
    obtain ⟨d', hsaved, hP⟩ := h.file
    exact ⟨d', ⟨hsaved.file_eq, hsaved.keyed⟩, hP⟩

theorem save_keeps (hP : Stable P now) : save.Keeps F (Both P) := by
  intro s h
  have hsaved : Both P { s with file := s.memory.values.map RevocationEntry.toDoc } :=
    ⟨h.memory, s.memory, ⟨rfl, hP.keyed _ h.memory⟩, h.memory⟩
  exact .write hsaved (fun _ => h) (fun _ => h) fun _ => hsaved

theorem purge_keeps (hP : Stable P now) : (purge now).Keeps F (Both P) := by
  intro s h
  refine .bindGet (.ite (fun _ => .bindModify ?_) fun _ => .pure h)
  exact save_keeps hP _ (h.withMemory (hP.purge _ h.memory))

theorem addRevocation_keeps (hP : Stable P now) : (addRevocation now e).Keeps F (Both P) := by
  refine .bind (purge_keeps hP) fun _ s h => ?_
  refine .bindGet (.ite (fun _ => .pure h) fun hnew => .bindModify ?_)
  exact save_keeps hP _ (h.withMemory (hP.set _ _ h.memory hnew))

theorem Call.keeps (hP : Stable P now) (call : Call) : (call.run now).Keeps F (Both P) := by
  cases call with
  | add e => exact .bind (addRevocation_keeps hP) fun _ => .pure _
  | isRevoked jti =>
    exact .bind (.bind (purge_keeps hP) fun _ => .bind .get fun _ => .pure _) fun _ => .pure _
  | list => exact .bind (.bind (purge_keeps hP) fun _ => .bind .get fun _ => .pure _) fun _ => .pure _

theorem Both.start (hP : Stable P now) (h : Both P s) : Both P (s.start now) := by
  obtain ⟨d, hsaved, hd⟩ := h.file
  obtain ⟨loaded, hload, hget⟩ := get?_load now hsaved
  rw [RevocationStore.start, hload]
  exact h.withMemory (hP.load d loaded hd hget)

/-- One step keeps the property. -/
theorem Both.step {step : Step} (hP : Stable P step.now) (h : Both P s) : Both P (step.run s) := by
  cases step with
  | restart now => exact h.start hP
  | call now faults c =>
    have hkept : (Faulty.Post.always (Both P)).holds Fault.Any ((c.run now).run faults s) :=
      Call.keeps hP c s h faults fun _ _ => trivial
    simp only [Step.run]
    cases hrun : (c.run now).run faults s with
    | done a s' rest =>
      rw [hrun] at hkept
      exact hkept.1
    | raised err s' rest =>
      rw [hrun] at hkept
      exact hkept.1
    | stopped s' =>
      rw [hrun] at hkept
      exact Both.start hP hkept

theorem Both.steps {steps : List Step} (hP : ∀ step ∈ steps, Stable P step.now) (h : Both P s) :
    Both P (steps.foldl Step.run s) := by
  induction steps generalizing s with
  | nil => exact h
  | cons step rest ih =>
    exact ih (fun step' hstep' => hP step' (List.mem_cons_of_mem _ hstep'))
      (h.step (hP step List.mem_cons_self))

end Keeps

/-- In every run the memory and the file are lists by jti. -/
theorem both_keyed (steps : List Step) : Both Keyed (after steps) := by
  refine Both.steps (fun _ _ => stable_keyed) ⟨?_, ∅, ⟨rfl, ?_⟩, ?_⟩ <;>
    exact fun jti e he => by simp [empty] at he

/-! ## What one call does -/

variable {F : Fault → Prop}

/-- What is left of the file when the memory is written if anything in it had expired. -/
def fileAfterPurge (s : RevocationStore) (now : ℤ) : List Json :=
  if HasExpired s.memory now then
    (purgeExpiredRevocations s.memory now).values.map RevocationEntry.toDoc
  else s.file

theorem purge_eq_self (h : ¬HasExpired d now) : purgeExpiredRevocations d now = d := by
  refine Dict.ext (List.filter_eq_self.mpr fun item hitem => ?_)
  have hvalue : item.2 ∈ d.values := List.mem_map.mpr ⟨item, hitem, rfl⟩
  simp only [HasExpired, List.any_eq_true, not_exists, not_and] at h
  simpa using h _ hvalue

theorem purge_sat (s : RevocationStore) : (purge now).Sat F s
    ⟨fun _ s' => s' = ⟨purgeExpiredRevocations s.memory now, fileAfterPurge s now⟩,
      fun _ _ => True, fun _ => True⟩ := by
  refine .bindGet (.ite (fun hexpired => .bindModify ?_) fun hexpired => .pure ?_)
  · refine .write ?_ (fun _ => trivial) (fun _ => trivial) fun _ => trivial
    simp [fileAfterPurge, hexpired]
  · simp [fileAfterPurge, hexpired, purge_eq_self hexpired]

/-- An add that returns found the jti on the list, or wrote it. -/
theorem add_sat (now : ℤ) (s : RevocationStore) (e : RevocationEntry) :
    ((Call.add e).run now).Sat F s
    ⟨fun _ s' => s' = if e.jti ∈ purgeExpiredRevocations s.memory now then
        ⟨purgeExpiredRevocations s.memory now, fileAfterPurge s now⟩
      else
        ⟨(purgeExpiredRevocations s.memory now).set e.jti e,
          ((purgeExpiredRevocations s.memory now).set e.jti e).values.map RevocationEntry.toDoc⟩,
      fun _ _ => True, fun _ => True⟩ := by
  refine .bind (.bind ((purge_sat s).mono ?_ (fun _ _ h => h) fun _ h => h))
  rintro - s' rfl
  refine .bindGet (.ite (fun hmem => .pure (.pure ?_)) fun hmem => .bindModify ?_)
  · rw [if_pos hmem]
  · refine .write (.pure ?_) (fun _ => trivial) (fun _ => trivial) fun _ => trivial
    rw [if_neg hmem]

theorem isRevoked_sat (now : ℤ) (s : RevocationStore) (jti : String) :
    ((Call.isRevoked jti).run now).Sat F s
    ⟨fun a _ => a = .revoked (decide (jti ∈ purgeExpiredRevocations s.memory now)),
      fun _ _ => True, fun _ => True⟩ := by
  refine .bind (.bind ((purge_sat s).mono ?_ (fun _ _ h => h) fun _ h => h))
  rintro - s' rfl
  exact .bindGet (.pure (.pure rfl))

/-- Without a fault a purge lands. -/
theorem purge_run_nil (s : RevocationStore) : (purge now).run [] s =
    .done ⟨⟩ ⟨purgeExpiredRevocations s.memory now, fileAfterPurge s now⟩ [] := by
  by_cases h : HasExpired s.memory now
  · simp [purge, Faulty.run_bind, save, fileAfterPurge, h]
  · simp [purge, Faulty.run_bind, fileAfterPurge, h, purge_eq_self h]

theorem isRevoked_run_nil (s : RevocationStore) (jti : String) :
    ((Call.isRevoked jti).run now).run [] s =
      .done (.revoked (decide (jti ∈ purgeExpiredRevocations s.memory now)))
        ⟨purgeExpiredRevocations s.memory now, fileAfterPurge s now⟩ [] := by
  simp [Call.run, isRevoked, Faulty.run_bind, purge_run_nil]

theorem list_run_nil (s : RevocationStore) : (Step.call now [] .list).run s =
    ⟨purgeExpiredRevocations s.memory now, fileAfterPurge s now⟩ := by
  simp [Step.run, Call.run, list, Faulty.run_bind, purge_run_nil]

/-! ## An acknowledged entry -/

/-- Whatever follows the steps, once the process was started again `is_revoked` answers true, at
every moment before the entry expires: it does when its write lands, and whenever it returns. -/
def Survives (steps : List Step) (e : RevocationEntry) : Prop :=
  ∀ later, (∀ step ∈ later, step.now < e.originalExp) → (∃ t, Step.restart t ∈ later) →
    ∀ ask, ask < e.originalExp →
      (∃ s, ((Call.isRevoked e.jti).run ask).run [] (after (steps ++ later)) =
        .done (.revoked true) s []) ∧
      ∀ faults answer s rest, ((Call.isRevoked e.jti).run ask).run faults (after (steps ++ later)) =
        .done answer s rest → answer = .revoked true

/-- The file holds an entry of the jti that lasts as long as the one given. -/
def InFile (file : List Json) (e : RevocationEntry) : Prop :=
  ∃ e₀ : RevocationEntry, e₀.toDoc ∈ file ∧ e₀.jti = e.jti ∧ e.originalExp ≤ e₀.originalExp

/-- An add that finds its jti on the list finds it there for as long as the entry lasts, in memory
and, unless the purge writes it anew, in the file. -/
def FindsKept (s : RevocationStore) (now : ℤ) (e : RevocationEntry) : Prop :=
  e.jti ∈ purgeExpiredRevocations s.memory now →
    Lasts s.memory e ∧ (HasExpired s.memory now ∨ InFile s.file e)

theorem inFile_iff (h : SavedAs s d) : InFile s.file e ↔ Lasts d e := by
  rw [h.file_eq]
  constructor
  · rintro ⟨e₀, hmem, hjti, hle⟩
    obtain ⟨e₁, he₁, hdoc⟩ := List.mem_map.mp hmem
    have heq : e₁ = e₀ := by
      have := congrArg RevocationEntry.ofDoc? hdoc
      simpa using this
    obtain ⟨key, hget⟩ := Dict.mem_values_iff.mp (heq ▸ he₁)
    have hkey : e.jti = key := hjti.symm.trans (h.keyed key e₀ hget)
    exact ⟨e₀, by rwa [hkey], hle⟩
  · rintro ⟨e₀, hget, hle⟩
    exact ⟨e₀, List.mem_map.mpr ⟨e₀, Dict.mem_values_iff.mpr ⟨_, hget⟩, rfl⟩,
      h.keyed _ _ hget, hle⟩

/-- Where the memory and the file hold the entry, it survives. -/
theorem survives_of_both {steps : List Step}
    (h : Both (fun d => Keyed d ∧ Lasts d e) (after steps)) : Survives steps e := by
  intro later hclock _ ask hask
  have hlater : Both (fun d => Keyed d ∧ Lasts d e) (after (steps ++ later)) := by
    rw [after_append]
    exact h.steps fun step hstep => stable_lasts (hclock step hstep)
  have hmem : e.jti ∈ purgeExpiredRevocations (after (steps ++ later)).memory ask := by
    obtain ⟨e₀, hget, -⟩ := hlater.memory.2.purge hask
    exact Dict.mem_of_get? hget
  refine ⟨⟨_, by rw [isRevoked_run_nil, decide_eq_true hmem]⟩, ?_⟩
  intro faults answer s rest hrun
  have hanswer := isRevoked_sat (F := Fault.Any) ask (after (steps ++ later)) e.jti faults
    fun _ _ => trivial
  rw [hrun, decide_eq_true hmem] at hanswer
  exact hanswer.1

/-- A restart right before the entry expires shows what the file holds. -/
theorem Survives.lasts {steps : List Step} (h : Survives steps e) (later : List Step)
    (hclock : ∀ step ∈ later, step.now < e.originalExp) (hd : SavedAs (after (steps ++ later)) d) :
    Lasts d e := by
  obtain ⟨⟨s, hrun⟩, -⟩ := h (later ++ [.restart (e.originalExp - 1)])
    (by
      intro step hstep
      rcases List.mem_append.mp hstep with hstep | hstep
      · exact hclock step hstep
      · obtain rfl := List.mem_singleton.mp hstep
        exact sub_one_lt e.originalExp)
    ⟨_, List.mem_append_right _ (List.mem_singleton_self _)⟩ (e.originalExp - 1) (sub_one_lt _)
  obtain ⟨loaded, hload, hget⟩ := get?_load (e.originalExp - 1) hd
  rw [← List.append_assoc, after_concat, isRevoked_run_nil] at hrun
  have hmem : e.jti ∈ purgeExpiredRevocations
      (Step.run (after (steps ++ later)) (.restart (e.originalExp - 1))).memory
      (e.originalExp - 1) := by
    injection hrun with hanswer
    simpa using hanswer
  obtain ⟨e₀, hget₀⟩ := Dict.mem_iff.mp hmem
  have hmemory : (Step.run (after (steps ++ later)) (.restart (e.originalExp - 1))).memory =
      loaded := by
    simp [Step.run, start, hload]
  rw [hmemory, get?_purge, hget] at hget₀
  exact ⟨e₀, hget₀.1.1, by omega⟩

/-- An acknowledged entry survives exactly when the add that returned wrote it, or found it kept. -/
theorem revocation_survives_iff (steps : List Step) (now : ℤ) (faults : List Fault)
    (e : RevocationEntry)
    (hreturned : ∃ s rest, ((Call.add e).run now).run faults (after steps) = .done .added s rest) :
    Survives (steps ++ [.call now faults (.add e)]) e ↔ FindsKept (after steps) now e := by
  obtain ⟨s', rest, hrun⟩ := hreturned
  have hafter : after (steps ++ [.call now faults (.add e)]) = s' := by
    simp only [after_concat, Step.run, hrun]
  have hs' := add_sat (F := Fault.Any) now (after steps) e faults fun _ _ => trivial
  rw [hrun] at hs'
  replace hs' := hs'.1
  have hboth : Both Keyed s' := hafter ▸ both_keyed _
  obtain ⟨d, hsaved, -⟩ := (both_keyed steps).file
  by_cases hmem : e.jti ∈ purgeExpiredRevocations (after steps).memory now
  · rw [if_pos hmem] at hs'
    obtain ⟨d', hsaved', hkeyed'⟩ := hboth.file
    have hfile : Lasts d' e ↔ if HasExpired (after steps).memory now then
        Lasts (purgeExpiredRevocations (after steps).memory now) e else InFile (after steps).file e := by
      rw [← inFile_iff hsaved', hs', fileAfterPurge]
      split_ifs
      · exact inFile_iff (s := ⟨∅, _⟩) ⟨rfl, (both_keyed steps).memory.purge⟩
      · rfl
    have hpurged : Lasts (purgeExpiredRevocations (after steps).memory now) e ↔
        Lasts (after steps).memory e := by
      constructor
      · rintro ⟨e₀, hget, hle⟩
        exact ⟨e₀, (get?_purge.mp hget).1, hle⟩
      · rintro ⟨e₀, hget, hle⟩
        obtain ⟨e₁, hget₁⟩ := Dict.mem_iff.mp hmem
        have hsame : e₁ = e₀ := Option.some.inj ((get?_purge.mp hget₁).1.symm.trans hget)
        exact ⟨e₀, hsame ▸ hget₁, hle⟩
    constructor
    · intro hsurvives _
      -- What the file holds, at once and after a purge right before the expiry.
      have hnow : Lasts d' e := hsurvives.lasts [] (by simp) (by
        rw [List.append_nil, hafter]
        exact hsaved')
      have hlist : after (steps ++ [.call now faults (.add e)] ++
          [.call (e.originalExp - 1) [] .list]) =
          ⟨purgeExpiredRevocations s'.memory (e.originalExp - 1),
            fileAfterPurge s' (e.originalExp - 1)⟩ := by
        rw [after_concat, hafter, list_run_nil]
      have hlasts : Lasts s'.memory e := by
        by_cases hexpired : HasExpired s'.memory (e.originalExp - 1)
        · obtain ⟨e₀, hget, hle⟩ := hsurvives.lasts
            (d := purgeExpiredRevocations s'.memory (e.originalExp - 1))
            [.call (e.originalExp - 1) [] .list]
            (by
              intro step hstep
              obtain rfl := List.mem_singleton.mp hstep
              exact sub_one_lt e.originalExp)
            (by
              rw [hlist]
              exact ⟨by simp only [fileAfterPurge, if_pos hexpired], hboth.memory.purge⟩)
          exact ⟨e₀, (get?_purge.mp hget).1, hle⟩
        · obtain ⟨e₀, hget⟩ := Dict.mem_iff.mp (show e.jti ∈ s'.memory by rw [hs']; exact hmem)
          have hkept : e₀.originalExp > e.originalExp - 1 := by
            by_contra hle
            refine hexpired (List.any_eq_true.mpr ⟨e₀, Dict.mem_values_iff.mpr ⟨_, hget⟩, ?_⟩)
            simp only [RevocationEntry.isExpired, decide_eq_true_eq]
            omega
          exact ⟨e₀, hget, by omega⟩
      rw [hs'] at hlasts
      refine ⟨hpurged.mp hlasts, ?_⟩
      rw [hfile] at hnow
      split_ifs at hnow with hexpired
      · exact Or.inl hexpired
      · exact Or.inr hnow
    · intro hkept
      obtain ⟨hlasts, hfileOr⟩ := hkept hmem
      refine survives_of_both ⟨?_, d', ?_, hkeyed', hfile.mpr ?_⟩
      · rw [hafter, hs']
        exact ⟨(both_keyed steps).memory.purge, hpurged.mpr hlasts⟩
      · rw [hafter]
        exact hsaved'
      · split_ifs with hexpired
        · exact hpurged.mpr hlasts
        · exact hfileOr.resolve_left hexpired
  · rw [if_neg hmem] at hs'
    refine ⟨fun _ h => absurd h hmem, fun _ => survives_of_both ?_⟩
    have hset : Keyed ((purgeExpiredRevocations (after steps).memory now).set e.jti e) ∧
        Lasts ((purgeExpiredRevocations (after steps).memory now).set e.jti e) e :=
      ⟨(both_keyed steps).memory.purge.set, e, Dict.get?_set_self _ _ _, le_rfl⟩
    rw [hafter, hs']
    exact ⟨hset, _, ⟨rfl, hset.1⟩, hset⟩

def sampleRevocation : RevocationEntry := ⟨"grant-7", 10, 100, none⟩

theorem revocation_survives_iff_sample :
    Survives [.call 10 [.lands] (.add sampleRevocation)] sampleRevocation ↔
      FindsKept empty 10 sampleRevocation :=
  revocation_survives_iff [] 10 [.lands] sampleRevocation ⟨_, _, rfl⟩

/-- The first add raises at its write; the second returns; a restart forgets the entry. -/
theorem retried_revocation_lost :
    (∃ e s rest, ((Call.add sampleRevocation).run 10).run [.raises] empty = .raised e s rest) ∧
      (∃ s rest, ((Call.add sampleRevocation).run 11).run []
        (after [.call 10 [.raises] (.add sampleRevocation)]) = .done .added s rest) ∧
      ∃ s rest, ((Call.isRevoked "grant-7").run 13).run []
        (after [.call 10 [.raises] (.add sampleRevocation),
          .call 11 [] (.add sampleRevocation), .restart 12]) = .done (.revoked false) s rest :=
  ⟨⟨_, _, _, rfl⟩, ⟨_, _, rfl⟩, _, _, rfl⟩

end RevocationStore

end State
end Recto
