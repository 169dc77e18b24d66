import Recto.Data.Faulty
import Recto.Nssm.Client

/-!
# Reconciling a service

`recto apply`: the plan compares what the declaration wants with what `nssm.exe`
prints, sets the strings that differ, and clears the extra environment last. Each
call of `nssm.exe` can fail, and the command can be stopped at any of them.
-/

namespace Recto
namespace Nssm

open Lines

/-- What `compute_plan` reads of a service's declaration. -/
structure Declaration where
  name : Text
  displayName : Text
  description : Text
  workingDir : Text

structure FieldChange where
  field : String
  current : Text
  desired : Text
  deriving DecidableEq, Repr

def FieldChange.changed (c : FieldChange) : Bool := c.current ≠ c.desired

structure ReconcilePlan where
  service : Text
  fieldChanges : List FieldChange
  clearEnvironmentExtra : Bool
  deriving DecidableEq, Repr

namespace ReconcilePlan

def changes (plan : ReconcilePlan) : List FieldChange :=
  plan.fieldChanges.filter FieldChange.changed

def isNoop (plan : ReconcilePlan) : Bool := plan.changes = [] && !plan.clearEnvironmentExtra

end ReconcilePlan

/-- `a or b` -/
def orElse (a b : Text) : Text := if a = [] then b else a

/-- `compute_plan` -/
def computePlan (cfg : Declaration) (current : NssmConfig) (yamlPath pythonExe : Text) :
    ReconcilePlan where
  service := cfg.name
  fieldChanges :=
    [⟨"Application", current.appPath, pythonExe⟩,
      ⟨"AppParameters", current.appParameters, "-m recto launch ".toList ++ yamlPath⟩,
      ⟨"AppDirectory", current.appDirectory, cfg.workingDir⟩,
      ⟨"DisplayName", current.displayName,
        orElse cfg.displayName (orElse cfg.description cfg.name)⟩,
      ⟨"Description", current.description, cfg.description⟩]
  clearEnvironmentExtra := current.appEnvironmentExtra ≠ []

/-! ## Calls that change the registry -/

def modifyService (name : Text) (f : Service → Service) (r : Registry) : Registry :=
  match r.get? name with
  | none => r
  | some s => r.set name (f s)

/-- `NssmClient.set`; an argument with NUL in it starts no process. -/
def setString (name : Text) (field : String) (text : Text) : Faulty Registry NssmError PUnit :=
  if h : '\x00' ∈ text then Faulty.raise .embeddedNul
  else Faulty.write (modifyService name fun s => s.set field ⟨text, h⟩) .failed

/-- `NssmClient.reset` of the extra environment -/
def resetEnvironment (name : Text) : Faulty Registry NssmError PUnit :=
  Faulty.write (modifyService name fun s => { s with environment := [] }) .failed

/-- `apply_plan` -/
def applyPlan (plan : ReconcilePlan) : Faulty Registry NssmError PUnit := do
  Faulty.forEach (fun c => setString plan.service c.field c.desired) plan.changes
  if plan.clearEnvironmentExtra then resetEnvironment plan.service else pure ⟨⟩

/-! ## The command -/

structure ApplyArgs where
  dryRun : Bool
  /-- `--yes`, or the answer to the question. -/
  confirmed : Bool

inductive Applied where
  | nothingNeeded
  | dryRun
  | aborted
  | applied
  deriving DecidableEq, Repr

/-- The interpreter that is set: the one of the arguments, else the one there is. -/
def resolvePythonExe (pythonExe : Option Text) (current : NssmConfig) : Text :=
  pythonExe.getD (orElse current.appPath "python.exe".toList)

section
variable (exe : NssmExe) (codepage : Bytes → Text) (cfg : Declaration) (yamlPath : Text)
  (pythonExe : Option Text)

/-- The plan for a service as it stands. -/
def planFor (s : Service) : ReconcilePlan :=
  computePlan cfg (getAll exe codepage s) yamlPath
    (resolvePythonExe pythonExe (getAll exe codepage s))

/-- `_cmd_apply` of a declaration that was loaded -/
def cmdApply (args : ApplyArgs) : Faulty Registry NssmError Applied := do
  let r ← Faulty.get
  match r.get? cfg.name with
  | none => Faulty.raise .notFound
  | some s =>
      let plan := planFor exe codepage cfg yamlPath pythonExe s
      if plan.isNoop then pure .nothingNeeded
      else if args.dryRun then pure .dryRun
      else if args.confirmed = false then pure .aborted
      else do
        applyPlan plan
        pure .applied

/-- The strings that a declaration settles, and what it wants of them. -/
def wanted (s : Service) : List (String × Text) :=
  (planFor exe codepage cfg yamlPath pythonExe s).fieldChanges.map fun c => (c.field, c.desired)

end

section
variable {exe : NssmExe} {codepage : Bytes → Text} {cfg : Declaration} {yamlPath : Text}
  {pythonExe : Option Text} {s s₀ : Service} {r r₀ : Registry} {W : List (String × Text)}
  {field : String} {text : Text}

theorem nodup_wanted :
    ((wanted exe codepage cfg yamlPath pythonExe s).map Prod.fst).Nodup := by
  have hfields : (wanted exe codepage cfg yamlPath pythonExe s).map Prod.fst =
      ["Application", "AppParameters", "AppDirectory", "DisplayName", "Description"] := rfl
  rw [hfields]
  decide

/-- The plan compares with what the string is read as. -/
theorem current_eq {c : FieldChange}
    (h : c ∈ (planFor exe codepage cfg yamlPath pythonExe s).fieldChanges) :
    c.current = rstrip (s.value c.field).1 := by
  simp only [planFor, computePlan, List.mem_cons, List.not_mem_nil, or_false] at h
  rcases h with rfl | rfl | rfl | rfl | rfl <;> exact readString_eq s _

theorem clearEnvironmentExtra_iff :
    (planFor exe codepage cfg yamlPath pythonExe s).clearEnvironmentExtra = true ↔
      s.environment.filterMap Entry.sets ≠ [] := by
  have hread := appEnvironmentExtra_eq exe codepage s
  simp [planFor, computePlan, hread]

theorem isNoop_iff : (planFor exe codepage cfg yamlPath pythonExe s).isNoop = true ↔
    (∀ p ∈ wanted exe codepage cfg yamlPath pythonExe s, rstrip (s.value p.1).1 = p.2) ∧
      s.environment.filterMap Entry.sets = [] := by
  have hclear : (planFor exe codepage cfg yamlPath pythonExe s).clearEnvironmentExtra = true ↔ _ :=
    clearEnvironmentExtra_iff
  rw [ReconcilePlan.isNoop, Bool.and_eq_true, decide_eq_true_iff, Bool.not_eq_true',
    ReconcilePlan.changes, List.filter_eq_nil_iff, wanted, List.forall_mem_map]
  refine and_congr ?_ ?_
  · refine forall₂_congr fun c hc => ?_
    rw [← current_eq hc]
    simp [FieldChange.changed]
  · rw [← not_iff_not, Bool.not_eq_false, hclear]

/-! ## One string set -/

@[simp] theorem value_set (s : Service) (field field' : String) (v : Value) :
    (s.set field v).value field' = if field' = field then v else s.value field' := by
  simp only [Service.value, Service.set, Dict.get?_set]
  split_ifs <;> rfl

/-- The string is the text, or is read as it. -/
def Placed (s : Service) (field : String) (text : Text) : Prop :=
  (s.value field).1 = text ∨ rstrip (s.value field).1 = text

/-- What a service keeps while a declaration is applied to it, over and over: the strings that are
not its business; the others, until they are what is wanted; and its extra environment, until they
all are. -/
structure Kept (W : List (String × Text)) (s₀ s : Service) : Prop where
  others : ∀ field ∉ W.map Prod.fst, s.strings.get? field = s₀.strings.get? field
  strings : ∀ p ∈ W, s.value p.1 = s₀.value p.1 ∨ (s.value p.1).1 = p.2
  environment : s.environment = s₀.environment ∨
    (s.environment = [] ∧ ∀ p ∈ W, Placed s p.1 p.2)

theorem Kept.refl (W : List (String × Text)) (s : Service) : Kept W s s :=
  ⟨fun _ _ => rfl, fun _ _ => .inl rfl, .inl rfl⟩

theorem eq_of_mem_wanted (hW : (W.map Prod.fst).Nodup) {p q : String × Text} (hp : p ∈ W)
    (hq : q ∈ W) (h : p.1 = q.1) : p = q := List.inj_on_of_nodup_map hW hp hq h

theorem placed_set (hW : (W.map Prod.fst).Nodup) {p q : String × Text} (hp : p ∈ W) (hq : q ∈ W)
    (hnul : '\x00' ∉ p.2) (hplaced : q.1 ≠ p.1 → Placed s q.1 q.2) :
    Placed (s.set p.1 ⟨p.2, hnul⟩) q.1 q.2 := by
  unfold Placed
  rw [value_set]
  split_ifs with hfield
  · obtain rfl := eq_of_mem_wanted hW hq hp hfield
    exact .inl rfl
  · exact hplaced hfield

theorem Kept.set (hW : (W.map Prod.fst).Nodup) (h : Kept W s₀ s) {p : String × Text} (hp : p ∈ W)
    (hnul : '\x00' ∉ p.2) : Kept W s₀ (s.set p.1 ⟨p.2, hnul⟩) where
  others := by
    intro field hfield
    have hne : field ≠ p.1 := by
      rintro rfl
      exact hfield (List.mem_map_of_mem hp)
    rw [← h.others field hfield]
    exact Dict.get?_set_of_ne _ hne _
  strings := by
    intro q hq
    rw [value_set]
    split_ifs with hfield
    · obtain rfl := eq_of_mem_wanted hW hq hp hfield
      exact .inr rfl
    · exact h.strings q hq
  environment := by
    rcases h.environment with henv | ⟨henv, hplaced⟩
    · exact .inl henv
    · exact .inr ⟨henv, fun q hq => placed_set hW hp hq hnul fun _ => hplaced q hq⟩

theorem Kept.reset (h : Kept W s₀ s) (hplaced : ∀ p ∈ W, Placed s p.1 p.2) :
    Kept W s₀ { s with environment := [] } :=
  ⟨h.others, h.strings, .inr ⟨rfl, hplaced⟩⟩

/-! ## One command -/

/-- No other service changes, and the service keeps what it keeps. -/
def KeptIn (name : Text) (W : List (String × Text)) (r₀ : Registry) (s₀ : Service) (r : Registry) :
    Prop :=
  (∀ name' ≠ name, r.get? name' = r₀.get? name') ∧ ∃ s, r.get? name = some s ∧ Kept W s₀ s

theorem get?_modifyService {name : Text} (f : Service → Service) (h : r.get? name = some s) :
    (modifyService name f r).get? name = some (f s) := by
  simp [modifyService, h]

theorem get?_modifyService_of_ne {name name' : Text} (f : Service → Service) (hne : name' ≠ name) :
    (modifyService name f r).get? name' = r.get? name' := by
  unfold modifyService
  cases r.get? name with
  | none => rfl
  | some s => exact Dict.get?_set_of_ne _ hne _

/-- What an interrupted loop of the plan leaves: the strings still ahead may be as they were. -/
def Ahead (name : Text) (W : List (String × Text)) (r₀ : Registry) (s₀ : Service) (e : List Entry)
    (rest : List FieldChange) (r : Registry) : Prop :=
  (∀ name' ≠ name, r.get? name' = r₀.get? name') ∧ ∃ s, r.get? name = some s ∧ Kept W s₀ s ∧
    s.environment = e ∧ ∀ p ∈ W, (∀ c ∈ rest, c.field ≠ p.1) → Placed s p.1 p.2

theorem Ahead.kept {name : Text} {e : List Entry} {rest : List FieldChange}
    (h : Ahead name W r₀ s₀ e rest r) : KeptIn name W r₀ s₀ r := by
  obtain ⟨hothers, s, hs, hkept, -, -⟩ := h
  exact ⟨hothers, s, hs, hkept⟩

theorem setString_sat {name : Text} {e : List Entry} {rest : List FieldChange} {c : FieldChange}
    {Q : Faulty.Post Registry NssmError PUnit} (hW : (W.map Prod.fst).Nodup)
    (hc : (c.field, c.desired) ∈ W) (h : Ahead name W r₀ s₀ e (c :: rest) r)
    (hdone : ∀ r, Ahead name W r₀ s₀ e rest r → Q.done ⟨⟩ r)
    (hraised : ∀ err r, KeptIn name W r₀ s₀ r → Q.raised err r)
    (hstopped : ∀ r, KeptIn name W r₀ s₀ r → Q.stopped r) :
    (setString name c.field c.desired).Sat Fault.Any r Q := by
  unfold setString
  split_ifs with hnul
  · exact .raise (hraised _ _ h.kept)
  · have hset : Ahead name W r₀ s₀ e rest
        (modifyService name (fun s => s.set c.field ⟨c.desired, hnul⟩) r) := by
      obtain ⟨hothers, s, hs, hkept, henv, hplaced⟩ := h
      refine ⟨fun name' hne => ?_, s.set c.field ⟨c.desired, hnul⟩, get?_modifyService _ hs,
        hkept.set hW hc hnul, henv, fun p hp hahead => ?_⟩
      · rw [get?_modifyService_of_ne _ hne, hothers name' hne]
      · refine placed_set hW hc hp hnul fun hne => hplaced p hp ?_
        exact List.forall_mem_cons.mpr ⟨Ne.symm hne, hahead⟩
    exact .write (hdone _ hset) (fun _ => hraised _ _ h.kept) (fun _ => hstopped _ h.kept)
      fun _ => hstopped _ hset.kept

/-- The command applied to a service: at every ending it keeps what it keeps, and where it has been
applied every string is in place and the environment sets nothing. -/
theorem applyPlan_sat (hs : r.get? cfg.name = some s)
    (hW : W = wanted exe codepage cfg yamlPath pythonExe s) (hkept : Kept W s₀ s)
    (hothers : ∀ name' ≠ cfg.name, r.get? name' = r₀.get? name') :
    (applyPlan (planFor exe codepage cfg yamlPath pythonExe s)).Sat Fault.Any r
      ⟨fun _ r => KeptIn cfg.name W r₀ s₀ r ∧ ∃ s, r.get? cfg.name = some s ∧
          (∀ p ∈ W, Placed s p.1 p.2) ∧ s.environment.filterMap Entry.sets = [],
        fun _ r => KeptIn cfg.name W r₀ s₀ r, fun r => KeptIn cfg.name W r₀ s₀ r⟩ := by
  have hnodup : (W.map Prod.fst).Nodup := hW ▸ nodup_wanted
  set plan := planFor exe codepage cfg yamlPath pythonExe s with hplan
  have hmem : ∀ c ∈ plan.fieldChanges, (c.field, c.desired) ∈ W := fun c hc =>
    hW ▸ List.mem_map_of_mem hc
  have hstart : Ahead cfg.name W r₀ s₀ s.environment plan.changes r := by
    refine ⟨hothers, s, hs, hkept, rfl, fun p hp hahead => ?_⟩
    rw [hW] at hp
    obtain ⟨c, hc, rfl⟩ := List.mem_map.mp hp
    -- a string that is not set is read as it should be
    by_cases hchanged : c.changed = true
    · exact absurd rfl (hahead c (List.mem_filter.mpr ⟨hc, hchanged⟩))
    · refine .inr ?_
      rw [← current_eq hc]
      simpa [FieldChange.changed] using hchanged
  refine .bind (.forEach (fun rest r => (∀ c ∈ rest, (c.field, c.desired) ∈ W) ∧
    Ahead cfg.name W r₀ s₀ s.environment rest r)
    ⟨fun c hc => hmem c (List.mem_of_mem_filter hc), hstart⟩ ?_ ?_)
  · rintro c rest r ⟨hrest, hahead⟩
    obtain ⟨hc, hrest⟩ := List.forall_mem_cons.mp hrest
    exact setString_sat hnodup hc hahead (fun r h => ⟨hrest, h⟩) (fun _ _ h => h) fun _ h => h
  · rintro r ⟨-, hothers, s', hs', hkept', henv, hplaced⟩
    have hplaced' : ∀ p ∈ W, Placed s' p.1 p.2 := fun p hp =>
      hplaced p hp fun c hc => absurd hc List.not_mem_nil
    have hbefore : KeptIn cfg.name W r₀ s₀ r := ⟨hothers, s', hs', hkept'⟩
    have hclear : plan.clearEnvironmentExtra = true ↔ _ := clearEnvironmentExtra_iff
    split_ifs with hclears
    · have hafter : KeptIn cfg.name W r₀ s₀
          (modifyService cfg.name (fun s => { s with environment := [] }) r) :=
        ⟨fun name' hne => by rw [get?_modifyService_of_ne _ hne, hothers name' hne], _,
          get?_modifyService _ hs', hkept'.reset hplaced'⟩
      refine .write ⟨hafter, _, get?_modifyService _ hs', hplaced', rfl⟩ (fun _ => hbefore)
        (fun _ => hbefore) fun _ => hafter
    · refine .pure ⟨hbefore, s', hs', hplaced', ?_⟩
      rw [henv]
      exact not_not.mp (mt hclear.mpr hclears)

/-- What is wanted of a service does not change while it is applied: the interpreter that is kept is
read as it was. -/
theorem wanted_of_kept (h : Kept (wanted exe codepage cfg yamlPath pythonExe s₀) s₀ s) :
    wanted exe codepage cfg yamlPath pythonExe s =
      wanted exe codepage cfg yamlPath pythonExe s₀ := by
  suffices hexe : resolvePythonExe pythonExe (getAll exe codepage s) =
      resolvePythonExe pythonExe (getAll exe codepage s₀) by
    simp only [wanted, planFor, computePlan, hexe, List.map_cons, List.map_nil]
  cases pythonExe with
  | some path => rfl
  | none =>
    have happ : ∀ s, resolvePythonExe none (getAll exe codepage s) =
        orElse (rstrip (s.value "Application").1) "python.exe".toList := by
      intro s
      rw [← @readString_eq exe codepage]
      rfl
    rcases h.strings _ List.mem_cons_self with hsame | hset
    · rw [happ, happ]
      exact congrArg (fun v : Value => orElse (rstrip v.1) "python.exe".toList) hsame
    · have hvalue : (s.value "Application").1 =
          resolvePythonExe none (getAll exe codepage s₀) := hset
      rw [happ, hvalue, happ]
      have hstable : ∀ cs : Text, rstrip (rstrip cs) = rstrip cs := fun cs =>
        List.rdropWhile_idempotent isSpace cs
      by_cases hnone : rstrip (s₀.value "Application").1 = []
      · rw [orElse, orElse, if_pos hnone]
        decide
      · rw [orElse, orElse, if_neg hnone, hstable, if_neg hnone]

theorem cmdApply_sat {args : ApplyArgs} (hs : r.get? cfg.name = some s)
    (hW : W = wanted exe codepage cfg yamlPath pythonExe s) (hkept : Kept W s₀ s)
    (hothers : ∀ name' ≠ cfg.name, r.get? name' = r₀.get? name') :
    (cmdApply exe codepage cfg yamlPath pythonExe args).Sat Fault.Any r
      ⟨fun outcome r => KeptIn cfg.name W r₀ s₀ r ∧ (outcome = .applied →
          ∃ s, r.get? cfg.name = some s ∧ (∀ p ∈ W, Placed s p.1 p.2) ∧
            s.environment.filterMap Entry.sets = []),
        fun _ r => KeptIn cfg.name W r₀ s₀ r, fun r => KeptIn cfg.name W r₀ s₀ r⟩ := by
  have hnow : KeptIn cfg.name W r₀ s₀ r := ⟨hothers, s, hs, hkept⟩
  refine .bindGet ?_
  simp only [hs]
  refine .ite (fun _ => .pure ⟨hnow, nofun⟩) fun _ => ?_
  refine .ite (fun _ => .pure ⟨hnow, nofun⟩) fun _ => ?_
  refine .ite (fun _ => .pure ⟨hnow, nofun⟩) fun _ => .bind ?_
  refine (applyPlan_sat hs hW hkept hothers).mono (fun _ r h => ?_) (fun _ _ h => h) fun _ h => h
  exact .pure ⟨h.1, fun _ => h.2⟩

/-- Where `nssm.exe` does not fail and no text has NUL in it, a confirmed command applies what it
has planned. -/
theorem cmdApply_lands {args : ApplyArgs} (hs : r.get? cfg.name = some s)
    (hplan : (planFor exe codepage cfg yamlPath pythonExe s).isNoop = false)
    (hargs : args.dryRun = false ∧ args.confirmed = true)
    (hnul : ∀ p ∈ wanted exe codepage cfg yamlPath pythonExe s, '\x00' ∉ p.2) :
    ∃ r', (cmdApply exe codepage cfg yamlPath pythonExe args).run [] r = .done .applied r' [] := by
  set plan := planFor exe codepage cfg yamlPath pythonExe s with hplan'
  have hloop : ∀ (cs : List FieldChange) (r : Registry), (∀ c ∈ cs, '\x00' ∉ c.desired) →
      ∃ r', (Faulty.forEach (fun c => setString plan.service c.field c.desired) cs).run [] r =
        .done ⟨⟩ r' [] := by
    intro cs
    induction cs with
    | nil => exact fun r _ => ⟨r, rfl⟩
    | cons c cs ih =>
      intro r hcs
      obtain ⟨hc, hrest⟩ := List.forall_mem_cons.mp hcs
      obtain ⟨r', hr'⟩ := ih (modifyService plan.service (fun s => s.set c.field ⟨c.desired, hc⟩) r)
        hrest
      refine ⟨r', ?_⟩
      rw [← hr']
      change ((setString plan.service c.field c.desired).bind _).run [] r = _
      simp only [setString, dif_neg hc]
      rfl
  have hdesired : ∀ c ∈ plan.changes, '\x00' ∉ c.desired := fun c hc =>
    hnul _ (List.mem_map_of_mem (f := fun c => (c.field, c.desired)) (List.mem_of_mem_filter hc))
  obtain ⟨r', hr'⟩ := hloop plan.changes r hdesired
  have hrun : ∃ r', (applyPlan plan).run [] r = .done ⟨⟩ r' [] := by
    rw [applyPlan, Faulty.run_bind, hr']
    split_ifs
    · exact ⟨_, rfl⟩
    · exact ⟨_, rfl⟩
  obtain ⟨r'', hr''⟩ := hrun
  refine ⟨r'', ?_⟩
  rw [cmdApply, Faulty.run_bind, Faulty.run_get]
  simp only [hs]
  rw [← hplan', hplan, hargs.1, hargs.2]
  simp only [Bool.false_eq_true, if_false, Bool.true_eq_false]
  rw [Faulty.run_bind, hr'']
  rfl

/-! ## Over and over -/

/-- The registry after commands for one declaration, each with its own faults. -/
def invocations (exe : NssmExe) (codepage : Bytes → Text) (cfg : Declaration) (yamlPath : Text)
    (pythonExe : Option Text) (runs : List (ApplyArgs × List Fault)) (r : Registry) : Registry :=
  runs.foldl
    (fun r run => ((cmdApply exe codepage cfg yamlPath pythonExe run.1).run run.2 r).store) r

/-- However often a declaration is applied, and wherever a command fails or is stopped, no other
service changes, the strings that are not its business stay, each of the others is as it was or as
it is wanted, and the extra environment stays until every string is in place. -/
theorem invocations_keep (exe : NssmExe) (codepage : Bytes → Text) (cfg : Declaration)
    (yamlPath : Text) (pythonExe : Option Text) (runs : List (ApplyArgs × List Fault))
    (r : Registry) (s : Service) (hs : r.get? cfg.name = some s) :
    KeptIn cfg.name (wanted exe codepage cfg yamlPath pythonExe s) r s
      (invocations exe codepage cfg yamlPath pythonExe runs r) := by
  suffices h : ∀ r', KeptIn cfg.name (wanted exe codepage cfg yamlPath pythonExe s) r s r' →
      KeptIn cfg.name (wanted exe codepage cfg yamlPath pythonExe s) r s
        (invocations exe codepage cfg yamlPath pythonExe runs r') from
    h r ⟨fun _ _ => rfl, s, hs, .refl _ s⟩
  induction runs with
  | nil => exact fun r' h => h
  | cons run runs ih =>
    rintro r' ⟨hothers, s', hs', hkept⟩
    refine ih _ ?_
    have hsat : (cmdApply exe codepage cfg yamlPath pythonExe run.1).Sat Fault.Any r' _ :=
      cmdApply_sat hs' (wanted_of_kept hkept).symm hkept hothers
    have halways := hsat.mono (R := .always
      (KeptIn cfg.name (wanted exe codepage cfg yamlPath pythonExe s) r s)) (fun _ _ h => h.1)
      (fun _ _ h => h) fun _ h => h
    exact Faulty.Post.always_store (halways run.2 fun _ _ => trivial)

theorem blank_nil : Blank [] := fun _ h => absurd h List.not_mem_nil

theorem blank_lineEnd : Blank ['\r', '\n'] := by
  intro c hc
  rcases List.mem_cons.mp hc with rfl | hc
  · decide
  · rw [List.mem_singleton.mp hc]
    decide

/-- It prints strings in UTF-8 and multi-strings in UTF-16, each line ended by `\r\n`. -/
def sampleExe : NssmExe where
  printString v := encodeUtf8 (v.1 ++ ['\r', '\n'])
  printMulti entries :=
    [0xFF, 0xFE] ++ encodeUtf16 true ((entries.map (·.1)).flatMap (· ++ ['\r', '\n']) ++ [])
  printString_eq _ := ⟨['\r', '\n'], blank_lineEnd, rfl⟩
  printMulti_eq _ := ⟨['\r', '\n'], [], .inr rfl, blank_nil, .inr (.inl rfl)⟩

theorem sampleEntry_plain :
    '\x00' ∉ ['K', '=', 'v'] ∧ ∀ c ∈ ['K', '=', 'v'], isBreak c = false := by
  rw [List.forall_mem_cons, List.forall_mem_cons, List.forall_mem_cons]
  exact ⟨by decide, rfl, rfl, rfl, fun _ h => absurd h List.not_mem_nil⟩

def sampleService : Service where
  strings := Dict.set ∅ "Application" ⟨"py.exe".toList, by decide⟩
  environment := [⟨['K', '=', 'v'], sampleEntry_plain⟩]

def sampleDeclaration : Declaration where
  name := "web".toList
  displayName := []
  description := "Web".toList
  workingDir := "C:".toList

def sampleRegistry : Registry := Dict.set ∅ "web".toList sampleService

/-- A first command that is stopped after one string, and a second that is not. -/
theorem invocations_keep_sample :
    KeptIn "web".toList
      (wanted sampleExe (fun _ => []) sampleDeclaration "s.yaml".toList none sampleService)
      sampleRegistry sampleService
      (invocations sampleExe (fun _ => []) sampleDeclaration "s.yaml".toList none
        [(⟨false, true⟩, [.lands, .stopsBefore]), (⟨false, true⟩, [])] sampleRegistry) :=
  invocations_keep sampleExe (fun _ => []) sampleDeclaration "s.yaml".toList none
    [(⟨false, true⟩, [.lands, .stopsBefore]), (⟨false, true⟩, [])] sampleRegistry sampleService rfl

/-- Once a command has applied a declaration, planning again finds nothing to do, exactly when no
text that is wanted ends in whitespace. -/
theorem apply_converges_iff (exe : NssmExe) (codepage : Bytes → Text) (cfg : Declaration)
    (yamlPath : Text) (pythonExe : Option Text) (args : ApplyArgs) (faults rest : List Fault)
    (r r' : Registry)
    (h : (cmdApply exe codepage cfg yamlPath pythonExe args).run faults r =
      .done .applied r' rest) :
    ∃ s s', r.get? cfg.name = some s ∧ r'.get? cfg.name = some s' ∧
      ((planFor exe codepage cfg yamlPath pythonExe s').isNoop = true ↔
        ∀ p ∈ wanted exe codepage cfg yamlPath pythonExe s, rstrip p.2 = p.2) := by
  cases hs : r.get? cfg.name with
  | none =>
    rw [cmdApply, Faulty.run_bind, Faulty.run_get] at h
    simp only [hs] at h
    cases h
  | some s =>
    have hsat : (cmdApply exe codepage cfg yamlPath pythonExe args).Sat Fault.Any r _ :=
      cmdApply_sat hs rfl (.refl _ s) fun _ _ => rfl
    have hdone := hsat faults fun _ _ => trivial
    rw [h] at hdone
    obtain ⟨⟨⟨-, s', hs', hkept⟩, happlied⟩, -⟩ := hdone
    obtain ⟨s'', hs'', hplaced, henv⟩ := happlied rfl
    obtain rfl := Option.some.inj (hs'.symm.trans hs'')
    refine ⟨s, s', rfl, hs', ?_⟩
    rw [isNoop_iff, wanted_of_kept hkept, and_iff_left henv]
    refine forall₂_congr fun p hp => ?_
    have hstable : rstrip (rstrip (s'.value p.1).1) = rstrip (s'.value p.1).1 :=
      List.rdropWhile_idempotent isSpace _
    rcases hplaced p hp with hvalue | hread
    · rw [hvalue]
    · exact iff_of_true hread (by rw [← hread, hstable])

end

theorem sample_lands : ∃ r', (cmdApply sampleExe (fun _ => []) sampleDeclaration "s.yaml".toList
    (some "py.exe".toList) ⟨false, true⟩).run [] sampleRegistry = .done .applied r' [] := by
  refine cmdApply_lands (s := sampleService) rfl ?_ ⟨rfl, rfl⟩ ?_
  · rw [← Bool.not_eq_true, isNoop_iff, not_and_or]
    exact .inr (by decide)
  · simp only [wanted, planFor, computePlan, List.map_cons, List.map_nil, List.forall_mem_cons,
      resolvePythonExe, Option.getD_some]
    refine ⟨?_, ?_, ?_, ?_, ?_, fun _ h => absurd h List.not_mem_nil⟩ <;> decide

theorem apply_converges_iff_sample : ∃ (r' : Registry) (s s' : Service),
    sampleRegistry.get? "web".toList = some s ∧ r'.get? "web".toList = some s' ∧
      ((planFor sampleExe (fun _ => []) sampleDeclaration "s.yaml".toList (some "py.exe".toList)
        s').isNoop = true ↔
        ∀ p ∈ wanted sampleExe (fun _ => []) sampleDeclaration "s.yaml".toList
          (some "py.exe".toList) s, rstrip p.2 = p.2) := by
  obtain ⟨r', h⟩ := sample_lands
  obtain ⟨s, s', hs, hs', hiff⟩ := apply_converges_iff sampleExe (fun _ => []) sampleDeclaration
    "s.yaml".toList (some "py.exe".toList) ⟨false, true⟩ [] [] sampleRegistry r' h
  exact ⟨r', s, s', hs, hs', hiff⟩

end Nssm
end Recto
