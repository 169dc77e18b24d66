import Recto.Config.LoadConfig
import Recto.Data.Checked

/-!
# Which documents escape

Every section raises on its own account, whatever the others found, so that a
document is read without an exception exactly if each of its sections is.
-/

namespace Recto
namespace Config

open Json

variable {u : Unicode}

/-! ## Conversions -/

theorem isLong_of_isSupported {supported : String} {x : Yaml} (h : isSupported supported x = true) :
    x.isLong = false := by
  cases x with
  | scalar x =>
    cases x with
    | str s => rfl
    | _ => cases h
  | _ => cases h

theorem returns_reprOf {printable : Char → Bool} {x : Yaml} :
    Returns (reprOf printable x) ↔ x.isLong = false := by
  unfold reprOf
  cases x.isLong <;> simp

/-- Only a long integer cannot be written. -/
@[simp] theorem returns_strOf {printable : Char → Bool} {x : Yaml} :
    Returns (strOf printable x) ↔ x.isLong = false := by
  unfold strOf
  split
  · exact iff_of_true returns_ok rfl
  · exact returns_reprOf

theorem catches_strOf {printable : Char → Bool} {x : Yaml} :
    Catches (fun e => isCaught e = true) (strOf printable x) := by
  unfold strOf reprOf
  split
  · exact catches_ok
  · split_ifs
    · exact catches_error.mpr rfl
    · exact catches_ok

theorem catches_formatInt {n : ℤ} : Catches (fun e => isCaught e = true) (formatInt n) := by
  unfold formatInt
  split_ifs
  · exact catches_error.mpr rfl
  · exact catches_ok

theorem catches_itemsOf {x : Yaml} : Catches (fun e => isCaught e = true) (itemsOf x) := by
  unfold itemsOf
  split
  · exact catches_ok
  · exact catches_error.mpr rfl
  · exact catches_ok
  · exact catches_ok

theorem catches_mustBe {field rule : String} {got : Except PyError String}
    (h : Catches (fun e => isCaught e = true) got) :
    Catches (fun e => isCaught e = true) (mustBe field rule got) := catches_map.mpr h

/-! ## Checks -/

theorem returns_postInit {α : Type} {checks : α → List Check} {x : α} :
    Returns (postInit checks x) ↔ Returns (firstProblem (checks x)) := by
  unfold postInit
  split <;> rename_i h <;> simp [h]

theorem catches_postInit {α : Type} {kind : PyError → Prop} {checks : α → List Check} {x : α}
    (hcaught : Catches kind (firstProblem (checks x))) : Catches kind (postInit checks x) := by
  unfold postInit
  split
  · rename_i e h
    exact catches_error.mpr (hcaught e h)
  · exact catches_ok
  · exact catches_ok

theorem returns_firstProblem_cons {check : Check} {checks : List Check} :
    Returns (firstProblem (check :: checks)) ↔ Returns check.refuses ∧
      (check.refuses = .ok true → Returns check.problem) ∧
      (check.refuses = .ok false → Returns (firstProblem checks)) := by
  rw [firstProblem, returns_bind]
  constructor
  · rintro ⟨b, hb, h⟩
    rw [hb]
    cases b with
    | true => exact ⟨returns_ok, fun _ => (returns_bind_pure fun _ => returns_pure).mp h, by simp⟩
    | false => exact ⟨returns_ok, by simp, fun _ => h⟩
  · rintro ⟨⟨b, hb⟩, hproblem, hrest⟩
    cases b with
    | true => exact ⟨true, hb, (returns_bind_pure fun _ => returns_pure).mpr (hproblem hb)⟩
    | false => exact ⟨false, hb, hrest hb⟩

/-- Checks that compare nothing raise what showing a problem raises. -/
theorem catches_firstProblem {kind : PyError → Prop} {checks : List Check}
    (h : ∀ check ∈ checks, Catches kind check.refuses ∧ Catches kind check.problem) :
    Catches kind (firstProblem checks) := by
  induction checks with
  | nil => exact catches_ok
  | cons check checks ih =>
    obtain ⟨⟨hrefuses, hproblem⟩, hchecks⟩ := List.forall_mem_cons.mp h
    rw [firstProblem]
    cases hb : check.refuses with
    | error e =>
      rw [hb] at hrefuses
      exact catches_error.mpr (catches_error.mp hrefuses)
    | ok b =>
      cases b with
      | true =>
        exact (catches_bind_const fun _ => iff_true_intro catches_pure).mpr ⟨hproblem, fun _ => trivial⟩
      | false => exact ih hchecks

/-- Checks that compare nothing, with problems that can all be shown, return. -/
theorem returns_firstProblem {checks : List Check}
    (h : ∀ check ∈ checks, Returns check.refuses ∧ Returns check.problem) :
    Returns (firstProblem checks) := by
  induction checks with
  | nil => exact returns_ok
  | cons check checks ih =>
    obtain ⟨⟨hrefuses, hproblem⟩, hchecks⟩ := List.forall_mem_cons.mp h
    exact returns_firstProblem_cons.mpr ⟨hrefuses, fun _ => hproblem, fun _ => ih hchecks⟩

theorem returns_reporting {α : Type} {prefixed : String → String} {x : Except PyError (Made α)} :
    Returns (reporting prefixed x) ↔ Returns x :=
  returns_bind_pure fun a => by cases a <;> simp

/-- A section that reports its type errors escapes with the other exceptions only. -/
theorem returns_reportingTypes {α : Type} {field : String} {x : Except PyError (Made α)} :
    Returns (reportingTypes field x) ↔ Catches (fun e => isCaught e = true) x := by
  unfold reportingTypes
  cases x with
  | error e =>
    change Returns (if isCaught e then _ else _) ↔ _
    rw [catches_error]
    split_ifs with h <;> simp [h]
  | ok made =>
    refine iff_of_true ?_ catches_ok
    cases made <;> exact returns_ok

/-! ## Secrets and webhooks -/

/-- A field that is there and not null. -/
def given (d : List (Scalar × Yaml)) (key : String) : Option Yaml := (require d key "").1

theorem require_fst (d : List (Scalar × Yaml)) (key path : String) :
    (require d key path).1 = given d key := by
  unfold given require
  split <;> rfl

/-- A secret that is built is built without an exception. -/
def SecretReads (d : List (Scalar × Yaml)) : Prop :=
  ∀ name ∈ given d "name", ∀ source ∈ given d "source", ∀ targetEnv ∈ given d "target_env",
    name.isLong = false ∧ source.isLong = false ∧ targetEnv.isLong = false ∧
      Returns (dictOf (getOr d "config" noEntries))

theorem returns_buildSecretSpec (d : List (Scalar × Yaml)) (path : String) :
    Returns (buildSecretSpec u d path) ↔ SecretReads d := by
  unfold buildSecretSpec SecretReads
  simp only [require_fst]
  cases given d "name" with
  | none => simp
  | some name =>
    cases given d "source" with
    | none => simp
    | some source =>
      cases given d "target_env" with
      | none => simp
      | some targetEnv =>
        simp only [Option.mem_def, Option.some.injEq, forall_eq']
        rw [returns_bind_const fun _ _ => returns_bind_const fun _ _ => returns_bind_const fun _ _ =>
          returns_bind_pure fun _ => returns_pure]
        simp

/-- Keys and values can be written. -/
def EntriesWrite (entries : List (Scalar × Yaml)) : Prop :=
  ∀ e ∈ entries, e.1.isLong = false ∧ e.2.isLong = false

theorem returns_strEntries {entries : List (Scalar × Yaml)} :
    Returns (strEntries u entries) ↔ EntriesWrite entries := by
  unfold strEntries EntriesWrite
  rw [returns_mapM]
  refine forall₂_congr fun e _ => ?_
  rw [returns_bind_const fun _ _ => returns_bind_pure fun _ => returns_pure]
  simp [Yaml.isLong]

theorem returns_strDict {entries : List (Scalar × Yaml)} :
    Returns (strDict u entries) ↔ EntriesWrite entries :=
  returns_map.trans returns_strEntries

def CommsReads (d : List (Scalar × Yaml)) : Prop :=
  (getStr d "type" "webhook").isLong = false ∧ (getStr d "url" "").isLong = false ∧
    (∃ headers, dictOf (getOr d "headers" noEntries) = .ok headers ∧ EntriesWrite headers) ∧
    Returns (dictOf (getOr d "template" noEntries))

theorem returns_buildCommsSpec (d : List (Scalar × Yaml)) (path : String) :
    Returns (buildCommsSpec u d path) ↔ CommsReads d := by
  have hchecks : ∀ fields, Returns (postInit (CommsFields.checks u) fields) := fun fields =>
    returns_postInit.mpr (returns_firstProblem (by simp [CommsFields.checks, Check.of]))
  unfold buildCommsSpec CommsReads
  rw [returns_reporting]
  refine (returns_bind_const fun type _ => returns_bind_const fun url _ => ?_).trans
    (and_congr returns_strOf (and_congr_left' returns_strOf))
  rw [returns_bind]
  constructor
  · rintro ⟨headers, hheaders, h⟩
    obtain ⟨hstr, htemplate⟩ := (returns_bind_const fun _ _ => returns_bind_pure fun _ =>
      hchecks _).mp h
    exact ⟨⟨headers, hheaders, returns_strDict.mp hstr⟩, htemplate⟩
  · rintro ⟨⟨headers, hheaders, hstr⟩, htemplate⟩
    exact ⟨headers, hheaders, (returns_bind_const fun _ _ => returns_bind_pure fun _ =>
      hchecks _).mpr ⟨returns_strDict.mpr hstr, htemplate⟩⟩

/-- A section that is a list: it can be iterated, and each mapping in it is read. -/
def EachReads (reads : List (Scalar × Yaml) → Prop) (name : String) (spec : List (Scalar × Yaml)) :
    Prop :=
  ∃ items, itemsOf (orElse (getOr spec name (.list [])) (.list [])) = .ok items ∧
    ∀ d, Yaml.map d ∈ items → reads d

theorem returns_buildFrom {α : Type} {build : List (Scalar × Yaml) → String → Except PyError (Built α)}
    {reads : List (Scalar × Yaml) → Prop} (hbuild : ∀ d path, Returns (build d path) ↔ reads d)
    {field : String} {i : ℕ} {items : List Yaml} :
    Returns (buildFrom build field i items) ↔ ∀ d, Yaml.map d ∈ items → reads d := by
  induction items generalizing i with
  | nil => simp [buildFrom]
  | cons item items ih =>
    rw [buildFrom, returns_bind_const fun _ _ => (returns_bind_pure fun _ => returns_pure).trans ih]
    simp only [List.mem_cons, or_imp, forall_and]
    refine and_congr_left fun _ => ?_
    cases item with
    | map d => simp [buildItem, hbuild]
    | _ => simp [buildItem]

theorem returns_buildEach {α : Type} {build : List (Scalar × Yaml) → String → Except PyError (Built α)}
    {reads : List (Scalar × Yaml) → Prop} (hbuild : ∀ d path, Returns (build d path) ↔ reads d)
    {name : String} {spec : List (Scalar × Yaml)} :
    Returns (buildEach build name spec) ↔ EachReads reads name spec := by
  unfold buildEach EachReads
  rw [returns_bind]
  simp only [returns_buildFrom hbuild]

/-! ## The sections that are mappings -/

/-- A section that is a mapping: it is read, if it is one. -/
def MappingReads (reads : List (Scalar × Yaml) → Prop) (name : String) (spec : List (Scalar × Yaml)) :
    Prop :=
  ∀ d, orElse (getOr spec name noEntries) noEntries = .map d → reads d

theorem returns_buildMapping {α : Type} {build : List (Scalar × Yaml) → Except PyError (Built α)}
    {reads : List (Scalar × Yaml) → Prop} (hbuild : ∀ d, Returns (build d) ↔ reads d)
    {name : String} {spec : List (Scalar × Yaml)} :
    Returns (buildMapping build name spec) ↔ MappingReads reads name spec := by
  unfold buildMapping MappingReads
  cases orElse (getOr spec name noEntries) noEntries with
  | map d => simp [hbuild]
  | _ => simp

/-- `x`, for its exception only. -/
def attempt {α : Type} (x : Except PyError α) : Except PyError Unit := x.map fun _ => ()

/-- The conversions of `healthz` in their order, and those of `restart`. -/
def healthzConversions (printable : Char → Bool) (d : List (Scalar × Yaml)) :
    List (Except PyError Unit) :=
  [attempt (strOf printable (getStr d "type" "http")), attempt (strOf printable (getStr d "url" "")),
    attempt (strOf printable (getStr d "host" "")), attempt (intOf (getInt d "port" 0)),
    attempt ((commandOf d).1.mapM (strOf printable)), attempt (intOf (getInt d "expected_exit_code" 0)),
    attempt (intOf (getInt d "interval_seconds" 30)), attempt (intOf (getInt d "timeout_seconds" 5)),
    attempt (intOf (getInt d "failure_threshold" 3)),
    attempt (intOf (getInt d "restart_grace_seconds" 10))]

def restartConversions (printable : Char → Bool) (d : List (Scalar × Yaml)) :
    List (Except PyError Unit) :=
  [attempt (strOf printable (getStr d "policy" "always")),
    attempt (strOf printable (getStr d "backoff" "exponential")),
    attempt (intOf (getInt d "initial_delay_seconds" 1)),
    attempt (intOf (getInt d "max_delay_seconds" 60)), attempt (intOf (getInt d "max_attempts" 10))]

/-- What the first of the conversions to raise raises is a `TypeError` or a `ValueError`; the other
exception there is, `OverflowError`, comes of an infinite float. -/
def ConversionsCaught (conversions : List (Except PyError Unit)) : Prop :=
  CatchesFirst (fun e => isCaught e = true) conversions

theorem catches_bind_cons {α β : Type} {x : Except PyError α} {f : α → Except PyError β}
    {later : List (Except PyError Unit)}
    (hf : ∀ a, Catches (fun e => isCaught e = true) (f a) ↔ ConversionsCaught later) :
    Catches (fun e => isCaught e = true) (x >>= f) ↔ ConversionsCaught (attempt x :: later) :=
  (catches_bind_const hf).trans (and_congr catches_map.symm (imp_congr_left returns_map.symm))

theorem returns_buildHealthz (d : List (Scalar × Yaml)) :
    Returns (buildHealthz u d) ↔ ConversionsCaught (healthzConversions u.printable d) := by
  have hchecks : ∀ fields, Catches (fun e => isCaught e = true)
      (postInit (HealthzFields.checks u) fields) := fun fields =>
    catches_postInit (catches_firstProblem (by
      simp only [HealthzFields.checks, Check.of, List.forall_mem_cons]
      exact ⟨⟨catches_ok, catches_mustBe catches_ok⟩, ⟨catches_ok, catches_ok⟩,
        ⟨catches_ok, catches_ok⟩, ⟨catches_ok, catches_mustBe catches_formatInt⟩,
        ⟨catches_ok, catches_ok⟩, ⟨catches_ok, catches_mustBe catches_formatInt⟩,
        ⟨catches_ok, catches_mustBe catches_formatInt⟩,
        ⟨catches_ok, catches_mustBe catches_formatInt⟩,
        ⟨catches_ok, catches_mustBe catches_formatInt⟩, by simp⟩))
  unfold buildHealthz
  dsimp only
  rw [returns_bind_pure fun _ => returns_pure, returns_reportingTypes]
  exact catches_bind_cons fun _ => catches_bind_cons fun _ => catches_bind_cons fun _ =>
    catches_bind_cons fun _ => catches_bind_cons fun _ => catches_bind_cons fun _ =>
    catches_bind_cons fun _ => catches_bind_cons fun _ => catches_bind_cons fun _ =>
    catches_bind_cons fun _ => iff_true_intro (hchecks _)

theorem returns_buildRestart (d : List (Scalar × Yaml)) :
    Returns (buildRestart u d) ↔ ConversionsCaught (restartConversions u.printable d) := by
  have hchecks : ∀ fields, Catches (fun e => isCaught e = true)
      (postInit (RestartSection.checks u) fields) := fun fields =>
    catches_postInit (catches_firstProblem (by
      simp only [RestartSection.checks, Check.of, List.forall_mem_cons]
      refine ⟨⟨catches_ok, catches_ok⟩, ⟨catches_ok, catches_ok⟩,
        ⟨catches_ok, catches_mustBe catches_formatInt⟩, ⟨catches_ok, ?_⟩,
        ⟨catches_ok, catches_mustBe catches_formatInt⟩, by simp⟩
      exact (catches_bind_const fun _ => catches_bind_const fun _ => iff_true_intro catches_pure).mpr
        ⟨catches_formatInt, fun _ => ⟨catches_formatInt, fun _ => trivial⟩⟩))
  have hevents : ∀ (events : Yaml) (fields : List String → RestartSection),
      Catches (fun e => isCaught e = true) (do
        let events ← itemsOf events
        let events ← events.mapM (strOf u.printable)
        postInit (RestartSection.checks u) (fields events)) := fun events fields =>
    (catches_bind_const fun _ => iff_true_intro ((catches_bind_const fun _ =>
      iff_true_intro (hchecks _)).mpr ⟨catches_mapM fun _ _ => catches_strOf, fun _ => trivial⟩)).mpr
      ⟨catches_itemsOf, fun _ => trivial⟩
  unfold buildRestart
  rw [returns_reportingTypes]
  exact catches_bind_cons fun _ => catches_bind_cons fun _ => catches_bind_cons fun _ =>
    catches_bind_cons fun _ => catches_bind_cons fun _ =>
    iff_true_intro (hevents _ fun events => ⟨⟨_, _, _, _, _⟩, events⟩)

/-- The limits compare with integers up to the first that is refused, and that one can be shown. -/
def LimitsRead (d : List (Scalar × Yaml)) : Prop :=
  let memory := (limitsOf d).memoryMb
  let cpu := (limitsOf d).cpuPercent
  let processes := (limitsOf d).processCount
  Returns (unlessNull memory (leInt memory 0)) ∧
    (unlessNull memory (leInt memory 0) = .ok true → memory.isLong = false) ∧
    (unlessNull memory (leInt memory 0) = .ok false →
      Returns (unlessNull cpu (outside 1 100 cpu)) ∧
      (unlessNull cpu (outside 1 100 cpu) = .ok true → cpu.isLong = false) ∧
      (unlessNull cpu (outside 1 100 cpu) = .ok false →
        Returns (unlessNull processes (belowOne processes)) ∧
        (unlessNull processes (belowOne processes) = .ok true → processes.isLong = false)))

theorem returns_buildLimits (d : List (Scalar × Yaml)) :
    Returns (buildLimits u d) ↔ LimitsRead d := by
  have hempty : Returns (firstProblem []) := returns_ok
  unfold buildLimits LimitsRead
  rw [returns_reporting, returns_postInit, LimitFields.checks]
  simp only [returns_firstProblem_cons, mustBe, returns_map, returns_strOf, hempty, imp_true_iff,
    and_true]

theorem returns_buildAdminUi {spec : List (Scalar × Yaml)} :
    Returns (buildAdminUi u spec) ↔ ∃ d, attributesOf "admin_ui" spec = .ok d ∧
      (getStr d "bind" "127.0.0.1:5050").isLong = false ∧
        Returns (dictOf (getOr d "expose_via_tunnel" noEntries)) := by
  unfold buildAdminUi
  rw [returns_bind]
  refine exists_congr fun d => and_congr_right fun _ => ?_
  rw [returns_bind_const fun _ _ => returns_bind_pure fun _ => returns_pure, returns_strOf]

theorem returns_buildTelemetry {spec : List (Scalar × Yaml)} :
    Returns (buildTelemetry u spec) ↔ ∃ d, attributesOf "telemetry" spec = .ok d ∧
      (getStr d "otlp_endpoint" "").isLong = false ∧ (getStr d "service_name" "").isLong = false := by
  unfold buildTelemetry
  rw [returns_bind]
  refine exists_congr fun d => and_congr_right fun _ => ?_
  rw [returns_bind_const fun _ _ => returns_bind_pure fun _ => returns_pure, returns_strOf,
    returns_strOf]

/-! ## The whole document -/

theorem returns_unsupported {data : List (Scalar × Yaml)} {name supported : String} :
    Returns (unsupported u data name supported) ↔ (getStr data name "").isLong = false := by
  unfold unsupported
  split_ifs with h
  · exact iff_of_true returns_ok (isLong_of_isSupported h)
  · rw [returns_bind_pure fun _ => returns_pure, returns_reprOf]

theorem returns_buildMeta {d : List (Scalar × Yaml)} :
    Returns (buildMeta u d) ↔ (getStr d "name" "").isLong = false ∧
      (getStr d "description" "").isLong = false ∧ (getStr d "display_name" "").isLong = false := by
  have hchecks : ∀ fields, Returns (postInit (MetaFields.checks u) fields) := fun fields =>
    returns_postInit.mpr (returns_firstProblem (by
      simp [MetaFields.checks, Check.of, mustBe, Except.map]))
  unfold buildMeta
  rw [returns_reporting, returns_bind_const fun _ _ => returns_bind_const fun _ _ =>
    returns_bind_pure fun _ => hchecks _]
  simp only [returns_strOf]

/-- What is converted for `ServiceSpec` itself can be written. -/
structure SpecWrites (spec : List (Scalar × Yaml)) : Prop where
  exec : (getStr spec "exec" "").isLong = false
  args : ∀ a ∈ (argsOf spec).1, a.isLong = false
  workingDir : (getStr spec "working_dir" "").isLong = false
  user : (getStr spec "user" "").isLong = false
  env : EntriesWrite (envOf spec).1

theorem returns_buildSpec {spec : List (Scalar × Yaml)} {x : Sections u} :
    Returns (buildSpec spec x) ↔ SpecWrites spec := by
  have hchecks : ∀ fields, Returns (postInit (SpecFields.checks (u := u)) fields) := fun fields =>
    returns_postInit.mpr (returns_firstProblem (by simp [SpecFields.checks, Check.of]))
  unfold buildSpec
  dsimp only
  rw [returns_bind_pure fun _ => returns_pure, returns_reporting,
    returns_bind_const fun _ _ => returns_bind_const fun _ _ => returns_bind_const fun _ _ =>
      returns_bind_const fun _ _ => returns_bind_pure fun _ => hchecks _]
  simp only [returns_strOf, returns_mapM, returns_strDict]
  constructor
  · rintro ⟨hexec, hargs, hdir, huser, henv⟩
    exact ⟨hexec, hargs, hdir, huser, henv⟩
  · rintro ⟨hexec, hargs, hdir, huser, henv⟩
    exact ⟨hexec, hargs, hdir, huser, henv⟩

theorem returns_finish {metadata : Option (Checked (MetaFields.checks u))}
    {spec : Option (Checked (SpecFields.checks (u := u)))} {problems : List String} :
    Returns (finish metadata spec problems) := by
  have hchecks : ∀ fields, Returns (postInit (ConfigFields.checks (u := u)) fields) := fun fields =>
    returns_postInit.mpr (returns_firstProblem (by simp [ConfigFields.checks, Check.of]))
  unfold finish
  split
  · refine (returns_bind_pure fun made => ?_).mpr (hchecks _)
    cases made <;> simp
  · exact returns_pure

/-- Nothing that is read of a mapping raises what is not reported. -/
structure Readable (u : Unicode) (data : List (Scalar × Yaml)) : Prop where
  apiVersion : (getStr data "apiVersion" "").isLong = false
  kind : (getStr data "kind" "").isLong = false
  metadata : (getStr (mappingOf data "metadata").1 "name" "").isLong = false ∧
    (getStr (mappingOf data "metadata").1 "description" "").isLong = false ∧
    (getStr (mappingOf data "metadata").1 "display_name" "").isLong = false
  secrets : EachReads SecretReads "secrets" (mappingOf data "spec").1
  healthz : MappingReads (fun d => ConversionsCaught (healthzConversions u.printable d)) "healthz"
    (mappingOf data "spec").1
  restart : MappingReads (fun d => ConversionsCaught (restartConversions u.printable d)) "restart"
    (mappingOf data "spec").1
  comms : EachReads CommsReads "comms" (mappingOf data "spec").1
  limits : MappingReads LimitsRead "resource_limits" (mappingOf data "spec").1
  adminUi : ∃ d, attributesOf "admin_ui" (mappingOf data "spec").1 = .ok d ∧
    (getStr d "bind" "127.0.0.1:5050").isLong = false ∧
      Returns (dictOf (getOr d "expose_via_tunnel" noEntries))
  telemetry : ∃ d, attributesOf "telemetry" (mappingOf data "spec").1 = .ok d ∧
    (getStr d "otlp_endpoint" "").isLong = false ∧ (getStr d "service_name" "").isLong = false
  spec : SpecWrites (mappingOf data "spec").1

theorem returns_loadMapping {data : List (Scalar × Yaml)} :
    Returns (loadMapping u data) ↔ Readable u data := by
  have hsections : Returns (buildSections u (mappingOf data "spec").1) ↔
      EachReads SecretReads "secrets" (mappingOf data "spec").1 ∧
      MappingReads (fun d => ConversionsCaught (healthzConversions u.printable d)) "healthz"
        (mappingOf data "spec").1 ∧
      MappingReads (fun d => ConversionsCaught (restartConversions u.printable d)) "restart"
        (mappingOf data "spec").1 ∧
      EachReads CommsReads "comms" (mappingOf data "spec").1 ∧
      MappingReads LimitsRead "resource_limits" (mappingOf data "spec").1 ∧
      Returns (buildAdminUi u (mappingOf data "spec").1) ∧
      Returns (buildTelemetry u (mappingOf data "spec").1) := by
    unfold buildSections
    rw [returns_bind_const fun _ _ => returns_bind_const fun _ _ => returns_bind_const fun _ _ =>
      returns_bind_const fun _ _ => returns_bind_const fun _ _ => returns_bind_const fun _ _ =>
        returns_bind_pure fun _ => returns_pure]
    exact and_congr (returns_buildEach returns_buildSecretSpec)
      (and_congr (returns_buildMapping returns_buildHealthz)
        (and_congr (returns_buildMapping returns_buildRestart)
          (and_congr (returns_buildEach returns_buildCommsSpec)
            (and_congr_left' (returns_buildMapping returns_buildLimits)))))
  unfold loadMapping
  dsimp only
  rw [returns_bind_const fun _ _ => returns_bind_const fun _ _ => returns_bind_const fun _ _ =>
    returns_bind_const fun _ _ => (returns_bind_pure fun _ => returns_finish).trans returns_buildSpec,
    returns_unsupported, returns_unsupported, returns_buildMeta, hsections, returns_buildAdminUi,
    returns_buildTelemetry]
  constructor
  · rintro ⟨hapi, hkind, hmeta, ⟨hsecrets, hhealthz, hrestart, hcomms, hlimits, hadmin, htelemetry⟩,
      hspec⟩
    exact ⟨hapi, hkind, hmeta, hsecrets, hhealthz, hrestart, hcomms, hlimits, hadmin, htelemetry,
      hspec⟩
  · rintro ⟨hapi, hkind, hmeta, hsecrets, hhealthz, hrestart, hcomms, hlimits, hadmin, htelemetry,
      hspec⟩
    exact ⟨hapi, hkind, hmeta, ⟨hsecrets, hhealthz, hrestart, hcomms, hlimits, hadmin, htelemetry⟩,
      hspec⟩

/-- A document is read without an exception other than `ConfigValidationError` exactly if each part
of its mapping is. -/
theorem returns_loadConfig {document : Yaml} :
    Returns (loadConfig u document) ↔
      ∀ data, orElse document noEntries = .map data → Readable u data := by
  unfold loadConfig
  cases orElse document noEntries with
  | map data => simp [returns_loadMapping]
  | _ => simp

end Config
end Recto
