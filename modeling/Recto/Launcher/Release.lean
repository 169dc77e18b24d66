import Recto.Launcher.Supervision

/-!
# What a run releases

A source is held from the return of its `init` to its `teardown`, a job limit and
a probe from their creation to `close` and `stop`. Whatever raises, a run that
ends has released all it held, but for the raises that leave a `finally` out or
leave it early.
-/

namespace Recto
namespace Launcher

open Restart Raising

/-! ## What is held -/

inductive Resource where
  | source (src : SecretSource)
  | job (job : ℕ)
  | probe (probe : ℕ)
  deriving DecidableEq, Repr

/-- What a call has brought into being. -/
def acquired? : RunEvent → Option Resource
  | ⟨.init src, .ok _⟩ => some (.source src)
  | ⟨.newJobLimit, .ok job⟩ => some (.job job)
  | ⟨.newProbe, .ok probe⟩ => some (.probe probe)
  | _ => none

/-- What a call lets go, also where it raises. -/
def released? : RunEvent → Option Resource
  | ⟨.teardown src, _⟩ => some (.source src)
  | ⟨.close job, _⟩ => some (.job job)
  | ⟨.probeStop probe, _⟩ => some (.probe probe)
  | _ => none

def acquired (log : RunLog) : List Resource := log.filterMap acquired?

def released (log : RunLog) : List Resource := log.filterMap released?

/-- Each source, job limit and probe is let go as often as it came. -/
def Released (log : RunLog) : Prop := ∀ r, (released log).count r = (acquired log).count r

/-- The same of what belongs to a child. -/
def ChildrenReleased (log : RunLog) : Prop :=
  ∀ r, (∀ src, r ≠ .source src) → (released log).count r = (acquired log).count r

/-- Some source is still to be torn down. -/
def Pending (log : RunLog) : Prop :=
  ∃ src, (released log).count (.source src) < (acquired log).count (.source src)

/-- The calls that must not raise where they stand: between a job limit and the `try` that closes it,
before its `close`, and in the loop of teardowns. -/
def Leaks (log : RunLog) : RunEvent → Prop
  | ⟨.hasHandle _, .error _⟩ => True
  | ⟨.attach .., .error e⟩ => e.isException = false
  | ⟨.newProbe, .error _⟩ => True
  | ⟨.probeStart _, .error _⟩ => True
  | ⟨.probeStop _, .error _⟩ => True
  | ⟨.teardown src, .error e⟩ => e.isException = false ∧ Pending (log ++ [⟨.teardown src, .error e⟩])
  | ⟨.emitEvent (.teardownFailed ..), .error _⟩ => Pending log
  | _ => False

/-- None of them raises in the run. -/
def Clean (log : RunLog) : Prop :=
  ∀ before ev after, log = before ++ ev :: after → ¬Leaks before ev

/-- What the log says is held, and whether it is clean so far. -/
structure Keeps (held : List Resource) (clean : Prop) (log : RunLog) : Prop where
  counts : ∀ r, (acquired log).count r = (released log).count r + held.count r
  clean_iff : Clean log ↔ clean

section
variable {log : RunLog} {ev : RunEvent} {held held' extra : List Resource} {clean : Prop}
  {r : Resource} {src : SecretSource}

theorem clean_concat : Clean (log ++ [ev]) ↔ Clean log ∧ ¬Leaks log ev := by
  constructor
  · intro h
    exact ⟨fun before ev' after hlog => h before ev' (after ++ [ev]) (by simp [hlog]), h log ev [] rfl⟩
  · rintro ⟨hclean, hleak⟩ before ev' after hlog
    obtain ⟨rfl, rfl, -⟩ | ⟨after', -, hlog'⟩ := eq_or_of_concat_eq hlog
    · exact hleak
    · exact hclean before ev' after' hlog'

theorem acquired_concat : acquired (log ++ [ev]) = acquired log ++ (acquired? ev).toList := by
  rw [acquired, List.filterMap_append]
  cases h : acquired? ev with
  | none => rw [List.filterMap_cons_none h]; rfl
  | some r => rw [List.filterMap_cons_some h]; rfl

theorem released_concat : released (log ++ [ev]) = released log ++ (released? ev).toList := by
  rw [released, List.filterMap_append]
  cases h : released? ev with
  | none => rw [List.filterMap_cons_none h]; rfl
  | some r => rw [List.filterMap_cons_some h]; rfl

theorem keeps_nil : Keeps [] True [] :=
  ⟨fun r => rfl, iff_true_intro (by simp [Clean])⟩

theorem Keeps.congr {clean' : Prop} (h : Keeps held clean log) (hclean : clean ↔ clean') :
    Keeps held clean' log :=
  ⟨h.counts, h.clean_iff.trans hclean⟩

/-- A call changes what is held by what it brings and lets go. -/
theorem Keeps.concat (h : Keeps held clean log)
    (hheld : ∀ r, (acquired? ev).toList.count r + held.count r =
      (released? ev).toList.count r + held'.count r) :
    Keeps held' (clean ∧ ¬Leaks log ev) (log ++ [ev]) := by
  refine ⟨fun r => ?_, by rw [clean_concat, h.clean_iff]⟩
  have hcounts := h.counts r
  have hstep := hheld r
  rw [acquired_concat, released_concat, List.count_append, List.count_append]
  omega

/-- A call that is about nothing held, and whose raise is harmless. -/
theorem Keeps.neutral (h : Keeps held clean log) (hacquired : acquired? ev = none)
    (hreleased : released? ev = none) (hleak : ¬Leaks log ev) : Keeps held clean (log ++ [ev]) :=
  (h.concat fun r => by rw [hacquired, hreleased]).congr (and_iff_left hleak)

theorem Keeps.leak (h : Keeps held clean log) (hacquired : acquired? ev = none)
    (hreleased : released? ev = none) (hleak : Leaks log ev) : Keeps held False (log ++ [ev]) :=
  (h.concat fun r => by rw [hacquired, hreleased]).congr
    ⟨fun h => h.2 hleak, False.elim⟩

theorem Keeps.acquire (h : Keeps held clean log) (hacquired : acquired? ev = some r)
    (hreleased : released? ev = none) (hleak : ¬Leaks log ev) :
    Keeps (r :: held) clean (log ++ [ev]) := by
  refine (h.concat fun r' => ?_).congr (and_iff_left hleak)
  rw [hacquired, hreleased]
  simp [List.count_cons, Nat.add_comm]

theorem Keeps.release (h : Keeps (r :: held) clean log) (hacquired : acquired? ev = none)
    (hreleased : released? ev = some r) : Keeps held (clean ∧ ¬Leaks log ev) (log ++ [ev]) := by
  refine h.concat fun r' => ?_
  rw [hacquired, hreleased]
  simp [List.count_cons, Nat.add_comm]

theorem Keeps.perm (h : Keeps held clean log) (hperm : held.Perm held') : Keeps held' clean log :=
  ⟨fun r => (h.counts r).trans (by rw [hperm.count_eq]), h.clean_iff⟩

theorem Keeps.pending_iff (h : Keeps held clean log) : Pending log ↔ ∃ src, .source src ∈ held := by
  refine exists_congr fun src => ?_
  have hcounts := h.counts (.source src)
  rw [← List.count_pos_iff]
  omega

/-- With nothing held the log has released everything. -/
theorem Keeps.released_iff (h : Keeps held clean log) : Released log ↔ held = [] := by
  rw [List.eq_nil_iff_forall_not_mem]
  refine forall_congr' fun r => ?_
  have hcounts := h.counts r
  rw [← List.count_eq_zero]
  omega

theorem Keeps.childrenReleased {sources : List SecretSource}
    (h : Keeps (sources.map .source) clean log) : ChildrenReleased log := by
  intro r hr
  have hnone : (sources.map Resource.source).count r = 0 :=
    List.count_eq_zero.mpr (by simpa using fun src _ => (hr src).symm)
  have hcounts := h.counts r
  omega

end

/-! ## Runs under watch -/

/-- A child is spawned only when nothing of the children before it is held. -/
def MaySpawn (log : RunLog) : LauncherCall → Prop
  | .popen .. => ChildrenReleased log
  | _ => True

/-- The monitor of a run in which anything may raise. -/
abbrev watched : Monitor LauncherCall (fun q => Except Raised q.Value) RunLog :=
  Monitor.logging MaySpawn fun _ _ => True

/-- A run that is cut off is clean so far. -/
abbrev EndsWatched {α : Type} (P : RunLog → RunLocals → α → Prop)
    (R : RunLog → RunLocals → Raised → Prop) (log : RunLog) (x : RunLocals) (p : Launching α) : Prop :=
  Ends watched P R (fun log _ => Clean log) log x p

/-- Beyond what was held, something of a child is still held exactly if the log is not clean. -/
def Lost (held : List Resource) (log : RunLog) : Prop :=
  ∃ extra, (∀ src, .source src ∉ extra) ∧ Keeps (extra ++ held) (extra = []) log

section
variable {log : RunLog} {x : RunLocals} {held : List Resource} {clean : Prop} {α : Type}
  {config : ServiceConfig} {env : List (String × String)} {polls rounds : ℕ}

theorem Keeps.lost (h : Keeps held True log) : Lost held log :=
  ⟨[], by simp, h.congr (by simp)⟩

theorem Keeps.lost_of_leak (extra : List Resource) (h : Keeps (extra ++ held) False log)
    (hsources : ∀ src, .source src ∉ extra) (hextra : extra ≠ []) : Lost held log :=
  ⟨extra, hsources, h.congr (iff_of_false id hextra)⟩

theorem Keeps.isClean (h : Keeps held True log) : Clean log := h.clean_iff.mpr trivial

/-- A call that holds and lets go nothing, and whose raise is harmless wherever it stands. -/
def idle : LauncherCall → Bool
  | .init _ | .teardown _ | .newJobLimit | .hasHandle _ | .attach .. | .close _ => false
  | .newProbe | .probeStart _ | .probeStop _ | .emitEvent (.teardownFailed ..) => false
  | _ => true

theorem Keeps.idle {q : LauncherCall} (h : Keeps held clean log) (hidle : idle q = true)
    (r : Except Raised q.Value) : Keeps held clean (log ++ [⟨q, r⟩]) := by
  have hq : acquired? ⟨q, r⟩ = none ∧ released? ⟨q, r⟩ = none ∧ ¬Leaks log ⟨q, r⟩ := by
    cases q with
    | emitEvent notice =>
      cases notice with
      | teardownFailed => cases hidle
      | _ => exact ⟨rfl, rfl, id⟩
    | _ => first | exact ⟨rfl, rfl, id⟩ | cases hidle
  exact h.neutral hq.1 hq.2.1 hq.2.2

theorem watched_idle {q : LauncherCall} (hallow : MaySpawn log q) (hidle : idle q = true)
    (h : Keeps held clean log) :
    EndsWatched (fun log' x' _ => x' = x ∧ Keeps held clean log')
      (fun log' x' _ => x' = x ∧ Keeps held clean log') log x (calling q) :=
  .perform hallow (fun v _ => ⟨rfl, h.idle hidle (.ok v)⟩) fun e _ => ⟨rfl, h.idle hidle (.error e)⟩

/-- An idle call, and what comes after it. -/
theorem watched_idle_bind {q : LauncherCall} {f : q.Value → Launching α}
    {P : RunLog → RunLocals → α → Prop} {R : RunLog → RunLocals → Raised → Prop}
    (hallow : MaySpawn log q) (hidle : idle q = true) (h : Keeps held clean log)
    (hraised : ∀ log' e, Keeps held clean log' → R log' x e)
    (hf : ∀ log' v, Keeps held clean log' → EndsWatched P R log' x (f v)) :
    EndsWatched P R log x (calling q >>= f) := by
  refine Ends.bind ((watched_idle hallow hidle h).mono (fun _ _ _ h => h) ?_ fun _ _ h => h) ?_
  · rintro log' _ e ⟨rfl, h'⟩
    exact hraised log' e h'
  · rintro log' _ v ⟨rfl, h'⟩
    exact hf log' v h'

/-! ## One child -/

theorem watched_isTripped (probe : Option ℕ) (h : Keeps held True log) :
    EndsWatched (fun log' x' _ => x' = x ∧ Keeps held True log')
      (fun log' x' _ => x' = x ∧ Keeps held True log') log x (isTripped probe) := by
  cases probe with
  | none => exact .pure ⟨rfl, h⟩
  | some probe =>
    exact watched_idle trivial rfl h

theorem watched_waitForExitOrUnhealthy (proc : ℕ) (probe : Option ℕ) (h : Keeps held True log) :
    EndsWatched (fun log' x' _ => x' = x ∧ Keeps held True log')
      (fun log' x' _ => x' = x ∧ Keeps held True log') log x
      (waitForExitOrUnhealthy proc probe polls) := by
  induction polls generalizing log with
  | zero => exact .cutOff h.isClean
  | succ polls ih =>
    have hraised : ∀ log' (e : Raised), Keeps held True log' → x = x ∧ Keeps held True log' :=
      fun _ _ h => ⟨rfl, h⟩
    refine watched_idle_bind trivial rfl h hraised fun log₁ rc h₁ => ?_
    cases rc with
    | some rc => exact .pure ⟨rfl, h₁⟩
    | none =>
      refine Ends.bind (watched_isTripped probe h₁) ?_
      rintro log₂ _ tripped ⟨rfl, h₂⟩
      refine Ends.ite (fun _ => ?_) fun _ => ?_
      · refine watched_idle_bind trivial rfl h₂ hraised fun log₃ _ h₃ => ?_
        refine watched_idle_bind trivial rfl h₃ hraised fun log₄ rc h₄ => ?_
        cases rc with
        | some rc => exact .pure ⟨rfl, h₄⟩
        | none =>
          exact watched_idle_bind trivial rfl h₄
            hraised fun log₅ _ h₅ => watched_idle trivial rfl h₅
      · exact watched_idle_bind trivial rfl h₂
          hraised fun log₃ _ h₃ => ih h₃

/-- The job limit stays held, unless its attachment failed and closed it. -/
theorem watched_attachJob (job proc : ℕ) (h : Keeps (.job job :: held) True log) :
    EndsWatched (fun log' x' _ => x' = x ∧ Keeps (.job job :: held) True log')
      (fun log' x' _ => x' = x ∧ Lost held log') log x (attachJob job proc) := by
  have hlost : ∀ {log' : RunLog}, Keeps (.job job :: held) False log' → Lost held log' :=
    fun h => h.lost_of_leak [.job job] (by simp) (by simp)
  refine Ends.bind (P := fun log' x' _ => x' = x ∧ Keeps (.job job :: held) True log')
    (.perform trivial (fun _ _ => ⟨rfl, h.neutral rfl rfl id⟩)
      fun _ _ => ⟨rfl, hlost (h.leak rfl rfl trivial)⟩) ?_
  rintro log₁ x₁ limited ⟨rfl, h₁⟩
  refine Ends.ite (fun _ => ?_) fun _ => .pure ⟨rfl, h₁⟩
  -- What is raised says whether the handler takes it.
  refine Ends.handling (R := fun log' x' e => x' = x₁ ∧
    Keeps (.job job :: held) (e.isException = true) log')
    (.perform trivial (fun _ _ => ⟨rfl, h₁.neutral rfl rfl id⟩) fun e _ => ⟨rfl, ?_⟩) ?_ ?_
  · have hattach : Keeps (.job job :: held) (True ∧ ¬Leaks log₁ ⟨.attach job proc, .error e⟩)
        (log₁ ++ [⟨.attach job proc, .error e⟩]) := h₁.concat fun _ => rfl
    exact hattach.congr (by simp [Leaks])
  · rintro log₂ x₂ e r htaken ⟨rfl, h₂⟩
    obtain ⟨hexception, rfl⟩ : e.isException = true ∧ _ = r := by simpa using htaken
    refine Ends.bind (P := fun log' x' _ => x' = x₂ ∧ Lost held log')
      (.perform trivial (fun _ _ => ⟨rfl, ?_⟩) fun _ _ => ⟨rfl, ?_⟩) fun log₃ x₃ _ h₃ => .raise h₃
    all_goals
      exact ((h₂.release rfl rfl).congr (iff_true_intro ⟨hexception, id⟩)).lost
  · rintro log₂ _ e hleft ⟨rfl, h₂⟩
    have hbase : e.isException = false := by simpa using hleft
    exact ⟨rfl, hlost (h₂.congr (by simp [hbase]))⟩

/-- What a probe that may be there holds. -/
def probeHeld : Option ℕ → List Resource
  | none => []
  | some probe => [.probe probe]

theorem watched_startProbe (job : ℕ) (h : Keeps (.job job :: held) True log) :
    EndsWatched (fun log' x' probe => x' = x ∧ Keeps (probeHeld probe ++ .job job :: held) True log')
      (fun log' x' _ => x' = x ∧ Lost held log') log x (startProbe config) := by
  refine Ends.ite (fun _ => ?_) fun _ => .pure ⟨rfl, h⟩
  refine Ends.bind (P := fun log' x' probe => x' = x ∧
    Keeps (.probe probe :: .job job :: held) True log')
    (.perform trivial (fun _ _ => ⟨rfl, h.acquire rfl rfl id⟩) fun e _ => ⟨rfl, ?_⟩) ?_
  · have hleak : Keeps (.job job :: held) False (log ++ [⟨.newProbe, .error e⟩]) :=
      h.leak rfl rfl trivial
    exact hleak.lost_of_leak [.job job] (by simp) (by simp)
  rintro log₁ x₁ probe ⟨rfl, h₁⟩
  refine Ends.bind (P := fun log' x' _ => x' = x₁ ∧
    Keeps (.probe probe :: .job job :: held) True log')
    (.perform trivial (fun _ _ => ⟨rfl, h₁.neutral rfl rfl id⟩) fun e _ => ⟨rfl, ?_⟩) ?_
  · have hleak : Keeps (.probe probe :: .job job :: held) False
        (log₁ ++ [⟨.probeStart probe, .error e⟩]) := h₁.leak rfl rfl trivial
    exact hleak.lost_of_leak [.probe probe, .job job] (by simp) (by simp)
  · rintro log₂ _ _ ⟨rfl, h₂⟩
    exact .pure ⟨rfl, h₂⟩

/-- The last block of a child: a probe that cannot be stopped leaves the job limit open. -/
theorem watched_closeChild (job : ℕ) (probe : Option ℕ)
    (h : Keeps (probeHeld probe ++ .job job :: held) True log) :
    EndsWatched (fun log' x' _ => x' = x ∧ Keeps held True log')
      (fun log' x' _ => x' = x ∧ Lost held log') log x
      (do stopProbe probe; calling (.close job)) := by
  refine Ends.bind (P := fun log' x' _ => x' = x ∧ Keeps (.job job :: held) True log') ?_ ?_
  · cases probe with
    | none => exact .pure ⟨rfl, h⟩
    | some probe =>
      refine .perform trivial (fun _ _ => ⟨rfl, (h.release rfl rfl).congr ?_⟩) fun e _ => ⟨rfl, ?_⟩
      · exact iff_true_intro ⟨trivial, id⟩
      · have hleak : Keeps (.job job :: held) False (log ++ [⟨.probeStop probe, .error e⟩]) :=
          (h.release rfl rfl).congr (iff_false_intro fun h => h.2 trivial)
        exact hleak.lost_of_leak [.job job] (by simp) (by simp)
  · rintro log₁ _ _ ⟨rfl, h₁⟩
    have hclosed : ∀ r, Keeps held True (log₁ ++ [⟨.close job, r⟩]) := fun r =>
      (h₁.release rfl rfl).congr (iff_true_intro ⟨trivial, id⟩)
    exact .perform trivial (fun _ _ => ⟨rfl, hclosed _⟩) fun _ _ => ⟨rfl, (hclosed _).lost⟩

theorem watched_awaitChild (proc job : ℕ) (probe : Option ℕ)
    (h : Keeps (probeHeld probe ++ .job job :: held) True log) :
    EndsWatched (fun log' x' _ => x' = x ∧ Keeps held True log')
      (fun log' x' _ => x' = x ∧ Lost held log') log x (awaitChild proc job probe polls) := by
  refine Ends.finallyDo
    (P := fun log' x' _ => x' = x ∧ Keeps (probeHeld probe ++ .job job :: held) True log')
    (R := fun log' x' _ => x' = x ∧ Keeps (probeHeld probe ++ .job job :: held) True log') ?_ ?_ ?_
  · refine Ends.bind (watched_waitForExitOrUnhealthy proc probe h) ?_
    rintro log₁ _ rc ⟨rfl, h₁⟩
    refine Ends.bind (watched_isTripped probe h₁) ?_
    rintro log₂ _ tripped ⟨rfl, h₂⟩
    exact .pure ⟨rfl, h₂⟩
  · rintro log₁ _ ended ⟨rfl, h₁⟩
    exact watched_closeChild job probe h₁
  · rintro log₁ _ e ⟨rfl, h₁⟩
    exact (watched_closeChild job probe h₁).mono (fun _ _ _ h => ⟨h.1, h.2.lost⟩)
      (fun _ _ _ h => h) fun _ _ h => h

theorem watched_spawnAndWait {sources : List SecretSource}
    (h : Keeps (sources.map .source) True log) :
    EndsWatched (fun log' x' _ => x' = x ∧ Keeps (sources.map .source) True log')
      (fun log' x' _ => x' = x ∧ Lost (sources.map .source) log') log x
      (spawnAndWait config env polls) := by
  have hraised : ∀ log' (e : Raised), Keeps (sources.map .source) True log' →
      x = x ∧ Lost (sources.map .source) log' := fun _ _ h => ⟨rfl, h.lost⟩
  refine watched_idle_bind trivial rfl h hraised fun log₁ _ h₁ => ?_
  refine watched_idle_bind h₁.childrenReleased rfl h₁ hraised fun log₂ proc h₂ => ?_
  refine Ends.bind (P := fun log' x' job => x' = x ∧
    Keeps (.job job :: sources.map .source) True log')
    (.perform trivial (fun _ _ => ⟨rfl, h₂.acquire rfl rfl id⟩)
      fun _ _ => ⟨rfl, (h₂.neutral rfl rfl id).lost⟩) ?_
  rintro log₃ _ job ⟨rfl, h₃⟩
  refine Ends.bind (watched_attachJob job proc h₃) ?_
  rintro log₄ _ _ ⟨rfl, h₄⟩
  refine Ends.bind (watched_startProbe job h₄) ?_
  rintro log₅ _ probe ⟨rfl, h₅⟩
  refine Ends.bind (watched_awaitChild proc job probe h₅) ?_
  rintro log₆ _ ended ⟨rfl, h₆⟩
  exact watched_idle_bind trivial rfl h₆
    hraised fun log₇ _ h₇ => .pure ⟨rfl, h₇⟩

/-! ## The loop -/

theorem watched_superviseLoop {sources : List SecretSource} {attempt : ℤ}
    (h : Keeps (sources.map .source) True log) (hx : x.initialized = sources) :
    EndsWatched (fun log' x' _ => x'.initialized = sources ∧ Keeps (sources.map .source) True log')
      (fun log' x' _ => x'.initialized = sources ∧ Lost (sources.map .source) log') log x
      (superviseLoop config env polls rounds attempt) := by
  induction rounds generalizing log x attempt with
  | zero => exact .cutOff h.isClean
  | succ rounds ih =>
    refine Ends.bind ((watched_spawnAndWait h).mono (fun _ _ _ h => h) ?_ fun _ _ h => h) ?_
    · rintro log₁ x₁ _ ⟨rfl, h₁⟩
      exact ⟨hx, h₁⟩
    rintro log₁ x₁ lastRc ⟨rfl, h₁⟩
    refine Ends.bind (P := fun log' x' _ => x'.initialized = sources ∧ log' = log₁)
      (.assign ⟨hx, rfl⟩) ?_
    rintro _ x₂ _ ⟨hx₂, rfl⟩
    have hraised : ∀ log' (e : Raised), Keeps (sources.map .source) True log' →
        x₂.initialized = sources ∧ Lost (sources.map .source) log' := fun _ _ h => ⟨hx₂, h.lost⟩
    refine Ends.ite (fun _ => ?_) fun _ => ?_
    · exact watched_idle_bind trivial rfl h₁
        hraised fun log₂ _ h₂ => .pure ⟨hx₂, h₂⟩
    · cases nextDelay (attempt + 1) config.restart.toRestartFields with
      | error error =>
        cases error with
        | valueError message => exact .raise ⟨hx₂, h₁.lost⟩
        | maxAttemptsReached message =>
          exact watched_idle_bind trivial rfl h₁ hraised fun log₂ _ h₂ => .pure ⟨hx₂, h₂⟩
      | ok delay =>
        refine watched_idle_bind trivial rfl h₁ hraised fun log₂ _ h₂ => ?_
        exact watched_idle_bind trivial rfl h₂ hraised fun log₃ _ h₃ => ih h₃ hx₂

/-! ## The sources -/

theorem watched_initSources (sources : List SecretSource)
    (h : Keeps (x.initialized.map .source) True log) :
    EndsWatched (fun log' x' _ => Keeps (x'.initialized.map .source) True log')
      (fun log' x' _ => Keeps (x'.initialized.map .source) True log') log x
      (initSources sources) := by
  induction sources generalizing log x with
  | nil => exact .pure h
  | cons src rest ih =>
    refine watched_idle_bind trivial rfl h
      (fun _ _ h => h) fun log₁ stateful h₁ => Ends.ite (fun _ => ?_) fun _ => ih h₁
    refine Ends.bind (P := fun log' x' _ => x' = x ∧
      Keeps (.source src :: x.initialized.map .source) True log')
      (.perform trivial (fun _ _ => ⟨rfl, h₁.acquire rfl rfl id⟩) fun _ _ => h₁.neutral rfl rfl id) ?_
    rintro log₂ x₂ _ ⟨rfl, h₂⟩
    refine Ends.bind (P := fun log' x' _ => Keeps (x'.initialized.map .source) True log')
      (.assign (h₂.perm ?_)) fun log₃ x₃ _ h₃ => ih h₃
    rw [List.map_append]
    exact (List.perm_append_singleton _ _).symm

/-- What is still to be torn down when a loop of teardowns is left, and what was lost before. -/
theorem watched_teardownSources {extra : List Resource} (sources : List SecretSource)
    (hextra : ∀ src, .source src ∉ extra)
    (h : Keeps (extra ++ sources.map .source) (extra = []) log) :
    EndsWatched (fun log' _ _ => ∃ left, Keeps left (left = []) log')
      (fun log' _ _ => ∃ left, Keeps left (left = []) log') log x (teardownSources sources) := by
  induction sources generalizing log x with
  | nil => exact .pure ⟨extra, by simpa using h⟩
  | cons src rest ih =>
    -- Whatever the teardown does, its source is no longer held.
    have htorn : ∀ r, Keeps (extra ++ rest.map .source)
        (extra = [] ∧ ¬Leaks log ⟨.teardown src, r⟩) (log ++ [⟨.teardown src, r⟩]) := fun r =>
      (h.perm List.perm_middle).release rfl rfl
    -- A source is pending exactly if there is a rest.
    have hpending : ∀ {clean : Prop} {log' : RunLog}, Keeps (extra ++ rest.map .source) clean log' →
        (Pending log' ↔ rest ≠ []) := by
      intro clean log' h'
      rw [h'.pending_iff, List.ne_nil_iff_exists_cons.trans (by
        cases rest <;> simp : _ ↔ ∃ src, src ∈ rest)]
      simp [hextra]
    have hleft : ∀ {leaks : Prop}, (leaks ↔ rest ≠ []) →
        ((extra = [] ∧ ¬leaks) ↔ extra ++ rest.map Resource.source = []) := by
      intro leaks hleaks
      rw [hleaks]
      simp
    refine Ends.bind (P := fun log' _ _ => Keeps (extra ++ rest.map .source) (extra = []) log')
      (Ends.handling (R := fun log' _ e => Keeps (extra ++ rest.map .source)
        (extra = [] ∧ (e.isException = true ∨ rest = [])) log')
        (.perform trivial (fun _ _ => (htorn _).congr (and_iff_left id)) fun e _ => ?_) ?_ ?_)
      fun log₁ x₁ _ h₁ => ih h₁
    · refine (htorn (.error e)).congr (and_congr_right fun _ => ?_)
      simp only [Leaks, hpending (htorn (.error e))]
      cases e.isException <;> simp
    · intro log₁ x₁ e handler htaken h₁
      obtain ⟨hexception, rfl⟩ : e.isException = true ∧ _ = handler := by simpa using htaken
      have h₁ : Keeps (extra ++ rest.map .source) (extra = []) log₁ := h₁.congr (by simp [hexception])
      refine .perform trivial (fun _ _ => h₁.neutral rfl rfl id) fun e' _ =>
        ⟨extra ++ rest.map .source, ?_⟩
      have hreported : Keeps (extra ++ rest.map .source)
          (extra = [] ∧ ¬Leaks log₁ ⟨.emitEvent (.teardownFailed src.name e.name), .error e'⟩)
          (log₁ ++ [⟨.emitEvent (.teardownFailed src.name e.name), .error e'⟩]) :=
        h₁.concat fun _ => rfl
      exact hreported.congr (hleft (hpending h₁))
    · intro log₁ x₁ e hleave h₁
      have hbase : e.isException = false := by simpa using hleave
      exact ⟨_, h₁.congr (by simp [hbase])⟩

/-! ## The run -/

theorem watched_bracketLifecycle {α : Type} {body : Launching α} (sources : List SecretSource)
    (h : Keeps [] True log)
    (hbody : ∀ log' x', Keeps (x'.initialized.map .source) True log' →
      EndsWatched (fun log'' x'' _ => Lost (x''.initialized.map .source) log'')
        (fun log'' x'' _ => Lost (x''.initialized.map .source) log'') log' x' body) :
    EndsWatched (fun log' _ _ => ∃ left, Keeps left (left = []) log')
      (fun log' _ _ => ∃ left, Keeps left (left = []) log') log x
      (bracketLifecycle sources body) := by
  refine Ends.bind (P := fun log' x' _ => x'.initialized = [] ∧ log' = log) (.assign ⟨rfl, rfl⟩) ?_
  rintro _ x₁ _ ⟨hx₁, rfl⟩
  have hlast : ∀ log' x', Lost (x'.initialized.map .source) log' →
      EndsWatched (fun log'' _ _ => ∃ left, Keeps left (left = []) log'')
        (fun log'' _ _ => ∃ left, Keeps left (left = []) log'') log' x'
        (do let initialized ← local? (·.initialized); teardownSources initialized) := by
    rintro log' x' ⟨extra, hextra, h'⟩
    refine Ends.bind (P := fun log'' x'' initialized => log'' = log' ∧ initialized = x'.initialized)
      (.local? ⟨rfl, rfl⟩) ?_
    rintro _ x'' _ ⟨rfl, rfl⟩
    exact watched_teardownSources x'.initialized hextra h'
  refine Ends.finallyDo (P := fun log' x' _ => Lost (x'.initialized.map .source) log')
    (R := fun log' x' _ => Lost (x'.initialized.map .source) log') ?_
    (fun log' x' _ h' => hlast log' x' h') fun log' x' _ h' => hlast log' x' h'
  refine Ends.bind ((watched_initSources sources (by rw [hx₁]; exact h)).mono (fun _ _ _ h => h)
    (fun _ _ _ h => h.lost) fun _ _ h => h) fun log₂ x₂ _ h₂ => hbody log₂ x₂ h₂

theorem watched_supervise (h : Keeps (x.initialized.map .source) True log) :
    EndsWatched (fun log' x' _ => Lost (x'.initialized.map .source) log')
      (fun log' x' _ => Lost (x'.initialized.map .source) log') log x
      (supervise config rounds polls) := by
  refine watched_idle_bind trivial rfl h
    (fun _ _ h => h.lost) fun log₁ env h₁ => ?_
  refine watched_idle_bind trivial rfl h₁
    (fun _ _ h => h.lost) fun log₂ _ h₂ => ?_
  refine (watched_superviseLoop h₂ rfl).mono ?_ ?_ fun _ _ h => h
  · rintro log' x' _ ⟨hx', h'⟩
    exact hx' ▸ h'.lost
  · rintro log' x' _ ⟨hx', h'⟩
    exact hx' ▸ h'

theorem watched_closeRun {left : List Resource} (h : Keeps left clean log) :
    EndsWatched (fun log' _ _ => Keeps left clean log') (fun log' _ _ => Keeps left clean log') log x
      closeRun := by
  refine watched_idle_bind trivial rfl h (fun _ _ h => h) fun log₁ _ h₁ => ?_
  refine Ends.bind (P := fun log' _ _ => Keeps left clean log') (.local? h₁) fun log₂ x₂ rc h₂ => ?_
  refine watched_idle_bind trivial rfl h₂ (fun _ _ h => h) fun log₃ _ h₃ => ?_
  refine .perform trivial (fun _ _ => h₃.idle rfl _) fun _ _ => h₃.idle rfl _

/-- However a run ends, what it still holds is nothing exactly if it was clean. -/
theorem watched_run (config : ServiceConfig) (sources : List SecretSource) (rounds polls : ℕ)
    (x : RunLocals) :
    EndsWatched (fun log' _ _ => ∃ left, Keeps left (left = []) log')
      (fun log' _ _ => ∃ left, Keeps left (left = []) log') [] x
      (run config sources rounds polls) := by
  have hraised : ∀ log' (e : Raised), Keeps [] True log' → ∃ left, Keeps left (left = []) log' :=
    fun _ _ h => ⟨[], h.congr (by simp)⟩
  refine watched_idle_bind trivial rfl keeps_nil hraised fun log₁ _ h₁ => ?_
  refine watched_idle_bind trivial rfl h₁ hraised fun log₂ _ h₂ => ?_
  refine watched_idle_bind trivial rfl h₂ hraised fun log₃ _ h₃ => ?_
  refine watched_idle_bind trivial rfl h₃ hraised fun log₄ _ h₄ => ?_
  refine watched_idle_bind trivial rfl h₄ hraised fun log₅ _ h₅ => ?_
  refine Ends.bind (P := fun log' _ _ => Keeps [] True log') (.assign h₅) fun log₆ x₆ _ h₆ => ?_
  have hlast : ∀ {log' : RunLog} {x' : RunLocals}, (∃ left, Keeps left (left = []) log') →
      EndsWatched (fun log'' _ _ => ∃ left, Keeps left (left = []) log'')
        (fun log'' _ _ => ∃ left, Keeps left (left = []) log'') log' x' closeRun := by
    rintro log' x' ⟨left, h'⟩
    exact (watched_closeRun h').mono (fun _ _ _ h => ⟨left, h⟩) (fun _ _ _ h => ⟨left, h⟩)
      fun _ _ h => h
  exact Ends.finallyDo
    (watched_bracketLifecycle sources h₆ fun log' x' h' => watched_supervise h')
    (fun log' x' _ h' => hlast h') fun log' x' _ h' => hlast h'

end

/-- What a run is to do: follow its policy while nothing raises, and whatever raises, release what
it acquired, and what it acquired for one child before the next. -/
structure Supervised (config : ServiceConfig) (rounds polls : ℕ) (log : RunLog)
    (o : Ended Raised ℤ) : Prop where
  policy : Quiet log → FollowsPolicy config.restart rounds polls (milestones log) o
  ends_released : o ≠ .cut → Released log
  child_released : ∀ before cmd env cwd a after, log = before ++ ⟨.popen cmd env cwd, a⟩ :: after →
    ChildrenReleased before

/-- A run does what it is to do exactly if no call raises between a child's job limit and the `try`
that closes it or before its `close`, and none in the teardowns that leaves a source pending. -/
theorem played_supervised_iff (config : ServiceConfig) (sources : List SecretSource)
    (rounds polls : ℕ) (world : RunWorld) :
    Supervised config rounds polls (played config sources rounds polls world).1
        (played config sources rounds polls world).2.1 ↔
      Clean (played config sources rounds polls world).1 := by
  have hpolicy := played_followsPolicy config sources rounds polls world
  obtain ⟨hrun, rest, hrest, hspawn⟩ := Calls.play_obeys world
    (watched_run config sources rounds polls ⟨[], 0⟩) fun _ _ _ => trivial
  unfold played at hpolicy ⊢
  rw [List.nil_append] at hrest
  have hchild : ∀ before cmd env cwd a after, _ = before ++ ⟨.popen cmd env cwd, a⟩ :: after →
      ChildrenReleased before := fun before cmd env cwd a after hlog =>
    hspawn before (.popen cmd env cwd) a after (hrest.symm.trans hlog)
  revert hrun hpolicy hchild
  rcases Calls.play world _ _ with ⟨log, _ | _ | _, x⟩
  · rintro hpolicy ⟨left, hleft⟩ hchild
    rw [hleft.clean_iff, ← hleft.released_iff]
    exact ⟨fun h => h.ends_released nofun, fun h => ⟨hpolicy, fun _ => h, hchild⟩⟩
  · rintro hpolicy ⟨left, hleft⟩ hchild
    rw [hleft.clean_iff, ← hleft.released_iff]
    exact ⟨fun h => h.ends_released nofun, fun h => ⟨hpolicy, fun _ => h, hchild⟩⟩
  · intro hpolicy hclean hchild
    exact ⟨fun _ => hclean, fun _ => ⟨hpolicy, fun h => absurd rfl h, hchild⟩⟩

/-- A service whose health is watched. -/
def watchedService : ServiceConfig where
  service := "myservice"
  exec := "python.exe"
  args := []
  workingDir := ""
  secretTargetEnvs := []
  healthzEnabled := true
  healthzType := "http"
  restart := sampleSpec

/-- A host that can start no more threads; everything else goes well. -/
def withoutThreads : RunWorld := fun _ q =>
  match q with
  | .probeStart _ => .error ⟨true, "RuntimeError"⟩
  | .supportsLifecycle _ => .ok false
  | .buildChildEnv => .ok []
  | .popen .. => .ok 0
  | .newJobLimit => .ok 0
  | .hasHandle _ => .ok false
  | .newProbe => .ok 0
  | .restartRequired _ => .ok false
  | .poll _ => .ok (some 0)
  | .waitGrace _ => .ok (some 0)
  | .wait _ => .ok 0
  | .newTelemetry | .startRun .. | .newBuffer | .newAdminUi | .adminUiStart | .init _ | .teardown _
  | .buildDispatcher | .emitEvent _ | .attach .. | .close _ | .probeStop _ | .terminate _ | .kill _
  | .pollSleep | .sleep _ | .adminUiStop | .endRun _ | .shutdown => .ok ()

/-- The probe that could not be started is not stopped, and the job limit stays open. -/
theorem played_withoutThreads_unreleased :
    ¬Supervised watchedService 1 1 (played watchedService [] 1 1 withoutThreads).1
      (played watchedService [] 1 1 withoutThreads).2.1 := by
  intro h
  have hjob := h.ends_released (by decide +kernel) (.job 0)
  revert hjob
  decide +kernel

end Launcher
end Recto
