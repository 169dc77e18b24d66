import Recto.Launcher.Policy

/-!
# The run follows its policy

While nothing raises, the milestones of a run are those the policy admits, for
every sequence of exit codes and however long the run goes on.
-/

namespace Recto
namespace Launcher

open Restart Raising Milestone

/-! ## What is seen of a call -/

def milestone? : RunEvent → Option Milestone
  | ⟨.emitEvent notice, .ok _⟩ => some (.emitted notice)
  | ⟨.popen .., .ok proc⟩ => some (.spawned proc)
  | ⟨.poll proc, .ok none⟩ => some (.alive proc)
  | ⟨.poll proc, .ok (some rc)⟩ => some (.exited proc rc)
  | ⟨.waitGrace proc, .ok (some rc)⟩ => some (.exited proc rc)
  | ⟨.wait proc, .ok rc⟩ => some (.exited proc rc)
  | ⟨.sleep delay, .ok _⟩ => some (.slept delay)
  | _ => none

/-- The milestones of a run. -/
def milestones (log : RunLog) : List Milestone := log.filterMap milestone?

/-- Nothing raised. -/
def Quiet (log : RunLog) : Prop := ∀ ev ∈ log, ev.2.isOk = true

/-- The monitor of a run in which nothing raises. -/
abbrev quiet : Monitor LauncherCall (fun q => Except Raised q.Value) RunLog :=
  Monitor.logging (fun _ _ => True) fun _ r => r.isOk = true

section
variable {config : ServiceConfig} {sources : List SecretSource} {rounds polls : ℕ} {log : RunLog}
  {x : RunLocals} {α : Type} {P : RunLog → RunLocals → α → Prop} {C : RunLog → RunLocals → Prop}

/-- No ending with something raised. -/
abbrev EndsQuietly (P : RunLog → RunLocals → α → Prop) (C : RunLog → RunLocals → Prop)
    (log : RunLog) (x : RunLocals) (p : Launching α) : Prop :=
  Ends quiet P (fun _ _ _ => False) C log x p

@[simp] theorem milestones_append (log log' : RunLog) :
    milestones (log ++ log') = milestones log ++ milestones log' :=
  List.filterMap_append

theorem milestones_concat_none {ev : RunEvent} (h : milestone? ev = none) :
    milestones (log ++ [ev]) = milestones log := by
  rw [milestones_append, milestones, milestones, List.filterMap_cons_none h, List.filterMap_nil,
    List.append_nil]

theorem milestones_concat_some {ev : RunEvent} {m : Milestone} (h : milestone? ev = some m) :
    milestones (log ++ [ev]) = milestones log ++ [m] := by
  rw [milestones_append, milestones, milestones, List.filterMap_cons_some h, List.filterMap_nil]

theorem quiet_calling {q : LauncherCall} {P : RunLog → RunLocals → q.Value → Prop}
    (h : ∀ v, P (log ++ [⟨q, .ok v⟩]) x v) : EndsQuietly P C log x (calling q) :=
  .perform trivial (fun v _ => h v) fun _ he => absurd he (by simp [Except.isOk, Except.toBool])

theorem quiet_bind {q : LauncherCall} {f : q.Value → Launching α}
    (h : ∀ v, EndsQuietly P C (log ++ [⟨q, .ok v⟩]) x (f v)) :
    EndsQuietly P C log x (calling q >>= f) := by
  refine Ends.bind (P := fun log' x' v => log' = log ++ [⟨q, .ok v⟩] ∧ x' = x)
    (quiet_calling fun v => ⟨rfl, rfl⟩) ?_
  rintro _ _ v ⟨rfl, rfl⟩
  exact h v

/-! ## One child -/

theorem quiet_isTripped (probe : Option ℕ) :
    EndsQuietly (fun log' _ _ => milestones log' = milestones log) C log x (isTripped probe) := by
  cases probe with
  | none => exact .pure rfl
  | some probe => exact quiet_calling fun v => milestones_concat_none rfl

theorem quiet_waitForExitOrUnhealthy (proc : ℕ) (probe : Option ℕ) :
    EndsQuietly
      (fun log' _ rc => ∃ lives, milestones log' =
        milestones log ++ (List.replicate lives (alive proc) ++ [exited proc rc]))
      (fun log' _ => milestones log' = milestones log ++ List.replicate polls (alive proc))
      log x (waitForExitOrUnhealthy proc probe polls) := by
  induction polls generalizing log x with
  | zero => exact .cutOff (by simp)
  | succ polls ih =>
    refine quiet_bind fun rc => ?_
    cases rc with
    | some rc => exact .pure ⟨0, milestones_concat_some rfl⟩
    | none =>
      have hpoll : milestones (log ++ [⟨.poll proc, .ok none⟩]) = milestones log ++ [alive proc] :=
        milestones_concat_some rfl
      refine Ends.bind (quiet_isTripped probe) fun log' x' tripped hlog => ?_
      rw [hpoll] at hlog
      refine Ends.ite (fun _ => ?_) fun _ => ?_
      · refine quiet_bind fun _ => quiet_bind fun rc => ?_
        cases rc with
        | some rc =>
          refine .pure ⟨1, ?_⟩
          rw [milestones_concat_some rfl, milestones_concat_none rfl, hlog]
          simp
        | none =>
          refine quiet_bind fun _ => quiet_calling fun rc => ⟨1, ?_⟩
          rw [milestones_concat_some rfl, milestones_concat_none rfl, milestones_concat_none rfl,
            milestones_concat_none rfl, hlog]
          simp
      · refine quiet_bind fun _ => Ends.mono ih ?_ (fun _ _ _ h => h) ?_
        · rintro log'' _ rc ⟨lives, hlives⟩
          refine ⟨lives + 1, ?_⟩
          rw [hlives, milestones_concat_none rfl, hlog]
          simp [List.replicate_succ]
        · intro log'' _ hlives
          rw [hlives, milestones_concat_none rfl, hlog]
          simp [List.replicate_succ]

theorem quiet_attachJob (job proc : ℕ) :
    EndsQuietly (fun log' _ _ => milestones log' = milestones log) C log x (attachJob job proc) := by
  refine quiet_bind fun limited => Ends.ite (fun _ => ?_) fun _ => .pure (milestones_concat_none rfl)
  refine Ends.handling (quiet_calling fun _ => ?_) (fun _ _ _ _ _ h => h.elim) fun _ _ _ _ h => h
  rw [milestones_concat_none rfl, milestones_concat_none rfl]

theorem quiet_startProbe :
    EndsQuietly (fun log' _ _ => milestones log' = milestones log) C log x (startProbe config) := by
  refine Ends.ite (fun _ => ?_) fun _ => .pure rfl
  refine quiet_bind fun probe => quiet_bind fun _ => .pure ?_
  rw [milestones_concat_none rfl, milestones_concat_none rfl]

theorem quiet_stopProbe (probe : Option ℕ) :
    EndsQuietly (fun log' _ _ => milestones log' = milestones log) C log x (stopProbe probe) := by
  cases probe with
  | none => exact .pure rfl
  | some probe => exact quiet_calling fun _ => milestones_concat_none rfl

theorem quiet_awaitChild (proc job : ℕ) (probe : Option ℕ) :
    EndsQuietly
      (fun log' _ ended => ∃ lives, milestones log' =
        milestones log ++ (List.replicate lives (alive proc) ++ [exited proc ended.1]))
      (fun log' _ => milestones log' = milestones log ++ List.replicate polls (alive proc))
      log x (awaitChild proc job probe polls) := by
  refine Ends.finallyDo (R := fun _ _ _ => False)
    (P := fun log' _ ended => ∃ lives, milestones log' =
      milestones log ++ (List.replicate lives (alive proc) ++ [exited proc ended.1])) ?_ ?_
    fun _ _ _ h => h.elim
  · refine Ends.bind (quiet_waitForExitOrUnhealthy proc probe) fun log' x' rc hrc => ?_
    refine Ends.bind (quiet_isTripped probe) fun log'' x'' tripped hlog => .pure ?_
    rwa [hlog]
  · intro log' x' ended hended
    refine Ends.bind (quiet_stopProbe probe) fun log'' x'' _ hlog => quiet_calling fun _ => ?_
    rwa [milestones_concat_none rfl, hlog]

theorem quiet_spawnAndWait (env : List (String × String)) :
    EndsQuietly
      (fun log' _ rc => ∃ spawn exit p lives, spawn.AboutChild ∧ exit.AboutChild ∧
        milestones log' = milestones log ++ childRun spawn exit p lives rc)
      (fun log' _ => ∃ spawn p, spawn.AboutChild ∧ milestones log' =
        milestones log ++ emitted spawn :: spawned p :: List.replicate polls (alive p))
      log x (spawnAndWait config env polls) := by
  refine quiet_bind fun _ => quiet_bind fun proc => quiet_bind fun job => ?_
  refine Ends.bind (quiet_attachJob job proc) fun log₁ x₁ _ hlog₁ => ?_
  refine Ends.bind quiet_startProbe fun log₂ x₂ probe hlog₂ => ?_
  have hspawned : milestones log₂ = milestones log ++
      [emitted (.childSpawn (config.exec :: config.args) config.cwd config.secretTargetEnvs),
        spawned proc] := by
    rw [hlog₂, hlog₁, milestones_concat_none rfl, milestones_concat_some rfl,
      milestones_concat_some rfl, List.append_assoc]
    rfl
  refine Ends.bind ((quiet_awaitChild proc job probe).mono (fun _ _ _ h => h) (fun _ _ _ h => h) ?_)
    fun log₃ x₃ ended hended => ?_
  · intro log₃ x₃ hlives
    exact ⟨.childSpawn _ _ _, proc, .inl rfl, by rw [hlives, hspawned, List.append_assoc]; rfl⟩
  · obtain ⟨lives, hlives⟩ := hended
    refine quiet_bind fun _ => .pure
      ⟨.childSpawn (config.exec :: config.args) config.cwd config.secretTargetEnvs,
        .childExit ended.1 ended.2, proc, lives, .inl rfl, .inr rfl, ?_⟩
    rw [milestones_concat_some rfl, hlives, hspawned, childRun]
    simp

/-! ## The loop -/

/-- What the delay of a restart is, or that none is left. -/
theorem nextDelay_cases {attempt : ℤ} (hattempt : 0 ≤ attempt) (restart : RestartSpec) :
    ((0 < restart.maxAttempts ∧ restart.maxAttempts < attempt) ∧ ∃ message,
        nextDelay attempt restart.toRestartFields = .error (.maxAttemptsReached message)) ∨
      ¬(0 < restart.maxAttempts ∧ restart.maxAttempts < attempt) ∧ ∃ delay,
        nextDelay attempt restart.toRestartFields = .ok delay := by
  unfold nextDelay
  rw [if_neg (by omega)]
  by_cases hzero : attempt = 0
  · rw [if_pos hzero]
    exact .inr ⟨by omega, 0, rfl⟩
  · rw [if_neg hzero]
    by_cases hlimit : 0 < restart.maxAttempts ∧ restart.maxAttempts < attempt
    · rw [if_pos hlimit]
      exact .inl ⟨hlimit, _, rfl⟩
    · rw [if_neg hlimit]
      exact .inr ⟨hlimit, _, rfl⟩

/-- Every round adds what the policy admits. -/
theorem quiet_superviseLoop (env : List (String × String)) {attempt : ℤ} (hattempt : 0 ≤ attempt) :
    EndsQuietly
      (fun log' _ rc => ∃ ms, milestones log' = milestones log ++ ms ∧
        Follows config.restart polls rounds attempt ms (.value rc))
      (fun log' _ => ∃ ms, milestones log' = milestones log ++ ms ∧
        Follows config.restart polls rounds attempt ms .cut)
      log x (superviseLoop config env polls rounds attempt) := by
  induction rounds generalizing log x attempt with
  | zero => exact .cutOff ⟨[], by simp, .used attempt⟩
  | succ rounds ih =>
    refine Ends.bind ((quiet_spawnAndWait env).mono (fun _ _ _ h => h) (fun _ _ _ h => h) ?_)
      fun log₁ x₁ rc hrc => ?_
    · rintro log₁ x₁ ⟨spawn, p, hspawn, hlog₁⟩
      exact ⟨_, hlog₁, .running attempt p hspawn⟩
    obtain ⟨spawn, exit, p, lives, hspawn, hexit, hlog₁⟩ := hrc
    refine Ends.bind (P := fun log' _ _ => log' = log₁) (.assign rfl) ?_
    rintro _ x₂ _ rfl
    refine Ends.ite (fun hstop => ?_) fun hgo => ?_
    · refine quiet_bind fun _ => .pure ⟨_, ?_, .final p lives hspawn hexit hstop⟩
      rw [milestones_concat_some rfl, hlog₁, List.append_assoc]
    · have hnext : 0 ≤ attempt + 1 := by omega
      obtain ⟨hlimit, message, hdelay⟩ | ⟨hwithin, delay, hdelay⟩ :=
        nextDelay_cases hnext config.restart
      · rw [hdelay]
        refine quiet_bind fun _ => .pure ⟨_, ?_, .exhausted p lives hspawn hexit hlimit⟩
        rw [milestones_concat_some rfl, hlog₁, List.append_assoc]
      · rw [hdelay]
        have hnot : ¬Stops config.restart (attempt + 1) rc := not_or.mpr ⟨hgo, hwithin⟩
        refine quiet_bind fun _ => quiet_bind fun _ => ?_
        refine Ends.mono (ih hnext) ?_ (fun _ _ _ h => h) ?_
        · rintro log₃ x₃ rc' ⟨ms, hms, hfollows⟩
          refine ⟨_, ?_, .again p lives hspawn hexit hnot hdelay hfollows⟩
          rw [hms, milestones_concat_some rfl, milestones_concat_some rfl, hlog₁]
          simp
        · rintro log₃ x₃ ⟨ms, hms, hfollows⟩
          refine ⟨_, ?_, .again p lives hspawn hexit hnot hdelay hfollows⟩
          rw [hms, milestones_concat_some rfl, milestones_concat_some rfl, hlog₁]
          simp

/-! ## The run -/

theorem quiet_initSources (sources : List SecretSource) :
    EndsQuietly (fun log' _ _ => milestones log' = milestones log) C log x (initSources sources) := by
  induction sources generalizing log x with
  | nil => exact .pure rfl
  | cons src rest ih =>
    refine quiet_bind fun stateful => Ends.ite (fun _ => quiet_bind fun _ => ?_) fun _ => ?_
    · refine Ends.bind (P := fun log' _ _ => milestones log' = milestones log) (.assign ?_)
        fun log' x' _ hlog => ih.mono (fun _ _ _ h => h.trans hlog) (fun _ _ _ h => h) fun _ _ h => h
      rw [milestones_concat_none rfl, milestones_concat_none rfl]
    · exact ih.mono (fun _ _ _ h => h.trans (milestones_concat_none rfl)) (fun _ _ _ h => h)
        fun _ _ h => h

theorem quiet_teardownSources (sources : List SecretSource) :
    EndsQuietly (fun log' _ _ => milestones log' = milestones log) C log x
      (teardownSources sources) := by
  induction sources generalizing log x with
  | nil => exact .pure rfl
  | cons src rest ih =>
    refine Ends.bind (P := fun log' _ _ => milestones log' = milestones log)
      (Ends.handling (quiet_calling fun _ => milestones_concat_none rfl)
        (fun _ _ _ _ _ h => h.elim) fun _ _ _ _ h => h)
      fun log' x' _ hlog => ih.mono (fun _ _ _ h => h.trans hlog) (fun _ _ _ h => h) fun _ _ h => h

theorem quiet_closeRun :
    EndsQuietly (fun log' _ _ => milestones log' = milestones log) C log x closeRun := by
  refine quiet_bind fun _ => Ends.bind (P := fun log' _ _ => log' = _) (.local? rfl) ?_
  rintro _ x' lastRc rfl
  refine quiet_bind fun _ => quiet_calling fun _ => ?_
  rw [milestones_concat_none rfl, milestones_concat_none rfl, milestones_concat_none rfl]

theorem quiet_run (config : ServiceConfig) (sources : List SecretSource) (rounds polls : ℕ) :
    EndsQuietly
      (fun log' _ rc => Follows config.restart polls rounds 0 (milestones log') (.value rc))
      (fun log' _ => Follows config.restart polls rounds 0 (milestones log') .cut)
      [] x (run config sources rounds polls) := by
  refine quiet_bind fun _ => quiet_bind fun _ => quiet_bind fun _ => quiet_bind fun _ =>
    quiet_bind fun _ => ?_
  refine Ends.bind (P := fun log' _ _ => milestones log' = []) (.assign rfl) fun log₁ x₁ _ hlog₁ => ?_
  refine Ends.finallyDo (R := fun _ _ _ => False)
    (P := fun log' _ rc => Follows config.restart polls rounds 0 (milestones log') (.value rc)) ?_
    (fun log' x' rc h => quiet_closeRun.mono (fun _ _ _ hlog => ?_) (fun _ _ _ h => h) fun _ _ h => h)
    fun _ _ _ h => h.elim
  · refine Ends.bind (P := fun log' _ _ => log' = log₁) (.assign rfl) ?_
    rintro _ x₂ _ rfl
    refine Ends.finallyDo (R := fun _ _ _ => False)
      (P := fun log' _ rc => Follows config.restart polls rounds 0 (milestones log') (.value rc)) ?_
      (fun log' x' rc h => ?_) fun _ _ _ h => h.elim
    · refine Ends.bind (quiet_initSources sources) fun log₂ x₃ _ hlog₂ => ?_
      refine quiet_bind fun env => quiet_bind fun _ => ?_
      have hstart : milestones (log₂ ++ [⟨.buildChildEnv, .ok env⟩] ++
          [⟨.buildDispatcher, .ok ()⟩]) = [] := by
        rw [milestones_concat_none rfl, milestones_concat_none rfl, hlog₂, hlog₁]
      refine (quiet_superviseLoop env (le_refl 0)).mono ?_ (fun _ _ _ h => h) ?_
      · rintro log₃ x₄ rc ⟨ms, hms, hfollows⟩
        rw [hms, hstart, List.nil_append]
        exact hfollows
      · rintro log₃ x₄ ⟨ms, hms, hfollows⟩
        rw [hms, hstart, List.nil_append]
        exact hfollows
    · refine Ends.bind (P := fun log'' _ _ => log'' = log') (.local? rfl) ?_
      rintro _ x₃ initialized rfl
      refine (quiet_teardownSources initialized).mono (fun _ _ _ hlog => ?_) (fun _ _ _ h => h)
        fun _ _ h => h
      rwa [hlog]
  · rwa [hlog]

/-- While nothing raises, a run follows its policy. -/
theorem played_followsPolicy (config : ServiceConfig) (sources : List SecretSource)
    (rounds polls : ℕ) (world : RunWorld)
    (hquiet : Quiet (played config sources rounds polls world).1) :
    FollowsPolicy config.restart rounds polls
      (milestones (played config sources rounds polls world).1)
      (played config sources rounds polls world).2.1 := by
  have hrun := (Calls.play_obeys world (quiet_run config sources rounds polls)
    fun q r hmem => hquiet ⟨q, r⟩ hmem).1
  refine Follows.followsPolicy ?_
  unfold played at hquiet ⊢
  revert hrun
  rcases Calls.play world _ _ with ⟨log, _ | _ | _, x⟩
  · exact id
  · exact False.elim
  · exact id

end

end Launcher
end Recto
