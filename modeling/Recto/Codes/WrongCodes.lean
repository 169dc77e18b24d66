import Recto.Codes.Core
import Recto.Codes.ClientBucket

/-!
# Wrong codes per client

A client is blocked by the failures of its own bucket inside the window, and by
nothing else, after every run of the limiter.
-/

namespace Recto
namespace Codes

/-- How many failures of a bucket happened inside the window before `now`. -/
def recentFailures (bucket : String → String) (calls : List (ℚ × Call)) (now : ℚ) (b : String) : ℕ :=
  (failures bucket calls).countP fun failure =>
    decide (failure.2 = b ∧ now - failure.1 < wrongCodeWindowSeconds)

/-- `blocked`, asked after the calls. -/
def blockedAfter (bucket : String → String) (calls : List (ℚ × Call)) (now : ℚ)
    (client : Option String) : Except PyError (Option Bool) := do
  let s ← run bucket calls
  let out ← s.blocked bucket now client
  pure out.2.answer

/-- The call is a failure of the bucket. -/
def isFailureOf (bucket : String → String) (b : String) (call : ℚ × Call) : Bool :=
  match call.2 with
  | .recordFailure (some client) => decide (bucket client = b)
  | _ => false

section Runs

variable {bucket : String → String} {calls : List (ℚ × Call)} {now : ℚ}

/-! ## Failures of a run -/

theorem failures_append (bucket : String → String) (calls more : List (ℚ × Call)) :
    failures bucket (calls ++ more) = failures bucket calls ++ failures bucket more :=
  List.filterMap_append

theorem mem_failures {failure : ℚ × String} (h : failure ∈ failures bucket calls) :
    ∃ call ∈ calls, call.1 = failure.1 := by
  obtain ⟨⟨t, call⟩, hcall, hout⟩ := List.mem_filterMap.mp h
  refine ⟨(t, call), hcall, ?_⟩
  cases call with
  | recordFailure client =>
    cases client with
    | none => simp at hout
    | some client => simp only [Option.some.injEq] at hout; rw [← hout]
  | _ => simp at hout

/-- Failures stand in the order of the clock. -/
theorem failures_sorted (hclock : Nondecreasing calls) :
    (failures bucket calls).Pairwise fun a b => a.1 ≤ b.1 := by
  induction calls using List.reverseRecOn with
  | nil => exact List.Pairwise.nil
  | append_singleton calls call ih =>
    obtain ⟨hclock, hbefore⟩ := nondecreasing_concat.mp hclock
    rw [failures_append, List.pairwise_append]
    refine ⟨ih hclock, ?_, ?_⟩
    · obtain ⟨t, call⟩ := call
      cases call with
      | recordFailure client => cases client <;> simp [failures]
      | _ => simp [failures]
    · intro a ha b hb
      obtain ⟨earlier, hearlier, hta⟩ := mem_failures ha
      obtain ⟨later, hlater, htb⟩ := mem_failures hb
      rw [List.mem_singleton] at hlater
      rw [← hta, ← htb, hlater]
      exact hbefore earlier hearlier

/-! ## The window -/

/-- The window ends the failures of the run; those before it are past their time. -/
def Windowed (bucket : String → String) (calls : List (ℚ × Call)) (now : ℚ) (c : Core) : Prop :=
  ∃ gone, failures bucket calls = gone ++ c.events ∧
    ∀ failure ∈ gone, failure.1 ≤ now - wrongCodeWindowSeconds

theorem windowed_kept (bucket : String → String) : Kept bucket (Windowed bucket) where
  start := fun _ => ⟨[], rfl, by simp⟩
  later := by
    rintro calls c a b hab ⟨gone, hgone, hold⟩
    exact ⟨gone, hgone, fun f hf => (hold f hf).trans (sub_le_sub_right hab _)⟩
  aged := by
    rintro calls now c d hage ⟨gone, hgone, hold⟩
    obtain ⟨left, hleft, hpast⟩ := hage.events
    refine ⟨gone ++ left, ?_, ?_⟩
    · rw [hgone, hleft, List.append_assoc]
    · intro f hf
      exact (List.mem_append.mp hf).elim (hold f) (hpast f)
  acted := by
    rintro calls now call c ⟨gone, hgone, hold⟩
    refine ⟨gone, ?_, hold⟩
    rw [failures_append, hgone, List.append_assoc]
    refine congrArg (gone ++ ·) ?_
    cases call with
    | recordFailure client => cases client <;> simp [failures, Core.act]
    | _ => simp [failures, Core.act]

/-- What is left of the window is the failures that are still young. -/
theorem count_young {gone events : List (ℚ × String)} {b : String}
    (hgone : ∀ f ∈ gone, f.1 ≤ now - wrongCodeWindowSeconds)
    (hevents : ∀ f ∈ events, now - wrongCodeWindowSeconds < f.1) :
    (gone ++ events).countP
        (fun f => decide (f.2 = b ∧ now - f.1 < wrongCodeWindowSeconds)) =
      (events.map Prod.snd).count b := by
  have hnone : gone.countP (fun f => decide (f.2 = b ∧ now - f.1 < wrongCodeWindowSeconds)) = 0 := by
    rw [List.countP_eq_zero]
    intro f hf
    have hold := hgone f hf
    simp only [decide_eq_true_eq, not_and, not_lt]
    intro
    linarith
  rw [List.countP_append, hnone, zero_add, List.count, List.countP_map]
  refine List.countP_congr ?_
  intro f hf
  have hyoung := hevents f hf
  have hlt : now - f.1 < wrongCodeWindowSeconds := by linarith
  simp [hlt]

/-- After any run, `blocked` answers by the recent failures of the client's bucket. -/
theorem blockedAfter_eq (bucket : String → String) (hclock : Nondecreasing calls)
    (hnow : ∀ call ∈ calls, call.1 ≤ now) (client : String) :
    blockedAfter bucket calls now (some client) =
      .ok (some (decide (wrongCodeLimit ≤ recentFailures bucket calls now (bucket client)))) := by
  obtain ⟨s, hrun, htallied, hwindow⟩ := run_keeps (windowed_kept bucket) hclock hnow
  obtain ⟨t, htrim, hage, hevents⟩ := Limiter.trim_eq htallied now
  obtain ⟨gone, hgone, hold⟩ := (windowed_kept bucket).aged _ _ _ _ hage hwindow
  have hyoung : ∀ f ∈ t.events, now - wrongCodeWindowSeconds < f.1 := by
    intro f hf
    rw [hevents] at hf
    have hsorted : s.events.Pairwise fun a b => a.1 ≤ b.1 := by
      obtain ⟨before, hbefore, -⟩ := hwindow
      have hall : (failures bucket calls).Pairwise fun a b => a.1 ≤ b.1 := failures_sorted hclock
      rw [hbefore, List.pairwise_append] at hall
      exact hall.2.1
    have hfalse := not_of_mem_dropWhile (hsorted.imp fun hab hb => by
      simp only [decide_eq_true_eq] at hb ⊢
      exact hab.trans hb) hf
    exact not_le.mp (of_decide_eq_false hfalse)
  have hcount : (t.counts.get? (bucket client)).getD 0 =
      recentFailures bucket calls now (bucket client) := by
    rw [recentFailures, hgone]
    show _ = ((gone ++ t.events).countP _ : ℤ)
    rw [count_young hold hyoung]
    exact (hage.counts htallied).getD (bucket client)
  simp only [blockedAfter, hrun, Limiter.blocked, htrim, bind, Except.bind, pure, Except.pure, hcount]

/-! ## The answer is the bucket's own -/

theorem recentFailures_own (bucket : String → String) (calls : List (ℚ × Call)) (now : ℚ)
    (b : String) :
    recentFailures bucket (calls.filter (isFailureOf bucket b)) now b =
      recentFailures bucket calls now b := by
  induction calls with
  | nil => rfl
  | cons call calls ih =>
    obtain ⟨t, call⟩ := call
    simp only [recentFailures, failures] at ih ⊢
    cases call with
    | recordFailure client =>
      cases client with
      | none => simpa [isFailureOf] using ih
      | some client =>
        by_cases hb : bucket client = b
        · simpa [isFailureOf, hb, List.countP_cons] using ih
        · simpa [isFailureOf, hb, List.countP_cons] using ih
    | _ => simpa [isFailureOf] using ih

end Runs

/-- Under a clock that never goes back no call raises, a client is blocked exactly by its bucket's
recent failures, and a run of these failures alone gives the same answer. -/
theorem blocked_iff_recent (t : CharTables) (calls : List (ℚ × Call)) (now : ℚ)
    (hclock : Nondecreasing calls) (hnow : ∀ call ∈ calls, call.1 ≤ now) :
    (∃ s, run (bucket t) calls = .ok s ∧ ∀ call, ∃ out, s.step (bucket t) now call = .ok out) ∧
      ∀ client,
        blockedAfter (bucket t) calls now (some client) =
            .ok (some (decide
              (wrongCodeLimit ≤ recentFailures (bucket t) calls now (bucket t client)))) ∧
          blockedAfter (bucket t) (calls.filter (isFailureOf (bucket t) (bucket t client))) now
              (some client) =
            blockedAfter (bucket t) calls now (some client) := by
  refine ⟨?_, fun client => ⟨blockedAfter_eq (bucket t) hclock hnow client, ?_⟩⟩
  · obtain ⟨s, hrun, htallied, -⟩ := run_keeps (windowed_kept (bucket t)) hclock hnow
    refine ⟨s, hrun, fun call => ?_⟩
    obtain ⟨s', reply, -, hstep, -⟩ := Limiter.step_eq (bucket t) htallied now call
    exact ⟨(s', reply), hstep⟩
  · have hclock' : Nondecreasing (calls.filter (isFailureOf (bucket t) (bucket t client))) :=
      hclock.sublist (List.filter_sublist.map Prod.fst)
    have hnow' : ∀ call ∈ calls.filter (isFailureOf (bucket t) (bucket t client)), call.1 ≤ now :=
      fun call hcall => hnow call (List.mem_of_mem_filter hcall)
    rw [blockedAfter_eq (bucket t) hclock' hnow' client, blockedAfter_eq (bucket t) hclock hnow client,
      recentFailures_own]

/-- Five failures of one client in two spellings, and one of another. -/
def sampleCalls : List (ℚ × Call) :=
  [(0, .recordFailure (some "1.2.3.4")), (1, .recordFailure (some "::ffff:1.2.3.4")),
    (2, .stamp "123456" none), (3, .recordFailure (some "64:ff9b::102:304")),
    (4, .recordFailure (some "2001:db8::1")), (5, .recordFailure (some " 1.2.3.4 ")),
    (6, .recordRefusal), (600, .recordFailure (some "1.2.3.4"))]

theorem blocked_iff_recent_sample :
    (∃ s, run (bucket .ascii) sampleCalls = .ok s ∧
        ∀ call, ∃ out, s.step (bucket .ascii) 600 call = .ok out) ∧
      ∀ client,
        blockedAfter (bucket .ascii) sampleCalls 600 (some client) =
            .ok (some (decide (wrongCodeLimit ≤
              recentFailures (bucket .ascii) sampleCalls 600 (bucket .ascii client)))) ∧
          blockedAfter (bucket .ascii)
              (sampleCalls.filter (isFailureOf (bucket .ascii) (bucket .ascii client))) 600
              (some client) =
            blockedAfter (bucket .ascii) sampleCalls 600 (some client) :=
  blocked_iff_recent .ascii sampleCalls 600 (by norm_num [Nondecreasing, sampleCalls])
    (by norm_num [sampleCalls])

end Codes
end Recto
