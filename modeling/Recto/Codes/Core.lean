import Mathlib.Data.List.TakeWhile
import Recto.Data.Tally
import Recto.Codes.AttemptLimiter

/-!
# What the limiter's answers are read from

The window, its counters, the total, the marks and the stamps are the core of the
limiter. A call first lets the core age (what is past its time leaves, in any amount)
and then acts on it; whatever a core may always do so is true after every run.
-/

namespace Recto
namespace Codes

/-- The part of the limiter that the answers on clients and codes are read from. -/
structure Core where
  events : List (ℚ × String)
  counts : Dict String ℤ
  total : ℕ
  marks : List (ℚ × ℕ)
  stamps : Dict String (ℕ × ℚ)

def Limiter.core (s : Limiter) : Core := ⟨s.events, s.counts, s.total, s.marks, s.stamps⟩

namespace Core

/-- The counters are those of the window. -/
def Tallied (c : Core) : Prop := Tallies (c.events.map Prod.snd) c.counts

/-- Some of what is past its time has left, and nothing else. -/
structure Aged (now : ℚ) (c d : Core) : Prop where
  events : ∃ gone, c.events = gone ++ d.events ∧
    ∀ event ∈ gone, event.1 ≤ now - wrongCodeWindowSeconds
  counts : c.Tallied → d.Tallied
  total : d.total = c.total
  marks : ∃ gone, c.marks = gone ++ d.marks ∧
    ∀ mark ∈ gone, mark.1 ≤ now - codeMaxTtlSeconds - 60
  stamped : ∀ code stamp, now < stamp.2 →
    c.stamps.get? code = some stamp → d.stamps.get? code = some stamp
  unstamped : ∀ code, c.stamps.get? code = none → d.stamps.get? code = none

theorem Aged.refl (now : ℚ) (c : Core) : Aged now c c where
  events := ⟨[], rfl, by simp⟩
  counts := id
  total := rfl
  marks := ⟨[], rfl, by simp⟩
  stamped := fun _ _ _ h => h
  unstamped := fun _ h => h

/-- When a stamp is forgotten. -/
def forgetAfter (now : ℚ) (expiresAt : Option ℚ) : ℚ :=
  max (expiresAt.getD (now + codeMaxTtlSeconds)) now + 60

/-- What a call does to the core, once the core has aged. -/
def act (bucket : String → String) (now : ℚ) (call : Call) (c : Core) : Core :=
  match call with
  | .recordFailure (some client) =>
      { c with
        events := c.events ++ [(now, bucket client)]
        counts := c.counts.set (bucket client) ((c.counts.get? (bucket client)).getD 0 + 1)
        total := c.total + 1
        marks :=
          if c.marks.getLast?.all fun mark => decide (60 ≤ now - mark.1) then
            c.marks ++ [(now, c.total)]
          else c.marks }
  | .stamp code expiresAt =>
      { c with stamps := c.stamps.set code (c.total, forgetAfter now expiresAt) }
  | _ => c

/-- A call keeps the counters those of the window. -/
theorem Tallied.act {c : Core} (h : c.Tallied) (bucket : String → String) (now : ℚ) (call : Call) :
    (c.act bucket now call).Tallied := by
  cases call with
  | recordFailure client =>
    cases client with
    | none => exact h
    | some client =>
      show Tallies ((c.events ++ [(now, bucket client)]).map Prod.snd) _
      rw [List.map_append]
      exact h.enter (bucket client)
  | _ => exact h

end Core

/-! ## Trimming -/

theorem trimEvents_eq (horizon : ℚ) (events : List (ℚ × String)) (counts : Dict String ℤ)
    (h : Tallies (events.map Prod.snd) counts) :
    ∃ left, trimEvents horizon events counts =
        .ok (events.dropWhile fun event => decide (event.1 ≤ horizon), left) ∧
      Tallies ((events.dropWhile fun event => decide (event.1 ≤ horizon)).map Prod.snd) left := by
  induction events generalizing counts with
  | nil => exact ⟨counts, rfl, h⟩
  | cons event events ih =>
    obtain ⟨t, bucket⟩ := event
    rw [trimEvents, List.dropWhile_cons]
    by_cases hold : t ≤ horizon
    · obtain ⟨n, hn, hrest⟩ := Tallies.leave h
      simp only [hold, hn, decide_true, if_true]
      exact ih _ hrest
    · simp only [hold, decide_false, Bool.false_eq_true, if_false]
      exact ⟨counts, rfl, h⟩

/-- A stamp that is not due stays. -/
theorem trimStamps_stamped {now : ℚ} {code : String} {stamp : ℕ × ℚ} (hlater : now < stamp.2)
    (order : List (ℚ × String)) {stamps : Dict String (ℕ × ℚ)}
    (h : stamps.get? code = some stamp) :
    (trimStamps now order stamps).2.get? code = some stamp := by
  induction order generalizing stamps with
  | nil => exact h
  | cons entry order ih =>
    obtain ⟨t, other⟩ := entry
    rw [trimStamps]
    split_ifs with hdue hforget
    · refine ih ?_
      rw [Dict.get?_erase, if_neg, h]
      rintro rfl
      rw [h, Option.map_some, Option.some.injEq] at hforget
      exact absurd hdue (by rw [← hforget]; exact not_le.mpr hlater)
    · exact ih h
    · exact h

/-- No stamp appears. -/
theorem trimStamps_unstamped (now : ℚ) (code : String) (order : List (ℚ × String))
    {stamps : Dict String (ℕ × ℚ)} (h : stamps.get? code = none) :
    (trimStamps now order stamps).2.get? code = none := by
  induction order generalizing stamps with
  | nil => exact h
  | cons entry order ih =>
    obtain ⟨t, other⟩ := entry
    rw [trimStamps]
    split_ifs
    · refine ih ?_
      rw [Dict.get?_erase, h, ite_self]
    · exact ih h
    · exact h

theorem exists_dropWhile_le {α : Type*} (time : α → ℚ) (horizon : ℚ) (queue : List α) :
    ∃ gone, queue = gone ++ queue.dropWhile (fun x => decide (time x ≤ horizon)) ∧
      ∀ x ∈ gone, time x ≤ horizon := by
  refine ⟨queue.takeWhile fun x => decide (time x ≤ horizon), ?_, ?_⟩
  · rw [List.takeWhile_append_dropWhile]
  · intro x hx
    exact of_decide_eq_true (List.mem_takeWhile_imp (p := fun x => decide (time x ≤ horizon)) hx)

/-- Trimming never raises where the counters are those of the window, and only lets the core age. -/
theorem Limiter.trim_eq {s : Limiter} (h : s.core.Tallied) (now : ℚ) :
    ∃ t, s.trim now = .ok t ∧ Core.Aged now s.core t.core ∧
      t.events = s.events.dropWhile fun event => decide (event.1 ≤ now - wrongCodeWindowSeconds) := by
  obtain ⟨left, hevents, hleft⟩ := trimEvents_eq (now - wrongCodeWindowSeconds) s.events s.counts h
  refine ⟨_, by rw [Limiter.trim, hevents]; rfl, ?_, rfl⟩
  exact {
    events := exists_dropWhile_le Prod.fst _ _
    counts := fun _ => hleft
    total := rfl
    marks := exists_dropWhile_le Prod.fst _ _
    stamped := fun _ _ hlater hstamp => trimStamps_stamped hlater s.stampOrder hstamp
    unstamped := fun code hnone => trimStamps_unstamped now code s.stampOrder hnone }

/-! ## One call -/

/-- A call never raises where the counters are those of the window: the core ages and the call acts
on it. -/
theorem Limiter.step_eq (bucket : String → String) {s : Limiter} (h : s.core.Tallied) (now : ℚ)
    (call : Call) :
    ∃ s' reply aged, s.step bucket now call = .ok (s', reply) ∧ Core.Aged now s.core aged ∧
      s'.core = aged.act bucket now call := by
  obtain ⟨t, htrim, haged, -⟩ := Limiter.trim_eq h now
  cases call with
  | recordFailure client =>
    cases client with
    | none => exact ⟨s, {}, s.core, rfl, Core.Aged.refl now s.core, rfl⟩
    | some client =>
      simp only [Limiter.step, Limiter.recordFailure, htrim, bind, Except.bind]
      by_cases hwarn : wrongCodePublicAlert ≤ (t.events ++ [(now, bucket client)]).length ∧
          Limiter.longSince now t.alertedAt = true
      · exact ⟨_, _, t.core, if_pos hwarn, haged, rfl⟩
      · exact ⟨_, _, t.core, if_neg hwarn, haged, rfl⟩
  | recordRefusal =>
    refine ⟨(s.recordRefusal now).1, (s.recordRefusal now).2, s.core, rfl,
      Core.Aged.refl now s.core, ?_⟩
    rw [Limiter.recordRefusal]
    split_ifs <;> rfl
  | blocked client =>
    cases client with
    | none => exact ⟨s, _, s.core, rfl, Core.Aged.refl now s.core, rfl⟩
    | some client =>
      simp only [Limiter.step, Limiter.blocked, htrim, bind, Except.bind]
      exact ⟨t, _, t.core, rfl, haged, rfl⟩
  | stamp code expiresAt =>
    simp only [Limiter.step, Limiter.stamp, htrim, bind, Except.bind]
    exact ⟨_, _, t.core, rfl, haged, rfl⟩
  | exposed code =>
    simp only [Limiter.step, Limiter.exposed, htrim, bind, Except.bind]
    exact ⟨t, _, t.core, rfl, haged, rfl⟩
  | recordSpent code => exact ⟨_, _, s.core, rfl, Core.Aged.refl now s.core, rfl⟩
  | wasSpent code =>
    simp only [Limiter.step, Limiter.wasSpent, htrim, bind, Except.bind]
    exact ⟨t, _, t.core, rfl, haged, rfl⟩

/-! ## Runs -/

/-- A statement on the calls so far, the time and the core that time and calls keep true. -/
structure Kept (bucket : String → String) (Inv : List (ℚ × Call) → ℚ → Core → Prop) : Prop where
  start : ∀ now, Inv [] now Limiter.init.core
  later : ∀ calls c a b, a ≤ b → Inv calls a c → Inv calls b c
  aged : ∀ calls now c d, Core.Aged now c d → Inv calls now c → Inv calls now d
  acted : ∀ calls now call c, Inv calls now c → Inv (calls ++ [(now, call)]) now (c.act bucket now call)

theorem nondecreasing_concat {calls : List (ℚ × Call)} {call : ℚ × Call} :
    Nondecreasing (calls ++ [call]) ↔
      Nondecreasing calls ∧ ∀ earlier ∈ calls, earlier.1 ≤ call.1 := by
  simp [Nondecreasing, List.pairwise_append]

/-- No run raises, and what time and calls keep true is true of where it ends. -/
theorem run_keeps {bucket : String → String} {Inv : List (ℚ × Call) → ℚ → Core → Prop}
    (hkept : Kept bucket Inv) {calls : List (ℚ × Call)} (hclock : Nondecreasing calls) {now : ℚ}
    (hnow : ∀ call ∈ calls, call.1 ≤ now) :
    ∃ s, run bucket calls = .ok s ∧ s.core.Tallied ∧ Inv calls now s.core := by
  induction calls using List.reverseRecOn generalizing now with
  | nil => exact ⟨.init, rfl, Tallies.nil, hkept.start now⟩
  | append_singleton calls call ih =>
    obtain ⟨hclock, hbefore⟩ := nondecreasing_concat.mp hclock
    obtain ⟨s, hrun, htallied, hinv⟩ := ih hclock hbefore
    obtain ⟨s', reply, aged, hstep, hage, hcore⟩ := Limiter.step_eq bucket htallied call.1 call.2
    refine ⟨s', ?_, ?_, ?_⟩
    · rw [run, foldlM_concat_eq_ok]
      exact ⟨s, hrun, by rw [hstep]; rfl⟩
    · rw [hcore]
      exact (hage.counts htallied).act bucket call.1 call.2
    · refine hkept.later _ _ _ _ (hnow call (by simp)) ?_
      rw [hcore]
      exact hkept.acted _ _ _ _ (hkept.aged _ _ _ _ hage hinv)

end Codes
end Recto
