import Recto.Codes.WrongCodes

/-!
# Wrong codes per pairing code

A stamped code counts the public failures since its stamp, as long as the code
lives. A code that was never stamped here counts from the oldest mark, and that mark
stands at or before every failure of the last hour.
-/

namespace Recto
namespace Codes

/-- `exposed`, asked after the calls. -/
def exposedAfter (bucket : String → String) (calls : List (ℚ × Call)) (now : ℚ) (code : String) :
    Except PyError (Option Bool) := do
  let s ← run bucket calls
  let out ← s.exposed now code
  pure out.2.answer

/-- No call stamps the code. -/
def NeverStamped (code : String) (calls : List (ℚ × Call)) : Prop :=
  ∀ call ∈ calls, ∀ expiresAt, call.2 ≠ .stamp code expiresAt

/-- When a stamped code expires. -/
def expiry (stampedAt : ℚ) (expiresAt : Option ℚ) : ℚ :=
  expiresAt.getD (stampedAt + codeMaxTtlSeconds)

section Runs

variable {bucket : String → String} {calls : List (ℚ × Call)} {now : ℚ} {code : String}

/-- The total, the marks and the stamps against the calls of the run. -/
structure Exposing (bucket : String → String) (calls : List (ℚ × Call)) (now : ℚ) (c : Core) :
    Prop where
  total : c.total = (failures bucket calls).length
  known : ∀ mark ∈ c.marks, mark.2 ≤ c.total
  sorted : c.marks.Pairwise fun a b => a.2 ≤ b.2
  /-- Every failure of the last hour has a mark at or before it, at most a minute old then. -/
  covers : ∀ before failure after, failures bucket calls = before ++ failure :: after →
    now - codeMaxTtlSeconds ≤ failure.1 →
      ∃ mark ∈ c.marks, mark.2 ≤ before.length ∧ failure.1 - 60 < mark.1
  stamped : ∀ code before stampedAt expiresAt after,
    calls = before ++ (stampedAt, .stamp code expiresAt) :: after → NeverStamped code after →
      now < Core.forgetAfter stampedAt expiresAt →
        c.stamps.get? code =
          some ((failures bucket before).length, Core.forgetAfter stampedAt expiresAt)
  unstamped : ∀ code, NeverStamped code calls → c.stamps.get? code = none

/-! ## Time and calls keep it -/

theorem Exposing.later {c : Core} {a b : ℚ} (hab : a ≤ b) (h : Exposing bucket calls a c) :
    Exposing bucket calls b c where
  total := h.total
  known := h.known
  sorted := h.sorted
  covers := fun before failure after heq hrecent =>
    h.covers before failure after heq ((sub_le_sub_right hab _).trans hrecent)
  stamped := fun code before stampedAt expiresAt after heq hnever hlater =>
    h.stamped code before stampedAt expiresAt after heq hnever (hab.trans_lt hlater)
  unstamped := h.unstamped

theorem Exposing.aged {c d : Core} (hage : Core.Aged now c d) (h : Exposing bucket calls now c) :
    Exposing bucket calls now d := by
  obtain ⟨gone, hgone, hold⟩ := hage.marks
  have hsub : List.Sublist d.marks c.marks := by
    rw [hgone]
    exact List.sublist_append_right gone d.marks
  refine ⟨hage.total.trans h.total, ?_, h.sorted.sublist hsub, ?_, ?_, ?_⟩
  · intro mark hmark
    rw [hage.total]
    exact h.known mark (hsub.subset hmark)
  · intro before failure after heq hrecent
    obtain ⟨mark, hmark, hle, hlate⟩ := h.covers before failure after heq hrecent
    refine ⟨mark, ?_, hle, hlate⟩
    rw [hgone] at hmark
    refine (List.mem_append.mp hmark).resolve_left fun hleft => ?_
    have hpast := hold mark hleft
    linarith
  · intro code before stampedAt expiresAt after heq hnever hlater
    exact hage.stamped code _ hlater
      (h.stamped code before stampedAt expiresAt after heq hnever hlater)
  · intro code hnever
    exact hage.unstamped code (h.unstamped code hnever)

/-- The last of the calls is the one looked for, or comes after it. -/
theorem concat_eq_append_cons {α : Type*} {xs before after : List α} {x y : α}
    (h : xs ++ [x] = before ++ y :: after) :
    (after = [] ∧ x = y ∧ xs = before) ∨
      ∃ rest, after = rest ++ [x] ∧ xs = before ++ y :: rest := by
  rcases List.eq_nil_or_concat after with rfl | ⟨rest, last, rfl⟩
  · obtain ⟨hxs, hxy⟩ := List.append_inj' h rfl
    exact .inl ⟨rfl, List.singleton_inj.mp hxy, hxs⟩
  · have hsplit : xs ++ [x] = (before ++ y :: rest) ++ [last] := by
      rw [h, List.append_assoc, List.cons_append]
      simp
    obtain ⟨hxs, hlast⟩ := List.append_inj' hsplit rfl
    rw [List.singleton_inj.mp hlast]
    exact .inr ⟨rest, by simp, hxs⟩

/-- A call that stamps nothing leaves the stamps as they are described. -/
theorem Exposing.stamped_concat {c : Core} (h : Exposing bucket calls now c) {call : Call}
    (hcall : ∀ code expiresAt, call ≠ .stamp code expiresAt) (code : String)
    (before : List (ℚ × Call)) (stampedAt : ℚ) (expiresAt : Option ℚ) (after : List (ℚ × Call))
    (heq : calls ++ [(now, call)] = before ++ (stampedAt, .stamp code expiresAt) :: after)
    (hnever : NeverStamped code after) (hlater : now < Core.forgetAfter stampedAt expiresAt) :
    c.stamps.get? code =
      some ((failures bucket before).length, Core.forgetAfter stampedAt expiresAt) := by
  rcases concat_eq_append_cons heq with ⟨-, hlast, -⟩ | ⟨rest, rfl, hcalls⟩
  · exact absurd (Prod.ext_iff.mp hlast).2 (hcall code expiresAt)
  · exact h.stamped code before stampedAt expiresAt rest hcalls
      (fun earlier hmem => hnever earlier (by simp [hmem])) hlater

theorem NeverStamped.of_concat {call : ℚ × Call} (h : NeverStamped code (calls ++ [call])) :
    NeverStamped code calls :=
  fun earlier hmem => h earlier (by simp [hmem])

/-- A code that the last call stamps is not one that no call stamps. -/
theorem NeverStamped.ne_of_concat {other : String} {t : ℚ} {expiresAt : Option ℚ}
    (h : NeverStamped other (calls ++ [(t, .stamp code expiresAt)])) : other ≠ code := by
  rintro rfl
  exact h _ (List.mem_append_right _ (List.mem_singleton_self _)) expiresAt rfl

/-- A failure is counted, and has its mark. -/
theorem Exposing.failed {c : Core} (h : Exposing bucket calls now c) (client : String) :
    Exposing bucket (calls ++ [(now, .recordFailure (some client))]) now
      (c.act bucket now (.recordFailure (some client))) := by
  have hfailures : failures bucket (calls ++ [(now, .recordFailure (some client))]) =
      failures bucket calls ++ [(now, bucket client)] := failures_append bucket calls _
  refine ⟨?_, ?_, ?_, ?_, ?_, ?_⟩
  · simp [Core.act, hfailures, h.total]
  · intro mark hmark
    simp only [Core.act] at hmark ⊢
    split_ifs at hmark
    · rcases List.mem_append.mp hmark with hmark | hmark
      · exact (h.known mark hmark).trans (Nat.le_succ _)
      · rw [List.mem_singleton.mp hmark]
        exact Nat.le_succ _
    · exact (h.known mark hmark).trans (Nat.le_succ _)
  · simp only [Core.act]
    split_ifs
    · rw [List.pairwise_append]
      exact ⟨h.sorted, List.pairwise_singleton _ _, fun mark hmark last hlast => by
        rw [List.mem_singleton.mp hlast]
        exact h.known mark hmark⟩
    · exact h.sorted
  · intro before failure after heq hrecent
    rw [hfailures] at heq
    rcases concat_eq_append_cons heq with ⟨-, hlast, hbefore⟩ | ⟨rest, -, hcalls⟩
    · subst hlast hbefore
      simp only [Core.act]
      split_ifs with hmark
      · exact ⟨(now, c.total), by simp, h.total.le, by linarith⟩
      · -- the last mark is less than a minute old
        cases hlast : c.marks.getLast? with
        | none => simp [hlast] at hmark
        | some mark =>
          have hmem : mark ∈ c.marks := List.mem_of_getLast? hlast
          simp only [hlast, Option.all_some, decide_eq_true_eq, not_le] at hmark
          exact ⟨mark, hmem, (h.known mark hmem).trans h.total.le, by linarith⟩
    · obtain ⟨mark, hmark, hle, hlate⟩ := h.covers before failure rest hcalls hrecent
      refine ⟨mark, ?_, hle, hlate⟩
      simp only [Core.act]
      split_ifs
      · exact List.mem_append_left _ hmark
      · exact hmark
  · exact h.stamped_concat (by simp)
  · intro code hnever
    exact h.unstamped code hnever.of_concat

/-- A code is stamped with the failures so far. -/
theorem Exposing.stamp {c : Core} (h : Exposing bucket calls now c) (code : String)
    (expiresAt : Option ℚ) :
    Exposing bucket (calls ++ [(now, .stamp code expiresAt)]) now
      (c.act bucket now (.stamp code expiresAt)) := by
  have hfailures : failures bucket (calls ++ [(now, .stamp code expiresAt)]) =
      failures bucket calls := by
    rw [failures_append]
    simp [failures]
  refine ⟨?_, h.known, h.sorted, ?_, ?_, ?_⟩
  · rw [hfailures]
    exact h.total
  · rw [hfailures]
    exact h.covers
  · intro other before stampedAt expires after heq hnever hlater
    show (c.stamps.set code (c.total, Core.forgetAfter now expiresAt)).get? other = _
    rw [Dict.get?_set]
    rcases concat_eq_append_cons heq with ⟨-, hlast, rfl⟩ | ⟨rest, rfl, hcalls⟩
    · obtain ⟨rfl, hstamp⟩ := Prod.ext_iff.mp hlast
      obtain ⟨rfl, rfl⟩ := Call.stamp.inj hstamp
      rw [if_pos rfl, h.total]
    · rw [if_neg hnever.ne_of_concat]
      exact h.stamped other before stampedAt expires rest hcalls hnever.of_concat hlater
  · intro other hnever
    show (c.stamps.set code (c.total, Core.forgetAfter now expiresAt)).get? other = none
    rw [Dict.get?_set, if_neg hnever.ne_of_concat]
    exact h.unstamped other hnever.of_concat

/-- The other calls change nothing of it. -/
theorem Exposing.idle {c : Core} (h : Exposing bucket calls now c) {call : Call}
    (hstamp : ∀ code expiresAt, call ≠ .stamp code expiresAt)
    (hfailure : failures bucket [(now, call)] = []) :
    Exposing bucket (calls ++ [(now, call)]) now c := by
  have hfailures : failures bucket (calls ++ [(now, call)]) = failures bucket calls := by
    rw [failures_append, hfailure, List.append_nil]
  refine ⟨?_, h.known, h.sorted, ?_, h.stamped_concat hstamp, ?_⟩
  · rw [hfailures]
    exact h.total
  · rw [hfailures]
    exact h.covers
  · intro code hnever
    exact h.unstamped code hnever.of_concat

theorem exposing_kept (bucket : String → String) : Kept bucket (Exposing bucket) where
  start := fun _ => by
    constructor <;> simp [Limiter.core, Limiter.init, failures]
  later := fun _ _ _ _ hab h => h.later hab
  aged := fun _ _ _ _ hage h => h.aged hage
  acted := by
    intro calls now call c h
    cases call with
    | recordFailure client =>
      cases client with
      | none => exact h.idle (by simp) rfl
      | some client => exact h.failed client
    | stamp code expiresAt => exact h.stamp code expiresAt
    | _ => exact h.idle (by simp) rfl

/-! ## Answers -/

/-- `exposed` answers by the stamp, else by the oldest mark, of the limiter it has trimmed. -/
theorem exposedAfter_eq (bucket : String → String) (hclock : Nondecreasing calls)
    (hnow : ∀ call ∈ calls, call.1 ≤ now) (code : String) :
    ∃ c, Exposing bucket calls now c ∧
      exposedAfter bucket calls now code = .ok (some (decide (codePublicExposureBudget ≤
        (c.total : ℤ) -
          (match c.stamps.get? code with
            | some stamped => (stamped.1 : ℤ)
            | none => match c.marks with | mark :: _ => (mark.2 : ℤ) | [] => c.total)))) := by
  obtain ⟨s, hrun, htallied, hexposing⟩ := run_keeps (exposing_kept bucket) hclock hnow
  obtain ⟨t, htrim, hage, -⟩ := Limiter.trim_eq htallied now
  refine ⟨t.core, hexposing.aged hage, ?_⟩
  simp only [exposedAfter, hrun, Limiter.exposed, htrim, bind, Except.bind, pure, Except.pure]
  rfl

theorem lt_forgetAfter {stampedAt : ℚ} {expiresAt : Option ℚ} (h : now < expiry stampedAt expiresAt) :
    now < Core.forgetAfter stampedAt expiresAt := by
  have hmax : expiry stampedAt expiresAt ≤ max (expiry stampedAt expiresAt) stampedAt :=
    le_max_left _ _
  show now < max (expiry stampedAt expiresAt) stampedAt + 60
  linarith

/-- Among failures in order of time, those from a moment on stand together at the end. -/
theorem exists_first_since (minted : ℚ) {fs : List (ℚ × String)}
    (hsorted : fs.Pairwise fun a b => a.1 ≤ b.1) (hsome : fs.countP (fun f => minted ≤ f.1) ≠ 0) :
    ∃ before failure after, fs = before ++ failure :: after ∧ minted ≤ failure.1 ∧
      before.length + fs.countP (fun f => minted ≤ f.1) = fs.length := by
  induction fs with
  | nil => simp at hsome
  | cons f fs ih =>
    obtain ⟨hfirst, hsorted⟩ := List.pairwise_cons.mp hsorted
    by_cases hf : minted ≤ f.1
    · have hall : fs.countP (fun f => decide (minted ≤ f.1)) = fs.length := by
        rw [List.countP_eq_length]
        intro g hg
        exact decide_eq_true (hf.trans (hfirst g hg))
      refine ⟨[], f, fs, rfl, hf, ?_⟩
      rw [List.countP_cons_of_pos (by simpa using hf), hall]
      simp
    · rw [List.countP_cons_of_neg (by simpa using hf)] at hsome ⊢
      obtain ⟨before, failure, after, rfl, hmin, hlen⟩ := ih hsorted hsome
      exact ⟨f :: before, failure, after, rfl, hmin, by simp at hlen ⊢; omega⟩

end Runs

/-- A stamped code is exposed exactly by the public failures since its stamp, at any time before it
expires; a code never stamped here is exposed at the latest by those since any moment of the last
hour. -/
theorem exposed_iff_failures (t : CharTables) (code : String) (now : ℚ) :
    (∀ before stampedAt expiresAt after,
      let calls := before ++ (stampedAt, .stamp code expiresAt) :: after
      Nondecreasing calls → (∀ call ∈ calls, call.1 ≤ now) → NeverStamped code after →
        now < expiry stampedAt expiresAt →
          exposedAfter (bucket t) calls now code =
            .ok (some (decide (codePublicExposureBudget ≤ (failures (bucket t) after).length)))) ∧
      ∀ calls minted, Nondecreasing calls → (∀ call ∈ calls, call.1 ≤ now) →
        NeverStamped code calls → now - codeMaxTtlSeconds ≤ minted →
          codePublicExposureBudget ≤
              (failures (bucket t) calls).countP (fun failure => decide (minted ≤ failure.1)) →
            exposedAfter (bucket t) calls now code = .ok (some true) := by
  refine ⟨?_, ?_⟩
  · intro before stampedAt expiresAt after calls hclock hnow hnever hlive
    obtain ⟨c, hc, hanswer⟩ := exposedAfter_eq (bucket t) hclock hnow code
    have hstamp := hc.stamped code before stampedAt expiresAt after rfl hnever (lt_forgetAfter hlive)
    have htotal : c.total =
        (failures (bucket t) before).length + (failures (bucket t) after).length := by
      have hcons : failures (bucket t) ((stampedAt, .stamp code expiresAt) :: after) =
          failures (bucket t) after := rfl
      rw [hc.total, failures_append, hcons, List.length_append]
    rw [hanswer, hstamp, htotal]
    push_cast
    rw [add_sub_cancel_left]
  · intro calls minted hclock hnow hnever hmint hbudget
    obtain ⟨c, hc, hanswer⟩ := exposedAfter_eq (bucket t) hclock hnow code
    have hsome : (failures (bucket t) calls).countP (fun f => decide (minted ≤ f.1)) ≠ 0 := by
      rw [codePublicExposureBudget] at hbudget
      omega
    obtain ⟨before, failure, after, hsplit, hmin, hlen⟩ :=
      exists_first_since minted (failures_sorted hclock) hsome
    obtain ⟨mark, hmark, hle, -⟩ := hc.covers before failure after hsplit (hmint.trans hmin)
    rw [hanswer, hc.unstamped code hnever]
    cases hmarks : c.marks with
    | nil => simp [hmarks] at hmark
    | cons first rest =>
      -- the oldest mark counts from no later than the mark of the first of these failures
      have hfirst : first.2 ≤ mark.2 := by
        have hsorted := hc.sorted
        rw [hmarks] at hmark hsorted
        rcases List.mem_cons.mp hmark with rfl | hrest
        · exact le_rfl
        · exact (List.pairwise_cons.mp hsorted).1 mark hrest
      have hcount : codePublicExposureBudget ≤ (c.total : ℤ) - first.2 := by
        rw [hc.total]
        omega
      simp [hcount]

/-- A thousand failures of one client. -/
def sampleGuesses : List (ℚ × Call) := List.replicate 1000 (5, .recordFailure (some "1.2.3.4"))

theorem failures_replicate (bucket : String → String) (n : ℕ) (t : ℚ) (client : String) :
    failures bucket (List.replicate n (t, .recordFailure (some client))) =
      List.replicate n (t, bucket client) := by
  simp [failures]

theorem nondecreasing_replicate (n : ℕ) (call : ℚ × Call) :
    Nondecreasing (List.replicate n call) := by
  rw [Nondecreasing, List.map_replicate, List.pairwise_replicate]
  exact .inr le_rfl

theorem exposed_iff_failures_sample :
    exposedAfter (bucket .ascii) ((0, .stamp "123456" none) :: sampleGuesses) 6 "123456" =
        .ok (some (decide (codePublicExposureBudget ≤
          (failures (bucket .ascii) sampleGuesses).length))) ∧
      exposedAfter (bucket .ascii) sampleGuesses 6 "654321" = .ok (some true) := by
  have hmem : ∀ call ∈ sampleGuesses, call = (5, .recordFailure (some "1.2.3.4")) :=
    fun call hcall => List.eq_of_mem_replicate hcall
  have hnever : ∀ code, NeverStamped code sampleGuesses := by
    intro code call hcall expiresAt
    rw [hmem call hcall]
    simp
  have hclock : Nondecreasing sampleGuesses := nondecreasing_replicate 1000 _
  refine ⟨(exposed_iff_failures .ascii "123456" 6).1 [] 0 none sampleGuesses ?_ ?_ (hnever _) ?_,
    (exposed_iff_failures .ascii "654321" 6).2 sampleGuesses 5 hclock ?_ (hnever _) ?_ ?_⟩
  · refine List.pairwise_cons.mpr ⟨?_, hclock⟩
    intro time htime
    obtain ⟨call, hcall, rfl⟩ := List.mem_map.mp htime
    rw [hmem call hcall]
    norm_num
  · intro call hcall
    rcases List.mem_cons.mp hcall with rfl | hcall
    · norm_num
    · rw [hmem call hcall]
      norm_num
  · norm_num [expiry, codeMaxTtlSeconds]
  · intro call hcall
    rw [hmem call hcall]
    norm_num
  · norm_num [codeMaxTtlSeconds]
  · rw [sampleGuesses, failures_replicate, List.countP_replicate]
    simp only [le_refl, decide_true, if_true]
    rfl

end Codes
end Recto
