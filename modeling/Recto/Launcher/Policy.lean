import Recto.Launcher.Run

/-!
# What a supervision run should do

The milestones of a run are what it reports, the children it spawns, what it
learns of them and how long it sleeps. The policy says which milestones a run
may show in its rounds, from what its children exited with.
-/

namespace Recto
namespace Launcher

open Restart

/-- What can be seen of a run. -/
inductive Milestone where
  | emitted (notice : Notice)
  | spawned (proc : ℕ)
  | alive (proc : ℕ)
  | exited (proc : ℕ) (rc : ℤ)
  | slept (delay : ℤ)
  deriving DecidableEq, Repr

namespace Milestone

/-- The code a child exited with. -/
def code? : Milestone → Option ℤ
  | exited _ rc => some rc
  | _ => none

/-- The number of a restart that was decided on. -/
def decision? : Milestone → Option ℤ
  | emitted (.restartAttempt attempt ..) => some attempt
  | _ => none

def delay? : Milestone → Option ℤ
  | slept delay => some delay
  | _ => none

end Milestone

open Milestone

/-- The codes of the children so far. -/
def codes (ms : List Milestone) : List ℤ := ms.filterMap code?

/-- The numbers of the restarts decided on so far. -/
def decisions (ms : List Milestone) : List ℤ := ms.filterMap decision?

/-- The delays slept so far. -/
def delays (ms : List Milestone) : List ℤ := ms.filterMap delay?

/-- A notice that ends a run. -/
def Notice.IsFinal (notice : Notice) : Prop :=
  notice.kind = "run.final_exit" ∨ notice.kind = "max_attempts_reached"

/-- A notice about one child. -/
def Notice.AboutChild (notice : Notice) : Prop :=
  notice.kind = "child.spawn" ∨ notice.kind = "child.exit"

/-- The code of the child ends the run: the policy wants no restart, or the limit leaves none. -/
def Stops (restart : RestartSpec) (number : ℤ) (rc : ℤ) : Prop :=
  shouldRestart rc restart.toRestartFields = false ∨
    0 < restart.maxAttempts ∧ restart.maxAttempts < number

/-- A run follows the policy. The restarts of the codes seen are numbered from one. -/
structure FollowsPolicy (restart : RestartSpec) (rounds polls : ℕ) (ms : List Milestone)
    (o : Ended Raised ℤ) : Prop where
  /-- Between two children the first one exits. -/
  spawn_after_exit : ∀ before p between q after,
    ms = before ++ spawned p :: (between ++ spawned q :: after) → ∃ rc, exited p rc ∈ between
  /-- Where a child is spawned, each child before was followed by one decision and its sleep. -/
  slept_between : ∀ before q after, ms = before ++ spawned q :: after →
    decisions before = (List.range (codes before).length).map (fun k : ℕ => (k : ℤ) + 1) ∧
      (delays before).map Except.ok = (List.range (codes before).length).map fun k : ℕ =>
        nextDelay ((k : ℤ) + 1) restart.toRestartFields
  slept_all : (delays ms).map Except.ok =
    (decisions ms).map fun k => nextDelay k restart.toRestartFields
  /-- A code that stops the run is the last one, and returned. -/
  stops_at : ∀ before p rc after, ms = before ++ exited p rc :: after →
    Stops restart ((codes before).length + 1) rc → o = .value rc ∧ ∀ q, spawned q ∉ after
  /-- What is returned is the code of the last child, and it stops the run. -/
  returned : ∀ rc, o = .value rc → ∃ before p after, ms = before ++ exited p rc :: after ∧
    Stops restart ((codes before).length + 1) rc ∧ codes after = []
  /-- A run that returns reports once how it ended, as the last thing it reports. -/
  final_last : ∀ rc, o = .value rc → ∃ before notice, ms = before ++ [emitted notice] ∧
    notice.IsFinal ∧ ∀ earlier, emitted earlier ∈ before → ¬earlier.IsFinal
  no_final : (∀ rc, o ≠ .value rc) → ∀ notice, emitted notice ∈ ms → ¬notice.IsFinal
  not_raised : ∀ e, o ≠ .raised e
  /-- A run is cut only after all its rounds, or while a child lives on through all the polls. -/
  cut_late : o = .cut → (codes ms).length = rounds ∨
    ∃ before p, ms = before ++ spawned p :: List.replicate polls (alive p)

/-! ## The milestones of a run -/

/-- One child from its spawn to its exit. -/
def childRun (spawn exit : Notice) (p lives : ℕ) (rc : ℤ) : List Milestone :=
  emitted spawn :: spawned p :: (List.replicate lives (alive p) ++ [exited p rc, emitted exit])

/-- The milestones the policy admits, from a number of restarts on. -/
inductive Follows (restart : RestartSpec) (polls : ℕ) :
    ℕ → ℤ → List Milestone → Ended Raised ℤ → Prop
  | used (attempt : ℤ) : Follows restart polls 0 attempt [] .cut
  | running {rounds : ℕ} {spawn : Notice} (attempt : ℤ) (p : ℕ) (hspawn : spawn.AboutChild) :
      Follows restart polls (rounds + 1) attempt
        (emitted spawn :: spawned p :: List.replicate polls (alive p)) .cut
  | final {rounds : ℕ} {spawn exit : Notice} {attempt rc : ℤ} (p lives : ℕ)
      (hspawn : spawn.AboutChild) (hexit : exit.AboutChild)
      (hstop : shouldRestart rc restart.toRestartFields = false) :
      Follows restart polls (rounds + 1) attempt
        (childRun spawn exit p lives rc ++ [emitted (.finalExit rc attempt)]) (.value rc)
  | exhausted {rounds : ℕ} {spawn exit : Notice} {attempt rc : ℤ} (p lives : ℕ)
      (hspawn : spawn.AboutChild) (hexit : exit.AboutChild)
      (hlimit : 0 < restart.maxAttempts ∧ restart.maxAttempts < attempt + 1) :
      Follows restart polls (rounds + 1) attempt
        (childRun spawn exit p lives rc ++
          [emitted (.maxAttemptsReached restart.maxAttempts rc)]) (.value rc)
  | again {rounds : ℕ} {spawn exit : Notice} {attempt rc delay : ℤ} {ms : List Milestone}
      {o : Ended Raised ℤ} (p lives : ℕ) (hspawn : spawn.AboutChild) (hexit : exit.AboutChild)
      (hgo : ¬Stops restart (attempt + 1) rc)
      (hdelay : nextDelay (attempt + 1) restart.toRestartFields = .ok delay)
      (hrest : Follows restart polls rounds (attempt + 1) ms o) :
      Follows restart polls (rounds + 1) attempt
        (childRun spawn exit p lives rc ++
          emitted (.restartAttempt (attempt + 1) delay rc restart.backoff) :: slept delay :: ms) o

/-! ## Reading the policy off -/

section
variable {restart : RestartSpec} {rounds polls lives p : ℕ} {attempt rc : ℤ}
  {spawn exit notice : Notice} {ms : List Milestone} {o : Ended Raised ℤ}

theorem Notice.AboutChild.not_final (h : notice.AboutChild) : ¬notice.IsFinal := by
  cases notice <;> simp_all [Notice.AboutChild, Notice.IsFinal, Notice.kind]

theorem Notice.AboutChild.no_decision (h : notice.AboutChild) :
    decision? (emitted notice) = none := by
  cases notice <;> simp_all [Notice.AboutChild, Notice.kind, decision?]

/-- Past what does not hold an item, the item stands in the rest. -/
theorem exists_rest_of_notMem {β : Type} {xs rest before after : List β} {b : β} (hb : b ∉ xs)
    (h : xs ++ rest = before ++ b :: after) :
    ∃ before', before = xs ++ before' ∧ rest = before' ++ b :: after := by
  obtain ⟨before', rfl, hrest⟩ | ⟨after', rfl, hafter⟩ := List.append_eq_append_iff.mp h
  · exact ⟨before', rfl, hrest⟩
  · cases after' with
    | nil => exact ⟨[], by simp, by simpa using hafter.symm⟩
    | cons first after' =>
      obtain ⟨rfl, -⟩ := List.cons.inj hafter
      exact absurd (List.mem_append_right _ List.mem_cons_self) hb

@[simp] theorem codes_append (ms ms' : List Milestone) : codes (ms ++ ms') = codes ms ++ codes ms' :=
  List.filterMap_append

@[simp] theorem decisions_append (ms ms' : List Milestone) :
    decisions (ms ++ ms') = decisions ms ++ decisions ms' :=
  List.filterMap_append

@[simp] theorem delays_append (ms ms' : List Milestone) :
    delays (ms ++ ms') = delays ms ++ delays ms' :=
  List.filterMap_append

theorem codes_lives (lives p : ℕ) : codes (List.replicate lives (alive p)) = [] := by
  simp [codes, List.filterMap_eq_nil_iff, code?]

theorem decisions_lives (lives p : ℕ) : decisions (List.replicate lives (alive p)) = [] := by
  simp [decisions, List.filterMap_eq_nil_iff, decision?]

theorem delays_lives (lives p : ℕ) : delays (List.replicate lives (alive p)) = [] := by
  simp [delays, List.filterMap_eq_nil_iff, delay?]

theorem codes_childRun : codes (childRun spawn exit p lives rc) = [rc] := by
  have hlives := codes_lives lives p
  rw [codes] at hlives
  simp [childRun, codes, List.filterMap_cons, code?, hlives]

theorem decisions_childRun (hspawn : spawn.AboutChild) (hexit : exit.AboutChild) :
    decisions (childRun spawn exit p lives rc) = [] := by
  have hlives := decisions_lives lives p
  rw [decisions] at hlives
  rw [childRun, decisions, List.filterMap_cons_none hspawn.no_decision,
    List.filterMap_cons_none rfl, List.filterMap_append, hlives, List.filterMap_cons_none rfl,
    List.filterMap_cons_none hexit.no_decision, List.filterMap_nil, List.nil_append]

theorem delays_childRun : delays (childRun spawn exit p lives rc) = [] := by
  have hlives := delays_lives lives p
  rw [delays] at hlives
  simp [childRun, delays, List.filterMap_cons, delay?, hlives]

/-- Where a child is spawned in a run that begins with one child's: it is that child, or comes
after. -/
theorem spawned_cases {rest before after : List Milestone} {q : ℕ}
    (h : childRun spawn exit p lives rc ++ rest = before ++ spawned q :: after) :
    (before = [emitted spawn] ∧ q = p ∧
      after = List.replicate lives (alive p) ++ [exited p rc, emitted exit] ++ rest) ∨
    ∃ before', before = childRun spawn exit p lives rc ++ before' ∧
      rest = before' ++ spawned q :: after := by
  rw [childRun, List.cons_append, List.cons_append] at h
  cases before with
  | nil => cases (List.cons.inj h).1
  | cons first before =>
    obtain ⟨rfl, htail⟩ := List.cons.inj h
    cases before with
    | nil =>
      obtain ⟨hq, hafter⟩ := List.cons.inj htail
      exact .inl ⟨rfl, (spawned.inj hq).symm, hafter.symm⟩
    | cons second before =>
      obtain ⟨rfl, hrest⟩ := List.cons.inj htail
      obtain ⟨before', rfl, hafter⟩ := exists_rest_of_notMem (by simp) hrest
      exact .inr ⟨before', by simp [childRun], hafter⟩

/-- Likewise where a child exits. -/
theorem exited_cases {rest before after : List Milestone} {q : ℕ} {rc' : ℤ}
    (h : childRun spawn exit p lives rc ++ rest = before ++ exited q rc' :: after) :
    (codes before = [] ∧ rc' = rc ∧ after = emitted exit :: rest) ∨
    ∃ before', before = childRun spawn exit p lives rc ++ before' ∧
      rest = before' ++ exited q rc' :: after := by
  have hsplit : (emitted spawn :: spawned p :: List.replicate lives (alive p)) ++
      exited p rc :: emitted exit :: rest = before ++ exited q rc' :: after := by
    rw [← h]
    simp [childRun]
  obtain ⟨before', rfl, hrest⟩ := exists_rest_of_notMem (by simp) hsplit
  cases before' with
  | nil =>
    obtain ⟨hq, hafter⟩ := List.cons.inj hrest
    refine .inl ⟨?_, (exited.inj hq).2.symm, hafter.symm⟩
    have hlives := codes_lives lives p
    rw [codes] at hlives
    simp [codes, List.filterMap_cons, code?, hlives]
  | cons first before' =>
    obtain ⟨rfl, htail⟩ := List.cons.inj hrest
    have htail : [emitted exit] ++ rest = before' ++ exited q rc' :: after := htail
    obtain ⟨before'', rfl, hrest'⟩ := exists_rest_of_notMem (by simp) htail
    exact .inr ⟨before'', by simp [childRun], hrest'⟩

/-- A restart is neither a spawn nor an exit. -/
theorem exists_rest_of_restart {before after : List Milestone} {b : Milestone} {delay : ℤ}
    (hb : b ∉ [emitted notice, slept delay])
    (h : emitted notice :: slept delay :: ms = before ++ b :: after) :
    ∃ before', before = emitted notice :: slept delay :: before' ∧ ms = before' ++ b :: after :=
  exists_rest_of_notMem hb h

/-! ## The policy, item by item -/

theorem Follows.spawn_after_exit (h : Follows restart polls rounds attempt ms o) :
    ∀ before q between q' after,
      ms = before ++ spawned q :: (between ++ spawned q' :: after) → ∃ rc, exited q rc ∈ between := by
  -- In the first child's part the next spawn lies past its exit; elsewhere the rest has it.
  have hround : ∀ {lives p : ℕ} {spawn exit : Notice} {rc : ℤ} {rest : List Milestone},
      (∀ before q between q' after,
        rest = before ++ spawned q :: (between ++ spawned q' :: after) →
          ∃ rc, exited q rc ∈ between) →
      ∀ before q between q' after,
        childRun spawn exit p lives rc ++ rest =
          before ++ spawned q :: (between ++ spawned q' :: after) →
            ∃ rc, exited q rc ∈ between := by
    intro lives p spawn exit rc rest hrest before q between q' after hms
    obtain ⟨-, rfl, hafter⟩ | ⟨before', -, hrest'⟩ := spawned_cases hms
    · obtain ⟨between', rfl, -⟩ := exists_rest_of_notMem (by simp) hafter.symm
      exact ⟨rc, by simp⟩
    · exact hrest before' q between q' after hrest'
  have hshort : ∀ {xs : List Milestone}, (∀ q, spawned q ∉ xs) → ∀ before q between q' after,
      xs = before ++ spawned q :: (between ++ spawned q' :: after) →
        ∃ rc, exited q rc ∈ between := by
    rintro xs hxs before q between q' after rfl
    exact absurd (List.mem_append_right _ List.mem_cons_self) (hxs q)
  induction h with
  | used attempt => exact hshort (by simp)
  | running attempt p hspawn =>
    intro before q between q' after hms
    have hcount := congrArg (List.countP fun m => m matches .spawned _) hms
    simp [List.countP_replicate] at hcount
    omega
  | final p lives hspawn hexit hstop => exact hround (hshort (by simp))
  | exhausted p lives hspawn hexit hlimit => exact hround (hshort (by simp))
  | again p lives hspawn hexit hgo hdelay hrest ih =>
    refine hround fun before q between q' after hms => ?_
    obtain ⟨before', rfl, hafter⟩ := exists_rest_of_restart (by simp) hms
    exact ih before' q between q' after hafter

/-- The delays of a number of restarts, after some. -/
def delaysFrom (restart : RestartSpec) (attempt : ℤ) (count : ℕ) : List (Except RestartError ℤ) :=
  (List.range count).map fun k : ℕ => nextDelay (attempt + k + 1) restart.toRestartFields

theorem delaysFrom_succ (attempt : ℤ) (count : ℕ) : delaysFrom restart attempt (count + 1) =
    nextDelay (attempt + 1) restart.toRestartFields :: delaysFrom restart (attempt + 1) count := by
  simp only [delaysFrom, List.range_succ_eq_map, List.map_cons, List.map_map, Nat.cast_zero,
    add_zero, List.cons.injEq, true_and]
  refine List.map_congr_left fun k _ => ?_
  simp only [Function.comp_apply, Nat.succ_eq_add_one, Nat.cast_add, Nat.cast_one]
  ring_nf

theorem numbersFrom_succ (attempt : ℤ) (count : ℕ) :
    (List.range (count + 1)).map (fun k : ℕ => attempt + (k : ℤ) + 1) =
      (attempt + 1) :: (List.range count).map fun k : ℕ => attempt + 1 + (k : ℤ) + 1 := by
  simp only [List.range_succ_eq_map, List.map_cons, List.map_map, Nat.cast_zero, add_zero,
    List.cons.injEq, true_and]
  refine List.map_congr_left fun k _ => ?_
  simp only [Function.comp_apply, Nat.succ_eq_add_one, Nat.cast_add, Nat.cast_one]
  ring

/-- The notice of a spawn neither ends a round nor decides on one. -/
theorem Notice.AboutChild.numbers {spawn : Notice} (h : spawn.AboutChild) (attempt : ℤ) :
    decisions [emitted spawn] =
        (List.range (codes [emitted spawn]).length).map (fun k : ℕ => attempt + (k : ℤ) + 1) ∧
      (delays [emitted spawn]).map Except.ok =
        delaysFrom restart attempt (codes [emitted spawn]).length := by
  refine ⟨?_, rfl⟩
  rw [decisions, List.filterMap_cons_none h.no_decision]
  rfl

theorem Follows.slept_between (h : Follows restart polls rounds attempt ms o) :
    ∀ before q after, ms = before ++ spawned q :: after →
      decisions before = (List.range (codes before).length).map (fun k : ℕ => attempt + (k : ℤ) + 1) ∧
        (delays before).map Except.ok = delaysFrom restart attempt (codes before).length := by
  induction h with
  | used attempt => simp
  | running attempt p hspawn =>
    rintro (_ | ⟨first, before⟩) q after hms
    · cases (List.cons.inj hms).1
    · obtain ⟨rfl, htail⟩ := List.cons.inj hms
      cases before with
      | nil => exact hspawn.numbers _
      | cons second before =>
        obtain ⟨rfl, hlives⟩ := List.cons.inj htail
        have hmem : spawned q ∈ List.replicate polls (alive p) :=
          hlives ▸ List.mem_append_right _ List.mem_cons_self
        simp at hmem
  | final p lives hspawn hexit hstop =>
    intro before q after hms
    obtain ⟨rfl, -, -⟩ | ⟨before', rfl, hrest'⟩ := spawned_cases hms
    · exact hspawn.numbers _
    · have hmem := hrest' ▸ List.mem_append_right before' (List.mem_cons_self (a := spawned q))
      simp at hmem
  | exhausted p lives hspawn hexit hlimit =>
    intro before q after hms
    obtain ⟨rfl, -, -⟩ | ⟨before', rfl, hrest'⟩ := spawned_cases hms
    · exact hspawn.numbers _
    · have hmem := hrest' ▸ List.mem_append_right before' (List.mem_cons_self (a := spawned q))
      simp at hmem
  | @again rounds spawn exit attempt rc delay ms o p lives hspawn hexit hgo hdelay hrest ih =>
    intro before q after hms
    obtain ⟨rfl, -, -⟩ | ⟨before', rfl, hrest'⟩ := spawned_cases hms
    · exact hspawn.numbers _
    · obtain ⟨before'', rfl, hafter⟩ := exists_rest_of_restart (by simp) hrest'
      obtain ⟨hdecisions, hdelays⟩ := ih before'' q after hafter
      rw [codes_append, decisions_append, delays_append, codes_childRun, delays_childRun,
        decisions_childRun hspawn hexit, List.nil_append, List.nil_append]
      have hcodes : ([rc] ++ codes (emitted (.restartAttempt (attempt + 1) delay rc
          restart.backoff) :: slept delay :: before'')).length = (codes before'').length + 1 := by
        simp [codes, List.filterMap_cons, code?]
      rw [hcodes, numbersFrom_succ, delaysFrom_succ, ← hdecisions, ← hdelays, hdelay]
      exact ⟨by simp [decisions, List.filterMap_cons, decision?],
        by simp [delays, List.filterMap_cons, delay?]⟩

theorem Follows.slept_all (h : Follows restart polls rounds attempt ms o) :
    (delays ms).map Except.ok =
      (decisions ms).map fun k => nextDelay k restart.toRestartFields := by
  induction h with
  | used attempt => rfl
  | running attempt p hspawn =>
    have hdecisions := decisions_lives polls p
    have hdelays := delays_lives polls p
    rw [decisions] at hdecisions
    rw [delays] at hdelays
    rw [decisions, List.filterMap_cons_none hspawn.no_decision, List.filterMap_cons_none rfl,
      hdecisions, delays, List.filterMap_cons_none rfl, List.filterMap_cons_none rfl, hdelays]
    rfl
  | final p lives hspawn hexit hstop =>
    rw [delays_append, decisions_append, delays_childRun, decisions_childRun hspawn hexit]
    rfl
  | exhausted p lives hspawn hexit hlimit =>
    rw [delays_append, decisions_append, delays_childRun, decisions_childRun hspawn hexit]
    rfl
  | again p lives hspawn hexit hgo hdelay hrest ih =>
    rw [delays_append, decisions_append, delays_childRun, decisions_childRun hspawn hexit,
      List.nil_append, List.nil_append]
    simpa [delays, decisions, List.filterMap_cons, delay?, decision?, hdelay] using ih

theorem codes_restart {delay : ℤ} :
    codes (emitted notice :: slept delay :: ms) = codes ms := rfl

theorem Follows.stops_at (h : Follows restart polls rounds attempt ms o) :
    ∀ before p rc after, ms = before ++ exited p rc :: after →
      Stops restart (attempt + (codes before).length + 1) rc →
        o = .value rc ∧ ∀ q, spawned q ∉ after := by
  induction h with
  | used attempt => simp
  | running attempt p hspawn =>
    intro before q rc after hms
    have hmem := hms ▸ List.mem_append_right before (List.mem_cons_self (a := exited q rc))
    simp at hmem
  | final p lives hspawn hexit hstop =>
    intro before q rc after hms hstops
    obtain ⟨-, rfl, rfl⟩ | ⟨before', -, hrest'⟩ := exited_cases hms
    · exact ⟨rfl, by simp⟩
    · have hmem := hrest' ▸ List.mem_append_right before' (List.mem_cons_self (a := exited q rc))
      simp at hmem
  | exhausted p lives hspawn hexit hlimit =>
    intro before q rc after hms hstops
    obtain ⟨-, rfl, rfl⟩ | ⟨before', -, hrest'⟩ := exited_cases hms
    · exact ⟨rfl, by simp⟩
    · have hmem := hrest' ▸ List.mem_append_right before' (List.mem_cons_self (a := exited q rc))
      simp at hmem
  | again p lives hspawn hexit hgo hdelay hrest ih =>
    intro before q rc after hms hstops
    obtain ⟨hcodes, rfl, -⟩ | ⟨before', rfl, hrest'⟩ := exited_cases hms
    · rw [hcodes, List.length_nil, Nat.cast_zero, add_zero] at hstops
      exact absurd hstops hgo
    · obtain ⟨before'', rfl, hafter⟩ := exists_rest_of_restart (by simp) hrest'
      refine ih before'' q rc after hafter ?_
      rw [codes_append, codes_childRun, codes_restart, List.length_append, List.length_singleton,
        Nat.cast_add, Nat.cast_one] at hstops
      rwa [add_assoc _ (1 : ℤ)]

/-- The part of a child's run up to its exit. -/
theorem childRun_eq : childRun spawn exit p lives rc =
    (emitted spawn :: spawned p :: List.replicate lives (alive p)) ++
      [exited p rc, emitted exit] := rfl

theorem codes_before_exit :
    codes (emitted spawn :: spawned p :: List.replicate lives (alive p)) = [] := by
  have hlives := codes_lives lives p
  rw [codes] at hlives
  simp [codes, List.filterMap_cons, code?, hlives]

theorem Follows.returned (h : Follows restart polls rounds attempt ms o) :
    ∀ rc, o = .value rc → ∃ before p after, ms = before ++ exited p rc :: after ∧
      Stops restart (attempt + (codes before).length + 1) rc ∧ codes after = [] := by
  induction h with
  | used attempt => nofun
  | running attempt p hspawn => nofun
  | @final rounds spawn exit attempt rc p lives hspawn hexit hstop =>
    rintro _ ⟨⟩
    exact ⟨_, p, [emitted exit, emitted (.finalExit rc attempt)],
      by rw [childRun_eq, List.append_assoc]; rfl, .inl hstop, rfl⟩
  | @exhausted rounds spawn exit attempt rc p lives hspawn hexit hlimit =>
    rintro _ ⟨⟩
    refine ⟨_, p, [emitted exit, emitted (.maxAttemptsReached restart.maxAttempts rc)],
      by rw [childRun_eq, List.append_assoc]; rfl, .inr ?_, rfl⟩
    rwa [codes_before_exit, List.length_nil, Nat.cast_zero, add_zero]
  | again p lives hspawn hexit hgo hdelay hrest ih =>
    intro rc hrc
    obtain ⟨before, q, after, rfl, hstops, hafter⟩ := ih rc hrc
    refine ⟨_, q, after, (List.append_assoc _ (_ :: _ :: before) _).symm, ?_, hafter⟩
    rw [codes_append, codes_childRun, codes_restart, List.length_append, List.length_singleton,
      Nat.cast_add, Nat.cast_one]
    rwa [add_assoc _ (1 : ℤ)] at hstops

/-- The notices of a child's run are about it. -/
theorem not_final_of_mem_childRun (hspawn : spawn.AboutChild) (hexit : exit.AboutChild)
    (hnotice : emitted notice ∈ childRun spawn exit p lives rc) : ¬notice.IsFinal := by
  simp only [childRun, List.mem_cons, List.mem_append, List.mem_replicate, emitted.injEq,
    reduceCtorEq, and_false, false_or, List.not_mem_nil, or_false] at hnotice
  rcases hnotice with rfl | rfl
  · exact hspawn.not_final
  · exact hexit.not_final

theorem Follows.final_last (h : Follows restart polls rounds attempt ms o) :
    ∀ rc, o = .value rc → ∃ before notice, ms = before ++ [emitted notice] ∧ notice.IsFinal ∧
      ∀ earlier, emitted earlier ∈ before → ¬earlier.IsFinal := by
  induction h with
  | used attempt => nofun
  | running attempt p hspawn => nofun
  | final p lives hspawn hexit hstop =>
    rintro _ ⟨⟩
    exact ⟨_, _, rfl, .inl rfl, fun _ => not_final_of_mem_childRun hspawn hexit⟩
  | exhausted p lives hspawn hexit hlimit =>
    rintro _ ⟨⟩
    exact ⟨_, _, rfl, .inr rfl, fun _ => not_final_of_mem_childRun hspawn hexit⟩
  | again p lives hspawn hexit hgo hdelay hrest ih =>
    intro rc hrc
    obtain ⟨before, notice, rfl, hfinal, hbefore⟩ := ih rc hrc
    refine ⟨_, notice, (List.append_assoc _ (_ :: _ :: before) _).symm, hfinal,
      fun earlier hearlier => ?_⟩
    rcases List.mem_append.mp hearlier with hmem | hmem
    · exact not_final_of_mem_childRun hspawn hexit hmem
    · simp only [List.mem_cons, emitted.injEq, reduceCtorEq, false_or] at hmem
      rcases hmem with rfl | hmem
      · simp [Notice.IsFinal, Notice.kind]
      · exact hbefore earlier hmem

theorem Follows.no_final (h : Follows restart polls rounds attempt ms o) :
    (∀ rc, o ≠ .value rc) → ∀ notice, emitted notice ∈ ms → ¬notice.IsFinal := by
  induction h with
  | used attempt => simp
  | running attempt p hspawn =>
    intro _ notice hmem
    simp only [List.mem_cons, emitted.injEq, reduceCtorEq, List.mem_replicate, and_false,
      or_false] at hmem
    exact hmem ▸ hspawn.not_final
  | final p lives hspawn hexit hstop => exact fun ho => absurd rfl (ho _)
  | exhausted p lives hspawn hexit hlimit => exact fun ho => absurd rfl (ho _)
  | again p lives hspawn hexit hgo hdelay hrest ih =>
    intro ho notice hmem
    rcases List.mem_append.mp hmem with hmem | hmem
    · exact not_final_of_mem_childRun hspawn hexit hmem
    · simp only [List.mem_cons, emitted.injEq, reduceCtorEq, false_or] at hmem
      rcases hmem with rfl | hmem
      · simp [Notice.IsFinal, Notice.kind]
      · exact ih ho notice hmem

theorem Follows.not_raised (h : Follows restart polls rounds attempt ms o) : ∀ e, o ≠ .raised e := by
  induction h with
  | again p lives hspawn hexit hgo hdelay hrest ih => exact ih
  | _ => nofun

theorem Follows.cut_late (h : Follows restart polls rounds attempt ms o) :
    o = .cut → (codes ms).length = rounds ∨
      ∃ before p, ms = before ++ spawned p :: List.replicate polls (alive p) := by
  induction h with
  | used attempt => exact fun _ => .inl rfl
  | @running rounds spawn attempt p hspawn => exact fun _ => .inr ⟨[emitted spawn], p, rfl⟩
  | final p lives hspawn hexit hstop => nofun
  | exhausted p lives hspawn hexit hlimit => nofun
  | again p lives hspawn hexit hgo hdelay hrest ih =>
    intro ho
    rcases ih ho with hcodes | ⟨before, q, rfl⟩
    · left
      rw [codes_append, codes_childRun, codes_restart, List.length_append, hcodes,
        List.length_singleton, Nat.add_comm]
    · exact .inr ⟨_, q, (List.append_assoc _ (_ :: _ :: before) _).symm⟩

/-- Milestones the policy admits from the first round on follow it. -/
theorem Follows.followsPolicy (h : Follows restart polls rounds 0 ms o) :
    FollowsPolicy restart rounds polls ms o where
  spawn_after_exit := h.spawn_after_exit
  slept_between := by
    intro before q after hms
    obtain ⟨hdecisions, hdelays⟩ := h.slept_between before q after hms
    simp only [zero_add] at hdecisions
    simp only [delaysFrom, zero_add] at hdelays
    exact ⟨hdecisions, hdelays⟩
  slept_all := h.slept_all
  stops_at := by
    intro before p rc after hms hstops
    exact h.stops_at before p rc after hms (by rwa [zero_add])
  returned := by
    intro rc hrc
    simpa only [zero_add] using h.returned rc hrc
  final_last := h.final_last
  no_final := h.no_final
  not_raised := h.not_raised
  cut_late := h.cut_late

end

end Launcher
end Recto
