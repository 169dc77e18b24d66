import Mathlib.Algebra.BigOperators.Group.Finset.Basic
import Mathlib.Algebra.Order.BigOperators.Group.Finset
import Mathlib.Logic.Function.Basic
import Mathlib.Tactic

/-!
# Requests served side by side

A request is a program: it makes calls of what it shares with the others, and
each call is one step that nothing interrupts. A schedule says whose call is
next and what the world supplies for it. A monitor says in which phase a
program may make which call; when every program obeys the monitor, what every
allowed call keeps holds along every schedule.
-/

namespace Recto

/-- A program that calls `q : Q` and goes on with the answer. -/
inductive Calls (Q : Type) (A : Q → Type) (α : Type) where
  | done (a : α)
  | call (q : Q) (next : A q → Calls Q A α)

namespace Calls

variable {Q : Type} {A : Q → Type} {α β : Type}

def bind : Calls Q A α → (α → Calls Q A β) → Calls Q A β
  | done a, f => f a
  | call q next, f => call q fun a => (next a).bind f

instance : Monad (Calls Q A) where
  pure := done
  bind := bind

/-- One call. -/
def ask (q : Q) : Calls Q A (A q) := call q done

@[simp] theorem pure_eq (a : α) : (pure a : Calls Q A α) = done a := rfl

@[simp] theorem done_bind (a : α) (f : α → Calls Q A β) : (done a >>= f) = f a := rfl

@[simp] theorem call_bind (q : Q) (next : A q → Calls Q A α) (f : α → Calls Q A β) :
    (call q next >>= f) = call q fun a => next a >>= f := rfl

@[simp] theorem ask_bind (q : Q) (f : A q → Calls Q A β) : (ask q >>= f) = call q f := rfl

theorem bind_assoc {γ : Type} (p : Calls Q A α) (f : α → Calls Q A β) (g : β → Calls Q A γ) :
    (p >>= f) >>= g = p >>= fun a => f a >>= g := by
  induction p with
  | done a => rfl
  | call q next ih =>
    simp only [call_bind]
    exact congrArg (call q) (funext ih)

end Calls

/-! ## What a program may do -/

/-- The calls a program may make in a phase, what each can be answered, and the phase each answer
leads to. -/
structure Monitor (Q : Type) (A : Q → Type) (φ : Type) where
  allows : φ → Q → Prop
  answers : (q : Q) → A q → Prop
  next : φ → (q : Q) → A q → φ

namespace Monitor

variable {Q : Type} {A : Q → Type} {φ α β : Type} (m : Monitor Q A φ)

/-- From the phase the program makes allowed calls only, whatever it can be answered, and where it
ends the postcondition holds. -/
def Obeys (post : φ → α → Prop) : φ → Calls Q A α → Prop
  | ph, .done a => post ph a
  | ph, .call q next =>
      m.allows ph q ∧ ∀ a, m.answers q a → Obeys post (m.next ph q a) (next a)

variable {m} {post : φ → α → Prop} {ph : φ}

@[simp] theorem obeys_done {a : α} : m.Obeys post ph (.done a) ↔ post ph a := Iff.rfl

@[simp] theorem obeys_call {q : Q} {next : A q → Calls Q A α} :
    m.Obeys post ph (.call q next) ↔
      m.allows ph q ∧ ∀ a, m.answers q a → m.Obeys post (m.next ph q a) (next a) := Iff.rfl

@[simp] theorem obeys_ask {q : Q} {post : φ → A q → Prop} :
    m.Obeys post ph (Calls.ask q) ↔
      m.allows ph q ∧ ∀ a, m.answers q a → post (m.next ph q a) a := Iff.rfl

theorem obeys_ite {c : Prop} [Decidable c] {p p' : Calls Q A α} (h : c → m.Obeys post ph p)
    (h' : ¬ c → m.Obeys post ph p') : m.Obeys post ph (if c then p else p') := by
  split_ifs with hc
  · exact h hc
  · exact h' hc

/-- A program in sequence: the first part ends in a phase from which the rest obeys. -/
theorem Obeys.bind {post' : φ → β → Prop} {p : Calls Q A α} {f : α → Calls Q A β}
    (h : m.Obeys post ph p) (hf : ∀ ph a, post ph a → m.Obeys post' ph (f a)) :
    m.Obeys post' ph (p >>= f) := by
  induction p generalizing ph with
  | done a => exact hf ph a h
  | call q next ih => exact ⟨h.1, fun a ha => ih a (h.2 a ha)⟩

theorem Obeys.mono {post' : φ → α → Prop} {p : Calls Q A α} (h : m.Obeys post ph p)
    (himp : ∀ ph a, post ph a → post' ph a) : m.Obeys post' ph p := by
  induction p generalizing ph with
  | done a => exact himp ph a h
  | call q next ih => exact ⟨h.1, fun a ha => ih a (h.2 a ha)⟩

/-- A loop whose body keeps an invariant of the items done so far. -/
theorem Obeys.forM {ι : Type} {body : ι → Calls Q A Unit} {Inv : List ι → φ → Prop}
    {xs : List ι} (hbody : ∀ pre x post, pre ++ x :: post = xs → ∀ ph, Inv pre ph →
      m.Obeys (fun ph _ => Inv (pre ++ [x]) ph) ph (body x))
    (hinit : Inv [] ph) : m.Obeys (fun ph _ => Inv xs ph) ph (xs.forM body) := by
  suffices h : ∀ pre rest, pre ++ rest = xs → ∀ ph, Inv pre ph →
      m.Obeys (fun ph _ => Inv xs ph) ph (rest.forM body) from h [] xs rfl ph hinit
  intro pre rest
  induction rest generalizing pre with
  | nil =>
    rintro rfl ph hpre
    simpa using hpre
  | cons x rest ih =>
    intro hxs ph hpre
    change m.Obeys _ ph (body x >>= fun _ => rest.forM body)
    exact (hbody pre x rest hxs ph hpre).bind fun ph _ h =>
      ih (pre ++ [x]) (by simpa using hxs) ph h

/-- The monitor of programs that make only certain calls, in any order. -/
def only (allowed : Q → Prop) : Monitor Q A φ where
  allows _ := allowed
  answers _ _ := True
  next ph _ _ := ph

/-- What a program may do in whatever phase it may do in none. -/
theorem Obeys.to_only {ψ : Type} {allowed : Q → Prop} {p : Calls Q A α} (h : m.Obeys post ph p)
    (hallow : ∀ ph q, m.allows ph q → allowed q) (hanswers : ∀ q a, m.answers q a) (ph' : ψ) :
    (only allowed : Monitor Q A ψ).Obeys (fun _ _ => True) ph' p := by
  induction p generalizing ph with
  | done a => trivial
  | call q next ih => exact ⟨hallow ph q h.1, fun a _ => ih a (h.2 a (hanswers q a))⟩

end Monitor

/-! ## What one thread did -/

namespace Calls

variable {Q : Type} {A : Q → Type} {α : Type}

/-- The program makes these calls, is given these answers, and is the other program then. -/
inductive Path : Calls Q A α → List ((q : Q) × A q) → Calls Q A α → Prop
  | nil (p : Calls Q A α) : Path p [] p
  | cons {q : Q} {next : A q → Calls Q A α} {a : A q} {calls : List ((q : Q) × A q)}
      {p : Calls Q A α} (rest : Path (next a) calls p) : Path (.call q next) (⟨q, a⟩ :: calls) p

variable {p p' : Calls Q A α} {calls : List ((q : Q) × A q)} {q : Q}
  {next : A q → Calls Q A α}

theorem Path.done {a : α} (h : Path (.done a) calls p) : calls = [] := by
  cases h
  rfl

/-- A path through a call stops before it or goes on with an answer. -/
theorem Path.call (h : Path (.call q next) calls p) :
    calls = [] ∨ ∃ a rest, calls = ⟨q, a⟩ :: rest ∧ Path (next a) rest p := by
  cases h with
  | nil => exact .inl rfl
  | cons rest => exact .inr ⟨_, _, rfl, rest⟩

/-- What stands on a path through another call comes after it. -/
theorem Path.mem_call (h : Path (.call q next) calls p) {c : (q : Q) × A q} (hc : c ∈ calls)
    (hne : c.1 ≠ q) : ∃ a rest, calls = ⟨q, a⟩ :: rest ∧ Path (next a) rest p ∧ c ∈ rest := by
  obtain rfl | ⟨a, rest, rfl, hrest⟩ := h.call
  · cases hc
  · refine ⟨a, rest, rfl, hrest, ?_⟩
    rcases List.mem_cons.mp hc with rfl | hc
    · exact absurd rfl hne
    · exact hc

/-- A program that only ever makes certain calls has no others on its paths. -/
theorem Path.only {allowed : Q → Prop} {ph : Unit}
    (h : (Monitor.only allowed : Monitor Q A Unit).Obeys (fun _ _ => True) ph p)
    (hpath : Path p calls p') : ∀ c ∈ calls, allowed c.1 := by
  induction hpath with
  | nil p => exact fun c hc => absurd hc List.not_mem_nil
  | @cons q next a calls p rest ih =>
    exact List.forall_mem_cons.mpr ⟨h.1, ih (h.2 a trivial)⟩

theorem Path.snoc (h : Path p calls (.call q next)) (a : A q) :
    Path p (calls ++ [⟨q, a⟩]) (next a) := by
  generalize hp' : Calls.call q next = p' at h
  induction h with
  | nil p =>
    subst hp'
    exact .cons (.nil _)
  | cons rest ih => exact .cons (ih hp')

section Credit
variable (answers : (q : Q) → A q → Prop) (gain spend : (q : Q) → A q → ℕ)

/-- As long as it is answered so, the program never spends more than the credit it starts with and
what it has gained. -/
def Affords : ℕ → Calls Q A α → Prop
  | _, .done _ => True
  | credit, .call q next => ∀ a, answers q a → spend q a ≤ credit + gain q a ∧
      Affords (credit + gain q a - spend q a) (next a)

variable {answers gain spend} {credit : ℕ}

@[simp] theorem affords_done {a : α} : Affords answers gain spend credit (.done a : Calls Q A α) :=
  trivial

@[simp] theorem affords_call : Affords answers gain spend credit (.call q next) ↔
    ∀ a, answers q a → spend q a ≤ credit + gain q a ∧
      Affords answers gain spend (credit + gain q a - spend q a) (next a) := Iff.rfl

theorem Affords.path (h : Affords answers gain spend credit p) (hpath : Path p calls p')
    (hanswers : ∀ c ∈ calls, answers c.1 c.2) :
    (calls.map fun c => spend c.1 c.2).sum ≤ credit + (calls.map fun c => gain c.1 c.2).sum := by
  induction hpath generalizing credit with
  | nil p => exact Nat.zero_le _
  | @cons q next a calls p rest ih =>
    obtain ⟨ha, hcalls⟩ := List.forall_mem_cons.mp hanswers
    obtain ⟨hspend, hrest⟩ := h a ha
    have := ih hrest hcalls
    simp only [List.map_cons, List.sum_cons]
    omega

/-- Where nothing is spent on any call that the program can make, it affords its calls. -/
theorem Affords.of_only {allowed : Q → Prop} {ph : Unit}
    (h : (Monitor.only allowed : Monitor Q A Unit).Obeys (fun _ _ => True) ph p)
    (hspend : ∀ q a, allowed q → spend q a = 0) : Affords answers gain spend credit p := by
  induction p generalizing credit with
  | done a => trivial
  | call q next ih =>
    intro a _
    rw [hspend q a h.1]
    exact ⟨Nat.zero_le _, ih a (h.2 a trivial)⟩

end Credit
end Calls

/-- What holds of two totals thread by thread holds of them over the whole history. -/
theorem sum_le_of_fibres {β γ : Type} [DecidableEq γ] (thread : β → γ) (f g : β → ℕ) (xs : List β)
    (h : ∀ i, ((xs.filter fun x => thread x = i).map f).sum ≤
      ((xs.filter fun x => thread x = i).map g).sum) : (xs.map f).sum ≤ (xs.map g).sum := by
  have hsum : ∀ w : β → ℕ, (xs.map w).sum =
      ∑ i ∈ (xs.map thread).toFinset, ((xs.filter fun x => thread x = i).map w).sum := by
    intro w
    suffices hle : ∀ s : Finset γ, (∀ x ∈ xs, thread x ∈ s) →
        (xs.map w).sum = ∑ i ∈ s, ((xs.filter fun x => thread x = i).map w).sum from
      hle _ fun x hx => List.mem_toFinset.mpr (List.mem_map_of_mem hx)
    intro s hs
    clear h
    induction xs with
    | nil => simp
    | cons x xs ih =>
      obtain ⟨hx, hs⟩ := List.forall_mem_cons.mp hs
      have hone : ∀ i, (((x :: xs).filter fun y => thread y = i).map w).sum =
          (if thread x = i then w x else 0) + ((xs.filter fun y => thread y = i).map w).sum := by
        intro i
        by_cases hi : thread x = i <;> simp [hi]
      simp only [hone, Finset.sum_add_distrib, ← ih hs, List.map_cons, List.sum_cons]
      simp [hx]
  rw [hsum f, hsum g]
  exact Finset.sum_le_sum fun i _ => h i

/-! ## Schedules -/

/-- What one step of the schedule was. -/
structure Event (ι Q : Type) (A : Q → Type) (ε : Type) where
  thread : ι
  env : ε
  query : Q
  answer : A query

/-- The call and its answer. -/
def Event.call {ι Q : Type} {A : Q → Type} {ε : Type} (e : Event ι Q A ε) : (q : Q) × A q :=
  ⟨e.query, e.answer⟩

/-- What the requests share, where each of them is, and what was done so far. -/
structure Serving (ι Q : Type) (A : Q → Type) (ε σ α : Type) where
  shared : σ
  threads : ι → Calls Q A α
  trace : List (Event ι Q A ε)

/-- Where an event stands in a history that has grown by one: it is the last, or stood there
before. -/
theorem eq_or_of_concat_eq {β : Type} {xs pre post : List β} {a b : β}
    (h : xs ++ [a] = pre ++ b :: post) :
    (pre = xs ∧ b = a ∧ post = []) ∨ ∃ post', post = post' ++ [a] ∧ xs = pre ++ b :: post' := by
  induction post using List.reverseRecOn with
  | nil =>
    obtain ⟨hxs, ha⟩ := List.append_inj' h rfl
    exact .inl ⟨hxs.symm, (List.cons.inj ha).1.symm, rfl⟩
  | append_singleton post last _ =>
    rw [← List.cons_append, ← List.append_assoc] at h
    obtain ⟨hxs, ha⟩ := List.append_inj' h rfl
    exact .inr ⟨post, by rw [ha], hxs⟩

section
variable {ι Q : Type} {A : Q → Type} {ε σ α φ : Type} [DecidableEq ι]
variable (exec : (q : Q) → ε → σ → A q × σ)

namespace Serving

/-- One thread makes its next call. -/
def step (c : Serving ι Q A ε σ α) (turn : ι × ε) : Serving ι Q A ε σ α :=
  match c.threads turn.1 with
  | .done _ => c
  | .call q next =>
      let r := exec q turn.2 c.shared
      { shared := r.2
        threads := Function.update c.threads turn.1 (next r.1)
        trace := c.trace ++ [⟨turn.1, turn.2, q, r.1⟩] }

/-- The turns of a schedule, one after the other. -/
def run (c : Serving ι Q A ε σ α) (turns : List (ι × ε)) : Serving ι Q A ε σ α :=
  turns.foldl (step exec) c

/-- All requests before their first call. -/
def start (s : σ) (program : ι → Calls Q A α) : Serving ι Q A ε σ α := ⟨s, program, []⟩

/-- Every turn of the schedule is taken where the condition holds of it. -/
def Along (P : Serving ι Q A ε σ α → ι × ε → Prop) :
    Serving ι Q A ε σ α → List (ι × ε) → Prop
  | _, [] => True
  | c, turn :: turns => P c turn ∧ Along P (step exec c turn) turns

/-- The next call of one thread. -/
def next? (c : Serving ι Q A ε σ α) (i : ι) : Option Q :=
  match c.threads i with
  | .call q _ => some q
  | .done _ => none

instance Along.decidable (P : Serving ι Q A ε σ α → ι × ε → Prop) [∀ c turn, Decidable (P c turn)] :
    ∀ (c : Serving ι Q A ε σ α) (turns : List (ι × ε)), Decidable (Along exec P c turns)
  | _, [] => inferInstanceAs (Decidable True)
  | c, turn :: turns =>
      have := Along.decidable P (step exec c turn) turns
      inferInstanceAs (Decidable (P c turn ∧ Along exec P (step exec c turn) turns))

variable {exec} {c : Serving ι Q A ε σ α} {i : ι} {e : ε} {turns : List (ι × ε)}

@[simp] theorem run_nil : run exec c [] = c := rfl

@[simp] theorem run_cons (turn : ι × ε) :
    run exec c (turn :: turns) = run exec (step exec c turn) turns := rfl

omit [DecidableEq ι] in
theorem next?_eq_some {q : Q} : c.next? i = some q ↔ ∃ next, c.threads i = .call q next := by
  unfold next?
  cases c.threads i with
  | done a => simp
  | call q' next =>
    constructor
    · rintro ⟨⟩
      exact ⟨next, rfl⟩
    · rintro ⟨next', h⟩
      cases h
      rfl

theorem step_done {a : α} (h : c.threads i = .done a) : step exec c (i, e) = c := by
  simp [step, h]

theorem step_call {q : Q} {next : A q → Calls Q A α} (h : c.threads i = .call q next) :
    step exec c (i, e) =
      { shared := (exec q e c.shared).2
        threads := Function.update c.threads i (next (exec q e c.shared).1)
        trace := c.trace ++ [⟨i, e, q, (exec q e c.shared).1⟩] } := by
  simp [step, h]

/-- What holds at the start and is kept by every call, made where the condition holds, holds
wherever a schedule leads that meets the condition at each of its turns. -/
theorem run_induction {motive : Serving ι Q A ε σ α → Prop}
    {P : Serving ι Q A ε σ α → ι × ε → Prop} (hstart : motive c)
    (hstep : ∀ c i e q next, c.threads i = .call q next → motive c → P c (i, e) →
      motive (step exec c (i, e)))
    (h : Along exec P c turns) : motive (run exec c turns) := by
  induction turns generalizing c with
  | nil => exact hstart
  | cons turn turns ih =>
    refine ih ?_ h.2
    cases hthread : c.threads turn.1 with
    | done a => simpa [step, hthread] using hstart
    | call q next => exact hstep c turn.1 turn.2 q next hthread hstart h.1

/-- The monitor's rule: programs that obey their monitors may be replaced by their phases. -/
theorem run_obeying {m : ι → Monitor Q A φ} {post : ι → φ → α → Prop}
    {Inv : Serving ι Q A ε σ α → (ι → φ) → Prop} {P : Serving ι Q A ε σ α → ι × ε → Prop}
    {phases : ι → φ} (hanswers : ∀ i q e s, (m i).answers q (exec q e s).1) (hstart : Inv c phases)
    (hobeys : ∀ i, (m i).Obeys (post i) (phases i) (c.threads i))
    (hstep : ∀ c phases i e q next, c.threads i = .call q next →
      (∀ j, (m j).Obeys (post j) (phases j) (c.threads j)) → Inv c phases → P c (i, e) →
      Inv (step exec c (i, e))
        (Function.update phases i ((m i).next (phases i) q (exec q e c.shared).1)))
    (h : Along exec P c turns) :
    ∃ phases, Inv (run exec c turns) phases ∧
      ∀ i, (m i).Obeys (post i) (phases i) ((run exec c turns).threads i) := by
  refine run_induction
    (motive := fun c => ∃ phases, Inv c phases ∧ ∀ i, (m i).Obeys (post i) (phases i) (c.threads i))
    ⟨phases, hstart, hobeys⟩ ?_ h
  rintro c i e q next hcall ⟨phases, hinv, hobeys⟩ hturn
  refine ⟨_, hstep c phases i e q next hcall hobeys hinv hturn, fun j => ?_⟩
  have hi := hobeys i
  rw [hcall, Monitor.obeys_call] at hi
  rw [step_call hcall]
  by_cases hj : j = i
  · subst hj
    simpa using hi.2 _ (hanswers j q e c.shared)
  · simpa [Function.update_of_ne hj] using hobeys j

/-- The rule where one step only asks what its own call is allowed. -/
theorem run_monitored {m : ι → Monitor Q A φ} {post : ι → φ → α → Prop}
    {Inv : Serving ι Q A ε σ α → (ι → φ) → Prop} {P : Serving ι Q A ε σ α → ι × ε → Prop}
    {phases : ι → φ} (hanswers : ∀ i q e s, (m i).answers q (exec q e s).1) (hstart : Inv c phases)
    (hobeys : ∀ i, (m i).Obeys (post i) (phases i) (c.threads i))
    (hstep : ∀ c phases i e q next, c.threads i = .call q next → (m i).allows (phases i) q →
      Inv c phases → P c (i, e) →
      Inv (step exec c (i, e))
        (Function.update phases i ((m i).next (phases i) q (exec q e c.shared).1)))
    (h : Along exec P c turns) :
    ∃ phases, Inv (run exec c turns) phases ∧
      ∀ i, (m i).Obeys (post i) (phases i) ((run exec c turns).threads i) := by
  refine run_obeying hanswers hstart hobeys (fun c phases i e q next hcall hobeys => ?_) h
  have hi := hobeys i
  rw [hcall, Monitor.obeys_call] at hi
  exact hstep c phases i e q next hcall hi.1

theorem along_append {P : Serving ι Q A ε σ α → ι × ε → Prop} {turns' : List (ι × ε)} :
    Along exec P c (turns ++ turns') ↔
      Along exec P c turns ∧ Along exec P (run exec c turns) turns' := by
  induction turns generalizing c with
  | nil => simp [Along]
  | cons turn turns ih => simp [Along, ih, and_assoc]

/-- A condition holds along a schedule when it holds of each turn where the turns before it lead. -/
theorem along_iff {P : Serving ι Q A ε σ α → ι × ε → Prop} :
    Along exec P c turns ↔ ∀ before turn after, turns = before ++ turn :: after →
      P (run exec c before) turn := by
  constructor
  · rintro h before turn after rfl
    exact (along_append.mp h).2.1
  · intro h
    induction turns generalizing c with
    | nil => trivial
    | cons turn turns ih =>
      refine ⟨h [] turn turns rfl, ih fun before turn' after hturns => ?_⟩
      exact h (turn :: before) turn' after (by simp [hturns])

theorem Along.and {P R : Serving ι Q A ε σ α → ι × ε → Prop} (hP : Along exec P c turns)
    (hR : Along exec R c turns) : Along exec (fun c t => P c t ∧ R c t) c turns := by
  induction turns generalizing c with
  | nil => trivial
  | cons turn turns ih => exact ⟨⟨hP.1, hR.1⟩, ih hP.2 hR.2⟩

theorem Along.mono {P R : Serving ι Q A ε σ α → ι × ε → Prop} (h : Along exec P c turns)
    (himp : ∀ c turn, P c turn → R c turn) : Along exec R c turns := by
  induction turns generalizing c with
  | nil => trivial
  | cons turn turns ih => exact ⟨himp c turn h.1, ih h.2⟩

/-- What holds of every turn by itself holds along the schedule. -/
theorem along_of_mem {R : ι × ε → Prop} (h : ∀ turn ∈ turns, R turn) :
    Along exec (fun _ turn => R turn) c turns := by
  induction turns generalizing c with
  | nil => trivial
  | cons turn turns ih =>
    exact ⟨h turn (by simp), ih fun t ht => h t (by simp [ht])⟩

/-- Programs that only ever make certain calls have made no others. -/
theorem run_only {allowed : ι → Q → Prop} {program : ι → Calls Q A α} {s : σ}
    (h : ∀ i, (Monitor.only (allowed i) : Monitor Q A Unit).Obeys (fun _ _ => True) ()
      (program i)) :
    ∀ e ∈ (run exec (start s program : Serving ι Q A ε σ α) turns).trace,
      allowed e.thread e.query := by
  refine And.left (b := ∀ i, (Monitor.only (allowed i) : Monitor Q A Unit).Obeys (fun _ _ => True) ()
    ((run exec (start s program : Serving ι Q A ε σ α) turns).threads i)) ?_
  refine run_induction (P := fun _ _ => True)
    (motive := fun c => (∀ e ∈ c.trace, allowed e.thread e.query) ∧
      ∀ i, (Monitor.only (allowed i) : Monitor Q A Unit).Obeys (fun _ _ => True) () (c.threads i))
    ⟨fun _ he => absurd he List.not_mem_nil, h⟩ ?_
    (along_of_mem (R := fun _ => True) fun _ _ => trivial)
  rintro c i e q next hcall ⟨hinv, hobeys⟩ -
  have hi := hobeys i
  rw [hcall, Monitor.obeys_call] at hi
  rw [step_call hcall]
  refine ⟨fun e' he' => ?_, fun j => ?_⟩
  · rcases List.mem_append.mp he' with he' | he'
    · exact hinv e' he'
    · obtain rfl := List.mem_singleton.mp he'
      exact hi.1
  · by_cases hj : j = i
    · subst hj
      simpa using hi.2 _ trivial
    · simpa [Function.update_of_ne hj] using hobeys j

/-! ## One thread's share of a schedule -/

/-- The calls of one thread and what they were answered, in order. -/
def history (c : Serving ι Q A ε σ α) (i : ι) : List ((q : Q) × A q) :=
  (c.trace.filter fun e => e.thread = i).map Event.call

theorem mem_history {call : (q : Q) × A q} :
    call ∈ c.history i ↔ ∃ e ∈ c.trace, e.thread = i ∧ e.call = call := by
  simp [history, and_assoc]

variable (exec) in
/-- Whatever the schedule, a thread has gone along a path of its own program. -/
theorem path_history (program : ι → Calls Q A α) (s : σ) (turns : List (ι × ε)) (i : ι) :
    Calls.Path (program i) ((run exec (start s program) turns).history i)
      ((run exec (start s program) turns).threads i) := by
  refine run_induction (P := fun _ _ => True)
    (motive := fun c => ∀ i, Calls.Path (program i) (c.history i) (c.threads i))
    (fun i => .nil _) ?_ (along_of_mem (R := fun _ => True) fun _ _ => trivial) i
  intro c i e q next hcall hpaths _ j
  rw [step_call hcall]
  by_cases hj : j = i
  · subst hj
    have hpath := hpaths j
    rw [hcall] at hpath
    simpa [history, Event.call] using hpath.snoc (exec q e c.shared).1
  · simpa [history, Function.update_of_ne hj, Ne.symm hj] using hpaths j

/-- The sum over the calls so far. -/
def total (w : (q : Q) → A q → ℕ) (c : Serving ι Q A ε σ α) : ℕ :=
  (c.trace.map fun e => w e.query e.answer).sum

/-- Where every program affords what it spends, all of them together do. -/
theorem total_le {answers : (q : Q) → A q → Prop} {gain spend : (q : Q) → A q → ℕ}
    {program : ι → Calls Q A α} {s : σ} (h : ∀ i, (program i).Affords answers gain spend 0)
    (hanswers : ∀ e ∈ (run exec (start s program) turns).trace, answers e.query e.answer) :
    (run exec (start s program) turns).total spend ≤
      (run exec (start s program) turns).total gain := by
  refine sum_le_of_fibres Event.thread _ _ _ fun i => ?_
  have hpath := (h i).path (path_history exec program s turns i) ?_
  · simpa [history, Function.comp_def, Event.call] using hpath
  · intro call hcall
    obtain ⟨e, he, -, rfl⟩ := mem_history.mp hcall
    exact hanswers e he

end Serving
end
end Recto
