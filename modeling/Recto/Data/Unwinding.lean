import Recto.Data.Threads

/-!
# Programs whose calls may raise

Each call of such a program returns a value or raises. What is raised unwinds
the program: through a `finally`, whose block is run on the way, and up to a
handler that takes it. Local variables outlive what is raised. A loop without
end is cut after a number of rounds, and then nothing more is run. A program is
played against a world that answers as it likes, with all that has happened in
view; `Ends` asks a postcondition of each of the three endings.
-/

namespace Recto

/-- How a program ends: with a value, with what it raises, or cut off in a loop. -/
inductive Ended (ε α : Type) where
  | value (a : α)
  | raised (e : ε)
  | cut
  deriving DecidableEq, Repr

/-- A program that calls `q : Q` for a `V q`, where every call may raise. It has local variables. -/
def Raising (Q : Type) (V : Q → Type) (ε μ α : Type) :=
  μ → Calls Q (fun q => Except ε (V q)) (Ended ε α × μ)

namespace Raising

variable {Q : Type} {V : Q → Type} {ε μ α β : Type}

protected def bind (p : Raising Q V ε μ α) (f : α → Raising Q V ε μ β) : Raising Q V ε μ β := fun x =>
  (p x).bind fun
    | (.value a, x) => f a x
    | (.raised e, x) => .done (.raised e, x)
    | (.cut, x) => .done (.cut, x)

instance : Monad (Raising Q V ε μ) where
  pure a := fun x => .done (.value a, x)
  bind := Raising.bind

/-- One call. -/
def perform (q : Q) : Raising Q V ε μ (V q) := fun x =>
  .call q fun
    | .ok v => .done (.value v, x)
    | .error e => .done (.raised e, x)

def raise (e : ε) : Raising Q V ε μ α := fun x => .done (.raised e, x)

/-- The rounds of a loop are used up. -/
def cutOff : Raising Q V ε μ α := fun x => .done (.cut, x)

/-- Assign local variables. -/
def assign (f : μ → μ) : Raising Q V ε μ Unit := fun x => .done (.value (), f x)

/-- Read local variables. -/
def local? (f : μ → α) : Raising Q V ε μ α := fun x => .done (.value (f x), x)

/-- `try: p finally: last` -/
def finallyDo (p : Raising Q V ε μ α) (last : Raising Q V ε μ Unit) : Raising Q V ε μ α := fun x =>
  (p x).bind fun
    | (.value a, x) => (last >>= fun _ => pure a) x
    | (.raised e, x) => (last >>= fun _ => raise e) x
    | (.cut, x) => .done (.cut, x)

/-- `try: p except: handler`, for what the handler takes. -/
def handling (p : Raising Q V ε μ α) (handler : ε → Option (Raising Q V ε μ α)) :
    Raising Q V ε μ α := fun x =>
  (p x).bind fun
    | (.value a, x) => .done (.value a, x)
    | (.raised e, x) => (handler e).getD (raise e) x
    | (.cut, x) => .done (.cut, x)

/-! ## Endings -/

section
variable {φ : Type} (m : Monitor Q (fun q => Except ε (V q)) φ)

/-- From a phase the program makes allowed calls only, and a postcondition holds however it ends. -/
def Ends (P : φ → μ → α → Prop) (R : φ → μ → ε → Prop) (C : φ → μ → Prop) (ph : φ) (x : μ)
    (p : Raising Q V ε μ α) : Prop :=
  m.Obeys (fun ph o => match o with
    | (.value a, x) => P ph x a
    | (.raised e, x) => R ph x e
    | (.cut, x) => C ph x) ph (p x)

variable {m} {P : φ → μ → α → Prop} {P' : φ → μ → β → Prop} {R R' : φ → μ → ε → Prop}
  {C C' : φ → μ → Prop} {ph : φ} {x : μ} {p : Raising Q V ε μ α}

theorem Ends.pure {a : α} (h : P ph x a) : Ends m P R C ph x (Pure.pure a) := h

theorem Ends.raise {e : ε} (h : R ph x e) : Ends m P R C ph x (raise e) := h

theorem Ends.cutOff (h : C ph x) : Ends m P R C ph x cutOff := h

theorem Ends.assign {f : μ → μ} {P : φ → μ → Unit → Prop} (h : P ph (f x) ()) :
    Ends m P R C ph x (assign f) := h

theorem Ends.local? {f : μ → α} (h : P ph x (f x)) : Ends m P R C ph x (local? f) := h

theorem Ends.perform {q : Q} {P : φ → μ → V q → Prop} (hallow : m.allows ph q)
    (hvalue : ∀ v, m.answers q (.ok v) → P (m.next ph q (.ok v)) x v)
    (hraised : ∀ e, m.answers q (.error e) → R (m.next ph q (.error e)) x e) :
    Ends m P R C ph x (perform q) := by
  refine ⟨hallow, fun r hr => ?_⟩
  cases r with
  | ok v => exact hvalue v hr
  | error e => exact hraised e hr

theorem Ends.bind {f : α → Raising Q V ε μ β} (h : Ends m P R C ph x p)
    (hf : ∀ ph x a, P ph x a → Ends m P' R C ph x (f a)) : Ends m P' R C ph x (p >>= f) := by
  refine Monitor.Obeys.bind h ?_
  rintro ph ⟨o, x⟩ ho
  cases o with
  | value a => exact hf ph x a ho
  | raised e => exact ho
  | cut => exact ho

theorem Ends.mono {P' : φ → μ → α → Prop} (h : Ends m P R C ph x p)
    (hP : ∀ ph x a, P ph x a → P' ph x a) (hR : ∀ ph x e, R ph x e → R' ph x e)
    (hC : ∀ ph x, C ph x → C' ph x) : Ends m P' R' C' ph x p := by
  refine Monitor.Obeys.mono h ?_
  rintro ph ⟨o, x⟩ ho
  cases o with
  | value a => exact hP ph x a ho
  | raised e => exact hR ph x e ho
  | cut => exact hC ph x ho

/-- The last block is run after a value and after a raise, and may itself raise. -/
theorem Ends.finallyDo {P' : φ → μ → α → Prop} {last : Raising Q V ε μ Unit}
    (h : Ends m P R C ph x p)
    (hvalue : ∀ ph x a, P ph x a → Ends m (fun ph x _ => P' ph x a) R' C ph x last)
    (hraised : ∀ ph x e, R ph x e → Ends m (fun ph x _ => R' ph x e) R' C ph x last) :
    Ends m P' R' C ph x (finallyDo p last) := by
  refine Monitor.Obeys.bind h ?_
  rintro ph ⟨o, x⟩ ho
  cases o with
  | value a => exact (hvalue ph x a ho).bind fun ph x _ h => .pure h
  | raised e => exact (hraised ph x e ho).bind fun ph x _ h => .raise h
  | cut => exact ho

theorem Ends.handling {handler : ε → Option (Raising Q V ε μ α)} (h : Ends m P R C ph x p)
    (htaken : ∀ ph x e r, handler e = some r → R ph x e → Ends m P R' C ph x r)
    (hleft : ∀ ph x e, handler e = none → R ph x e → R' ph x e) :
    Ends m P R' C ph x (handling p handler) := by
  refine Monitor.Obeys.bind h ?_
  rintro ph ⟨o, x⟩ ho
  cases o with
  | value a => exact ho
  | cut => exact ho
  | raised e =>
    change m.Obeys _ ph ((handler e).getD (Raising.raise e) x)
    cases hhandler : handler e with
    | none => exact hleft ph x e hhandler ho
    | some r => exact htaken ph x e r hhandler ho

theorem Ends.ite {c : Prop} [Decidable c] {p' : Raising Q V ε μ α}
    (h : c → Ends m P R C ph x p) (h' : ¬c → Ends m P R C ph x p') :
    Ends m P R C ph x (if c then p else p') := by
  split_ifs with hc
  · exact h hc
  · exact h' hc

end

end Raising

/-! ## Playing a program -/

section
variable {Q : Type} {A : Q → Type} {α : Type}

/-- The calls made so far, each with its answer. -/
abbrev CallLog (Q : Type) (A : Q → Type) := List (Σ q, A q)

/-- Play a program to its end. The world's answer may depend on all that has happened. -/
def Calls.play (world : CallLog Q A → (q : Q) → A q) : Calls Q A α → CallLog Q A → CallLog Q A × α
  | .done a, log => (log, a)
  | .call q next, log => play world (next (world log q)) (log ++ [⟨q, world log q⟩])

/-- The monitor whose phase is all that has happened. -/
def Monitor.logging (allows : CallLog Q A → Q → Prop) (answers : (q : Q) → A q → Prop) :
    Monitor Q A (CallLog Q A) where
  allows := allows
  answers := answers
  next log q a := log ++ [⟨q, a⟩]

variable {allows : CallLog Q A → Q → Prop} {answers : (q : Q) → A q → Prop} {log : CallLog Q A}

@[simp] theorem Monitor.logging_allows {q : Q} :
    (Monitor.logging allows answers).allows log q = allows log q := rfl

@[simp] theorem Monitor.logging_answers {q : Q} {a : A q} :
    (Monitor.logging allows answers).answers q a = answers q a := rfl

@[simp] theorem Monitor.logging_next {q : Q} {a : A q} :
    (Monitor.logging allows answers).next log q a = log ++ [⟨q, a⟩] := rfl

variable {p : Calls Q A α}

/-- What has happened stays. -/
theorem Calls.play_grows (world : CallLog Q A → (q : Q) → A q) (p : Calls Q A α) (log : CallLog Q A) :
    ∃ rest, (p.play world log).1 = log ++ rest := by
  induction p generalizing log with
  | done a => exact ⟨[], by simp [play]⟩
  | call q next ih =>
    obtain ⟨rest, hrest⟩ := ih (world log q) (log ++ [⟨q, world log q⟩])
    exact ⟨⟨q, world log q⟩ :: rest, by simpa [play] using hrest⟩

/-- What holds whatever the answers are holds against every world that keeps to them, and each call
was allowed where it was made. -/
theorem Calls.play_obeys {post : CallLog Q A → α → Prop} (world : CallLog Q A → (q : Q) → A q)
    (h : (Monitor.logging allows answers).Obeys post log p)
    (hanswers : ∀ q a, ⟨q, a⟩ ∈ (p.play world log).1 → answers q a) :
    post (p.play world log).1 (p.play world log).2 ∧
      ∃ rest, (p.play world log).1 = log ++ rest ∧
        ∀ before q a after, rest = before ++ ⟨q, a⟩ :: after → allows (log ++ before) q := by
  induction p generalizing log with
  | done a => exact ⟨h, [], by simp [play], by simp⟩
  | call q next ih =>
    have hanswer : answers q (world log q) := by
      obtain ⟨rest, hrest⟩ := play_grows world (next (world log q)) (log ++ [⟨q, world log q⟩])
      exact hanswers q _ (by simp [play, hrest])
    obtain ⟨hpost, rest, hrest, hallows⟩ := ih (world log q) (h.2 _ hanswer) hanswers
    refine ⟨hpost, ⟨q, world log q⟩ :: rest, by simpa [play] using hrest, ?_⟩
    intro before q' a after hsplit
    cases before with
    | nil =>
      obtain ⟨hq, -⟩ := List.cons.inj hsplit
      obtain ⟨rfl, -⟩ := Sigma.mk.inj hq
      simpa using h.1
    | cons first before =>
      obtain ⟨hfirst, hsplit⟩ := List.cons.inj hsplit
      simpa [← hfirst] using hallows before q' a after hsplit

end

end Recto
