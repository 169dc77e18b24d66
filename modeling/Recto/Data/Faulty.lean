import Mathlib.Tactic

/-!
# Programs over a store whose writes may fail

A program reads and writes a store. Each write is atomic, and meets the next
fault of a list: it lands, it raises and leaves the store as it was, or the
process stops just before or just after it. A program ends done, raised or
stopped, and in each case with a store. `Sat` asks a postcondition of all three
endings, whatever the faults; its rules follow the program's text.
-/

namespace Recto

universe u v w
variable {σ ε α β : Type u}

/-- What happens at a write. -/
inductive Fault where
  | lands
  | raises
  | stopsBefore
  | stopsAfter
  deriving DecidableEq, Repr

namespace Fault

/-- Every fault may be met. -/
def Any (_ : Fault) : Prop := True

/-- Writes may raise, and the process keeps running. -/
def Raising (f : Fault) : Prop := f = lands ∨ f = raises

/-- No write fails. -/
def Calm (f : Fault) : Prop := f = lands

end Fault

/-- How a program ends, with the store it leaves and the faults not met. -/
inductive Ending (σ ε α : Type u) where
  | done (a : α) (s : σ) (rest : List Fault)
  | raised (e : ε) (s : σ) (rest : List Fault)
  | stopped (s : σ)

namespace Ending

/-- The store at the end. -/
def store : Ending σ ε α → σ
  | .done _ s _ => s
  | .raised _ s _ => s
  | .stopped s => s

/-- The value or the error of a program that was not stopped. -/
def result? : Ending σ ε α → Option (Except ε α)
  | .done a _ _ => some (.ok a)
  | .raised e _ _ => some (.error e)
  | .stopped _ => none

end Ending

/-- A program over the store. -/
structure Faulty (σ ε α : Type u) where
  run : List Fault → σ → Ending σ ε α

namespace Faulty

protected def pure (a : α) : Faulty σ ε α := ⟨fun faults s => .done a s faults⟩

protected def bind (m : Faulty σ ε α) (f : α → Faulty σ ε β) : Faulty σ ε β :=
  ⟨fun faults s =>
    match m.run faults s with
    | .done a s' rest => (f a).run rest s'
    | .raised e s' rest => .raised e s' rest
    | .stopped s' => .stopped s'⟩

instance : Monad (Faulty σ ε) where
  pure := Faulty.pure
  bind := Faulty.bind

/-- Read the store. -/
def get : Faulty σ ε σ := ⟨fun faults s => .done s s faults⟩

/-- Raise. -/
def raise (e : ε) : Faulty σ ε α := ⟨fun faults s => .raised e s faults⟩

/-- Change what only the memory of the process holds: no write, so no fault. -/
def modify (f : σ → σ) : Faulty σ ε PUnit := ⟨fun faults s => .done ⟨⟩ (f s) faults⟩

/-- A pure computation that may refuse. -/
def ofExcept : Except ε α → Faulty σ ε α
  | .ok a => Faulty.pure a
  | .error e => raise e

/-- One atomic write, which may raise `e`. -/
def write (f : σ → σ) (e : ε) : Faulty σ ε PUnit :=
  ⟨fun faults s =>
    match faults with
    | [] => .done ⟨⟩ (f s) []
    | .lands :: rest => .done ⟨⟩ (f s) rest
    | .raises :: rest => .raised e s rest
    | .stopsBefore :: _ => .stopped s
    | .stopsAfter :: _ => .stopped (f s)⟩

/-- `try m except e: handler e` -/
def handle (m : Faulty σ ε α) (handler : ε → Faulty σ ε α) : Faulty σ ε α :=
  ⟨fun faults s =>
    match m.run faults s with
    | .done a s' rest => .done a s' rest
    | .raised e s' rest => (handler e).run rest s'
    | .stopped s' => .stopped s'⟩

/-- One after the other, in the order of the list. -/
def forEach (f : β → Faulty σ ε PUnit) : List β → Faulty σ ε PUnit
  | [] => Faulty.pure ⟨⟩
  | x :: xs => Faulty.bind (f x) fun _ => forEach f xs

/-- A program over a part of the store. -/
def zoom {τ ε' : Type u} (part : σ → τ) (put : σ → τ → σ) (err : ε' → ε) (m : Faulty τ ε' α) :
    Faulty σ ε α :=
  ⟨fun faults s =>
    match m.run faults (part s) with
    | .done a t rest => .done a (put s t) rest
    | .raised e t rest => .raised (err e) (put s t) rest
    | .stopped t => .stopped (put s t)⟩

/-! ## Runs -/

@[simp] theorem run_pure (a : α) (faults : List Fault) (s : σ) :
    (Pure.pure a : Faulty σ ε α).run faults s = .done a s faults := rfl

@[simp] theorem run_get (faults : List Fault) (s : σ) :
    (get : Faulty σ ε σ).run faults s = .done s s faults := rfl

@[simp] theorem run_raise (e : ε) (faults : List Fault) (s : σ) :
    (raise e : Faulty σ ε α).run faults s = .raised e s faults := rfl

@[simp] theorem run_write_nil (f : σ → σ) (e : ε) (s : σ) :
    (write f e : Faulty σ ε PUnit).run [] s = .done ⟨⟩ (f s) [] := rfl

theorem run_bind (m : Faulty σ ε α) (f : α → Faulty σ ε β) (faults : List Fault) (s : σ) :
    (m >>= f).run faults s =
      match m.run faults s with
      | .done a s' rest => (f a).run rest s'
      | .raised e s' rest => .raised e s' rest
      | .stopped s' => .stopped s' := rfl

theorem run_handle (m : Faulty σ ε α) (handler : ε → Faulty σ ε α) (faults : List Fault) (s : σ) :
    (m.handle handler).run faults s =
      match m.run faults s with
      | .done a s' rest => .done a s' rest
      | .raised e s' rest => (handler e).run rest s'
      | .stopped s' => .stopped s' := rfl

@[simp] theorem run_modify (f : σ → σ) (faults : List Fault) (s : σ) :
    (modify f : Faulty σ ε PUnit).run faults s = .done ⟨⟩ (f s) faults := rfl

theorem run_zoom {τ ε' : Type u} (part : σ → τ) (put : σ → τ → σ) (err : ε' → ε)
    (m : Faulty τ ε' α) (faults : List Fault) (s : σ) :
    (zoom part put err m).run faults s =
      match m.run faults (part s) with
      | .done a t rest => .done a (put s t) rest
      | .raised e t rest => .raised (err e) (put s t) rest
      | .stopped t => .stopped (put s t) := rfl

@[simp] theorem ofExcept_ok (a : α) : (ofExcept (.ok a) : Faulty σ ε α) = Pure.pure a := rfl

@[simp] theorem ofExcept_error (e : ε) : (ofExcept (.error e) : Faulty σ ε α) = raise e := rfl

/-! ## What holds at every ending -/

/-- What is asked of each ending. -/
structure Post (σ ε α : Type u) where
  done : α → σ → Prop
  raised : ε → σ → Prop
  stopped : σ → Prop

/-- The ending meets the postcondition, with faults of the class left. -/
def Post.holds (Q : Post σ ε α) (F : Fault → Prop) : Ending σ ε α → Prop
  | .done a s rest => Q.done a s ∧ ∀ f ∈ rest, F f
  | .raised e s rest => Q.raised e s ∧ ∀ f ∈ rest, F f
  | .stopped s => Q.stopped s

/-- From the store `s` the program meets the postcondition, whatever the faults of the class. -/
def Sat (F : Fault → Prop) (m : Faulty σ ε α) (s : σ) (Q : Post σ ε α) : Prop :=
  ∀ faults, (∀ f ∈ faults, F f) → Q.holds F (m.run faults s)

/-- The same asked of every ending. -/
def Post.always (P : σ → Prop) : Post σ ε α where
  done _ := P
  raised _ := P
  stopped := P

theorem Post.always_store {P : σ → Prop} {F : Fault → Prop} {ending : Ending σ ε α}
    (h : (Post.always P).holds F ending) : P ending.store := by
  cases ending with
  | done a s rest => exact h.1
  | raised e s rest => exact h.1
  | stopped s => exact h

section Rules

variable {F : Fault → Prop} {s : σ} {Q R : Post σ ε α}

theorem Sat.mono {m : Faulty σ ε α} (h : m.Sat F s Q) (hdone : ∀ a s, Q.done a s → R.done a s)
    (hraised : ∀ e s, Q.raised e s → R.raised e s) (hstopped : ∀ s, Q.stopped s → R.stopped s) :
    m.Sat F s R := by
  intro faults hfaults
  have := h faults hfaults
  cases hm : m.run faults s with
  | done a s' rest =>
    rw [hm] at this
    exact ⟨hdone a s' this.1, this.2⟩
  | raised e s' rest =>
    rw [hm] at this
    exact ⟨hraised e s' this.1, this.2⟩
  | stopped s' =>
    rw [hm] at this
    exact hstopped s' this

theorem Sat.pure {a : α} (h : Q.done a s) : (Pure.pure a : Faulty σ ε α).Sat F s Q :=
  fun _ hfaults => ⟨h, hfaults⟩

theorem Sat.raise {e : ε} (h : Q.raised e s) : (Faulty.raise e : Faulty σ ε α).Sat F s Q :=
  fun _ hfaults => ⟨h, hfaults⟩

theorem Sat.get {Q : Post σ ε σ} (h : Q.done s s) : (Faulty.get : Faulty σ ε σ).Sat F s Q :=
  fun _ hfaults => ⟨h, hfaults⟩

theorem Sat.modify {Q : Post σ ε PUnit} {f : σ → σ} (h : Q.done ⟨⟩ (f s)) :
    (Faulty.modify f : Faulty σ ε PUnit).Sat F s Q :=
  fun _ hfaults => ⟨h, hfaults⟩

theorem Sat.ofExcept {x : Except ε α} (hok : ∀ a, x = .ok a → Q.done a s)
    (herror : ∀ e, x = .error e → Q.raised e s) : (Faulty.ofExcept x : Faulty σ ε α).Sat F s Q := by
  cases x with
  | ok a => exact fun _ hfaults => ⟨hok a rfl, hfaults⟩
  | error e => exact fun _ hfaults => ⟨herror e rfl, hfaults⟩

theorem Sat.write {Q : Post σ ε PUnit} {f : σ → σ} {e : ε} (hdone : Q.done ⟨⟩ (f s))
    (hraised : F .raises → Q.raised e s) (hbefore : F .stopsBefore → Q.stopped s)
    (hafter : F .stopsAfter → Q.stopped (f s)) :
    (Faulty.write f e : Faulty σ ε PUnit).Sat F s Q := by
  intro faults hfaults
  cases faults with
  | nil => exact ⟨hdone, hfaults⟩
  | cons fault rest =>
    have hrest : ∀ f ∈ rest, F f := fun f hf => hfaults f (List.mem_cons_of_mem _ hf)
    cases fault with
    | lands => exact ⟨hdone, hrest⟩
    | raises => exact ⟨hraised (hfaults _ List.mem_cons_self), hrest⟩
    | stopsBefore => exact hbefore (hfaults _ List.mem_cons_self)
    | stopsAfter => exact hafter (hfaults _ List.mem_cons_self)

theorem Sat.bind {m : Faulty σ ε α} {f : α → Faulty σ ε β} {Q : Post σ ε β}
    (h : m.Sat F s ⟨fun a s' => (f a).Sat F s' Q, Q.raised, Q.stopped⟩) : (m >>= f).Sat F s Q := by
  intro faults hfaults
  have hm := h faults hfaults
  rw [run_bind]
  cases hrun : m.run faults s with
  | done a s' rest =>
    rw [hrun] at hm
    exact hm.1 rest hm.2
  | raised e s' rest =>
    rw [hrun] at hm
    exact hm
  | stopped s' =>
    rw [hrun] at hm
    exact hm

theorem Sat.handle {m : Faulty σ ε α} {handler : ε → Faulty σ ε α}
    (h : m.Sat F s ⟨Q.done, fun e s' => (handler e).Sat F s' Q, Q.stopped⟩) :
    (m.handle handler).Sat F s Q := by
  intro faults hfaults
  have hm := h faults hfaults
  rw [run_handle]
  cases hrun : m.run faults s with
  | done a s' rest =>
    rw [hrun] at hm
    exact hm
  | raised e s' rest =>
    rw [hrun] at hm
    exact hm.1 rest hm.2
  | stopped s' =>
    rw [hrun] at hm
    exact hm

theorem Sat.bindGet {f : σ → Faulty σ ε β} {Q : Post σ ε β} (h : (f s).Sat F s Q) :
    (Faulty.get >>= f).Sat F s Q := .bind (.get h)

theorem Sat.bindModify {g : σ → σ} {f : PUnit → Faulty σ ε β} {Q : Post σ ε β}
    (h : (f ⟨⟩).Sat F (g s) Q) : (Faulty.modify g >>= f).Sat F s Q := .bind (.modify h)

theorem Sat.bindExcept {x : Except ε α} {f : α → Faulty σ ε β} {Q : Post σ ε β}
    (hok : ∀ a, x = .ok a → (f a).Sat F s Q) (herror : ∀ e, x = .error e → Q.raised e s) :
    (Faulty.ofExcept x >>= f).Sat F s Q := .bind (.ofExcept hok herror)

theorem Sat.ite {p : Prop} [Decidable p] {m n : Faulty σ ε α} (hm : p → m.Sat F s Q)
    (hn : ¬p → n.Sat F s Q) : (if p then m else n).Sat F s Q := by
  split
  · exact hm ‹_›
  · exact hn ‹_›

/-- What a loop keeps of the items still ahead. -/
theorem Sat.forEach {Q : Post σ ε PUnit} {f : β → Faulty σ ε PUnit} {xs : List β}
    (I : List β → σ → Prop) (h : I xs s)
    (hstep : ∀ x rest s, I (x :: rest) s →
      (f x).Sat F s ⟨fun _ s' => I rest s', Q.raised, Q.stopped⟩)
    (hdone : ∀ s, I [] s → Q.done ⟨⟩ s) : (Faulty.forEach f xs).Sat F s Q := by
  induction xs generalizing s with
  | nil => exact .pure (hdone s h)
  | cons x rest ih => exact .bind ((hstep x rest s h).mono (fun _ _ h' => ih h')
      (fun _ _ h' => h') fun _ h' => h')

theorem Sat.zoom {τ ε' : Type u} {part : σ → τ} {put : σ → τ → σ} {err : ε' → ε}
    {m : Faulty τ ε' α}
    (h : m.Sat F (part s) ⟨fun a t => Q.done a (put s t), fun e t => Q.raised (err e) (put s t),
      fun t => Q.stopped (put s t)⟩) : (Faulty.zoom part put err m).Sat F s Q := by
  intro faults hfaults
  have hm := h faults hfaults
  rw [run_zoom]
  cases hrun : m.run faults (part s) with
  | done a t rest =>
    rw [hrun] at hm
    exact hm
  | raised e t rest =>
    rw [hrun] at hm
    exact hm
  | stopped t =>
    rw [hrun] at hm
    exact hm

end Rules

/-! ## What a program leaves alone -/

/-- The view of the store is the same at every ending. -/
def Leaves {τ : Type v} (F : Fault → Prop) (view : σ → τ) (m : Faulty σ ε α) : Prop :=
  ∀ s, m.Sat F s (Post.always fun s' => view s' = view s)

section Leaves

variable {τ : Type v} {F : Fault → Prop} {view : σ → τ}

theorem Leaves.pure (a : α) : Leaves F view (Pure.pure a : Faulty σ ε α) := fun _ => .pure rfl

theorem Leaves.raise (e : ε) : Leaves F view (Faulty.raise e : Faulty σ ε α) := fun _ => .raise rfl

theorem Leaves.get : Leaves F view (Faulty.get : Faulty σ ε σ) := fun _ => .get rfl

theorem Leaves.ofExcept (x : Except ε α) : Leaves F view (Faulty.ofExcept x : Faulty σ ε α) :=
  fun _ => .ofExcept (fun _ _ => rfl) fun _ _ => rfl

theorem Leaves.modify {f : σ → σ} (h : ∀ s, view (f s) = view s) :
    Leaves F view (Faulty.modify f : Faulty σ ε PUnit) := fun s => .modify (h s)

theorem Leaves.write {f : σ → σ} (e : ε) (h : ∀ s, view (f s) = view s) :
    Leaves F view (Faulty.write f e : Faulty σ ε PUnit) :=
  fun s => .write (h s) (fun _ => rfl) (fun _ => rfl) fun _ => h s

theorem Leaves.bind {m : Faulty σ ε α} {f : α → Faulty σ ε β} (hm : Leaves F view m)
    (hf : ∀ a, Leaves F view (f a)) : Leaves F view (m >>= f) := by
  intro s
  refine .bind ((hm s).mono (fun a s' h => ?_) (fun _ _ h => h) fun _ h => h)
  exact (hf a s').mono (fun _ _ h' => h'.trans h) (fun _ _ h' => h'.trans h) fun _ h' => h'.trans h

theorem Leaves.handle {m : Faulty σ ε α} {handler : ε → Faulty σ ε α} (hm : Leaves F view m)
    (hh : ∀ e, Leaves F view (handler e)) : Leaves F view (m.handle handler) := by
  intro s
  refine .handle ((hm s).mono (fun _ _ h => h) (fun e s' h => ?_) fun _ h => h)
  exact (hh e s').mono (fun _ _ h' => h'.trans h) (fun _ _ h' => h'.trans h) fun _ h' => h'.trans h

theorem Leaves.forEach {f : β → Faulty σ ε PUnit} (hf : ∀ x, Leaves F view (f x)) (xs : List β) :
    Leaves F view (Faulty.forEach f xs) := by
  induction xs with
  | nil => exact .pure _
  | cons x xs ih => exact .bind (hf x) fun _ => ih

theorem Leaves.ite {p : Prop} [Decidable p] {m n : Faulty σ ε α} (hm : Leaves F view m)
    (hn : Leaves F view n) : Leaves F view (if p then m else n) := by
  split
  · exact hm
  · exact hn

theorem Leaves.zoom {τ' : Type u} {ε' : Type u} {υ : Type w} {part : σ → τ'} {put : σ → τ' → σ}
    {err : ε' → ε} {part_view : τ' → υ} {m : Faulty τ' ε' α} (hm : Leaves F part_view m)
    (h : ∀ s t, part_view t = part_view (part s) → view (put s t) = view s) :
    Leaves F view (Faulty.zoom part put err m) :=
  fun s => .zoom ((hm (part s)).mono (fun _ t ht => h s t ht) (fun _ t ht => h s t ht) fun t ht => h s t ht)

/-- A coarser view is left alone too. -/
theorem Leaves.map {τ' : Type w} {m : Faulty σ ε α} (h : Leaves F view m) (g : τ → τ') :
    Leaves F (fun s => g (view s)) m :=
  fun s => (h s).mono (fun _ _ h => congrArg g h) (fun _ _ h => congrArg g h) fun _ h => congrArg g h

/-- After a program that leaves the view alone. -/
theorem Leaves.bindSat {m : Faulty σ ε α} {f : α → Faulty σ ε β} {s : σ} {Q : Post σ ε β}
    (hm : Leaves F view m) (hf : ∀ a s', view s' = view s → (f a).Sat F s' Q)
    (hraised : ∀ e s', view s' = view s → Q.raised e s')
    (hstopped : ∀ s', view s' = view s → Q.stopped s') : (m >>= f).Sat F s Q :=
  .bind ((hm s).mono (fun a s' h => hf a s' h) hraised hstopped)

end Leaves

/-! ## What a program keeps -/

/-- The invariant holds at every ending of a program that starts in it. -/
def Keeps (F : Fault → Prop) (I : σ → Prop) (m : Faulty σ ε α) : Prop :=
  ∀ s, I s → m.Sat F s (Post.always I)

section Keeps

variable {F : Fault → Prop} {I : σ → Prop}

theorem Sat.bindAlways {m : Faulty σ ε α} {f : α → Faulty σ ε β} {s : σ}
    (hm : m.Sat F s (Post.always I)) (hf : ∀ a s', I s' → (f a).Sat F s' (Post.always I)) :
    (m >>= f).Sat F s (Post.always I) :=
  .bind (hm.mono (fun a s' h => hf a s' h) (fun _ _ h => h) fun _ h => h)

theorem Keeps.pure (a : α) : Keeps F I (Pure.pure a : Faulty σ ε α) := fun _ h => .pure h

theorem Keeps.raise (e : ε) : Keeps F I (Faulty.raise e : Faulty σ ε α) := fun _ h => .raise h

theorem Keeps.get : Keeps F I (Faulty.get : Faulty σ ε σ) := fun _ h => .get h

theorem Keeps.ofExcept (x : Except ε α) : Keeps F I (Faulty.ofExcept x : Faulty σ ε α) :=
  fun _ h => .ofExcept (fun _ _ => h) fun _ _ => h

theorem Keeps.bind {m : Faulty σ ε α} {f : α → Faulty σ ε β} (hm : Keeps F I m)
    (hf : ∀ a, Keeps F I (f a)) : Keeps F I (m >>= f) :=
  fun s h => .bindAlways (hm s h) hf

theorem Keeps.handle {m : Faulty σ ε α} {handler : ε → Faulty σ ε α} (hm : Keeps F I m)
    (hh : ∀ e, Keeps F I (handler e)) : Keeps F I (m.handle handler) :=
  fun s h => .handle ((hm s h).mono (fun _ _ h => h) hh fun _ h => h)

theorem Keeps.forEach {f : β → Faulty σ ε PUnit} {xs : List β} (hf : ∀ x ∈ xs, Keeps F I (f x)) :
    Keeps F I (Faulty.forEach f xs) := by
  induction xs with
  | nil => exact .pure _
  | cons x xs ih =>
    exact .bind (hf x List.mem_cons_self) fun _ => ih fun y hy => hf y (List.mem_cons_of_mem _ hy)

theorem Keeps.ite {p : Prop} [Decidable p] {m n : Faulty σ ε α} (hm : p → Keeps F I m)
    (hn : ¬p → Keeps F I n) : Keeps F I (if p then m else n) := by
  split
  · exact hm ‹_›
  · exact hn ‹_›

/-- What leaves the view alone keeps what the view decides. -/
theorem Leaves.keeps {τ : Type v} {view : σ → τ} {m : Faulty σ ε α} (h : Leaves F view m)
    (hI : ∀ s s', view s' = view s → I s → I s') : Keeps F I m :=
  fun s hs => (h s).mono (fun _ _ hv => hI _ _ hv hs) (fun _ _ hv => hI _ _ hv hs)
    fun _ hv => hI _ _ hv hs

end Keeps

end Faulty
end Recto
