import Recto.Secrets.Manage

/-!
# Rows and values under concurrent calls

The connections store and the user vault share one design: rows in a sidecar
file, values in a vault, and calls that load the file, write or delete a value,
and replace the file. Nothing holds the file between the load and the save. A
run here is any order of such steps, with any of them raising, and the file
lost or unreadable at any moment.
-/

namespace Recto
namespace Sidecar

open Connections Secrets

/-- What a store keeps: rows by key, values by the name a key has in the vault. -/
structure Kind (κ ν ρ α : Type) where
  name : κ → ν
  name_injective : Function.Injective name
  hasSecret : ρ → Bool
  /-- The row of a set: its key and arguments, the time, the row before, and whether it wrote a
  value. -/
  row : κ → α → ℤ → Option ρ → Bool → ρ
  hasSecret_row : ∀ k a now before wrote,
    hasSecret (row k a now before wrote) = ((before.map hasSecret).getD false || wrote)

/-- A call, its key as stored. -/
inductive Call (κ α : Type) where
  | set (key : κ) (secret : Option String) (args : α) (now : ℤ)
  | delete (key : κ)
  deriving DecidableEq

def Call.key {κ α : Type} : Call κ α → κ
  | set key _ _ _ => key
  | delete key => key

/-- A call past its load: the rows it read, and whether its vault step, once made, changed the
vault. -/
structure Progress (κ ρ α : Type) where
  call : Call κ α
  loaded : Dict κ ρ
  stage : Option Bool
  deriving DecidableEq

/-- The file, the vault and the calls on their way; `gone` are the keys whose delete has returned,
until a value is written for them again. -/
structure State (κ ν ρ α : Type) where
  file : Option (Dict κ ρ)
  vault : Dict ν String
  running : Dict ℕ (Progress κ ρ α)
  gone : List κ

/-- A step of a run: of a call, by its number, or the loss of the file. -/
inductive Step (κ α : Type) where
  | load (id : ℕ) (call : Call κ α) (whole : Bool)
  | vault (id : ℕ) (raises : Bool)
  | save (id : ℕ) (raises : Bool)
  | lose

section

variable {κ ν ρ α : Type} [DecidableEq κ] [DecidableEq ν] (K : Kind κ ν ρ α)

namespace State

/-- The rows a whole file gives; none when there is no file. -/
def rows (s : State κ ν ρ α) : Dict κ ρ := s.file.getD ∅

/-- What a read of a key's value gives. -/
def value (s : State κ ν ρ α) (k : κ) : Option String := s.vault.get? (K.name k)

end State

/-- `load`: a file that cannot be read is an empty one. A delete of a key without a row returns. -/
def load (s : State κ ν ρ α) (id : ℕ) (call : Call κ α) (whole : Bool) : State κ ν ρ α :=
  let rows := if whole then s.rows else ∅
  match call with
  | .set _ _ _ _ => { s with running := s.running.set id ⟨call, rows, none⟩ }
  | .delete key =>
      if key ∈ rows then { s with running := s.running.set id ⟨call, rows, none⟩ }
      else { s with gone := key :: s.gone }

/-- The vault step: a set writes its value if it has one, a delete deletes. -/
def vaultStep (s : State κ ν ρ α) (id : ℕ) (p : Progress κ ρ α) (raises : Bool) : State κ ν ρ α :=
  match p.call with
  | .set key secret _ _ =>
      match nonEmpty secret with
      | none => { s with running := s.running.set id { p with stage := some false } }
      | some v =>
          if raises then { s with running := s.running.erase id }
          else { s with vault := s.vault.set (K.name key) v
                        running := s.running.set id { p with stage := some true }
                        gone := s.gone.filter (· ≠ key) }
  | .delete key =>
      if raises then { s with running := s.running.erase id }
      else { s with vault := s.vault.erase (K.name key)
                    running := s.running.set id { p with stage := some true } }

/-- The replace of the file by the rows loaded, with the call's own row set or removed. -/
def save (s : State κ ν ρ α) (id : ℕ) (p : Progress κ ρ α) (wrote raises : Bool) : State κ ν ρ α :=
  if raises then { s with running := s.running.erase id }
  else
    match p.call with
    | .set key _ args now =>
        { s with file := some (p.loaded.set key (K.row key args now (p.loaded.get? key) wrote))
                 running := s.running.erase id }
    | .delete key =>
        { s with file := some (p.loaded.erase key), running := s.running.erase id
                 gone := key :: s.gone }

/-- One step; a step out of its turn changes nothing. -/
def Step.run (s : State κ ν ρ α) : Step κ α → State κ ν ρ α
  | .load id call whole => if id ∈ s.running then s else Sidecar.load s id call whole
  | .vault id raises =>
      match s.running.get? id with
      | some p => if p.stage = none then vaultStep K s id p raises else s
      | none => s
  | .save id raises =>
      match s.running.get? id with
      | some p =>
          match p.stage with
          | some wrote => Sidecar.save K s id p wrote raises
          | none => s
      | none => s
  | .lose => { s with file := none }

/-- The store before any call. -/
def initial : State κ ν ρ α := ⟨none, ∅, ∅, []⟩

/-- The state after a run. -/
def after (steps : List (Step κ α)) : State κ ν ρ α := steps.foldl (Step.run K) initial

/-! ## What the two stores owe each other -/

/-- The key of the call whose save this is. -/
def Step.savedKey (s : State κ ν ρ α) : Step κ α → Option κ
  | .save id _ => (s.running.get? id).map fun p => p.call.key
  | _ => none

/-- No call changes or drops the row of another key. -/
def KeepsOthers (s : State κ ν ρ α) (step : Step κ α) : Prop :=
  (∃ id, (∃ call whole, step = .load id call whole) ∨ (∃ raises, step = .vault id raises) ∨
    ∃ raises, step = .save id raises) →
      ∀ k, step.savedKey s ≠ some k → (step.run K s).rows.get? k = s.rows.get? k

/-- A row that says it has a value has one, unless a delete of its key is on its way. -/
def SecretsHeld (s : State κ ν ρ α) : Prop :=
  ∀ k r, s.rows.get? k = some r → K.hasSecret r = true →
    (s.value K k).isSome = true ∨ ∃ id p, s.running.get? id = some p ∧ p.call = .delete k

/-- A key whose delete has returned reads as nothing. -/
def GoneReadNone (s : State κ ν ρ α) : Prop := ∀ k ∈ s.gone, s.value K k = none

/-- A call loads a whole file and while no other call is on its way, no save raises once its call
has changed the vault, and no file with rows is lost. -/
def Orderly (s : State κ ν ρ α) : Step κ α → Prop
  | .load _ _ whole => s.running = ∅ ∧ (whole = true ∨ s.rows = ∅)
  | .vault _ _ => True
  | .save id raises => raises = true → ∀ p, s.running.get? id = some p → p.stage ≠ some true
  | .lose => s.rows = ∅

instance [DecidableEq ρ] [DecidableEq α] (s : State κ ν ρ α) (step : Step κ α) :
    Decidable (Orderly s step) :=
  match step with
  | .load _ _ whole => inferInstanceAs (Decidable (s.running = ∅ ∧ (whole = true ∨ s.rows = ∅)))
  | .vault _ _ => inferInstanceAs (Decidable True)
  | .save id raises =>
      inferInstanceAs (Decidable (raises = true → ∀ p ∈ s.running.get? id, p.stage ≠ some true))
  | .lose => inferInstanceAs (Decidable (s.rows = ∅))

/-- Every step of the run is in order. -/
def OrderlyRun (steps : List (Step κ α)) : Prop :=
  ∀ before step rest, steps = before ++ step :: rest → Orderly (after K before) step

/-! ## The invariant of orderly runs -/

/-- Row and value of a key agree: a row that says it has a value has one, and a value has a row. -/
def Synced (s : State κ ν ρ α) (k : κ) : Prop :=
  (∀ r, s.rows.get? k = some r → K.hasSecret r = true → (s.value K k).isSome = true) ∧
    ((s.value K k).isSome = true → ∃ r, s.rows.get? k = some r)

/-- What an orderly run keeps. -/
structure Inv (s : State κ ν ρ α) : Prop where
  one : ∀ id p id' p', s.running.get? id = some p → s.running.get? id' = some p' → id = id'
  loaded : ∀ id p, s.running.get? id = some p → p.loaded = s.rows
  synced : ∀ k, Synced K s k ∨
    ∃ id p, s.running.get? id = some p ∧ p.call.key = k ∧ p.stage = some true
  setWrote : ∀ id p, s.running.get? id = some p → p.stage = some true →
    ∀ k secret args now, p.call = .set k secret args now → (s.value K k).isSome = true
  deleteWrote : ∀ id p, s.running.get? id = some p → p.stage ≠ none →
    ∀ k, p.call = .delete k → p.stage = some true ∧ s.value K k = none
  gone : GoneReadNone K s

variable {K} {s : State κ ν ρ α}

theorem inv_initial : Inv K (initial : State κ ν ρ α) where
  one := by simp [initial]
  loaded := by simp [initial]
  synced k := Or.inl ⟨by simp [initial, State.rows], by simp [initial, State.value]⟩
  setWrote := by simp [initial]
  deleteWrote := by simp [initial]
  gone := by simp [GoneReadNone, initial]

/-- With no call on its way every row and value agree. -/
theorem Inv.allSynced (h : Inv K s) (hidle : s.running = ∅) (k : κ) : Synced K s k := by
  rcases h.synced k with hk | ⟨id, p, hp, -⟩
  · exact hk
  · simp [hidle] at hp

theorem Inv.load (h : Inv K s) (id : ℕ) (call : Call κ α) {whole : Bool} (hidle : s.running = ∅)
    (hwhole : whole = true ∨ s.rows = ∅) : Inv K (Sidecar.load s id call whole) := by
  have hrows : (if whole then s.rows else ∅) = s.rows := by
    rcases hwhole with rfl | hempty
    · rfl
    · rw [hempty, ite_self]
  have hstart : Inv K { s with running := s.running.set id ⟨call, s.rows, none⟩ } := by
    have hget : ∀ id' p', (s.running.set id ⟨call, s.rows, none⟩).get? id' = some p' →
        id' = id ∧ p' = ⟨call, s.rows, none⟩ := by
      intro id' p' hp'
      rw [hidle, Dict.get?_set] at hp'
      split_ifs at hp' with hid
      · exact ⟨hid, (Option.some.inj hp').symm⟩
      · simp at hp'
    refine ⟨?_, ?_, fun k => Or.inl (h.allSynced hidle k), ?_, ?_, h.gone⟩
    · intro id₁ p₁ id₂ p₂ h₁ h₂
      exact (hget _ _ h₁).1.trans (hget _ _ h₂).1.symm
    · intro id₁ p₁ h₁
      rw [(hget _ _ h₁).2]
      rfl
    · intro id₁ p₁ h₁ hstage
      rw [(hget _ _ h₁).2] at hstage
      cases hstage
    · intro id₁ p₁ h₁ hstage
      rw [(hget _ _ h₁).2] at hstage
      exact absurd rfl hstage
  unfold Sidecar.load
  simp only [hrows]
  cases call with
  | set key secret args now => exact hstart
  | delete key =>
    by_cases hkey : key ∈ s.rows
    · simp only [if_pos hkey]
      exact hstart
    · simp only [if_neg hkey]
      refine ⟨h.one, h.loaded, h.synced, h.setWrote, h.deleteWrote, ?_⟩
      intro k hk
      rcases List.mem_cons.mp hk with rfl | hk
      · -- No row, so no value either.
        by_contra hvalue
        obtain ⟨r, hr⟩ := (h.allSynced hidle k).2 (Option.isSome_iff_ne_none.mpr hvalue)
        exact hkey (Dict.mem_of_get? hr)
      · exact h.gone k hk

/-- A call ends without a save: nothing of it is left if it had not changed the vault. -/
theorem Inv.abandon (h : Inv K s) {id : ℕ} {p : Progress κ ρ α} (hp : s.running.get? id = some p)
    (hstage : p.stage ≠ some true) : Inv K { s with running := s.running.erase id } := by
  have hget : ∀ id' p', (s.running.erase id).get? id' = some p' →
      id' ≠ id ∧ s.running.get? id' = some p' := by
    intro id' p' hp'
    rw [Dict.get?_erase] at hp'
    split_ifs at hp' with hid
    exact ⟨hid, hp'⟩
  have hnone : ∀ id' p', (s.running.erase id).get? id' ≠ some p' := fun id' p' hp' =>
    (hget _ _ hp').1 (h.one _ _ _ _ (hget _ _ hp').2 hp)
  refine ⟨?_, ?_, ?_, ?_, ?_, h.gone⟩
  · exact fun id₁ p₁ _ _ h₁ => absurd h₁ (hnone id₁ p₁)
  · exact fun id₁ p₁ h₁ => absurd h₁ (hnone id₁ p₁)
  · intro k
    rcases h.synced k with hk | ⟨id', p', hp', -, htrue⟩
    · exact Or.inl hk
    · obtain rfl := h.one _ _ _ _ hp' hp
      obtain rfl := Option.some.inj (hp'.symm.trans hp)
      exact absurd htrue hstage
  · exact fun id₁ p₁ h₁ => absurd h₁ (hnone id₁ p₁)
  · exact fun id₁ p₁ h₁ => absurd h₁ (hnone id₁ p₁)

/-- The call on its way is the only one. -/
theorem Inv.unique (h : Inv K s) {id id' : ℕ} {p p' : Progress κ ρ α}
    (hp : s.running.get? id = some p) (hp' : s.running.get? id' = some p') : id' = id ∧ p' = p := by
  obtain rfl := h.one _ _ _ _ hp' hp
  exact ⟨rfl, Option.some.inj (hp'.symm.trans hp)⟩

/-- Past the vault step of a call, which touches the value of its own key only. -/
theorem Inv.advance (h : Inv K s) {id : ℕ} {p : Progress κ ρ α} (hp : s.running.get? id = some p)
    (hstage : p.stage = none) (changed : Bool) {vault : Dict ν String} {gone : List κ}
    (hothers : ∀ k, k ≠ p.call.key → vault.get? (K.name k) = s.value K k)
    (hsame : changed = false → vault = s.vault)
    (hset : changed = true → ∀ k secret args now, p.call = .set k secret args now →
      (vault.get? (K.name k)).isSome = true)
    (hdelete : ∀ k, p.call = .delete k → changed = true ∧ vault.get? (K.name k) = none)
    (hgone : ∀ k ∈ gone, vault.get? (K.name k) = none) :
    Inv K { s with vault, running := s.running.set id { p with stage := some changed }, gone } := by
  have hget : ∀ id' p', (s.running.set id { p with stage := some changed }).get? id' = some p' →
      id' = id ∧ p' = { p with stage := some changed } := by
    intro id' p' hp'
    rw [Dict.get?_set] at hp'
    split_ifs at hp' with hid
    · exact ⟨hid, (Option.some.inj hp').symm⟩
    · exact absurd (h.unique hp hp').1 hid
  have hsynced : ∀ k, Synced K s k := fun k =>
    (h.synced k).resolve_right fun ⟨id', p', hp', _, htrue⟩ => by
      rw [(h.unique hp hp').2, hstage] at htrue
      cases htrue
  refine ⟨?_, ?_, ?_, ?_, ?_, hgone⟩
  · exact fun id₁ p₁ id₂ p₂ h₁ h₂ => (hget _ _ h₁).1.trans (hget _ _ h₂).1.symm
  · intro id₁ p₁ h₁
    rw [(hget _ _ h₁).2]
    exact h.loaded id p hp
  · intro k
    by_cases hkey : k = p.call.key
    · cases changed with
      | true => exact Or.inr ⟨id, _, Dict.get?_set_self _ _ _, hkey.symm, rfl⟩
      | false =>
        rw [hsame rfl]
        exact Or.inl (hsynced k)
    · refine Or.inl ?_
      unfold Synced State.value State.rows
      simp only [hothers k hkey]
      exact hsynced k
  · intro id₁ p₁ h₁ htrue k secret args now hcall
    rw [(hget _ _ h₁).2] at htrue hcall
    exact hset (Option.some.inj htrue) k secret args now hcall
  · intro id₁ p₁ h₁ _ k hcall
    rw [(hget _ _ h₁).2] at hcall ⊢
    obtain ⟨hchanged, hnone⟩ := hdelete k hcall
    exact ⟨congrArg some hchanged, hnone⟩

theorem Inv.vaultStep (h : Inv K s) {id : ℕ} {p : Progress κ ρ α} (hp : s.running.get? id = some p)
    (hstage : p.stage = none) (raises : Bool) : Inv K (Sidecar.vaultStep K s id p raises) := by
  have habandon := h.abandon hp (by simp [hstage])
  have hname : ∀ {k k' : κ}, k ≠ k' → K.name k ≠ K.name k' := fun hne heq =>
    hne (K.name_injective heq)
  obtain ⟨call, loaded, stage⟩ := p
  unfold Sidecar.vaultStep
  cases call with
  | set key secret args now =>
    simp only
    cases hwritten : nonEmpty secret with
    | none =>
      exact h.advance hp hstage false (fun _ _ => rfl) (fun _ => rfl) (fun hne => nomatch hne)
        (fun _ hk => nomatch hk) h.gone
    | some v =>
      simp only
      split_ifs
      · exact habandon
      · refine h.advance hp hstage true ?_ (fun hne => nomatch hne) ?_ (fun _ hk => nomatch hk) ?_
        · exact fun k hk => Dict.get?_set_of_ne _ (hname hk) v
        · intro _ k secret' args' now' hk
          obtain rfl := (Call.set.inj hk).1
          simp
        · intro k hk
          obtain ⟨hmem, hne⟩ := List.mem_filter.mp hk
          rw [Dict.get?_set_of_ne _ (hname (of_decide_eq_true hne)) v]
          exact h.gone k hmem
  | delete key =>
    simp only
    split_ifs
    · exact habandon
    · refine h.advance hp hstage true ?_ (fun hne => nomatch hne) (fun _ _ _ _ _ hk => nomatch hk)
        ?_ ?_
      · exact fun k hk => (Dict.get?_erase _ _ _).trans (if_neg (hname hk))
      · intro k hk
        obtain rfl := Call.delete.inj hk
        exact ⟨rfl, by rw [Dict.get?_erase, if_pos rfl]⟩
      · intro k hk
        rw [Dict.get?_erase]
        split_ifs
        · rfl
        · exact h.gone k hk

/-- The end of a call that leaves rows and values of every key in step. -/
theorem Inv.finish (h : Inv K s) {id : ℕ} {p : Progress κ ρ α} (hp : s.running.get? id = some p)
    {file : Option (Dict κ ρ)} {gone : List κ}
    (hsynced : ∀ k, Synced K { s with file, running := s.running.erase id, gone } k)
    (hgone : ∀ k ∈ gone, s.value K k = none) :
    Inv K { s with file, running := s.running.erase id, gone } := by
  have hnone : ∀ id' p', (s.running.erase id).get? id' ≠ some p' := by
    intro id' p' hp'
    rw [Dict.get?_erase] at hp'
    split_ifs at hp' with hid
    exact hid (h.unique hp hp').1
  exact ⟨fun id₁ p₁ _ _ h₁ => absurd h₁ (hnone id₁ p₁), fun id₁ p₁ h₁ => absurd h₁ (hnone id₁ p₁),
    fun k => Or.inl (hsynced k), fun id₁ p₁ h₁ => absurd h₁ (hnone id₁ p₁),
    fun id₁ p₁ h₁ => absurd h₁ (hnone id₁ p₁), hgone⟩

theorem Inv.save (h : Inv K s) {id : ℕ} {p : Progress κ ρ α} (hp : s.running.get? id = some p)
    {wrote raises : Bool} (hstage : p.stage = some wrote) (hraises : raises = true → wrote = false) :
    Inv K (Sidecar.save K s id p wrote raises) := by
  have hloaded := h.loaded id p hp
  have hother : ∀ k, k ≠ p.call.key → Synced K s k := fun k hk =>
    (h.synced k).resolve_right fun ⟨id', p', hp', hkey, _⟩ => by
      rw [(h.unique hp hp').2] at hkey
      exact hk hkey.symm
  unfold Sidecar.save
  cases raises with
  | true =>
    rw [hraises rfl] at hstage
    exact h.abandon hp (by simp [hstage])
  | false =>
    simp only [Bool.false_eq_true, if_false]
    cases hcall : p.call with
    | set key secret args now =>
      simp only
      refine h.finish hp (fun k => ?_) h.gone
      by_cases hk : k = key
      · subst hk
        refine ⟨?_, fun _ => ⟨_, Dict.get?_set_self _ _ _⟩⟩
        intro r hr hsecret
        have hrow : K.row k args now (p.loaded.get? k) wrote = r :=
          Option.some.inj ((Dict.get?_set_self _ _ _).symm.trans hr)
        rw [← hrow, K.hasSecret_row, Bool.or_eq_true] at hsecret
        cases wrote with
        | true => exact h.setWrote id p hp hstage k secret args now hcall
        | false =>
          have hsynced : Synced K s k := (h.synced k).resolve_right fun ⟨id', p', hp', _, htrue⟩ => by
            rw [(h.unique hp hp').2, hstage] at htrue
            cases htrue
          obtain hbefore | hbefore := hsecret
          · cases hold : p.loaded.get? k with
            | none => simp [hold] at hbefore
            | some old =>
              rw [hloaded] at hold
              rw [hloaded, hold] at hbefore
              exact hsynced.1 old hold hbefore
          · cases hbefore
      · have hget : (p.loaded.set key (K.row key args now (p.loaded.get? key) wrote)).get? k =
            s.rows.get? k := by rw [Dict.get?_set_of_ne _ hk, hloaded]
        have hsynced := hother k (by rw [hcall]; exact hk)
        refine ⟨fun r hr => hsynced.1 r (hget ▸ hr), fun hvalue => ?_⟩
        obtain ⟨r, hr⟩ := hsynced.2 hvalue
        exact ⟨r, hget.trans hr⟩
    | delete key =>
      simp only
      obtain ⟨-, hvalue⟩ := h.deleteWrote id p hp (by simp [hstage]) key hcall
      refine h.finish hp (fun k => ?_) ?_
      · by_cases hk : k = key
        · subst hk
          refine ⟨fun r hr => ?_, fun hsome => ?_⟩
          · have hnone : (p.loaded.erase k).get? k = none := by rw [Dict.get?_erase, if_pos rfl]
            exact absurd (hnone.symm.trans hr) (by simp)
          · have hsome : (s.value K k).isSome = true := hsome
            simp [hvalue] at hsome
        · have hget : (p.loaded.erase key).get? k = s.rows.get? k := by
            rw [Dict.get?_erase, if_neg hk, hloaded]
          have hsynced := hother k (by rw [hcall]; exact hk)
          refine ⟨fun r hr => hsynced.1 r (hget ▸ hr), fun hsome => ?_⟩
          obtain ⟨r, hr⟩ := hsynced.2 hsome
          exact ⟨r, hget.trans hr⟩
      · intro k hk
        rcases List.mem_cons.mp hk with rfl | hk
        · exact hvalue
        · exact h.gone k hk

theorem Inv.step (h : Inv K s) (step : Step κ α) (horder : Orderly s step) :
    Inv K (step.run K s) := by
  cases step with
  | load id call whole =>
    simp only [Step.run]
    split_ifs
    · exact h
    · exact h.load id call horder.1 horder.2
  | vault id raises =>
    simp only [Step.run]
    cases hp : s.running.get? id with
    | none => exact h
    | some p =>
      simp only
      split_ifs with hstage
      · exact h.vaultStep hp hstage raises
      · exact h
  | save id raises =>
    simp only [Step.run]
    cases hp : s.running.get? id with
    | none => exact h
    | some p =>
      simp only
      cases hstage : p.stage with
      | none => exact h
      | some wrote =>
        refine h.save hp hstage fun hraises => ?_
        have hunchanged := horder hraises p hp
        rw [hstage] at hunchanged
        simpa using hunchanged
  | lose =>
    have hrows : ({ s with file := none } : State κ ν ρ α).rows = s.rows := horder.symm
    refine ⟨h.one, fun id p hp => (h.loaded id p hp).trans hrows.symm, fun k => ?_, h.setWrote,
      h.deleteWrote, h.gone⟩
    refine (h.synced k).imp_left fun hk => ?_
    have hlost : (Step.run K s .lose).rows = s.rows := hrows
    unfold Synced at hk ⊢
    rw [hlost]
    exact hk

/-- A call in order touches no row but its own. -/
theorem Inv.keepsOthers (h : Inv K s) (step : Step κ α) : KeepsOthers K s step := by
  rintro ⟨id, ⟨call, whole, rfl⟩ | ⟨raises, rfl⟩ | ⟨raises, rfl⟩⟩ k hk
  · simp only [Step.run]
    split_ifs
    · rfl
    · unfold Sidecar.load
      cases call with
      | set key secret args now => rfl
      | delete key =>
        simp only
        split_ifs <;> rfl
  · simp only [Step.run]
    cases s.running.get? id with
    | none => rfl
    | some p =>
      simp only
      split_ifs
      · unfold Sidecar.vaultStep
        cases p.call with
        | set key secret args now =>
          simp only
          cases nonEmpty secret with
          | none => rfl
          | some v =>
            simp only
            split_ifs <;> rfl
        | delete key =>
          simp only
          split_ifs <;> rfl
      · rfl
  · simp only [Step.run, Step.savedKey] at hk ⊢
    cases hp : s.running.get? id with
    | none => rfl
    | some p =>
      have hne : k ≠ p.call.key := fun heq => hk (by rw [hp, heq]; rfl)
      have hloaded := h.loaded id p hp
      simp only
      cases p.stage with
      | none => rfl
      | some wrote =>
        simp only [Sidecar.save]
        split_ifs
        · rfl
        · cases hcall : p.call with
          | set key secret args now =>
            rw [hcall] at hne
            exact (Dict.get?_set_of_ne _ hne _).trans (by rw [hloaded])
          | delete key =>
            rw [hcall] at hne
            exact (Dict.get?_erase _ _ _).trans ((if_neg hne).trans (by rw [hloaded]))

theorem Inv.secretsHeld (h : Inv K s) : SecretsHeld K s := by
  intro k r hr hsecret
  rcases h.synced k with hsynced | ⟨id, p, hp, rfl, hstage⟩
  · exact Or.inl (hsynced.1 r hr hsecret)
  · cases hcall : p.call with
    | set key secret args now => exact Or.inl (h.setWrote id p hp hstage key secret args now hcall)
    | delete key => exact Or.inr ⟨id, p, hp, hcall⟩

/-- The three steps of a set, with none between them and none that raises, are the set at once. -/
theorem set_alone (s : State κ ν ρ α) {id : ℕ} (hid : id ∉ s.running) (key : κ)
    (secret : Option String) (args : α) (now : ℤ) :
    ((([.load id (.set key secret args now) true, .vault id false, .save id false] :
        List (Step κ α)).foldl (Step.run K) s).rows =
      s.rows.set key (K.row key args now (s.rows.get? key) (nonEmpty secret).isSome)) ∧
    (([.load id (.set key secret args now) true, .vault id false, .save id false] :
        List (Step κ α)).foldl (Step.run K) s).vault =
      match nonEmpty secret with
      | some value => s.vault.set (K.name key) value
      | none => s.vault := by
  cases hsecret : nonEmpty secret <;>
    simp [Step.run, hid, load, vaultStep, save, hsecret, State.rows]

theorem after_concat (steps : List (Step κ α)) (step : Step κ α) :
    after K (steps ++ [step]) = step.run K (after K steps) := by
  simp [after]

/-- An orderly run keeps the invariant. -/
theorem inv_after {steps : List (Step κ α)} (h : OrderlyRun K steps) : Inv K (after K steps) := by
  induction steps using List.reverseRecOn with
  | nil => exact inv_initial
  | append_singleton steps step ih =>
    rw [after_concat]
    refine (ih fun before step' rest hsteps => ?_).step step (h steps step [] rfl)
    exact h before step' (rest ++ [step]) (by rw [hsteps]; simp)

end

/-! ## The two stores -/

deriving instance DecidableEq for ConnectionFields, EntryFields

/-- `set_connection`, `set_enabled` and `delete_connection` on `connections.json`. -/
def connections : Kind (String × Key) (String × String) ConnectionMeta ConnectionFields where
  name key := (key.1, vaultSecretName key.2)
  name_injective := by
    rintro ⟨service, key⟩ ⟨service', key'⟩ h
    obtain ⟨rfl, hname⟩ := Prod.mk.inj h
    have htuple : (⟨service, .platform, key⟩ : SecretTuple) = ⟨service, .platform, key'⟩ :=
      secretName_injective rfl hname
    rw [(SecretTuple.mk.inj htuple).2.2]
  hasSecret := ConnectionMeta.hasSecret
  row key fields now existing wroteSecret :=
    connectionRow key.1 key.2 fields wroteSecret now existing
  hasSecret_row _ _ _ _ _ := rfl

/-- `set_user_entry` and `delete_user_entry` on `user_vault.json`. -/
def userVault :
    Kind (String × Subject × Key) (String × String) UserVaultEntryMeta EntryFields where
  name key := (key.1, userVaultSecretName key.2.1 key.2.2)
  name_injective := by
    rintro ⟨platform, subject, key⟩ ⟨platform', subject', key'⟩ h
    obtain ⟨rfl, hname⟩ := Prod.mk.inj h
    have htuple : (⟨platform, .user subject, key⟩ : SecretTuple) =
        ⟨platform, .user subject', key'⟩ := secretName_injective rfl hname
    obtain ⟨-, htier, rfl⟩ := SecretTuple.mk.inj htuple
    rw [Tier.user.inj htier]
  hasSecret := UserVaultEntryMeta.hasSecret
  row key fields now existing wroteSecret :=
    entryRow key.1 key.2.1 key.2.2 fields wroteSecret now existing
  hasSecret_row _ _ _ _ _ := rfl

/-! ## Runs -/

theorem orderlyRun_of_take {κ ν ρ α : Type} [DecidableEq κ] [DecidableEq ν] {K : Kind κ ν ρ α}
    {steps : List (Step κ α)}
    (h : ∀ i : Fin steps.length, Orderly (after K (steps.take i)) (steps.get i)) :
    OrderlyRun K steps := by
  rintro before step rest rfl
  simpa using h ⟨before.length, by simp⟩

private def wikiKey : Key := ⟨"wiki", by decide⟩

private def mailKey : Key := ⟨"mail", by decide⟩

/-- Two keys are set and one of them deleted, one call after the other. -/
private def oneByOne : List (Step (String × Key) ConnectionFields) :=
  [.load 0 (.set ("web", wikiKey) (some "k1") {} 100) true, .vault 0 false, .save 0 false,
    .load 1 (.set ("web", mailKey) (some "k2") {} 101) true, .vault 1 false, .save 1 false,
    .load 2 (.delete ("web", wikiKey)) true, .vault 2 false, .save 2 false]

/-- Two sets load before either saves: the second save drops the row of the first. -/
private def bothLoaded : List (Step (String × Key) ConnectionFields) :=
  [.load 0 (.set ("web", wikiKey) (some "k1") {} 100) true, .vault 0 false,
    .load 1 (.set ("web", mailKey) (some "k2") {} 100) true, .vault 1 false, .save 0 false]

/-- A delete whose save raises leaves its row. -/
private def deleteUnsaved : List (Step (String × Key) ConnectionFields) :=
  [.load 0 (.set ("web", wikiKey) (some "k1") {} 100) true, .vault 0 false, .save 0 false,
    .load 1 (.delete ("web", wikiKey)) true, .vault 1 false, .save 1 true]

/-- A set whose save raises leaves a value that a delete, without a row, does not look for. -/
private def setUnsaved : List (Step (String × Key) ConnectionFields) :=
  [.load 0 (.set ("web", wikiKey) (some "k1") {} 100) true, .vault 0 false, .save 0 true,
    .load 1 (.delete ("web", wikiKey)) true]

end Sidecar
end Recto
